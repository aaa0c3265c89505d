import CommunitySearch.Foundation.Text

/-!
# URLs and the crates around them

`Url` is the parsed form the `url` crate works on, with the accessors and setters the crawler
uses and the serialisation of `to_string`. What the crates themselves compute — parsing a URL,
joining a reference, following a redirect, tokenising HTML or XML, matching robots rules, hashing —
is not part of this repository, so it enters as a parameter: the structure `Crates`. Every
definition of the model takes it, and every theorem holds for all of it unless it names a law of a
crate.
-/

namespace CommunitySearch

/-- A parsed URL. `port` is `none` for the default port of the scheme. -/
structure Url where
  scheme : String
  username : String
  password : Option String
  host : Option String
  port : Option Nat
  path : String
  query : Option String
  fragment : Option String
deriving DecidableEq, Repr

namespace Url

/-- The part between the scheme and the path. -/
def authority (u : Url) : String :=
  match u.host with
  | some host =>
    let userinfo := match u.username, u.password with
      | "", none => ""
      | name, none => name ++ "@"
      | name, some secret => name ++ ":" ++ secret ++ "@"
    let port := match u.port with
      | some p => ":" ++ toString p
      | none => ""
    "//" ++ userinfo ++ host ++ port
  -- a path that would read as an authority is kept apart from the scheme
  | none => if Text.startsWith u.path "//" then "/." else ""

/-- `Url::to_string`. -/
protected def toString (u : Url) : String :=
  u.scheme ++ ":" ++ u.authority ++ u.path ++
    (match u.query with | some q => "?" ++ q | none => "") ++
    (match u.fragment with | some f => "#" ++ f | none => "")

/-- `scheme://host[:port]`, the origin under which robots rules are cached. -/
def origin (u : Url) : Option String :=
  u.host.map fun host ↦
    match u.port with
    | some port => u.scheme ++ "://" ++ host ++ ":" ++ toString port
    | none => u.scheme ++ "://" ++ host

/-- `cannot_be_a_base`. -/
def IsOpaque (u : Url) : Prop := u.host = none ∧ Text.startsWith u.path "/" = false

instance (u : Url) : Decidable u.IsOpaque := inferInstanceAs (Decidable (_ ∧ _))

theorem not_isOpaque_of_host {u : Url} {host : String} (h : u.host = some host) : ¬ u.IsOpaque :=
  fun hu ↦ nomatch h.symm.trans hu.1

/-- `strip_trailing_spaces_from_opaque_path`: such spaces would be lost if the URL were parsed from
a text that ends with them. -/
def stripOpaquePath (u : Url) : Url :=
  if u.IsOpaque ∧ u.query = none ∧ u.fragment = none then
    { u with path := Text.trimEndSpaces u.path }
  else u

/-- `set_fragment(None)`. -/
def dropFragment (u : Url) : Url := { u with fragment := none }.stripOpaquePath

/-- `set_query(None)`. -/
def dropQuery (u : Url) : Url := { u with query := none }.stripOpaquePath

/-- Only the path is touched. -/
theorem stripOpaquePath_eq (u : Url) :
    ∃ path, u.stripOpaquePath = { u with path := path } := by
  rw [stripOpaquePath]
  split
  · exact ⟨_, rfl⟩
  · exact ⟨u.path, rfl⟩

theorem stripOpaquePath_of_not_isOpaque {u : Url} (h : ¬ u.IsOpaque) : u.stripOpaquePath = u :=
  if_neg fun hu ↦ h hu.1

theorem stripOpaquePath_stripOpaquePath (u : Url) :
    u.stripOpaquePath.stripOpaquePath = u.stripOpaquePath := by
  by_cases h : u.IsOpaque ∧ u.query = none ∧ u.fragment = none
  · have hu : u.stripOpaquePath = { u with path := Text.trimEndSpaces u.path } := if_pos h
    rw [hu, stripOpaquePath]
    split
    · show ({ u with path := Text.trimEndSpaces (Text.trimEndSpaces u.path) } : Url) = _
      rw [Text.trimEndSpaces_trimEndSpaces]
    · rfl
  · have hu : u.stripOpaquePath = u := if_neg h
    rw [hu, hu]

/-- Userinfo and port make no difference to it. -/
theorem stripOpaquePath_setUserinfo (u : Url) (name : String) (secret : Option String)
    (p : Option Nat) :
    { u with username := name, password := secret, port := p }.stripOpaquePath =
      { u.stripOpaquePath with username := name, password := secret, port := p } := by
  by_cases h : u.IsOpaque ∧ u.query = none ∧ u.fragment = none
  · have hu : u.stripOpaquePath = { u with path := Text.trimEndSpaces u.path } := if_pos h
    rw [hu]
    exact if_pos h
  · have hu : u.stripOpaquePath = u := if_neg h
    rw [hu]
    exact if_neg h

end Url

/-- An `a[href]` element: its `href` and the text inside it. -/
structure Anchor where
  href : String
  text : String

/-- A `link[rel][href]` element. -/
structure LinkElement where
  rel : String
  href : String

/-- A text node of the body; `dropped` says that a `script`, `style` or `noscript` element
encloses it. -/
structure TextNode where
  text : String
  dropped : Bool

/-- What the selectors of the parser find in an HTML document, in document order. -/
structure Html where
  anchors : List Anchor
  links : List LinkElement
  /-- The text of each `title` element. -/
  titles : List String
  /-- The text nodes below the first `body` element, if there is one. -/
  body : Option (List TextNode)

/-- The events of the XML reader that the sitemap parser looks at. Names are qualified names;
`text` carries the unescaped text, `none` when unescaping fails. -/
inductive XmlEvent where
  | startTag (name : String)
  | text (s : Option String)
  | endTag (name : String)
  | other

/-- The robots rules of one origin. -/
structure Robot where
  /-- The text the rules were built from. -/
  rules : String
  /-- `Crawl-Delay`, in seconds. -/
  delay : Option Rat
  /-- The `Sitemap:` lines. -/
  sitemaps : List String
deriving DecidableEq

/-- The status of a redirect: a 3xx, but for 304, which answers a conditional request. -/
structure RedirectStatus where
  code : Nat
  isRedirect : 300 ≤ code ∧ code < 400 ∧ code ≠ 304
deriving DecidableEq

/-- 302. -/
def RedirectStatus.found : RedirectStatus := ⟨302, by decide⟩

/-- What is compared of a semantic version. -/
structure Version where
  major : Nat
  minor : Nat
deriving DecidableEq

/-- The third-party crates. -/
structure Crates where
  /-- `url::Url::parse`. -/
  parse : String → Option Url
  /-- `url::Url::join`. -/
  join : Url → String → Option Url
  /-- `url::Url::query_pairs` of a query string. -/
  queryPairs : String → List (String × String)
  /-- The query string written by `query_pairs_mut` from cleared. -/
  serializePairs : List (String × String) → String
  /-- `scraper::Html::parse_document`, read through the selectors. -/
  parseDocument : String → Html
  /-- `quick_xml::Reader` with trimmed text: the events up to the end of the document, or the
  error. -/
  readXml : String → Option (List XmlEvent)
  /-- `texting_robots::Robot::allowed`. -/
  allowed : Robot → String → Bool
  /-- `reqwest`: where the client goes on when a URL is answered with a redirect to a `Location`;
  `none` if it does not follow it. -/
  redirectTarget : Url → RedirectStatus → String → Option Url
  /-- `http::HeaderValue::from_str` accepts the text. -/
  isHeaderValue : String → Bool
  /-- `http::HeaderValue::to_str` of a value with these bytes. -/
  toStr : List UInt8 → Option String
  /-- `semver::Version::parse`. -/
  parseVersion : String → Option Version
  /-- The lower-case hexadecimal SHA-256 digest of the bytes of a string. -/
  sha256 : String → String

/-- Visible ASCII, a space or a tab. -/
def isVisible (c : Char) : Bool := c == '\t' || (32 ≤ c.toNat && c.toNat < 127)

/-- The text of a header value in which every byte is visible. -/
def visibleText (v : List UInt8) : Option String :=
  if (v.map Char.ofUInt8).all isVisible then some (.ofList (v.map Char.ofUInt8)) else none

/-- The behaviour of the crates on finitely many inputs, as tables. -/
structure CrateTables where
  urls : List (String × Url)
  /-- Base, reference and result of `join`, also of a redirect. -/
  joins : List ((Url × String) × Url)
  documents : List (String × Html)
  /-- The URLs each rule set disallows. -/
  disallowed : List (String × String)
  digests : List (String × String)

/-- The crates on the inputs of the tables. No table lists a query or an XML document. -/
def Crates.ofTables (t : CrateTables) : Crates where
  parse s := t.urls.lookup s
  join u s := t.joins.lookup (u, s)
  queryPairs _ := []
  serializePairs _ := ""
  parseDocument s := (t.documents.lookup s).getD ⟨[], [], [], none⟩
  readXml _ := none
  allowed robot url := (robot.rules, url) ∉ t.disallowed
  redirectTarget u status location :=
    if status.code ∈ [301, 302, 303, 307, 308] then t.joins.lookup (u, location) else none
  -- no control characters but the tab
  isHeaderValue s := s.toList.all fun c ↦ (32 ≤ c.toNat && c.toNat != 127) || c == '\t'
  toStr := visibleText
  parseVersion s := [("1.0.0", ⟨1, 0⟩)].lookup s
  sha256 s := (t.digests.lookup s).getD ""

/-- The documented behaviour of the `url` crate that the crawler relies on: a URL that was
parsed, also after the setters `normalize_url` calls, is parsed back from its serialisation; and
pairs taken from a query are the same after they are written and read back. `valid` are the values
of type `Url` that the crate can build. -/
structure Crates.UrlLaws (X : Crates) (valid : Url → Prop) : Prop where
  parse_valid : ∀ {s u}, X.parse s = some u → valid u
  join_valid : ∀ {u s v}, valid u → X.join u s = some v → valid v
  parse_toString : ∀ {u}, valid u → X.parse u.toString = some u
  dropFragment_valid : ∀ {u}, valid u → valid u.dropFragment
  clearUserinfo_valid : ∀ {u}, valid u → valid { u with username := "", password := none }
  dropPort_valid : ∀ {u}, valid u → valid { u with port := none }
  dropQuery_valid : ∀ {u}, valid u → valid u.dropQuery
  setQuery_valid : ∀ {u q} pairs, valid u → u.query = some q →
    valid { u with query := some (X.serializePairs pairs) }
  queryPairs_serializePairs : ∀ {q pairs}, (∀ p ∈ pairs, p ∈ X.queryPairs q) →
    X.queryPairs (X.serializePairs pairs) = pairs

/-- The documented behaviour of `HeaderValue::to_str`: a value is text if all its bytes are visible
ASCII, spaces or tabs. -/
def Crates.ToStrLaw (X : Crates) : Prop := ∀ v, X.toStr v = visibleText v

theorem Crates.toStrLaw_ofTables (t : CrateTables) : (ofTables t).ToStrLaw := fun _ ↦ rfl

/-- A URL that normalisation leaves alone. -/
def Url.IsPlain (u : Url) : Prop :=
  u.username = "" ∧ u.password = none ∧ u.port = none ∧ u.query = none ∧ u.fragment = none ∧
    ¬ u.IsOpaque

instance (u : Url) : Decidable u.IsPlain :=
  inferInstanceAs (Decidable (_ ∧ _ ∧ _ ∧ _ ∧ _ ∧ _))

/-- What is found in a table is in it. -/
theorem mem_of_lookup {α β : Type} [BEq α] [LawfulBEq α] {l : List (α × β)} {a : α} {b : β}
    (h : l.lookup a = some b) : (a, b) ∈ l := by
  induction l with
  | nil => cases h
  | cons p l ih =>
    rw [List.lookup_cons] at h
    split at h
    case h_1 ha =>
      obtain rfl := eq_of_beq ha
      exact Option.some.inj h ▸ List.mem_cons_self
    case h_2 => exact List.mem_cons_of_mem _ (ih h)

/-- Tables of plain URLs that parse their own serialisations obey the laws. -/
theorem Crates.urlLaws_ofTables {t : CrateTables}
    (hplain : ∀ p ∈ t.urls, p.2.IsPlain ∧ t.urls.lookup p.2.toString = some p.2)
    (hjoin : ∀ j ∈ t.joins, ∃ p ∈ t.urls, p.2 = j.2) :
    (ofTables t).UrlLaws fun u ↦ ∃ p ∈ t.urls, p.2 = u := by
  -- the setters change nothing
  have hset : ∀ {u : Url}, (∃ p ∈ t.urls, p.2 = u) → u.IsPlain := by
    rintro _ ⟨p, hp, rfl⟩
    exact (hplain p hp).1
  constructor
  case parse_valid => exact fun h ↦ ⟨_, mem_of_lookup h, rfl⟩
  case join_valid => exact fun _ h ↦ hjoin _ (mem_of_lookup h)
  case parse_toString =>
    rintro _ ⟨p, hp, rfl⟩
    exact (hplain p hp).2
  case dropFragment_valid =>
    intro u hu
    obtain ⟨-, -, -, -, hfragment, hbare⟩ := hset hu
    have hdrop : u.dropFragment = { u with fragment := none } :=
      Url.stripOpaquePath_of_not_isOpaque hbare
    rw [hdrop, ← hfragment]
    exact hu
  case clearUserinfo_valid => exact fun {u} hu ↦ (hset hu).1 ▸ (hset hu).2.1 ▸ hu
  case dropPort_valid => exact fun {u} hu ↦ (hset hu).2.2.1 ▸ hu
  case dropQuery_valid =>
    intro u hu
    obtain ⟨-, -, -, hquery, -, hbare⟩ := hset hu
    have hdrop : u.dropQuery = { u with query := none } :=
      Url.stripOpaquePath_of_not_isOpaque hbare
    rw [hdrop, ← hquery]
    exact hu
  case setQuery_valid => exact fun _ hu hq ↦ nomatch (hset hu).2.2.2.1.symm.trans hq
  case queryPairs_serializePairs =>
    exact fun {q pairs} h ↦ (List.eq_nil_iff_forall_not_mem.2 fun p hp ↦ nomatch h p hp).symm

end CommunitySearch
