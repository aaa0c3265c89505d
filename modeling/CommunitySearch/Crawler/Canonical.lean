import CommunitySearch.Crawler.PrefixLaw

/-!
# The canonical form of a new target

When a target is added, the server is asked where its prefix leads: if the redirects end at a URL
with the same path, up to a trailing slash, the normal form of that URL is stored in place of what
was typed. A redirect that takes the path elsewhere is refused, so as not to narrow the prefix.

But `is_in_prefix` compares paths and queries character by character, so that a slash or a query
that is gained narrows it too. `Url.covers_iff` is about the texts that are compared,
`neverNarrows_of_detect` about the URLs.
-/

namespace CommunitySearch

/-! ### Detection -/

/-- What is left of a response once the redirects are followed. -/
structure FinalResponse where
  url : Url
  status : Nat

def FinalResponse.isSuccess (r : FinalResponse) : Bool := 200 ≤ r.status && r.status < 300

/-- `strip_suffix('/')`, or the path itself. -/
def stripSlash (path : String) : List Char :=
  if path.toList.getLast? = some '/' then path.toList.dropLast else path.toList

/-- `paths_equivalent`. -/
def pathsEquivalent (a b : String) : Bool :=
  if a = b then true else stripSlash a = stripSlash b

/-- `detect_canonical_prefix`; there is no response when no client can be built or the request
fails. -/
def detectCanonicalPrefix (X : Crates) (input : String) (response : Option FinalResponse) :
    Option String :=
  (X.parse input).bind fun inputUrl ↦ response.bind fun resp ↦
    if !resp.isSuccess then none
    else if resp.url.toString = inputUrl.toString then none
    else if !pathsEquivalent inputUrl.path resp.url.path then none
    else normalizeUrl X resp.url.toString

/-- What is detected is the normal form of where the redirects ended. -/
theorem normalizeUrl_of_detect {X : Crates} {input c : String} {response : Option FinalResponse}
    (h : detectCanonicalPrefix X input response = some c) :
    ∃ p r, X.parse input = some p ∧ response = some r ∧
      normalizeUrl X r.url.toString = some c := by
  obtain ⟨p, hp, h⟩ := Option.bind_eq_some_iff.1 h
  obtain ⟨r, hr, h⟩ := Option.bind_eq_some_iff.1 h
  refine ⟨p, r, hp, hr, ?_⟩
  split at h
  · cases h
  · split at h
    · cases h
    · split at h
      · cases h
      · exact h

/-- **What is detected is in normal form.** -/
theorem normalizeUrl_detected {X : Crates} {valid : Url → Prop} (hX : X.UrlLaws valid)
    {input c : String} {response : Option FinalResponse}
    (h : detectCanonicalPrefix X input response = some c) : normalizeUrl X c = some c := by
  obtain ⟨-, r, -, -, hc⟩ := normalizeUrl_of_detect h
  exact normalizeUrl_idem hX hc

/-! ### What narrowing means -/

namespace Url

/-- The URL at the scheme, the host and the port of another. -/
def movedTo (u v : Url) : Url :=
  { u with scheme := v.scheme, host := v.host, port := v.port }

end Url

/-- **Nothing is lost**: every URL that the prefix admits is admitted by `c`, once it is moved to
the scheme and the host of `c`. The port goes with the host. -/
def NeverNarrows (X : Crates) (pre c : String) : Prop :=
  ∀ s u v, X.parse s = some u → X.parse c = some v → isInPrefix X s pre = true →
    isInPrefix X (u.movedTo v).toString c = true

/-- The `url` crate on moving a URL: a scheme has no colon, and the scheme, the host and the port
of a URL under `http` or `https` can be set to those of another. -/
structure Crates.OriginLaws (X : Crates) (valid : Url → Prop) : Prop where
  scheme : ∀ {u}, valid u → ':' ∉ u.scheme.toList
  movedTo_valid : ∀ {u v}, valid u → valid v → u.scheme = "http" ∨ u.scheme = "https" →
    v.scheme = "http" ∨ v.scheme = "https" → valid (u.movedTo v)

/-- The HTTP client requests URLs under `http` and `https` only, and follows redirects to such. -/
structure FinalResponse.Received (valid : Url → Prop) (p : Url) (r : FinalResponse) : Prop where
  requested : p.scheme = "http" ∨ p.scheme = "https"
  url_valid : valid r.url
  scheme : r.url.scheme = "http" ∨ r.url.scheme = "https"

/-! ### What the comparison reads -/

namespace Url

/-- **When nothing is lost** between the path and query `a` that a prefix shows and the `b` that is
shown in its place, at a host that has a `www.` or not: `b` begins `a`; and where both go on behind
a `://`, the `www.` that one host loses there and the other does not makes no difference. -/
structure Covers (www : Bool) (b a : List Char) : Prop where
  begins : b <+: a
  www_kept : www = true → ∀ y e d, Text.containsList "://www.".toList y = false →
    b = y ++ ("://".toList ++ e) → a = y ++ ("://".toList ++ d) → e <+: "www.".toList ++ d
  www_lost : www = false → ∀ y e d, Text.containsList "://www.".toList y = false →
    b = y ++ ("://".toList ++ e) → a = y ++ ("://".toList ++ d) →
    d <+: "www.".toList ∨ "www.".toList <+: d → e <+: d.drop 4

variable {u p c : Url} {www : Bool} {a b t y z : List Char}

/-- Every text is what some text is read as. -/
theorem exists_reads (t : List Char) : ∃ t', reads false t' = t := by
  rcases reads_cases t with ht | ⟨y, z, rfl, -, hy⟩
  · exact ⟨t, ht⟩
  · exact ⟨y ++ ("://".toList ++ ("www.".toList ++ ("www.".toList ++ z))), reads_append hy⟩

/-- Behind a `://` that both reach. -/
theorem begins_or_behind {m : List Char} (h : b <+: a) (ha : a <+: y ++ ("://".toList ++ m)) :
    b <+: y ++ "://".toList ∨ ∃ e d, b = y ++ ("://".toList ++ e) ∧
      a = y ++ ("://".toList ++ d) ∧ d <+: m := by
  rw [← List.append_assoc] at ha
  rcases List.prefix_or_append_of_prefix ha with hshort | ⟨d, rfl, hd⟩
  · exact Or.inl (h.trans hshort)
  · rcases List.prefix_or_append_of_prefix h with hshort | ⟨e, rfl, -⟩
    · exact Or.inl hshort
    · exact Or.inr ⟨e, d, List.append_assoc .., List.append_assoc .., hd⟩

/-- **What covers reads**: whatever goes on from `a`, at a host with a `www.` or without, goes on
from `b` at the host of `b`. -/
theorem Covers.reads (h : Covers www b a) (v : Bool) (ha : a <+: Url.reads v t) :
    b <+: Url.reads www t := by
  have hb := h.begins.trans ha
  rcases reads_cases t with hsame | ⟨y, z, rfl, hread, hy⟩
  · have hall : ∀ w, Url.reads w t = t := fun w ↦ by
      cases w
      · exact hsame
      · rfl
    rwa [hall] at hb ⊢
  · have hshort : ∀ {m}, b <+: y ++ "://".toList → b <+: y ++ ("://".toList ++ m) :=
      fun {m} hy ↦ by
        rw [← List.append_assoc]
        exact hy.trans (List.prefix_append _ _)
    cases www with
    | true =>
      cases v with
      | true => exact hb
      | false =>
        rw [hread] at ha
        rcases begins_or_behind h.begins ha with hb | ⟨e, d, rfl, rfl, hd⟩
        · exact hshort hb
        · rw [reads_true, List.prefix_append_right_inj, List.prefix_append_right_inj]
          exact (h.www_kept rfl y e d hy rfl rfl).trans ((List.prefix_append_right_inj _).2 hd)
    | false =>
      cases v with
      | false => exact hb
      | true =>
        rw [hread]
        rcases begins_or_behind h.begins ha with hb | ⟨e, d, rfl, rfl, hd⟩
        · exact hshort hb
        · rw [List.prefix_append_right_inj, List.prefix_append_right_inj]
          have hfits := List.prefix_or_prefix_of_prefix hd (List.prefix_append _ z)
          exact (h.www_lost rfl y e d hy rfl rfl hfits).trans (hd.drop 4)

/-- **Covering is exact**: it is what `b` begins all that `a` begins for. -/
theorem covers_iff :
    Covers www b a ↔ ∀ v t, a <+: Url.reads v t → b <+: Url.reads www t := by
  refine ⟨fun h v t ↦ h.reads v, fun h ↦ ?_⟩
  have hbegins : b <+: a := by
    cases www with
    | true => exact h true a (List.prefix_refl a)
    | false =>
      obtain ⟨t, rfl⟩ := exists_reads a
      exact h false t (List.prefix_refl _)
  refine ⟨hbegins, ?_, ?_⟩
  · rintro rfl y e d hy rfl rfl
    have hread := h false (y ++ ("://".toList ++ ("www.".toList ++ d))) (by rw [reads_append hy])
    rw [reads_true, List.prefix_append_right_inj, List.prefix_append_right_inj] at hread
    exact hread
  · rintro rfl y e d hy rfl rfl (hd | ⟨d, rfl⟩)
    · -- a `www.` can be followed by what `e` does not begin with
      have hread := h true (y ++ ("://".toList ++ ("www.".toList ++ ['x'])))
        ((List.prefix_append_right_inj _).2 ((List.prefix_append_right_inj _).2
          (hd.trans (List.prefix_append _ _))))
      rw [reads_append hy, List.prefix_append_right_inj, List.prefix_append_right_inj] at hread
      rw [List.prefix_append_right_inj, List.prefix_append_right_inj] at hbegins
      cases e with
      | nil => exact List.nil_prefix
      | cons l e =>
        have hx := (List.cons_prefix_cons.1 hread).1
        have hw := (List.cons_prefix_cons.1 (hbegins.trans hd)).1
        rw [hx] at hw
        exact absurd hw (by decide)
    · have hread := h true _ (List.prefix_refl _)
      rw [reads_append hy, List.prefix_append_right_inj, List.prefix_append_right_inj] at hread
      exact hread

/-- Without `://` there is no `www.` to lose. -/
theorem reads_of_plain (ht : Text.containsList "://".toList t = false) : reads www t = t := by
  cases www with
  | true => rfl
  | false =>
    rcases reads_cases t with hsame | ⟨y, z, rfl, -, -⟩
    · exact hsame
    · rw [Text.containsList_append] at ht
      cases ht

/-- Nor does it matter to a beginning without one. -/
theorem prefix_reads_iff (hb : Text.containsList "://".toList b = false) :
    b <+: reads www t ↔ b <+: t := by
  have hshort : ∀ {y m}, b <+: y ++ ("://".toList ++ m) ↔ b <+: y ++ "://".toList := fun {y m} ↦ by
    rw [← List.append_assoc]
    refine ⟨fun h ↦ ?_, fun h ↦ h.trans (List.prefix_append _ _)⟩
    rcases List.prefix_or_append_of_prefix h with h | ⟨e, rfl, -⟩
    · exact h
    · rw [List.append_assoc, Text.containsList_append] at hb
      cases hb
  cases www with
  | true => exact Iff.rfl
  | false =>
    rcases reads_cases t with hsame | ⟨y, z, rfl, hread, -⟩
    · rw [hsame]
    · rw [hread, hshort, hshort]

theorem covers_of_plain (hb : Text.containsList "://".toList b = false) :
    Covers www b a ↔ b <+: a := by
  have hnot : ∀ {y e}, b ≠ y ++ ("://".toList ++ e) := by
    rintro y e rfl
    rw [Text.containsList_append] at hb
    cases hb
  exact ⟨fun h ↦ h.begins, fun h ↦
    ⟨h, fun _ _ _ _ _ he _ ↦ absurd he hnot, fun _ _ _ _ _ he _ _ ↦ absurd he hnot⟩⟩

theorem shown_movedTo (hc : c.IsHttp) : (u.movedTo c).shown = reads c.hasWww u.target := by
  obtain ⟨host, hhost, -⟩ := hc.host
  have hmoved : (u.movedTo c).host = some host := hhost
  rw [shown, hasWww, hmoved, hhost]
  rfl

/-- Normalising and moving to a normalised URL commute. -/
theorem normalize_movedTo {X : Crates} (hu : u.IsHttp) (hchttp : c.IsHttp)
    (hc : c.dropDefaultPort.port = c.port) :
    (u.movedTo c).normalize X = (u.normalize X).movedTo c := by
  have hmoved : ¬ (u.movedTo c).IsOpaque := by
    obtain ⟨host, hhost, -⟩ := hchttp.host
    exact not_isOpaque_of_host (u := u.movedTo c) hhost
  have hport : (u.movedTo c).dropDefaultPort.port = c.port :=
    (port_dropDefaultPort (u := u.movedTo c) (v := c) rfl rfl).trans hc
  rw [normalize_eq_of_not_isOpaque X hmoved, normalize_eq_of_not_isOpaque X hu.not_isOpaque, hport]
  rfl

theorem port_normalize {X : Crates} {valid : Url → Prop} (hX : X.UrlLaws valid) (u : Url) :
    (u.normalize X).dropDefaultPort.port = (u.normalize X).port := by
  have h := congrArg Url.port (normalize_normalize hX u)
  obtain ⟨path, hpath⟩ := exists_normalize_eq X (u.normalize X)
  rwa [hpath] at h

/-- The scheme is compared as it is. -/
theorem scheme_eq_of_startsWith {v : Url} (hu : ':' ∉ u.scheme.toList) (hv : ':' ∉ v.scheme.toList)
    (h : Text.startsWith (stripLeadingWww u.toString) (stripLeadingWww v.toString) = true) :
    v.scheme = u.scheme := by
  have hstrip : ∀ {w : Url}, ':' ∉ w.scheme.toList →
      ∃ rest, (stripLeadingWww w.toString).toList = w.scheme.toList ++ ':' :: rest := by
    intro w hw
    have hwrite : ∃ rest, w.toString.toList = w.scheme.toList ++ ':' :: rest := by
      simp only [Url.toString, String.toList_append, List.append_assoc]
      exact ⟨_, rfl⟩
    obtain ⟨rest, hrest⟩ := hwrite
    have hpattern : "://www.".toList = ':' :: "//www.".toList := rfl
    rw [stripLeadingWww, Text.replaceFirst, String.toList_ofList, hrest, hpattern,
      Text.replaceFirstList_append _ hw, Text.replaceFirstList]
    split
    · exact ⟨_, rfl⟩
    · exact ⟨_, rfl⟩
  obtain ⟨r, hr⟩ := hstrip hu
  obtain ⟨r', hr'⟩ := hstrip hv
  rw [Text.startsWith_iff, hr, hr'] at h
  exact String.toList_inj.1 ((Text.append_cons_prefix_iff hv hu).1 h).1

end Url

/-! ### When detection narrows -/

variable {X : Crates} {valid : Url → Prop}

theorem scheme_of_isInPrefix (hX : X.UrlLaws valid) (hO : X.OriginLaws valid) {s pre : String}
    {u p : Url} (hs : X.parse s = some u) (hp : X.parse pre = some p)
    (h : isInPrefix X s pre = true) : p.scheme = u.scheme := by
  rw [isInPrefix, normalizeUrl, normalizeUrl, hs, hp, Option.map_some, Option.map_some] at h
  have hcolon : ∀ {r w}, X.parse r = some w → ':' ∉ (w.normalize X).scheme.toList := fun hr ↦ by
    rw [Url.scheme_normalize]
    exact hO.scheme (hX.parse_valid hr)
  have hscheme := Url.scheme_eq_of_startsWith (hcolon hs) (hcolon hp) h
  rwa [Url.scheme_normalize, Url.scheme_normalize] at hscheme

/-- **A URL moved to a normalised prefix** lies in it just when the path and query do. -/
theorem isInPrefix_movedTo (hX : X.UrlLaws valid) (hH : X.HttpLaws) (hO : X.OriginLaws valid)
    {r u : Url} (hr : valid r) (hrhttp : r.scheme = "http" ∨ r.scheme = "https") (hu : valid u)
    (huhttp : u.scheme = "http" ∨ u.scheme = "https") :
    isInPrefix X (u.movedTo (r.normalize X)).toString (r.normalize X).toString = true ↔
      (r.normalize X).shown <+: Url.reads (r.normalize X).hasWww (u.normalize X).target := by
  set c := r.normalize X with hc
  have hcvalid : valid c := Url.normalize_valid hX hr
  have hscheme : c.scheme = r.scheme := Url.scheme_normalize X r
  have hchttp : c.scheme = "http" ∨ c.scheme = "https" := hscheme ▸ hrhttp
  have hcparse := hX.parse_toString hcvalid
  have hcsame : c.normalize X = c := Url.normalize_normalize hX r
  rw [isInPrefix_iff hH (hX.parse_toString (hO.movedTo_valid hu hcvalid huhttp hchttp)) hcparse
    hchttp hchttp, hcsame, Url.normalize_movedTo (hH _ _ (hX.parse_toString hu) huhttp)
    (hH _ _ hcparse hchttp) (Url.port_normalize hX r),
    Url.shown_movedTo (hH _ _ hcparse hchttp)]
  exact and_iff_right ⟨rfl, rfl, rfl⟩

/-- **Detection narrows nothing** if what it shows of path and query covers what the input shows,
and, by `covers_iff`, there is no weaker condition on these texts. If it narrows nothing, it admits
the input itself. So, unless there is a `://` in the path or query of the detected prefix, it
narrows nothing just when these begin those of the input: when the redirects have added neither a
slash nor a query. -/
theorem neverNarrows_of_detect (hX : X.UrlLaws valid) (hH : X.HttpLaws) (hO : X.OriginLaws valid)
    {input c : String} {p : Url} {r : FinalResponse} (hp : X.parse input = some p)
    (hr : r.Received valid p) (h : detectCanonicalPrefix X input (some r) = some c) :
    (Url.Covers (r.url.normalize X).hasWww (r.url.normalize X).shown (p.normalize X).shown →
        NeverNarrows X input c) ∧
      (NeverNarrows X input c → (r.url.normalize X).shown <+:
        Url.reads (r.url.normalize X).hasWww (p.normalize X).target) ∧
      (Text.containsList "://".toList (r.url.normalize X).target = false →
        (NeverNarrows X input c ↔ (r.url.normalize X).target <+: (p.normalize X).target)) := by
  obtain ⟨_, _, hp', hr', hc⟩ := normalizeUrl_of_detect h
  obtain rfl := Option.some.inj hr'
  rw [normalizeUrl, hX.parse_toString hr.url_valid] at hc
  obtain rfl := Option.some.inj hc
  have hcparse := hX.parse_toString (Url.normalize_valid hX hr.url_valid)
  have hmoved := fun {u} (hu : valid u) huhttp ↦
    isInPrefix_movedTo hX hH hO hr.url_valid hr.scheme hu huhttp
  have hcovers : Url.Covers (r.url.normalize X).hasWww (r.url.normalize X).shown
      (p.normalize X).shown → NeverNarrows X input (r.url.normalize X).toString := by
    intro hcovers s u v hs hv hin
    obtain rfl := Option.some.inj (hcparse.symm.trans hv)
    have huhttp : u.scheme = "http" ∨ u.scheme = "https" :=
      scheme_of_isInPrefix hX hO hs hp hin ▸ hr.requested
    -- what the input admits shows what the input shows
    have hshown := ((isInPrefix_iff hH hs hp huhttp hr.requested).1 hin).2
    rw [Url.shown_eq (Url.normalize_isNormal hH hs huhttp).toIsHttp] at hshown
    exact (hmoved (hX.parse_valid hs) huhttp).2 (hcovers.reads _ hshown)
  have hinput : NeverNarrows X input (r.url.normalize X).toString → (r.url.normalize X).shown <+:
      Url.reads (r.url.normalize X).hasWww (p.normalize X).target := by
    intro hnever
    have hself : isInPrefix X input input = true := by
      rw [isInPrefix, normalizeUrl, hp]
      exact Text.startsWith_self _
    exact (hmoved (hX.parse_valid hp) hr.requested).1 (hnever _ _ _ hp hcparse hself)
  -- without a `://` nothing is lost to the text, and both conditions become one
  refine ⟨hcovers, hinput, fun hplain ↦ ?_⟩
  have hchttp : (r.url.normalize X).scheme = "http" ∨ (r.url.normalize X).scheme = "https" := by
    rw [Url.scheme_normalize]
    exact hr.scheme
  have hcshown : (r.url.normalize X).shown = (r.url.normalize X).target := by
    rw [Url.shown_eq (hH _ _ hcparse hchttp), Url.reads_of_plain hplain]
  have hpshown := Url.shown_eq (Url.normalize_isNormal hH hp hr.requested).toIsHttp
  constructor
  · intro hnever
    have hin := hinput hnever
    rwa [hcshown, Url.prefix_reads_iff hplain] at hin
  · intro hbegins
    refine hcovers ?_
    rw [hcshown, hpshown, Url.covers_of_plain hplain, Url.prefix_reads_iff hplain]
    exact hbegins

namespace Redirected

def url (host path : String) (query : Option String) : Url :=
  ⟨"https", "", none, some host, none, path, query, none⟩

/-- The pages of a site under its two hosts. -/
def pages : List (String × String) :=
  [("www.example.com", "/"), ("example.com", "/"), ("www.example.com", "/about"),
    ("example.com", "/about")]

def urls : List (String × Url) :=
  pages.map fun s ↦ ((url s.1 s.2 none).toString, url s.1 s.2 none)

def crates : Crates := Crates.ofTables ⟨urls, [], [], [], []⟩

/-- The URLs of the site. -/
def Valid (u : Url) : Prop := ∃ s ∈ pages, url s.1 s.2 none = u

theorem valid_iff {u : Url} : Valid u ↔ ∃ p ∈ urls, p.2 = u := by
  rw [urls]
  simp only [List.mem_map, exists_exists_and_eq_and]
  exact Iff.rfl

theorem urlLaws : crates.UrlLaws Valid := by
  have hvalid : Valid = _ := funext fun _ ↦ propext valid_iff
  rw [hvalid]
  exact Crates.urlLaws_ofTables (by decide) fun _ hj ↦ absurd hj List.not_mem_nil

theorem httpLaws : crates.HttpLaws := by
  intro s u hs _
  obtain ⟨x, hx, rfl⟩ := urlLaws.parse_valid hs
  have hall : ∀ x ∈ pages, '/' ∉ x.1.toList ∧ ':' ∉ x.1.toList ∧ x.2.toList.head? = some '/' := by
    decide
  obtain ⟨hslash, hcolon, hpath⟩ := hall x hx
  exact ⟨.inr rfl, ⟨_, rfl, hslash, fun h ↦ absurd h hcolon⟩, hpath⟩

theorem originLaws : crates.OriginLaws Valid where
  scheme := by
    rintro _ ⟨x, -, rfl⟩
    show ':' ∉ "https".toList
    decide
  movedTo_valid := by
    rintro _ _ ⟨x, hx, rfl⟩ ⟨y, hy, rfl⟩ - -
    have hall : ∀ x ∈ pages, ∀ y ∈ pages, (y.1, x.2) ∈ pages := by decide
    exact ⟨_, hall x hx y hy, rfl⟩

/-- **The host alone changes**: the prefix loses nothing. -/
theorem neverNarrows_bareHost :
    detectCanonicalPrefix crates "https://www.example.com/"
        (some ⟨url "example.com" "/" none, 200⟩) = some "https://example.com/" ∧
      NeverNarrows crates "https://www.example.com/" "https://example.com/" := by
  have hdetect : detectCanonicalPrefix crates "https://www.example.com/"
      (some ⟨url "example.com" "/" none, 200⟩) = some "https://example.com/" := by decide
  refine ⟨hdetect, ((neverNarrows_of_detect (p := url "www.example.com" "/" none) urlLaws httpLaws
    originLaws (by decide) ⟨.inr rfl, ⟨("example.com", "/"), by decide, rfl⟩, .inr rfl⟩ hdetect).2.2
    (by decide)).2 (by decide)⟩

/-- The home page asks for a language. -/
def queryCrates : Crates :=
  { Crates.ofTables
      ⟨[("https://example.com/", url "example.com" "/" none),
        ("https://example.com/?lang=en", url "example.com" "/" (some "lang=en")),
        ("https://example.com/about", url "example.com" "/about" none)], [], [], [], []⟩ with
    queryPairs := Form.queryPairs
    serializePairs := Form.serialize }

/-- **A redirect that adds a query** narrows the prefix to the page it leads to. -/
theorem not_neverNarrows :
    detectCanonicalPrefix queryCrates "https://example.com/"
        (some ⟨url "example.com" "/" (some "lang=en"), 200⟩) =
          some "https://example.com/?lang=en" ∧
      ¬ NeverNarrows queryCrates "https://example.com/" "https://example.com/?lang=en" := by
  refine ⟨by decide +kernel, fun h ↦ ?_⟩
  have hin := h "https://example.com/about" (url "example.com" "/about" none)
    (url "example.com" "/" (some "lang=en")) (by decide) (by decide) (by decide +kernel)
  revert hin
  decide +kernel

end Redirected

end CommunitySearch
