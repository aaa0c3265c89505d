import CommunitySearch.Crawler.PrefixLaw
import CommunitySearch.Search.Service

/-!
# The host of a document, for `site:` and for a boost

The index keeps the host of a document as the `url` crate parses it (`Crates.indexedHost`), and
`site:` finds the documents that have it. A boost is looked up under what `extractDomain` cuts out
of the text of the URL, which is the host with the port behind it. So the two agree about a
normalised URL exactly when it has no port (`extractDomain_exact`).
-/

namespace CommunitySearch

variable (X : Crates) (engine : QueryEngine)

/-- The host that `IndexWriter::upsert` stores with a document. -/
def Crates.indexedHost (url : String) : String :=
  (((X.parse url).bind Url.host).map Text.toAsciiLowercase).getD ""

/-- `site:` with this host finds the document: the field is compared as a whole. -/
def SiteFinds (host url : String) : Prop := X.indexedHost url = host

/-- A boost for this host is looked up for the document. -/
def Boosts (host url : String) : Prop := engine.extractDomain url = host

instance (host url : String) : Decidable (Boosts engine host url) :=
  inferInstanceAs (Decidable (_ = _))

/-- What a boost does to the score: it is a factor for the documents it is looked up for. -/
theorem weightOf_extractDomain (host url : String) (boost : Rat) :
    weightOf [(host, boost)] (engine.extractDomain url) =
      (Rat.toF64 (if Boosts engine host url then boost else 1)).toFloat32 := by
  rw [weightOf, List.find?_singleton]
  by_cases h : Boosts engine host url
  · rw [if_pos h, if_pos (decide_eq_true (Eq.symm h))]
    rfl
  · rw [if_neg h, if_neg fun heq ↦ h (of_decide_eq_true heq).symm]
    rfl

/-- **The claim of the two hosts** of a URL. -/
structure HostAgreement (url : String) : Prop where
  domain : engine.extractDomain url = X.indexedHost url
  boosts : ∀ host, Boosts engine host url ↔ SiteFinds X host url

/-- The `url` crate: the host of an http(s) URL is of ASCII characters that end no userinfo. -/
def Crates.DomainLaws (X : Crates) : Prop :=
  ∀ s u, X.parse s = some u → u.scheme = "http" ∨ u.scheme = "https" →
    ∀ host, u.host = some host → ∀ c ∈ host.toList, c.toNat < 128 ∧ c ≠ '@'

/-- `str::to_lowercase` on ASCII. -/
def QueryEngine.LowercaseLaw (engine : QueryEngine) : Prop :=
  ∀ s : String, (∀ c ∈ s.toList, c.toNat < 128) → engine.toLowercase s = Text.toAsciiLowercase s

variable {X engine} {u : Url} {host : String}

/-- The scheme is cut off. -/
theorem afterFirst_append {p a : List Char} {c : Char} (l : List Char) (h : c ∉ a) :
    afterFirst (c :: p) (a ++ (c :: p ++ l)) = some l := by
  induction a with
  | nil =>
    have hprefix : (c :: p).isPrefixOf (c :: (p ++ l)) = true :=
      List.isPrefixOf_iff_prefix.2 (List.prefix_append (c :: p) l)
    show afterFirst (c :: p) (c :: (p ++ l)) = some l
    rw [afterFirst, if_pos hprefix, ← List.cons_append, List.drop_left]
  | cons x a ih =>
    obtain ⟨hx, ha⟩ := not_or.1 (List.mem_cons.not.1 h)
    have hno : ¬ (c :: p).isPrefixOf (x :: (a ++ (c :: p ++ l))) = true := fun hprefix ↦
      hx (List.cons_prefix_cons.1 (List.isPrefixOf_iff_prefix.1 hprefix)).1
    rw [List.cons_append, afterFirst, if_neg hno, ih ha]

/-- A written port is of ASCII characters, and ends no userinfo. -/
theorem ascii_of_mem_portChars : ∀ c ∈ u.portChars, c.toNat < 128 ∧ c ≠ '@' := by
  intro c hc
  rw [Url.portChars] at hc
  split at hc
  case h_1 =>
    rcases List.mem_cons.1 hc with rfl | hc
    · decide
    · have hdigit := Nat.isDigit_of_mem_toDigits (by decide) (by decide) hc
      rw [Char.isDigit, Bool.and_eq_true, decide_eq_true_iff, decide_eq_true_iff] at hdigit
      refine ⟨Nat.lt_of_le_of_lt (UInt32.le_iff_toNat_le.1 hdigit.2) (by decide), ?_⟩
      rintro rfl
      revert hdigit
      decide
  case h_2 => exact absurd hc List.not_mem_nil

variable (engine) in
/-- **What is cut out**: the host, and the port behind it. -/
theorem extractDomain_toString (hu : u.IsNormal) (hhost : u.host = some host)
    (hascii : ∀ c ∈ host.toList, c.toNat < 128 ∧ c ≠ '@') (hlower : engine.LowercaseLaw) :
    (engine.extractDomain u.toString).toList =
      (host.toList ++ u.portChars).map Char.toLower := by
  obtain ⟨host', hhost', hslash, -⟩ := hu.host
  obtain rfl := Option.some.inj (hhost.symm.trans hhost')
  obtain ⟨t, ht⟩ := Url.head_target hu.toIsHttp
  have hchars : ∀ c ∈ host.toList ++ u.portChars, c.toNat < 128 ∧ c ≠ '@' := fun c hc ↦
    (List.mem_append.1 hc).elim (hascii c) (ascii_of_mem_portChars c)
  have hauthority := Url.slash_not_mem_append_portChars (u := u) hslash
  have hafter : afterFirst "://".toList u.toString.toList =
      some (host.toList ++ u.portChars ++ '/' :: t) := by
    rw [Url.toList_toString hu.toIsCleared hhost, ht, ← List.append_assoc host.toList]
    exact afterFirst_append _ hu.isWellFormed.scheme
  have hsegment : (host.toList ++ u.portChars ++ '/' :: t).takeWhile (fun c ↦ c ≠ '/') =
      host.toList ++ u.portChars := by
    have hno : ∀ c ∈ host.toList ++ u.portChars, decide (c ≠ '/') = true := fun c hc ↦
      decide_eq_true fun (he : c = '/') ↦ hauthority (he ▸ hc)
    rw [List.takeWhile_append_of_pos hno, List.takeWhile_cons_of_neg (by decide), List.append_nil]
  have huser : ((host.toList ++ u.portChars).reverse.takeWhile fun c ↦ c ≠ '@') =
      (host.toList ++ u.portChars).reverse :=
    List.takeWhile_eq_self_iff.2 fun c hc ↦
      decide_eq_true (hchars c (List.mem_reverse.1 hc)).2
  have hascii' : ∀ c ∈ (String.ofList (host.toList ++ u.portChars)).toList, c.toNat < 128 :=
    fun c hc ↦ (hchars c (by rwa [String.toList_ofList] at hc)).1
  rw [QueryEngine.extractDomain, hafter, Option.getD_some, hsegment, huser, List.reverse_reverse,
    hlower _ hascii', Text.toAsciiLowercase, String.toList_ofList,
    String.toList_ofList]

/-- **The host of a boost is the host of `site:`** just when the normalised URL has no port. -/
theorem extractDomain_exact {valid : Url → Prop} (hX : X.UrlLaws valid) (hhttp : X.HttpLaws)
    (hdomain : X.DomainLaws) (hlower : engine.LowercaseLaw) {s : String} (hs : X.parse s = some u)
    (hscheme : u.scheme = "http" ∨ u.scheme = "https") :
    (∀ t, normalizeUrl X s = some t → HostAgreement X engine t) ↔
      (u.normalize X).port = none := by
  have hnormal := Url.normalize_isNormal hhttp hs hscheme
  obtain ⟨host, hhost, -⟩ := (hhttp s u hs hscheme).host
  have hhost' : (u.normalize X).host = some host := by
    obtain ⟨path, hpath⟩ := Url.exists_normalize_eq X u
    rw [hpath]
    exact hhost
  have hparse : X.parse (u.normalize X).toString = some (u.normalize X) :=
    hX.parse_toString (Url.normalize_valid hX (hX.parse_valid hs))
  have hindexed : X.indexedHost (u.normalize X).toString = Text.toAsciiLowercase host := by
    rw [Crates.indexedHost, hparse, Option.bind_some, hhost']
    rfl
  have hcut := extractDomain_toString engine hnormal hhost'
    (hdomain s u hs hscheme host hhost) hlower
  have hagree : engine.extractDomain (u.normalize X).toString =
      X.indexedHost (u.normalize X).toString ↔ (u.normalize X).port = none := by
    rw [← String.toList_inj, hcut, hindexed, Text.toAsciiLowercase, String.toList_ofList,
      List.map_append, List.append_right_eq_self, List.map_eq_nil_iff, Url.portChars]
    rcases (u.normalize X).port with - | p
    · exact iff_of_true rfl rfl
    · exact iff_of_false (List.cons_ne_nil _ _) (Option.some_ne_none p)
  rw [← hagree, normalizeUrl, hs]
  constructor
  · exact fun h ↦ (h _ rfl).domain
  · intro h t ht
    obtain rfl := Option.some.inj ht
    exact ⟨h, fun host ↦ by rw [Boosts, SiteFinds, h]⟩

namespace TwoPorts

/-- A page on a port. -/
def page (port : Option Nat) : Url :=
  ⟨"https", "", none, some "guide.example", port, "/", none, none⟩

/-- One page on the port of the scheme, and one on another. -/
def crates : Crates := .ofTables
  { urls := [none, some 8443].map fun port ↦ ((page port).toString, page port)
    joins := []
    documents := []
    disallowed := []
    digests := [] }

/-- Whatever is searched for. -/
def library : QueryEngine where
  Query := Unit
  parseQuery _ := .ok ()
  isMatch _ _ := true
  score _ _ _ _ := 1
  fragment _ _ _ := none
  encodeMinimal s := s
  toLowercase := Text.toAsciiLowercase

theorem eq_page_of_parse {s : String} (h : crates.parse s = some u) :
    u = page none ∨ u = page (some 8443) := by
  obtain ⟨port, hport, he⟩ := List.mem_map.1 (mem_of_lookup h)
  obtain rfl : page port = u := (Prod.mk.inj he).2
  exact (List.mem_pair.1 hport).imp (congrArg page) (congrArg page)

theorem urlLaws : crates.UrlLaws fun u ↦ u = page none ∨ u = page (some 8443) where
  parse_valid := eq_page_of_parse
  join_valid _ h := nomatch h
  parse_toString := by
    rintro u (rfl | rfl)
    · decide
    · decide
  dropFragment_valid := by
    rintro u (rfl | rfl)
    · exact Or.inl rfl
    · exact Or.inr rfl
  clearUserinfo_valid := by
    rintro u (rfl | rfl)
    · exact Or.inl rfl
    · exact Or.inr rfl
  dropPort_valid := by
    rintro u (rfl | rfl)
    · exact Or.inl rfl
    · exact Or.inl rfl
  dropQuery_valid := by
    rintro u (rfl | rfl)
    · exact Or.inl rfl
    · exact Or.inr rfl
  setQuery_valid := by
    rintro u q pairs (rfl | rfl) hq
    · cases hq
    · cases hq
  queryPairs_serializePairs {q pairs} h :=
    (List.eq_nil_iff_forall_not_mem.2 fun p hp ↦ nomatch h p hp).symm

theorem chars_host : ∀ c ∈ "guide.example".toList, c.toNat < 128 ∧ c ≠ '@' ∧ c ≠ '/' ∧ c ≠ ':' := by
  have hall : "guide.example".toList.all (fun c ↦
      decide (c.toNat < 128 ∧ c ≠ '@' ∧ c ≠ '/' ∧ c ≠ ':')) = true := by decide
  exact fun c hc ↦ of_decide_eq_true (List.all_eq_true.1 hall c hc)

theorem httpLaws : crates.HttpLaws := fun s u h _ ↦ by
  have hhost : Url.IsHost "guide.example".toList :=
    ⟨fun h ↦ (chars_host _ h).2.2.1 rfl, fun h ↦ absurd rfl (chars_host _ h).2.2.2⟩
  rcases eq_page_of_parse h with rfl | rfl
  · exact ⟨Or.inr rfl, ⟨_, rfl, hhost⟩, rfl⟩
  · exact ⟨Or.inr rfl, ⟨_, rfl, hhost⟩, rfl⟩

theorem domainLaws : crates.DomainLaws := fun s u h _ host hhost c hc ↦ by
  obtain rfl : host = "guide.example" := by
    rcases eq_page_of_parse h with rfl | rfl
    · exact (Option.some.inj hhost).symm
    · exact (Option.some.inj hhost).symm
  exact ⟨(chars_host c hc).1, (chars_host c hc).2.1⟩

/-- On the port of its scheme, a page has one host. -/
theorem extractDomain_exact_none : HostAgreement crates library "https://guide.example/" := by
  have hparse : crates.parse "https://guide.example/" = some (page none) := by decide
  exact (extractDomain_exact urlLaws httpLaws domainLaws (fun _ _ ↦ rfl) hparse (Or.inr rfl)).2
    (by decide) "https://guide.example/" (by decide)

/-- On another port it has two. -/
theorem not_hostAgreement : ¬ ∀ (X : Crates) (engine : QueryEngine) (valid : Url → Prop),
    X.UrlLaws valid → X.HttpLaws → X.DomainLaws → engine.LowercaseLaw →
      ∀ s u, X.parse s = some u → u.scheme = "http" ∨ u.scheme = "https" →
        ∀ t, normalizeUrl X s = some t → HostAgreement X engine t := fun h ↦ by
  have hpage := (h crates library _ urlLaws httpLaws domainLaws (fun _ _ ↦ rfl)
    "https://guide.example:8443/" (page (some 8443)) (by decide) (Or.inr rfl)
    "https://guide.example:8443/" (by decide)).domain
  exact absurd hpage (by decide)

end TwoPorts

end CommunitySearch
