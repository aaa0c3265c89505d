import CommunitySearch.Crawler.PrefixLaw

/-!
# What `strip_leading_www` strips

The function replaces the first `://www.` of a URL, which is meant to be the one between the scheme
and the host. It is, when the host begins with `www.`; when it does not, the replacement reaches the
first `://www.` of the path or of the query. So the host is all that the function touches just when
one of the two is not there (`stripLeadingWww_exact`).
-/

namespace Text

/-- Text changes when what replaces a part of it is shorter. -/
theorem replaceFirstList_eq_self_iff {p r l : List Char} (h : r.length < p.length) :
    replaceFirstList p r l = l ↔ containsList p l = false := by
  refine ⟨fun heq ↦ ?_, replaceFirstList_of_not_contains⟩
  induction l with
  | nil =>
    cases p with
    | nil => exact absurd h (Nat.not_lt_zero _)
    | cons c p => rfl
  | cons x l ih =>
    rw [replaceFirstList] at heq
    split at heq
    case isTrue hprefix =>
      have hlength := congrArg List.length heq
      have hle := (List.isPrefixOf_iff_prefix.1 hprefix).length_le
      rw [List.length_append, List.length_drop] at hlength
      omega
    case isFalse hprefix =>
      rw [containsList, Bool.eq_false_iff.2 hprefix, Bool.false_or]
      exact ih (List.cons.inj heq).2

end Text

namespace CommunitySearch

namespace Url

/-- The URL without a leading `www.` of its host. -/
def offWww (u : Url) : Url := { u with host := u.bareHost.map String.ofList }

/-- The host begins with `www.`. -/
def OnWww (u : Url) : Prop := ∃ host, u.host = some host ∧ Text.startsWith host "www." = true

variable {u : Url}

/-- A host without a leading `www.` is left. -/
theorem offWww_of_not_onWww (h : ¬ u.OnWww) : u.offWww = u := by
  have hhost : u.bareHost.map String.ofList = u.host := by
    rw [bareHost, Option.map_map]
    rcases hu : u.host with - | host
    · rfl
    · have hno : ¬ Text.startsWith host "www." = true := fun hwww ↦ h ⟨host, hu, hwww⟩
      show some (String.ofList (if _ then _ else _)) = _
      rw [if_neg hno, String.ofList_toList]
  rw [offWww, hhost]

/-- A path that does not read as an authority goes on not to. -/
theorem not_prefix_target (h : Text.startsWith u.path "//" = false) :
    ¬ "//".toList <+: u.target := by
  have hpath : ¬ "//".toList <+: u.path.toList := fun hprefix ↦ by
    rw [Text.startsWith_iff.2 hprefix] at h
    cases h
  obtain ⟨query, htarget, hquery⟩ : ∃ query, u.target = u.path.toList ++ query ∧
      query.head? ≠ some '/' := by
    refine ⟨_, rfl, ?_⟩
    split
    · exact fun h ↦ absurd (Option.some.inj h) (by decide)
    · exact nofun
  rw [htarget]
  rcases hchars : u.path.toList with - | ⟨a, - | ⟨b, rest⟩⟩
  · rintro ⟨rest, rfl⟩
    exact hquery rfl
  · intro hprefix
    obtain ⟨rest, rfl⟩ := (List.cons_prefix_cons.1 hprefix).2
    exact hquery rfl
  · intro hprefix
    rw [hchars] at hpath
    obtain ⟨ha, htail⟩ := List.cons_prefix_cons.1 hprefix
    obtain ⟨hb, -⟩ := List.cons_prefix_cons.1 htail
    exact hpath (List.cons_prefix_cons.2 ⟨ha, List.cons_prefix_cons.2 ⟨hb, List.nil_prefix⟩⟩)

/-- The text of a URL without a host, and what of it is stripped. -/
theorem toList_of_host_none (hu : u.IsWellFormed) (hcleared : u.IsCleared)
    (hhost : u.host = none) : ∃ pre, u.toString.toList = pre ++ u.target ∧
      (stripLeadingWww u.toString).toList =
        pre ++ Text.replaceFirstList "://www.".toList "://".toList u.target := by
  have htext : u.toString.toList =
      u.scheme.toList ++ ':' :: (u.authority.toList ++ u.target) := by
    rw [Url.toString, hcleared.fragment, target]
    rcases u.query with - | q
    · simp
    · simp
  have hpattern : "://www.".toList = ':' :: '/' :: '/' :: "www.".toList := by decide
  refine ⟨u.scheme.toList ++ ':' :: u.authority.toList, by rw [htext]; simp, ?_⟩
  have hauthority : ':' ∉ u.authority.toList := by
    rw [authority, hhost]
    dsimp only
    split <;> decide
  have hstart : (':' :: '/' :: '/' :: "www.".toList).isPrefixOf
      (':' :: (u.authority.toList ++ u.target)) = false := by
    refine Bool.eq_false_iff.2 fun h ↦ ?_
    have hslashes : "//".toList <+: u.authority.toList ++ u.target :=
      (List.prefix_append "//".toList "www.".toList).trans
        (List.cons_prefix_cons.1 (List.isPrefixOf_iff_prefix.1 h)).2
    rw [authority, hhost] at hslashes
    dsimp only at hslashes
    split at hslashes
    case isTrue =>
      have hdot := (List.cons_prefix_cons.1 (List.cons_prefix_cons.1 hslashes).2).1
      exact absurd hdot (by decide)
    case isFalse hpath => exact not_prefix_target (Bool.eq_false_iff.2 hpath) hslashes
  rw [stripLeadingWww, Text.replaceFirst, String.toList_ofList, htext, hpattern,
    Text.replaceFirstList_append _ hu.scheme, Text.replaceFirstList, hstart,
    if_neg Bool.false_ne_true, Text.replaceFirstList_append _ hauthority]
  simp

/-- The text of a URL whose host does not begin with `www.`, and what of it is stripped. -/
theorem toList_of_not_onWww (hu : u.IsWellFormed) (hcleared : u.IsCleared) (hwww : ¬ u.OnWww) :
    ∃ pre, u.toString.toList = pre ++ u.target ∧ (stripLeadingWww u.toString).toList =
      pre ++ Text.replaceFirstList "://www.".toList "://".toList u.target := by
  rcases hhost : u.host with - | host
  · exact toList_of_host_none hu hcleared hhost
  · have hno : ¬ Text.startsWith host "www." = true := fun h ↦ hwww ⟨host, hhost, h⟩
    have hbare : u.bareHost = some host.toList := by
      rw [bareHost, hhost, Option.map_some, if_neg hno]
    have hshown : u.shown = Text.replaceFirstList "://www.".toList "://".toList u.target := by
      rw [shown, hhost]
      exact if_neg hno
    refine ⟨u.scheme.toList ++ ':' :: ("//".toList ++ (host.toList ++ u.portChars)), ?_, ?_⟩
    · rw [toList_toString hcleared hhost]
      simp
    · rw [toList_stripLeadingWww hu hcleared hbare, hshown]
      simp

/-- **Under a host with `www.`**, that is what is stripped. -/
theorem stripLeadingWww_of_onWww (hu : u.IsWellFormed) (hcleared : u.IsCleared) (hwww : u.OnWww) :
    stripLeadingWww u.toString = u.offWww.toString := by
  obtain ⟨host, hhost, hstarts⟩ := hwww
  have hbare : u.bareHost = some (host.toList.drop 4) := by
    rw [bareHost, hhost, Option.map_some, if_pos hstarts]
  have hshown : u.shown = u.target := by
    rw [shown, hhost]
    exact if_pos hstarts
  have hoff : u.offWww.host = some (String.ofList (host.toList.drop 4)) := by
    rw [offWww, hbare]
    rfl
  have hcleared' : u.offWww.IsCleared := ⟨hcleared.username, hcleared.password, hcleared.fragment⟩
  refine String.toList_inj.1 ?_
  rw [toList_stripLeadingWww hu hcleared hbare, hshown, toList_toString hcleared' hoff]
  simp only [String.toList_ofList]
  rfl

theorem stripLeadingWww_eq_offWww_iff (hu : u.IsWellFormed) (hcleared : u.IsCleared) :
    stripLeadingWww u.toString = u.offWww.toString ↔
      u.OnWww ∨ Text.containsList "://www.".toList u.target = false := by
  by_cases hwww : u.OnWww
  · exact iff_of_true (stripLeadingWww_of_onWww hu hcleared hwww) (Or.inl hwww)
  · obtain ⟨pre, htext, hstripped⟩ := toList_of_not_onWww hu hcleared hwww
    rw [offWww_of_not_onWww hwww, ← String.toList_inj, hstripped, htext,
      List.append_cancel_left_eq, Text.replaceFirstList_eq_self_iff (by decide)]
    exact (or_iff_right hwww).symm

end Url

/-! ### The law -/

variable {X : Crates}

/-- The `url` crate: what it parses is well formed. -/
def Crates.SyntaxLaws (X : Crates) : Prop := ∀ s u, X.parse s = some u → u.IsWellFormed

/-- **`strip_leading_www` touches the host alone** just when the host of the normalised URL begins
with `www.`, or neither its path nor its query contains `://www.`. -/
theorem stripLeadingWww_exact (hX : X.SyntaxLaws) {s : String} {u : Url} (hs : X.parse s = some u) :
    (∀ t, normalizeUrl X s = some t → stripLeadingWww t = (u.normalize X).offWww.toString) ↔
      (u.normalize X).OnWww ∨
        Text.containsList "://www.".toList (u.normalize X).target = false := by
  have hu := hX s u hs
  have hnormal : (u.normalize X).IsWellFormed ∧ (u.normalize X).IsCleared := by
    obtain ⟨path, hpath⟩ := Url.exists_normalize_eq X u
    have hcleared : (u.normalize X).IsCleared := by
      rw [hpath]
      exact ⟨rfl, rfl, rfl⟩
    refine ⟨?_, hcleared⟩
    by_cases hbare : u.IsOpaque
    · rw [hpath]
      exact ⟨hu.scheme, hu.host, fun hhost ↦ absurd hhost (by simp [hbare.1])⟩
    · rw [Url.normalize_eq_of_not_isOpaque X hbare]
      exact ⟨hu.scheme, hu.host, hu.path⟩
  have hnorm : normalizeUrl X s = some (u.normalize X).toString := by
    rw [normalizeUrl, hs]
    rfl
  rw [hnorm, ← Url.stripLeadingWww_eq_offWww_iff hnormal.1 hnormal.2]
  exact ⟨fun h ↦ h _ rfl, fun h t ht ↦ Option.some.inj ht ▸ h⟩

namespace LinkInPath

/-- A page under a path that is itself a URL. -/
def page (host : String) : Url :=
  ⟨"https", "", none, some host, none, "/go/http://www.b.example/", none, none⟩

def crates : Crates := .ofTables
  { urls := ["a.example", "www.a.example"].map fun host ↦ ((page host).toString, page host)
    joins := []
    documents := []
    disallowed := []
    digests := [] }

theorem syntaxLaws : crates.SyntaxLaws := fun s u h ↦ by
  obtain ⟨host, hhost, he⟩ := List.mem_map.1 (mem_of_lookup h)
  obtain rfl : page host = u := (Prod.mk.inj he).2
  have hscheme : ':' ∉ "https".toList := by decide
  have hpath : "/go/http://www.b.example/".toList.head? = some '/' := by decide
  refine ⟨hscheme, fun host' hhost' ↦ ?_, fun _ c hc ↦ (Option.some.inj (hpath.symm.trans hc)).symm⟩
  obtain rfl : host = host' := Option.some.inj hhost'
  rcases List.mem_pair.1 hhost with rfl | rfl
  · exact ⟨by decide, fun h ↦ absurd h (by decide)⟩
  · exact ⟨by decide, fun h ↦ absurd h (by decide)⟩

/-- Under `www.` the path is safe. -/
theorem stripLeadingWww_exact_www :
    stripLeadingWww "https://www.a.example/go/http://www.b.example/" =
      ((page "www.a.example").normalize crates).offWww.toString := by
  have hparse : crates.parse "https://www.a.example/go/http://www.b.example/" =
      some (page "www.a.example") := by decide
  exact (stripLeadingWww_exact syntaxLaws hparse).2 (Or.inl ⟨"www.a.example", rfl, by decide⟩)
    "https://www.a.example/go/http://www.b.example/" (by decide)

/-- Under the bare host it loses the `www.` of the URL in it. -/
theorem not_stripLeadingWww_exact : ¬ ∀ (X : Crates) (s : String) (u : Url), X.SyntaxLaws →
    X.parse s = some u → ∀ t, normalizeUrl X s = some t →
      stripLeadingWww t = (u.normalize X).offWww.toString := fun h ↦ by
  have hpage := h crates "https://a.example/go/http://www.b.example/" (page "a.example")
    syntaxLaws (by decide) "https://a.example/go/http://www.b.example/" (by decide)
  exact absurd hpage (by decide)

end LinkInPath

end CommunitySearch
