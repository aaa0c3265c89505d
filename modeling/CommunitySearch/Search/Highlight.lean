import CommunitySearch.Foundation.ByteOffsets

/-!
# Highlighting at the offsets of the lower-cased text

`case_insensitive_wrap` searches the lower-cased text, and cuts the original text at the offsets
that it finds there. Lower-casing may change the number of bytes of a character, so such an offset
need not be one of the original: it can lie inside a character or behind the end, where the slice
panics, and the search can end before the original does, which loses the rest. `wrapLoop_eq` says
that nothing but the offsets matters; the function is right about a text exactly when each of them
is an offset of the text too (`caseInsensitiveWrap_exact`).
-/

namespace CommunitySearch

open Text

variable (T : CaseTable)

/-! ### The function -/

/-- The rounds of `case_insensitive_wrap`, at most so many; `none` is a panic. -/
def wrapLoop (haystack lowerHaystack lowerNeedle pre post : List Char) :
    (rounds : Nat) → (start : Nat) → (out : List Char) → Option (List Char)
  | 0, _, _ => none
  | rounds + 1, start, out =>
    if start < byteLen lowerHaystack then
      (sliceFrom lowerHaystack start).bind fun rest ↦
        match find lowerNeedle rest with
        | some relPos =>
          let absPos := start + relPos
          (slice haystack start absPos).bind fun before ↦
            (slice haystack absPos (absPos + byteLen lowerNeedle)).bind fun found ↦
              wrapLoop haystack lowerHaystack lowerNeedle pre post rounds
                (absPos + byteLen lowerNeedle) (out ++ before ++ pre ++ found ++ post)
        | none => (sliceFrom haystack start).map (out ++ ·)
    else some out

/-- `case_insensitive_wrap`, on characters. Every round passes a byte of the lower-cased text. -/
def wrapList (haystack needle pre post : List Char) : Option (List Char) :=
  if needle.isEmpty then some haystack
  else
    let lowerHaystack := T.toLowercase haystack
    wrapLoop haystack lowerHaystack (T.toLowercase needle) pre post (byteLen lowerHaystack + 1) 0 []

/-- `case_insensitive_wrap`; `none` is a panic. -/
def caseInsensitiveWrap (haystack needle pre post : String) : Option String :=
  (wrapList T haystack.toList needle.toList pre.toList post.toList).map .ofList

/-- A text with some of its parts wrapped: each part with what stands before it, and the rest. -/
structure Wrapping where
  marked : List (List Char × List Char)
  rest : List Char

namespace Wrapping

/-- The text with `pre` and `post` around the parts. -/
def render (w : Wrapping) (pre post : List Char) : List Char :=
  w.marked.flatMap (fun e ↦ e.1 ++ pre ++ e.2 ++ post) ++ w.rest

/-- The text without them. -/
def erase (w : Wrapping) : List Char := w.marked.flatMap (fun e ↦ e.1 ++ e.2) ++ w.rest

theorem render_nil (w : Wrapping) : w.render [] [] = w.erase := by
  rw [render, erase]
  simp

end Wrapping

/-- **The claim of the wrapping**: whatever is put around the matches, nothing panics, and the text
without it is the haystack. -/
def WrapRoundTrip (haystack needle : String) : Prop :=
  ∃ w : Wrapping, w.erase = haystack.toList ∧ ∀ pre post : String,
    caseInsensitiveWrap T haystack needle pre post =
      some (.ofList (w.render pre.toList post.toList))

/-- A match of `n` bytes in a lower-cased text of `len` bytes is one of the text itself: it begins
and ends between two characters, and at the end of both or of neither. -/
structure Aligned (haystack : List Char) (n len m : Nat) : Prop where
  start : IsCharBoundary haystack m
  stop : IsCharBoundary haystack (m + n)
  atEnd : m + n = len → len = byteLen haystack

/-! ### What the loop does with the matches -/

section Loop

variable {T} {haystack lowerHaystack lowerNeedle pre post : List Char} {n len start : Nat}
  {ms : List Nat} {out : List Char}

/-- The text is cut at the matches that are left. -/
def wrapMatches (haystack : List Char) (n len : Nat) (pre post : List Char) :
    List Nat → (start : Nat) → (out : List Char) → Option (List Char)
  | [], start, out => if start < len then (sliceFrom haystack start).map (out ++ ·) else some out
  | m :: ms, start, out =>
    (slice haystack start m).bind fun before ↦
      (slice haystack m (m + n)).bind fun found ↦
        wrapMatches haystack n len pre post ms (m + n) (out ++ before ++ pre ++ found ++ post)

/-- **The loop** cuts at the matches, and has rounds enough. -/
theorem wrapLoop_eq {rest : List Char} (hms : Matches lowerNeedle start rest ms)
    (hneedle : lowerNeedle ≠ []) {done : List Char} (hlower : lowerHaystack = done ++ rest)
    (hstart : byteLen done = start) {rounds : Nat} (hrounds : byteLen rest < rounds)
    (out : List Char) :
    wrapLoop haystack lowerHaystack lowerNeedle pre post rounds start out =
      wrapMatches haystack (byteLen lowerNeedle) (byteLen lowerHaystack) pre post ms start out := by
  induction hms generalizing done rounds out with
  | @none start rest hfind =>
    obtain ⟨rounds, rfl⟩ := Nat.exists_eq_add_of_lt (Nat.zero_lt_of_lt hrounds)
    have hrest : sliceFrom lowerHaystack start = some rest :=
      sliceFrom_eq_some_iff.2 ⟨done, hlower, hstart⟩
    rw [Nat.zero_add, wrapLoop, wrapMatches, hrest, Option.bind_some, hfind]
  | @next start a b ms hfind _ ih =>
    obtain ⟨rounds, rfl⟩ := Nat.exists_eq_add_of_lt (Nat.zero_lt_of_lt hrounds)
    have hrest : sliceFrom lowerHaystack start = some (a ++ (lowerNeedle ++ b)) :=
      sliceFrom_eq_some_iff.2 ⟨done, hlower, hstart⟩
    have hpos : 0 < byteLen lowerNeedle := Nat.pos_of_ne_zero (mt byteLen_eq_zero.1 hneedle)
    rw [byteLen_append, byteLen_append] at hrounds
    have hlt : start < byteLen lowerHaystack := by
      rw [hlower, byteLen_append, byteLen_append, byteLen_append]
      omega
    rw [Nat.zero_add, wrapLoop, wrapMatches, if_pos hlt, hrest, Option.bind_some, hfind]
    dsimp only
    refine Option.bind_congr fun before _ ↦ Option.bind_congr fun found _ ↦ ?_
    have hdone : lowerHaystack = (done ++ a ++ lowerNeedle) ++ b := by
      rw [hlower]
      simp
    have hstop : byteLen (done ++ a ++ lowerNeedle) = start + byteLen a + byteLen lowerNeedle := by
      rw [byteLen_append, byteLen_append, hstart]
    exact ih hdone hstop (by omega) _

section Cut

variable {m : Nat} {u v x y d out' : List Char}

/-- Behind the last match the rest of the text is left. -/
theorem wrapMatches_nil (huv : haystack = u ++ v) (hu : byteLen u = start) (hle : start ≤ len)
    (hend : start = len → len = byteLen haystack) :
    wrapMatches haystack n len pre post [] start out = some (out ++ v) := by
  rw [wrapMatches]
  split
  case isTrue =>
    rw [sliceFrom_eq_some_iff.2 ⟨u, huv, hu⟩]
    rfl
  case isFalse hlt =>
    have hlen := hend (by omega)
    rw [huv, byteLen_append] at hlen
    obtain rfl : v = [] := byteLen_eq_zero.1 (by omega)
    rw [List.append_nil]

/-- The first match is cut out where it is one of the text. -/
theorem wrapMatches_cons (huv : haystack = u ++ (x ++ (y ++ d))) (hu : byteLen u = start)
    (hx : byteLen (u ++ x) = m) (hy : byteLen (u ++ x ++ y) = m + n) :
    wrapMatches haystack n len pre post (m :: ms) start out =
      wrapMatches haystack n len pre post ms (m + n) (out ++ x ++ pre ++ y ++ post) := by
  have hbefore : slice haystack start m = some x := by
    refine slice_eq_some_iff.2 ⟨u, y ++ d, huv, hu, ?_⟩
    rw [← byteLen_append, hx]
  have hfound : slice haystack m (m + n) = some y := by
    refine slice_eq_some_iff.2 ⟨u ++ x, d, ?_, hx, ?_⟩
    · rw [huv, List.append_assoc]
    · rw [← byteLen_append, hy]
  rw [wrapMatches, hbefore, Option.bind_some, hfound, Option.bind_some]

/-- What is cut out for the first match. -/
theorem split_of_wrapMatches (huv : haystack = u ++ v) (hu : byteLen u = start)
    (h : wrapMatches haystack n len pre post (m :: ms) start out = some out') :
    ∃ x y d, v = x ++ (y ++ d) ∧ byteLen (u ++ x) = m ∧ byteLen (u ++ x ++ y) = m + n ∧
      wrapMatches haystack n len pre post ms (m + n) (out ++ x ++ pre ++ y ++ post) =
        some out' := by
  rw [wrapMatches] at h
  obtain ⟨x, hx, hrest⟩ := Option.bind_eq_some_iff.1 h
  obtain ⟨y, hy, hout⟩ := Option.bind_eq_some_iff.1 hrest
  obtain ⟨a, b, hab, ha, hax⟩ := slice_eq_some_iff.1 hx
  obtain ⟨c, d, hcd, hc, hcy⟩ := slice_eq_some_iff.1 hy
  obtain ⟨rfl, rfl⟩ := append_inj_of_byteLen (hab.symm.trans huv) (ha.trans hu.symm)
  have hcx : c ++ (y ++ d) = (a ++ x) ++ b := by rw [← hcd, hab, List.append_assoc]
  obtain ⟨rfl, rfl⟩ := append_inj_of_byteLen hcx (by rw [byteLen_append, hc, hax])
  exact ⟨x, y, d, rfl, hc, by rw [byteLen_append]; exact hcy, hout⟩

/-- **At matches of the text itself** it is cut into what goes into the wrapping. -/
theorem exists_wrapping_of_aligned (horder : InOrder n len start ms)
    (hms : ∀ m ∈ ms, Aligned haystack n len m) (hend : start = len → len = byteLen haystack)
    (huv : haystack = u ++ v) (hu : byteLen u = start) :
    ∃ w : Wrapping, w.erase = v ∧ ∀ pre post out,
      wrapMatches haystack n len pre post ms start out = some (out ++ w.render pre post) := by
  induction ms generalizing start u v with
  | nil => exact ⟨⟨[], v⟩, rfl, fun pre post out ↦ wrapMatches_nil huv hu horder hend⟩
  | cons m ms ih =>
    obtain ⟨hm, hmn⟩ := horder
    have haligned := hms m List.mem_cons_self
    obtain ⟨a, b, hab, ha⟩ := isCharBoundary_iff.1 haligned.start
    obtain ⟨a', b', hab', ha'⟩ := isCharBoundary_iff.1 haligned.stop
    obtain ⟨x, rfl, hv⟩ := append_of_byteLen_le (huv.symm.trans hab) (by omega)
    obtain ⟨y, rfl, rfl⟩ := append_of_byteLen_le (hab.symm.trans hab') (by omega)
    obtain ⟨w, herase, hw⟩ := ih hmn (fun m' hm' ↦ hms m' (List.mem_cons_of_mem m hm'))
      haligned.atEnd hab' ha'
    refine ⟨⟨(x, y) :: w.marked, w.rest⟩, ?_, fun pre post out ↦ ?_⟩
    · rw [hv, ← herase, Wrapping.erase, Wrapping.erase, List.flatMap_cons]
      simp
    · rw [wrapMatches_cons (hv ▸ huv) hu ha ha', hw, Wrapping.render, Wrapping.render,
        List.flatMap_cons]
      simp

/-- **Where it is cut into its parts**, the matches are its own. -/
theorem aligned_of_wrapMatches (hn : 0 < n) (horder : InOrder n len start ms)
    (huv : haystack = u ++ v) (hu : byteLen u = start)
    (h : wrapMatches haystack n len [] [] ms start u = some haystack) :
    (start = len → len = byteLen haystack) ∧ ∀ m ∈ ms, Aligned haystack n len m := by
  induction ms generalizing start u v with
  | nil =>
    refine ⟨fun hlen ↦ ?_, fun m hm ↦ absurd hm List.not_mem_nil⟩
    rw [wrapMatches, if_neg (by omega)] at h
    rw [← Option.some.inj h, hu, hlen]
  | cons m ms ih =>
    obtain ⟨hm, hmn⟩ := horder
    obtain ⟨x, y, d, rfl, hx, hy, hout⟩ := split_of_wrapMatches huv hu h
    have hsplit : haystack = (u ++ x ++ y) ++ d := by
      rw [huv]
      simp
    have hnext : wrapMatches haystack n len [] [] ms (m + n) (u ++ x ++ y) = some haystack := by
      rw [← hout]
      simp
    obtain ⟨hend, hms⟩ := ih hmn hsplit hy hnext
    have hle := hmn.le
    refine ⟨fun hlen ↦ by omega, fun m' hm' ↦ ?_⟩
    rcases List.mem_cons.1 hm' with rfl | hm'
    · have hstart : haystack = (u ++ x) ++ (y ++ d) := by rw [hsplit, List.append_assoc]
      exact ⟨isCharBoundary_iff.2 ⟨_, _, hstart, hx⟩, isCharBoundary_iff.2 ⟨_, _, hsplit, hy⟩, hend⟩
    · exact hms m' hm'

end Cut

end Loop

/-! ### The texts it is right about -/

theorem wrapList_of_needle {haystack needle : List Char} (h : needle ≠ []) (pre post : List Char) :
    wrapList T haystack needle pre post =
      wrapMatches haystack (byteLen (T.toLowercase needle)) (byteLen (T.toLowercase haystack)) pre
        post (matchIndices (T.toLowercase needle) (T.toLowercase haystack)) 0 [] := by
  have hneedle : T.toLowercase needle ≠ [] := mt T.toLowercase_eq_nil_iff.1 h
  rw [wrapList, if_neg (mt List.isEmpty_iff.1 h)]
  exact wrapLoop_eq (matches_matchIndicesFrom hneedle 0 _) hneedle (List.nil_append _).symm rfl
    (Nat.lt_succ_self _) []

theorem inOrder_matchIndices {p : List Char} (hp : p ≠ []) (l : List Char) :
    InOrder (byteLen p) (byteLen l) 0 (matchIndices p l) := by
  have horder := (matches_matchIndicesFrom hp 0 l).inOrder
  rwa [Nat.zero_add] at horder

/-- **`case_insensitive_wrap`** is right about a text just when every match of the lower-cased
needle in the lower-cased text is one of the text itself. -/
theorem caseInsensitiveWrap_exact (haystack needle : String) :
    WrapRoundTrip T haystack needle ↔ (needle ≠ "" →
      ∀ m ∈ matchIndices (T.toLowercase needle.toList) (T.toLowercase haystack.toList),
        Aligned haystack.toList (byteLen (T.toLowercase needle.toList))
          (byteLen (T.toLowercase haystack.toList)) m) := by
  by_cases hempty : needle = ""
  · subst hempty
    refine iff_of_true ⟨⟨[], haystack.toList⟩, rfl, fun pre post ↦ ?_⟩ (absurd rfl)
    exact congrArg some rfl
  · have hneedle : needle.toList ≠ [] := fun h ↦ hempty (String.toList_eq_nil_iff.1 h)
    have hlower : T.toLowercase needle.toList ≠ [] := mt T.toLowercase_eq_nil_iff.1 hneedle
    have horder := inOrder_matchIndices hlower (T.toLowercase haystack.toList)
    have hstart : 0 = byteLen (T.toLowercase haystack.toList) →
        byteLen (T.toLowercase haystack.toList) = byteLen haystack.toList := fun h ↦ by
      rw [T.toLowercase_eq_nil_iff.1 (byteLen_eq_zero.1 h.symm)]
      rfl
    rw [forall_prop_of_true hempty]
    constructor
    · rintro ⟨w, herase, hw⟩
      have hplain := hw "" ""
      rw [caseInsensitiveWrap, wrapList_of_needle T hneedle] at hplain
      obtain ⟨out, hout, heq⟩ := Option.map_eq_some_iff.1 hplain
      obtain rfl : out = haystack.toList := by
        rw [String.ofList_injective heq, ← herase]
        exact w.render_nil
      exact (aligned_of_wrapMatches (Nat.pos_of_ne_zero (mt byteLen_eq_zero.1 hlower)) horder
        (List.nil_append _).symm rfl hout).2
    · intro hms
      obtain ⟨w, herase, hw⟩ := exists_wrapping_of_aligned horder hms hstart
        (List.nil_append _).symm rfl
      refine ⟨w, herase, fun pre post ↦ ?_⟩
      rw [caseInsensitiveWrap, wrapList_of_needle T hneedle, hw]
      rfl

namespace KelvinSign

/-- The tables of Unicode, as far as `K`, the sign of the unit, is concerned. -/
def table : CaseTable where
  lower c := if c = '\u212a' then ['k'] else [c.toLower]
  cased c := c.isAlpha || c = '\u212a'
  caseIgnorable _ := false
  lower_ne_nil c := by
    split
    · exact List.cons_ne_nil _ _
    · exact List.cons_ne_nil _ _
  lower_ascii c hc := by
    refine if_neg ?_
    rintro rfl
    exact absurd hc (by decide)

/-- The sign has three bytes, and its lower case one. -/
theorem not_wrapRoundTrip :
    ¬ ∀ (T : CaseTable) (haystack needle : String), WrapRoundTrip T haystack needle := fun h ↦ by
  obtain ⟨w, -, hw⟩ := h table "300 \u212a" "k"
  have hpanic : caseInsensitiveWrap table "300 \u212a" "k" "<b>" "</b>" = none := by decide
  exact nomatch hpanic.symm.trans (hw "<b>" "</b>")

end KelvinSign

end CommunitySearch
