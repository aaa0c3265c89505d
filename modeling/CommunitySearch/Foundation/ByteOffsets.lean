import Mathlib.Data.List.Infix

/-!
# Strings by byte offsets

The string operations that take or give offsets into UTF-8 text. Offsets count bytes, and a slice
at an offset inside a character is `none`, which is a panic. `matchIndices` is what a search for one
match after another finds (`find_eq_some`, `find_eq_none`).

Lower-casing is the one operation here that needs tables (`CaseTable`). It works character by
character, up to the capital sigma, and may change the number of bytes; on ASCII it does not.
-/

namespace Text

/-! ### Slices -/

/-- The number of bytes. -/
def byteLen : List Char → Nat
  | [] => 0
  | c :: l => c.utf8Size + byteLen l

@[simp] theorem byteLen_cons (c : Char) (l : List Char) :
    byteLen (c :: l) = c.utf8Size + byteLen l := rfl

@[simp] theorem byteLen_append (a b : List Char) : byteLen (a ++ b) = byteLen a + byteLen b := by
  induction a with
  | nil => exact (Nat.zero_add _).symm
  | cons c a ih => rw [List.cons_append, byteLen_cons, ih, byteLen_cons, Nat.add_assoc]

theorem byteLen_eq_zero {l : List Char} : byteLen l = 0 ↔ l = [] := by
  cases l with
  | nil => exact iff_of_true rfl rfl
  | cons c l =>
    refine iff_of_false (fun h ↦ ?_) (List.cons_ne_nil c l)
    have hpos := c.utf8Size_pos
    rw [byteLen_cons] at h
    omega

/-- The text before and after an offset. -/
def splitAtByte : List Char → Nat → Option (List Char × List Char)
  | l, 0 => some ([], l)
  | [], _ + 1 => none
  | c :: l, n + 1 =>
    if c.utf8Size ≤ n + 1 then
      (splitAtByte l (n + 1 - c.utf8Size)).map fun r ↦ (c :: r.1, r.2)
    else none

theorem splitAtByte_eq_some_iff {l a b : List Char} {n : Nat} :
    splitAtByte l n = some (a, b) ↔ l = a ++ b ∧ byteLen a = n := by
  induction l generalizing n a with
  | nil =>
    rcases n with - | n
    · rw [splitAtByte]
      constructor
      · rintro ⟨⟩
        exact ⟨rfl, rfl⟩
      · rintro ⟨h, -⟩
        obtain ⟨rfl, rfl⟩ := List.append_eq_nil_iff.1 h.symm
        rfl
    · refine iff_of_false nofun ?_
      rintro ⟨h, hlen⟩
      rw [(List.append_eq_nil_iff.1 h.symm).1] at hlen
      cases hlen
  | cons c l ih =>
    rcases n with - | n
    · rw [splitAtByte, byteLen_eq_zero]
      constructor
      · rintro ⟨⟩
        exact ⟨rfl, rfl⟩
      · rintro ⟨h, rfl⟩
        rw [h]
        rfl
    · rw [splitAtByte]
      constructor
      · intro h
        split at h
        case isTrue hle =>
          obtain ⟨⟨a', b'⟩, hsplit, heq⟩ := Option.map_eq_some_iff.1 h
          obtain ⟨rfl, rfl⟩ := Prod.mk.inj heq
          obtain ⟨rfl, hlen⟩ := ih.1 hsplit
          refine ⟨rfl, ?_⟩
          rw [byteLen_cons, hlen]
          omega
        case isFalse => cases h
      · rintro ⟨h, hlen⟩
        rcases a with - | ⟨c', a⟩
        · cases hlen
        · rw [List.cons_append] at h
          obtain ⟨rfl, rfl⟩ := List.cons.inj h
          rw [byteLen_cons] at hlen
          have hsplit : splitAtByte (a ++ b) (n + 1 - c.utf8Size) = some (a, b) :=
            ih.2 ⟨rfl, by omega⟩
          rw [if_pos (by omega), hsplit]
          rfl

/-- `is_char_boundary`. -/
def IsCharBoundary (l : List Char) (n : Nat) : Prop := (splitAtByte l n).isSome = true

instance (l : List Char) (n : Nat) : Decidable (IsCharBoundary l n) :=
  inferInstanceAs (Decidable (_ = _))

theorem isCharBoundary_iff {l : List Char} {n : Nat} :
    IsCharBoundary l n ↔ ∃ a b, l = a ++ b ∧ byteLen a = n := by
  rw [IsCharBoundary, Option.isSome_iff_exists]
  constructor
  · rintro ⟨⟨a, b⟩, h⟩
    exact ⟨a, b, splitAtByte_eq_some_iff.1 h⟩
  · rintro ⟨a, b, h⟩
    exact ⟨(a, b), splitAtByte_eq_some_iff.2 h⟩

/-- `&s[n..]`. -/
def sliceFrom (l : List Char) (n : Nat) : Option (List Char) := (splitAtByte l n).map Prod.snd

/-- `&s[m..n]`. -/
def slice (l : List Char) (m n : Nat) : Option (List Char) :=
  if m ≤ n then ((sliceFrom l m).bind fun rest ↦ splitAtByte rest (n - m)).map Prod.fst else none

theorem sliceFrom_eq_some_iff {l b : List Char} {n : Nat} :
    sliceFrom l n = some b ↔ ∃ a, l = a ++ b ∧ byteLen a = n := by
  rw [sliceFrom, Option.map_eq_some_iff]
  constructor
  · rintro ⟨⟨a, b⟩, h, rfl⟩
    exact ⟨a, splitAtByte_eq_some_iff.1 h⟩
  · rintro ⟨a, h⟩
    exact ⟨(a, b), splitAtByte_eq_some_iff.2 h, rfl⟩

theorem slice_eq_some_iff {l x : List Char} {m n : Nat} : slice l m n = some x ↔
    ∃ a b, l = a ++ (x ++ b) ∧ byteLen a = m ∧ byteLen a + byteLen x = n := by
  rw [slice]
  constructor
  · intro h
    split at h
    case isTrue hle =>
      obtain ⟨⟨x', b⟩, hbind, rfl⟩ := Option.map_eq_some_iff.1 h
      obtain ⟨rest, hrest, hsplit⟩ := Option.bind_eq_some_iff.1 hbind
      obtain ⟨a, rfl, ha⟩ := sliceFrom_eq_some_iff.1 hrest
      obtain ⟨rfl, hx⟩ := splitAtByte_eq_some_iff.1 hsplit
      refine ⟨a, b, rfl, ha, ?_⟩
      rw [ha, hx, Nat.add_sub_cancel' hle]
    case isFalse => cases h
  · rintro ⟨a, b, rfl, rfl, rfl⟩
    have hfrom : sliceFrom (a ++ (x ++ b)) (byteLen a) = some (x ++ b) :=
      sliceFrom_eq_some_iff.2 ⟨a, rfl, rfl⟩
    have hsplit : splitAtByte (x ++ b) (byteLen a + byteLen x - byteLen a) = some (x, b) :=
      splitAtByte_eq_some_iff.2 ⟨rfl, by omega⟩
    rw [if_pos (Nat.le_add_right ..), hfrom, Option.bind_some, hsplit]
    rfl

/-- Of two beginnings of a list the one that weighs less begins the other. -/
theorem append_of_weight_le {α : Type*} {w : List α → Nat}
    (hw : ∀ a b, w (a ++ b) = w a + w b) (hpos : ∀ a, w a = 0 → a = []) {a b a' b' : List α}
    (h : a ++ b = a' ++ b') (hle : w a ≤ w a') : ∃ x, a' = a ++ x ∧ b = x ++ b' := by
  rcases List.append_eq_append_iff.1 h with ⟨x, hx⟩ | ⟨x, rfl, hb⟩
  · exact ⟨x, hx⟩
  · rw [hw] at hle
    obtain rfl := hpos x (by omega)
    exact ⟨[], by simp, hb.symm⟩

/-- Of two beginnings of a text the one with fewer bytes begins the other. -/
theorem append_of_byteLen_le {a b a' b' : List Char} (h : a ++ b = a' ++ b')
    (hle : byteLen a ≤ byteLen a') : ∃ x, a' = a ++ x ∧ b = x ++ b' :=
  append_of_weight_le byteLen_append (fun _ ↦ byteLen_eq_zero.1) h hle

theorem ascii_of_all {l : List Char} (h : (l.all fun c ↦ decide (c.toNat < 128)) = true) :
    ∀ c ∈ l, c.toNat < 128 := fun c hc ↦ of_decide_eq_true (List.all_eq_true.1 h c hc)

/-- A character of ASCII is one byte. -/
theorem byteLen_of_ascii {l : List Char} (h : ∀ c ∈ l, c.toNat < 128) : byteLen l = l.length := by
  induction l with
  | nil => rfl
  | cons c l ih =>
    have hc : c.utf8Size = 1 := Char.utf8Size_eq_one_iff.2
      (UInt32.le_iff_toNat_le.2 (Nat.le_of_lt_succ (h c List.mem_cons_self)))
    rw [byteLen_cons, hc, ih fun d hd ↦ h d (List.mem_cons_of_mem c hd), List.length_cons,
      Nat.add_comm]

theorem append_inj_of_byteLen {a b a' b' : List Char} (h : a ++ b = a' ++ b')
    (hlen : byteLen a = byteLen a') : a = a' ∧ b = b' := by
  obtain ⟨x, rfl, rfl⟩ := append_of_byteLen_le h (Nat.le_of_eq hlen)
  rw [byteLen_append] at hlen
  obtain rfl : x = [] := byteLen_eq_zero.1 (by omega)
  exact ⟨(List.append_nil a).symm, rfl⟩

/-! ### Matches -/

/-- `find`: the offset of the first match. -/
def find (p : List Char) : List Char → Option Nat
  | [] => if p.isEmpty then some 0 else none
  | c :: l => if p.isPrefixOf (c :: l) then some 0 else (find p l).map (c.utf8Size + ·)

/-- The offsets of the matches from an offset on, the next characters being passed over. -/
def matchIndicesFrom (p : List Char) : (skip : Nat) → (start : Nat) → List Char → List Nat
  | _, _, [] => []
  | skip + 1, start, c :: l => matchIndicesFrom p skip (start + c.utf8Size) l
  | 0, start, c :: l =>
    if p.isPrefixOf (c :: l) then
      start :: matchIndicesFrom p (p.length - 1) (start + c.utf8Size) l
    else matchIndicesFrom p 0 (start + c.utf8Size) l

/-- `match_indices`: the offsets of the matches, each the first one behind the last. -/
def matchIndices (p l : List Char) : List Nat := matchIndicesFrom p 0 0 l

theorem matchIndicesFrom_append (p a b : List Char) (start : Nat) :
    matchIndicesFrom p a.length start (a ++ b) =
      matchIndicesFrom p 0 (start + byteLen a) b := by
  induction a generalizing start with
  | nil => rfl
  | cons c a ih =>
    rw [List.length_cons, List.cons_append, matchIndicesFrom, ih, byteLen_cons, Nat.add_assoc]

/-- The first match, and those behind it. -/
theorem find_eq_some {p l : List Char} {n : Nat} (hp : p ≠ []) (h : find p l = some n)
    (start : Nat) : ∃ a b, l = a ++ (p ++ b) ∧ byteLen a = n ∧
      matchIndicesFrom p 0 start l =
        (start + n) :: matchIndicesFrom p 0 (start + n + byteLen p) b := by
  induction l generalizing n start with
  | nil =>
    rw [find, if_neg (mt List.isEmpty_iff.1 hp)] at h
    cases h
  | cons c l ih =>
    rw [find] at h
    rw [matchIndicesFrom]
    split at h
    case isTrue hprefix =>
      obtain rfl := Option.some.inj h
      obtain ⟨b, hb⟩ := List.isPrefixOf_iff_prefix.1 hprefix
      obtain ⟨d, p, rfl⟩ := List.exists_cons_of_ne_nil hp
      rw [List.cons_append] at hb
      obtain ⟨rfl, rfl⟩ := List.cons.inj hb
      refine ⟨[], b, rfl, rfl, ?_⟩
      rw [if_pos hprefix, List.length_cons, Nat.add_sub_cancel, matchIndicesFrom_append,
        byteLen_cons, Nat.add_zero, Nat.add_assoc]
    case isFalse hprefix =>
      obtain ⟨n, hfind, rfl⟩ := Option.map_eq_some_iff.1 h
      obtain ⟨a, b, rfl, rfl, hrest⟩ := ih hfind (start + c.utf8Size)
      refine ⟨c :: a, b, rfl, rfl, ?_⟩
      rw [if_neg hprefix, hrest, Nat.add_assoc]

/-- There is no match. -/
theorem find_eq_none {p l : List Char} (h : find p l = none) (start : Nat) :
    matchIndicesFrom p 0 start l = [] := by
  induction l generalizing start with
  | nil => rfl
  | cons c l ih =>
    rw [find] at h
    split at h
    case isTrue => cases h
    case isFalse hprefix =>
      rw [matchIndicesFrom, if_neg hprefix]
      exact ih (Option.map_eq_none_iff.1 h) _

/-- **A search for one match after another**: no match is left, or the first one is found, and the
search goes on behind it. -/
inductive Matches (p : List Char) : (start : Nat) → List Char → List Nat → Prop
  | none {start : Nat} {l : List Char} (h : find p l = none) : Matches p start l []
  | next {start : Nat} {a b : List Char} {ms : List Nat}
    (h : find p (a ++ (p ++ b)) = some (byteLen a))
    (hrest : Matches p (start + byteLen a + byteLen p) b ms) :
    Matches p start (a ++ (p ++ b)) ((start + byteLen a) :: ms)

theorem matches_matchIndicesFrom {p : List Char} (hp : p ≠ []) (start : Nat) (l : List Char) :
    Matches p start l (matchIndicesFrom p 0 start l) := by
  induction hl : l.length using Nat.strong_induction_on generalizing start l with
  | h k ih =>
    rcases hfind : find p l with - | n
    · rw [find_eq_none hfind]
      exact .none hfind
    · obtain ⟨a, b, rfl, rfl, hms⟩ := find_eq_some hp hfind start
      have hshorter : b.length < k := by
        have hpos := List.length_pos_iff.2 hp
        rw [← hl, List.length_append, List.length_append]
        omega
      rw [hms]
      exact .next hfind (ih b.length hshorter _ b rfl)

/-- The matches are found in order, and do not overlap. -/
def InOrder (n len : Nat) : (start : Nat) → List Nat → Prop
  | start, [] => start ≤ len
  | start, m :: ms => start ≤ m ∧ InOrder n len (m + n) ms

theorem InOrder.le {n len start : Nat} {ms : List Nat} (h : InOrder n len start ms) :
    start ≤ len := by
  induction ms generalizing start with
  | nil => exact h
  | cons m ms ih => exact Nat.le_trans h.1 (Nat.le_trans (Nat.le_add_right m n) (ih h.2))

theorem InOrder.add_le {n len start m : Nat} {ms : List Nat} (h : InOrder n len start ms)
    (hm : m ∈ ms) : m + n ≤ len := by
  induction ms generalizing start with
  | nil => exact absurd hm List.not_mem_nil
  | cons m' ms ih =>
    rcases List.mem_cons.1 hm with rfl | hm
    · exact h.2.le
    · exact ih h.2 hm

theorem Matches.inOrder {p l : List Char} {start : Nat} {ms : List Nat} (h : Matches p start l ms) :
    InOrder (byteLen p) (start + byteLen l) start ms := by
  induction h with
  | none => exact Nat.le_add_right _ _
  | @next start a b ms hfind hrest ih =>
    refine ⟨Nat.le_add_right _ _, ?_⟩
    rwa [byteLen_append, byteLen_append, ← Nat.add_assoc, ← Nat.add_assoc]

/-! ### Lower case -/

/-- What lower-casing reads of the Unicode tables. -/
structure CaseTable where
  /-- The lower-case mapping of a character. -/
  lower : Char → List Char
  /-- The property `Cased`. -/
  cased : Char → Bool
  /-- The property `Case_Ignorable`. -/
  caseIgnorable : Char → Bool
  lower_ne_nil : ∀ c, lower c ≠ []
  lower_ascii : ∀ c, c.toNat < 128 → lower c = [c.toLower]

namespace CaseTable

variable (T : CaseTable)

/-- `case_ignorable_then_cased`. -/
def caseIgnorableThenCased (l : List Char) : Bool :=
  match l.dropWhile T.caseIgnorable with
  | [] => false
  | c :: _ => T.cased c

/-- `to_lowercase`, with the characters before, the nearest first: a capital sigma at the end of a
word becomes a final sigma. -/
def toLowercaseFrom (before : List Char) : List Char → List Char
  | [] => []
  | c :: l =>
    (if c = 'Σ' then
      if T.caseIgnorableThenCased before && !T.caseIgnorableThenCased l then ['ς'] else ['σ']
    else T.lower c) ++ toLowercaseFrom (c :: before) l

/-- `to_lowercase`. -/
def toLowercase (l : List Char) : List Char := T.toLowercaseFrom [] l

theorem toLowercaseFrom_ne_nil {before l : List Char} (h : l ≠ []) :
    T.toLowercaseFrom before l ≠ [] := by
  obtain ⟨c, l, rfl⟩ := List.exists_cons_of_ne_nil h
  rw [toLowercaseFrom]
  refine List.append_ne_nil_of_left_ne_nil ?_ _
  split
  · split
    · exact List.cons_ne_nil _ _
    · exact List.cons_ne_nil _ _
  · exact T.lower_ne_nil c

theorem toLowercase_eq_nil_iff {l : List Char} : T.toLowercase l = [] ↔ l = [] := by
  refine ⟨fun h ↦ ?_, fun h ↦ by rw [h]; rfl⟩
  by_contra hne
  exact T.toLowercaseFrom_ne_nil hne h

theorem toLowercase_of_ascii {l : List Char} (h : ∀ c ∈ l, c.toNat < 128) :
    T.toLowercase l = l.map Char.toLower := by
  suffices hfrom : ∀ before, T.toLowercaseFrom before l = l.map Char.toLower from hfrom []
  induction l with
  | nil => exact fun _ ↦ rfl
  | cons c l ih =>
    intro before
    have hc : c.toNat < 128 := h c List.mem_cons_self
    have hsigma : c ≠ 'Σ' := by
      rintro rfl
      exact absurd hc (by decide)
    rw [toLowercaseFrom, if_neg hsigma, T.lower_ascii c hc,
      ih fun d hd ↦ h d (List.mem_cons_of_mem c hd)]
    rfl

theorem toNat_toLower_lt {c : Char} (h : c.toNat < 128) : c.toLower.toNat < 128 := by
  by_cases hupper : c.val ≥ 'A'.val ∧ c.val ≤ 'Z'.val
  · have hle : c.val.toNat ≤ 90 := UInt32.le_iff_toNat_le.1 hupper.2
    have hlower : c.toLower.toNat = (c.val + 32).toNat :=
      congrArg Char.toNat (dif_pos hupper : c.toLower = _)
    rw [hlower, UInt32.toNat_add, show (32 : UInt32).toNat = 32 from rfl]
    omega
  · rwa [show c.toLower = c from dif_neg hupper]

theorem byteLen_toLowercase_of_ascii {l : List Char} (h : ∀ c ∈ l, c.toNat < 128) :
    byteLen (T.toLowercase l) = byteLen l := by
  have hlower : ∀ c ∈ l.map Char.toLower, c.toNat < 128 := fun c hc ↦ by
    obtain ⟨d, hd, rfl⟩ := List.mem_map.1 hc
    exact toNat_toLower_lt (h d hd)
  rw [T.toLowercase_of_ascii h, byteLen_of_ascii hlower, byteLen_of_ascii h, List.length_map]

end CaseTable

end Text
