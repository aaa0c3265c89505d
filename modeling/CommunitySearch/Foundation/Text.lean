import Mathlib.Data.List.DropRight
import Mathlib.Data.List.Infix
import Mathlib.Data.List.TakeWhile

/-!
# String functions

The string operations of the modelled programs, by structural recursion on the list of
characters so that they evaluate. Offsets never matter to them, so a string is read through
`String.toList` and written back through `String.ofList`; on valid UTF-8 a prefix, suffix or
substring test on bytes is the same test on characters.
-/

namespace Text

/-- The characters with the Unicode property `White_Space`. -/
def isWhitespace (c : Char) : Bool :=
  let n := c.toNat
  (9 ≤ n && n ≤ 13) || n == 0x20 || n == 0x85 || n == 0xA0 || n == 0x1680 ||
    (0x2000 ≤ n && n ≤ 0x200A) || n == 0x2028 || n == 0x2029 || n == 0x202F || n == 0x205F ||
    n == 0x3000

/-- Drop white space at both ends. -/
def trim (s : String) : String :=
  .ofList ((s.toList.dropWhile isWhitespace).reverse.dropWhile isWhitespace).reverse

/-- Drop the spaces at the end. -/
def trimEndSpaces (s : String) : String :=
  .ofList (s.toList.rdropWhile (· = ' '))

/-- Lower-case the ASCII letters. -/
def toAsciiLowercase (s : String) : String :=
  .ofList (s.toList.map Char.toLower)

/-- Equality up to the case of ASCII letters. -/
def eqIgnoreAsciiCase (s t : String) : Bool :=
  toAsciiLowercase s == toAsciiLowercase t

/-- `p` is a prefix of `s`. -/
def startsWith (s p : String) : Bool :=
  p.toList.isPrefixOf s.toList

/-- `p` is a suffix of `s`. -/
def endsWith (s p : String) : Bool :=
  p.toList.isSuffixOf s.toList

/-- `p` occurs in `l`. -/
def containsList (p : List Char) : List Char → Bool
  | [] => p.isEmpty
  | c :: l => p.isPrefixOf (c :: l) || containsList p l

/-- `p` occurs in `s`. -/
def contains (s p : String) : Bool :=
  containsList p.toList s.toList

/-- Replace the first occurrence of `p` by `r`. -/
def replaceFirstList (p r : List Char) : List Char → List Char
  | [] => if p.isEmpty then r else []
  | c :: l => if p.isPrefixOf (c :: l) then r ++ (c :: l).drop p.length
      else c :: replaceFirstList p r l

/-- Replace the first occurrence of `p` by `r`. -/
def replaceFirst (s p r : String) : String :=
  .ofList (replaceFirstList p.toList r.toList s.toList)

/-- The maximal runs of characters that are not ASCII white space; `word` is the run in
progress. -/
def splitAsciiWhitespaceList (word : List Char) : List Char → List (List Char)
  | [] => if word.isEmpty then [] else [word]
  | c :: l =>
    if c == ' ' || c == '\t' || c == '\n' || c == '\x0c' || c == '\r' then
      (if word.isEmpty then [] else [word]) ++ splitAsciiWhitespaceList [] l
    else splitAsciiWhitespaceList (word ++ [c]) l

/-- The words of `s`, separated by ASCII white space. -/
def splitAsciiWhitespace (s : String) : List String :=
  (splitAsciiWhitespaceList [] s.toList).map .ofList

/-- The strings of the list with `sep` between them. -/
def join (sep : String) : List String → String
  | [] => ""
  | [s] => s
  | s :: l => s ++ sep ++ join sep l

/-- The first `n` characters. -/
def take (n : Nat) (s : String) : String :=
  .ofList (s.toList.take n)

/-- The characters of the first `n` bytes; a character cut by the limit is replaced. -/
def takeBytesList (n : Nat) : List Char → List Char
  | [] => []
  | c :: l =>
    if c.utf8Size ≤ n then c :: takeBytesList (n - c.utf8Size) l
    else if n = 0 then [] else ['\ufffd']

/-- The first `n` bytes, decoded with replacement. -/
def takeBytes (n : Nat) (s : String) : String :=
  .ofList (takeBytesList n s.toList)

/-- The number a string of ASCII digits denotes. -/
def parseDigits (s : String) : Option Nat :=
  if s.toList.isEmpty then none
  else s.toList.foldl (fun acc c ↦ acc.bind fun n ↦
    if '0' ≤ c ∧ c ≤ '9' then some (10 * n + (c.toNat - '0'.toNat)) else none) (some 0)

/-- Every prefix of `s` accepted by `startsWith` is a prefix of its characters. -/
theorem startsWith_iff {s p : String} : startsWith s p = true ↔ p.toList <+: s.toList :=
  List.isPrefixOf_iff_prefix

theorem startsWith_self (s : String) : startsWith s s = true :=
  startsWith_iff.2 (List.prefix_refl _)

theorem trimEndSpaces_trimEndSpaces (s : String) :
    trimEndSpaces (trimEndSpaces s) = trimEndSpaces s := by
  rw [trimEndSpaces, trimEndSpaces, String.toList_ofList, List.rdropWhile_idempotent]

/-- A separator splits a prefix. -/
theorem append_cons_prefix_iff {a b l m : List Char} {c : Char} (ha : c ∉ a) (hb : c ∉ b) :
    a ++ c :: l <+: b ++ c :: m ↔ a = b ∧ l <+: m := by
  induction a generalizing b with
  | nil =>
    cases b with
    | nil => simp
    | cons y b =>
      rw [List.nil_append, List.cons_append, List.cons_prefix_cons]
      exact ⟨fun h ↦ absurd (h.1 ▸ List.mem_cons_self) hb, fun h ↦ by cases h.1⟩
  | cons x a ih =>
    cases b with
    | nil =>
      rw [List.nil_append, List.cons_append, List.cons_prefix_cons]
      exact ⟨fun h ↦ absurd (h.1 ▸ List.mem_cons_self) ha, fun h ↦ by cases h.1⟩
    | cons y b =>
      rw [List.cons_append, List.cons_append, List.cons_prefix_cons,
        ih (fun h ↦ ha (List.mem_cons_of_mem _ h)) fun h ↦ hb (List.mem_cons_of_mem _ h),
        List.cons.injEq, and_assoc]

/-! ### Numbers -/

theorem toList_toString_int (n : Int) : (toString n).toList = match n with
    | .ofNat m => Nat.toDigits 10 m
    | .negSucc m => '-' :: Nat.toDigits 10 (m + 1) := by
  cases n with
  | ofNat m => exact Nat.toList_repr
  | negSucc m =>
    show ("-" ++ (m + 1).repr).toList = _
    rw [String.toList_append, Nat.toList_repr]
    rfl

theorem not_mem_toDigits {n : Nat} {c : Char} (hc : c.isDigit = false) :
    c ∉ Nat.toDigits 10 n := fun h ↦ by
  rw [Nat.isDigit_of_mem_toDigits (by decide) (by decide) h] at hc
  cases hc

theorem space_not_mem_toString (n : Int) : ' ' ∉ (toString n).toList := by
  rw [toList_toString_int]
  cases n with
  | ofNat m => exact not_mem_toDigits (by decide)
  | negSucc m =>
    refine List.not_mem_cons_of_ne_of_not_mem (by decide) (not_mem_toDigits (by decide))

theorem toDigits_injective {m n : Nat} (h : Nat.toDigits 10 m = Nat.toDigits 10 n) : m = n := by
  have hnum := congrArg (fun l ↦ Nat.ofDigitChars 10 l 0) h
  simpa [Nat.ofDigitChars_toDigits] using hnum

/-- A number is told by its text. -/
theorem toString_int_injective {m n : Int} (h : (toString m).toList = (toString n).toList) :
    m = n := by
  rw [toList_toString_int, toList_toString_int] at h
  cases m with
  | ofNat m =>
    cases n with
    | ofNat n => exact congrArg Int.ofNat (toDigits_injective h)
    | negSucc n =>
      have hmem : '-' ∈ Nat.toDigits 10 m := by
        rw [show Nat.toDigits 10 m = '-' :: Nat.toDigits 10 (n + 1) from h]
        exact List.mem_cons_self
      exact absurd hmem (not_mem_toDigits (by decide))
  | negSucc m =>
    cases n with
    | ofNat n =>
      have hmem : '-' ∈ Nat.toDigits 10 n := by
        rw [← show '-' :: Nat.toDigits 10 (m + 1) = Nat.toDigits 10 n from h]
        exact List.mem_cons_self
      exact absurd hmem (not_mem_toDigits (by decide))
    | negSucc n =>
      exact congrArg Int.negSucc (Nat.succ.inj (toDigits_injective (List.cons.inj h).2))

/-! ### White space and ink -/

/-- The number of characters that are not white space. -/
def ink (l : List Char) : Nat :=
  l.countP fun c ↦ !isWhitespace c

/-- White space only. -/
def Blank (l : List Char) : Prop := ink l = 0

instance (l : List Char) : Decidable (Blank l) :=
  inferInstanceAs (Decidable (_ = _))

@[simp] theorem ink_append (a b : List Char) : ink (a ++ b) = ink a + ink b :=
  List.countP_append

theorem blank_iff {l : List Char} : Blank l ↔ ∀ c ∈ l, isWhitespace c = true := by
  rw [Blank, ink, List.countP_eq_zero]
  simp only [Bool.not_eq_true', Bool.not_eq_false]

@[simp] theorem blank_append {a b : List Char} : Blank (a ++ b) ↔ Blank a ∧ Blank b := by
  simp only [Blank, ink_append, Nat.add_eq_zero_iff]

theorem dropWhile_append_of_blank {ws l : List Char} (h : Blank ws) :
    (ws ++ l).dropWhile isWhitespace = l.dropWhile isWhitespace :=
  List.dropWhile_append_of_pos (blank_iff.1 h)

theorem ink_dropWhile (l : List Char) : ink (l.dropWhile isWhitespace) = ink l := by
  have htake : ink (l.takeWhile isWhitespace) = 0 :=
    blank_iff.2 fun c hc ↦ List.mem_takeWhile_imp hc
  calc ink (l.dropWhile isWhitespace)
      = ink (l.takeWhile isWhitespace) + ink (l.dropWhile isWhitespace) := by
        rw [htake, Nat.zero_add]
    _ = ink l := by rw [← ink_append, List.takeWhile_append_dropWhile]

theorem ink_reverse (l : List Char) : ink l.reverse = ink l :=
  List.countP_reverse

/-- Trimming keeps the ink. -/
theorem ink_trim (l : List Char) : ink (trim (.ofList l)).toList = ink l := by
  simp only [trim, String.toList_ofList, ink_reverse, ink_dropWhile]

theorem dropWhile_eq_nil_of_blank {l : List Char} (h : Blank l) :
    l.dropWhile isWhitespace = [] := by
  have happend := dropWhile_append_of_blank (l := []) h
  rwa [List.append_nil] at happend

/-- Nothing is left of white space. -/
theorem isEmpty_trim_iff {l : List Char} : (trim (.ofList l)).isEmpty = true ↔ Blank l := by
  rw [String.isEmpty_iff]
  constructor
  · intro h
    rw [Blank, ← ink_trim, h]
    rfl
  · intro h
    rw [trim, String.toList_ofList, dropWhile_eq_nil_of_blank h]
    rfl

/-- White space at the ends is trimmed away. -/
theorem trim_append_append {a l b : List Char} (ha : Blank a) (hb : Blank b) :
    trim (.ofList (a ++ l ++ b)) = trim (.ofList l) := by
  have hb' : Blank b.reverse := (ink_reverse b).trans hb
  have hright : ((l ++ b).dropWhile isWhitespace).reverse.dropWhile isWhitespace =
      (l.dropWhile isWhitespace).reverse.dropWhile isWhitespace := by
    rw [List.dropWhile_append]
    split
    case isTrue h =>
      have hl : Blank l := by
        rw [Blank, ← ink_dropWhile, List.isEmpty_iff.1 h]
        rfl
      rw [dropWhile_eq_nil_of_blank hb, dropWhile_eq_nil_of_blank hl]
    case isFalse => rw [List.reverse_append, dropWhile_append_of_blank hb']
  simp only [trim, String.toList_ofList, List.append_assoc, dropWhile_append_of_blank ha,
    hright]

theorem trim_append_of_blank_left {a l : List Char} (ha : Blank a) :
    trim (.ofList (a ++ l)) = trim (.ofList l) := by
  have h := trim_append_append (l := l) (b := []) ha rfl
  rwa [List.append_nil] at h

theorem trim_append_of_blank_right {l b : List Char} (hb : Blank b) :
    trim (.ofList (l ++ b)) = trim (.ofList l) :=
  trim_append_append (a := []) rfl hb

example : trim "\n\t a b \u00a0" = "a b" := by decide

example : splitAsciiWhitespace " canonical  alternate" = ["canonical", "alternate"] := by decide

end Text
