import Mathlib.Data.List.Basic

/-!
# UTF-8 with replacement, and the form encoding of queries

Bytes to text and back. `Utf8.lossy` reads bytes as UTF-8 and replaces what is not: it is a left
inverse of `Utf8.encode`, so it loses nothing of text (`lossy_encode`), and it loses every byte
sequence that is no text, since its result is. `Form.parse` reads a query as pairs of byte strings,
and `Form.serialize` writes pairs of strings; what is written is read back (`parse_serialize`).
-/

namespace Utf8

/-- The bytes of a string. -/
def encode (s : String) : List UInt8 :=
  s.toList.flatMap String.utf8EncodeChar

/-- The character whose encoding the bytes begin with. -/
def decodeChar (l : List UInt8) : Option Char :=
  l.toByteArray.utf8DecodeChar? 0

def isContinuation (b : UInt8) : Bool :=
  0x80 ≤ b && b ≤ 0xBF

/-- `b` may follow the first byte of a character of three or four. -/
def isSecond (lead b : UInt8) : Bool :=
  if lead == 0xE0 then 0xA0 ≤ b && b ≤ 0xBF
  else if lead == 0xED then 0x80 ≤ b && b ≤ 0x9F
  else if lead == 0xF0 then 0x90 ≤ b && b ≤ 0xBF
  else if lead == 0xF4 then 0x80 ≤ b && b ≤ 0x8F
  else isContinuation b

/-- The number of bytes, where no character begins, that one replacement character stands for: the
longest part that some character begins with, or one. -/
def malformedLength : List UInt8 → Nat
  | lead :: second :: rest =>
    if 0xE0 ≤ lead && lead ≤ 0xF4 && isSecond lead second then
      if 0xF0 ≤ lead && (rest.head?.map isContinuation).getD false then 3 else 2
    else 1
  | _ => 1

/-- At most `fuel` characters of the text the bytes are read as. -/
def decodeLossy : (fuel : Nat) → List UInt8 → List Char
  | 0, _ => []
  | fuel + 1, l =>
    if l.isEmpty then []
    else match decodeChar l with
      | some c => c :: decodeLossy fuel (l.drop c.utf8Size)
      | none => '\ufffd' :: decodeLossy fuel (l.drop (malformedLength l))

/-- `String::from_utf8_lossy`. -/
def lossy (l : List UInt8) : String :=
  .ofList (decodeLossy l.length l)

/-- The bytes are those of some text. -/
def IsText (l : List UInt8) : Prop := ∃ s, encode s = l

theorem decodeChar_append (c : Char) (l : List UInt8) :
    decodeChar (String.utf8EncodeChar c ++ l) = some c := by
  rw [decodeChar, List.toByteArray_append]
  exact ByteArray.utf8DecodeChar?_utf8EncodeChar_append

theorem decodeLossy_flatMap (cs : List Char) {fuel : Nat}
    (h : (cs.flatMap String.utf8EncodeChar).length ≤ fuel) :
    decodeLossy fuel (cs.flatMap String.utf8EncodeChar) = cs := by
  induction cs generalizing fuel with
  | nil => cases fuel <;> rfl
  | cons c cs ih =>
    have hlen := String.length_utf8EncodeChar c
    have hpos := c.utf8Size_pos
    rw [List.flatMap_cons, List.length_append, hlen] at h
    obtain ⟨fuel, rfl⟩ : ∃ n, fuel = n + 1 := ⟨fuel - 1, by omega⟩
    have hne : (String.utf8EncodeChar c ++ cs.flatMap String.utf8EncodeChar).isEmpty = false := by
      rw [List.isEmpty_eq_false_iff, ← List.length_pos_iff, List.length_append]
      omega
    rw [List.flatMap_cons, decodeLossy, hne, decodeChar_append]
    simp only [Bool.false_eq_true, if_false]
    rw [← hlen, List.drop_left, ih (by omega)]

/-- **Text is read as it is.** -/
@[simp] theorem lossy_encode (s : String) : lossy (encode s) = s := by
  rw [lossy, encode, decodeLossy_flatMap s.toList (Nat.le_refl _), String.ofList_toList]

theorem isText_iff {l : List UInt8} : IsText l ↔ encode (lossy l) = l := by
  constructor
  · rintro ⟨s, rfl⟩
    rw [lossy_encode]
  · exact fun h ↦ ⟨_, h⟩

end Utf8

namespace Form

open Utf8 (encode lossy)

/-- The value of a hexadecimal digit. -/
def hexValue (c : Char) : Option Nat :=
  if '0' ≤ c ∧ c ≤ '9' then some (c.toNat - 48)
  else if 'A' ≤ c ∧ c ≤ 'F' then some (c.toNat - 55)
  else if 'a' ≤ c ∧ c ≤ 'f' then some (c.toNat - 87)
  else none

def hexDigit (n : Nat) : Char :=
  .ofNat (if n < 10 then 48 + n else 55 + n)

/-- A `+` stands for a space and `%XX` for a byte; other characters stand for their encoding. -/
def percentDecode : List Char → List UInt8
  | [] => []
  | '+' :: rest => 32 :: percentDecode rest
  | '%' :: a :: b :: rest =>
    match hexValue a, hexValue b with
    | some hi, some lo => .ofNat (16 * hi + lo) :: percentDecode rest
    | _, _ => 37 :: percentDecode (a :: b :: rest)
  | c :: rest => String.utf8EncodeChar c ++ percentDecode rest

/-- The bytes that are written as they are. -/
def isUnreserved (b : UInt8) : Bool :=
  (48 ≤ b && b ≤ 57) || (65 ≤ b && b ≤ 90) || (97 ≤ b && b ≤ 122) || b == 42 || b == 45 ||
    b == 46 || b == 95

def encodeByte (b : UInt8) : List Char :=
  if b == 32 then ['+']
  else if isUnreserved b then [.ofNat b.toNat]
  else ['%', hexDigit (b.toNat / 16), hexDigit (b.toNat % 16)]

/-- The pairs of a query, percent-decoded. -/
def parse (query : String) : List (List UInt8 × List UInt8) :=
  ((query.toList.splitOn '&').filter (! ·.isEmpty)).map fun part ↦
    (percentDecode (part.takeWhile (· ≠ '=')), percentDecode ((part.dropWhile (· ≠ '=')).drop 1))

/-- The pairs of a query, as text. -/
def queryPairs (query : String) : List (String × String) :=
  (parse query).map (Prod.map lossy lossy)

/-- A pair, written. -/
def writePair (p : String × String) : List Char :=
  (encode p.1).flatMap encodeByte ++ '=' :: (encode p.2).flatMap encodeByte

/-- The query of some pairs. -/
def serialize (pairs : List (String × String)) : String :=
  .ofList (['&'].intercalate (pairs.map writePair))

/-! ### What is written is read back -/

theorem hexValue_hexDigit : ∀ n < 16, hexValue (hexDigit n) = some n := by decide

/-- An unreserved byte is written as an ASCII character that means nothing else. -/
theorem unreserved_spec : ∀ n < 256, isUnreserved (.ofNat n) = true →
    String.utf8EncodeChar (.ofNat n) = [.ofNat n] ∧
      Char.ofNat n ∉ ['+', '%', '&', '=', '#'] := by
  decide +kernel

theorem percentDecode_cons {c : Char} (rest : List Char) (hplus : c ≠ '+') (hpercent : c ≠ '%') :
    percentDecode (c :: rest) = String.utf8EncodeChar c ++ percentDecode rest := by
  rw [percentDecode]
  · exact hplus
  · exact fun _ _ _ h ↦ absurd h hpercent

theorem percentDecode_encodeByte (b : UInt8) (rest : List Char) :
    percentDecode (encodeByte b ++ rest) = b :: percentDecode rest := by
  have hb : b.toNat < 256 := b.toNat_lt
  rw [encodeByte]
  split
  case isTrue hspace =>
    obtain rfl := eq_of_beq hspace
    rfl
  case isFalse =>
    split
    case isTrue hunreserved =>
      obtain ⟨hencode, hchar⟩ := unreserved_spec b.toNat hb (by rwa [UInt8.ofNat_toNat])
      rw [List.singleton_append, percentDecode_cons _ (fun h ↦ hchar (by simp [h]))
        (fun h ↦ hchar (by simp [h])), hencode, UInt8.ofNat_toNat]
      rfl
    case isFalse =>
      show percentDecode ('%' :: _ :: _ :: rest) = _
      rw [percentDecode, hexValue_hexDigit _ (by omega), hexValue_hexDigit _ (by omega)]
      show UInt8.ofNat (16 * (b.toNat / 16) + b.toNat % 16) :: _ = _
      rw [Nat.div_add_mod, UInt8.ofNat_toNat]

theorem percentDecode_flatMap (l : List UInt8) : percentDecode (l.flatMap encodeByte) = l := by
  induction l with
  | nil => rfl
  | cons b l ih => rw [List.flatMap_cons, percentDecode_encodeByte, ih]

/-- What is written never separates. -/
theorem not_mem_flatMap {l : List UInt8} {c : Char} (hc : c ∈ ['&', '=', '#']) :
    c ∉ l.flatMap encodeByte := by
  intro hmem
  obtain ⟨b, -, hb⟩ := List.mem_flatMap.1 hmem
  have hlt : b.toNat < 256 := b.toNat_lt
  have hhex : ∀ n < 16, hexDigit n ∉ ['&', '=', '#'] := by decide
  rw [encodeByte] at hb
  split at hb
  case isTrue =>
    obtain rfl := List.mem_singleton.1 hb
    revert hc
    decide
  case isFalse =>
    split at hb
    case isTrue hunreserved =>
      obtain rfl := List.mem_singleton.1 hb
      have hspec := (unreserved_spec b.toNat hlt (by rwa [UInt8.ofNat_toNat])).2
      exact hspec (List.mem_cons_of_mem _ (List.mem_cons_of_mem _ hc))
    case isFalse =>
      rcases List.mem_cons.1 hb with rfl | hb
      · revert hc
        decide
      · rcases List.mem_cons.1 hb with rfl | hb
        · exact hhex _ (by omega) hc
        · obtain rfl := List.mem_singleton.1 hb
          exact hhex _ (by omega) hc

theorem not_mem_writePair {p : String × String} {c : Char} (hc : c ∈ ['&', '#']) :
    c ∉ writePair p := by
  have hne : c ≠ '=' := by
    rintro rfl
    revert hc
    decide
  have hsep : c ∈ ['&', '=', '#'] := by
    rcases List.mem_cons.1 hc with rfl | hc
    · exact List.mem_cons_self
    · exact List.mem_cons_of_mem _ (List.mem_cons_of_mem _ hc)
  rw [writePair, List.mem_append, List.mem_cons]
  rintro (h | h | h)
  exacts [not_mem_flatMap hsep h, hne h, not_mem_flatMap hsep h]

/-- A written pair is read back. -/
theorem parse_writePair (p : String × String) :
    (percentDecode ((writePair p).takeWhile (· ≠ '=')),
      percentDecode (((writePair p).dropWhile (· ≠ '=')).drop 1)) =
    Prod.map encode encode p := by
  have hname : ∀ c ∈ (encode p.1).flatMap encodeByte, decide (c ≠ '=') = true := fun c hc ↦ by
    refine decide_eq_true fun he ↦ ?_
    exact not_mem_flatMap (List.mem_cons_of_mem _ List.mem_cons_self) (he ▸ hc)
  rw [writePair, List.takeWhile_append_of_pos hname, List.dropWhile_append_of_pos hname]
  simp only [List.takeWhile_cons, List.dropWhile_cons, ne_eq, not_true_eq_false, decide_false,
    Bool.false_eq_true, if_false, List.append_nil, List.drop_one, List.tail_cons,
    percentDecode_flatMap]
  rfl

/-- **What is written is read back.** -/
theorem parse_serialize (pairs : List (String × String)) :
    parse (serialize pairs) = pairs.map (Prod.map encode encode) := by
  cases pairs with
  | nil => rfl
  | cons p pairs =>
    -- a written pair has no separator in it, and is not empty
    have hsplit : (['&'].intercalate ((p :: pairs).map writePair)).splitOn '&' =
        (p :: pairs).map writePair := by
      refine List.splitOn_intercalate '&' (fun l hl ↦ ?_) (List.cons_ne_nil _ _)
      obtain ⟨q, -, rfl⟩ := List.mem_map.1 hl
      exact not_mem_writePair List.mem_cons_self
    have hkept : ((p :: pairs).map writePair).filter (! ·.isEmpty) =
        (p :: pairs).map writePair := by
      refine List.filter_eq_self.2 fun l hl ↦ ?_
      obtain ⟨q, -, rfl⟩ := List.mem_map.1 hl
      rw [writePair]
      cases (encode q.1).flatMap encodeByte <;> rfl
    rw [parse, serialize, String.toList_ofList, hsplit, hkept, List.map_map]
    exact List.map_congr_left fun q _ ↦ parse_writePair q

theorem queryPairs_serialize (pairs : List (String × String)) :
    queryPairs (serialize pairs) = pairs := by
  rw [queryPairs, parse_serialize, List.map_map]
  have hid : Prod.map lossy lossy ∘ Prod.map encode encode =
      (id : String × String → String × String) :=
    funext fun p ↦ by simp [Prod.map]
  rw [hid, List.map_id]

theorem hash_not_mem_serialize (pairs : List (String × String)) :
    '#' ∉ (serialize pairs).toList := by
  have hchar : ∀ l ∈ pairs.map writePair, '#' ∉ l := fun l hl ↦ by
    obtain ⟨p, -, rfl⟩ := List.mem_map.1 hl
    exact not_mem_writePair (List.mem_cons_of_mem _ List.mem_cons_self)
  rw [serialize, String.toList_ofList]
  generalize pairs.map writePair = parts at hchar
  induction parts with
  | nil => exact List.not_mem_nil
  | cons l parts ih =>
    cases parts with
    | nil =>
      rw [List.intercalate_singleton]
      exact hchar l List.mem_cons_self
    | cons l' parts =>
      rw [List.intercalate_cons_cons, List.mem_append, List.mem_append]
      rintro ((h | h) | h)
      · exact hchar l List.mem_cons_self h
      · revert h
        decide
      · exact ih (fun m hm ↦ hchar m (List.mem_cons_of_mem _ hm)) h

example : parse "q=%FF&a+b=%41" = [([113], [255]), ([97, 32, 98], [65])] := by decide +kernel

end Form
