import Mathlib.Data.List.Basic
import Mathlib.Algebra.Group.Int.Defs
import Mathlib.Algebra.Group.Nat.Defs

/-!
# JSON values and their texts

A JSON value keeps the order of its fields and the literals of its numbers. Reading and writing
texts is a library's: `JsonText` is what a program sees of it, and `JsonText.Reads` says of given
values that their text is read as the value it was written from.
-/

/-- A JSON value. -/
inductive Json where
  | null
  | bool (b : Bool)
  | integer (n : Int)
  /-- A number with a fraction or an exponent. -/
  | decimal (literal : String)
  | string (s : String)
  | array (items : List Json)
  | object (fields : List (String × Json))

namespace Json

/-- The value of a field; none when it is missing or given twice. -/
def field (fields : List (String × Json)) (name : String) : Option Json :=
  match fields.filter fun f ↦ f.1 = name with
  | [f] => some f.2
  | _ => none

/-- A value read as a string. -/
def asString : Json → Option String
  | string s => some s
  | null | bool _ | integer _ | decimal _ | array _ | object _ => none

/-- A value read as a signed 64-bit integer. -/
def asInt64 : Json → Option Int64
  | integer n => if -2 ^ 63 ≤ n ∧ n < 2 ^ 63 then some (.ofInt n) else none
  | null | bool _ | decimal _ | string _ | array _ | object _ => none

theorem asInt64_toInt (n : Int64) : asInt64 (.integer n.toInt) = some n := by
  rw [asInt64, if_pos ⟨n.le_toInt, n.toInt_lt⟩, Int64.ofInt_toInt]

end Json

/-- A library that reads and writes JSON. -/
structure JsonText where
  write : Json → String
  /-- None for what is not JSON. -/
  read : String → Option Json
  /-- The literal of a floating-point number; none for one that is not finite. -/
  writeFloat : Float32 → Option String
  readFloat : String → Option Float32

namespace JsonText

variable (text : JsonText)

/-- The texts of these values are read as the values. -/
def Reads (values : List Json) : Prop := ∀ v ∈ values, text.read (text.write v) = some v

/-- A floating-point number as a value. -/
def float (x : Float32) : Json :=
  match text.writeFloat x with
  | some literal => .decimal literal
  | none => .null

/-- A value read as a floating-point number. -/
def asFloat : Json → Option Float32
  | .integer n => some (.ofInt n)
  | .decimal literal => text.readFloat literal
  | .null | .bool _ | .string _ | .array _ | .object _ => none

/-- The number is finite, and read as it was written. -/
def Keeps (x : Float32) : Prop :=
  ∃ literal, text.writeFloat x = some literal ∧ text.readFloat literal = some x

theorem asFloat_float_eq_some_iff {x : Float32} :
    text.asFloat (text.float x) = some x ↔ text.Keeps x := by
  rw [float, Keeps]
  cases text.writeFloat x with
  | none => exact ⟨nofun, nofun⟩
  | some literal =>
    refine ⟨fun h ↦ ⟨literal, rfl, h⟩, ?_⟩
    rintro ⟨literal', hliteral, h⟩
    obtain rfl := Option.some.inj hliteral
    exact h

end JsonText
