import Ill.Base.Assoc
import Mathlib.Data.List.Infix

/-!
# Runtime values and their declared types

`Dict` is an insertion-ordered map: an association list written with
`Assoc.insert`. Floats only ever arrive from external systems and are kept as
their IEEE 754 bit patterns, with the comparison the source language's `==`
makes on them.
-/

namespace Ill

open Base

/-- Whether a text occurs in another. -/
def containsText (text part : String) : Bool :=
  text.toList.tails.any fun tail => part.toList.isPrefixOf tail

/-- The type language of command arguments, results and captured bindings. -/
inductive ValueType where
  | string | number | float | bool | atom | bytes | dict | null | dynamic | unknown
deriving DecidableEq, Repr

/-- The name the source's debug formatting prints. -/
def ValueType.debug : ValueType → String
  | .string => "String"
  | .number => "Number"
  | .float => "Float"
  | .bool => "Bool"
  | .atom => "Atom"
  | .bytes => "Bytes"
  | .dict => "Dict"
  | .null => "Null"
  | .dynamic => "Dynamic"
  | .unknown => "Unknown"

inductive Value where
  | string (text : String)
  | number (value : Int)
  | float (bits : BitVec 64)
  | bool (value : Bool)
  | atom (name : String)
  | bytes (bytes : List UInt8)
  | array (items : List Value)
  | dict (fields : List (String × Value))
  | null
deriving Repr

/-- An ordered map of field name to value. -/
abbrev Dict := List (String × Value)

namespace Dict

def get (fields : Dict) (name : String) : Option Value :=
  fields.lookup name

def insert (fields : Dict) (name : String) (value : Value) : Dict :=
  Assoc.insert name value fields

@[simp] theorem get_insert_self (fields : Dict) (name : String) (value : Value) :
    (fields.insert name value).get name = some value :=
  Assoc.lookup_insert_self name value fields

theorem get_insert_of_ne {name other : String} (different : other ≠ name) (fields : Dict)
    (value : Value) : (fields.insert name value).get other = fields.get other :=
  Assoc.lookup_insert_of_ne different value fields

end Dict

namespace Value

def typeName : Value → String
  | .string _ => "string"
  | .number _ => "number"
  | .float _ => "float"
  | .bool _ => "bool"
  | .atom _ => "atom"
  | .bytes _ => "bytes"
  | .array _ => "array"
  | .dict _ => "dict"
  | .null => "null"

/-- Whether a value inhabits a declared type. `dynamic` and `unknown` admit
every value; arrays inhabit no other type. -/
def isOfType : Value → ValueType → Bool
  | _, .dynamic => true
  | _, .unknown => true
  | .string _, .string => true
  | .number _, .number => true
  | .float _, .float => true
  | .bool _, .bool => true
  | .atom _, .atom => true
  | .bytes _, .bytes => true
  | .dict _, .dict => true
  | .null, .null => true
  | _, _ => false

@[simp] theorem isOfType_unknown (value : Value) : value.isOfType .unknown = true := by
  cases value <;> rfl

theorem isOfType_string {value : Value} :
    value.isOfType .string = true ↔ ∃ text, value = .string text := by
  cases value <;> simp [isOfType]

theorem isOfType_number {value : Value} :
    value.isOfType .number = true ↔ ∃ n, value = .number n := by
  cases value <;> simp [isOfType]

theorem isOfType_bytes {value : Value} :
    value.isOfType .bytes = true ↔ ∃ bytes, value = .bytes bytes := by
  cases value <;> simp [isOfType]

/-- The exponent field is all ones and the fraction is not zero. -/
def floatIsNaN (bits : BitVec 64) : Bool :=
  bits.extractLsb 62 52 == 0x7ff#11 && bits.extractLsb 51 0 != 0#52

/-- Both zeros: every bit below the sign is clear. -/
def floatIsZero (bits : BitVec 64) : Bool :=
  bits.extractLsb 62 0 == 0#63

/-- `==` on doubles: no NaN equals anything, and the two zeros are equal. -/
def floatEq (left right : BitVec 64) : Bool :=
  !floatIsNaN left && !floatIsNaN right &&
    (left == right || (floatIsZero left && floatIsZero right))

mutual

/-- `==` on values. Dicts are compared as maps, so the order of their fields
does not matter. -/
def eq : Value → Value → Bool
  | .string left, .string right => left == right
  | .number left, .number right => left == right
  | .float left, .float right => floatEq left right
  | .bool left, .bool right => left == right
  | .atom left, .atom right => left == right
  | .bytes left, .bytes right => left == right
  | .array left, .array right => eqItems left right
  | .dict left, .dict right => left.length == right.length && eqFields left right
  | .null, .null => true
  | _, _ => false

def eqItems : List Value → List Value → Bool
  | [], [] => true
  | left :: lefts, right :: rights => eq left right && eqItems lefts rights
  | _, _ => false

/-- Every field on the left has an equal field of its name on the right. -/
def eqFields : List (String × Value) → List (String × Value) → Bool
  | [], _ => true
  | (name, left) :: rest, fields =>
    (match fields.lookup name with
    | some right => eq left right
    | none => false) && eqFields rest fields

end

end Value

end Ill
