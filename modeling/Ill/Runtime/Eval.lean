import Ill.Syntax.Ast
import Ill.Runtime.Outcome

/-!
# Expression evaluation

Evaluation of expressions against a flat scope of bindings, including string
interpolation, indexing and the five registered squiggles. Evaluation never
changes the scope and fails with the message the harness records.
-/

namespace Ill

open Ast

/-- Name to value bindings. `ok`, `error`, `self` and actor views are ordinary
bindings that the harness sets up. -/
structure Scope where
  bindings : String → Option Value

namespace Scope

def new : Scope := ⟨fun _ => none⟩

def bind (scope : Scope) (name : String) (value : Value) : Scope :=
  ⟨fun other => if other = name then some value else scope.bindings other⟩

def unbind (scope : Scope) (name : String) : Scope :=
  ⟨fun other => if other = name then none else scope.bindings other⟩

def get (scope : Scope) (name : String) : Option Value :=
  scope.bindings name

@[simp] theorem get_new (name : String) : new.get name = none := rfl

@[simp] theorem get_bind (scope : Scope) (name other : String) (value : Value) :
    (scope.bind name value).get other = if other = name then some value else scope.get other := rfl

@[simp] theorem get_unbind (scope : Scope) (name other : String) :
    (scope.unbind name).get other = if other = name then none else scope.get other := rfl

end Scope

/-- The registered squiggles. -/
inductive Squiggle where
  | sql | json | hex | bytes | re
deriving DecidableEq, Repr

namespace Squiggle

def name : Squiggle → String
  | .sql => "sql"
  | .json => "json"
  | .hex => "hex"
  | .bytes => "b"
  | .re => "re"

def outputType : Squiggle → ValueType
  | .sql => .string
  | .json => .string
  | .hex => .bytes
  | .bytes => .bytes
  | .re => .string

/-- The registry of squiggles. -/
def registered : List Squiggle := [.sql, .json, .hex, .bytes, .re]

/-- Look a squiggle up by its source name. -/
def lookup (name : String) : Option Squiggle :=
  registered.find? fun squiggle => squiggle.name == name

end Squiggle

/-- Space, tab, line feed, form feed and carriage return. -/
def isAsciiWhitespace (char : Char) : Bool :=
  char == ' ' || char == '\t' || char == '\n' || char == '\x0c' || char == '\r'

/-- The value of one hexadecimal digit, of either case. -/
def hexDigit (char : Char) : Option UInt8 :=
  if '0' ≤ char ∧ char ≤ '9' then some (char.toNat - '0'.toNat).toUInt8
  else if 'a' ≤ char ∧ char ≤ 'f' then some (char.toNat - 'a'.toNat + 10).toUInt8
  else if 'A' ≤ char ∧ char ≤ 'F' then some (char.toNat - 'A'.toNat + 10).toUInt8
  else none

/-- The loop of `decode_hex`, carrying the pending high digit. -/
def decodeHexFrom (high : Option UInt8) : List Char → Except RuntimeError (List UInt8)
  | [] =>
    match high with
    | some _ => .error (.eval "~hex literal has odd nibble count")
    | none => .ok []
  | char :: rest =>
    if isAsciiWhitespace char then decodeHexFrom high rest
    else
      match hexDigit char with
      | none => .error (.eval s!"invalid hex character `{char}` in ~hex literal")
      | some digit =>
        match high with
        | none => decodeHexFrom (some digit) rest
        | some first => do
          let bytes ← decodeHexFrom none rest
          return (first <<< 4 ||| digit) :: bytes

def decodeHex (text : String) : Except RuntimeError (List UInt8) :=
  decodeHexFrom none text.toList

/-- What a squiggle makes of its rendered fragments. -/
def Squiggle.finish (rendered : String) : Squiggle → Except RuntimeError Value
  | .hex => (decodeHex rendered).map Value.bytes
  | .bytes => .ok (.bytes rendered.toUTF8.data.toList)
  | .sql | .json | .re => .ok (.string rendered)

/-- The text an interpolated value contributes to a string. -/
def renderInterpolation : Value → Except RuntimeError String
  | .string text => .ok text
  | .number value => .ok (toString value)
  | .bool value => .ok (toString value)
  | .atom name => .ok name
  | .bytes bytes =>
    match String.fromUTF8? ⟨bytes.toArray⟩ with
    | some text => .ok text
    | none => .error (.eval "cannot interpolate non-UTF-8 bytes into string")
  | other => .error (.eval s!"cannot interpolate {other.typeName} into string")

/-- One level of indexing into an array or a dict. -/
def indexInto (container index : Value) : Except RuntimeError Value :=
  match container, index with
  | .array items, .number n =>
    if n < 0 then .error (.eval s!"array index must be non-negative, got {n}")
    else
      match items[n.toNat]? with
      | some item => .ok item
      | none =>
        .error (.eval s!"array index {n} out of bounds (length {items.length})")
  | .dict fields, .string key =>
    match Dict.get fields key with
    | some value => .ok value
    | none => .error (.eval s!"no field `{key}` on dict")
  | .dict fields, .number n =>
    if n < 0 then .error (.eval s!"dict index must be non-negative, got {n}")
    else
      match fields[n.toNat]? with
      | some field => .ok field.2
      | none =>
        .error (.eval s!"dict index {n} out of bounds (length {fields.length})")
  | container, index =>
    .error (.eval s!"cannot index {container.typeName} with {index.typeName}")

/-- Member access, which only dicts support. -/
def memberOf (object : Value) (property : String) : Except RuntimeError Value :=
  match object with
  | .dict fields =>
    match Dict.get fields property with
    | some value => .ok value
    | none => .error (.eval s!"no field `{property}` on dict")
  | other => .error (.eval s!"cannot access `.{property}` on {other.typeName}")

mutual

def eval (scope : Scope) : Expr → Except RuntimeError Value
  | .number value => .ok (.number value)
  | .bool value => .ok (.bool value)
  | .null => .ok .null
  | .atom ident => .ok (.atom ident.name)
  | .stringLit fragments _ => do
    let text ← concatFragments scope fragments
    return .string text
  | .ident ident =>
    match scope.get ident.name with
    | some value => .ok value
    | none => .error (.eval s!"undefined name `{ident.name}`")
  | .memberAccess object property _ => do
    let value ← eval scope object
    memberOf value property.name
  | .array items => do
    let values ← evalItems scope items
    return .array values
  | .squiggle name fragments _ =>
    match Squiggle.lookup name.name with
    | none => .error (.eval s!"unknown squiggle `~{name.name}`")
    | some squiggle => do
      let rendered ← concatFragments scope fragments
      let value ← squiggle.finish rendered
      if value.isOfType squiggle.outputType then return value
      else
        throw (.eval (s!"squiggle `~{squiggle.name}` declared {squiggle.outputType.debug} " ++
          s!"but produced {value.typeName}"))
  | .index object indices _ => do
    let value ← eval scope object
    evalIndices scope value indices

def evalItems (scope : Scope) : List Expr → Except RuntimeError (List Value)
  | [] => .ok []
  | item :: rest => do
    let value ← eval scope item
    let values ← evalItems scope rest
    return value :: values

/-- Index the current value by each index in turn. -/
def evalIndices (scope : Scope) (current : Value) : List Expr → Except RuntimeError Value
  | [] => .ok current
  | index :: rest => do
    let key ← eval scope index
    let next ← indexInto current key
    evalIndices scope next rest

/-- Render text and interpolations into one string. -/
def concatFragments (scope : Scope) : List StringFragment → Except RuntimeError String
  | [] => .ok ""
  | .text text :: rest => do
    let tail ← concatFragments scope rest
    return text ++ tail
  | .interpolation expr :: rest => do
    let value ← eval scope expr
    let head ← renderInterpolation value
    let tail ← concatFragments scope rest
    return head ++ tail

end

/-! ## What is inside a container -/

/-- A position in an array finds the item there. -/
theorem indexInto_array_eq_ok {items : List Value} {n : Int} {item : Value} :
    indexInto (.array items) (.number n) = .ok item ↔ 0 ≤ n ∧ items[n.toNat]? = some item := by
  rw [indexInto]
  by_cases negative : n < 0
  · simp [negative, Int.not_le.mpr negative]
  · rw [if_neg negative]
    cases held : items[n.toNat]? with
    | none => simp
    | some other => simp [Int.not_lt.mp negative]

/-- A position in a dict finds the value of the field there. -/
theorem indexInto_dict_eq_ok {fields : Dict} {n : Int} {value : Value} :
    indexInto (.dict fields) (.number n) = .ok value ↔
      0 ≤ n ∧ (fields.map Prod.snd)[n.toNat]? = some value := by
  rw [indexInto, List.getElem?_map]
  by_cases negative : n < 0
  · simp [negative, Int.not_le.mpr negative]
  · rw [if_neg negative]
    cases held : fields[n.toNat]? with
    | none => simp
    | some field => simp [Int.not_lt.mp negative]

theorem indexInto_key_eq_ok {fields : Dict} {name : String} {value : Value} :
    indexInto (.dict fields) (.string name) = .ok value ↔ fields.get name = some value := by
  rw [indexInto]
  cases fields.get name <;> simp

theorem memberOf_eq_ok {fields : Dict} {name : String} {value : Value} :
    memberOf (.dict fields) name = .ok value ↔ fields.get name = some value := by
  rw [memberOf]
  cases fields.get name <;> simp

/-! ## Squiggles of plain text -/

theorem concatFragments_texts (scope : Scope) (texts : List (List Char)) :
    concatFragments scope (texts.map fun text => .text (String.ofList text)) =
      .ok (String.ofList texts.flatten) := by
  induction texts with
  | nil => rfl
  | cons text texts ih =>
    rw [List.map_cons, concatFragments, ih, List.flatten_cons, String.ofList_append]
    rfl

/-- A string of plain text is that text. -/
theorem eval_text (scope : Scope) (text : List Char) (span : Span) :
    eval scope (.stringLit [.text (String.ofList text)] span) = .ok (.string (String.ofList text)) := by
  have rendered := concatFragments_texts scope [text]
  rw [List.map_singleton, List.flatten_singleton] at rendered
  rw [eval, rendered]
  rfl

/-- A registered squiggle is finished from its rendered content. -/
theorem eval_squiggle {scope : Scope} {name : Ident} {fragments : List StringFragment} {span : Span}
    {squiggle : Squiggle} {rendered : String} (known : Squiggle.lookup name.name = some squiggle)
    (text : concatFragments scope fragments = .ok rendered) :
    eval scope (.squiggle name fragments span) = squiggle.finish rendered := by
  rw [eval, known, text]
  cases squiggle with
  | hex =>
    cases decoded : decodeHex rendered with
    | error failure => simp [Squiggle.finish, decoded, Except.map, bind, Except.bind]
    | ok bytes =>
      simp [Squiggle.finish, decoded, Except.map, bind, Except.bind, Value.isOfType,
        Squiggle.outputType, pure, Except.pure]
  | _ => rfl

end Ill
