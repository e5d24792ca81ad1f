import Ill.Runtime.Eval

/-!
# Assert evaluation

Evaluates the left side, applies the comparison to the right side, and reports
both values for the failure message. The regular expression engine is a
library outside the repository and stays a parameter.
-/

namespace Ill

open Ast

/-- The regular expression engine: compile a pattern, then test a subject. A
pattern that does not compile yields the engine's message. -/
abbrev Regex := String → Except String (String → Bool)

structure AssertResult where
  passed : Bool
  left : Value
  right : Option Value
  op : Option ComparisonOp

def isTruthy : Value → Bool
  | .bool value => value
  | .number value => value != 0
  | .float bits => !Value.floatIsZero bits
  | .string text => text != ""
  | .array items => !items.isEmpty
  | .dict fields => !fields.isEmpty
  | .bytes bytes => !bytes.isEmpty
  | .atom _ => true
  | .null => false

/-- Numbers and strings are ordered; nothing else is. -/
def compareOrd (left right : Value) : Except RuntimeError Ordering :=
  match left, right with
  | .number x, .number y => .ok (compare x y)
  | .string x, .string y => .ok (compare x y)
  | left, right =>
    .error (.eval s!"cannot order-compare {left.typeName} and {right.typeName}")

/-- Substring of a string, or membership in an array. -/
def containsValue (haystack needle : Value) : Except RuntimeError Bool :=
  match haystack, needle with
  | .string text, .string part => .ok (containsText text part)
  | .array items, needle => .ok (items.any fun item => item.eq needle)
  | haystack, needle =>
    .error (.eval s!"cannot test whether {haystack.typeName} contains {needle.typeName}")

def matchesRegex (regex : Regex) (subject pattern : Value) : Except RuntimeError Bool :=
  match subject, pattern with
  | .string text, .string source =>
    match regex source with
    | .ok isMatch => .ok (isMatch text)
    | .error message => .error (.eval s!"invalid regex `{source}`: {message}")
  | subject, pattern =>
    .error (.eval (s!"`matches` requires string left and string regex right, got " ++
      s!"{subject.typeName} and {pattern.typeName}"))

def compareValues (regex : Regex) (left right : Value) : ComparisonOp → Except RuntimeError Bool
  | .eq => .ok (left.eq right)
  | .notEq => .ok (!left.eq right)
  | .gt => (compareOrd left right).map (· == .gt)
  | .gte => (compareOrd left right).map (· != .lt)
  | .lt => (compareOrd left right).map (· == .lt)
  | .lte => (compareOrd left right).map (· != .gt)
  | .contains => containsValue left right
  | .notContains => (containsValue left right).map (!·)
  | .matches => matchesRegex regex left right
  | .notMatches => (matchesRegex regex left right).map (!·)

def evalAssert (regex : Regex) (assert : Assert) (scope : Scope) :
    Except RuntimeError AssertResult := do
  let left ← eval scope assert.left
  match assert.op with
  | none => return { passed := isTruthy left, left, right := none, op := none }
  | some op =>
    match assert.right with
    | none => throw (.eval "assert has comparison operator but no right-hand side")
    | some rightExpr =>
      let right ← eval scope rightExpr
      let passed ← compareValues regex left right op
      return { passed, left, right := some right, op := some op }

end Ill
