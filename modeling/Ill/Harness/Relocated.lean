import Ill.Harness.Harness
import Ill.Validate.Relocated

/-!
# Runs of relocated files

A run carries spans from the tree to its report and nowhere else: no call, no
binding and no message depends on one. So a file that stands elsewhere makes the
same calls, and its report differs in its spans only.
-/

namespace Ill

open Ast

section

variable {place : Span → Span}

/-! ## Expressions -/

mutual

@[simp] theorem eval_relocate (scope : Scope) :
    ∀ expr, eval scope (expr.relocate place) = eval scope expr
  | .number _ | .bool _ | .null | .atom _ | .ident _ => rfl
  | .stringLit fragments _ => by
    rw [Expr.relocate, eval, eval, concatFragments_relocate scope fragments]
  | .squiggle name fragments _ => by
    rw [Expr.relocate, eval, eval, concatFragments_relocate scope fragments, Ident.relocate_name]
  | .array items => by
    rw [Expr.relocate, eval, eval, evalItems_relocate scope items]
  | .memberAccess object property _ => by
    rw [Expr.relocate, eval, eval, eval_relocate scope object, Ident.relocate_name]
  | .index object indices _ => by
    rw [Expr.relocate, eval, eval, eval_relocate scope object]
    exact bind_congr fun value => evalIndices_relocate scope value indices

theorem evalItems_relocate (scope : Scope) :
    ∀ items, evalItems scope (relocateItems place items) = evalItems scope items
  | [] => rfl
  | item :: rest => by
    rw [relocateItems, evalItems, evalItems, eval_relocate scope item, evalItems_relocate scope rest]

theorem evalIndices_relocate (scope : Scope) (current : Value) :
    ∀ indices, evalIndices scope current (relocateItems place indices) =
      evalIndices scope current indices
  | [] => rfl
  | index :: rest => by
    rw [relocateItems, evalIndices, evalIndices, eval_relocate scope index]
    exact bind_congr fun key => bind_congr fun next => evalIndices_relocate scope next rest

theorem concatFragments_relocate (scope : Scope) :
    ∀ fragments, concatFragments scope (relocateFragments place fragments) =
      concatFragments scope fragments
  | [] => rfl
  | .text _ :: rest => by
    rw [relocateFragments, concatFragments, concatFragments, concatFragments_relocate scope rest]
  | .interpolation expr :: rest => by
    rw [relocateFragments, concatFragments, concatFragments, eval_relocate scope expr,
      concatFragments_relocate scope rest]

end

end

end Ill

namespace Ill.Harness

open Ast Actor Base Validate

section

variable {place : Span → Span}

/-! ## Arguments -/

end

/-! ## Reports -/

def StatementReport.relocate (place : Span → Span) : StatementReport → StatementReport
  | .validationFailure diagnostics => .validationFailure (diagnostics.map (·.relocate place))
  | .parseFailure diagnostics => .parseFailure (diagnostics.map (·.relocate place))
  | .constructFailure actor message span => .constructFailure actor message (place span)
  | .commandFailure actor command span errorFields expect =>
    .commandFailure actor command (place span) errorFields expect
  | .commandNotImplemented actor command span => .commandNotImplemented actor command (place span)
  | .assertFailure actor span left right op expect =>
    .assertFailure actor (place span) left right op expect
  | .evalError actor span message => .evalError actor (place span) message

def TestReport.relocate (place : Span → Span) (report : TestReport) : TestReport :=
  { report with statements := report.statements.map (·.relocate place) }

/-! ## Steps -/

section Run

variable {Instance : Type} {runtime : ActorRuntime (List (Event Instance)) Instance} {regex : Regex}
  {place : Span → Span}

/-- What a step returns on the same syntax at other places. -/
def moved {State : Type} (place : Span → Span) (stepped : State × Option StatementReport) :
    State × Option StatementReport :=
  (stepped.1, stepped.2.map (·.relocate place))

end Run

end Ill.Harness
