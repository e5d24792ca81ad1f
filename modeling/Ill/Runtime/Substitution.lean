import Ill.Runtime.Interpolation

/-!
# Substitution

An expression in the place of a name evaluates to what the name would hold, at
every depth: inside strings, squiggles, arrays, indices and member accesses. The
language binds no names inside expressions, so nothing is captured.
-/

namespace Ill.Ast

mutual

/-- Put an expression wherever a name is looked up. -/
def substExpr (name : String) (image : Expr) : Expr → Expr
  | .ident ident => if ident.name = name then image else .ident ident
  | .stringLit fragments span => .stringLit (substFragments name image fragments) span
  | .squiggle tag fragments span => .squiggle tag (substFragments name image fragments) span
  | .array items => .array (substItems name image items)
  | .memberAccess object property span => .memberAccess (substExpr name image object) property span
  | .index object indices span =>
    .index (substExpr name image object) (substItems name image indices) span
  | .number value => .number value
  | .bool value => .bool value
  | .null => .null
  | .atom ident => .atom ident

def substItems (name : String) (image : Expr) : List Expr → List Expr
  | [] => []
  | item :: rest => substExpr name image item :: substItems name image rest

def substFragments (name : String) (image : Expr) : List StringFragment → List StringFragment
  | [] => []
  | .text text :: rest => .text text :: substFragments name image rest
  | .interpolation expr :: rest =>
    .interpolation (substExpr name image expr) :: substFragments name image rest

end

theorem substItems_eq_map (name : String) (image : Expr) (items : List Expr) :
    substItems name image items = items.map (substExpr name image) := by
  induction items with
  | nil => rfl
  | cons item rest ih => rw [substItems, ih, List.map_cons]

end Ill.Ast

namespace Ill

open Ast

mutual

/-- Evaluating with an expression in the place of a name, or with the name bound
to what the expression evaluates to. -/
theorem eval_subst {scope : Scope} {name : String} {image : Expr} {value : Value}
    (held : eval scope image = .ok value) :
    ∀ expr, eval scope (substExpr name image expr) = eval (scope.bind name value) expr
  | .number _ | .bool _ | .null | .atom _ => rfl
  | .ident ident => by
    rw [substExpr, eval, Scope.get_bind]
    by_cases same : ident.name = name
    · rw [if_pos same, if_pos same, held]
    · rw [if_neg same, if_neg same, eval]
  | .stringLit fragments _ => by
    rw [substExpr, eval, eval, concatFragments_subst held fragments]
  | .squiggle tag fragments _ => by
    rw [substExpr, eval, eval, concatFragments_subst held fragments]
  | .array items => by
    rw [substExpr, eval, eval, evalItems_subst held items]
  | .memberAccess object property _ => by
    rw [substExpr, eval, eval, eval_subst held object]
  | .index object indices _ => by
    rw [substExpr, eval, eval, eval_subst held object]
    exact bind_congr fun root => evalIndices_subst held root indices

theorem evalItems_subst {scope : Scope} {name : String} {image : Expr} {value : Value}
    (held : eval scope image = .ok value) :
    ∀ items, evalItems scope (substItems name image items) = evalItems (scope.bind name value) items
  | [] => rfl
  | item :: rest => by
    rw [substItems, evalItems, evalItems, eval_subst held item, evalItems_subst held rest]

theorem evalIndices_subst {scope : Scope} {name : String} {image : Expr} {value : Value}
    (held : eval scope image = .ok value) (current : Value) :
    ∀ indices, evalIndices scope current (substItems name image indices) =
      evalIndices (scope.bind name value) current indices
  | [] => rfl
  | index :: rest => by
    rw [substItems, evalIndices, evalIndices, eval_subst held index]
    exact bind_congr fun key => bind_congr fun next => evalIndices_subst held next rest

theorem concatFragments_subst {scope : Scope} {name : String} {image : Expr} {value : Value}
    (held : eval scope image = .ok value) :
    ∀ fragments, concatFragments scope (substFragments name image fragments) =
      concatFragments (scope.bind name value) fragments
  | [] => rfl
  | .text _ :: rest => by
    rw [substFragments, concatFragments, concatFragments, concatFragments_subst held rest]
  | .interpolation expr :: rest => by
    rw [substFragments, concatFragments, concatFragments, eval_subst held expr,
      concatFragments_subst held rest]

end

/-! ## Expressions that need no scope -/

end Ill
