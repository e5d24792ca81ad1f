import Ill.Base.SideBySide
import Ill.Syntax.Relocate
import Ill.Validate.Validator

/-!
# Validation at other places

The validator carries spans from the tree to its diagnostics and never looks at
one. So a file that stands elsewhere is told the same, at the places its spans
went to.
-/

namespace Ill

open Ast Actor

section

variable {place : Span → Span}

/-! ## Expressions -/

section Visits

variable {visit : Expr → List Diagnostic}

mutual

theorem forEachExpr_relocate
    (same : ∀ expr, visit (expr.relocate place) = (visit expr).map (·.relocate place)) :
    ∀ expr, forEachExpr visit (expr.relocate place) = (forEachExpr visit expr).map (·.relocate place)
  | .ident ident => same (.ident ident)
  | .number value => same (.number value)
  | .bool value => same (.bool value)
  | .null => same .null
  | .atom ident => same (.atom ident)
  | .stringLit fragments span => by
    rw [Expr.relocate, forEachExpr, forEachExpr, forEachFragment_relocate same fragments, List.map_append,
      ← same, Expr.relocate]
  | .squiggle name fragments span => by
    rw [Expr.relocate, forEachExpr, forEachExpr, forEachFragment_relocate same fragments, List.map_append,
      ← same, Expr.relocate]
  | .array items => by
    rw [Expr.relocate, forEachExpr, forEachExpr, forEachItem_relocate same items, List.map_append, ← same,
      Expr.relocate]
  | .memberAccess object property span => by
    rw [Expr.relocate, forEachExpr, forEachExpr, forEachExpr_relocate same object, List.map_append, ← same,
      Expr.relocate]
  | .index object indices span => by
    rw [Expr.relocate, forEachExpr, forEachExpr, forEachExpr_relocate same object,
      forEachItem_relocate same indices, List.map_append, List.map_append, ← same, Expr.relocate]

theorem forEachItem_relocate
    (same : ∀ expr, visit (expr.relocate place) = (visit expr).map (·.relocate place)) :
    ∀ items, forEachItem visit (relocateItems place items) =
      (forEachItem visit items).map (·.relocate place)
  | [] => rfl
  | item :: rest => by
    rw [relocateItems, forEachItem, forEachItem, forEachExpr_relocate same item, forEachItem_relocate same rest,
      List.map_append]

theorem forEachFragment_relocate
    (same : ∀ expr, visit (expr.relocate place) = (visit expr).map (·.relocate place)) :
    ∀ fragments, forEachFragment visit (relocateFragments place fragments) =
      (forEachFragment visit fragments).map (·.relocate place)
  | [] => rfl
  | .text _ :: rest => by
    rw [relocateFragments, forEachFragment, forEachFragment, forEachFragment_relocate same rest]
  | .interpolation expr :: rest => by
    rw [relocateFragments, forEachFragment, forEachFragment, forEachExpr_relocate same expr,
      forEachFragment_relocate same rest, List.map_append]

end

end Visits

end

end Ill

namespace Ill.Validate

open Ast Actor Base

variable {place : Span → Span}

end Ill.Validate
