import Ill.Actor.Registry
import Ill.Syntax.Diagnostic
import Ill.Runtime.Eval

/-!
# Expressions as the validator reads them

The root of a reference chain, the visit of every nested expression, and the
narrow static types. `exprStartsWithIdent` is shared with the harness.
-/

namespace Ill

open Ast Actor Base

/-- Whether an expression is `name`, `name.foo`, `name[…]` or a longer chain
rooted at `name`. -/
def exprStartsWithIdent (name : String) : Expr → Bool
  | .ident ident => ident.name == name
  | .memberAccess object _ _ => exprStartsWithIdent name object
  | .index object _ _ => exprStartsWithIdent name object
  | _ => false

mutual

/-- Concatenate what `visit` reports of an expression and of every nested one,
in pre-order. -/
def forEachExpr (visit : Expr → List Diagnostic) : Expr → List Diagnostic
  | .squiggle name fragments span =>
    visit (.squiggle name fragments span) ++ forEachFragment visit fragments
  | .stringLit fragments span => visit (.stringLit fragments span) ++ forEachFragment visit fragments
  | .array items => visit (.array items) ++ forEachItem visit items
  | .memberAccess object property span =>
    visit (.memberAccess object property span) ++ forEachExpr visit object
  | .index object indices span =>
    visit (.index object indices span) ++ forEachExpr visit object ++ forEachItem visit indices
  | .ident ident => visit (.ident ident)
  | .number value => visit (.number value)
  | .bool value => visit (.bool value)
  | .null => visit .null
  | .atom ident => visit (.atom ident)

def forEachItem (visit : Expr → List Diagnostic) : List Expr → List Diagnostic
  | [] => []
  | item :: rest => forEachExpr visit item ++ forEachItem visit rest

def forEachFragment (visit : Expr → List Diagnostic) : List StringFragment → List Diagnostic
  | [] => []
  | .text _ :: rest => forEachFragment visit rest
  | .interpolation expr :: rest => forEachExpr visit expr ++ forEachFragment visit rest

end

/-- Report a squiggle that is not registered. -/
def unknownSquiggle : Expr → List Diagnostic
  | .squiggle name _ _ =>
    if (Squiggle.lookup name.name).isNone then
      [.error name.span .unknownSquiggle s!"unknown squiggle `~{name.name}`"]
    else []
  | _ => []

def checkSquigglesInExpr (expr : Expr) : List Diagnostic := forEachExpr unknownSquiggle expr

def checkSquigglesInKwvalue : KeywordValue → List Diagnostic
  | .expr expr => checkSquigglesInExpr expr
  | .map pairs => pairs.flatMap fun pair => checkSquigglesInExpr pair.1 ++ checkSquigglesInExpr pair.2

/-- The context-free type of an expression. -/
def exprType : Expr → ValueType
  | .stringLit _ _ => .string
  | .number _ => .number
  | .bool _ => .bool
  | .null => .null
  | .atom _ => .atom
  | .squiggle name _ _ => ((Squiggle.lookup name.name).map Squiggle.outputType).getD .unknown
  | _ => .unknown

/-- The type of `ok.<field>`, `error.type`, `error.<variant>` or
`error.<variant>.<field>` after the last command. -/
def resolveOutcomeChain (lastOkFields : List OutcomeField) (lastErrorTypes : List ErrorTypeDef) :
    Expr → Option ValueType
  | .memberAccess (.ident root) property _ =>
    if root.name = "ok" then
      (lastOkFields.find? fun field => field.name == property.name).map OutcomeField.ty
    else if root.name = "error" then
      if property.name = "type" then some .atom
      else
        (lastErrorTypes.find? fun variant => variant.name == property.name).map fun _ => .unknown
    else none
  | .memberAccess (.memberAccess (.ident root) variantProp _) property _ =>
    if root.name = "error" then do
      let variant ← lastErrorTypes.find? fun variant => variant.name == variantProp.name
      let field ← variant.fields.find? fun field => field.name == property.name
      return field.ty
    else none
  | _ => none

/-- An expression cannot be rooted at two names. -/
theorem exprStartsWithIdent_unique {name other : String} {expr : Expr}
    (first : exprStartsWithIdent name expr = true)
    (second : exprStartsWithIdent other expr = true) : name = other := by
  induction expr using exprStartsWithIdent.induct with
  | case1 ident =>
    simp only [exprStartsWithIdent, beq_iff_eq] at first second
    exact first.symm.trans second
  | case2 object property span ih => exact ih first second
  | case3 object indices span ih => exact ih first second
  | case4 expr noIdent noMember noIndex =>
    cases expr <;> simp_all [exprStartsWithIdent]

/-- A chain rooted at an unbound name does not evaluate. -/
theorem eval_of_unbound {name : String} {expr : Expr}
    (rooted : exprStartsWithIdent name expr = true) {scope : Scope}
    (unbound : scope.get name = none) : ∃ e, eval scope expr = .error e := by
  induction expr using exprStartsWithIdent.induct with
  | case1 ident =>
    simp only [exprStartsWithIdent, beq_iff_eq] at rooted
    exact ⟨_, by rw [eval, rooted, unbound]⟩
  | case2 object property span ih =>
    obtain ⟨e, failed⟩ := ih rooted
    exact ⟨e, by rw [eval, failed]; rfl⟩
  | case3 object indices span ih =>
    obtain ⟨e, failed⟩ := ih rooted
    exact ⟨e, by rw [eval, failed]; rfl⟩
  | case4 expr noIdent noMember noIndex =>
    cases expr <;> simp_all [exprStartsWithIdent]

/-- An evaluated expression inhabits its context-free type. -/
theorem eval_isOfType {scope : Scope} {expr : Expr} {value : Value}
    (evaluated : eval scope expr = .ok value) : value.isOfType (exprType expr) = true := by
  cases expr with
  | number n =>
    cases evaluated
    rfl
  | bool b =>
    cases evaluated
    rfl
  | null =>
    cases evaluated
    rfl
  | atom name =>
    cases evaluated
    rfl
  | stringLit fragments span =>
    rw [eval] at evaluated
    obtain ⟨text, _, returned⟩ := bind_eq_ok.mp evaluated
    cases returned
    rfl
  | squiggle name fragments span =>
    rw [eval] at evaluated
    rw [exprType]
    rcases found : Squiggle.lookup name.name with _ | squiggle
    · simp [found] at evaluated
    · rw [found] at evaluated
      obtain ⟨rendered, _, rest⟩ := bind_eq_ok.mp evaluated
      obtain ⟨result, _, checked⟩ := bind_eq_ok.mp rest
      split at checked
      · next inhabits =>
        cases checked
        exact inhabits
      · simp [throw, throwThe, MonadExceptOf.throw] at checked
  | ident _ | array _ | memberAccess _ _ _ | index _ _ _ => exact Value.isOfType_unknown value

end Ill
