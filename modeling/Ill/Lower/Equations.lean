import Ill.Lower.Lower

/-!
# Equations of the lowering functions

The functions that go through the children of a node, with the step that they
take at a child under a name of its own.
-/

namespace Ill.Lower

open Base Base.Utf8 Base.Reporting Ast

section

variable (source : Text)

/-- What a child of a string or a squiggle becomes. -/
def lowerFragment (textKind : String) (child : Node) : Lowering (Option StringFragment) :=
  if child.kind == textKind then return some (.text (textOf source child))
  else if child.kind == "interpolation" then
    match child.firstNamed with
    | some inner => do
      let some expr ← lowerExpression source inner | return none
      return some (.interpolation expr)
    | none => return none
  else return none

/-- What a child of an array becomes. -/
def lowerElement (child : Node) : Lowering (Option Expr) :=
  match child.kind with
  | "primary_expression" | "member_expression" | "index_expression" => lowerExpression source child
  | _ => return none

theorem collectFragments_eq (node : Node) (textKind : String) :
    collectFragments source node textKind =
      each (lowerFragment source textKind) node.namedChildren := by
  rw [collectFragments, ← each_attach (lowerFragment source textKind)]
  refine congrArg (each · _) (funext fun child => ?_)
  unfold lowerFragment
  split
  · rfl
  · split
    · cases child.1.firstNamed <;> rfl
    · rfl

/-- Without interpolations, the children of the text kind become text fragments
and the others nothing. -/
theorem each_lowerFragment_filter {textKind : String} {children : List Node}
    (plain : ∀ child ∈ children, child.kind = textKind ∨ child.kind ≠ "interpolation") :
    each (lowerFragment source textKind) children =
      .returned ((children.filter fun child => child.kind == textKind).map fun child =>
        .text (textOf source child)) [] := by
  induction children with
  | nil => rfl
  | cons child rest ih =>
    obtain ⟨here, later⟩ := List.forall_mem_cons.mp plain
    rw [each, ih later, lowerFragment, List.filter_cons]
    by_cases text : (child.kind == textKind) = true
    · rw [if_pos text, if_pos text]
      rfl
    · have other : ¬ (child.kind == "interpolation") = true := by
        simpa using here.resolve_left (mt beq_iff_eq.mpr text)
      rw [if_neg text, if_neg other, if_neg text]
      rfl

/-- Text children become text fragments. -/
theorem each_lowerFragment_text {textKind : String} {children : List Node}
    (kinds : ∀ child ∈ children, child.kind = textKind) :
    each (lowerFragment source textKind) children =
      .returned (children.map fun child => .text (textOf source child)) [] := by
  rw [each_lowerFragment_filter source fun child inside => .inl (kinds child inside)]
  rw [List.filter_eq_self.mpr fun child inside => beq_iff_eq.mpr (kinds child inside)]

theorem lowerArray_eq (node : Node) :
    lowerArray source node = (do
      let elements ← each (lowerElement source) node.namedChildren
      return some (.array elements)) := by
  rw [lowerArray, ← each_attach (lowerElement source)]
  rfl

theorem lowerExpression_primary {node : Node} (kind : node.kind = "primary_expression") :
    lowerExpression source node =
      match node.firstNamed with
      | some child => lowerPrimary source child
      | none => pure none := by
  rw [lowerExpression, kind]
  cases node.firstNamed <;> rfl

theorem lowerMemberExpression_eq (node : Node) :
    lowerMemberExpression source node =
      match node.childByFieldName "object" with
      | none => pure none
      | some objectNode => do
        let some property ← lowerIdentField source node "property" | return none
        let some object ← lowerExpression source objectNode | return none
        return some (.memberAccess object property node.span) := by
  rw [lowerMemberExpression]
  cases node.childByFieldName "object" <;> rfl

theorem lowerString_eq (node : Node) :
    lowerString source node =
      match node.firstNamed with
      | none => pure none
      | some inner =>
        match inner.kind with
        | "double_quoted_string" => do
          let fragments ← lowerStringFragments source inner
          return some (.stringLit fragments node.span)
        | "single_quoted_string" => do
          let content ← unquote (inner.text source)
          return some (.stringLit [.text (String.ofList content)] node.span)
        | _ => pure none := by
  rw [lowerString]
  cases node.firstNamed <;> rfl

theorem lowerIndexExpression_eq (node : Node) :
    lowerIndexExpression source node =
      match node.childByFieldName "object" with
      | none => pure none
      | some objectNode => do
        let some object ← lowerExpression source objectNode | return none
        let indices ← each (lowerExpression source) (node.childrenByFieldName "index")
        return some (.index object indices node.span) := by
  rw [lowerIndexExpression, ← each_attach (lowerExpression source)]
  cases node.childByFieldName "object" <;> rfl

end

end Ill.Lower
