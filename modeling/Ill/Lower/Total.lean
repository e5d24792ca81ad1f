import Ill.Lower.Lower

/-!
# When lowering cannot panic

Lowering strips the quotes of a single-quoted string by position, which panics
on a node that does not cover both. The token is one quote, text without
quotes, and one quote, and on trees whose single-quoted strings are such tokens
every pass of lowering returns.
-/

namespace Ill.Lower

open Base Base.Utf8 Base.Reporting Ast

/-- A node in the tree under another, or that node itself. -/
inductive Node.Under (inner : Node) : Node → Prop where
  | here : Under inner inner
  | deeper {child node : Node} (member : child ∈ node.children) (under : Under inner child) :
      Under inner node

/-- Every single-quoted string in a tree covers its two quotes. -/
def Node.Quoted (source : Text) (node : Node) : Prop :=
  ∀ inner : Node, inner.Under node → inner.kind = "single_quoted_string" →
    ∃ content, inner.text source = '\'' :: content ++ ['\'']

theorem Node.Quoted.child {source : Text} {node child : Node} (quoted : node.Quoted source)
    (member : child ∈ node.children) : child.Quoted source :=
  fun inner under => quoted inner (.deeper member under)

/-- A text between two quotes is stripped of them. -/
theorem unquote_quoted (content : Text) :
    unquote ('\'' :: content ++ ['\'']) = .returned content [] := by
  have quote : byteSize ['\''] = 1 := rfl
  have whole : byteSize ('\'' :: content ++ ['\'']) = byteSize content + 2 := by
    rw [List.cons_append, byteSize_cons, byteSize_append, quote]
    have first : ('\'' : Char).utf8Size = 1 := rfl
    omega
  have sliced : slice? ('\'' :: content ++ ['\'']) 1 (byteSize ('\'' :: content ++ ['\'']) - 1) =
      some content :=
    slice?_eq_some_iff.mpr ⟨by omega, ['\''], ['\''], by simp, rfl, by omega⟩
  rw [unquote, sliced]
  rfl

theorem unquote_returns {source : Text} {node : Node} (quoted : node.Quoted source)
    (single : node.kind = "single_quoted_string") : (unquote (node.text source)).Returns := by
  obtain ⟨content, text⟩ := quoted node .here single
  rw [text, unquote_quoted]
  exact .pure content

section

variable {source : Text}

theorem lowerIdentField_returns (node : Node) (field : String) :
    (lowerIdentField source node field).Returns := by
  unfold lowerIdentField
  split
  · exact .pure _
  · exact .bind (.report _) fun _ => .pure _

theorem reportUnexpected_returns (node : Node) (message : String) :
    (reportUnexpected node message).Returns := by
  unfold reportUnexpected
  split
  · exact .pure _
  · exact .report _

theorem lowerNumber_returns (node : Node) : (lowerNumber source node).Returns := by
  unfold lowerNumber
  split
  · exact .pure _
  · exact .bind (.report _) fun _ => .pure _

theorem unescapeFragment_returns (node : Node) (fragment : StringFragment) :
    (unescapeFragment node fragment).Returns := by
  unfold unescapeFragment
  split
  · split
    · exact .pure _
    · exact .bind (.report _) fun _ => .pure _
  · exact .pure _

/-! ## Expressions -/

mutual

theorem lowerExpression_returns (node : Node) (quoted : node.Quoted source) :
    (lowerExpression source node).Returns := by
  rw [lowerExpression]
  split
  · split
    · next child found =>
      have member := Node.mem_of_firstNamed found
      exact lowerPrimary_returns child (quoted.child member)
    · exact .pure _
  · exact lowerMemberExpression_returns node quoted
  · exact lowerIndexExpression_returns node quoted
  all_goals first
    | exact lowerPrimary_returns node quoted
    | exact .bind (reportUnexpected_returns node _) fun _ => .pure _
termination_by (sizeOf node, 3)
decreasing_by
  all_goals first
    | exact .right _ (by decide)
    | exact .left _ _ (Node.sizeOf_lt_of_mem ‹_›)

theorem lowerPrimary_returns (node : Node) (quoted : node.Quoted source) :
    (lowerPrimary source node).Returns := by
  rw [lowerPrimary]
  split
  · exact .pure _
  · exact lowerNumber_returns node
  · exact .pure _
  · exact .pure _
  · exact .pure _
  · exact lowerString_returns node quoted
  · exact lowerSquiggle_returns node quoted
  · exact lowerArray_returns node quoted
  · exact .bind (reportUnexpected_returns node _) fun _ => .pure _
termination_by (sizeOf node, 2)
decreasing_by all_goals exact .right _ (by decide)

theorem lowerMemberExpression_returns (node : Node) (quoted : node.Quoted source) :
    (lowerMemberExpression source node).Returns := by
  rw [lowerMemberExpression]
  split
  · exact .pure _
  · next objectNode found =>
    have member := Node.mem_of_childByFieldName found
    refine .bindSome (lowerIdentField_returns node _) (.pure _) fun property => ?_
    exact .bindSome (lowerExpression_returns objectNode (quoted.child member)) (.pure _)
      fun object => .pure _
termination_by (sizeOf node, 1)
decreasing_by exact .left _ _ (Node.sizeOf_lt_of_mem ‹_›)

theorem lowerIndexExpression_returns (node : Node) (quoted : node.Quoted source) :
    (lowerIndexExpression source node).Returns := by
  rw [lowerIndexExpression]
  split
  · exact .pure _
  · next objectNode found =>
    have member := Node.mem_of_childByFieldName found
    refine .bindSome (lowerExpression_returns objectNode (quoted.child member)) (.pure _)
      fun object => ?_
    refine .bind (.each fun child _ => ?_) fun indices => .pure _
    have member := Node.mem_of_childrenByFieldName child.2
    exact lowerExpression_returns child.1 (quoted.child member)
termination_by (sizeOf node, 1)
decreasing_by all_goals exact .left _ _ (Node.sizeOf_lt_of_mem ‹_›)

theorem lowerArray_returns (node : Node) (quoted : node.Quoted source) :
    (lowerArray source node).Returns := by
  rw [lowerArray]
  refine .bind (.each fun child _ => ?_) fun elements => .pure _
  have member := Node.mem_of_namedChildren child.2
  split
  all_goals first
    | exact lowerExpression_returns child.1 (quoted.child member)
    | exact .pure _
termination_by (sizeOf node, 1)
decreasing_by all_goals exact .left _ _ (Node.sizeOf_lt_of_mem ‹_›)

theorem lowerString_returns (node : Node) (quoted : node.Quoted source) :
    (lowerString source node).Returns := by
  rw [lowerString]
  split
  · exact .pure _
  · next inner found =>
    have member := Node.mem_of_firstNamed found
    split
    · exact .bind (lowerStringFragments_returns inner (quoted.child member)) fun _ => .pure _
    · next single => exact .bind (unquote_returns (quoted.child member) single) fun _ => .pure _
    · exact .pure _
termination_by (sizeOf node, 1)
decreasing_by exact .left _ _ (Node.sizeOf_lt_of_mem ‹_›)

theorem lowerStringFragments_returns (node : Node) (quoted : node.Quoted source) :
    (lowerStringFragments source node).Returns := by
  rw [lowerStringFragments]
  refine .bind (collectFragments_returns node quoted "string_content") fun fragments => ?_
  exact .each fun fragment _ => unescapeFragment_returns node fragment
termination_by (sizeOf node, 1)
decreasing_by exact .right _ (by decide)

theorem collectFragments_returns (node : Node) (quoted : node.Quoted source) (textKind : String) :
    (collectFragments source node textKind).Returns := by
  rw [collectFragments]
  refine .each fun child _ => ?_
  have member := Node.mem_of_namedChildren child.2
  split
  · exact .pure _
  split
  · split
    · next inner found =>
      have deeper := Node.mem_of_firstNamed found
      exact .bindSome (lowerExpression_returns inner ((quoted.child member).child deeper)) (.pure _)
        fun expr => .pure _
    · exact .pure _
  · exact .pure _
termination_by (sizeOf node, 0)
decreasing_by
  have inside := Node.sizeOf_lt_of_mem member
  exact .left _ _ ((Node.sizeOf_lt_of_mem deeper).trans inside)

theorem lowerSquiggle_returns (node : Node) (quoted : node.Quoted source) :
    (lowerSquiggle source node).Returns := by
  rw [lowerSquiggle]
  split
  · exact .pure _
  · exact .bind (collectFragments_returns node quoted "squiggle_content") fun _ => .pure _
termination_by (sizeOf node, 1)
decreasing_by exact .right _ (by decide)

end

/-! ## Children -/

/-- A pass over children of a node, if it returns on each child. -/
theorem each_returns {α : Type} {lower : Node → Lowering (Option α)} {node : Node}
    (quoted : node.Quoted source) {children : List Node}
    (within : ∀ child ∈ children, child ∈ node.children)
    (lowers : ∀ child, child.Quoted source → (lower child).Returns) :
    (each lower children).Returns :=
  .each fun child member => lowers child (quoted.child (within child member))

/-- The named children of a kind. -/
theorem mem_of_kind {node child : Node} {kind : String}
    (member : child ∈ node.namedChildren.filter fun child => child.kind == kind) :
    child ∈ node.children :=
  Node.mem_of_namedChildren (List.mem_of_mem_filter member)

theorem lowerIfPresent_returns {α : Type} {lower : Node → Lowering (Option α)} {node : Node}
    (quoted : node.Quoted source) {child : Option Node}
    (within : ∀ present ∈ child, present ∈ node.children)
    (lowers : ∀ child, child.Quoted source → (lower child).Returns) :
    (lowerIfPresent lower child).Returns := by
  cases child with
  | none => exact .pure _
  | some child => exact lowers child (quoted.child (within child rfl))

theorem lowerField_returns {α : Type} {lower : Node → Lowering (Option α)} {node : Node}
    (quoted : node.Quoted source) (field : String)
    (lowers : ∀ child, child.Quoted source → (lower child).Returns) :
    (lowerIfPresent lower (node.childByFieldName field)).Returns :=
  lowerIfPresent_returns quoted (fun _ present => Node.mem_of_childByFieldName present) lowers

/-! ## Annotations and keyword arguments -/

theorem extractStringText_returns (node : Node) (quoted : node.Quoted source) :
    (extractStringText source node).Returns := by
  unfold extractStringText
  split
  · exact .pure _
  · next inner found =>
    split
    · exact .pure _
    · next single =>
      have member := Node.mem_of_firstNamed found
      exact .bind (unquote_returns (quoted.child member) single) fun _ => .pure _
    · exact .pure _

theorem lowerAnnotationValue_returns (node : Node) (quoted : node.Quoted source) :
    (lowerAnnotationValue source node).Returns := by
  unfold lowerAnnotationValue
  split
  · exact .pure _
  · exact .bind (extractStringText_returns node quoted) fun _ => .pure _
  · exact .pure _

theorem lowerAnnotation_returns (node : Node) (quoted : node.Quoted source) :
    ( lowerAnnotation source node).Returns := by
  unfold lowerAnnotation
  refine .bind (.each fun inner member => ?_) fun values => .pure _
  obtain ⟨holder, held, inside⟩ := List.mem_flatMap.mp member
  have outer := quoted.child (mem_of_kind held)
  exact lowerAnnotationValue_returns inner (outer.child (Node.mem_of_namedChildren inside))

theorem lowerKeywordPair_returns (node : Node) (quoted : node.Quoted source) :
    (lowerKeywordPair source node).Returns := by
  unfold lowerKeywordPair
  split
  · next keyNode key =>
    split
    · next valueNode value =>
      have keyQuoted := quoted.child (Node.mem_of_childByFieldName key)
      have valueQuoted := quoted.child (Node.mem_of_childByFieldName value)
      refine .bindSome (lowerExpression_returns keyNode keyQuoted) (.pure _) fun key => ?_
      exact .bindSome (lowerExpression_returns valueNode valueQuoted) (.pure _) fun value => .pure _
    · exact .pure _
  · exact .pure _

theorem lowerKeywordArg_returns (node : Node) (quoted : node.Quoted source) :
    (lowerKeywordArg source node).Returns := by
  unfold lowerKeywordArg
  refine .bindSome (lowerIdentField_returns node _) (.pure _) fun key => ?_
  refine .bind (each_returns quoted (fun _ => mem_of_kind) lowerKeywordPair_returns) fun pairs => ?_
  split
  · exact .bindSome (lowerField_returns quoted "value" lowerExpression_returns) (.pure _)
      fun value => .pure _
  · exact .pure _

theorem collectKeywordArgs_returns (node : Node) (quoted : node.Quoted source) :
    (collectKeywordArgs source node).Returns :=
  each_returns quoted (fun _ => mem_of_kind) lowerKeywordArg_returns

/-! ## Statements -/

theorem lowerCommandPart_returns (node : Node) (quoted : node.Quoted source) :
    (lowerCommandPart source node).Returns := by
  unfold lowerCommandPart
  split
  · exact .bind (lowerAnnotation_returns node quoted) fun _ => .pure _
  · exact .bind (collectKeywordArgs_returns node quoted) fun _ => .pure _
  · exact .bind (collectKeywordArgs_returns node quoted) fun _ => .pure _
  all_goals first
    | exact .bindSome (lowerExpression_returns node quoted) (.pure _) fun expr => .pure _
    | exact .pure _

theorem lowerCommand_returns (node : Node) (quoted : node.Quoted source) :
    (lowerCommand source node).Returns := by
  unfold lowerCommand
  refine .bindSome (lowerIdentField_returns node _) (.pure _) fun name => ?_
  exact .bind (each_returns quoted (fun _ => Node.mem_of_namedChildren) lowerCommandPart_returns)
    fun parts => .pure _

theorem lowerComparisonOp_returns (node : Node) : (lowerComparisonOp source node).Returns := by
  unfold lowerComparisonOp
  split
  all_goals first
    | exact .pure _
    | exact .bind (.report _) fun _ => .pure _

theorem lowerAssert_returns (node : Node) (quoted : node.Quoted source) :
    (lowerAssert source node).Returns := by
  unfold lowerAssert
  refine .bindSome (lowerField_returns quoted "left" lowerExpression_returns) (.pure _) fun left => ?_
  refine .bind (lowerField_returns quoted "operator" fun child _ => lowerComparisonOp_returns child)
    fun op => ?_
  refine .bind (lowerField_returns quoted "right" lowerExpression_returns) fun right => ?_
  refine .bind (lowerIfPresent_returns quoted (fun present found => ?_) lowerAnnotation_returns)
    fun marker => .pure _
  exact Node.mem_of_namedChildren (List.mem_of_find?_eq_some found)

theorem lowerParseExpression_returns (node : Node) (quoted : node.Quoted source) :
    (lowerParseExpression source node).Returns := by
  unfold lowerParseExpression
  split
  · next sourceNode found =>
    have member := Node.mem_of_childByFieldName found
    refine .bindSome (lowerIdentField_returns node _) (.pure _) fun format => ?_
    exact .bindSome (lowerExpression_returns sourceNode (quoted.child member)) (.pure _)
      fun parsed => .pure _
  · exact .pure _

theorem lowerLetValue_returns (node : Node) (quoted : node.Quoted source) :
    (lowerLetValue source node).Returns := by
  unfold lowerLetValue
  split
  · exact lowerParseExpression_returns node quoted
  · exact .bindSome (lowerExpression_returns node quoted) (.pure _) fun value => .pure _

theorem lowerLet_returns (node : Node) (quoted : node.Quoted source) :
    (lowerLet source node).Returns := by
  unfold lowerLet
  refine .bindSome (lowerIdentField_returns node _) (.pure _) fun name => ?_
  exact .bindSome (lowerField_returns quoted "value" lowerLetValue_returns) (.pure _)
    fun value => .pure _

theorem lowerAssignment_returns (node : Node) (quoted : node.Quoted source) :
    (lowerAssignment source node).Returns := by
  unfold lowerAssignment
  refine .bindSome (lowerField_returns quoted "target" lowerExpression_returns) (.pure _)
    fun target => ?_
  exact .bindSome (lowerField_returns quoted "value" lowerExpression_returns) (.pure _)
    fun value => .pure _

theorem lowerStatement_returns (node : Node) (quoted : node.Quoted source) :
    (lowerStatement source node).Returns := by
  unfold lowerStatement
  split
  · exact .bind (lowerCommand_returns node quoted) fun _ => .pure _
  · exact .bind (lowerAssert_returns node quoted) fun _ => .pure _
  · exact .bind (lowerLet_returns node quoted) fun _ => .pure _
  · exact .bind (lowerAssignment_returns node quoted) fun _ => .pure _
  all_goals first
    | exact .pure _
    | exact .bind (reportUnexpected_returns node _) fun _ => .pure _

/-! ## Top-level items -/

theorem lowerParts_returns {α : Type} (kind : String) {lower : Node → Lowering (List α)}
    (lowers : ∀ child, child.Quoted source → (lower child).Returns) (node : Node)
    (quoted : node.Quoted source) : (lowerParts kind lower node).Returns := by
  unfold lowerParts
  refine .bind (each_returns quoted (fun _ => mem_of_kind) fun child inside => ?_) fun parts => .pure _
  exact .bind (lowers child inside) fun items => .pure _

theorem lowerBlock_returns (node : Node) (quoted : node.Quoted source) :
    (lowerBlock source node).Returns :=
  each_returns quoted (fun _ => Node.mem_of_namedChildren) lowerStatement_returns

theorem lowerAsBlock_returns (node : Node) (quoted : node.Quoted source) :
    (lowerAsBlock source node).Returns := by
  unfold lowerAsBlock
  refine .bindSome (lowerIdentField_returns node _) (.pure _) fun actor => ?_
  exact .bind (lowerParts_returns "block" lowerBlock_returns node quoted) fun body => .pure _

theorem lowerVarDeclaration_returns (node : Node) (quoted : node.Quoted source) :
    (lowerVarDeclaration source node).Returns := by
  unfold lowerVarDeclaration
  refine .bindSome (lowerIdentField_returns node _) (.pure _) fun name => ?_
  refine .bind (each_returns quoted (fun _ => mem_of_kind) lowerAnnotation_returns) fun markers => ?_
  exact .bind (lowerField_returns quoted "default" lowerExpression_returns) fun value => .pure _

theorem lowerVarsBlock_returns (node : Node) (quoted : node.Quoted source) :
    (lowerVarsBlock source node).Returns :=
  each_returns quoted (fun _ => mem_of_kind) lowerVarDeclaration_returns

theorem lowerActorProperty_returns (node : Node) (quoted : node.Quoted source) :
    (lowerActorProperty source node).Returns := by
  unfold lowerActorProperty
  split
  · next block found =>
    have member := Node.mem_of_namedChildren (List.mem_of_find?_eq_some found)
    exact .bind (lowerVarsBlock_returns block (quoted.child member)) fun vars => .pure _
  · refine .bindSome (lowerIdentField_returns node _) (.pure _) fun key => ?_
    exact .bindSome (lowerField_returns quoted "value" lowerExpression_returns) (.pure _)
      fun value => .pure _

theorem lowerActorDeclaration_returns (node : Node) (quoted : node.Quoted source) :
    (lowerActorDeclaration source node).Returns := by
  unfold lowerActorDeclaration
  refine .bindSome (lowerIdentField_returns node _) (.pure _) fun name => ?_
  cases node.childByFieldName "type" with
  | none => exact .pure _
  | some typeNode =>
    dsimp only
    cases lowerIdentFromFirstChild source typeNode with
    | none => exact .pure _
    | some actorType =>
      refine .bind (lowerParts_returns "actor_body" (fun body inside => ?_) node quoted)
        fun properties => .pure _
      exact each_returns inside (fun _ => mem_of_kind) lowerActorProperty_returns

theorem lowerItem_returns (node : Node) (quoted : node.Quoted source) :
    (lowerItem source node).Returns := by
  unfold lowerItem
  split
  · exact .bind (lowerActorDeclaration_returns node quoted) fun _ => .pure _
  · exact .bind (lowerAsBlock_returns node quoted) fun _ => .pure _
  all_goals first
    | exact .pure _
    | exact .bind (reportUnexpected_returns node _) fun _ => .pure _

theorem lowerSourceFile_returns (root : Node) (quoted : root.Quoted source) :
    (lowerSourceFile source root).Returns := by
  unfold lowerSourceFile
  exact .bind (each_returns quoted (fun _ => Node.mem_of_namedChildren) lowerItem_returns)
    fun items => .pure _

end

/-- Lowering comes to a result on every text whose tree has its quotes. -/
theorem lower_returns {parse : Text → Node} {src : Text}
    (quoted : (parse (normalize src)).Quoted (normalize src)) : lower parse src ≠ none := by
  have returns := lowerSourceFile_returns (parse (normalize src)) quoted
  unfold lower
  dsimp only
  split
  · next panicked => exact absurd panicked returns
  · split <;> nofun

end Ill.Lower
