import Ill.Lower.Lower

/-!
# What lowering reports, and where

Every diagnostic that lowering reports is an error at a node of the concrete
tree, and every span of the abstract tree is the span of a node.
-/

namespace Ill.Lower

open Base Base.Utf8 Base.Reporting Ast

theorem flatMap_subset_iff {α β : Type} {items : List α} {f : α → List β} {target : List β} :
    items.flatMap f ⊆ target ↔ ∀ item ∈ items, f item ⊆ target := by
  constructor
  · intro included item inside value member
    exact included (List.mem_flatMap.mpr ⟨item, inside, member⟩)
  · intro each value member
    obtain ⟨item, inside, here⟩ := List.mem_flatMap.mp member
    exact each item inside here

theorem itemSpans_eq (items : List Expr) : itemSpans items = items.flatMap Expr.spans := by
  induction items with
  | nil => rw [itemSpans, List.flatMap_nil]
  | cons item rest ih => rw [itemSpans, List.flatMap_cons, ih]

def fragmentSpansOf : StringFragment → List Span
  | .text _ => []
  | .interpolation expr => expr.spans

theorem fragmentSpans_eq (fragments : List StringFragment) :
    fragmentSpans fragments = fragments.flatMap fragmentSpansOf := by
  induction fragments with
  | nil => rw [fragmentSpans, List.flatMap_nil]
  | cons fragment rest ih =>
    cases fragment with
    | text text =>
      rw [fragmentSpans, List.flatMap_cons, ih, fragmentSpansOf]
      rfl
    | interpolation expr => rw [fragmentSpans, List.flatMap_cons, ih, fragmentSpansOf]

/-- Everything a computation reports and returns lies at nodes under `node`. -/
def Within {α : Type} (node : Node) (spansOf : α → List Span) (computation : Lowering α) : Prop :=
  computation.Sat (fun item => item.ErrorAt node.spans) fun value => spansOf value ⊆ node.spans

namespace Within

variable {α β : Type} {node : Node} {spansOf : α → List Span} {otherSpans : β → List Span}

theorem pure {value : α} (inside : spansOf value ⊆ node.spans) :
    Within node spansOf (Pure.pure value) :=
  Sat.pure inside

theorem none : Within node (optionSpans spansOf) (Pure.pure Option.none) :=
  pure (List.nil_subset _)

theorem some {value : α} (inside : spansOf value ⊆ node.spans) :
    Within node (optionSpans spansOf) (Pure.pure (Option.some value)) :=
  pure inside

theorem bind {first : Lowering α} {rest : α → Lowering β} (begins : Within node spansOf first)
    (continues : ∀ value, spansOf value ⊆ node.spans → Within node otherSpans (rest value)) :
    Within node otherSpans (first >>= rest) :=
  Sat.bind begins continues

/-- Whatever lies under a child lies under its parent. -/
theorem ofChild {child : Node} (member : child ∈ node.children) {computation : Lowering α}
    (inside : Within child spansOf computation) : Within node spansOf computation :=
  Sat.mono inside (fun _ located => located.mono (Node.spans_subset member))
    fun _ spans => List.Subset.trans spans (Node.spans_subset member)

theorem each (otherSpans : β → List Span) {Item : Type} {step : Item → Lowering (Option β)}
    {items : List Item}
    (steps : ∀ item ∈ items, Within node (optionSpans otherSpans) (step item)) :
    Within node (fun values => values.flatMap otherSpans) (Reporting.each step items) := by
  refine Sat.mono (Sat.each fun item inside => ?_) (fun _ located => located)
    fun values kept => flatMap_subset_iff.mpr kept
  refine Sat.mono (steps item inside) (fun _ located => located) fun value spans kept present => ?_
  obtain rfl : value = Option.some kept := present
  exact spans

/-- A step that stops without a value if its first part has none. -/
theorem bindSome {first : Lowering (Option α)} {rest : Option α → Lowering (Option β)}
    (begins : Within node (optionSpans spansOf) first)
    (stops : Within node (optionSpans otherSpans) (rest Option.none))
    (continues : ∀ value, spansOf value ⊆ node.spans →
      Within node (optionSpans otherSpans) (rest (Option.some value))) :
    Within node (optionSpans otherSpans) (first >>= rest) := by
  refine bind begins fun value inside => ?_
  cases value with
  | none => exact stops
  | some value => exact continues value inside

/-- A diagnostic at the node itself. -/
theorem report (code : DiagnosticCode) (message : String) {rest : PUnit → Lowering β}
    (continues : Within node otherSpans (rest ⟨⟩)) :
    Within node otherSpans (Reporting.report (.error node.span code message) >>= rest) := by
  have located := Diagnostic.errorAt_error node.span_mem code message
  exact Sat.bind (Sat.report located trivial) fun _ (_ : True) => continues

end Within

section

variable {source : Text}

/-! ## Identifiers and tokens -/

def identSpans (ident : Ident) : List Span := [ident.span]

theorem identFromNode_subset {child node : Node} (member : child ∈ node.children) :
    identSpans (identFromNode source child) ⊆ node.spans := by
  have here : child.span ∈ node.spans := Node.spans_subset member child.span_mem
  exact List.cons_subset.mpr ⟨here, List.nil_subset _⟩

theorem lowerIdentField_within (node : Node) (field : String) :
    Within node (optionSpans identSpans) (lowerIdentField source node field) := by
  unfold lowerIdentField
  split
  · next child found => exact .some (identFromNode_subset (Node.mem_of_childByFieldName found))
  · exact .report _ _ .none

theorem reportUnexpected_within {α : Type} {spansOf : α → List Span} (node : Node)
    (message : String) {rest : PUnit → Lowering α} (continues : Within node spansOf (rest ⟨⟩)) :
    Within node spansOf (reportUnexpected node message >>= rest) := by
  unfold reportUnexpected
  split
  · rw [Reporting.pure_bind]
    exact continues
  · exact .report _ _ continues

theorem lowerNumber_within (node : Node) :
    Within node (optionSpans Expr.spans) (lowerNumber source node) := by
  unfold lowerNumber
  split
  · exact .some (List.nil_subset _)
  · exact .report _ _ .none

theorem unescapeFragment_within (node : Node) {fragment : StringFragment}
    (inside : fragmentSpansOf fragment ⊆ node.spans) :
    Within node (optionSpans fragmentSpansOf) (unescapeFragment node fragment) := by
  cases fragment with
  | text text =>
    rw [unescapeFragment]
    split
    · exact .some (List.nil_subset _)
    · exact .report _ _ (.some (List.nil_subset _))
  | interpolation expr => exact .some inside

theorem unquote_within (node : Node) (raw : Text) :
    Within node (fun _ => []) (unquote raw) := by
  unfold unquote
  split
  · exact .pure (List.nil_subset _)
  · exact Sat.panicked

/-! ## Expressions -/

mutual

theorem lowerExpression_within (node : Node) :
    Within node (optionSpans Expr.spans) (lowerExpression source node) := by
  rw [lowerExpression]
  split
  · split
    · next child found =>
      have member := Node.mem_of_firstNamed found
      exact .ofChild member (lowerPrimary_within child)
    · exact .none
  · exact lowerMemberExpression_within node
  · exact lowerIndexExpression_within node
  all_goals first
    | exact lowerPrimary_within node
    | exact reportUnexpected_within node _ .none
termination_by (sizeOf node, 3)
decreasing_by
  all_goals first
    | exact .right _ (by decide)
    | exact .left _ _ (Node.sizeOf_lt_of_mem ‹_›)

theorem lowerPrimary_within (node : Node) :
    Within node (optionSpans Expr.spans) (lowerPrimary source node) := by
  rw [lowerPrimary]
  split
  · exact .some (List.cons_subset.mpr ⟨node.span_mem, List.nil_subset _⟩)
  · exact lowerNumber_within node
  · exact .some (List.nil_subset _)
  · exact .some (List.nil_subset _)
  · rw [lowerIdentFromFirstChild, Option.map_map]
    cases found : node.firstNamed with
    | none => exact .none
    | some child => exact .some (identFromNode_subset (Node.mem_of_firstNamed found))
  · exact lowerString_within node
  · exact lowerSquiggle_within node
  · exact lowerArray_within node
  · exact reportUnexpected_within node _ .none
termination_by (sizeOf node, 2)
decreasing_by all_goals exact .right _ (by decide)

theorem lowerMemberExpression_within (node : Node) :
    Within node (optionSpans Expr.spans) (lowerMemberExpression source node) := by
  rw [lowerMemberExpression]
  split
  · exact .none
  · next objectNode found =>
    have member := Node.mem_of_childByFieldName found
    refine .bindSome (lowerIdentField_within node "property") .none fun property named => ?_
    refine .bindSome (.ofChild member (lowerExpression_within objectNode)) .none fun object inside => ?_
    refine .some ?_
    rw [Expr.spans]
    exact List.cons_subset.mpr ⟨named (List.mem_singleton_self _),
      List.cons_subset.mpr ⟨node.span_mem, inside⟩⟩
termination_by (sizeOf node, 1)
decreasing_by exact .left _ _ (Node.sizeOf_lt_of_mem ‹_›)

theorem lowerIndexExpression_within (node : Node) :
    Within node (optionSpans Expr.spans) (lowerIndexExpression source node) := by
  rw [lowerIndexExpression]
  split
  · exact .none
  · next objectNode found =>
    have member := Node.mem_of_childByFieldName found
    refine .bindSome (.ofChild member (lowerExpression_within objectNode)) .none fun object inside => ?_
    refine .bind (.each Expr.spans fun child _ => ?_) fun values within => .some ?_
    · have member := Node.mem_of_childrenByFieldName child.2
      exact .ofChild member (lowerExpression_within child.1)
    · rw [Expr.spans, itemSpans_eq]
      exact List.cons_subset.mpr ⟨node.span_mem, List.append_subset.mpr ⟨inside, within⟩⟩
termination_by (sizeOf node, 1)
decreasing_by all_goals exact .left _ _ (Node.sizeOf_lt_of_mem ‹_›)

theorem lowerArray_within (node : Node) :
    Within node (optionSpans Expr.spans) (lowerArray source node) := by
  rw [lowerArray]
  refine .bind (.each Expr.spans fun child _ => ?_) fun values within => .some ?_
  · have member := Node.mem_of_namedChildren child.2
    split
    all_goals first
      | exact .ofChild member (lowerExpression_within child.1)
      | exact .none
  · rw [Expr.spans, itemSpans_eq]
    exact within
termination_by (sizeOf node, 1)
decreasing_by all_goals exact .left _ _ (Node.sizeOf_lt_of_mem ‹_›)

theorem lowerString_within (node : Node) :
    Within node (optionSpans Expr.spans) (lowerString source node) := by
  rw [lowerString]
  split
  · exact .none
  · next inner found =>
    have member := Node.mem_of_firstNamed found
    split
    · refine .bind (.ofChild member (lowerStringFragments_within inner)) fun fragments within => ?_
      refine .some ?_
      rw [Expr.spans, fragmentSpans_eq]
      exact List.cons_subset.mpr ⟨node.span_mem, within⟩
    · refine .bind (unquote_within node _) fun content _ => .some ?_
      exact List.cons_subset.mpr ⟨node.span_mem, List.nil_subset _⟩
    · exact .none
termination_by (sizeOf node, 1)
decreasing_by exact .left _ _ (Node.sizeOf_lt_of_mem ‹_›)

theorem lowerStringFragments_within (node : Node) :
    Within node (fun fragments => fragments.flatMap fragmentSpansOf)
      (lowerStringFragments source node) := by
  rw [lowerStringFragments]
  refine .bind (collectFragments_within node "string_content") fun fragments within => ?_
  refine .each _ fun fragment member => ?_
  exact unescapeFragment_within node (flatMap_subset_iff.mp within fragment member)
termination_by (sizeOf node, 1)
decreasing_by exact .right _ (by decide)

theorem collectFragments_within (node : Node) (textKind : String) :
    Within node (fun fragments => fragments.flatMap fragmentSpansOf)
      (collectFragments source node textKind) := by
  rw [collectFragments]
  refine .each _ fun child _ => ?_
  have member := Node.mem_of_namedChildren child.2
  split
  · exact .some (List.nil_subset _)
  · split
    · split
      · next inner found =>
        have deeper := Node.mem_of_firstNamed found
        refine .bindSome (.ofChild member (.ofChild deeper (lowerExpression_within inner))) .none
          fun expr inside => ?_
        exact .some inside
      · exact .none
    · exact .none
termination_by (sizeOf node, 0)
decreasing_by
  have inside := Node.sizeOf_lt_of_mem member
  exact .left _ _ ((Node.sizeOf_lt_of_mem deeper).trans inside)

theorem lowerSquiggle_within (node : Node) :
    Within node (optionSpans Expr.spans) (lowerSquiggle source node) := by
  rw [lowerSquiggle]
  split
  · exact .none
  · next name found =>
    have named : identSpans (identFromNode source name) ⊆ node.spans :=
      identFromNode_subset (Node.mem_of_childByFieldName found)
    refine .bind (collectFragments_within node "squiggle_content") fun fragments within => ?_
    refine .some ?_
    rw [Expr.spans, fragmentSpans_eq]
    exact List.cons_subset.mpr ⟨named (List.mem_singleton_self _),
      List.cons_subset.mpr ⟨node.span_mem, within⟩⟩
termination_by (sizeOf node, 1)
decreasing_by exact .right _ (by decide)

end

/-! ## Annotations -/

theorem extractStringText_within (node inner : Node) :
    Within node (fun _ => []) (extractStringText source inner) := by
  unfold extractStringText
  split
  · exact .pure (List.nil_subset _)
  · split
    · exact .pure (List.nil_subset _)
    · exact .bind (unquote_within node _) fun _ _ => .pure (List.nil_subset _)
    · exact .pure (List.nil_subset _)

theorem lowerAnnotationValue_within (node inner : Node) :
    Within node (optionSpans fun _ => []) (lowerAnnotationValue source inner) := by
  unfold lowerAnnotationValue
  split
  · exact .some (List.nil_subset _)
  · exact .bind (extractStringText_within node inner) fun _ _ => .some (List.nil_subset _)
  · exact .none

theorem lowerAnnotation_within (node : Node) :
    Within node (optionSpans Annotation.spans) ( lowerAnnotation source node) := by
  unfold lowerAnnotation
  refine .bind (.each _ fun inner _ => lowerAnnotationValue_within node inner) fun values _ => ?_
  cases last : (node.namedChildren.filter fun child => child.kind == "annotation_name").getLast? with
  | none => exact .none
  | some name =>
    have chosen := (List.mem_filter.mp (List.mem_of_getLast? last)).1
    have named := Node.spans_subset (Node.mem_of_namedChildren chosen) name.span_mem
    refine .some ?_
    exact List.cons_subset.mpr ⟨named, List.cons_subset.mpr ⟨node.span_mem, List.nil_subset _⟩⟩

/-! ## Children -/

theorem lowerIfPresent_within {α : Type} {spansOf : α → List Span} {node : Node}
    {lower : Node → Lowering (Option α)} {part : Option Node}
    (present : ∀ child, part = some child → child ∈ node.children)
    (lowers : ∀ child, Within child (optionSpans spansOf) (lower child)) :
    Within node (optionSpans spansOf) (lowerIfPresent lower part) := by
  cases found : part with
  | none => exact .none
  | some child => exact .ofChild (present child found) (lowers child)

theorem lowerField_within {α : Type} {spansOf : α → List Span} (node : Node) (field : String)
    {lower : Node → Lowering (Option α)}
    (lowers : ∀ child, Within child (optionSpans spansOf) (lower child)) :
    Within node (optionSpans spansOf) (lowerIfPresent lower (node.childByFieldName field)) :=
  lowerIfPresent_within (fun _ found => Node.mem_of_childByFieldName found) lowers

/-- A loop over the named children of a kind. -/
theorem eachOfKind_within {α : Type} (spansOf : α → List Span) (node : Node) (kind : String)
    {step : Node → Lowering (Option α)}
    (steps : ∀ child, Within child (optionSpans spansOf) (step child)) :
    Within node (fun values => values.flatMap spansOf)
      (each step (node.namedChildren.filter fun child => child.kind == kind)) := by
  refine .each _ fun child inside => ?_
  have member := Node.mem_of_namedChildren (List.mem_filter.mp inside).1
  exact .ofChild member (steps child)

theorem eachNamed_within {α : Type} (spansOf : α → List Span) (node : Node)
    {step : Node → Lowering (Option α)}
    (steps : ∀ child, Within child (optionSpans spansOf) (step child)) :
    Within node (fun values => values.flatMap spansOf) (each step node.namedChildren) :=
  .each _ fun child inside => .ofChild (Node.mem_of_namedChildren inside) (steps child)

/-! ## Keyword arguments -/

def pairSpans (pair : Expr × Expr) : List Span := pair.1.spans ++ pair.2.spans

theorem lowerKeywordPair_within (node : Node) :
    Within node (optionSpans pairSpans) (lowerKeywordPair source node) := by
  unfold lowerKeywordPair
  split
  · next keyNode keyFound =>
    split
    · next valueNode valueFound =>
      have keyMember := Node.mem_of_childByFieldName keyFound
      have valueMember := Node.mem_of_childByFieldName valueFound
      refine .bindSome (.ofChild keyMember (lowerExpression_within keyNode)) .none fun key first => ?_
      refine .bindSome (.ofChild valueMember (lowerExpression_within valueNode)) .none
        fun value second => ?_
      exact .some (List.append_subset.mpr ⟨first, second⟩)
    · exact .none
  · exact .none

theorem lowerKeywordArg_within (node : Node) :
    Within node (optionSpans KeywordArg.spans) (lowerKeywordArg source node) := by
  unfold lowerKeywordArg
  refine .bindSome (lowerIdentField_within node "key") .none fun key named => ?_
  have keyed : key.span ∈ node.spans := named (List.mem_singleton_self _)
  refine .bind (eachOfKind_within pairSpans node "keyword_pair" lowerKeywordPair_within)
    fun values within => ?_
  split
  · refine .bindSome (lowerField_within node "value" lowerExpression_within) .none
      fun value inside => .some ?_
    exact List.cons_subset.mpr ⟨keyed, List.cons_subset.mpr ⟨node.span_mem, inside⟩⟩
  · refine .some ?_
    exact List.cons_subset.mpr ⟨keyed, List.cons_subset.mpr ⟨node.span_mem, within⟩⟩

theorem collectKeywordArgs_within (node : Node) :
    Within node (fun args => args.flatMap KeywordArg.spans) (collectKeywordArgs source node) :=
  eachOfKind_within _ node "keyword_arg" lowerKeywordArg_within

/-! ## Statements -/

def CommandPart.spans : CommandPart → List Span
  | .annotated marker => optionSpans Annotation.spans marker
  | .keywordArgs args => args.flatMap KeywordArg.spans
  | .positional expr => expr.spans

theorem lowerCommandPart_within (child : Node) :
    Within child (optionSpans CommandPart.spans) (lowerCommandPart source child) := by
  unfold lowerCommandPart
  split
  · exact .bind (lowerAnnotation_within child) fun marker inside => .some inside
  · exact .bind (collectKeywordArgs_within child) fun args inside => .some inside
  · exact .bind (collectKeywordArgs_within child) fun args inside => .some inside
  · exact .bindSome (lowerExpression_within child) .none fun expr inside => .some inside
  · exact .bindSome (lowerExpression_within child) .none fun expr inside => .some inside
  · exact .bindSome (lowerExpression_within child) .none fun expr inside => .some inside
  · exact .none

/-- The parts of a command account for its annotation and its arguments. -/
theorem commandParts_subset {parts : List CommandPart} {target : List Span}
    (inside : parts.flatMap CommandPart.spans ⊆ target) :
    optionSpans Annotation.spans (parts.filterMap CommandPart.marker?).getLast?.join ⊆ target ∧
      (parts.filterMap CommandPart.expr?).flatMap Expr.spans ⊆ target ∧
      (parts.flatMap CommandPart.args).flatMap KeywordArg.spans ⊆ target := by
  have each := flatMap_subset_iff.mp inside
  refine ⟨?_, flatMap_subset_iff.mpr fun expr member => ?_,
    flatMap_subset_iff.mpr fun arg member => ?_⟩
  · cases last : (parts.filterMap CommandPart.marker?).getLast? with
    | none => exact List.nil_subset _
    | some marker =>
      obtain ⟨part, here, same⟩ := List.mem_filterMap.mp (List.mem_of_getLast? last)
      cases part with
      | annotated chosen =>
        obtain rfl := Option.some.inj same
        exact each _ here
      | _ => simp [CommandPart.marker?] at same
  · obtain ⟨part, here, same⟩ := List.mem_filterMap.mp member
    cases part with
    | positional chosen =>
      obtain rfl := Option.some.inj same
      exact each _ here
    | _ => simp [CommandPart.expr?] at same
  · obtain ⟨part, here, same⟩ := List.mem_flatMap.mp member
    cases part with
    | keywordArgs args => exact flatMap_subset_iff.mp (each _ here) arg same
    | _ => simp [CommandPart.args] at same

theorem lowerCommand_within (node : Node) :
    Within node (optionSpans Command.spans) (lowerCommand source node) := by
  unfold lowerCommand
  refine .bindSome (lowerIdentField_within node "name") .none fun name named => ?_
  refine .bind (eachNamed_within _ node lowerCommandPart_within) fun parts inside => .some ?_
  obtain ⟨marker, positional, keyword⟩ := commandParts_subset inside
  have keyed : name.span ∈ node.spans := named (List.mem_singleton_self _)
  exact List.cons_subset.mpr ⟨keyed, List.cons_subset.mpr ⟨node.span_mem,
    List.append_subset.mpr ⟨List.append_subset.mpr ⟨marker, positional⟩, keyword⟩⟩⟩

theorem lowerComparisonOp_within (node : Node) :
    Within node (optionSpans fun _ => []) (lowerComparisonOp source node) := by
  unfold lowerComparisonOp
  split
  all_goals first
    | exact .some (List.nil_subset _)
    | exact .report _ _ .none

theorem lowerAssert_within (node : Node) :
    Within node (optionSpans Assert.spans) (lowerAssert source node) := by
  unfold lowerAssert
  refine .bindSome (lowerField_within node "left" lowerExpression_within) .none fun left first => ?_
  refine .bind (lowerField_within node "operator" lowerComparisonOp_within) fun op _ => ?_
  refine .bind (lowerField_within node "right" lowerExpression_within) fun right second => ?_
  refine .bind (lowerIfPresent_within ?_ lowerAnnotation_within) fun marker third => .some ?_
  · intro child found
    exact Node.mem_of_namedChildren (List.mem_of_find?_eq_some found)
  · exact List.cons_subset.mpr ⟨node.span_mem,
      List.append_subset.mpr ⟨List.append_subset.mpr ⟨third, first⟩, second⟩⟩

theorem lowerParseExpression_within (node : Node) :
    Within node (optionSpans LetValue.spans) (lowerParseExpression source node) := by
  unfold lowerParseExpression
  split
  · next sourceNode found =>
    have member := Node.mem_of_childByFieldName found
    refine .bindSome (lowerIdentField_within node "format") .none fun format named => ?_
    refine .bindSome (.ofChild member (lowerExpression_within sourceNode)) .none
      fun parsed inside => .some ?_
    exact List.cons_subset.mpr ⟨named (List.mem_singleton_self _), inside⟩
  · exact .none

theorem lowerLetValue_within (node : Node) :
    Within node (optionSpans LetValue.spans) (lowerLetValue source node) := by
  unfold lowerLetValue
  split
  · exact lowerParseExpression_within node
  · exact .bindSome (lowerExpression_within node) .none fun value inside => .some inside

theorem lowerLet_within (node : Node) :
    Within node (optionSpans Let.spans) (lowerLet source node) := by
  unfold lowerLet
  refine .bindSome (lowerIdentField_within node "name") .none fun name named => ?_
  refine .bindSome (lowerField_within node "value" lowerLetValue_within) .none
    fun value inside => .some ?_
  exact List.cons_subset.mpr ⟨named (List.mem_singleton_self _),
    List.cons_subset.mpr ⟨node.span_mem, inside⟩⟩

theorem lowerAssignment_within (node : Node) :
    Within node (optionSpans Assignment.spans) (lowerAssignment source node) := by
  unfold lowerAssignment
  refine .bindSome (lowerField_within node "target" lowerExpression_within) .none
    fun target first => ?_
  refine .bindSome (lowerField_within node "value" lowerExpression_within) .none
    fun value second => .some ?_
  exact List.cons_subset.mpr ⟨node.span_mem, List.append_subset.mpr ⟨first, second⟩⟩

/-- Wrapping a part keeps its spans. -/
theorem wrap_within {α β : Type} {node : Node} {spansOf : α → List Span} {otherSpans : β → List Span}
    {wrap : α → β} (same : ∀ value, otherSpans (wrap value) = spansOf value)
    {computation : Lowering (Option α)} (inside : Within node (optionSpans spansOf) computation) :
    Within node (optionSpans otherSpans) (computation >>= fun value => pure (value.map wrap)) := by
  refine inside.bindSome .none fun value within => .some ?_
  rw [same]
  exact within

theorem lowerStatement_within (child : Node) :
    Within child (optionSpans Statement.spans) (lowerStatement source child) := by
  unfold lowerStatement
  split
  · exact wrap_within (fun _ => rfl) (lowerCommand_within child)
  · exact wrap_within (fun _ => rfl) (lowerAssert_within child)
  · exact wrap_within (fun _ => rfl) (lowerLet_within child)
  · exact wrap_within (fun _ => rfl) (lowerAssignment_within child)
  all_goals first
    | exact .none
    | exact reportUnexpected_within child _ .none

theorem lowerBlock_within (node : Node) :
    Within node (fun body => body.flatMap Statement.spans) (lowerBlock source node) :=
  eachNamed_within _ node lowerStatement_within

/-! ## Top-level items -/

theorem lowerParts_within {α : Type} (spansOf : α → List Span) (kind : String)
    {lower : Node → Lowering (List α)} (node : Node)
    (lowers : ∀ child, Within child (fun items => items.flatMap spansOf) (lower child)) :
    Within node (fun items => items.flatMap spansOf) (lowerParts kind lower node) := by
  unfold lowerParts
  refine .bind (eachOfKind_within (fun items : List α => items.flatMap spansOf) node kind
    fun child => ?_) fun parts inside => .pure ?_
  · exact .bind (lowers child) fun items within => .some within
  · rw [flatMap_subset_iff] at inside ⊢
    intro item member
    obtain ⟨part, here, deeper⟩ := List.mem_flatten.mp member
    exact flatMap_subset_iff.mp (inside part here) item deeper

theorem lowerAsBlock_within (node : Node) :
    Within node (optionSpans AsBlock.spans) (lowerAsBlock source node) := by
  unfold lowerAsBlock
  refine .bindSome (lowerIdentField_within node "actor") .none fun actor named => ?_
  refine .bind (lowerParts_within _ "block" node lowerBlock_within) fun body inside => .some ?_
  exact List.cons_subset.mpr ⟨named (List.mem_singleton_self _),
    List.cons_subset.mpr ⟨node.span_mem, inside⟩⟩

theorem lowerVarDeclaration_within (node : Node) :
    Within node (optionSpans VarDeclaration.spans) (lowerVarDeclaration source node) := by
  unfold lowerVarDeclaration
  refine .bindSome (lowerIdentField_within node "name") .none fun name named => ?_
  refine .bind (eachOfKind_within _ node "annotation" lowerAnnotation_within) fun markers first => ?_
  refine .bind (lowerField_within node "default" lowerExpression_within) fun value second => .some ?_
  exact List.cons_subset.mpr ⟨named (List.mem_singleton_self _),
    List.cons_subset.mpr ⟨node.span_mem, List.append_subset.mpr ⟨first, second⟩⟩⟩

theorem lowerVarsBlock_within (node : Node) :
    Within node (fun vars => vars.flatMap VarDeclaration.spans) (lowerVarsBlock source node) :=
  eachOfKind_within _ node "var_declaration" lowerVarDeclaration_within

def ActorProperty.spans : ActorProperty → List Span
  | .vars declared => declared.flatMap VarDeclaration.spans
  | .keywordArg arg => arg.spans

theorem lowerActorProperty_within (node : Node) :
    Within node (optionSpans ActorProperty.spans) (lowerActorProperty source node) := by
  unfold lowerActorProperty
  split
  · next block found =>
    have member := Node.mem_of_namedChildren (List.mem_of_find?_eq_some found)
    exact .bind (.ofChild member (lowerVarsBlock_within block)) fun vars inside => .some inside
  · refine .bindSome (lowerIdentField_within node "key") .none fun key named => ?_
    refine .bindSome (lowerField_within node "value" lowerExpression_within) .none
      fun value inside => .some ?_
    exact List.cons_subset.mpr ⟨named (List.mem_singleton_self _),
      List.cons_subset.mpr ⟨node.span_mem, inside⟩⟩

theorem lowerActorBody_within (node : Node) :
    Within node (fun properties => properties.flatMap ActorProperty.spans)
      (lowerActorBody source node) :=
  eachOfKind_within _ node "actor_property" lowerActorProperty_within

theorem actorProperties_subset {properties : List ActorProperty} {target : List Span}
    (inside : properties.flatMap ActorProperty.spans ⊆ target) :
    (properties.filterMap ActorProperty.keywordArg?).flatMap KeywordArg.spans ⊆ target ∧
      (properties.flatMap ActorProperty.declared).flatMap VarDeclaration.spans ⊆ target := by
  have each := flatMap_subset_iff.mp inside
  refine ⟨flatMap_subset_iff.mpr fun arg member => ?_, flatMap_subset_iff.mpr fun var member => ?_⟩
  · obtain ⟨property, here, same⟩ := List.mem_filterMap.mp member
    cases property with
    | vars declared => simp [ActorProperty.keywordArg?] at same
    | keywordArg chosen =>
      obtain rfl := Option.some.inj same
      exact each _ here
  · obtain ⟨property, here, same⟩ := List.mem_flatMap.mp member
    cases property with
    | vars declared => exact flatMap_subset_iff.mp (each _ here) var same
    | keywordArg chosen => simp [ActorProperty.declared] at same

theorem lowerActorDeclaration_within (node : Node) :
    Within node (optionSpans ActorDeclaration.spans) (lowerActorDeclaration source node) := by
  unfold lowerActorDeclaration
  refine .bindSome (lowerIdentField_within node "name") .none fun name named => ?_
  dsimp only
  split
  · next typeNode typeFound =>
    split
    · next actorType typed =>
      obtain ⟨inner, first, rfl⟩ := Option.map_eq_some_iff.mp typed
      have typeSpan : inner.span ∈ node.spans :=
        Node.spans_subset (Node.mem_of_childByFieldName typeFound)
          (Node.spans_subset (Node.mem_of_firstNamed first) inner.span_mem)
      refine .bind (lowerParts_within _ "actor_body" node lowerActorBody_within)
        fun properties inside => .some ?_
      obtain ⟨keyword, vars⟩ := actorProperties_subset inside
      exact List.cons_subset.mpr ⟨named (List.mem_singleton_self _),
        List.cons_subset.mpr ⟨typeSpan, List.cons_subset.mpr ⟨node.span_mem,
          List.append_subset.mpr ⟨keyword, vars⟩⟩⟩⟩
    · exact .none
  · exact .none

theorem lowerItem_within (child : Node) :
    Within child (optionSpans TopLevel.spans) (lowerItem source child) := by
  unfold lowerItem
  split
  · exact wrap_within (fun _ => rfl) (lowerActorDeclaration_within child)
  · exact wrap_within (fun _ => rfl) (lowerAsBlock_within child)
  all_goals first
    | exact .none
    | exact reportUnexpected_within child _ .none

theorem lowerSourceFile_within (root : Node) :
    Within root SourceFile.spans (lowerSourceFile source root) :=
  .bind (eachNamed_within _ root lowerItem_within) fun _ inside => .pure inside

/-! ## Errors of the parser -/

theorem errorDiagnostic_errorAt {spans : List Span} {span : Span} (member : span ∈ spans)
    (parent : Option String) : (errorDiagnostic source parent span).ErrorAt spans := by
  unfold errorDiagnostic
  extract_lets
  split
  · exact ⟨rfl, member⟩
  · exact ⟨rfl, member⟩

mutual

theorem collectErrors_errorAt (parent : Option String) :
    ∀ node : Node, ∀ item ∈ collectErrors source parent node, item.ErrorAt node.spans
  | ⟨_, kind, _, isError, isMissing, span, _, children⟩ => by
    intro item reported
    rw [collectErrors] at reported
    rw [Node.spans]
    split at reported
    · rw [List.mem_singleton.mp reported]
      exact Diagnostic.errorAt_error List.mem_cons_self _ _
    · split at reported
      · rw [List.mem_singleton.mp reported]
        exact errorDiagnostic_errorAt List.mem_cons_self parent
      · have below := collectChildErrors_errorAt kind children item reported
        exact below.mono (List.subset_cons_self _ _)

theorem collectChildErrors_errorAt (parent : String) :
    ∀ children : List Node, ∀ item ∈ collectChildErrors source parent children,
      item.ErrorAt (Node.childSpans children)
  | [] => by simp [collectChildErrors]
  | child :: rest => by
    intro item reported
    rw [collectChildErrors] at reported
    rw [Node.childSpans]
    rcases List.mem_append.mp reported with here | later
    · exact (collectErrors_errorAt (some parent) child item here).mono (List.subset_append_left _ _)
    · exact (collectChildErrors_errorAt parent rest item later).mono (List.subset_append_right _ _)

end

end

/-! ## The pass -/

/-- The root of the tree that lowering works on. -/
def rootOf (parse : Text → Node) (src : Text) : Node := parse (normalize src)

/-- Lowering reports at least one error, all at nodes, or returns a tree whose
spans are those of nodes. -/
theorem lower_located {parse : Text → Node} {src : Text}
    {result : Except (List Diagnostic) SourceFile} (lowered : lower parse src = some result) :
    match result with
    | .ok file => file.spans ⊆ (rootOf parse src).spans
    | .error items => items ≠ [] ∧ ∀ item ∈ items, item.ErrorAt (rootOf parse src).spans := by
  have within : Within (rootOf parse src) SourceFile.spans
      (lowerSourceFile (normalize src) (rootOf parse src)) := lowerSourceFile_within _
  simp only [lower] at lowered
  split at lowered
  · simp at lowered
  · next file reports returned =>
    rw [rootOf, returned] at within
    split at lowered
    · obtain rfl := Option.some.inj lowered
      exact within.1
    · next some_ =>
      obtain rfl := Option.some.inj lowered
      refine ⟨by simpa using some_, fun item member => ?_⟩
      rcases List.mem_append.mp member with first | later
      · exact collectErrors_errorAt none _ item first
      · exact within.2 item later

end Ill.Lower
