import Ill.Lower.Equations
import Ill.Syntax.Relocate

/-!
# Lowering at other places

A part of a file that an edit leaves alone is parsed to the same nodes at other
places, and reads as before. What lowering makes of it is then the same at those
places: it looks at the texts and the kinds of nodes, and never compares two
positions.
-/

namespace Ill.Lower

open Base Base.Utf8 Base.Reporting Ast

/-- Where spans go. No span is turned around. -/
structure Placement where
  place : Span → Span
  ordered : ∀ span, span.start ≤ span.stop → (place span).start ≤ (place span).stop

namespace Node

mutual

def relocate (placement : Placement) : Node → Node
  | ⟨field, kind, named, isError, isMissing, span, ordered, children⟩ =>
    ⟨field, kind, named, isError, isMissing, placement.place span, placement.ordered span ordered,
      relocateChildren placement children⟩

def relocateChildren (placement : Placement) : List Node → List Node
  | [] => []
  | child :: rest => child.relocate placement :: relocateChildren placement rest

end

variable {placement : Placement}

theorem relocateChildren_eq_map (children : List Node) :
    relocateChildren placement children = children.map (·.relocate placement) := by
  induction children with
  | nil => rw [relocateChildren, List.map_nil]
  | cons child rest ih => rw [relocateChildren, List.map_cons, ih]

@[simp] theorem relocate_field (node : Node) : (node.relocate placement).field = node.field := by
  cases node
  rw [relocate]

@[simp] theorem relocate_kind (node : Node) : (node.relocate placement).kind = node.kind := by
  cases node
  rw [relocate]

@[simp] theorem relocate_named (node : Node) : (node.relocate placement).named = node.named := by
  cases node
  rw [relocate]

@[simp] theorem relocate_isError (node : Node) :
    (node.relocate placement).isError = node.isError := by
  cases node
  rw [relocate]

@[simp] theorem relocate_isMissing (node : Node) :
    (node.relocate placement).isMissing = node.isMissing := by
  cases node
  rw [relocate]

@[simp] theorem relocate_span (node : Node) :
    (node.relocate placement).span = placement.place node.span := by
  cases node
  rw [relocate]

@[simp] theorem relocate_children (node : Node) :
    (node.relocate placement).children = node.children.map (·.relocate placement) := by
  cases node
  rw [relocate, relocateChildren_eq_map]

/-- Nodes are chosen by what a relocation keeps. -/
theorem filter_relocate {choose : Node → Bool}
    (same : ∀ node : Node, choose (node.relocate placement) = choose node) (nodes : List Node) :
    (nodes.map (·.relocate placement)).filter choose =
      (nodes.filter choose).map (·.relocate placement) := by
  rw [List.filter_map]
  congr 2
  exact funext same

theorem find?_relocate {choose : Node → Bool}
    (same : ∀ node : Node, choose (node.relocate placement) = choose node) (nodes : List Node) :
    (nodes.map (·.relocate placement)).find? choose =
      (nodes.find? choose).map (·.relocate placement) := by
  rw [List.find?_map]
  congr 2
  exact funext same

@[simp] theorem namedChildren_relocate (node : Node) :
    (node.relocate placement).namedChildren = node.namedChildren.map (·.relocate placement) := by
  rw [namedChildren, relocate_children, filter_relocate relocate_named, namedChildren]

@[simp] theorem firstNamed_relocate (node : Node) :
    (node.relocate placement).firstNamed = node.firstNamed.map (·.relocate placement) := by
  rw [firstNamed, namedChildren_relocate, List.head?_map, firstNamed]

@[simp] theorem childByFieldName_relocate (node : Node) (field : String) :
    (node.relocate placement).childByFieldName field =
      (node.childByFieldName field).map (·.relocate placement) := by
  rw [childByFieldName, relocate_children, find?_relocate fun child => by rw [relocate_field],
    childByFieldName]

@[simp] theorem childrenByFieldName_relocate (node : Node) (field : String) :
    (node.relocate placement).childrenByFieldName field =
      (node.childrenByFieldName field).map (·.relocate placement) := by
  rw [childrenByFieldName, relocate_children, filter_relocate fun child => by rw [relocate_field],
    childrenByFieldName]

end Node

/-! ## Texts -/

section

variable {placement : Placement} {source edited : Text}

/-- A node reads in the edited text, where it went, as it does in the source. -/
def Shows (placement : Placement) (source edited : Text) (node : Node) : Prop :=
  ∀ span ∈ node.spans, slice? edited (placement.place span).start (placement.place span).stop =
    slice? source span.start span.stop

theorem Shows.child {node child : Node} (shows : Shows placement source edited node)
    (member : child ∈ node.children) : Shows placement source edited child :=
  fun span inside => shows span (Node.spans_subset member inside)

theorem Shows.text {node : Node} (shows : Shows placement source edited node) :
    (node.relocate placement).text edited = node.text source := by
  rw [Node.text, Node.relocate_span, shows node.span node.span_mem, Node.text]

theorem Shows.textOf {node : Node} (shows : Shows placement source edited node) :
    textOf edited (node.relocate placement) = textOf source node := by
  rw [Lower.textOf, Lower.textOf, shows.text]

theorem Shows.identFromNode {node : Node} (shows : Shows placement source edited node) :
    identFromNode edited (node.relocate placement) =
      (identFromNode source node).relocate placement.place := by
  rw [Lower.identFromNode, Lower.identFromNode, shows.textOf, Node.relocate_span, Ident.relocate]

/-! ## Lowering in another place -/

/-- The second computation lowers at other places what the first lowers. -/
def Follows {α : Type} (placement : Placement) (image : α → α) (first second : Lowering α) : Prop :=
  Carries (·.relocate placement.place) image first second

namespace Follows

variable {α β : Type} {image : α → α} {other : β → β}

theorem pure {value moved : α} (same : image value = moved) :
    Follows placement image (Pure.pure value) (Pure.pure moved) :=
  Carries.pure same

theorem none : Follows placement (Option.map image) (Pure.pure Option.none) (Pure.pure Option.none) :=
  pure rfl

theorem bind {first second : Lowering α} {rest others : α → Lowering β}
    (begins : Follows placement image first second)
    (continues : ∀ value, Follows placement other (rest value) (others (image value))) :
    Follows placement other (first >>= rest) (second >>= others) :=
  Carries.bind begins continues

theorem bindSome {first second : Lowering (Option α)} {rest others : Option α → Lowering β}
    (begins : Follows placement (Option.map image) first second)
    (stops : Follows placement other (rest Option.none) (others Option.none))
    (continues : ∀ value,
      Follows placement other (rest (some value)) (others (some (image value)))) :
    Follows placement other (first >>= rest) (second >>= others) :=
  Carries.bindSome begins stops continues

theorem each (image : α → α) {step steps : Node → Lowering (Option α)} {nodes : List Node}
    (carries : ∀ node ∈ nodes,
      Follows placement (Option.map image) (step node) (steps (node.relocate placement))) :
    Follows placement (List.map image) (Reporting.each step nodes)
      (Reporting.each steps (nodes.map (·.relocate placement))) :=
  Carries.each carries

/-- A diagnostic at a node. -/
theorem report (node : Node) (code : DiagnosticCode) (message : String)
    {rest others : PUnit → Lowering β} (continues : Follows placement other (rest ⟨⟩) (others ⟨⟩)) :
    Follows placement other (Reporting.report (.error node.span code message) >>= rest)
      (Reporting.report (.error (node.relocate placement).span code message) >>= others) := by
  rw [Node.relocate_span]
  exact Carries.bind (Carries.report rfl) fun _ => continues

end Follows

theorem reportUnexpected_follows {α : Type} {image : α → α} (node : Node) (message : String)
    {rest others : PUnit → Lowering α} (continues : Follows placement image (rest ⟨⟩) (others ⟨⟩)) :
    Follows placement image (reportUnexpected node message >>= rest)
      (reportUnexpected (node.relocate placement) message >>= others) := by
  rw [reportUnexpected, reportUnexpected, Node.relocate_isError, Node.relocate_isMissing]
  split
  · rw [Reporting.pure_bind, Reporting.pure_bind]
    exact continues
  · exact .report node _ _ continues

theorem Shows.lowerIdentField {node : Node} (shows : Shows placement source edited node)
    (field : String) :
    Follows placement (Option.map (·.relocate placement.place)) (lowerIdentField source node field)
      (lowerIdentField edited (node.relocate placement) field) := by
  rw [Lower.lowerIdentField, Lower.lowerIdentField, Node.childByFieldName_relocate]
  cases found : node.childByFieldName field with
  | none =>
    rw [Node.relocate_kind]
    exact .report node _ _ .none
  | some child =>
    have named := (shows.child (Node.mem_of_childByFieldName found)).identFromNode
    exact .pure (congrArg some named.symm)

theorem Shows.lowerNumber {node : Node} (shows : Shows placement source edited node) :
    Follows placement (Option.map (·.relocate placement.place)) (lowerNumber source node)
      (lowerNumber edited (node.relocate placement)) := by
  rw [Lower.lowerNumber, Lower.lowerNumber, shows.text, shows.textOf]
  cases Decimal.parseI64 (node.text source) with
  | none => exact .report node _ _ .none
  | some value => exact .pure rfl

theorem unescapeFragment_follows (node : Node) (fragment : StringFragment) :
    Follows placement (Option.map (·.relocate placement.place)) (unescapeFragment node fragment)
      (unescapeFragment (node.relocate placement) (fragment.relocate placement.place)) := by
  cases fragment with
  | text text =>
    rw [StringFragment.relocate, unescapeFragment, unescapeFragment]
    cases unescape text.toList with
    | ok unescaped => exact .pure rfl
    | error message => exact .report node _ _ (.pure rfl)
  | interpolation expr => exact .pure rfl

theorem unquote_follows (raw : Text) : Follows placement id (unquote raw) (unquote raw) := by
  unfold unquote
  cases slice? raw 1 (byteSize raw - 1) with
  | none => exact Carries.panicked
  | some content => exact .pure rfl

/-! ## Expressions -/

mutual

theorem Shows.lowerExpression {node : Node} (shows : Shows placement source edited node) :
    Follows placement (Option.map (·.relocate placement.place)) (lowerExpression source node)
      (lowerExpression edited (node.relocate placement)) := by
  by_cases primary : node.kind = "primary_expression"
  · rw [lowerExpression_primary source primary,
      lowerExpression_primary edited (node.relocate_kind.trans primary), Node.firstNamed_relocate]
    cases found : node.firstNamed with
    | none => exact .none
    | some child =>
      have member := Node.mem_of_firstNamed found
      exact (shows.child member).lowerPrimary
  · rw [Lower.lowerExpression, Lower.lowerExpression, Node.relocate_kind]
    split
    · exact absurd ‹_› primary
    · exact shows.lowerMemberExpression
    · exact shows.lowerIndexExpression
    all_goals first
      | exact shows.lowerPrimary
      | exact reportUnexpected_follows node _ .none
termination_by (sizeOf node, 3)
decreasing_by
  all_goals first
    | exact .right _ (by decide)
    | exact .left _ _ (Node.sizeOf_lt_of_mem ‹_›)

theorem Shows.lowerPrimary {node : Node} (shows : Shows placement source edited node) :
    Follows placement (Option.map (·.relocate placement.place)) (lowerPrimary source node)
      (lowerPrimary edited (node.relocate placement)) := by
  rw [Lower.lowerPrimary, Lower.lowerPrimary, Node.relocate_kind]
  split
  · exact .pure (congrArg (some ∘ Expr.ident) shows.identFromNode.symm)
  · exact shows.lowerNumber
  · rw [shows.textOf]
    exact .pure rfl
  · exact .pure rfl
  · rw [lowerIdentFromFirstChild, lowerIdentFromFirstChild, Node.firstNamed_relocate]
    cases found : node.firstNamed with
    | none => exact .none
    | some child =>
      have named := (shows.child (Node.mem_of_firstNamed found)).identFromNode
      exact .pure (congrArg (some ∘ Expr.atom) named.symm)
  · exact shows.lowerString
  · exact shows.lowerSquiggle
  · exact shows.lowerArray
  · exact reportUnexpected_follows node _ .none
termination_by (sizeOf node, 2)
decreasing_by all_goals exact .right _ (by decide)

theorem Shows.lowerMemberExpression {node : Node} (shows : Shows placement source edited node) :
    Follows placement (Option.map (·.relocate placement.place)) (lowerMemberExpression source node)
      (lowerMemberExpression edited (node.relocate placement)) := by
  rw [lowerMemberExpression_eq, lowerMemberExpression_eq, Node.childByFieldName_relocate]
  cases found : node.childByFieldName "object" with
  | none => exact .none
  | some objectNode =>
    have member := Node.mem_of_childByFieldName found
    refine .bindSome (shows.lowerIdentField "property") .none fun property => ?_
    refine .bindSome (shows.child member).lowerExpression .none fun object => .pure ?_
    rw [Node.relocate_span, Option.map_some, Expr.relocate]
termination_by (sizeOf node, 1)
decreasing_by exact .left _ _ (Node.sizeOf_lt_of_mem ‹_›)

theorem Shows.lowerIndexExpression {node : Node} (shows : Shows placement source edited node) :
    Follows placement (Option.map (·.relocate placement.place)) (lowerIndexExpression source node)
      (lowerIndexExpression edited (node.relocate placement)) := by
  rw [lowerIndexExpression_eq, lowerIndexExpression_eq, Node.childByFieldName_relocate,
    Node.childrenByFieldName_relocate]
  cases found : node.childByFieldName "object" with
  | none => exact .none
  | some objectNode =>
    have member := Node.mem_of_childByFieldName found
    refine .bindSome (shows.child member).lowerExpression .none fun object => ?_
    refine .bind (.each (Expr.relocate placement.place) fun child inside => ?_) fun values => .pure ?_
    · have member := Node.mem_of_childrenByFieldName inside
      exact (shows.child member).lowerExpression
    · rw [Node.relocate_span, Option.map_some, Expr.relocate, relocateItems_eq_map]
termination_by (sizeOf node, 1)
decreasing_by all_goals exact .left _ _ (Node.sizeOf_lt_of_mem ‹_›)

theorem Shows.lowerArray {node : Node} (shows : Shows placement source edited node) :
    Follows placement (Option.map (·.relocate placement.place)) (lowerArray source node)
      (lowerArray edited (node.relocate placement)) := by
  rw [lowerArray_eq, lowerArray_eq, Node.namedChildren_relocate]
  refine .bind (.each (Expr.relocate placement.place) fun child inside => ?_) fun values => .pure ?_
  · have member := Node.mem_of_namedChildren inside
    rw [lowerElement, lowerElement, Node.relocate_kind]
    split
    all_goals first
      | exact (shows.child member).lowerExpression
      | exact .none
  · rw [Option.map_some, Expr.relocate, relocateItems_eq_map]
termination_by (sizeOf node, 1)
decreasing_by all_goals exact .left _ _ (Node.sizeOf_lt_of_mem ‹_›)

theorem Shows.lowerString {node : Node} (shows : Shows placement source edited node) :
    Follows placement (Option.map (·.relocate placement.place)) (lowerString source node)
      (lowerString edited (node.relocate placement)) := by
  rw [lowerString_eq, lowerString_eq, Node.firstNamed_relocate]
  cases found : node.firstNamed with
  | none => exact .none
  | some inner =>
    have member := Node.mem_of_firstNamed found
    dsimp only [Option.map_some]
    rw [Node.relocate_kind, (shows.child member).text]
    split
    · refine .bind (shows.child member).lowerStringFragments fun fragments => .pure ?_
      rw [Node.relocate_span, Option.map_some, Expr.relocate, relocateFragments_eq_map]
    · refine .bind (unquote_follows _) fun content => .pure ?_
      rw [Node.relocate_span, Option.map_some, Expr.relocate]
      rfl
    · exact .none
termination_by (sizeOf node, 1)
decreasing_by exact .left _ _ (Node.sizeOf_lt_of_mem ‹_›)

theorem Shows.lowerStringFragments {node : Node} (shows : Shows placement source edited node) :
    Follows placement (List.map (·.relocate placement.place)) (lowerStringFragments source node)
      (lowerStringFragments edited (node.relocate placement)) := by
  rw [Lower.lowerStringFragments, Lower.lowerStringFragments]
  refine .bind (shows.collectFragments "string_content") fun fragments => ?_
  exact Carries.each fun fragment _ => unescapeFragment_follows node fragment
termination_by (sizeOf node, 1)
decreasing_by exact .right _ (by decide)

theorem Shows.collectFragments {node : Node} (shows : Shows placement source edited node)
    (textKind : String) :
    Follows placement (List.map (·.relocate placement.place)) (collectFragments source node textKind)
      (collectFragments edited (node.relocate placement) textKind) := by
  rw [collectFragments_eq, collectFragments_eq, Node.namedChildren_relocate]
  refine .each _ fun child inside => ?_
  have member := Node.mem_of_namedChildren inside
  rw [lowerFragment, lowerFragment, Node.relocate_kind, (shows.child member).textOf,
    Node.firstNamed_relocate]
  split
  · exact .pure rfl
  · split
    · cases found : child.firstNamed with
      | none => exact .none
      | some inner =>
        have deeper := Node.mem_of_firstNamed found
        exact .bindSome ((shows.child member).child deeper).lowerExpression .none
          fun expr => .pure rfl
    · exact .none
termination_by (sizeOf node, 0)
decreasing_by
  have inside := Node.sizeOf_lt_of_mem member
  exact .left _ _ ((Node.sizeOf_lt_of_mem deeper).trans inside)

theorem Shows.lowerSquiggle {node : Node} (shows : Shows placement source edited node) :
    Follows placement (Option.map (·.relocate placement.place)) (lowerSquiggle source node)
      (lowerSquiggle edited (node.relocate placement)) := by
  rw [Lower.lowerSquiggle, Lower.lowerSquiggle, Node.childByFieldName_relocate]
  cases found : node.childByFieldName "name" with
  | none => exact .none
  | some name =>
    have named := (shows.child (Node.mem_of_childByFieldName found)).identFromNode
    refine .bind (shows.collectFragments "squiggle_content") fun fragments => .pure ?_
    rw [named, Node.relocate_span, Option.map_some, Expr.relocate, relocateFragments_eq_map]
termination_by (sizeOf node, 1)
decreasing_by exact .right _ (by decide)

end

/-! ## Annotations -/

theorem Shows.extractStringText {node : Node} (shows : Shows placement source edited node) :
    Follows placement id (extractStringText source node)
      (extractStringText edited (node.relocate placement)) := by
  rw [Lower.extractStringText, Lower.extractStringText, Node.firstNamed_relocate]
  cases found : node.firstNamed with
  | none => exact .pure rfl
  | some inner =>
    have within := shows.child (Node.mem_of_firstNamed found)
    dsimp only [Option.map_some]
    rw [Node.relocate_kind, within.text, Node.namedChildren_relocate,
      Node.filter_relocate fun child => by rw [Node.relocate_kind], List.flatMap_map]
    split
    · refine .pure (congrArg String.ofList (List.flatMap_congr fun child inside => ?_))
      have member := Node.mem_of_namedChildren (List.mem_filter.mp inside).1
      exact (within.child member).text.symm
    · exact .bind (unquote_follows _) fun content => .pure rfl
    · exact .pure rfl

theorem Shows.lowerAnnotationValue {node : Node} (shows : Shows placement source edited node) :
    Follows placement (Option.map id) (lowerAnnotationValue source node)
      (lowerAnnotationValue edited (node.relocate placement)) := by
  rw [Lower.lowerAnnotationValue, Lower.lowerAnnotationValue, Node.relocate_kind, shows.textOf]
  split
  · exact .pure rfl
  · exact .bind shows.extractStringText fun text => .pure rfl
  · exact .none

theorem Shows.lowerAnnotation {node : Node} (shows : Shows placement source edited node) :
    Follows placement (Option.map (·.relocate placement.place)) ( lowerAnnotation source node)
      ( lowerAnnotation edited (node.relocate placement)) := by
  rw [ Lower.lowerAnnotation, Lower.lowerAnnotation, Node.namedChildren_relocate,
    Node.filter_relocate fun child => by rw [Node.relocate_kind],
    Node.filter_relocate fun child => by rw [Node.relocate_kind], List.flatMap_map]
  have values : ((node.namedChildren.filter fun child => child.kind == "annotation_value").flatMap
      fun child => (child.relocate placement).namedChildren) =
      ((node.namedChildren.filter fun child => child.kind == "annotation_value").flatMap
        Node.namedChildren).map (·.relocate placement) := by
    simp only [Node.namedChildren_relocate, List.map_flatMap]
  rw [values, List.getLast?_map]
  refine .bind (.each id fun inner inside => ?_) fun values => ?_
  · obtain ⟨holder, chosen, member⟩ := List.mem_flatMap.mp inside
    have outer := Node.mem_of_namedChildren (List.mem_filter.mp chosen).1
    exact ((shows.child outer).child (Node.mem_of_namedChildren member)).lowerAnnotationValue
  · rw [List.map_id, Option.map_map]
    cases last :
        (node.namedChildren.filter fun child => child.kind == "annotation_name").getLast? with
    | none => exact .none
    | some name =>
      have chosen := (List.mem_filter.mp (List.mem_of_getLast? last)).1
      have named := (shows.child (Node.mem_of_namedChildren chosen)).identFromNode
      refine .pure (congrArg some ?_)
      rw [Function.comp_apply, named, Node.relocate_span]
      rfl

/-! ## Children -/

theorem Shows.lowerField {α : Type} {image : α → α} {node : Node}
    (shows : Shows placement source edited node) (field : String)
    {lower lowers : Node → Lowering (Option α)}
    (follows : ∀ child, Shows placement source edited child →
      Follows placement (Option.map image) (lower child) (lowers (child.relocate placement))) :
    Follows placement (Option.map image) (lowerIfPresent lower (node.childByFieldName field))
      (lowerIfPresent lowers ((node.relocate placement).childByFieldName field)) := by
  rw [Node.childByFieldName_relocate]
  cases found : node.childByFieldName field with
  | none => exact .none
  | some child => exact follows child (shows.child (Node.mem_of_childByFieldName found))

/-- A loop over the named children of a kind. -/
theorem Shows.eachOfKind {α : Type} {image : α → α} {node : Node}
    (shows : Shows placement source edited node) (kind : String)
    {step steps : Node → Lowering (Option α)}
    (follows : ∀ child, Shows placement source edited child →
      Follows placement (Option.map image) (step child) (steps (child.relocate placement))) :
    Follows placement (List.map image)
      (each step (node.namedChildren.filter fun child => child.kind == kind))
      (each steps ((node.relocate placement).namedChildren.filter fun child =>
        child.kind == kind)) := by
  rw [Node.namedChildren_relocate, Node.filter_relocate fun child => by rw [Node.relocate_kind]]
  refine .each image fun child inside => follows child (shows.child ?_)
  exact Node.mem_of_namedChildren (List.mem_filter.mp inside).1

theorem Shows.eachNamed {α : Type} {image : α → α} {node : Node}
    (shows : Shows placement source edited node) {step steps : Node → Lowering (Option α)}
    (follows : ∀ child, Shows placement source edited child →
      Follows placement (Option.map image) (step child) (steps (child.relocate placement))) :
    Follows placement (List.map image) (each step node.namedChildren)
      (each steps (node.relocate placement).namedChildren) := by
  rw [Node.namedChildren_relocate]
  exact .each image fun child inside => follows child (shows.child (Node.mem_of_namedChildren inside))

/-! ## Keyword arguments -/

def relocatePair (place : Span → Span) (pair : Expr × Expr) : Expr × Expr :=
  (pair.1.relocate place, pair.2.relocate place)

theorem Shows.lowerKeywordPair {node : Node} (shows : Shows placement source edited node) :
    Follows placement (Option.map (relocatePair placement.place)) (lowerKeywordPair source node)
      (lowerKeywordPair edited (node.relocate placement)) := by
  rw [Lower.lowerKeywordPair, Lower.lowerKeywordPair, Node.childByFieldName_relocate,
    Node.childByFieldName_relocate]
  cases keyFound : node.childByFieldName "key" with
  | none => exact .none
  | some keyNode =>
    cases valueFound : node.childByFieldName "value" with
    | none => exact .none
    | some valueNode =>
      have keyMember := Node.mem_of_childByFieldName keyFound
      have valueMember := Node.mem_of_childByFieldName valueFound
      refine .bindSome (shows.child keyMember).lowerExpression .none fun key => ?_
      exact .bindSome (shows.child valueMember).lowerExpression .none fun value => .pure rfl

theorem Shows.lowerKeywordArg {node : Node} (shows : Shows placement source edited node) :
    Follows placement (Option.map (·.relocate placement.place)) (lowerKeywordArg source node)
      (lowerKeywordArg edited (node.relocate placement)) := by
  rw [Lower.lowerKeywordArg, Lower.lowerKeywordArg, Node.relocate_span]
  refine .bindSome (shows.lowerIdentField "key") .none fun key => ?_
  refine .bind (shows.eachOfKind "keyword_pair" fun _ => Shows.lowerKeywordPair) fun values => ?_
  rw [List.isEmpty_map]
  split
  · exact .bindSome (shows.lowerField "value" fun _ => Shows.lowerExpression) .none
      fun value => .pure rfl
  · exact .pure rfl

theorem Shows.collectKeywordArgs {node : Node} (shows : Shows placement source edited node) :
    Follows placement (List.map (·.relocate placement.place)) (collectKeywordArgs source node)
      (collectKeywordArgs edited (node.relocate placement)) :=
  shows.eachOfKind "keyword_arg" fun _ => Shows.lowerKeywordArg

/-! ## Statements -/

def CommandPart.relocate (place : Span → Span) : CommandPart → CommandPart
  | .annotated marker => .annotated (marker.map (·.relocate place))
  | .keywordArgs args => .keywordArgs (args.map (·.relocate place))
  | .positional expr => .positional (expr.relocate place)

theorem Shows.lowerCommandPart {node : Node} (shows : Shows placement source edited node) :
    Follows placement (Option.map (CommandPart.relocate placement.place))
      (lowerCommandPart source node) (lowerCommandPart edited (node.relocate placement)) := by
  rw [Lower.lowerCommandPart, Lower.lowerCommandPart, Node.relocate_kind]
  split
  · exact .bind shows.lowerAnnotation fun marker => .pure rfl
  · exact .bind shows.collectKeywordArgs fun args => .pure rfl
  · exact .bind shows.collectKeywordArgs fun args => .pure rfl
  · exact .bindSome shows.lowerExpression .none fun expr => .pure rfl
  · exact .bindSome shows.lowerExpression .none fun expr => .pure rfl
  · exact .bindSome shows.lowerExpression .none fun expr => .pure rfl
  · exact .none

/-- The parts of a command are relocated one by one. -/
theorem commandParts_relocate (place : Span → Span) (parts : List CommandPart) :
    ((parts.map (CommandPart.relocate place)).filterMap CommandPart.marker?).getLast?.join =
        (parts.filterMap CommandPart.marker?).getLast?.join.map (·.relocate place) ∧
      (parts.map (CommandPart.relocate place)).filterMap CommandPart.expr? =
        (parts.filterMap CommandPart.expr?).map (·.relocate place) ∧
      (parts.map (CommandPart.relocate place)).flatMap CommandPart.args =
        (parts.flatMap CommandPart.args).map (·.relocate place) := by
  have markers : (parts.map (CommandPart.relocate place)).filterMap CommandPart.marker? =
      (parts.filterMap CommandPart.marker?).map (Option.map (·.relocate place)) := by
    rw [List.filterMap_map, List.map_filterMap]
    refine List.filterMap_congr fun part _ => ?_
    cases part <;> rfl
  refine ⟨?_, ?_, ?_⟩
  · rw [markers, List.getLast?_map]
    cases (parts.filterMap CommandPart.marker?).getLast? with
    | none => rfl
    | some marker => rfl
  · rw [List.filterMap_map, List.map_filterMap]
    refine List.filterMap_congr fun part _ => ?_
    cases part <;> rfl
  · rw [List.flatMap_map, List.map_flatMap]
    refine List.flatMap_congr fun part _ => ?_
    cases part <;> rfl

theorem Shows.lowerCommand {node : Node} (shows : Shows placement source edited node) :
    Follows placement (Option.map (·.relocate placement.place)) (lowerCommand source node)
      (lowerCommand edited (node.relocate placement)) := by
  rw [Lower.lowerCommand, Lower.lowerCommand, Node.relocate_span]
  refine .bindSome (shows.lowerIdentField "name") .none fun name => ?_
  refine .bind (shows.eachNamed fun _ => Shows.lowerCommandPart) fun parts => .pure ?_
  obtain ⟨marker, positional, keyword⟩ := commandParts_relocate placement.place parts
  rw [marker, positional, keyword]
  rfl

theorem Shows.lowerComparisonOp {node : Node} (shows : Shows placement source edited node) :
    Follows placement (Option.map id) (lowerComparisonOp source node)
      (lowerComparisonOp edited (node.relocate placement)) := by
  rw [Lower.lowerComparisonOp, Lower.lowerComparisonOp, shows.textOf]
  split
  all_goals first
    | exact .pure rfl
    | exact .report node _ _ .none

theorem Shows.lowerAssert {node : Node} (shows : Shows placement source edited node) :
    Follows placement (Option.map (·.relocate placement.place)) (lowerAssert source node)
      (lowerAssert edited (node.relocate placement)) := by
  rw [Lower.lowerAssert, Lower.lowerAssert, Node.relocate_span]
  refine .bindSome (shows.lowerField "left" fun _ => Shows.lowerExpression) .none fun left => ?_
  refine .bind (shows.lowerField "operator" fun _ => Shows.lowerComparisonOp) fun op => ?_
  refine .bind (shows.lowerField "right" fun _ => Shows.lowerExpression) fun right => ?_
  rw [Option.map_id, Node.namedChildren_relocate,
    Node.find?_relocate fun child => by rw [Node.relocate_kind]]
  refine .bind ?_ fun marker => .pure rfl
  cases found : node.namedChildren.find? fun child => child.kind == "annotation" with
  | none => exact .none
  | some child =>
    have member := Node.mem_of_namedChildren (List.mem_of_find?_eq_some found)
    exact Shows.lowerAnnotation (shows.child member)

theorem Shows.lowerParseExpression {node : Node} (shows : Shows placement source edited node) :
    Follows placement (Option.map (·.relocate placement.place)) (lowerParseExpression source node)
      (lowerParseExpression edited (node.relocate placement)) := by
  rw [Lower.lowerParseExpression, Lower.lowerParseExpression, Node.childByFieldName_relocate]
  cases found : node.childByFieldName "source" with
  | none => exact .none
  | some sourceNode =>
    have member := Node.mem_of_childByFieldName found
    refine .bindSome (shows.lowerIdentField "format") .none fun format => ?_
    exact .bindSome (shows.child member).lowerExpression .none fun parsed => .pure rfl

theorem Shows.lowerLetValue {node : Node} (shows : Shows placement source edited node) :
    Follows placement (Option.map (·.relocate placement.place)) (lowerLetValue source node)
      (lowerLetValue edited (node.relocate placement)) := by
  rw [Lower.lowerLetValue, Lower.lowerLetValue, Node.relocate_kind]
  split
  · exact shows.lowerParseExpression
  · exact .bindSome shows.lowerExpression .none fun value => .pure rfl

theorem Shows.lowerLet {node : Node} (shows : Shows placement source edited node) :
    Follows placement (Option.map (·.relocate placement.place)) (lowerLet source node)
      (lowerLet edited (node.relocate placement)) := by
  rw [Lower.lowerLet, Lower.lowerLet, Node.relocate_span]
  refine .bindSome (shows.lowerIdentField "name") .none fun name => ?_
  exact .bindSome (shows.lowerField "value" fun _ => Shows.lowerLetValue) .none fun value => .pure rfl

theorem Shows.lowerAssignment {node : Node} (shows : Shows placement source edited node) :
    Follows placement (Option.map (·.relocate placement.place)) (lowerAssignment source node)
      (lowerAssignment edited (node.relocate placement)) := by
  rw [Lower.lowerAssignment, Lower.lowerAssignment, Node.relocate_span]
  refine .bindSome (shows.lowerField "target" fun _ => Shows.lowerExpression) .none fun target => ?_
  exact .bindSome (shows.lowerField "value" fun _ => Shows.lowerExpression) .none
    fun value => .pure rfl

/-- Wrapping a part is relocated with the part. -/
theorem Follows.wrap {α β : Type} {image : α → α} {other : β → β} (wrap : α → β)
    (same : ∀ value, other (wrap value) = wrap (image value)) {first second : Lowering (Option α)}
    (follows : Follows placement (Option.map image) first second) :
    Follows placement (Option.map other) (first >>= fun value => Pure.pure (value.map wrap))
      (second >>= fun value => Pure.pure (value.map wrap)) := by
  refine .bindSome follows .none fun value => .pure ?_
  rw [Option.map_some, Option.map_some, same]
  rfl

theorem Shows.lowerStatement {node : Node} (shows : Shows placement source edited node) :
    Follows placement (Option.map (·.relocate placement.place)) (lowerStatement source node)
      (lowerStatement edited (node.relocate placement)) := by
  rw [Lower.lowerStatement, Lower.lowerStatement, Node.relocate_kind]
  split
  · exact .wrap Statement.command (fun _ => rfl) shows.lowerCommand
  · exact .wrap Statement.assert (fun _ => rfl) shows.lowerAssert
  · exact .wrap Statement.let (fun _ => rfl) shows.lowerLet
  · exact .wrap Statement.assignment (fun _ => rfl) shows.lowerAssignment
  all_goals first
    | exact .none
    | exact reportUnexpected_follows node _ .none

theorem Shows.lowerBlock {node : Node} (shows : Shows placement source edited node) :
    Follows placement (List.map (·.relocate placement.place)) (lowerBlock source node)
      (lowerBlock edited (node.relocate placement)) :=
  shows.eachNamed fun _ => Shows.lowerStatement

/-! ## Top-level items -/

theorem Shows.lowerParts {α : Type} {image : α → α} {node : Node}
    (shows : Shows placement source edited node) (kind : String)
    {lower lowers : Node → Lowering (List α)}
    (follows : ∀ child, Shows placement source edited child →
      Follows placement (List.map image) (lower child) (lowers (child.relocate placement))) :
    Follows placement (List.map image) (lowerParts kind lower node)
      (lowerParts kind lowers (node.relocate placement)) := by
  rw [Lower.lowerParts, Lower.lowerParts]
  refine .bind (shows.eachOfKind kind fun child within => ?_) fun parts => .pure List.map_flatten
  exact .bind (follows child within) fun items => .pure rfl

theorem Shows.lowerAsBlock {node : Node} (shows : Shows placement source edited node) :
    Follows placement (Option.map (·.relocate placement.place)) (lowerAsBlock source node)
      (lowerAsBlock edited (node.relocate placement)) := by
  rw [Lower.lowerAsBlock, Lower.lowerAsBlock, Node.relocate_span]
  refine .bindSome (shows.lowerIdentField "actor") .none fun actor => ?_
  exact .bind (shows.lowerParts "block" fun _ => Shows.lowerBlock) fun body => .pure rfl

theorem Shows.lowerVarDeclaration {node : Node} (shows : Shows placement source edited node) :
    Follows placement (Option.map (·.relocate placement.place)) (lowerVarDeclaration source node)
      (lowerVarDeclaration edited (node.relocate placement)) := by
  rw [Lower.lowerVarDeclaration, Lower.lowerVarDeclaration, Node.relocate_span]
  refine .bindSome (shows.lowerIdentField "name") .none fun name => ?_
  refine .bind (shows.eachOfKind "annotation" fun _ => Shows.lowerAnnotation) fun markers => ?_
  exact .bind (shows.lowerField "default" fun _ => Shows.lowerExpression) fun value => .pure rfl

theorem Shows.lowerVarsBlock {node : Node} (shows : Shows placement source edited node) :
    Follows placement (List.map (·.relocate placement.place)) (lowerVarsBlock source node)
      (lowerVarsBlock edited (node.relocate placement)) :=
  shows.eachOfKind "var_declaration" fun _ => Shows.lowerVarDeclaration

def ActorProperty.relocate (place : Span → Span) : ActorProperty → ActorProperty
  | .vars declared => .vars (declared.map (·.relocate place))
  | .keywordArg arg => .keywordArg (arg.relocate place)

theorem Shows.lowerActorProperty {node : Node} (shows : Shows placement source edited node) :
    Follows placement (Option.map (ActorProperty.relocate placement.place))
      (lowerActorProperty source node) (lowerActorProperty edited (node.relocate placement)) := by
  rw [Lower.lowerActorProperty, Lower.lowerActorProperty, Node.namedChildren_relocate,
    Node.find?_relocate fun child => by rw [Node.relocate_kind], Node.relocate_span]
  cases found : node.namedChildren.find? fun child => child.kind == "vars_block" with
  | some block =>
    have member := Node.mem_of_namedChildren (List.mem_of_find?_eq_some found)
    exact .bind (shows.child member).lowerVarsBlock fun vars => .pure rfl
  | none =>
    refine .bindSome (shows.lowerIdentField "key") .none fun key => ?_
    exact .bindSome (shows.lowerField "value" fun _ => Shows.lowerExpression) .none
      fun value => .pure rfl

theorem Shows.lowerActorBody {node : Node} (shows : Shows placement source edited node) :
    Follows placement (List.map (ActorProperty.relocate placement.place))
      (lowerActorBody source node) (lowerActorBody edited (node.relocate placement)) :=
  shows.eachOfKind "actor_property" fun _ => Shows.lowerActorProperty

theorem actorProperties_relocate (place : Span → Span) (properties : List ActorProperty) :
    (properties.map (ActorProperty.relocate place)).filterMap ActorProperty.keywordArg? =
        (properties.filterMap ActorProperty.keywordArg?).map (·.relocate place) ∧
      (properties.map (ActorProperty.relocate place)).flatMap ActorProperty.declared =
        (properties.flatMap ActorProperty.declared).map (·.relocate place) := by
  constructor
  · rw [List.filterMap_map, List.map_filterMap]
    refine List.filterMap_congr fun property _ => ?_
    cases property <;> rfl
  · rw [List.flatMap_map, List.map_flatMap]
    refine List.flatMap_congr fun property _ => ?_
    cases property <;> rfl

theorem Shows.lowerActorDeclaration {node : Node} (shows : Shows placement source edited node) :
    Follows placement (Option.map (·.relocate placement.place)) (lowerActorDeclaration source node)
      (lowerActorDeclaration edited (node.relocate placement)) := by
  rw [Lower.lowerActorDeclaration, Lower.lowerActorDeclaration, Node.childByFieldName_relocate,
    Node.relocate_span]
  refine .bindSome (shows.lowerIdentField "name") .none fun name => ?_
  cases typeFound : node.childByFieldName "type" with
  | none => exact .none
  | some typeNode =>
    have typed := shows.child (Node.mem_of_childByFieldName typeFound)
    dsimp only [Option.map_some]
    rw [lowerIdentFromFirstChild, lowerIdentFromFirstChild, Node.firstNamed_relocate]
    cases first : typeNode.firstNamed with
    | none => exact .none
    | some inner =>
      dsimp only [Option.map_some]
      rw [(typed.child (Node.mem_of_firstNamed first)).identFromNode]
      refine .bind (shows.lowerParts "actor_body" fun _ => Shows.lowerActorBody)
        fun properties => .pure ?_
      obtain ⟨keyword, vars⟩ := actorProperties_relocate placement.place properties
      rw [keyword, vars]
      rfl

theorem Shows.lowerItem {node : Node} (shows : Shows placement source edited node) :
    Follows placement (Option.map (·.relocate placement.place)) (lowerItem source node)
      (lowerItem edited (node.relocate placement)) := by
  rw [Lower.lowerItem, Lower.lowerItem, Node.relocate_kind]
  split
  · exact .wrap TopLevel.actorDeclaration (fun _ => rfl) shows.lowerActorDeclaration
  · exact .wrap TopLevel.asBlock (fun _ => rfl) shows.lowerAsBlock
  all_goals first
    | exact .none
    | exact reportUnexpected_follows node _ .none

end

end Ill.Lower
