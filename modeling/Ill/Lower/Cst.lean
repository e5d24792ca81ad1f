import Ill.Base.Utf8
import Ill.Syntax.Spans

/-!
# Concrete syntax trees

The trees that the parser hands to lowering, with the part of the parser's
interface that lowering uses.
-/

namespace Ill.Lower

open Base.Utf8 Ast

/-- A node, with the field it fills in its parent. A node never ends before it
starts. -/
structure Node where
  field : Option String
  kind : String
  named : Bool
  isError : Bool
  isMissing : Bool
  span : Span
  ordered : span.start ≤ span.stop
  children : List Node

/-- A token at a place of the source. -/
def token (kind : String) (named : Bool) (start length : Nat) : Node where
  field := none
  kind
  named
  isError := false
  isMissing := false
  span := ⟨start, start + length⟩
  ordered := Nat.le_add_right start length
  children := []

namespace Node

def namedChildren (node : Node) : List Node := node.children.filter Node.named

/-- `named_child(0)` -/
def firstNamed (node : Node) : Option Node := node.namedChildren.head?

def childByFieldName (node : Node) (field : String) : Option Node :=
  node.children.find? fun child => child.field == some field

def childrenByFieldName (node : Node) (field : String) : List Node :=
  node.children.filter fun child => child.field == some field

/-- `utf8_text(source).unwrap_or("")` -/
def text (source : Text) (node : Node) : Text :=
  (slice? source node.span.start node.span.stop).getD []

/-! ## Descending into a tree -/

theorem sizeOf_lt_of_mem {child node : Node} (member : child ∈ node.children) :
    sizeOf child < sizeOf node := by
  have smaller := List.sizeOf_lt_of_mem member
  obtain ⟨field, kind, named, isError, isMissing, span, ordered, children⟩ := node
  simp only [mk.sizeOf_spec] at smaller ⊢
  omega

theorem mem_of_namedChildren {child node : Node} (member : child ∈ node.namedChildren) :
    child ∈ node.children :=
  (List.mem_filter.mp member).1

theorem mem_of_firstNamed {child node : Node} (first : node.firstNamed = some child) :
    child ∈ node.children :=
  mem_of_namedChildren (List.mem_of_head? first)

theorem mem_of_childByFieldName {child node : Node} {field : String}
    (found : node.childByFieldName field = some child) : child ∈ node.children :=
  List.mem_of_find?_eq_some found

theorem mem_of_childrenByFieldName {child node : Node} {field : String}
    (member : child ∈ node.childrenByFieldName field) : child ∈ node.children :=
  (List.mem_filter.mp member).1

/-! ## Spans -/

mutual

/-- The spans of a node and everything under it. -/
def spans : Node → List Span
  | ⟨_, _, _, _, _, span, _, children⟩ => span :: childSpans children

def childSpans : List Node → List Span
  | [] => []
  | child :: rest => child.spans ++ childSpans rest

end

theorem spans_eq (node : Node) : node.spans = node.span :: childSpans node.children := by
  cases node
  rw [spans]

theorem span_mem (node : Node) : node.span ∈ node.spans := by
  rw [spans_eq]
  exact List.mem_cons_self

theorem subset_childSpans {child : Node} {children : List Node} (member : child ∈ children) :
    child.spans ⊆ childSpans children := by
  induction children with
  | nil => simp at member
  | cons first rest ih =>
    rw [childSpans]
    rcases List.mem_cons.mp member with rfl | later
    · exact List.subset_append_left _ _
    · exact List.Subset.trans (ih later) (List.subset_append_right _ _)

theorem spans_subset {child node : Node} (member : child ∈ node.children) :
    child.spans ⊆ node.spans := by
  rw [spans_eq node]
  exact List.Subset.trans (subset_childSpans member) (List.subset_cons_self _ _)

mutual

/-- No span in a tree ends before it starts. -/
theorem ordered_of_mem {span : Span} : ∀ node : Node, span ∈ node.spans → span.start ≤ span.stop
  | ⟨_, _, _, _, _, own, ordered, children⟩ => by
    intro member
    rw [spans] at member
    rcases List.mem_cons.mp member with rfl | later
    · exact ordered
    · exact ordered_of_mem_children children later

theorem ordered_of_mem_children {span : Span} :
    ∀ children : List Node, span ∈ childSpans children → span.start ≤ span.stop
  | [] => by simp [childSpans]
  | child :: rest => by
    intro member
    rw [childSpans] at member
    exact (List.mem_append.mp member).elim (ordered_of_mem child) (ordered_of_mem_children rest)

end

end Node

end Ill.Lower
