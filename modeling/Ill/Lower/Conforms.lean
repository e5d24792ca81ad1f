import Ill.Grammar.Rules
import Ill.Lower.Escapes
import Ill.Lower.Total

/-!
# Trees that conform to the grammar

A tree conforms when the children of every node, without the comments, are as
the rule of its kind lists them, and tokens have the text of their pattern. A
comment runs to the end of its line, so only layout follows it. What lowering
looks children up by, fields and kinds, is settled by the rules.
-/

namespace Ill.Lower

open Base Base.Utf8 Base.Regular Ast Grammar

namespace Node

def label (node : Node) : Label := ⟨node.field, node.kind, node.named⟩

/-- The children that the rules list. -/
def parts (node : Node) : List Node := node.children.filter fun child => child.kind != "comment"

/-- The children with a label that is picked, in order. -/
def picked (node : Node) (picks : Label → Bool) : List Node := node.children.filter (picks ∘ label)

end Node

def isOf (kinds : List String) (label : Label) : Bool := label.named && kinds.contains label.kind

def fills (field : String) (label : Label) : Bool := label.field == some field

/-- The alternatives of `_expression`. -/
def expressionKinds : List String :=
  ["member_expression", "index_expression", "primary_expression"]

namespace Node

/-- The named children of the kinds, in order. -/
def ofKind (node : Node) (kinds : List String) : List Node := node.picked (isOf kinds)

def expressions (node : Node) : List Node := node.ofKind expressionKinds

end Node

/-- The text of a `number`, and the integer it denotes. -/
inductive Numeral : Text → Int → Prop where
  | natural {digits : Text} (some_ : digits ≠ []) (decimals : ∀ digit ∈ digits, digit.isDigit = true) :
      Numeral digits (Decimal.decimalValue digits)
  | negative {digits : Text} (some_ : digits ≠ []) (decimals : ∀ digit ∈ digits, digit.isDigit = true) :
      Numeral ('-' :: digits) (-Decimal.decimalValue digits)

/-- One node of a tree that conforms to the grammar. -/
structure Node.Conforms (source : Text) (node : Node) : Prop where
  derived : ∀ rule, production node.kind = some rule → Labelled Node.label rule node.parts
  childless : production node.kind = none → node.children = []
  /-- Comments fill no field. What comes after one, unless the root ends there, is
  another one or on a line of its own. -/
  comments : ∀ before comment after, node.children = before ++ comment :: after →
    comment.kind = "comment" → comment.field = none ∧
      match after.head? with
      | none => node.kind = "source_file"
      | some next => next.kind = "comment" ∨ opensLine next.kind = true
  covered : node.kind ≠ "source_file" → ∀ first last, node.children.head? = some first →
    node.children.getLast? = some last → node.span = ⟨first.span.start, last.span.stop⟩
  literal : node.named = false → node.text source = node.kind.toList
  number : node.kind = "number" → ∃ value, Numeral (node.text source) value
  content : node.kind = "string_content" → StringContent (node.text source)
  quoted : node.kind = "single_quoted_string" →
    ∃ content, node.text source = '\'' :: content ++ ['\'']

/-- The node is none that the parser made up to recover from an error. -/
def Node.Genuine (node : Node) : Prop := node.isError = false ∧ node.isMissing = false

/-- An integer literal fits 64 bits. -/
def Node.Fits (source : Text) (node : Node) : Prop :=
  node.kind = "number" → ∀ value, Numeral (node.text source) value → -2 ^ 63 ≤ value ∧ value < 2 ^ 63

/-- An escape of a double-quoted string is a known one. -/
def Node.Unescapable (source : Text) (node : Node) : Prop :=
  node.kind = "string_content" → ∀ char, node.text source = ['\\', char] →
    (escaped? char).isSome = true

/-- A tree that conforms to the grammar, without recovery nodes, with literals
that have a value. -/
structure Node.Sound (source : Text) (root : Node) : Prop where
  conforms : ∀ inner : Node, inner.Under root → inner.Conforms source
  genuine : ∀ inner : Node, inner.Under root → inner.Genuine
  fits : ∀ inner : Node, inner.Under root → inner.Fits source
  unescapable : ∀ inner : Node, inner.Under root → inner.Unescapable source

namespace Node

theorem Sound.child {source : Text} {node child : Node} (sound : node.Sound source)
    (member : child ∈ node.children) : child.Sound source where
  conforms inner under := sound.conforms inner (.deeper member under)
  genuine inner under := sound.genuine inner (.deeper member under)
  fits inner under := sound.fits inner (.deeper member under)
  unescapable inner under := sound.unescapable inner (.deeper member under)

theorem Sound.here {source : Text} {node : Node} (sound : node.Sound source) :
    node.Conforms source :=
  sound.conforms node .here

/-- The children of a node are as the rule of its kind lists them. -/
theorem Sound.derived {source : Text} {node : Node} {kind : String} {rule : Rule}
    (sound : node.Sound source) (same : node.kind = kind) (known : production kind = some rule) :
    Labelled Node.label rule node.parts :=
  sound.here.derived rule (same ▸ known)

theorem mem_of_picked {node child : Node} {picks : Label → Bool}
    (member : child ∈ node.picked picks) : child ∈ node.children ∧ picks child.label = true :=
  List.mem_filter.mp member

theorem mem_of_picked_eq {node child : Node} {picks : Label → Bool}
    (found : node.picked picks = [child]) : child ∈ node.children ∧ picks child.label = true :=
  mem_of_picked (by rw [found]; exact List.mem_singleton_self child)

/-- A node of one of the kinds is of one of them. -/
theorem kind_of_isOf {child : Node} {kinds : List String} (of : isOf kinds child.label = true) :
    child.kind ∈ kinds := by
  simp only [isOf, label, Bool.and_eq_true, List.contains_iff_mem] at of
  exact of.2

/-- A child with a label of a rule that lists only named nodes of the kinds. -/
theorem named_of_label {child : Node} {rule : Rule} (listed : child.label ∈ letters rule)
    (kinds : List String) (all : (letters rule).all (isOf kinds) = true) :
    child.named = true ∧ child.kind ∈ kinds := by
  have of := List.all_eq_true.mp all _ listed
  exact ⟨(Bool.and_eq_true _ _ ▸ of).1, kind_of_isOf of⟩

/-! ## Looking children up -/

theorem childByFieldName_eq (node : Node) (field : String) :
    node.childByFieldName field = (node.picked (fills field)).head? := by
  rw [picked, List.head?_filter]
  rfl

theorem filter_namedChildren (node : Node) (kinds : List String) :
    (node.namedChildren.filter fun child => kinds.contains child.kind) = node.ofKind kinds := by
  rw [namedChildren, List.filter_filter, ofKind, picked]
  refine List.filter_congr fun child _ => ?_
  exact Bool.and_comm _ _

theorem mem_ofKind {node child : Node} {kinds : List String} :
    child ∈ node.ofKind kinds ↔ child ∈ node.namedChildren ∧ child.kind ∈ kinds := by
  rw [← filter_namedChildren, List.mem_filter, List.contains_iff_mem]

theorem filter_namedChildren_kind (node : Node) (kind : String) :
    (node.namedChildren.filter fun child => child.kind == kind) = node.ofKind [kind] := by
  rw [← filter_namedChildren]
  refine List.filter_congr fun child _ => ?_
  rw [List.contains_cons, List.contains_nil, Bool.or_false]

/-- Children of some kinds, among those of more kinds. -/
theorem filter_ofKind (node : Node) (kinds some_ : List String)
    (among : some_.all kinds.contains = true) :
    ((node.ofKind kinds).filter fun child => some_.contains child.kind) = node.ofKind some_ := by
  rw [ofKind, picked, List.filter_filter, ofKind, picked]
  refine List.filter_congr fun child _ => ?_
  rw [Bool.eq_iff_iff]
  simp only [isOf, label, Function.comp_apply, Bool.and_eq_true, List.contains_iff_mem]
  constructor
  · rintro ⟨of, named, -⟩
    exact ⟨named, of⟩
  · rintro ⟨named, of⟩
    exact ⟨of, named, List.contains_iff_mem.mp (List.all_eq_true.mp among _ of)⟩

end Node

/-- Comments are not picked. -/
def skips (picks : Label → Bool) : Bool :=
  !picks ⟨none, "comment", true⟩ && !picks ⟨none, "comment", false⟩

namespace Node.Conforms

variable {source : Text} {node : Node} {rule : Rule} {picks other : Label → Bool}

/-- What the rules settle is picked past the comments. -/
theorem picked_eq (conforms : node.Conforms source) (past : skips picks = true) :
    node.picked picks = node.parts.filter (picks ∘ label) := by
  rw [picked, parts, List.filter_filter]
  refine List.filter_congr fun child member => ?_
  by_cases comment : child.kind = "comment"
  · obtain ⟨before, after, whole⟩ := List.append_of_mem member
    have unfilled := (conforms.comments before child after whole comment).1
    have unpicked : picks child.label = false := by
      rw [skips, Bool.and_eq_true, Bool.not_eq_true', Bool.not_eq_true'] at past
      rw [label, unfilled, comment]
      cases child.named
      · exact past.2
      · exact past.1
    simp [unpicked]
  · simp [comment]

theorem picked_eq_nil (conforms : node.Conforms source) (picks : Label → Bool)
    (derived : Labelled Node.label rule node.parts)
    (past : skips picks = true) (none_ : never picks rule = true) : node.picked picks = [] := by
  rw [conforms.picked_eq past]
  exact derived.filter_eq_nil none_

theorem picked_ne_nil (conforms : node.Conforms source) (picks : Label → Bool)
    (derived : Labelled Node.label rule node.parts) (past : skips picks = true)
    (some_ : atLeastOnce picks rule = true) : node.picked picks ≠ [] := by
  rw [conforms.picked_eq past]
  exact derived.filter_ne_nil some_

theorem picked_length_le (conforms : node.Conforms source) (picks : Label → Bool)
    (derived : Labelled Node.label rule node.parts)
    (past : skips picks = true) (bounded : atMostOnce picks rule = true) :
    (node.picked picks).length ≤ 1 := by
  rw [conforms.picked_eq past]
  exact derived.filter_length_le bounded

theorem picked_eq_singleton (conforms : node.Conforms source) (picks : Label → Bool)
    (derived : Labelled Node.label rule node.parts) (past : skips picks = true)
    (exact_ : once picks rule = true) : ∃ child, node.picked picks = [child] := by
  rw [conforms.picked_eq past]
  exact derived.filter_eq_singleton exact_

theorem picked_congr (conforms : node.Conforms source) (picks other : Label → Bool)
    (derived : Labelled Node.label rule node.parts)
    (past : skips picks = true) (past' : skips other = true)
    (agree : (letters rule).all (fun letter => picks letter == other letter) = true) :
    node.picked picks = node.picked other := by
  rw [conforms.picked_eq past, conforms.picked_eq past']
  exact derived.filter_congr agree

/-- The one child of some kinds fills the field that the rule gives it. -/
theorem field_eq (conforms : node.Conforms source) (field : String) (kinds : List String)
    (derived : Labelled Node.label rule node.parts) (past : skips (isOf kinds) = true)
    (single : once (isOf kinds) rule = true)
    (named : (letters rule).all (fun letter => fills field letter == isOf kinds letter) = true) :
    ∃ child, node.ofKind kinds = [child] ∧ node.childByFieldName field = some child := by
  obtain ⟨child, only⟩ := conforms.picked_eq_singleton (isOf kinds) derived past single
  refine ⟨child, only, ?_⟩
  rw [Node.childByFieldName_eq, conforms.picked_congr (fills field) (isOf kinds) derived
    (by simp [skips, fills]) past named, only]
  rfl

/-- A child that the rule of its parent lists has one of its labels. -/
theorem label_mem (derived : Labelled Node.label rule node.parts)
    {child : Node} (member : child ∈ node.children) (plain : child.kind ≠ "comment") :
    child.label ∈ letters rule :=
  derived.label_mem (List.mem_filter.mpr ⟨member, by simpa using plain⟩)

/-- The kinds of the children that fill a field. -/
theorem kind_of_filled (conforms : node.Conforms source)
    (derived : Labelled Node.label rule node.parts) {field : String} {child : Node}
    (member : child ∈ node.picked (fills field)) (kinds : List String)
    (all : (letters rule).all (fun letter => !fills field letter || kinds.contains letter.kind) = true) :
    child.kind ∈ kinds := by
  rw [conforms.picked_eq (by simp [skips, fills])] at member
  obtain ⟨inside, filled⟩ := List.mem_filter.mp member
  have of := List.all_eq_true.mp all _ (derived.label_mem inside)
  rw [Function.comp_apply] at filled
  rw [filled, Bool.not_true, Bool.false_or] at of
  exact List.contains_iff_mem.mp of

/-- A comment is followed by layout, so where the rule has none there is no comment. -/
theorem children_eq_parts (conforms : node.Conforms source)
    (derived : Labelled Node.label rule node.parts) (inner : node.kind ≠ "source_file")
    (inline : (letters rule).all (fun letter => !opensLine letter.kind) = true) :
    node.children = node.parts := by
  have plain : ∀ after before comment, node.children = before ++ comment :: after →
      comment.kind ≠ "comment" := by
    intro after
    induction after with
    | nil =>
      intro before comment whole same
      exact inner (conforms.comments before comment [] whole same).2
    | cons next after ih =>
      intro before comment whole same
      have later := ih (before ++ [comment]) next (by simpa using whole)
      rcases (conforms.comments before comment (next :: after) whole same).2 with again | opens
      · exact later again
      · have member : next ∈ node.children := by simp [whole]
        have listed := label_mem derived member later
        have closed := List.all_eq_true.mp inline _ listed
        simp [label, opens] at closed
  symm
  rw [parts, List.filter_eq_self]
  intro child member
  obtain ⟨before, after, whole⟩ := List.append_of_mem member
  simpa using plain after before child whole

/-- A rule that lists one child. -/
theorem only_child (conforms : node.Conforms source) (derived : Labelled Node.label rule node.parts)
    (inner : node.kind ≠ "source_file")
    (inline : (letters rule).all (fun letter => !opensLine letter.kind) = true)
    (single : once (fun _ => true) rule = true) :
    ∃ child, node.children = [child] ∧ node.parts = [child] ∧ child.label ∈ letters rule := by
  obtain ⟨child, only⟩ := derived.filter_eq_singleton single
  have parts : node.parts = [child] := by
    rw [← only]
    exact (List.filter_eq_self.mpr fun _ _ => rfl).symm
  refine ⟨child, ?_, parts, ?_⟩
  · rw [conforms.children_eq_parts derived inner inline, parts]
  · exact derived.label_mem (by rw [parts]; exact List.mem_singleton_self child)

/-- Where there is no comment, what the rule calls named is what is named. -/
theorem firstNamed_eq (conforms : node.Conforms source) (picks : Label → Bool)
    (derived : Labelled Node.label rule node.parts) (inner : node.kind ≠ "source_file")
    (inline : (letters rule).all (fun letter => !opensLine letter.kind) = true)
    (agree : (letters rule).all (fun letter => letter.named == picks letter) = true) :
    node.firstNamed = (node.picked picks).head? := by
  have whole := conforms.children_eq_parts derived inner inline
  rw [Node.firstNamed, Node.namedChildren, Node.picked, whole]
  exact congrArg List.head? (derived.filter_congr agree)

/-- The one child of some kinds is the first that is named. -/
theorem firstNamed_only (conforms : node.Conforms source) (kinds : List String)
    (derived : Labelled Node.label rule node.parts) (inner : node.kind ≠ "source_file")
    (past : skips (isOf kinds) = true) (single : once (isOf kinds) rule = true)
    (inline : (letters rule).all (fun letter => !opensLine letter.kind) = true)
    (agree : (letters rule).all (fun letter => letter.named == isOf kinds letter) = true) :
    ∃ child, node.ofKind kinds = [child] ∧ node.firstNamed = some child := by
  obtain ⟨child, only⟩ := conforms.picked_eq_singleton (isOf kinds) derived past single
  refine ⟨child, only, ?_⟩
  rw [conforms.firstNamed_eq (isOf kinds) derived inner inline agree, only]
  rfl

end Node.Conforms

/-- Of what is picked, the first part of a sequence has one child, which fills one
role, and the second part has the others, which fill the other role. -/
def leads (picks front back : Label → Bool) (left right : Rule) : Bool :=
  skips picks && skips front && skips back && once picks left &&
    (letters left).all (fun letter => picks letter == front letter) && never front right &&
    never back left && (letters right).all (fun letter => picks letter == back letter)

theorem Node.Conforms.picked_cons {source : Text} {node : Node} {left right : Rule}
    (conforms : node.Conforms source) (picks front back : Label → Bool)
    (derived : Labelled Node.label (left * right) node.parts)
    (roles : leads picks front back left right = true) :
    ∃ child, node.picked picks = child :: node.picked back ∧ node.picked front = [child] := by
  simp only [leads, Bool.and_eq_true] at roles
  obtain ⟨⟨⟨⟨⟨⟨⟨past, pastFront⟩, pastBack⟩, first⟩, fronts⟩, noFront⟩, noBack⟩, backs⟩ := roles
  obtain ⟨before, after, parts, begins, ends⟩ := derived.split
  obtain ⟨child, here⟩ := begins.filter_eq_singleton first
  refine ⟨child, ?_, ?_⟩
  · rw [conforms.picked_eq past, conforms.picked_eq pastBack, parts, List.filter_append,
      List.filter_append, here, begins.filter_eq_nil noBack, ends.filter_congr backs]
    rfl
  · rw [conforms.picked_eq pastFront, parts, List.filter_append, ends.filter_eq_nil noFront,
      List.append_nil, ← begins.filter_congr fronts, here]

end Ill.Lower
