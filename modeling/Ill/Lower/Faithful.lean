import Ill.Base.Related
import Ill.Lower.FaithfulExpr

/-!
# Lowering keeps every construct

On a sound tree every pass of lowering reports nothing and returns what the node
denotes: markers, keyword arguments, statements, declarations, and the file. A
tree with an ERROR or MISSING node anywhere is not lowered.
-/

namespace Ill.Lower

open Base Base.Utf8 Base.Regular Base.Reporting Ast Grammar

section

variable {source : Text}

/-! ## Children that may be absent -/

/-- At most one child is lowered to at most one value. -/
theorem lowerIfPresent_quietly {α : Type} {lower : Node → Lowering (Option α)}
    {relation : Node → α → Prop} {items : List Node} (short : items.length ≤ 1)
    (lowers : ∀ item ∈ items, (lower item).Gives (relation item)) :
    (lowerIfPresent lower items.head?).Quietly
      fun value => List.Forall₂ relation items value.toList := by
  cases items with
  | nil => exact .pure .nil
  | cons item rest =>
    cases rest with
    | nil =>
      refine Quietly.mono (lowers item List.mem_cons_self) fun value first => ?_
      obtain ⟨kept, rfl, holds⟩ := first
      exact .cons holds .nil
    | cons other rest => simp at short

/-- Expressions among the children are lowered to what they denote. -/
theorem lowerExpression_child {node inner : Node} (sound : node.Sound source)
    (member : inner ∈ node.expressions) :
    (lowerExpression source inner).Gives (Denotes source inner) := by
  obtain ⟨inside, of⟩ := Node.mem_of_picked member
  exact lowerExpression_gives inner (sound.child inside) (Node.kind_of_isOf of)

/-- A pass over the children of one kind. -/
theorem each_kind_quietly {α : Type} {lower : Node → Lowering (Option α)}
    {relation : Node → α → Prop} {node : Node} (sound : node.Sound source) (kind : String)
    (lowers : ∀ child : Node, child.Sound source → child.kind = kind →
      (lower child).Gives (relation child)) :
    (each lower (node.namedChildren.filter fun child => child.kind == kind)).Quietly
      (List.Forall₂ relation (node.ofKind [kind])) := by
  rw [Node.filter_namedChildren_kind]
  refine Quietly.each_all fun child inside => ?_
  obtain ⟨member, of⟩ := Node.mem_of_picked inside
  exact lowers child (sound.child member) (List.mem_singleton.mp (Node.kind_of_isOf of))

/-! ## Annotations -/

theorem extractStringText_quietly {node : Node} (sound : node.Sound source)
    (kind : node.kind = "string") : (extractStringText source node).Quietly (DenotesText source node) := by
  have derived := sound.derived kind rfl
  obtain ⟨inner, only, parts, listed⟩ := sound.here.only_child derived (by rw [kind]; decide) (by decide)
    (by decide)
  obtain ⟨named, kinds⟩ :=
    Node.named_of_label listed ["double_quoted_string", "single_quoted_string"] (by decide)
  have first : node.firstNamed = some inner := by
    simp [Node.firstNamed, Node.namedChildren, only, named]
  have within := sound.child (only ▸ List.mem_singleton_self inner)
  simp only [List.mem_cons, List.not_mem_nil, or_false] at kinds
  rw [extractStringText, first]
  rcases kinds with double | single
  · have texts := Node.filter_namedChildren_kind inner "string_content"
    simp only [double, texts]
    exact .pure (.doubleQuoted kind parts double)
  · obtain ⟨content, quoted⟩ := within.here.quoted single
    simp only [single, quoted, unquote_quoted]
    exact .pure (.singleQuoted kind parts single quoted)

theorem lowerAnnotationValue_gives {node : Node} (sound : node.Sound source)
    (kinds : node.kind ∈ ["identifier", "string"]) :
    (lowerAnnotationValue source node).Gives (DenotesText source node) := by
  simp only [List.mem_cons, List.not_mem_nil, or_false] at kinds
  rw [lowerAnnotationValue]
  rcases kinds with kind | kind
  · rw [kind]
    exact .pure (.identifier kind)
  · rw [kind]
    exact .bindQuietly (extractStringText_quietly sound kind) fun text denotes => .pure denotes

/-- The value of an annotation is all that its holder has. -/
theorem namedChildren_holder {holder : Node} (sound : holder.Sound source)
    (kind : holder.kind = "annotation_value") :
    holder.namedChildren = holder.ofKind ["identifier", "string"] ∧
      (holder.ofKind ["identifier", "string"]).length = 1 := by
  have derived := sound.derived kind rfl
  obtain ⟨inner, only, parts, listed⟩ := sound.here.only_child derived (by rw [kind]; decide) (by decide)
    (by decide)
  obtain ⟨named, kinds⟩ := Node.named_of_label listed ["identifier", "string"] (by decide)
  have of : isOf ["identifier", "string"] inner.label = true := by
    rw [isOf, Bool.and_eq_true]
    exact ⟨named, List.contains_iff_mem.mpr kinds⟩
  have picked : [inner].filter (isOf ["identifier", "string"] ∘ Node.label) = [inner] :=
    List.filter_cons_of_pos of
  rw [Node.ofKind, Node.picked, Node.namedChildren, only, picked, List.filter_cons_of_pos named]
  exact ⟨rfl, rfl⟩

theorem lowerAnnotation_gives {node : Node} (sound : node.Sound source)
    (kind : node.kind = "annotation") :
    ( lowerAnnotation source node).Gives (DenotesMarker source node) := by
  have derived := sound.derived kind rfl
  obtain ⟨name, names⟩ := sound.here.picked_eq_singleton (isOf ["annotation_name"]) derived (by decide)
    (by decide)
  have held : ∀ holder ∈ node.ofKind ["annotation_value"], holder.Sound source ∧
      holder.kind = "annotation_value" := by
    intro holder inside
    obtain ⟨member, of⟩ := Node.mem_of_picked inside
    exact ⟨sound.child member, List.mem_singleton.mp (Node.kind_of_isOf of)⟩
  have values : (node.ofKind ["annotation_value"]).flatMap Node.namedChildren = annotationValues node :=
    List.flatMap_congr fun holder inside =>
      (namedChildren_holder (held holder inside).1 (held holder inside).2).1
  have short : (annotationValues node).length ≤ 1 := by
    have holders := sound.here.picked_length_le (isOf ["annotation_value"]) derived (by decide) (by decide)
    refine length_flatMap_le holders fun holder inside => ?_
    exact Nat.le_of_eq (namedChildren_holder (held holder inside).1 (held holder inside).2).2
  have each : (each (lowerAnnotationValue source) (annotationValues node)).Quietly
      (List.Forall₂ (DenotesText source) (annotationValues node)) := by
    refine Quietly.each_all fun value inside => ?_
    obtain ⟨holder, holds, within⟩ := List.mem_flatMap.mp inside
    obtain ⟨member, of⟩ := Node.mem_of_picked within
    exact lowerAnnotationValue_gives ((held holder holds).1.child member) (Node.kind_of_isOf of)
  rw [ lowerAnnotation]
  simp only [Node.filter_namedChildren_kind, values]
  refine .bindQuietly each fun texts denotes => ?_
  rw [Node.ofKind, names]
  refine .pure ⟨⟨name, names, rfl⟩, ?_, rfl⟩
  rw [toList_getLast? (denotes.length_eq ▸ short)]
  exact denotes

/-! ## Keyword arguments -/

theorem lowerKeywordPair_gives {node : Node} (sound : node.Sound source)
    (kind : node.kind = "keyword_pair") :
    (lowerKeywordPair source node).Gives (DenotesPair source node) := by
  have derived := sound.derived kind rfl
  obtain ⟨key, sides, keys⟩ := sound.here.picked_cons (isOf expressionKinds) (fills "key")
    (fills "value") derived (by decide)
  obtain ⟨value, values⟩ := sound.here.picked_eq_singleton (fills "value") derived (by decide) (by decide)
  rw [values] at sides
  have member {inner : Node} (inside : inner ∈ [key, value]) : inner ∈ node.expressions := by
    rw [Node.expressions, Node.ofKind, sides]
    exact inside
  rw [lowerKeywordPair, Node.childByFieldName_eq, Node.childByFieldName_eq, keys, values]
  refine .bind (lowerExpression_child sound (member List.mem_cons_self)) fun first denotes => ?_
  refine .bind (lowerExpression_child sound (member (List.mem_cons_of_mem _ List.mem_cons_self)))
    fun second denotes' => ?_
  exact .pure ⟨key, value, sides, denotes, denotes'⟩

/-- A sequence that ends in a field with two alternatives. -/
theorem labelled_last_choice (before : List Rule) {left right : Rule} {name : String}
    {items : List Node} (derived : Labelled Node.label
      (Rule.seq (before ++ [Rule.field name (Rule.choice [left, right])])) items) :
    Labelled Node.label (Rule.seq (before ++ [Rule.field name left])) items ∨
      Labelled Node.label (Rule.seq (before ++ [Rule.field name right])) items := by
  induction before generalizing items with
  | nil =>
    obtain ⟨first, second, rfl, begins, ends⟩ := derived.split
    have alternatives : Labelled Node.label (Rule.field name left + (Rule.field name right + 0)) first :=
      begins
    rcases alternatives.choice with here | others
    · exact .inl (here.join ends)
    · rcases others.choice with there | nowhere
      · exact .inr (there.join ends)
      · exact absurd nowhere (Language.notMem_zero _)
  | cons rule before ih =>
    obtain ⟨first, second, rfl, begins, ends⟩ := derived.split
    exact (ih ends).imp begins.join begins.join

theorem lowerKeywordArg_gives {node : Node} (sound : node.Sound source)
    (kind : node.kind = "keyword_arg") :
    (lowerKeywordArg source node).Gives (DenotesArg source node) := by
  have derived := sound.derived kind rfl
  rw [lowerKeywordArg]
  refine .bind (lowerIdentField_gives sound.here derived (by decide) (by decide)) fun key names => ?_
  refine .bindQuietly (each_kind_quietly sound "keyword_pair" fun child within of =>
    lowerKeywordPair_gives within of) fun pairs each => ?_
  rcases labelled_last_choice
    [Rule.field "key" Rule.identifier, Rule.literal ":"] derived with block | single
  · have some_ := sound.here.picked_ne_nil (isOf ["keyword_pair"]) block (by decide) (by decide)
    have none_ := sound.here.picked_eq_nil (isOf expressionKinds) block (by decide) (by decide)
    have nonempty : pairs.isEmpty = false := by
      refine List.isEmpty_eq_false_iff.mpr fun none_ => some_ ?_
      exact List.eq_nil_of_length_eq_zero (each.length_eq.trans (none_ ▸ List.length_nil))
    rw [nonempty]
    exact .pure ⟨names, .map none_ each, rfl⟩
  · have none_ := sound.here.picked_eq_nil (isOf ["keyword_pair"]) single (by decide) (by decide)
    obtain ⟨value, exprs, found⟩ := sound.here.field_eq "value" expressionKinds
      single (by decide) (by decide) (by decide)
    have member : value ∈ node.expressions := by
      rw [Node.expressions, exprs]
      exact List.mem_singleton_self value
    rw [Node.ofKind, none_] at each
    cases each
    rw [List.isEmpty_nil, if_pos rfl, found]
    refine .bind (lowerExpression_child sound member) fun expr denotes => ?_
    exact .pure ⟨names, .expr none_ exprs denotes, rfl⟩

theorem collectKeywordArgs_quietly {node : Node} (sound : node.Sound source) :
    (collectKeywordArgs source node).Quietly
      (List.Forall₂ (DenotesArg source) (node.ofKind ["keyword_arg"])) :=
  each_kind_quietly sound "keyword_arg" fun _ within of => lowerKeywordArg_gives within of

/-! ## Commands -/

/-- What a child of a command becomes. -/
inductive DenotesPart (source : Text) : Node → CommandPart → Prop where
  | annotated {node : Node} {marker : Annotation} (kind : node.kind = "annotation")
      (denotes : DenotesMarker source node marker) : DenotesPart source node (.annotated (some marker))
  | keywordArgs {node : Node} {args : List KeywordArg}
      (kinds : node.kind ∈ ["keyword_block", "inline_keyword_args"])
      (each : List.Forall₂ (DenotesArg source) (node.ofKind ["keyword_arg"]) args) :
      DenotesPart source node (.keywordArgs args)
  | positional {node : Node} {expr : Expr} (kinds : node.kind ∈ expressionKinds)
      (denotes : Denotes source node expr) : DenotesPart source node (.positional expr)

/-- The children of a command that it is made of, besides its name. -/
def partKinds : List String :=
  ["annotation", "keyword_block", "inline_keyword_args"] ++ expressionKinds

theorem lowerCommandPart_gives {child : Node} (sound : child.Sound source)
    (kinds : child.kind ∈ partKinds) :
    (lowerCommandPart source child).Gives (DenotesPart source child) := by
  simp only [partKinds, expressionKinds, List.mem_append, List.mem_cons, List.not_mem_nil,
    or_false] at kinds
  rw [lowerCommandPart]
  rcases kinds with (kind | kind | kind) | kind | kind | kind
  · rw [kind]
    refine .bindQuietly (lowerAnnotation_gives sound kind) fun value given => ?_
    obtain ⟨marker, same, denotes⟩ := given
    rw [same]
    exact .pure (.annotated kind denotes)
  · rw [kind]
    exact .bindQuietly (collectKeywordArgs_quietly sound) fun args each =>
      .pure (.keywordArgs (by rw [kind]; decide) each)
  · rw [kind]
    exact .bindQuietly (collectKeywordArgs_quietly sound) fun args each =>
      .pure (.keywordArgs (by rw [kind]; decide) each)
  all_goals
    have of : child.kind ∈ expressionKinds := by rw [kind]; decide
    rw [kind]
    exact .bind (lowerExpression_gives child sound of) fun expr denotes => .pure (.positional of denotes)

theorem lowerCommandPart_other {child : Node} (other : partKinds.contains child.kind = false) :
    lowerCommandPart source child = pure none := by
  unfold lowerCommandPart
  split
  case h_7 => rfl
  all_goals
    next kind =>
    rw [kind] at other
    exact absurd other (by decide)

theorem lowerCommandParts_quietly {node : Node} (sound : node.Sound source) :
    (each (lowerCommandPart source) node.namedChildren).Quietly
      (List.Forall₂ (DenotesPart source) (node.ofKind partKinds)) := by
  rw [← Node.filter_namedChildren]
  refine Quietly.each (fun child inside kept => ?_) fun child inside dropped => ?_
  · exact lowerCommandPart_gives (sound.child (Node.mem_of_namedChildren inside))
      (List.contains_iff_mem.mp kept)
  · rw [lowerCommandPart_other dropped]
    exact .pure rfl

/-- A marker that a command may have. -/
def DenotesMarker? (source : Text) (node : Node) (marker : Option Annotation) : Prop :=
  ∃ kept, marker = some kept ∧ DenotesMarker source node kept

theorem markers_of_parts {node : Node} {parts : List CommandPart}
    (each : List.Forall₂ (DenotesPart source) (node.ofKind partKinds) parts) :
    List.Forall₂ (DenotesMarker? source) (node.ofKind ["annotation"])
      (parts.filterMap CommandPart.marker?) := by
  rw [← Node.filter_ofKind node partKinds ["annotation"] (by decide)]
  refine forall₂_filterMap each (fun child part denotes kept => ?_) fun child part denotes dropped => ?_
  · cases denotes with
    | annotated kind denotes => exact ⟨_, rfl, _, rfl, denotes⟩
    | keywordArgs kinds =>
      simp only [List.mem_cons, List.not_mem_nil, or_false] at kinds
      rcases kinds with kind | kind <;> simp [kind] at kept
    | positional kinds =>
      simp only [expressionKinds, List.mem_cons, List.not_mem_nil, or_false] at kinds
      rcases kinds with kind | kind | kind <;> simp [kind] at kept
  · cases denotes with
    | annotated kind => simp [kind] at dropped
    | keywordArgs | positional => rfl

/-- The last of at most one marker is that marker. -/
theorem last_marker {nodes : List Node} {markers : List (Option Annotation)}
    (short : nodes.length ≤ 1) (each : List.Forall₂ (DenotesMarker? source) nodes markers) :
    List.Forall₂ (DenotesMarker source) nodes markers.getLast?.join.toList := by
  cases each with
  | nil => exact .nil
  | cons here rest =>
    cases rest with
    | nil =>
      obtain ⟨kept, rfl, denotes⟩ := here
      exact .cons denotes .nil
    | cons => simp at short

theorem lowerCommand_gives {node : Node} (sound : node.Sound source) (kind : node.kind = "command") :
    (lowerCommand source node).Gives (DenotesCommand source node) := by
  have derived := sound.derived kind rfl
  have short := sound.here.picked_length_le (isOf ["annotation"]) derived (by decide) (by decide)
  rw [lowerCommand]
  refine .bind (lowerIdentField_gives sound.here derived (by decide) (by decide)) fun name names => ?_
  refine .bindQuietly (lowerCommandParts_quietly sound) fun parts each => .pure ?_
  refine ⟨last_marker short (markers_of_parts each), names, ?_, ?_, rfl⟩
  · rw [Node.expressions, ← Node.filter_ofKind node partKinds expressionKinds (by decide)]
    refine forall₂_filterMap each (fun child part denotes kept => ?_) fun child part denotes dropped => ?_
    · cases denotes with
      | annotated kind => simp [kind, expressionKinds] at kept
      | keywordArgs kinds =>
        simp only [List.mem_cons, List.not_mem_nil, or_false] at kinds
        rcases kinds with kind | kind <;> simp [kind, expressionKinds] at kept
      | positional kinds denotes => exact ⟨_, rfl, denotes⟩
    · cases denotes with
      | annotated | keywordArgs => rfl
      | positional kinds => simp [kinds] at dropped
  · rw [keywordArgsOf, ← Node.filter_ofKind node partKinds _ (by decide)]
    refine forall₂_flatMap each (fun child part denotes kept => ?_) fun child part denotes dropped => ?_
    · cases denotes with
      | annotated kind => simp [kind] at kept
      | keywordArgs kinds each => exact each
      | positional kinds =>
        simp only [expressionKinds, List.mem_cons, List.not_mem_nil, or_false] at kinds
        rcases kinds with kind | kind | kind <;> simp [kind] at kept
    · cases denotes with
      | annotated | positional => rfl
      | keywordArgs kinds => rw [List.contains_iff_mem.mpr kinds] at dropped; simp at dropped

/-! ## Other statements -/

theorem lowerComparisonOp_of {node : Node} {op : ComparisonOp}
    (spells : comparisonOf? (textOf source node) = some op) :
    lowerComparisonOp source node = pure (some op) := by
  unfold comparisonOf? at spells
  split at spells
  case h_11 => simp at spells
  all_goals
    next text =>
    obtain rfl := Option.some.inj spells
    rw [lowerComparisonOp, text]
    rfl

theorem lowerComparisonOp_gives {node : Node} (sound : node.Sound source)
    (kind : node.kind = "comparison_operator") :
    (lowerComparisonOp source node).Gives (DenotesOperator node) := by
  have derived := sound.derived kind rfl
  obtain ⟨word, parts, text, listed⟩ := textOf_literal sound derived (by rw [kind]; decide) (by decide)
    (by decide) (by decide)
  have spelled : (letters Rule.comparisonOperator).all
      (fun letter => (comparisonOf? letter.kind).isSome) = true := by decide
  obtain ⟨op, spells⟩ := Option.isSome_iff_exists.mp (List.all_eq_true.mp spelled _ listed)
  have lowered : lowerComparisonOp source node = pure (some op) := by
    refine lowerComparisonOp_of ?_
    rw [text]
    exact spells
  rw [lowered]
  exact .pure ⟨word, parts, spells⟩

/-- The annotation that a statement may have. -/
theorem lowerMarker_quietly {node : Node} {rule : Rule} (sound : node.Sound source)
    (derived : Labelled Node.label rule node.parts)
    (bounded : atMostOnce (isOf ["annotation"]) rule = true) :
    (lowerIfPresent (fun child => lowerAnnotation source child)
      (node.namedChildren.find? fun child => child.kind == "annotation")).Quietly
      fun marker => List.Forall₂ (DenotesMarker source) (node.ofKind ["annotation"]) marker.toList := by
  have short := sound.here.picked_length_le (isOf ["annotation"]) derived (by decide) bounded
  rw [← List.head?_filter, Node.filter_namedChildren_kind]
  refine lowerIfPresent_quietly short fun child inside => ?_
  obtain ⟨member, of⟩ := Node.mem_of_picked inside
  exact lowerAnnotation_gives (sound.child member) (List.mem_singleton.mp (Node.kind_of_isOf of))

/-- A field that at most one child fills, of the kinds that only it has. -/
theorem lowerField_quietly {α : Type} {lower : Node → Lowering (Option α)}
    {relation : Node → α → Prop} {node : Node} {rule : Rule} (sound : node.Sound source)
    (derived : Labelled Node.label rule node.parts) (field : String) (kinds : List String)
    (past : skips (isOf kinds) = true)
    (named : (letters rule).all (fun letter => fills field letter == isOf kinds letter) = true)
    (bounded : atMostOnce (isOf kinds) rule = true)
    (lowers : ∀ child : Node, child.Sound source → child.kind ∈ kinds →
      (lower child).Gives (relation child)) :
    (lowerIfPresent lower (node.childByFieldName field)).Quietly
      fun value => List.Forall₂ relation (node.ofKind kinds) value.toList := by
  have short := sound.here.picked_length_le (isOf kinds) derived past bounded
  rw [Node.childByFieldName_eq, sound.here.picked_congr (fills field) (isOf kinds) derived
    (by simp [skips, fills]) past named]
  refine lowerIfPresent_quietly short fun child inside => ?_
  obtain ⟨member, of⟩ := Node.mem_of_picked inside
  exact lowers child (sound.child member) (Node.kind_of_isOf of)

theorem lowerAssert_gives {node : Node} (sound : node.Sound source)
    (kind : node.kind = "assert_statement") :
    (lowerAssert source node).Gives (DenotesAssert source node) := by
  have derived := sound.derived kind rfl
  have grouped := derived.assoc.assoc
  obtain ⟨left, sides, lefts⟩ := sound.here.picked_cons (isOf expressionKinds) (fills "left")
    (fills "right") grouped (by decide)
  have short := sound.here.picked_length_le (fills "right") derived (by decide) (by decide)
  have member {inner : Node} (inside : inner ∈ left :: node.picked (fills "right")) :
      inner ∈ node.expressions := by
    rw [Node.expressions, Node.ofKind, sides]
    exact inside
  rw [lowerAssert, Node.childByFieldName_eq, lefts, Node.childByFieldName_eq node "right"]
  refine .bind (lowerExpression_child sound (member List.mem_cons_self)) fun first denotes => ?_
  refine .bindQuietly (lowerField_quietly sound derived "operator" ["comparison_operator"] (by decide)
    (by decide) (by decide) fun child within of =>
      lowerComparisonOp_gives within (List.mem_singleton.mp of)) fun op operator => ?_
  refine .bindQuietly (lowerIfPresent_quietly short fun inner inside =>
    lowerExpression_child sound (member (List.mem_cons_of_mem _ inside))) fun right denotes' => ?_
  refine .bindQuietly (lowerMarker_quietly sound derived (by decide)) fun marker markers => ?_
  refine .pure ⟨markers, ?_, operator, rfl⟩
  rw [Node.expressions, Node.ofKind, sides]
  exact .cons denotes denotes'

theorem lowerParseExpression_gives {outer node : Node} (sound : node.Sound source)
    (kind : node.kind = "parse_expression") (none_ : outer.expressions = [])
    (parses : outer.ofKind ["parse_expression"] = [node]) :
    (lowerParseExpression source node).Gives (DenotesLetValue source outer) := by
  have derived := sound.derived kind rfl
  obtain ⟨value, exprs, found⟩ := sound.here.field_eq "source" expressionKinds
    derived (by decide) (by decide) (by decide)
  have member : value ∈ node.expressions := by
    rw [Node.expressions, exprs]
    exact List.mem_singleton_self value
  rw [lowerParseExpression, found]
  refine .bind (lowerIdentField_gives sound.here derived (by decide) (by decide)) fun format names => ?_
  refine .bind (lowerExpression_child sound member) fun expr denotes => ?_
  exact .pure (.parse none_ parses exprs denotes names)

theorem lowerLetValue_gives {node : Node} (sound : node.Sound source)
    (kind : node.kind = "let_statement") :
    (lowerIfPresent (lowerLetValue source) (node.childByFieldName "value")).Gives
      (DenotesLetValue source node) := by
  have derived := sound.derived kind rfl
  rcases labelled_last_choice
    [Rule.literal "let", Rule.field "name" Rule.identifier, Rule.literal "="] derived with parses | single
  · have none_ := sound.here.picked_eq_nil (isOf expressionKinds) parses (by decide) (by decide)
    obtain ⟨inner, inners, found⟩ := sound.here.field_eq "value"
      ["parse_expression"] parses (by decide) (by decide) (by decide)
    obtain ⟨member, of⟩ := Node.mem_of_picked_eq inners
    have kind := List.mem_singleton.mp (Node.kind_of_isOf of)
    rw [found]
    change (lowerLetValue source inner).Gives _
    rw [lowerLetValue, kind]
    exact lowerParseExpression_gives (sound.child member) kind none_ inners
  · have none_ := sound.here.picked_eq_nil (isOf ["parse_expression"]) single (by decide) (by decide)
    obtain ⟨value, exprs, found⟩ := sound.here.field_eq "value" expressionKinds
      single (by decide) (by decide) (by decide)
    obtain ⟨member, of⟩ := Node.mem_of_picked_eq exprs
    have kinds := Node.kind_of_isOf of
    have other : (value.kind == "parse_expression") = false := by
      simp only [expressionKinds, List.mem_cons, List.not_mem_nil, or_false] at kinds
      rcases kinds with kind | kind | kind <;> (rw [kind]; decide)
    rw [found]
    change (lowerLetValue source value).Gives _
    rw [lowerLetValue, other]
    refine .bind (lowerExpression_gives value (sound.child member) kinds) fun expr denotes => ?_
    exact .pure (.expr none_ exprs denotes)

theorem lowerLet_gives {node : Node} (sound : node.Sound source) (kind : node.kind = "let_statement") :
    (lowerLet source node).Gives (DenotesLet source node) := by
  have derived := sound.derived kind rfl
  rw [lowerLet]
  refine .bind (lowerIdentField_gives sound.here derived (by decide) (by decide)) fun name names => ?_
  exact .bind (lowerLetValue_gives sound kind) fun value denotes => .pure ⟨names, denotes, rfl⟩

/-- A target is lowered as an expression, also where it is a plain identifier. -/
theorem lowerTarget_gives {node : Node} (sound : node.Sound source)
    (kinds : node.kind ∈ ["member_expression", "identifier"]) :
    (lowerExpression source node).Gives (DenotesTarget source node) := by
  simp only [List.mem_cons, List.not_mem_nil, or_false] at kinds
  rcases kinds with kind | kind
  · have of : node.kind ∈ expressionKinds := by rw [kind]; decide
    exact Gives.mono (lowerExpression_gives node sound of) fun expr denotes => .member denotes
  · rw [lowerExpression]
    simp only [kind]
    rw [lowerPrimary, kind]
    exact .pure (.identifier kind)

theorem lowerAssignment_gives {node : Node} (sound : node.Sound source)
    (kind : node.kind = "assignment_statement") :
    (lowerAssignment source node).Gives (DenotesAssignment source node) := by
  have derived := sound.derived kind rfl
  obtain ⟨target, sides, targets⟩ := sound.here.picked_cons (isOf ("identifier" :: expressionKinds))
    (fills "target") (fills "value") derived (by decide)
  obtain ⟨value, values⟩ := sound.here.picked_eq_singleton (fills "value") derived (by decide) (by decide)
  have ofTarget := sound.here.kind_of_filled derived (targets ▸ List.mem_singleton_self target)
    ["member_expression", "identifier"] (by decide)
  have ofValue := sound.here.kind_of_filled derived (values ▸ List.mem_singleton_self value)
    expressionKinds (by decide)
  have first := sound.child (Node.mem_of_picked_eq targets).1
  have second := sound.child (Node.mem_of_picked_eq values).1
  rw [values] at sides
  rw [lowerAssignment, Node.childByFieldName_eq, Node.childByFieldName_eq, targets, values]
  refine .bind (lowerTarget_gives first ofTarget) fun left denotes => ?_
  refine .bind (lowerExpression_gives value second ofValue) fun right denotes' => ?_
  exact .pure ⟨⟨target, value, sides, denotes, denotes'⟩, rfl⟩

theorem lowerStatement_gives {node : Node} (sound : node.Sound source)
    (kinds : node.kind ∈ statementKinds) :
    (lowerStatement source node).Gives (DenotesStatement source node) := by
  simp only [statementKinds, List.mem_cons, List.not_mem_nil, or_false] at kinds
  rw [lowerStatement]
  rcases kinds with kind | kind | kind | kind
  · rw [kind]
    refine .bindQuietly (lowerCommand_gives sound kind) ?_
    rintro value ⟨command, same, denotes⟩
    rw [same]
    exact .pure (.command kind denotes)
  · rw [kind]
    refine .bindQuietly (lowerAssert_gives sound kind) ?_
    rintro value ⟨assert, same, denotes⟩
    rw [same]
    exact .pure (.assert kind denotes)
  · rw [kind]
    refine .bindQuietly (lowerLet_gives sound kind) ?_
    rintro value ⟨letStmt, same, denotes⟩
    rw [same]
    exact .pure (.let kind denotes)
  · rw [kind]
    refine .bindQuietly (lowerAssignment_gives sound kind) ?_
    rintro value ⟨assignment, same, denotes⟩
    rw [same]
    exact .pure (.assignment kind denotes)

/-- Layout and comments in a block are passed over. -/
theorem lowerStatement_layout {node : Node}
    (kinds : node.kind ∈ ["NEWLINE", "INDENT", "DEDENT", "comment"]) :
    lowerStatement source node = pure none := by
  simp only [List.mem_cons, List.not_mem_nil, or_false] at kinds
  rw [lowerStatement]
  rcases kinds with kind | kind | kind | kind <;> (rw [kind]; rfl)

/-- The kinds of the children of a node, comments included. -/
theorem kind_of_child {node child : Node} {rule : Rule}
    (derived : Labelled Node.label rule node.parts) (member : child ∈ node.children)
    (kinds : List String) (all : (letters rule).all (fun letter => kinds.contains letter.kind) = true) :
    child.kind = "comment" ∨ child.kind ∈ kinds := by
  by_cases comment : child.kind = "comment"
  · exact .inl comment
  · have listed := Node.Conforms.label_mem derived member comment
    exact .inr (List.contains_iff_mem.mp (List.all_eq_true.mp all _ listed))

theorem lowerBlock_quietly {node : Node} (sound : node.Sound source) (kind : node.kind = "block") :
    (lowerBlock source node).Quietly
      (List.Forall₂ (DenotesStatement source) (node.ofKind statementKinds)) := by
  have derived := sound.derived kind rfl
  rw [lowerBlock, ← Node.filter_namedChildren]
  refine Quietly.each (fun child inside kept => ?_) fun child inside dropped => ?_
  · exact lowerStatement_gives (sound.child (Node.mem_of_namedChildren inside))
      (List.contains_iff_mem.mp kept)
  · have layout : child.kind ∈ ["NEWLINE", "INDENT", "DEDENT", "comment"] := by
      have listed := kind_of_child derived (Node.mem_of_namedChildren inside)
        (["NEWLINE", "INDENT", "DEDENT"] ++ statementKinds) (by decide)
      rcases listed with comment | listed
      · rw [comment]
        decide
      · rcases List.mem_append.mp listed with layout | statement
        · exact List.mem_append_left ["comment"] layout
        · rw [List.contains_iff_mem.mpr statement] at dropped
          simp at dropped
    rw [lowerStatement_layout layout]
    exact .pure rfl

/-! ## Top-level items -/

/-- A pass that joins what the children of one kind hold. -/
theorem lowerParts_quietly {α : Type} {lower : Node → Lowering (List α)}
    {relation : Node → α → Prop} {node : Node} (sound : node.Sound source) (kind : String)
    (pieces : Node → List Node)
    (lowers : ∀ child : Node, child.Sound source → child.kind = kind →
      (lower child).Quietly (List.Forall₂ relation (pieces child))) :
    (lowerParts kind lower node).Quietly
      (List.Forall₂ relation ((node.ofKind [kind]).flatMap pieces)) := by
  rw [lowerParts]
  refine Quietly.bind (each_kind_quietly sound kind fun child within of =>
    Gives.bindQuietly (lowers child within of) fun items each => Gives.pure each) fun values each => .pure ?_
  rw [List.flatMap_def]
  exact List.rel_flatten (List.forall₂_map_left_iff.mpr each)

theorem lowerAsBlock_gives {node : Node} (sound : node.Sound source) (kind : node.kind = "as_block") :
    (lowerAsBlock source node).Gives (DenotesAsBlock source node) := by
  have derived := sound.derived kind rfl
  rw [lowerAsBlock]
  refine .bind (lowerIdentField_gives sound.here derived (by decide) (by decide)) fun actor names => ?_
  refine .bindQuietly (lowerParts_quietly sound "block" _ fun child within of =>
    lowerBlock_quietly within of) fun body each => ?_
  exact .pure ⟨names, each, rfl⟩

theorem lowerVarDeclaration_gives {node : Node} (sound : node.Sound source)
    (kind : node.kind = "var_declaration") :
    (lowerVarDeclaration source node).Gives (DenotesVar source node) := by
  have derived := sound.derived kind rfl
  rw [lowerVarDeclaration]
  refine .bind (lowerIdentField_gives sound.here derived (by decide) (by decide)) fun name names => ?_
  refine .bindQuietly (each_kind_quietly sound "annotation" fun child within of =>
    lowerAnnotation_gives within of) fun markers each => ?_
  refine .bindQuietly (lowerField_quietly sound derived "default" expressionKinds (by decide) (by decide)
    (by decide) fun child within of => lowerExpression_gives child within of) fun value denotes => ?_
  exact .pure ⟨each, names, denotes, rfl⟩

/-- A property of an actor and what it becomes. -/
inductive DenotesProperty (source : Text) (node : Node) : ActorProperty → Prop where
  | vars {declared : List VarDeclaration} (has : hasVars node = true)
      (each : List.Forall₂ (DenotesVar source) (varsOf node) declared) :
      DenotesProperty source node (.vars declared)
  | keywordArg {arg : KeywordArg} (none_ : node.ofKind ["vars_block"] = [])
      (denotes : DenotesArg source node arg) : DenotesProperty source node (.keywordArg arg)

theorem lowerActorProperty_gives {node : Node} (sound : node.Sound source)
    (kind : node.kind = "actor_property") :
    (lowerActorProperty source node).Gives (DenotesProperty source node) := by
  have derived := sound.derived kind rfl
  rw [lowerActorProperty, ← List.head?_filter, Node.filter_namedChildren_kind]
  rcases derived.choice with keyed | others
  · have none_ := sound.here.picked_eq_nil (isOf ["vars_block"]) keyed (by decide) (by decide)
    have unpaired := sound.here.picked_eq_nil (isOf ["keyword_pair"]) keyed (by decide) (by decide)
    obtain ⟨value, exprs, found⟩ := sound.here.field_eq "value" expressionKinds
      keyed (by decide) (by decide) (by decide)
    have member : value ∈ node.expressions := by
      rw [Node.expressions, exprs]
      exact List.mem_singleton_self value
    rw [Node.ofKind, none_]
    refine .bind (lowerIdentField_gives sound.here keyed (by decide) (by decide)) fun key names => ?_
    rw [found]
    refine .bind (lowerExpression_child sound member) fun expr denotes => ?_
    exact .pure (.keywordArg none_ ⟨names, .expr unpaired exprs denotes, rfl⟩)
  · obtain ⟨block, blocks⟩ := sound.here.picked_eq_singleton (isOf ["vars_block"]) others (by decide)
      (by decide)
    have within := sound.child (Node.mem_of_picked_eq blocks).1
    have has : hasVars node = true := by
      rw [hasVars, Node.ofKind, blocks]
      rfl
    have declares : varsOf node = block.ofKind ["var_declaration"] := by
      rw [varsOf, Node.ofKind, blocks, List.flatMap_singleton]
    rw [Node.ofKind, blocks]
    refine .bindQuietly (each_kind_quietly within "var_declaration" fun child inside of =>
      lowerVarDeclaration_gives inside of) fun declared each => ?_
    exact .pure (.vars has (declares ▸ each))

theorem lowerActorDeclaration_gives {node : Node} (sound : node.Sound source)
    (kind : node.kind = "actor_declaration") :
    (lowerActorDeclaration source node).Gives (DenotesActor source node) := by
  have derived := sound.derived kind rfl
  obtain ⟨type, types, found⟩ := sound.here.field_eq "type" ["actor_type"]
    derived (by decide) (by decide) (by decide)
  obtain ⟨member, of⟩ := Node.mem_of_picked_eq types
  have typeKind := List.mem_singleton.mp (Node.kind_of_isOf of)
  have typed := (sound.child member).derived typeKind rfl
  obtain ⟨typeName, typeNames, typeFirst⟩ := (sound.child member).here.firstNamed_only ["identifier"]
    typed (by rw [typeKind]; decide) (by decide) (by decide) (by decide) (by decide)
  have first : lowerIdentFromFirstChild source type = some (identFromNode source typeName) := by
    rw [lowerIdentFromFirstChild, typeFirst]
    rfl
  rw [lowerActorDeclaration]
  refine .bind (lowerIdentField_gives sound.here derived (by decide) (by decide)) fun name names => ?_
  rw [found]
  dsimp only
  rw [first]
  refine .bindQuietly (lowerParts_quietly sound "actor_body" (fun body => body.ofKind ["actor_property"])
    fun child within of => each_kind_quietly within "actor_property" fun property inside of =>
      lowerActorProperty_gives inside of) fun properties each => .pure ?_
  refine ⟨names, ⟨type, types, typeName, typeNames, rfl⟩, ?_, ?_, rfl⟩
  · refine forall₂_filterMap each (fun property value denotes kept => ?_)
      fun property value denotes dropped => ?_
    · cases denotes with
      | vars has => simp [has] at kept
      | keywordArg none_ denotes => exact ⟨_, rfl, denotes⟩
    · cases denotes with
      | vars => rfl
      | keywordArg none_ => simp [hasVars, none_] at dropped
  · refine List.rel_flatMap each fun property value denotes => ?_
    cases denotes with
    | vars has each => exact each
    | keywordArg none_ =>
      rw [varsOf, none_]
      exact .nil

theorem lowerItem_gives {node : Node} (sound : node.Sound source)
    (kinds : node.kind ∈ ["actor_declaration", "as_block"]) :
    (lowerItem source node).Gives (DenotesItem source node) := by
  simp only [List.mem_cons, List.not_mem_nil, or_false] at kinds
  rw [lowerItem]
  rcases kinds with kind | kind
  · rw [kind]
    refine .bindQuietly (lowerActorDeclaration_gives sound kind) ?_
    rintro value ⟨decl, same, denotes⟩
    rw [same]
    exact .pure (.actorDeclaration kind denotes)
  · rw [kind]
    refine .bindQuietly (lowerAsBlock_gives sound kind) ?_
    rintro value ⟨block, same, denotes⟩
    rw [same]
    exact .pure (.asBlock kind denotes)

theorem lowerSourceFile_quietly {root : Node} (sound : root.Sound source)
    (kind : root.kind = "source_file") :
    (lowerSourceFile source root).Quietly (DenotesFile source root) := by
  have derived := sound.derived kind rfl
  have items : (each (lowerItem source) root.namedChildren).Quietly
      (List.Forall₂ (DenotesItem source) (root.ofKind ["actor_declaration", "as_block"])) := by
    rw [← Node.filter_namedChildren]
    refine Quietly.each (fun child inside kept => ?_) fun child inside dropped => ?_
    · exact lowerItem_gives (sound.child (Node.mem_of_namedChildren inside))
        (List.contains_iff_mem.mp kept)
    · have passed : child.kind = "comment" ∨ child.kind = "NEWLINE" := by
        have listed := kind_of_child derived (Node.mem_of_namedChildren inside)
          ["NEWLINE", "actor_declaration", "as_block"] (by decide)
        refine listed.imp_right fun listed => ?_
        rcases List.mem_cons.mp listed with newline | item
        · exact newline
        · rw [List.contains_iff_mem.mpr item] at dropped
          simp at dropped
      have none_ : lowerItem source child = pure none := by
        rw [lowerItem]
        rcases passed with kind | kind <;> (rw [kind]; rfl)
      rw [none_]
      exact .pure rfl
  rw [lowerSourceFile]
  exact .bind items fun values each => .pure each

/-! ## Recovery nodes -/

mutual

/-- Something is reported exactly for a tree with a recovery node in it. -/
theorem collectErrors_eq_nil_iff (parent : Option String) : ∀ node : Node,
    collectErrors source parent node = [] ↔ ∀ inner : Node, inner.Under node → inner.Genuine
  | ⟨field, kind, named, isError, isMissing, span, ordered, children⟩ => by
    rw [collectErrors]
    cases missing : isMissing with
    | true =>
      simp only [if_true, reduceCtorEq, false_iff]
      intro genuine
      exact absurd (genuine _ .here).2 (by simp)
    | false =>
      cases error : isError with
      | true =>
        simp only [Bool.false_eq_true, if_false, if_true, reduceCtorEq, false_iff]
        intro genuine
        exact absurd (genuine _ .here).1 (by simp)
      | false =>
        simp only [Bool.false_eq_true, if_false]
        rw [collectChildErrors_eq_nil_iff kind children]
        constructor
        · intro genuine inner under
          cases under with
          | here => exact ⟨rfl, rfl⟩
          | deeper member under => exact genuine _ member inner under
        · intro genuine child member inner under
          exact genuine inner (.deeper member under)

theorem collectChildErrors_eq_nil_iff (parent : String) : ∀ children : List Node,
    collectChildErrors source parent children = [] ↔
      ∀ child ∈ children, ∀ inner : Node, inner.Under child → inner.Genuine
  | [] => by simp [collectChildErrors]
  | child :: rest => by
    rw [collectChildErrors, List.append_eq_nil_iff, collectErrors_eq_nil_iff (some parent) child,
      collectChildErrors_eq_nil_iff parent rest, List.forall_mem_cons]

end

end

/-- A text whose tree is a sound file is lowered to what the tree denotes. -/
theorem lower_sound {parse : Text → Node} {src : Text}
    (sound : (parse (normalize src)).Sound (normalize src))
    (kind : (parse (normalize src)).kind = "source_file") :
    ∃ file, lower parse src = some (.ok file) ∧
      DenotesFile (normalize src) (parse (normalize src)) file := by
  obtain ⟨file, lowered, denotes⟩ := lowerSourceFile_quietly sound kind
  have errors := (@collectErrors_eq_nil_iff (normalize src) none _).mpr sound.genuine
  refine ⟨file, ?_, denotes⟩
  unfold lower
  simp [lowered, errors]

/-- A text whose tree has a recovery node is refused. -/
theorem lower_refuses {parse : Text → Node} {src : Text}
    (quoted : (parse (normalize src)).Quoted (normalize src)) {inner : Node}
    (under : inner.Under (parse (normalize src))) (recovers : ¬ inner.Genuine) :
    ∃ errors, lower parse src = some (.error errors) := by
  have reported : collectErrors (normalize src) none (parse (normalize src)) ≠ [] := fun none_ =>
    recovers ((collectErrors_eq_nil_iff none _).mp none_ inner under)
  have returns := lowerSourceFile_returns (parse (normalize src)) quoted
  unfold lower
  cases lowered : lowerSourceFile (normalize src) (parse (normalize src)) with
  | panicked => exact absurd lowered returns
  | returned file reports =>
    refine ⟨collectErrors (normalize src) none (parse (normalize src)) ++ reports, ?_⟩
    simp [reported, lowered]

end Ill.Lower
