import Ill.Lower.Denotes

/-!
# Lowering keeps every construct

On a tree that conforms to the grammar lowering reports nothing and returns the
abstract syntax that the tree denotes. The rules settle which child a field or a
kind names, and the calls follow the tree.
-/

namespace Ill.Lower

open Base Base.Utf8 Base.Regular Base.Reporting Ast Grammar

section

variable {source : Text}

/-! ## Tokens -/

/-- A token of a string that uses known escapes can be decoded. -/
theorem unescape_of_known {token : Text} (content : StringContent token)
    (known : ∀ char, token = ['\\', char] → (escaped? char).isSome = true) :
    ∃ decoded, unescape token = .ok decoded := by
  cases content with
  | run char tail plain =>
    generalize char :: tail = run at plain
    clear known
    induction run with
    | nil => exact ⟨[], unescape_nil⟩
    | cons first run ih =>
      obtain ⟨here, later⟩ := List.forall_mem_cons.mp plain
      obtain ⟨decoded, whole⟩ := ih later
      exact ⟨first :: decoded, by rw [unescape_plain here.2.1, whole]; rfl⟩
  | escape char inLine =>
    obtain ⟨decoded, escaped⟩ := Option.isSome_iff_exists.mp (known char rfl)
    exact ⟨[decoded], by rw [unescape_known escaped, unescape_nil]; rfl⟩
  | dollar => exact ⟨['$'], by rw [unescape_plain (by decide), unescape_nil]; rfl⟩

/-- An integer literal that fits is parsed to the integer it denotes. -/
theorem parseI64_of_numeral {text : Text} {value : Int} (numeral : Numeral text value)
    (fits : -2 ^ 63 ≤ value ∧ value < 2 ^ 63) : Decimal.parseI64 text = some value := by
  refine Decimal.parseI64_eq_some.mpr ⟨?_, fits⟩
  cases numeral with
  | natural some_ decimals => exact .unsigned some_ decimals
  | negative some_ decimals => exact .negative some_ decimals

/-- A node around one literal has the text of that literal. -/
theorem textOf_literal {node : Node} {rule : Rule} (sound : node.Sound source)
    (derived : Labelled Node.label rule node.parts) (inner : node.kind ≠ "source_file")
    (inline : (letters rule).all (fun letter => !opensLine letter.kind) = true)
    (single : once (fun _ => true) rule = true)
    (unnamed : (letters rule).all (fun letter => !letter.named) = true) :
    ∃ word, node.parts = [word] ∧ textOf source node = word.kind ∧ word.label ∈ letters rule := by
  obtain ⟨word, only, parts, listed⟩ := sound.here.only_child derived inner inline single
  have literal : word.named = false := by
    simpa [Node.label] using List.all_eq_true.mp unnamed _ listed
  have text := (sound.child (only ▸ List.mem_singleton_self word)).here.literal literal
  have span := sound.here.covered inner word word (by rw [only]; rfl) (by rw [only]; rfl)
  refine ⟨word, parts, ?_, listed⟩
  rw [textOf, Node.text, span]
  change String.ofList (word.text source) = word.kind
  rw [text, String.ofList_toList]

/-- An identifier that a field names is the one that the node has. -/
theorem lowerIdentField_gives {node : Node} {rule : Rule} {field : String}
    (conforms : node.Conforms source) (derived : Labelled Node.label rule node.parts)
    (single : once (isOf ["identifier"]) rule = true)
    (named : (letters rule).all (fun letter => fills field letter == isOf ["identifier"] letter) = true) :
    (lowerIdentField source node field).Gives (Names source node) := by
  obtain ⟨name, names, found⟩ := conforms.field_eq field ["identifier"] derived (by decide) single
    named
  rw [lowerIdentField, found]
  exact .pure ⟨name, names, rfl⟩

/-! ## Expressions -/

/-- The expressions below a node are lowered to what they denote. -/
def LowersBelow (source : Text) (node : Node) : Prop :=
  ∀ inner : Node, sizeOf inner < sizeOf node → inner.Sound source → inner.kind ∈ expressionKinds →
    (lowerExpression source inner).Gives (Denotes source inner)

/-- An expression among the children is lowered to what it denotes. -/
theorem LowersBelow.child {node inner : Node} (below : LowersBelow source node)
    (sound : node.Sound source) (member : inner ∈ node.expressions) :
    (lowerExpression source inner).Gives (Denotes source inner) := by
  obtain ⟨inside, of⟩ := Node.mem_of_picked member
  exact below inner (Node.sizeOf_lt_of_mem inside) (sound.child inside) (Node.kind_of_isOf of)

theorem lowerElement_eq (child : Node) :
    lowerElement source child =
      if expressionKinds.contains child.kind then lowerExpression source child else pure none := by
  unfold lowerElement
  split
  · next kind => rw [kind]; rfl
  · next kind => rw [kind]; rfl
  · next kind => rw [kind]; rfl
  · next primary member index =>
    have other : expressionKinds.contains child.kind = false := by
      simp only [expressionKinds, List.contains_eq_mem, List.mem_cons, List.not_mem_nil, or_false,
        decide_eq_false_iff_not]
      rintro (kind | kind | kind)
      · exact member kind
      · exact index kind
      · exact primary kind
    rw [other]
    rfl

theorem lowerMemberExpression_gives {node : Node} (sound : node.Sound source)
    (below : LowersBelow source node) (kind : node.kind = "member_expression") :
    (lowerMemberExpression source node).Gives (Denotes source node) := by
  have derived := sound.derived kind rfl
  rw [lowerMemberExpression]
  obtain ⟨object, objects, found⟩ := sound.here.field_eq "object" expressionKinds
    derived (by decide) (by decide) (by decide)
  have member : object ∈ node.expressions := by
    rw [Node.expressions, objects]
    exact List.mem_singleton_self object
  split
  · next absent => simp [found] at absent
  · next objectNode same =>
    obtain rfl := Option.some.inj (found.symm.trans same)
    refine .bind (lowerIdentField_gives sound.here derived (by decide) (by decide))
      fun property names => ?_
    obtain ⟨name, properties, rfl⟩ := names
    refine .bind (below.child sound member) fun value denotes => ?_
    exact .pure (.member kind objects properties denotes)

theorem lowerIndexExpression_gives {node : Node} (sound : node.Sound source)
    (below : LowersBelow source node) (kind : node.kind = "index_expression") :
    (lowerIndexExpression source node).Gives (Denotes source node) := by
  have derived := sound.derived kind rfl
  obtain ⟨object, subs, objects⟩ := sound.here.picked_cons (isOf expressionKinds) (fills "object")
    (fills "index") derived (by decide)
  have member {inner : Node} (inside : inner ∈ object :: node.picked (fills "index")) :
      inner ∈ node.expressions := by
    rw [Node.expressions, Node.ofKind, subs]
    exact inside
  rw [lowerIndexExpression_eq, Node.childByFieldName_eq, objects]
  refine .bind (below.child sound (member List.mem_cons_self)) fun value denotes => ?_
  have each := Quietly.each_all fun inner inside =>
    below.child sound (member (List.mem_cons_of_mem object inside))
  exact .bindQuietly each fun values each => .pure (.index kind subs denotes each)

theorem lowerArray_gives {node : Node} (sound : node.Sound source)
    (below : LowersBelow source node) (kind : node.kind = "array") :
    (lowerArray source node).Gives (DenotesPrimary source node) := by
  have each : (each (lowerElement source) node.namedChildren).Quietly
      (List.Forall₂ (Denotes source) node.expressions) := by
    rw [Node.expressions, ← Node.filter_namedChildren]
    refine Quietly.each (fun child inside kept => ?_) fun child inside dropped => ?_
    · rw [lowerElement_eq, if_pos kept]
      refine below.child sound ?_
      rw [Node.expressions, ← Node.filter_namedChildren]
      exact List.mem_filter.mpr ⟨inside, kept⟩
    · rw [lowerElement_eq, dropped]
      exact .pure rfl
  rw [lowerArray_eq]
  exact .bindQuietly each fun items each => .pure (.array kind each)

/-- What a child of a string or a squiggle becomes, before any escape is decoded. -/
inductive Collected (source : Text) (textKind : String) : Node → StringFragment → Prop where
  | text {child : Node} (kind : child.kind = textKind) :
      Collected source textKind child (.text (textOf source child))
  | interpolation {child inner : Node} {expr : Expr} (kind : child.kind = "interpolation")
      (exprs : child.expressions = [inner]) (denotes : Denotes source inner expr) :
      Collected source textKind child (.interpolation expr)

theorem lowerFragment_gives {child : Node} {textKind : String} (sound : child.Sound source)
    (below : LowersBelow source child)
    (kept : [textKind, "interpolation"].contains child.kind = true) :
    (lowerFragment source textKind child).Gives (Collected source textKind child) := by
  unfold lowerFragment
  by_cases text : child.kind = textKind
  · rw [if_pos (beq_iff_eq.mpr text)]
    exact .pure (.text text)
  · have kind : child.kind = "interpolation" := by simpa [text] using kept
    have derived := sound.derived kind rfl
    obtain ⟨inner, exprs, first⟩ := sound.here.firstNamed_only expressionKinds derived
      (by rw [kind]; decide) (by decide) (by decide) (by decide) (by decide)
    have member : inner ∈ child.expressions := by
      rw [Node.expressions, exprs]
      exact List.mem_singleton_self inner
    rw [if_neg (by simpa using text), if_pos (beq_iff_eq.mpr kind), first]
    exact .bind (below.child sound member) fun expr denotes => .pure (.interpolation kind exprs denotes)

theorem collectFragments_quietly {node : Node} (textKind : String) (sound : node.Sound source)
    (below : LowersBelow source node) :
    (collectFragments source node textKind).Quietly
      (List.Forall₂ (Collected source textKind) (node.ofKind [textKind, "interpolation"])) := by
  rw [collectFragments_eq, ← Node.filter_namedChildren]
  refine Quietly.each (fun child inside kept => ?_) fun child inside dropped => ?_
  · have member := Node.mem_of_namedChildren inside
    refine lowerFragment_gives (sound.child member) (fun inner smaller => ?_) kept
    exact below inner (smaller.trans (Node.sizeOf_lt_of_mem member))
  · simp only [List.contains_cons, List.contains_nil, Bool.or_false, Bool.or_eq_false_iff] at dropped
    rw [lowerFragment, dropped.1, dropped.2]
    exact .pure rfl

theorem lowerSquiggle_gives {node : Node} (sound : node.Sound source)
    (below : LowersBelow source node) (kind : node.kind = "squiggle") :
    (lowerSquiggle source node).Gives (DenotesPrimary source node) := by
  have derived := sound.derived kind rfl
  obtain ⟨name, names, found⟩ := sound.here.field_eq "name" ["squiggle_name"]
    derived (by decide) (by decide) (by decide)
  rw [lowerSquiggle, found]
  refine .bindQuietly (collectFragments_quietly "squiggle_content" sound below) fun fragments each => ?_
  refine .pure (.squiggle kind names (each.imp fun child fragment collected => ?_))
  cases collected with
  | text kind => exact .raw kind
  | interpolation kind exprs denotes => exact .interpolation kind exprs denotes

theorem lowerStringFragments_quietly {node : Node} (sound : node.Sound source)
    (below : LowersBelow source node) :
    (lowerStringFragments source node).Quietly
      (List.Forall₂ (DenotesFragment source) (node.ofKind ["string_content", "interpolation"])) := by
  rw [lowerStringFragments]
  refine .bind (collectFragments_quietly "string_content" sound below) fun fragments each => ?_
  refine Quietly.each_related each fun child inside fragment collected => ?_
  cases collected with
  | text kind =>
    have within := sound.child (Node.mem_of_picked inside).1
    obtain ⟨decoded, escapes⟩ := unescape_of_known (within.here.content kind)
      (within.unescapable child .here kind)
    rw [unescapeFragment, textOf, String.toList_ofList, escapes]
    exact .pure (.content kind escapes)
  | interpolation kind exprs denotes => exact .pure (.interpolation kind exprs denotes)

theorem lowerString_gives {node : Node} (sound : node.Sound source)
    (below : LowersBelow source node) (kind : node.kind = "string") :
    (lowerString source node).Gives (DenotesPrimary source node) := by
  have derived := sound.derived kind rfl
  obtain ⟨inner, only, parts, listed⟩ := sound.here.only_child derived (by rw [kind]; decide) (by decide)
    (by decide)
  have member : inner ∈ node.children := only ▸ List.mem_singleton_self inner
  have within := sound.child member
  obtain ⟨named, kinds⟩ :=
    Node.named_of_label listed ["double_quoted_string", "single_quoted_string"] (by decide)
  have first : node.firstNamed = some inner := by
    simp [Node.firstNamed, Node.namedChildren, only, named]
  rw [lowerString]
  split
  · next absent => simp [first] at absent
  · next child same =>
    obtain rfl := Option.some.inj (first.symm.trans same)
    simp only [List.mem_cons, List.not_mem_nil, or_false] at kinds
    rcases kinds with double | single
    · rw [double]
      refine .bindQuietly (lowerStringFragments_quietly within fun deeper smaller => ?_)
        fun fragments each => .pure (.doubleQuoted kind parts double each)
      exact below deeper (smaller.trans (Node.sizeOf_lt_of_mem member))
    · obtain ⟨content, quoted⟩ := within.here.quoted single
      rw [single, quoted, unquote_quoted]
      exact .pure (.singleQuoted kind parts single quoted)

/-- The alternatives of `primary_expression`. -/
def primaryKinds : List String :=
  ["identifier", "string", "squiggle", "number", "boolean", "null", "atom", "array"]

theorem lowerPrimary_gives {node : Node} (sound : node.Sound source)
    (below : LowersBelow source node) (kinds : node.kind ∈ primaryKinds) :
    (lowerPrimary source node).Gives (DenotesPrimary source node) := by
  simp only [primaryKinds, List.mem_cons, List.not_mem_nil, or_false] at kinds
  rw [lowerPrimary]
  rcases kinds with kind | kind | kind | kind | kind | kind | kind | kind
  · rw [kind]
    exact .pure (.identifier kind)
  · rw [kind]
    exact lowerString_gives sound below kind
  · rw [kind]
    exact lowerSquiggle_gives sound below kind
  · obtain ⟨value, numeral⟩ := sound.here.number kind
    have parsed := parseI64_of_numeral numeral (sound.fits node .here kind value numeral)
    have lowered : lowerNumber source node = pure (some (.number value)) := by
      rw [lowerNumber, parsed]
    rw [kind]
    exact lowered ▸ .pure (.number kind numeral)
  · have derived := sound.derived kind rfl
    obtain ⟨word, parts, text, -⟩ := textOf_literal sound derived (by rw [kind]; decide) (by decide)
      (by decide) (by decide)
    have denotes : DenotesPrimary source node (.bool (textOf source node == "true")) :=
      text ▸ .boolean kind parts
    rw [kind]
    exact .pure denotes
  · rw [kind]
    exact .pure (.null kind)
  · have derived := sound.derived kind rfl
    obtain ⟨name, names, first⟩ := sound.here.firstNamed_only ["identifier"] derived
      (by rw [kind]; decide) (by decide) (by decide) (by decide) (by decide)
    have ident : lowerIdentFromFirstChild source node = some (identFromNode source name) := by
      rw [lowerIdentFromFirstChild, first]
      rfl
    rw [kind]
    change Gives _ (pure ((lowerIdentFromFirstChild source node).map Expr.atom))
    rw [ident]
    exact .pure (.atom kind names)
  · rw [kind]
    exact lowerArray_gives sound below kind

theorem lowerExpression_step {node : Node} (sound : node.Sound source)
    (below : LowersBelow source node) (kinds : node.kind ∈ expressionKinds) :
    (lowerExpression source node).Gives (Denotes source node) := by
  simp only [expressionKinds, List.mem_cons, List.not_mem_nil, or_false] at kinds
  rw [lowerExpression]
  rcases kinds with kind | kind | kind
  · simp only [kind]
    exact lowerMemberExpression_gives sound below kind
  · simp only [kind]
    exact lowerIndexExpression_gives sound below kind
  · have derived := sound.derived kind rfl
    obtain ⟨child, only, parts, listed⟩ := sound.here.only_child derived (by rw [kind]; decide)
      (by decide) (by decide)
    obtain ⟨named, primary⟩ := Node.named_of_label listed primaryKinds (by decide)
    have member : child ∈ node.children := only ▸ List.mem_singleton_self child
    have first : node.firstNamed = some child := by
      simp [Node.firstNamed, Node.namedChildren, only, named]
    simp only [kind]
    split
    · next inner same =>
      obtain rfl := Option.some.inj (first.symm.trans same)
      refine Gives.mono (lowerPrimary_gives (sound.child member) (fun deeper smaller => ?_) primary)
        fun expr denotes => .primary kind parts denotes
      exact below deeper (smaller.trans (Node.sizeOf_lt_of_mem member))
    · next absent => simp [first] at absent

/-- Every expression of a sound tree is lowered to what it denotes. -/
theorem lowerExpression_gives (node : Node) (sound : node.Sound source)
    (kinds : node.kind ∈ expressionKinds) :
    (lowerExpression source node).Gives (Denotes source node) := by
  induction size : sizeOf node using Nat.strong_induction_on generalizing node with
  | _ size ih =>
    subst size
    exact lowerExpression_step sound (fun inner smaller within of => ih _ smaller inner within of rfl) kinds

end

end Ill.Lower
