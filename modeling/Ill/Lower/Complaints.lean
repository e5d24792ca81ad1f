import Ill.Lower.ComplaintsExpr

/-!
# Complaints about a file

The functions of lowering from the arguments of a statement to the file, each
with the complaints of its role.
-/

namespace Ill.Lower

open Base Base.Utf8 Base.Reporting Ast

section

variable {source : Text} {seen : DiagnosticCode × Span}

/-! ## Parts of statements -/

theorem extractStringText_exactly (node : Node) :
    (extractStringText source node).Exactly mark (fun _ => False) fun _ => True := by
  unfold extractStringText
  split
  · exact .pure trivial
  · split
    · exact .pure trivial
    · exact .bindQuiet (unquote_exactly _) fun _ => .pure trivial
    · exact .pure trivial

theorem lowerAnnotation_exactly (node : Node) :
    ( lowerAnnotation source node).Exactly mark (fun _ => False) fun _ => True := by
  have value (inner : Node) :
      (lowerAnnotationValue source inner).Exactly mark (fun _ => False) fun _ => True := by
    unfold lowerAnnotationValue
    split
    · exact .pure trivial
    · exact .bindQuiet (extractStringText_exactly inner) fun _ => .pure trivial
    · exact .pure trivial
  unfold lowerAnnotation
  exact Exactly.congr (.bindQuiet (.each fun inner _ => value inner) fun _ => .pure trivial)
    fun seen => by simp

theorem lowerIfPresent_exactly {α : Type} {lower : Node → Lowering (Option α)}
    {made : Node → DiagnosticCode × Span → Prop} (child : Option Node)
    (lowers : ∀ child, (lower child).Exactly mark (made child) fun _ => True) :
    (lowerIfPresent lower child).Exactly mark (fun seen => ∃ present ∈ child, made present seen)
      fun _ => True := by
  cases child with
  | none => exact Exactly.congr (.pure trivial) (by simp)
  | some child => exact Exactly.congr (lowers child) (by simp)

/-- An expression in a field, if it is filled. -/
theorem lowerField_exactly (node : Node) (field : String) :
    (lowerIfPresent (lowerExpression source) (node.childByFieldName field)).Exactly mark
      (fun seen => ∃ child ∈ node.childByFieldName field, Complains source .expression child seen)
      fun value => value.isSome ↔ ∃ child ∈ node.childByFieldName field, Yields source child := by
  cases node.childByFieldName field with
  | none => exact Exactly.congr (.pure (by simp)) (by simp)
  | some child => exact Exactly.mono (lowerExpression_exactly child) (by simp) (by simp)

/-- A pass over the children of some kinds. -/
theorem eachOfKind_exactly {α : Type} {lower : Node → Lowering (Option α)}
    {made : Node → DiagnosticCode × Span → Prop} {keeps : Node → Option α → Prop} (node : Node)
    (kind : String) (lowers : ∀ child, (lower child).Exactly mark (made child) (keeps child)) :
    (each lower (node.namedChildren.filter fun child => child.kind == kind)).Exactly mark
      (fun seen => ∃ child ∈ node.ofKind [kind], made child seen)
      (Collects keeps (node.ofKind [kind])) := by
  rw [Node.filter_namedChildren_kind]
  exact .each fun child _ => lowers child

theorem complains_keywordPair {node : Node} :
    Complains source .keywordPair node seen ↔
      ∃ key value, node.childByFieldName "key" = some key ∧ node.childByFieldName "value" = some value ∧
        (Complains source .expression key seen ∨
          Yields source key ∧ Complains source .expression value seen) := by
  rw [complains_below (by decide)]
  constructor
  · rintro ⟨next, child, visits, complains⟩
    cases visits with
    | pairKey found other =>
      obtain ⟨value, other⟩ := Option.isSome_iff_exists.mp other
      exact ⟨_, value, found, other, .inl complains⟩
    | pairValue found yields other => exact ⟨_, _, found, other, .inr ⟨yields, complains⟩⟩
  · rintro ⟨key, value, found, other, complains | ⟨yields, complains⟩⟩
    · exact ⟨_, _, .pairKey found (by simp [Node.has, other]), complains⟩
    · exact ⟨_, _, .pairValue found yields other, complains⟩

theorem lowerKeywordPair_exactly (node : Node) :
    (lowerKeywordPair source node).Exactly mark (Complains source .keywordPair node)
      fun value => value.isSome ↔ PairYields source node := by
  unfold lowerKeywordPair
  split
  · next key found =>
    split
    · next value other =>
      refine Exactly.congr (.bindSome (lowerExpression_exactly key) (fun lacks => .pure ?_)
        fun yields _ => .bindSome (lowerExpression_exactly value) (fun lacks => .pure ?_)
          fun also _ => .pure ?_) fun seen => ?_
      · simp [PairYields, found, other, lacks]
      · simp [PairYields, found, other, lacks]
      · simp [PairYields, found, other, yields, also]
      · simp [complains_keywordPair, found, other]
    · next other =>
      have absent := Option.eq_none_iff_forall_ne_some.mpr other
      refine Exactly.congr (.pure ?_) fun seen => ?_
      · simp [PairYields, absent]
      · simp [complains_keywordPair, absent]
  · next other =>
    have absent := Option.eq_none_iff_forall_ne_some.mpr other
    refine Exactly.congr (.pure ?_) fun seen => ?_
    · simp [PairYields, absent]
    · simp [complains_keywordPair, absent]

theorem complainsBelow_keywordArg {node : Node} :
    ComplainsBelow source .keywordArg node seen ↔ Role.keywordArg.Named node ∧
      ((∃ pair ∈ node.ofKind ["keyword_pair"], Complains source .keywordPair pair seen) ∨
        (∀ pair ∈ node.ofKind ["keyword_pair"], ¬ PairYields source pair) ∧
          ∃ value ∈ node.childByFieldName "value", Complains source .expression value seen) := by
  constructor
  · rintro ⟨next, child, visits, complains⟩
    cases visits with
    | keywordPair named member => exact ⟨named, .inl ⟨_, member, complains⟩⟩
    | keywordValue named dropped found => exact ⟨named, .inr ⟨dropped, _, found, complains⟩⟩
  · rintro ⟨named, ⟨_, member, complains⟩ | ⟨dropped, _, found, complains⟩⟩
    · exact ⟨_, _, .keywordPair named member, complains⟩
    · exact ⟨_, _, .keywordValue named dropped found, complains⟩

theorem lowerKeywordArg_exactly (node : Node) :
    (lowerKeywordArg source node).Exactly mark (Complains source .keywordArg node)
      fun _ => True := by
  have required : Role.keywordArg.required = some "key" := rfl
  unfold lowerKeywordArg
  refine required_exactly required (fun _ => .pure trivial) fun named key => ?_
  refine Exactly.congr (.bind (eachOfKind_exactly node "keyword_pair" lowerKeywordPair_exactly)
    fun pairs collected => ?_) fun seen => by rw [complainsBelow_keywordArg, and_iff_right named]
  -- The value is looked at only when every pair was dropped.
  have kept_iff : pairs.isEmpty = true ↔
      ∀ pair ∈ node.ofKind ["keyword_pair"], ¬ PairYields source pair := by
    rw [List.isEmpty_iff, List.eq_nil_iff_forall_not_mem]
    constructor
    · intro empty pair member yields
      obtain ⟨kept, keeps, within⟩ := collected.2 pair member
      obtain ⟨value, rfl⟩ := Option.isSome_iff_exists.mp (keeps.mpr yields)
      exact empty value (within value rfl)
    · intro dropped value inside
      obtain ⟨pair, member, keeps⟩ := collected.1 value inside
      exact dropped pair member (keeps.mp rfl)
  split
  · next empty =>
    have dropped := kept_iff.mp empty
    refine Exactly.congr (.bindQuiet (lowerField_exactly node "value") fun value => ?_)
      fun seen => by rw [and_iff_right dropped]
    cases value <;> exact .pure trivial
  · next some_ =>
    exact Exactly.congr (.pure trivial) fun seen => by simp [mt kept_iff.mpr some_]

theorem collectKeywordArgs_exactly (node : Node) :
    (collectKeywordArgs source node).Exactly mark
      (fun seen => ∃ arg ∈ node.ofKind ["keyword_arg"], Complains source .keywordArg arg seen)
      fun _ => True :=
  (eachOfKind_exactly node "keyword_arg" lowerKeywordArg_exactly).mono (fun _ => .rfl)
    fun _ _ => trivial

/-! ## Statements -/

theorem lowerCommandPart_exactly (child : Node) :
    (lowerCommandPart source child).Exactly mark
      (fun seen => (child.kind ∈ ["keyword_block", "inline_keyword_args"] ∧
          ∃ arg ∈ child.ofKind ["keyword_arg"], Complains source .keywordArg arg seen) ∨
        child.kind ∈ expressionKinds ∧ Complains source .expression child seen) fun _ => True := by
  unfold lowerCommandPart
  split
  · next kind =>
    exact Exactly.congr (.bindQuiet (lowerAnnotation_exactly child) fun _ => .pure trivial)
      fun seen => by simp [kind, expressionKinds]
  case h_7 _ block inline primary member index =>
    have other : child.kind ∉ expressionKinds := by
      simp only [expressionKinds, List.mem_cons, List.not_mem_nil, or_false, not_or]
      exact ⟨member, index, primary⟩
    have neither : child.kind ∉ ["keyword_block", "inline_keyword_args"] := by
      simp only [List.mem_cons, List.not_mem_nil, or_false, not_or]
      exact ⟨block, inline⟩
    exact Exactly.congr (.pure trivial) fun seen => by rw [eq_false other, eq_false neither]; simp
  all_goals
    next kind =>
    first
      | exact Exactly.congr (.bindQuiet (collectKeywordArgs_exactly child) fun _ => .pure trivial)
          fun seen => by simp [kind, expressionKinds]
      | exact Exactly.congr (.bindQuiet (lowerExpression_exactly child) fun value => by
          cases value <;> exact .pure trivial) fun seen => by simp [kind, expressionKinds]

theorem complainsBelow_command {node : Node} :
    ComplainsBelow source .command node seen ↔ Role.command.Named node ∧
      ((∃ child ∈ node.expressions, Complains source .expression child seen) ∨
        ∃ arg ∈ keywordArgsOf node, Complains source .keywordArg arg seen) := by
  constructor
  · rintro ⟨next, child, visits, complains⟩
    cases visits with
    | positional named member => exact ⟨named, .inl ⟨_, member, complains⟩⟩
    | keywordArg named member => exact ⟨named, .inr ⟨_, member, complains⟩⟩
  · rintro ⟨named, ⟨_, member, complains⟩ | ⟨_, member, complains⟩⟩
    · exact ⟨_, _, .positional named member, complains⟩
    · exact ⟨_, _, .keywordArg named member, complains⟩

theorem complains_comparisonOp {node : Node} :
    Complains source .comparisonOp node seen ↔
      comparisonOf? (textOf source node) = none ∧ seen = (.invalidLiteral, node.span) := by
  constructor
  · rintro (fault | ⟨visits, -⟩)
    · cases fault with
      | missingField required => simp [Role.required] at required
      | unexpected takes => simp [Role.takes] at takes
      | operator unknown => exact ⟨unknown, rfl⟩
    · cases visits
  · rintro ⟨unknown, rfl⟩
    exact .here (.operator unknown)

theorem lowerComparisonOp_exactly (node : Node) :
    (lowerComparisonOp source node).Exactly mark (Complains source .comparisonOp node)
      fun _ => True := by
  unfold lowerComparisonOp
  split
  case h_11 =>
    refine Exactly.congr (.bind (.report _) fun _ _ => .pure trivial) fun seen => ?_
    simp [complains_comparisonOp, comparisonOf?, mark, Diagnostic.error, *]
  all_goals
    next text =>
    exact Exactly.congr (.pure trivial) fun seen => by simp [complains_comparisonOp, comparisonOf?, text]

theorem lowerCommand_exactly (node : Node) :
    (lowerCommand source node).Exactly mark (Complains source .command node) fun _ => True := by
  have required : Role.command.required = some "name" := rfl
  unfold lowerCommand
  refine required_exactly required (fun _ => .pure trivial) fun named name => ?_
  refine Exactly.congr (.bindQuiet (.each fun child _ => lowerCommandPart_exactly child)
    fun _ => .pure trivial) fun seen => ?_
  rw [complainsBelow_command, and_iff_right named]
  simp only [Node.expressions, keywordArgsOf, List.mem_flatMap, Node.mem_ofKind]
  constructor
  · rintro ⟨child, member, ⟨kind, arg, inside, complains⟩ | ⟨kind, complains⟩⟩
    · exact .inr ⟨arg, ⟨child, ⟨member, kind⟩, inside⟩, complains⟩
    · exact .inl ⟨child, ⟨member, kind⟩, complains⟩
  · rintro (⟨child, ⟨member, kind⟩, complains⟩ | ⟨arg, ⟨child, ⟨member, kind⟩, inside⟩, complains⟩)
    · exact ⟨child, member, .inr ⟨kind, complains⟩⟩
    · exact ⟨child, member, .inl ⟨kind, arg, inside, complains⟩⟩

theorem complains_assert {node : Node} :
    Complains source .assert node seen ↔ ∃ left ∈ node.childByFieldName "left",
      Complains source .expression left seen ∨ Yields source left ∧
        ((∃ op ∈ node.childByFieldName "operator", Complains source .comparisonOp op seen) ∨
          ∃ right ∈ node.childByFieldName "right", Complains source .expression right seen) := by
  rw [complains_below (by decide)]
  constructor
  · rintro ⟨next, child, visits, complains⟩
    cases visits with
    | left found => exact ⟨_, found, .inl complains⟩
    | operator found yields other => exact ⟨_, found, .inr ⟨yields, .inl ⟨_, other, complains⟩⟩⟩
    | right found yields other => exact ⟨_, found, .inr ⟨yields, .inr ⟨_, other, complains⟩⟩⟩
  · rintro ⟨_, found, complains | ⟨yields, ⟨_, other, complains⟩ | ⟨_, other, complains⟩⟩⟩
    · exact ⟨_, _, .left found, complains⟩
    · exact ⟨_, _, .operator found yields other, complains⟩
    · exact ⟨_, _, .right found yields other, complains⟩

theorem complains_assignment {node : Node} :
    Complains source .assignment node seen ↔ ∃ target ∈ node.childByFieldName "target",
      Complains source .expression target seen ∨ Yields source target ∧
        ∃ value ∈ node.childByFieldName "value", Complains source .expression value seen := by
  rw [complains_below (by decide)]
  constructor
  · rintro ⟨next, child, visits, complains⟩
    cases visits with
    | target found => exact ⟨_, found, .inl complains⟩
    | assigned found yields other => exact ⟨_, found, .inr ⟨yields, _, other, complains⟩⟩
  · rintro ⟨_, found, complains | ⟨yields, _, other, complains⟩⟩
    · exact ⟨_, _, .target found, complains⟩
    · exact ⟨_, _, .assigned found yields other, complains⟩

/-- A field that holds an expression, and what is done when it has a value. -/
theorem field_exactly {β : Type} {node : Node} {field : String}
    {rest : Option Expr → Lowering (Option β)} {made later : DiagnosticCode × Span → Prop}
    (same : ∀ seen, made seen ↔ ∃ child ∈ node.childByFieldName field,
      Complains source .expression child seen ∨ Yields source child ∧ later seen)
    (stops : rest none = pure none)
    (continues : ∀ value, (rest (some value)).Exactly mark later fun _ => True) :
    (lowerIfPresent (lowerExpression source) (node.childByFieldName field) >>= rest).Exactly mark
      made fun _ => True := by
  refine Exactly.congr (.bindSome (lowerField_exactly node field)
    (fun _ => stops ▸ .pure trivial) fun _ value => continues value) fun seen => ?_
  rw [same]
  simp only [and_or_left, exists_or, ← and_assoc, exists_and_right]

theorem lowerAssert_exactly (node : Node) :
    (lowerAssert source node).Exactly mark (Complains source .assert node) fun _ => True := by
  unfold lowerAssert
  refine field_exactly (fun seen => complains_assert) rfl fun left => ?_
  refine .bind (lowerIfPresent_exactly _ lowerComparisonOp_exactly) fun op _ => ?_
  refine .bindQuiet (lowerField_exactly node "right") fun right => ?_
  exact Exactly.congr (.bindQuiet (lowerIfPresent_exactly _ lowerAnnotation_exactly)
    fun _ => .pure trivial) fun seen => by simp

theorem lowerAssignment_exactly (node : Node) :
    (lowerAssignment source node).Exactly mark (Complains source .assignment node) fun _ => True := by
  unfold lowerAssignment
  refine field_exactly (fun seen => complains_assignment) rfl fun target => ?_
  refine .bindQuiet (lowerField_exactly node "value") fun value => ?_
  cases value <;> exact .pure trivial

theorem complainsBelow_parseExpression {node inner : Node}
    (found : node.childByFieldName "source" = some inner) :
    ComplainsBelow source .parseExpression node seen ↔
      Role.parseExpression.Named node ∧ Complains source .expression inner seen := by
  constructor
  · rintro ⟨next, child, visits, complains⟩
    cases visits with
    | parsed named other =>
      obtain rfl := Option.some.inj (found.symm.trans other)
      exact ⟨named, complains⟩
  · rintro ⟨named, complains⟩
    exact ⟨_, _, .parsed named found, complains⟩

theorem lowerParseExpression_exactly (node : Node) :
    (lowerParseExpression source node).Exactly mark
      (fun seen => node.has "source" = true ∧ Complains source .parseExpression node seen)
      fun _ => True := by
  have required : Role.parseExpression.required = some "format" := rfl
  unfold lowerParseExpression
  split
  · next inner found =>
    refine Exactly.congr (required_exactly required (fun _ => .pure trivial) fun named format => ?_)
      fun seen => by simp [Node.has, found]
    refine Exactly.congr (.bindQuiet (lowerExpression_exactly inner) fun parsed => ?_) fun seen => by
      rw [complainsBelow_parseExpression found, and_iff_right named]
    cases parsed <;> exact .pure trivial
  · next other =>
    have absent := Option.eq_none_iff_forall_ne_some.mpr other
    exact Exactly.congr (.pure trivial) fun seen => by simp [Node.has, absent]

theorem lowerLetValue_exactly (node : Node) :
    (lowerLetValue source node).Exactly mark
      (fun seen => (node.kind = "parse_expression" ∧ node.has "source" = true ∧
          Complains source .parseExpression node seen) ∨
        node.kind ≠ "parse_expression" ∧ Complains source .expression node seen) fun _ => True := by
  unfold lowerLetValue
  split
  · next parse =>
    exact Exactly.congr (lowerParseExpression_exactly node) fun seen => by simp [beq_iff_eq.mp parse]
  · next plain =>
    refine Exactly.congr (.bindQuiet (lowerExpression_exactly node) fun value => ?_)
      fun seen => by simp [mt beq_iff_eq.mpr plain]
    cases value <;> exact .pure trivial

theorem complainsBelow_letStatement {node : Node} :
    ComplainsBelow source .letStatement node seen ↔ Role.letStatement.Named node ∧
      ∃ value ∈ node.childByFieldName "value",
        (value.kind = "parse_expression" ∧ value.has "source" = true ∧
          Complains source .parseExpression value seen) ∨
        value.kind ≠ "parse_expression" ∧ Complains source .expression value seen := by
  constructor
  · rintro ⟨next, child, visits, complains⟩
    cases visits with
    | letValue named found plain => exact ⟨named, _, found, .inr ⟨plain, complains⟩⟩
    | parseExpression named found kind parsed =>
      exact ⟨named, _, found, .inl ⟨kind, parsed, complains⟩⟩
  · rintro ⟨named, _, found, ⟨kind, parsed, complains⟩ | ⟨plain, complains⟩⟩
    · exact ⟨_, _, .parseExpression named found kind parsed, complains⟩
    · exact ⟨_, _, .letValue named found plain, complains⟩

theorem lowerLet_exactly (node : Node) :
    (lowerLet source node).Exactly mark (Complains source .letStatement node) fun _ => True := by
  have required : Role.letStatement.required = some "name" := rfl
  unfold lowerLet
  refine required_exactly required (fun _ => .pure trivial) fun named name => ?_
  refine Exactly.congr (.bindQuiet (lowerIfPresent_exactly _ lowerLetValue_exactly) fun value => ?_)
    fun seen => by rw [complainsBelow_letStatement, and_iff_right named]
  cases value <;> exact .pure trivial

theorem complains_statement {node : Node} :
    Complains source .statement node seen ↔
      (node.kind = "command" ∧ Complains source .command node seen) ∨
      (node.kind = "assert_statement" ∧ Complains source .assert node seen) ∨
      (node.kind = "let_statement" ∧ Complains source .letStatement node seen) ∨
      (node.kind = "assignment_statement" ∧ Complains source .assignment node seen) ∨
      (node.kind ∉ statementKinds ++ ["INDENT", "DEDENT", "NEWLINE", "comment"] ∧
        node.recovers = false ∧ seen = (.unexpectedNode, node.span)) := by
  constructor
  · rintro (fault | ⟨visits, complains⟩)
    · cases fault with
      | missingField required => simp [Role.required] at required
      | unexpected takes other genuine =>
        obtain rfl := Option.some.inj takes
        exact .inr (.inr (.inr (.inr ⟨other, genuine, rfl⟩)))
    · cases visits with
      | command kind => exact .inl ⟨kind, complains⟩
      | assert kind => exact .inr (.inl ⟨kind, complains⟩)
      | letStatement kind => exact .inr (.inr (.inl ⟨kind, complains⟩))
      | assignment kind => exact .inr (.inr (.inr (.inl ⟨kind, complains⟩)))
  · rintro (⟨kind, complains⟩ | ⟨kind, complains⟩ | ⟨kind, complains⟩ | ⟨kind, complains⟩ |
      ⟨other, genuine, rfl⟩)
    · exact .deeper (.command kind) complains
    · exact .deeper (.assert kind) complains
    · exact .deeper (.letStatement kind) complains
    · exact .deeper (.assignment kind) complains
    · exact .here (.unexpected rfl other genuine)

theorem lowerStatement_exactly (node : Node) :
    (lowerStatement source node).Exactly mark (Complains source .statement node) fun _ => True := by
  unfold lowerStatement
  split
  · next kind =>
    exact Exactly.congr (.bindQuiet (lowerCommand_exactly node) fun _ => .pure trivial)
      fun seen => by simp [complains_statement, kind, statementKinds]
  · next kind =>
    exact Exactly.congr (.bindQuiet (lowerAssert_exactly node) fun _ => .pure trivial)
      fun seen => by simp [complains_statement, kind, statementKinds]
  · next kind =>
    exact Exactly.congr (.bindQuiet (lowerLet_exactly node) fun _ => .pure trivial)
      fun seen => by simp [complains_statement, kind, statementKinds]
  · next kind =>
    exact Exactly.congr (.bindQuiet (lowerAssignment_exactly node) fun _ => .pure trivial)
      fun seen => by simp [complains_statement, kind, statementKinds]
  case h_9 command assert letStmt assignment indent dedent newline comment =>
    have other : node.kind ∉ statementKinds ++ ["INDENT", "DEDENT", "NEWLINE", "comment"] := by
      simp only [statementKinds, List.cons_append, List.nil_append, List.mem_cons, List.not_mem_nil,
        or_false, not_or]
      exact ⟨command, assert, letStmt, assignment, indent, dedent, newline, comment⟩
    have statement {kind : String} (listed : kind ∈ statementKinds) : node.kind ≠ kind :=
      unlike other (List.mem_append_left _ listed)
    refine unexpected_exactly (fun seen => ?_) trivial _
    simp [complains_statement, other, statement (by decide : "command" ∈ statementKinds),
      statement (by decide : "assert_statement" ∈ statementKinds),
      statement (by decide : "let_statement" ∈ statementKinds),
      statement (by decide : "assignment_statement" ∈ statementKinds)]
  all_goals
    next kind =>
    exact Exactly.congr (.pure trivial) fun seen => by simp [complains_statement, kind, statementKinds]

/-! ## Top-level items -/

theorem lowerParts_exactly {α : Type} (kind : String) {lower : Node → Lowering (List α)}
    {made : Node → DiagnosticCode × Span → Prop} (node : Node)
    (lowers : ∀ child, (lower child).Exactly mark (made child) fun _ => True) :
    (lowerParts kind lower node).Exactly mark
      (fun seen => ∃ child ∈ node.ofKind [kind], made child seen) fun _ => True :=
  .bindQuiet (eachOfKind_exactly node kind fun child =>
    .bindQuiet (lowers child) fun _ => .pure trivial) fun _ => .pure trivial

theorem complainsBelow_asBlock {node : Node} :
    ComplainsBelow source .asBlock node seen ↔ Role.asBlock.Named node ∧
      ∃ block ∈ node.ofKind ["block"], ∃ child ∈ block.namedChildren,
        Complains source .statement child seen := by
  constructor
  · rintro ⟨next, child, visits, complains⟩
    cases visits with
    | statement named inside member => exact ⟨named, _, inside, _, member, complains⟩
  · rintro ⟨named, _, inside, _, member, complains⟩
    exact ⟨_, _, .statement named inside member, complains⟩

theorem lowerAsBlock_exactly (node : Node) :
    (lowerAsBlock source node).Exactly mark (Complains source .asBlock node) fun _ => True := by
  have required : Role.asBlock.required = some "actor" := rfl
  unfold lowerAsBlock
  refine required_exactly required (fun _ => .pure trivial) fun named actor => ?_
  refine Exactly.congr (.bindQuiet (lowerParts_exactly "block" node fun block =>
    Exactly.mono (.each fun child _ => lowerStatement_exactly child) (fun _ => .rfl)
      fun _ _ => trivial) fun _ => .pure trivial) fun seen => ?_
  rw [complainsBelow_asBlock, and_iff_right named]

theorem complainsBelow_varDeclaration {node : Node} :
    ComplainsBelow source .varDeclaration node seen ↔ Role.varDeclaration.Named node ∧
      ∃ value ∈ node.childByFieldName "default", Complains source .expression value seen := by
  constructor
  · rintro ⟨next, child, visits, complains⟩
    cases visits with
    | default named found => exact ⟨named, _, found, complains⟩
  · rintro ⟨named, _, found, complains⟩
    exact ⟨_, _, .default named found, complains⟩

theorem lowerVarDeclaration_exactly (node : Node) :
    (lowerVarDeclaration source node).Exactly mark (Complains source .varDeclaration node)
      fun _ => True := by
  have required : Role.varDeclaration.required = some "name" := rfl
  unfold lowerVarDeclaration
  refine required_exactly required (fun _ => .pure trivial) fun named name => ?_
  refine Exactly.congr (.bind (eachOfKind_exactly node "annotation" lowerAnnotation_exactly)
    fun markers _ => .bindQuiet (lowerField_exactly node "default") fun _ => .pure trivial)
    fun seen => ?_
  rw [complainsBelow_varDeclaration, and_iff_right named]
  simp

theorem complainsBelow_keyedProperty {node : Node} :
    ComplainsBelow source .keyedProperty node seen ↔ Role.keyedProperty.Named node ∧
      ∃ value ∈ node.childByFieldName "value", Complains source .expression value seen := by
  constructor
  · rintro ⟨next, child, visits, complains⟩
    cases visits with
    | propertyValue named found => exact ⟨named, _, found, complains⟩
  · rintro ⟨named, _, found, complains⟩
    exact ⟨_, _, .propertyValue named found, complains⟩

theorem complains_actorProperty {node : Node} :
    Complains source .actorProperty node seen ↔
      match (node.ofKind ["vars_block"]).head? with
      | some block =>
        ∃ var ∈ block.ofKind ["var_declaration"], Complains source .varDeclaration var seen
      | none => Complains source .keyedProperty node seen := by
  rw [complains_below (by decide)]
  constructor
  · rintro ⟨next, child, visits, complains⟩
    cases visits with
    | varDeclaration found member =>
      rw [found]
      exact ⟨_, member, complains⟩
    | keyedProperty plain =>
      have none_ : node.ofKind ["vars_block"] = [] := by simpa [hasVars] using plain
      rw [none_]
      exact complains
  · split
    · next block found =>
      rintro ⟨_, member, complains⟩
      exact ⟨_, _, .varDeclaration found member, complains⟩
    · next none_ =>
      intro complains
      exact ⟨_, _, .keyedProperty (by simp [hasVars, List.head?_eq_none_iff.mp none_]), complains⟩

theorem lowerActorProperty_exactly (node : Node) :
    (lowerActorProperty source node).Exactly mark (Complains source .actorProperty node)
      fun _ => True := by
  have required : Role.keyedProperty.required = some "key" := rfl
  -- Only the first block of vars counts, wherever it stands.
  have first : (node.namedChildren.find? fun child => child.kind == "vars_block") =
      (node.ofKind ["vars_block"]).head? := by
    rw [← Node.filter_namedChildren_kind, List.head?_filter]
  unfold lowerActorProperty
  rw [first]
  split
  · next block found =>
    refine Exactly.congr (.bindQuiet (eachOfKind_exactly block "var_declaration"
      lowerVarDeclaration_exactly) fun _ => .pure trivial) fun seen => ?_
    rw [complains_actorProperty, found]
  · next none_ =>
    refine Exactly.congr (required_exactly required (fun _ => .pure trivial) fun named key => ?_)
      fun seen => by rw [complains_actorProperty, none_]
    refine Exactly.congr (.bindQuiet (lowerField_exactly node "value") fun value => ?_)
      fun seen => by rw [complainsBelow_keyedProperty, and_iff_right named]
    cases value <;> exact .pure trivial

theorem complainsBelow_actorDeclaration {node : Node} :
    ComplainsBelow source .actorDeclaration node seen ↔ Role.actorDeclaration.Named node ∧
      ∃ type ∈ node.childByFieldName "type", type.firstNamed.isSome = true ∧
        ∃ property ∈ propertiesOf node, Complains source .actorProperty property seen := by
  constructor
  · rintro ⟨next, child, visits, complains⟩
    cases visits with
    | actorProperty named found typed member => exact ⟨named, _, found, typed, _, member, complains⟩
  · rintro ⟨named, _, found, typed, _, member, complains⟩
    exact ⟨_, _, .actorProperty named found typed member, complains⟩

theorem lowerActorDeclaration_exactly (node : Node) :
    (lowerActorDeclaration source node).Exactly mark (Complains source .actorDeclaration node)
      fun _ => True := by
  have required : Role.actorDeclaration.required = some "name" := rfl
  unfold lowerActorDeclaration
  refine required_exactly required (fun _ => .pure trivial) fun named name => ?_
  dsimp only
  split
  · next type found =>
    split
    · next actorType typed =>
      have first : type.firstNamed.isSome = true := by
        simpa [lowerIdentFromFirstChild] using congrArg Option.isSome typed
      refine Exactly.congr (.bindQuiet (lowerParts_exactly "actor_body" node fun body =>
        Exactly.mono (eachOfKind_exactly body "actor_property" lowerActorProperty_exactly)
          (fun _ => .rfl) fun _ _ => trivial) fun _ => .pure trivial) fun seen => ?_
      simp only [complainsBelow_actorDeclaration, named, found, first, propertiesOf, List.mem_flatMap,
        true_and, Option.mem_def, Option.some.injEq, exists_eq_left']
      constructor
      · rintro ⟨body, inside, property, member, complains⟩
        exact ⟨property, ⟨body, inside, member⟩, complains⟩
      · rintro ⟨property, ⟨body, inside, member⟩, complains⟩
        exact ⟨body, inside, property, member, complains⟩
    · next other =>
      have untyped : type.firstNamed = none := by
        simpa [lowerIdentFromFirstChild] using Option.eq_none_iff_forall_ne_some.mpr other
      exact Exactly.congr (.pure trivial) fun seen => by
        simp [complainsBelow_actorDeclaration, found, untyped]
  · next other =>
    have absent := Option.eq_none_iff_forall_ne_some.mpr other
    exact Exactly.congr (.pure trivial) fun seen => by
      simp [complainsBelow_actorDeclaration, absent]

theorem complains_item {node : Node} :
    Complains source .item node seen ↔
      (node.kind = "actor_declaration" ∧ Complains source .actorDeclaration node seen) ∨
      (node.kind = "as_block" ∧ Complains source .asBlock node seen) ∨
      (node.kind ∉ ["actor_declaration", "as_block", "NEWLINE", "comment"] ∧
        node.recovers = false ∧ seen = (.unexpectedNode, node.span)) := by
  constructor
  · rintro (fault | ⟨visits, complains⟩)
    · cases fault with
      | missingField required => simp [Role.required] at required
      | unexpected takes other genuine =>
        obtain rfl := Option.some.inj takes
        exact .inr (.inr ⟨other, genuine, rfl⟩)
    · cases visits with
      | actorDeclaration kind => exact .inl ⟨kind, complains⟩
      | asBlock kind => exact .inr (.inl ⟨kind, complains⟩)
  · rintro (⟨kind, complains⟩ | ⟨kind, complains⟩ | ⟨other, genuine, rfl⟩)
    · exact .deeper (.actorDeclaration kind) complains
    · exact .deeper (.asBlock kind) complains
    · exact .here (.unexpected rfl other genuine)

theorem lowerItem_exactly (node : Node) :
    (lowerItem source node).Exactly mark (Complains source .item node) fun _ => True := by
  unfold lowerItem
  split
  · next kind =>
    exact Exactly.congr (.bindQuiet (lowerActorDeclaration_exactly node) fun _ => .pure trivial)
      fun seen => by simp [complains_item, kind]
  · next kind =>
    exact Exactly.congr (.bindQuiet (lowerAsBlock_exactly node) fun _ => .pure trivial)
      fun seen => by simp [complains_item, kind]
  · next kind => exact Exactly.congr (.pure trivial) fun seen => by simp [complains_item, kind]
  · next kind => exact Exactly.congr (.pure trivial) fun seen => by simp [complains_item, kind]
  · next declaration block newline comment =>
    have other : node.kind ≠ "actor_declaration" ∧ node.kind ≠ "as_block" ∧
        node.kind ≠ "NEWLINE" ∧ node.kind ≠ "comment" := ⟨declaration, block, newline, comment⟩
    exact unexpected_exactly (fun seen => by simp [complains_item, other]) trivial _

/-- What lowering reports is what there is to complain about in the tree. -/
theorem lowerSourceFile_exactly (root : Node) :
    (lowerSourceFile source root).Exactly mark (Complains source .file root) fun _ => True := by
  refine Exactly.congr (.bindQuiet (.each fun child _ => lowerItem_exactly child) fun _ =>
    .pure trivial) fun seen => ?_
  rw [complains_below (by decide)]
  constructor
  · rintro ⟨child, member, complains⟩
    exact ⟨_, _, .item member, complains⟩
  · rintro ⟨next, child, visits, complains⟩
    cases visits with
    | item member => exact ⟨child, member, complains⟩

/-- Lowering has no complaint of the codes for recovery nodes. -/
theorem Complains.code {role : Role} {node : Node} (complains : Complains source role node seen) :
    seen.1 ≠ .parseError ∧ seen.1 ≠ .missingToken := by
  induction complains with
  | here fault => cases fault <;> exact ⟨nofun, nofun⟩
  | deeper visits complains ih => exact ih

end

end Ill.Lower
