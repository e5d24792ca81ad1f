import Ill.Lower.Visits

/-!
# Complaints about expressions

Lowering an expression makes exactly the complaints about it, and gives a value
where the node has one: the parts that are lowered after it depend on that.
-/

namespace Ill.Lower

open Base Base.Utf8 Base.Reporting Ast

section

variable {source : Text} {seen : DiagnosticCode × Span}

/-! ## Fields and tokens -/

theorem lowerIdentField_exactly (node : Node) (field : String) :
    (lowerIdentField source node field).Exactly mark
      (fun seen => node.has field = false ∧ seen = (.missingField, node.span))
      fun value => value.isSome ↔ node.has field = true := by
  rw [lowerIdentField, Node.has]
  cases node.childByFieldName field with
  | some child => exact (Exactly.pure (by simp)).congr (by simp)
  | none =>
    refine (Exactly.bind (.report _) fun _ _ => .pure (by simp)).congr fun seen => ?_
    simp [mark, Diagnostic.error]

/-- A function that begins with the identifier that its role requires. -/
theorem required_exactly {β : Type} {role : Role} {node : Node} {field : String}
    (required : role.required = some field) {rest : Option Ident → Lowering β} {finally_ : β → Prop}
    (stops : ¬ role.Named node → (rest none).Exactly mark (fun _ => False) finally_)
    (continues : role.Named node → ∀ ident,
      (rest (some ident)).Exactly mark (ComplainsBelow source role node) finally_) :
    (lowerIdentField source node field >>= rest).Exactly mark (Complains source role node) finally_ := by
  rw [named_iff required] at stops continues
  refine (Exactly.bindSome (lowerIdentField_exactly node field) stops continues).congr fun seen => ?_
  rw [complains_required required, named_iff required]

/-- A node of none of the kinds that its role takes. -/
theorem unexpected_exactly {β : Type} {role : Role} {node : Node}
    (only : ∀ seen, Complains source role node seen ↔
      node.recovers = false ∧ seen = (.unexpectedNode, node.span))
    {finally_ : β → Prop} {value : β} (holds : finally_ value) (message : String) :
    (do reportUnexpected node message; return value : Lowering β).Exactly mark
      (Complains source role node) finally_ := by
  rw [reportUnexpected, ← Node.recovers]
  cases recovers : node.recovers with
  | true =>
    rw [if_pos rfl, pure_bind]
    exact (Exactly.pure holds).congr fun seen => by simp [only, recovers]
  | false =>
    rw [if_neg Bool.false_ne_true]
    refine (Exactly.bind (.report _) fun _ _ => .pure holds).congr fun seen => ?_
    simp [only, recovers, mark, Diagnostic.error]

/-! ## Expressions -/

theorem yields_iff {node : Node} :
    Yields source node ↔
      (node.kind = "primary_expression" ∧
        ∃ child, node.firstNamed = some child ∧ primaryYields source child = true) ∨
      (node.kind ∈ primaryKinds ∧ primaryYields source node = true) ∨
      (node.kind = "member_expression" ∧ node.has "property" = true ∧
        ∃ object, node.childByFieldName "object" = some object ∧ Yields source object) ∨
      (node.kind = "index_expression" ∧
        ∃ object, node.childByFieldName "object" = some object ∧ Yields source object) := by
  constructor
  · intro yields
    cases yields with
    | wrapped kind first yields => exact .inl ⟨kind, _, first, yields⟩
    | bare kind yields => exact .inr (.inl ⟨kind, yields⟩)
    | member kind found property yields =>
      exact .inr (.inr (.inl ⟨kind, property, _, found, yields⟩))
    | index kind found yields => exact .inr (.inr (.inr ⟨kind, _, found, yields⟩))
  · rintro (⟨kind, _, first, yields⟩ | ⟨kind, yields⟩ | ⟨kind, property, _, found, yields⟩ |
      ⟨kind, _, found, yields⟩)
    · exact .wrapped kind first yields
    · exact .bare kind yields
    · exact .member kind found property yields
    · exact .index kind found yields

theorem complains_expression {node : Node} :
    Complains source .expression node seen ↔
      (node.kind = "primary_expression" ∧
        ∃ child, node.firstNamed = some child ∧ Complains source .primary child seen) ∨
      (node.kind ∈ primaryKinds ∧ Complains source .primary node seen) ∨
      (node.kind = "member_expression" ∧ node.has "object" = true ∧
        Complains source .member node seen) ∨
      (node.kind = "index_expression" ∧ ∃ object, node.childByFieldName "object" = some object ∧
        (Complains source .expression object seen ∨ Yields source object ∧
          ∃ index ∈ node.childrenByFieldName "index", Complains source .expression index seen)) ∨
      (node.kind ∉ expressionKinds ++ primaryKinds ∧ node.recovers = false ∧
        seen = (.unexpectedNode, node.span)) := by
  constructor
  · rintro (fault | ⟨visits, complains⟩)
    · cases fault with
      | missingField required => simp [Role.required] at required
      | unexpected takes other genuine =>
        obtain rfl := Option.some.inj takes
        exact .inr (.inr (.inr (.inr ⟨other, genuine, rfl⟩)))
    · cases visits with
      | wrapped kind first => exact .inl ⟨kind, _, first, complains⟩
      | bare kind => exact .inr (.inl ⟨kind, complains⟩)
      | member kind found => exact .inr (.inr (.inl ⟨kind, found, complains⟩))
      | indexed kind found => exact .inr (.inr (.inr (.inl ⟨kind, _, found, .inl complains⟩)))
      | index kind found yields member =>
        exact .inr (.inr (.inr (.inl ⟨kind, _, found, .inr ⟨yields, _, member, complains⟩⟩)))
  · rintro (⟨kind, _, first, complains⟩ | ⟨kind, complains⟩ | ⟨kind, found, complains⟩ |
      ⟨kind, _, found, complains | ⟨yields, _, member, complains⟩⟩ | ⟨other, genuine, rfl⟩)
    · exact .deeper (.wrapped kind first) complains
    · exact .deeper (.bare kind) complains
    · exact .deeper (.member kind found) complains
    · exact .deeper (.indexed kind found) complains
    · exact .deeper (.index kind found yields member) complains
    · exact .here (.unexpected rfl other genuine)

theorem complains_primary {node : Node} :
    Complains source .primary node seen ↔
      (node.kind = "number" ∧ Decimal.parseI64 (node.text source) = none ∧
        seen = (.invalidLiteral, node.span)) ∨
      (node.kind = "array" ∧ ∃ child ∈ node.expressions, Complains source .expression child seen) ∨
      (node.kind = "string" ∧ ∃ inner, node.firstNamed = some inner ∧
        inner.kind = "double_quoted_string" ∧ Complains source .doubleQuoted inner seen) ∨
      (node.kind = "squiggle" ∧ node.has "name" = true ∧
        ∃ inner, Interpolates node inner ∧ Complains source .expression inner seen) ∨
      (node.kind ∉ primaryKinds ∧ node.recovers = false ∧ seen = (.unexpectedNode, node.span)) := by
  constructor
  · rintro (fault | ⟨visits, complains⟩)
    · cases fault with
      | missingField required => simp [Role.required] at required
      | unexpected takes other genuine =>
        obtain rfl := Option.some.inj takes
        exact .inr (.inr (.inr (.inr ⟨other, genuine, rfl⟩)))
      | number kind overflows => exact .inl ⟨kind, overflows, rfl⟩
    · cases visits with
      | element kind member => exact .inr (.inl ⟨kind, _, member, complains⟩)
      | doubleQuoted kind first double =>
        exact .inr (.inr (.inl ⟨kind, _, first, double, complains⟩))
      | squigglePart kind name part =>
        exact .inr (.inr (.inr (.inl ⟨kind, name, _, part, complains⟩)))
  · rintro (⟨kind, overflows, rfl⟩ | ⟨kind, _, member, complains⟩ |
      ⟨kind, _, first, double, complains⟩ | ⟨kind, name, _, part, complains⟩ | ⟨other, genuine, rfl⟩)
    · exact .here (.number kind overflows)
    · exact .deeper (.element kind member) complains
    · exact .deeper (.doubleQuoted kind first double) complains
    · exact .deeper (.squigglePart kind name part) complains
    · exact .here (.unexpected rfl other genuine)

/-- Lowering an expression makes the complaints about it, and gives a value where
the node has one. -/
def Told (source : Text) (node : Node) : Prop :=
  (lowerExpression source node).Exactly mark (Complains source .expression node)
    fun value => value.isSome ↔ Yields source node

def ToldBelow (source : Text) (node : Node) : Prop :=
  ∀ inner : Node, sizeOf inner < sizeOf node → Told source inner

theorem ToldBelow.child {node child : Node} (below : ToldBelow source node)
    (member : child ∈ node.children) : ToldBelow source child :=
  fun inner smaller => below inner (smaller.trans (Node.sizeOf_lt_of_mem member))

theorem ToldBelow.of_mem {node child : Node} (below : ToldBelow source node)
    (member : child ∈ node.children) : Told source child :=
  below child (Node.sizeOf_lt_of_mem member)

theorem complainsBelow_member {node object : Node}
    (found : node.childByFieldName "object" = some object) :
    ComplainsBelow source .member node seen ↔
      Role.member.Named node ∧ Complains source .expression object seen := by
  constructor
  · rintro ⟨next, child, visits, complains⟩
    cases visits with
    | object named other =>
      obtain rfl := Option.some.inj (found.symm.trans other)
      exact ⟨named, complains⟩
  · rintro ⟨named, complains⟩
    exact ⟨_, _, .object named found, complains⟩

theorem lowerMemberExpression_exactly {node : Node} (below : ToldBelow source node)
    (kind : node.kind = "member_expression") :
    (lowerMemberExpression source node).Exactly mark
      (fun seen => node.has "object" = true ∧ Complains source .member node seen)
      fun value => value.isSome ↔ Yields source node := by
  have required : Role.member.required = some "property" := rfl
  rw [lowerMemberExpression, yields_iff]
  split
  · next absent =>
    refine Exactly.congr (.pure ?_) fun seen => by simp [Node.has, absent]
    simp [kind, absent, primaryKinds]
  · next object found =>
    have present : node.has "object" = true := by simp [Node.has, found]
    refine Exactly.congr (required_exactly required (fun unnamed => .pure ?_) fun named property => ?_)
      fun seen => by simp [present]
    · have lacks : node.has "property" = false := by simpa [named_iff required] using unnamed
      simp [kind, found, primaryKinds, lacks]
    · refine Exactly.congr (.bindSome (below.of_mem (Node.mem_of_childByFieldName found))
        (fun lacks => .pure ?_) fun has object => .pure ?_) fun seen => ?_
      · simp [kind, found, primaryKinds, lacks]
      · simpa [kind, found, primaryKinds, has, named_iff required] using named
      · simp [complainsBelow_member found, named]

theorem lowerIndexExpression_exactly {node : Node} (below : ToldBelow source node)
    (kind : node.kind = "index_expression") :
    (lowerIndexExpression source node).Exactly mark
      (fun seen => ∃ object, node.childByFieldName "object" = some object ∧
        (Complains source .expression object seen ∨ Yields source object ∧
          ∃ index ∈ node.childrenByFieldName "index", Complains source .expression index seen))
      fun value => value.isSome ↔ Yields source node := by
  rw [lowerIndexExpression_eq, yields_iff]
  split
  · next absent =>
    refine Exactly.congr (.pure ?_) fun seen => by simp [absent]
    simp [kind, absent, primaryKinds]
  · next object found =>
    refine Exactly.congr (.bindSome (below.of_mem (Node.mem_of_childByFieldName found))
      (fun lacks => .pure ?_) fun has object => .bind (.each fun index member =>
        below.of_mem (Node.mem_of_childrenByFieldName member)) fun _ _ => .pure ?_)
      fun seen => by simp [found]
    · simp [kind, found, primaryKinds, lacks]
    · simp [kind, found, primaryKinds, has]

theorem lowerElement_exactly {child : Node} (told : Told source child) :
    (lowerElement source child).Exactly mark
      (fun seen => child.kind ∈ expressionKinds ∧ Complains source .expression child seen)
      fun _ => True := by
  rw [lowerElement_eq]
  split
  · next kind =>
    exact told.mono (fun seen => by simp [List.contains_iff_mem.mp kind]) fun _ _ => trivial
  · next other =>
    refine Exactly.congr (.pure trivial) fun seen => ?_
    simp [mt List.contains_iff_mem.mpr other]

theorem lowerArray_exactly {node : Node} (below : ToldBelow source node) :
    (lowerArray source node).Exactly mark
      (fun seen => ∃ child ∈ node.expressions, Complains source .expression child seen)
      fun value => value.isSome := by
  rw [lowerArray_eq]
  refine Exactly.congr (.bind (.each fun child member =>
    lowerElement_exactly (below.of_mem (Node.mem_of_namedChildren member))) fun _ _ =>
      .pure rfl) fun seen => ?_
  simp [Node.expressions, Node.mem_ofKind, and_assoc]

/-! ## Strings -/

theorem lowerFragment_exactly {child : Node} {textKind : String} (plain : textKind ≠ "interpolation")
    (below : ToldBelow source child) :
    (lowerFragment source textKind child).Exactly mark
      (fun seen => child.kind = "interpolation" ∧
        ∃ inner, child.firstNamed = some inner ∧ Complains source .expression inner seen)
      fun kept => ∀ text, kept = some (.text text) ↔
        child.kind = textKind ∧ text = textOf source child := by
  rw [lowerFragment]
  by_cases texts : child.kind = textKind
  · rw [if_pos (beq_iff_eq.mpr texts)]
    refine Exactly.congr (.pure fun text => ?_) fun seen => by simp [texts, plain]
    simp [texts, eq_comm]
  · rw [if_neg (mt beq_iff_eq.mp texts)]
    split
    · next interpolates =>
      have kind := beq_iff_eq.mp interpolates
      split
      · next inner first =>
        have told := below.of_mem (Node.mem_of_firstNamed first)
        refine Exactly.congr (.bindSome told (fun _ => .pure ?_) fun _ expr => .pure ?_)
          fun seen => by simp [kind, first]
        · simp [texts]
        · simp [texts]
      · next absent =>
        refine Exactly.congr (.pure ?_) fun seen => by simp [absent]
        simp [texts]
    · next other =>
      refine Exactly.congr (.pure ?_) fun seen => by simp [mt beq_iff_eq.mpr other]
      simp [texts]

theorem collectFragments_exactly {node : Node} {textKind : String} (plain : textKind ≠ "interpolation")
    (below : ToldBelow source node) :
    (collectFragments source node textKind).Exactly mark
      (fun seen => ∃ inner, Interpolates node inner ∧ Complains source .expression inner seen)
      fun fragments => ∀ text, .text text ∈ fragments ↔
        ∃ child ∈ node.ofKind [textKind], text = textOf source child := by
  rw [collectFragments_eq]
  refine Exactly.mono (.each fun child member =>
    lowerFragment_exactly plain (below.child (Node.mem_of_namedChildren member)))
    (fun seen => ?_) fun fragments collected text => ?_
  · simp only [Interpolates, Node.mem_ofKind, List.mem_singleton]
    constructor
    · rintro ⟨child, member, kind, inner, first, complains⟩
      exact ⟨inner, ⟨child, ⟨member, kind⟩, first⟩, complains⟩
    · rintro ⟨inner, ⟨child, ⟨member, kind⟩, first⟩, complains⟩
      exact ⟨child, member, kind, inner, first, complains⟩
  · simp only [Node.mem_ofKind, List.mem_singleton]
    constructor
    · intro inside
      obtain ⟨child, member, keeps⟩ := collected.1 _ inside
      obtain ⟨kind, same⟩ := (keeps text).mp rfl
      exact ⟨child, ⟨member, kind⟩, same⟩
    · rintro ⟨child, ⟨member, kind⟩, same⟩
      obtain ⟨kept, keeps, within⟩ := collected.2 child member
      exact within _ ((keeps text).mpr ⟨kind, same⟩)

theorem unescapeFragment_exactly (node : Node) (fragment : StringFragment) :
    (unescapeFragment node fragment).Exactly mark
      (fun seen => ∃ text message, fragment = .text text ∧ unescape text.toList = .error message ∧
        seen = (.invalidEscape, node.span)) fun _ => True := by
  cases fragment with
  | text text =>
    rw [unescapeFragment]
    split
    · next decoded escapes => exact Exactly.congr (.pure trivial) fun seen => by simp [escapes]
    · next message unknown =>
      refine Exactly.congr (.bind (.report _) fun _ _ => .pure trivial) fun seen => ?_
      simp [unknown, mark, Diagnostic.error]
  | interpolation expr => exact Exactly.congr (.pure trivial) fun seen => by simp

theorem complains_doubleQuoted {node : Node} :
    Complains source .doubleQuoted node seen ↔
      (∃ inner, Interpolates node inner ∧ Complains source .expression inner seen) ∨
      ∃ child ∈ node.ofKind ["string_content"], ∃ message,
        unescape (child.text source) = .error message ∧ seen = (.invalidEscape, node.span) := by
  constructor
  · rintro (fault | ⟨visits, complains⟩)
    · cases fault with
      | missingField required => simp [Role.required] at required
      | unexpected takes => simp [Role.takes] at takes
      | escape member unknown => exact .inr ⟨_, member, _, unknown, rfl⟩
    · cases visits with
      | quotedPart part => exact .inl ⟨_, part, complains⟩
  · rintro (⟨_, part, complains⟩ | ⟨_, member, _, unknown, rfl⟩)
    · exact .deeper (.quotedPart part) complains
    · exact .here (.escape member unknown)

theorem lowerStringFragments_exactly {node : Node} (below : ToldBelow source node) :
    (lowerStringFragments source node).Exactly mark (Complains source .doubleQuoted node)
      fun _ => True := by
  rw [lowerStringFragments]
  refine Exactly.congr (.bind (collectFragments_exactly (by decide) below) fun fragments texts =>
    Exactly.mono (.each fun fragment _ => unescapeFragment_exactly node fragment) (fun seen => ?_)
      fun _ _ => trivial) fun seen => complains_doubleQuoted.symm
  constructor
  · rintro ⟨_, inside, text, message, rfl, unknown, rfl⟩
    obtain ⟨child, member, rfl⟩ := (texts text).mp inside
    rw [textOf, String.toList_ofList] at unknown
    exact ⟨child, member, message, unknown, rfl⟩
  · rintro ⟨child, member, message, unknown, rfl⟩
    refine ⟨_, (texts _).mpr ⟨child, member, rfl⟩, _, message, rfl, ?_, rfl⟩
    rw [textOf, String.toList_ofList]
    exact unknown

theorem unquote_exactly (raw : Text) :
    (unquote raw).Exactly mark (fun _ => False) fun _ => True := by
  rw [unquote]
  split
  · exact .pure trivial
  · exact .panicked

/-- The value of a node whose kind lets it have one, without complaint. -/
theorem primary_quiet {node : Node} {value : Option Expr}
    (quiet : ∀ seen, ¬ Complains source .primary node seen)
    (yields : value.isSome ↔ primaryYields source node = true) :
    (pure value : Lowering (Option Expr)).Exactly mark (Complains source .primary node)
      fun value => value.isSome ↔ primaryYields source node = true :=
  Exactly.congr (.pure yields) fun seen => iff_of_false id (quiet seen)

theorem lowerString_exactly {node : Node} (below : ToldBelow source node) (kind : node.kind = "string") :
    (lowerString source node).Exactly mark (Complains source .primary node)
      fun value => value.isSome ↔ primaryYields source node = true := by
  have complains_iff : ∀ seen, Complains source .primary node seen ↔
      ∃ inner, node.firstNamed = some inner ∧ inner.kind = "double_quoted_string" ∧
        Complains source .doubleQuoted inner seen := by
    simp [complains_primary, kind, primaryKinds]
  rw [lowerString]
  split
  · next absent =>
    refine primary_quiet (by simp [complains_iff, absent]) ?_
    simp [primaryYields, kind, absent]
  · next inner first =>
    split
    · next double =>
      refine Exactly.congr (.bind (lowerStringFragments_exactly
        (below.child (Node.mem_of_firstNamed first))) fun _ _ => .pure ?_) fun seen => ?_
      · simp [primaryYields, kind, first, double]
      · simp [complains_iff, first, double]
    · next single =>
      refine Exactly.congr (.bind (unquote_exactly _) fun _ _ => .pure ?_) fun seen => ?_
      · simp [primaryYields, kind, first, single]
      · simp [complains_iff, first, single]
    · next double single =>
      have neither : inner.kind ≠ "double_quoted_string" ∧ inner.kind ≠ "single_quoted_string" :=
        ⟨double, single⟩
      refine primary_quiet (by simp [complains_iff, first, neither]) ?_
      simp [primaryYields, kind, first, neither]

theorem lowerSquiggle_exactly {node : Node} (below : ToldBelow source node)
    (kind : node.kind = "squiggle") :
    (lowerSquiggle source node).Exactly mark (Complains source .primary node)
      fun value => value.isSome ↔ primaryYields source node = true := by
  have complains_iff : ∀ seen, Complains source .primary node seen ↔ node.has "name" = true ∧
      ∃ inner, Interpolates node inner ∧ Complains source .expression inner seen := by
    simp [complains_primary, kind, primaryKinds]
  rw [lowerSquiggle]
  split
  · next absent =>
    refine primary_quiet (by simp [complains_iff, Node.has, absent]) ?_
    simp [primaryYields, kind, Node.has, absent]
  · next name found =>
    refine Exactly.congr (.bind (collectFragments_exactly (by decide) below) fun _ _ => .pure ?_)
      fun seen => ?_
    · simp [primaryYields, kind, Node.has, found]
    · simp [complains_iff, Node.has, found]

theorem lowerNumber_exactly {node : Node} (kind : node.kind = "number") :
    (lowerNumber source node).Exactly mark (Complains source .primary node)
      fun value => value.isSome ↔ primaryYields source node = true := by
  have complains_iff : ∀ seen, Complains source .primary node seen ↔
      Decimal.parseI64 (node.text source) = none ∧ seen = (.invalidLiteral, node.span) := by
    simp [complains_primary, kind, primaryKinds]
  rw [lowerNumber]
  split
  · next value fits =>
    refine primary_quiet (by simp [complains_iff, fits]) ?_
    simp [primaryYields, kind, fits]
  · next overflows =>
    refine Exactly.congr (.bind (.report _) fun _ _ => .pure ?_) fun seen => ?_
    · simp [primaryYields, kind, overflows]
    · simp [complains_iff, overflows, mark, Diagnostic.error]

/-- A node of none of the kinds is of none of them. -/
theorem unlike {node : Node} {kinds : List String} (other : node.kind ∉ kinds) {kind : String}
    (listed : kind ∈ kinds) : node.kind ≠ kind :=
  fun same => other (same ▸ listed)

theorem primaryYields_of_other {node : Node} (other : node.kind ∉ primaryKinds) :
    primaryYields source node = false := by
  rw [primaryYields]
  split
  case h_9 => rfl
  all_goals
    next kind =>
    exact absurd kind (unlike other (by decide))

/-- A literal of a kind that cannot be wrong. -/
theorem literal_quiet {node : Node} {value : Option Expr}
    (kind : node.kind ∈ ["identifier", "boolean", "null", "atom"])
    (yields : value.isSome ↔ primaryYields source node = true) :
    (pure value : Lowering (Option Expr)).Exactly mark (Complains source .primary node)
      fun value => value.isSome ↔ primaryYields source node = true := by
  refine primary_quiet (fun seen => ?_) yields
  simp only [List.mem_cons, List.not_mem_nil, or_false] at kind
  rcases kind with kind | kind | kind | kind
  all_goals simp [complains_primary, kind, primaryKinds]

theorem lowerPrimary_exactly {node : Node} (below : ToldBelow source node) :
    (lowerPrimary source node).Exactly mark (Complains source .primary node)
      fun value => value.isSome ↔ primaryYields source node = true := by
  rw [lowerPrimary]
  split
  · next kind => exact literal_quiet (by simp [kind]) (by simp [primaryYields, kind])
  · next kind => exact lowerNumber_exactly kind
  · next kind => exact literal_quiet (by simp [kind]) (by simp [primaryYields, kind])
  · next kind => exact literal_quiet (by simp [kind]) (by simp [primaryYields, kind])
  · next kind =>
    refine literal_quiet (by simp [kind]) ?_
    simp [primaryYields, kind, lowerIdentFromFirstChild]
  · next kind => exact lowerString_exactly below kind
  · next kind => exact lowerSquiggle_exactly below kind
  · next kind =>
    refine Exactly.mono (lowerArray_exactly below) (fun seen => ?_) fun value some_ => ?_
    · simp [complains_primary, kind, primaryKinds]
    · simp [primaryYields, kind, some_]
  · next identifier number boolean null atom string squiggle array =>
    have other : node.kind ∉ primaryKinds := by
      simp only [primaryKinds, List.mem_cons, List.not_mem_nil, or_false, not_or]
      exact ⟨identifier, string, squiggle, number, boolean, null, atom, array⟩
    refine unexpected_exactly (fun seen => ?_) ?_ _
    · simp [complains_primary, other, unlike other (by decide : "number" ∈ primaryKinds),
        unlike other (by decide : "array" ∈ primaryKinds),
        unlike other (by decide : "string" ∈ primaryKinds),
        unlike other (by decide : "squiggle" ∈ primaryKinds)]
    · simp [primaryYields_of_other other]

theorem not_compound {node : Node} (other : ∀ kind ∈ expressionKinds, node.kind ≠ kind) :
    node.kind ≠ "primary_expression" ∧ node.kind ≠ "member_expression" ∧
      node.kind ≠ "index_expression" :=
  ⟨other _ (by decide), other _ (by decide), other _ (by decide)⟩

/-- A value that stands where an expression is expected. -/
theorem lowerPrimary_told {node : Node} (below : ToldBelow source node)
    (kind : node.kind ∈ primaryKinds) :
    (lowerPrimary source node).Exactly mark (Complains source .expression node)
      fun value => value.isSome ↔ Yields source node := by
  have apart : expressionKinds.all fun kind => !primaryKinds.contains kind := by decide
  have compound := @not_compound node fun composed listed same => by
    simpa [← same, kind] using List.all_eq_true.mp apart _ listed
  refine Exactly.mono (lowerPrimary_exactly below) (fun seen => ?_) fun value yields => ?_
  · rw [complains_expression]
    simp [kind, compound]
  · rw [yields_iff]
    simp [yields, kind, compound]

theorem told_of_below {node : Node} (below : ToldBelow source node) : Told source node := by
  rw [Told, lowerExpression]
  split
  · next kind =>
    split
    · next child first =>
      refine Exactly.mono (lowerPrimary_exactly (below.child (Node.mem_of_firstNamed first)))
        (fun seen => ?_) fun value yields => ?_
      · rw [complains_expression]
        simp [kind, first, primaryKinds, expressionKinds]
      · rw [yields_iff]
        simp [kind, first, yields, primaryKinds]
    · next absent =>
      refine Exactly.congr (.pure ?_) fun seen => ?_
      · rw [yields_iff]
        simp [kind, absent, primaryKinds]
      · rw [complains_expression]
        simp [kind, absent, primaryKinds, expressionKinds]
  · next kind =>
    refine Exactly.congr (lowerMemberExpression_exactly below kind) fun seen => ?_
    rw [complains_expression]
    simp [kind, primaryKinds, expressionKinds]
  · next kind =>
    refine Exactly.congr (lowerIndexExpression_exactly below kind) fun seen => ?_
    rw [complains_expression]
    simp [kind, primaryKinds, expressionKinds]
  case h_12 primary member index identifier string number boolean null atom array squiggle =>
    have other : node.kind ∉ expressionKinds ++ primaryKinds := by
      simp only [expressionKinds, primaryKinds, List.cons_append, List.nil_append, List.mem_cons,
        List.not_mem_nil, or_false, not_or]
      exact ⟨member, index, primary, identifier, string, squiggle, number, boolean, null, atom, array⟩
    have value := mt (List.mem_append_right expressionKinds) other
    have compound := not_compound fun _ listed => unlike other (List.mem_append_left _ listed)
    refine unexpected_exactly (fun seen => ?_) ?_ _
    · rw [complains_expression]
      simp [other, value, compound]
    · rw [yields_iff]
      simp [value, compound]
  all_goals
    next kind =>
    exact lowerPrimary_told below (by rw [kind]; decide)

/-- Every expression makes exactly the complaints about it. -/
theorem lowerExpression_exactly (node : Node) : Told source node := by
  -- By size, as an interpolated expression is not a child but a child of one.
  induction size : sizeOf node using Nat.strong_induction_on generalizing node with
  | _ size ih =>
    subst size
    exact told_of_below fun inner smaller => ih _ smaller inner rfl

end

end Ill.Lower
