import Ill.Lower.FaithfulExpr

/-!
# What lowering complains about

Lowering goes through a tree role by role and pushes a diagnostic of its own
where a node is not what its role takes. Which nodes it comes to and what is at
fault with them is said here of the tree alone.
-/

namespace Ill.Lower

open Base Base.Utf8 Base.Reporting Ast

/-- The node is one that the parser made up to recover from an error. -/
def Node.recovers (node : Node) : Bool := node.isError || node.isMissing

def Node.has (node : Node) (field : String) : Bool := (node.childByFieldName field).isSome

section

variable (source : Text)

/-- A node of a value has one. -/
def primaryYields (node : Node) : Bool :=
  match node.kind with
  | "identifier" | "boolean" | "null" | "array" => true
  | "number" => (Decimal.parseI64 (node.text source)).isSome
  | "atom" => node.firstNamed.isSome
  | "string" => node.firstNamed.any fun inner =>
    ["double_quoted_string", "single_quoted_string"].contains inner.kind
  | "squiggle" => node.has "name"
  | _ => false

/-- An expression node has a value, whatever is at fault below it. -/
inductive Yields : Node → Prop where
  | wrapped {node child : Node} (kind : node.kind = "primary_expression")
      (first : node.firstNamed = some child) (yields : primaryYields source child = true) : Yields node
  | bare {node : Node} (kind : node.kind ∈ primaryKinds) (yields : primaryYields source node = true) :
      Yields node
  | member {node object : Node} (kind : node.kind = "member_expression")
      (found : node.childByFieldName "object" = some object) (property : node.has "property" = true)
      (yields : Yields object) : Yields node
  | index {node object : Node} (kind : node.kind = "index_expression")
      (found : node.childByFieldName "object" = some object) (yields : Yields object) : Yields node

/-- Both sides of a keyword pair have a value. -/
def PairYields (node : Node) : Prop :=
  ∃ key value, node.childByFieldName "key" = some key ∧
    node.childByFieldName "value" = some value ∧ Yields source key ∧ Yields source value

end

/-! ## The visit of a tree -/

/-- What a node is lowered as. -/
inductive Role where
  | file | item | actorDeclaration | actorProperty | keyedProperty | varDeclaration
  | asBlock | statement | command | keywordArg | keywordPair
  | assert | comparisonOp | letStatement | parseExpression | assignment
  | expression | member | primary | doubleQuoted
deriving DecidableEq, Repr

/-- The field for the identifier without which a node is not lowered. -/
def Role.required : Role → Option String
  | .actorDeclaration | .varDeclaration | .command | .letStatement => some "name"
  | .keyedProperty | .keywordArg => some "key"
  | .asBlock => some "actor"
  | .parseExpression => some "format"
  | .member => some "property"
  | _ => none

/-- The kinds a role takes, if it looks at the kind. -/
def Role.takes : Role → Option (List String)
  | .item => some ["actor_declaration", "as_block", "NEWLINE", "comment"]
  | .statement => some (statementKinds ++ ["INDENT", "DEDENT", "NEWLINE", "comment"])
  | .expression => some (expressionKinds ++ primaryKinds)
  | .primary => some primaryKinds
  | _ => none

/-- The node has the identifier that its role requires. -/
def Role.Named (role : Role) (node : Node) : Prop := ∀ field ∈ role.required, node.has field = true

/-- The expression that a string or a squiggle interpolates. -/
def Interpolates (node inner : Node) : Prop :=
  ∃ child ∈ node.ofKind ["interpolation"], child.firstNamed = some inner

section

variable (source : Text)

/-- A node that lowering comes to from another one. -/
inductive Visits : Role → Node → Role → Node → Prop where
  | item {node child : Node} (member : child ∈ node.namedChildren) : Visits .file node .item child
  | actorDeclaration {node : Node} (kind : node.kind = "actor_declaration") :
      Visits .item node .actorDeclaration node
  | asBlock {node : Node} (kind : node.kind = "as_block") : Visits .item node .asBlock node
  | actorProperty {node type property : Node} (named : Role.actorDeclaration.Named node)
      (found : node.childByFieldName "type" = some type) (typed : type.firstNamed.isSome = true)
      (member : property ∈ propertiesOf node) : Visits .actorDeclaration node .actorProperty property
  | varDeclaration {node block var : Node} (found : (node.ofKind ["vars_block"]).head? = some block)
      (member : var ∈ block.ofKind ["var_declaration"]) :
      Visits .actorProperty node .varDeclaration var
  | keyedProperty {node : Node} (plain : hasVars node = false) :
      Visits .actorProperty node .keyedProperty node
  | propertyValue {node value : Node} (named : Role.keyedProperty.Named node)
      (found : node.childByFieldName "value" = some value) :
      Visits .keyedProperty node .expression value
  | default {node value : Node} (named : Role.varDeclaration.Named node)
      (found : node.childByFieldName "default" = some value) :
      Visits .varDeclaration node .expression value
  | statement {node block child : Node} (named : Role.asBlock.Named node)
      (inside : block ∈ node.ofKind ["block"]) (member : child ∈ block.namedChildren) :
      Visits .asBlock node .statement child
  | command {node : Node} (kind : node.kind = "command") : Visits .statement node .command node
  | assert {node : Node} (kind : node.kind = "assert_statement") : Visits .statement node .assert node
  | letStatement {node : Node} (kind : node.kind = "let_statement") :
      Visits .statement node .letStatement node
  | assignment {node : Node} (kind : node.kind = "assignment_statement") :
      Visits .statement node .assignment node
  | positional {node child : Node} (named : Role.command.Named node)
      (member : child ∈ node.expressions) : Visits .command node .expression child
  | keywordArg {node child : Node} (named : Role.command.Named node)
      (member : child ∈ keywordArgsOf node) : Visits .command node .keywordArg child
  | keywordPair {node pair : Node} (named : Role.keywordArg.Named node)
      (member : pair ∈ node.ofKind ["keyword_pair"]) : Visits .keywordArg node .keywordPair pair
  /-- The value is taken when no pair is left. -/
  | keywordValue {node value : Node} (named : Role.keywordArg.Named node)
      (dropped : ∀ pair ∈ node.ofKind ["keyword_pair"], ¬ PairYields source pair)
      (found : node.childByFieldName "value" = some value) : Visits .keywordArg node .expression value
  | pairKey {node key : Node} (found : node.childByFieldName "key" = some key)
      (other : node.has "value" = true) : Visits .keywordPair node .expression key
  | pairValue {node key value : Node} (found : node.childByFieldName "key" = some key)
      (yields : Yields source key) (other : node.childByFieldName "value" = some value) :
      Visits .keywordPair node .expression value
  | left {node left : Node} (found : node.childByFieldName "left" = some left) :
      Visits .assert node .expression left
  | operator {node left operator : Node} (found : node.childByFieldName "left" = some left)
      (yields : Yields source left) (other : node.childByFieldName "operator" = some operator) :
      Visits .assert node .comparisonOp operator
  | right {node left right : Node} (found : node.childByFieldName "left" = some left)
      (yields : Yields source left) (other : node.childByFieldName "right" = some right) :
      Visits .assert node .expression right
  | letValue {node value : Node} (named : Role.letStatement.Named node)
      (found : node.childByFieldName "value" = some value) (plain : value.kind ≠ "parse_expression") :
      Visits .letStatement node .expression value
  | parseExpression {node value : Node} (named : Role.letStatement.Named node)
      (found : node.childByFieldName "value" = some value) (kind : value.kind = "parse_expression")
      (parsed : value.has "source" = true) : Visits .letStatement node .parseExpression value
  | parsed {node inner : Node} (named : Role.parseExpression.Named node)
      (found : node.childByFieldName "source" = some inner) :
      Visits .parseExpression node .expression inner
  | target {node target : Node} (found : node.childByFieldName "target" = some target) :
      Visits .assignment node .expression target
  | assigned {node target value : Node} (found : node.childByFieldName "target" = some target)
      (yields : Yields source target) (other : node.childByFieldName "value" = some value) :
      Visits .assignment node .expression value
  | wrapped {node child : Node} (kind : node.kind = "primary_expression")
      (first : node.firstNamed = some child) : Visits .expression node .primary child
  | bare {node : Node} (kind : node.kind ∈ primaryKinds) : Visits .expression node .primary node
  | member {node : Node} (kind : node.kind = "member_expression") (found : node.has "object" = true) :
      Visits .expression node .member node
  | object {node object : Node} (named : Role.member.Named node)
      (found : node.childByFieldName "object" = some object) : Visits .member node .expression object
  | indexed {node object : Node} (kind : node.kind = "index_expression")
      (found : node.childByFieldName "object" = some object) :
      Visits .expression node .expression object
  | index {node object index : Node} (kind : node.kind = "index_expression")
      (found : node.childByFieldName "object" = some object) (yields : Yields source object)
      (member : index ∈ node.childrenByFieldName "index") : Visits .expression node .expression index
  | element {node child : Node} (kind : node.kind = "array") (member : child ∈ node.expressions) :
      Visits .primary node .expression child
  | doubleQuoted {node inner : Node} (kind : node.kind = "string")
      (first : node.firstNamed = some inner) (double : inner.kind = "double_quoted_string") :
      Visits .primary node .doubleQuoted inner
  | quotedPart {node inner : Node} (part : Interpolates node inner) :
      Visits .doubleQuoted node .expression inner
  | squigglePart {node inner : Node} (kind : node.kind = "squiggle") (name : node.has "name" = true)
      (part : Interpolates node inner) : Visits .primary node .expression inner

/-- What is wrong with a node itself, by the code of the diagnostic. -/
inductive Fault : Role → Node → DiagnosticCode → Prop where
  | missingField {role : Role} {node : Node} {field : String} (required : role.required = some field)
      (lacks : node.has field = false) : Fault role node .missingField
  | unexpected {role : Role} {node : Node} {kinds : List String} (takes : role.takes = some kinds)
      (other : node.kind ∉ kinds) (genuine : node.recovers = false) : Fault role node .unexpectedNode
  | number {node : Node} (kind : node.kind = "number")
      (overflows : Decimal.parseI64 (node.text source) = none) :
      Fault .primary node .invalidLiteral
  | operator {node : Node} (unknown : comparisonOf? (textOf source node) = none) :
      Fault .comparisonOp node .invalidLiteral
  | escape {node child : Node} {message : String} (member : child ∈ node.ofKind ["string_content"])
      (unknown : unescape (child.text source) = .error message) :
      Fault .doubleQuoted node .invalidEscape

/-- The code and the span of a fault at a node that lowering visits from this one. -/
inductive Complains : Role → Node → DiagnosticCode × Span → Prop where
  | here {role : Role} {node : Node} {code : DiagnosticCode} (fault : Fault source role node code) :
      Complains role node (code, node.span)
  | deeper {role next : Role} {node child : Node} {seen : DiagnosticCode × Span}
      (visits : Visits source role node next child) (complains : Complains next child seen) :
      Complains role node seen

/-- A complaint at a node that lowering visits from this one. -/
def ComplainsBelow (role : Role) (node : Node) (seen : DiagnosticCode × Span) : Prop :=
  ∃ next child, Visits source role node next child ∧ Complains source next child seen

end

/-- What is told apart of a diagnostic. -/
def mark (item : Diagnostic) : DiagnosticCode × Span := (item.code, item.span)

/-! ## Roles -/

section

variable {source : Text} {seen : DiagnosticCode × Span}

/-- A role whose required identifier is missing visits nothing. -/
theorem Visits.named {role next : Role} {node child : Node}
    (visits : Visits source role node next child) : role.Named node := by
  cases visits
  all_goals first
    | assumption
    | exact nofun

theorem named_iff {role : Role} {node : Node} {field : String} (required : role.required = some field) :
    role.Named node ↔ node.has field = true := by
  simp [Role.Named, required]

/-- A role that requires an identifier is at fault only without it. -/
theorem complains_required {role : Role} {node : Node} {field : String}
    (required : role.required = some field) :
    Complains source role node seen ↔
      (node.has field = false ∧ seen = (.missingField, node.span)) ∨
        role.Named node ∧ ComplainsBelow source role node seen := by
  constructor
  · rintro (fault | ⟨visits, complains⟩)
    · cases fault with
      | missingField other lacks =>
        obtain rfl := Option.some.inj (required.symm.trans other)
        exact .inl ⟨lacks, rfl⟩
      | unexpected takes => cases role <;> simp [Role.required, Role.takes] at required takes
      | number | operator | escape => simp [Role.required] at required
    · exact .inr ⟨visits.named, _, _, visits, complains⟩
  · rintro (⟨lacks, rfl⟩ | ⟨-, next, child, visits, complains⟩)
    · exact .here (.missingField required lacks)
    · exact .deeper visits complains

/-- The roles of which no node is at fault by itself. -/
def Role.faultless : List Role := [.file, .actorProperty, .keywordPair, .assert, .assignment]

theorem complains_below {role : Role} {node : Node} (faultless : role ∈ Role.faultless) :
    Complains source role node seen ↔ ComplainsBelow source role node seen := by
  constructor
  · rintro (fault | ⟨visits, complains⟩)
    · cases fault with
      | missingField required => cases role <;> simp [Role.required, Role.faultless] at required faultless
      | unexpected takes => cases role <;> simp [Role.takes, Role.faultless] at takes faultless
      | number | operator | escape => simp [Role.faultless] at faultless
    · exact ⟨_, _, visits, complains⟩
  · rintro ⟨next, child, visits, complains⟩
    exact .deeper visits complains

end

end Ill.Lower
