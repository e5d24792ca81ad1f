import Ill.Lower.Conforms

/-!
# What a syntax tree denotes

The abstract syntax that belongs to a concrete syntax tree, said of the
constructs among the children of each node: every one of them has its part, in
order, and there are no others. Comments and punctuation have none. Nothing here
depends on how lowering finds the children.
-/

namespace Ill.Lower

open Base.Utf8 Ast Grammar

section

variable (source : Text)

mutual

/-- An expression node and its expression. -/
inductive Denotes : Node → Expr → Prop where
  | primary {node child : Node} {expr : Expr} (kind : node.kind = "primary_expression")
      (only : node.parts = [child]) (inner : DenotesPrimary child expr) : Denotes node expr
  | member {node object property : Node} {value : Expr} (kind : node.kind = "member_expression")
      (objects : node.expressions = [object]) (properties : node.ofKind ["identifier"] = [property])
      (inner : Denotes object value) :
      Denotes node (.memberAccess value (identFromNode source property) node.span)
  | index {node object : Node} {indices : List Node} {value : Expr} {values : List Expr}
      (kind : node.kind = "index_expression") (subs : node.expressions = object :: indices)
      (inner : Denotes object value) (each : List.Forall₂ Denotes indices values) :
      Denotes node (.index value values node.span)

/-- A node under a primary expression. -/
inductive DenotesPrimary : Node → Expr → Prop where
  | identifier {node : Node} (kind : node.kind = "identifier") :
      DenotesPrimary node (.ident (identFromNode source node))
  | number {node : Node} {value : Int} (kind : node.kind = "number")
      (numeral : Numeral (node.text source) value) : DenotesPrimary node (.number value)
  | boolean {node word : Node} (kind : node.kind = "boolean") (only : node.parts = [word]) :
      DenotesPrimary node (.bool (word.kind == "true"))
  | null {node : Node} (kind : node.kind = "null") : DenotesPrimary node .null
  | atom {node name : Node} (kind : node.kind = "atom") (names : node.ofKind ["identifier"] = [name]) :
      DenotesPrimary node (.atom (identFromNode source name))
  | doubleQuoted {node inner : Node} {fragments : List StringFragment} (kind : node.kind = "string")
      (only : node.parts = [inner]) (double : inner.kind = "double_quoted_string")
      (each : List.Forall₂ DenotesFragment (inner.ofKind ["string_content", "interpolation"]) fragments) :
      DenotesPrimary node (.stringLit fragments node.span)
  | singleQuoted {node inner : Node} {content : Text} (kind : node.kind = "string")
      (only : node.parts = [inner]) (single : inner.kind = "single_quoted_string")
      (quoted : inner.text source = '\'' :: content ++ ['\'']) :
      DenotesPrimary node (.stringLit [.text (String.ofList content)] node.span)
  | squiggle {node name : Node} {fragments : List StringFragment} (kind : node.kind = "squiggle")
      (names : node.ofKind ["squiggle_name"] = [name])
      (each : List.Forall₂ DenotesFragment (node.ofKind ["squiggle_content", "interpolation"])
        fragments) :
      DenotesPrimary node (.squiggle (identFromNode source name) fragments node.span)
  | array {node : Node} {items : List Expr} (kind : node.kind = "array")
      (each : List.Forall₂ Denotes node.expressions items) : DenotesPrimary node (.array items)

/-- A part of a string or of a squiggle, whose text is raw. -/
inductive DenotesFragment : Node → StringFragment → Prop where
  | content {node : Node} {decoded : Text} (kind : node.kind = "string_content")
      (escapes : unescape (node.text source) = .ok decoded) :
      DenotesFragment node (.text (String.ofList decoded))
  | raw {node : Node} (kind : node.kind = "squiggle_content") :
      DenotesFragment node (.text (textOf source node))
  | interpolation {node inner : Node} {expr : Expr} (kind : node.kind = "interpolation")
      (exprs : node.expressions = [inner]) (denotes : Denotes inner expr) :
      DenotesFragment node (.interpolation expr)

end

/-- The value of an annotation: an identifier, or the plain text of a string. An
expression interpolated into that string is left out. -/
inductive DenotesText : Node → String → Prop where
  | identifier {node : Node} (kind : node.kind = "identifier") : DenotesText node (textOf source node)
  | doubleQuoted {node inner : Node} (kind : node.kind = "string") (only : node.parts = [inner])
      (double : inner.kind = "double_quoted_string") :
      DenotesText node (String.ofList ((inner.ofKind ["string_content"]).flatMap (Node.text source)))
  | singleQuoted {node inner : Node} {content : Text} (kind : node.kind = "string")
      (only : node.parts = [inner]) (single : inner.kind = "single_quoted_string")
      (quoted : inner.text source = '\'' :: content ++ ['\'']) :
      DenotesText node (String.ofList content)

/-- The nodes that can be the value of an annotation. -/
def annotationValues (node : Node) : List Node :=
  (node.ofKind ["annotation_value"]).flatMap fun holder => holder.ofKind ["identifier", "string"]

structure DenotesMarker (node : Node) (marker : Annotation) : Prop where
  name : ∃ name, node.ofKind ["annotation_name"] = [name] ∧ marker.name = identFromNode source name
  value : List.Forall₂ (DenotesText source) (annotationValues node) marker.value.toList
  span : marker.span = node.span

/-- An identifier is the one that a node has. -/
def Names (node : Node) (ident : Ident) : Prop :=
  ∃ name, node.ofKind ["identifier"] = [name] ∧ ident = identFromNode source name

structure DenotesPair (node : Node) (pair : Expr × Expr) : Prop where
  sides : ∃ key value, node.expressions = [key, value] ∧ Denotes source key pair.1 ∧
    Denotes source value pair.2

/-- The value of a keyword argument is one expression or a block of pairs. -/
inductive DenotesValue (node : Node) : KeywordValue → Prop where
  | expr {value : Node} {expr : Expr} (none_ : node.ofKind ["keyword_pair"] = [])
      (exprs : node.expressions = [value]) (denotes : Denotes source value expr) :
      DenotesValue node (.expr expr)
  | map {pairs : List (Expr × Expr)} (none_ : node.expressions = [])
      (each : List.Forall₂ (DenotesPair source) (node.ofKind ["keyword_pair"]) pairs) :
      DenotesValue node (.map pairs)

/-- A `keyword_arg`, or a property of an actor. -/
structure DenotesArg (node : Node) (arg : KeywordArg) : Prop where
  key : Names source node arg.key
  value : DenotesValue source node arg.value
  span : arg.span = node.span

/-- The keyword arguments of a command, in an indented block or inline. -/
def keywordArgsOf (node : Node) : List Node :=
  (node.ofKind ["keyword_block", "inline_keyword_args"]).flatMap fun list => list.ofKind ["keyword_arg"]

structure DenotesCommand (node : Node) (command : Ast.Command) : Prop where
  markers : List.Forall₂ (DenotesMarker source) (node.ofKind ["annotation"]) command.annotation.toList
  name : Names source node command.name
  positional : List.Forall₂ (Denotes source) node.expressions command.positionalArgs
  keyword : List.Forall₂ (DenotesArg source) (keywordArgsOf node) command.keywordArgs
  span : command.span = node.span

/-- The comparison that an operator spells. -/
def comparisonOf? : String → Option ComparisonOp
  | "==" => some .eq
  | "!=" => some .notEq
  | ">" => some .gt
  | ">=" => some .gte
  | "<" => some .lt
  | "<=" => some .lte
  | "contains" => some .contains
  | "!contains" => some .notContains
  | "matches" => some .matches
  | "!matches" => some .notMatches
  | _ => none

structure DenotesOperator (node : Node) (op : ComparisonOp) : Prop where
  word : ∃ word, node.parts = [word] ∧ comparisonOf? word.kind = some op

structure DenotesAssert (node : Node) (assert : Assert) : Prop where
  markers : List.Forall₂ (DenotesMarker source) (node.ofKind ["annotation"]) assert.annotation.toList
  sides : List.Forall₂ (Denotes source) node.expressions (assert.left :: assert.right.toList)
  operator : List.Forall₂ DenotesOperator (node.ofKind ["comparison_operator"]) assert.op.toList
  span : assert.span = node.span

/-- What a `let` binds is an expression or the parse of one. -/
inductive DenotesLetValue (node : Node) : LetValue → Prop where
  | expr {value : Node} {expr : Expr} (none_ : node.ofKind ["parse_expression"] = [])
      (exprs : node.expressions = [value]) (denotes : Denotes source value expr) :
      DenotesLetValue node (.expr expr)
  | parse {inner value : Node} {expr : Expr} {format : Ident} (none_ : node.expressions = [])
      (parses : node.ofKind ["parse_expression"] = [inner]) (exprs : inner.expressions = [value])
      (denotes : Denotes source value expr) (names : Names source inner format) :
      DenotesLetValue node (.parse expr format)

structure DenotesLet (node : Node) (letStmt : Let) : Prop where
  name : Names source node letStmt.name
  value : DenotesLetValue source node letStmt.value
  span : letStmt.span = node.span

/-- A target is a member or a plain identifier. -/
inductive DenotesTarget : Node → Expr → Prop where
  | member {node : Node} {expr : Expr} (denotes : Denotes source node expr) : DenotesTarget node expr
  | identifier {node : Node} (kind : node.kind = "identifier") :
      DenotesTarget node (.ident (identFromNode source node))

structure DenotesAssignment (node : Node) (assignment : Assignment) : Prop where
  sides : ∃ target value, node.ofKind ("identifier" :: expressionKinds) = [target, value] ∧
    DenotesTarget source target assignment.target ∧ Denotes source value assignment.value
  span : assignment.span = node.span

/-- The alternatives of `_statement`. -/
def statementKinds : List String :=
  ["command", "assert_statement", "let_statement", "assignment_statement"]

inductive DenotesStatement : Node → Statement → Prop where
  | command {node : Node} {command : Ast.Command} (kind : node.kind = "command")
      (denotes : DenotesCommand source node command) : DenotesStatement node (.command command)
  | assert {node : Node} {assert : Assert} (kind : node.kind = "assert_statement")
      (denotes : DenotesAssert source node assert) : DenotesStatement node (.assert assert)
  | «let» {node : Node} {letStmt : Let} (kind : node.kind = "let_statement")
      (denotes : DenotesLet source node letStmt) : DenotesStatement node (.let letStmt)
  | assignment {node : Node} {assignment : Assignment} (kind : node.kind = "assignment_statement")
      (denotes : DenotesAssignment source node assignment) : DenotesStatement node (.assignment assignment)

/-- The statements of an as-block. -/
def statementsOf (node : Node) : List Node :=
  (node.ofKind ["block"]).flatMap fun block => block.ofKind statementKinds

structure DenotesAsBlock (node : Node) (block : AsBlock) : Prop where
  actor : Names source node block.actor
  body : List.Forall₂ (DenotesStatement source) (statementsOf node) block.body
  span : block.span = node.span

structure DenotesVar (node : Node) (var : VarDeclaration) : Prop where
  markers : List.Forall₂ (DenotesMarker source) (node.ofKind ["annotation"]) var.annotations
  name : Names source node var.name
  default : List.Forall₂ (Denotes source) node.expressions var.default.toList
  span : var.span = node.span

/-- The properties of an actor, which are keyword arguments or blocks of vars. -/
def propertiesOf (node : Node) : List Node :=
  (node.ofKind ["actor_body"]).flatMap fun body => body.ofKind ["actor_property"]

def hasVars (property : Node) : Bool := !(property.ofKind ["vars_block"]).isEmpty

/-- The variables that a property declares. -/
def varsOf (property : Node) : List Node :=
  (property.ofKind ["vars_block"]).flatMap fun block => block.ofKind ["var_declaration"]

structure DenotesActor (node : Node) (decl : ActorDeclaration) : Prop where
  name : Names source node decl.name
  actorType : ∃ type, node.ofKind ["actor_type"] = [type] ∧ Names source type decl.actorType
  keywordArgs : List.Forall₂ (DenotesArg source)
    ((propertiesOf node).filter fun property => !hasVars property) decl.keywordArgs
  vars : List.Forall₂ (DenotesVar source) ((propertiesOf node).flatMap varsOf) decl.vars
  span : decl.span = node.span

inductive DenotesItem : Node → TopLevel → Prop where
  | actorDeclaration {node : Node} {decl : ActorDeclaration} (kind : node.kind = "actor_declaration")
      (denotes : DenotesActor source node decl) : DenotesItem node (.actorDeclaration decl)
  | asBlock {node : Node} {block : AsBlock} (kind : node.kind = "as_block")
      (denotes : DenotesAsBlock source node block) : DenotesItem node (.asBlock block)

/-- A root and its file: one item for each declaration and as-block, in order. -/
def DenotesFile (root : Node) (file : SourceFile) : Prop :=
  List.Forall₂ (DenotesItem source) (root.ofKind ["actor_declaration", "as_block"]) file.items

end

end Ill.Lower
