import Ill.Base.Regular

/-!
# The rules of the grammar

The rules of `grammar.js` over the visible children of a node: a child is a
named node or a literal, and may fill a field. A hidden rule, whose name starts
with an underscore in the source, stands for its children and has no node.
-/

namespace Ill.Grammar

open Ill.Base.Regular

/-- What a rule says of one child. -/
structure Label where
  field : Option String
  kind : String
  named : Bool
deriving DecidableEq, Repr

abbrev Rule := RegularExpression Label

namespace Rule

/-- A named node: `$.kind`. -/
def symbol (kind : String) : Rule := .char ⟨none, kind, true⟩

def literal (text : String) : Rule := .char ⟨none, text, false⟩

/-- Every child that the rule lists fills the field. -/
def field (name : String) (rule : Rule) : Rule :=
  rule.map fun label => { label with field := some name }

def seq : List Rule → Rule
  | [] => 1
  | rule :: rest => rule * seq rest

def choice : List Rule → Rule
  | [] => 0
  | rule :: rest => rule + choice rest

def «repeat» (rule : Rule) : Rule := rule.star

def repeat1 (rule : Rule) : Rule := rule * rule.star

def optional (rule : Rule) : Rule := 1 + rule

def newline : Rule := symbol "NEWLINE"

def indent : Rule := symbol "INDENT"

def dedent : Rule := symbol "DEDENT"

def identifier : Rule := symbol "identifier"

/-- `newline_list` -/
def newlineList (rule : Rule) : Rule := seq [rule, «repeat» (seq [repeat1 newline, rule])]

/-- The layout of an indented list. -/
def indented (list : Rule) : Rule := seq [indent, «repeat» newline, list, dedent]

/-! ## Declarations -/

/-- `_top_level` -/
def topLevel : Rule := choice [symbol "actor_declaration", symbol "as_block"]

def sourceFile : Rule := «repeat» (choice [topLevel, newline])

def actorDeclaration : Rule :=
  seq [literal "actor", field "name" identifier, literal "=", field "type" (symbol "actor_type"),
    optional (seq [literal ",", symbol "actor_body"])]

def actorType : Rule := identifier

/-- `actor_body`, with `_actor_property_list` -/
def actorBody : Rule := indented (newlineList (symbol "actor_property"))

/-- `_expression` -/
def expression : Rule :=
  choice [symbol "member_expression", symbol "index_expression", symbol "primary_expression"]

def actorProperty : Rule :=
  choice [seq [field "key" identifier, literal ":", field "value" expression], symbol "vars_block"]

/-- `vars_block`, with `_var_list` -/
def varsBlock : Rule :=
  seq [literal "vars", literal ":", indented (newlineList (symbol "var_declaration"))]

def varDeclaration : Rule :=
  seq [«repeat» (symbol "annotation"), field "name" identifier,
    optional (seq [literal ":", field "default" expression]), optional (literal ",")]

/-- `annotation` -/
def marker : Rule :=
  seq [literal "@", symbol "annotation_name", optional (symbol "annotation_value")]

def annotationName : Rule := choice [literal "access", literal "mut", literal "expect"]

def annotationValue : Rule := choice [identifier, symbol "string"]

def asBlock : Rule := seq [literal "as", field "actor" identifier, literal ":", symbol "block"]

/-! ## Statements -/

/-- `_statement` -/
def statement : Rule :=
  choice [symbol "command", symbol "assert_statement", symbol "let_statement",
    symbol "assignment_statement"]

/-- `block`, with `_statement_list` -/
def block : Rule := indented (newlineList statement)

/-- An annotation before a statement may stand on a line of its own. -/
def annotated : Rule := optional (seq [symbol "annotation", «repeat» newline])

/-- `_keyword_section` -/
def keywordSection : Rule := choice [symbol "keyword_block", symbol "inline_keyword_args"]

/-- `_command_tail` -/
def commandTail : Rule :=
  choice [seq [literal ",", keywordSection],
    seq [expression, «repeat» (seq [literal ",", expression]),
      optional (seq [literal ",", keywordSection])]]

def command : Rule := seq [annotated, field "name" identifier, optional commandTail]

/-- `keyword_block`, with `_keyword_list` -/
def keywordBlock : Rule := indented (newlineList (symbol "keyword_arg"))

def inlineKeywordArgs : Rule :=
  seq [symbol "keyword_arg", «repeat» (seq [literal ",", symbol "keyword_arg"])]

/-- `keyword_arg`, with `_keyword_pair_list` -/
def keywordArg : Rule :=
  seq [field "key" identifier, literal ":",
    field "value" (choice [indented (newlineList (symbol "keyword_pair")), expression])]

def keywordPair : Rule := seq [field "key" expression, literal ":", field "value" expression]

def assignmentStatement : Rule :=
  seq [field "target" (choice [symbol "member_expression", identifier]), literal "=",
    field "value" expression]

def assertStatement : Rule :=
  seq [annotated, literal "assert", field "left" expression,
    optional (seq [field "operator" (symbol "comparison_operator"), field "right" expression])]

def comparisonOperator : Rule :=
  choice [literal "==", literal "!=", literal ">", literal ">=", literal "<", literal "<=",
    literal "contains", literal "!contains", literal "matches", literal "!matches"]

def letStatement : Rule :=
  seq [literal "let", field "name" identifier, literal "=",
    field "value" (choice [symbol "parse_expression", expression])]

def parseExpression : Rule :=
  seq [literal "parse", field "source" expression, literal "as", field "format" identifier]

/-! ## Expressions -/

def memberExpression : Rule :=
  seq [field "object" (choice [symbol "member_expression", symbol "primary_expression"]),
    literal ".", field "property" identifier]

def indexExpression : Rule :=
  seq [field "object" (choice [symbol "index_expression", symbol "member_expression",
      symbol "primary_expression"]), literal "[", field "index" expression,
    «repeat» (seq [literal ",", field "index" expression]), literal "]"]

def primaryExpression : Rule :=
  choice [identifier, symbol "string", symbol "squiggle", symbol "number", symbol "boolean",
    symbol "null", symbol "atom", symbol "array"]

def atom : Rule := seq [literal ":", identifier]

def array : Rule :=
  seq [literal "[", expression, «repeat» (seq [literal ",", expression]), literal "]"]

def string : Rule := choice [symbol "double_quoted_string", symbol "single_quoted_string"]

def doubleQuotedString : Rule :=
  seq [literal "\"", «repeat» (choice [symbol "interpolation", symbol "string_content"]),
    literal "\""]

def interpolation : Rule := seq [literal "$\x7b", expression, literal "\x7d"]

def squiggle : Rule :=
  seq [literal "~", field "name" (symbol "squiggle_name"), literal "`",
    «repeat» (choice [symbol "interpolation", symbol "squiggle_content"]), literal "`"]

def squiggleName : Rule := identifier

def boolean : Rule := choice [literal "true", literal "false"]

end Rule

/-- The rule of a kind of node. A kind without one is a token. -/
def production : String → Option Rule
  | "source_file" => some Rule.sourceFile
  | "actor_declaration" => some Rule.actorDeclaration
  | "actor_type" => some Rule.actorType
  | "actor_body" => some Rule.actorBody
  | "actor_property" => some Rule.actorProperty
  | "vars_block" => some Rule.varsBlock
  | "var_declaration" => some Rule.varDeclaration
  | "annotation" => some Rule.marker
  | "annotation_name" => some Rule.annotationName
  | "annotation_value" => some Rule.annotationValue
  | "as_block" => some Rule.asBlock
  | "block" => some Rule.block
  | "command" => some Rule.command
  | "keyword_block" => some Rule.keywordBlock
  | "inline_keyword_args" => some Rule.inlineKeywordArgs
  | "keyword_arg" => some Rule.keywordArg
  | "keyword_pair" => some Rule.keywordPair
  | "assignment_statement" => some Rule.assignmentStatement
  | "assert_statement" => some Rule.assertStatement
  | "comparison_operator" => some Rule.comparisonOperator
  | "let_statement" => some Rule.letStatement
  | "parse_expression" => some Rule.parseExpression
  | "member_expression" => some Rule.memberExpression
  | "index_expression" => some Rule.indexExpression
  | "primary_expression" => some Rule.primaryExpression
  | "atom" => some Rule.atom
  | "array" => some Rule.array
  | "string" => some Rule.string
  | "double_quoted_string" => some Rule.doubleQuotedString
  | "interpolation" => some Rule.interpolation
  | "squiggle" => some Rule.squiggle
  | "squiggle_name" => some Rule.squiggleName
  | "boolean" => some Rule.boolean
  | _ => none

/-- The tokens of the layout scanner. -/
def isLayout (kind : String) : Bool := ["NEWLINE", "INDENT", "DEDENT"].contains kind

/-- A layout token, or a kind of node that can begin with one. -/
def opensLine (kind : String) : Bool :=
  isLayout kind || match production kind with
    | some rule => (firsts rule).any fun label => isLayout label.kind
    | none => false

end Ill.Grammar
