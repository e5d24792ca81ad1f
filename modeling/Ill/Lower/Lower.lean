import Ill.Base.Decimal
import Ill.Base.Report
import Ill.Lower.Cst
import Ill.Lower.Normalize
import Mathlib.Algebra.Group.Int.Defs

/-!
# Lowering

The pass from the concrete syntax tree to the abstract one. A part that cannot
be lowered is left out, with or without a diagnostic; lowering goes on behind
it. Slicing the quotes off an empty token panics.
-/

namespace Ill.Lower

open Base Base.Utf8 Base.Reporting Ast

abbrev Lowering := Reporting Diagnostic

/-- Process the escape sequences of a double-quoted string fragment. -/
def unescape : Text → Except String Text
  | '\\' :: char :: rest =>
    match char with
    | '\\' => (unescape rest).map ('\\' :: ·)
    | '"' => (unescape rest).map ('"' :: ·)
    | 'n' => (unescape rest).map ('\n' :: ·)
    | 't' => (unescape rest).map ('\t' :: ·)
    | 'r' => (unescape rest).map ('\r' :: ·)
    | '0' => (unescape rest).map ('\x00' :: ·)
    | '$' => (unescape rest).map ('$' :: ·)
    | char => .error s!"unknown escape sequence `\\{char}`"
  | ['\\'] => .error "dangling backslash at end of string"
  | char :: rest => (unescape rest).map (char :: ·)
  | [] => .ok []

def trim (text : Text) : Text := trimEnd (text.dropWhile isWhitespace)

/-- `raw[1..raw.len() - 1]` -/
def unquote (raw : Text) : Lowering Text :=
  match slice? raw 1 (byteSize raw - 1) with
  | some content => return content
  | none => .panicked

section

variable (source : Text)

/-! ## Errors of the parser -/

/-- The diagnostic for an ERROR node under a node of the kind `parent`. -/
def errorDiagnostic (parent : Option String) (span : Span) : Diagnostic :=
  let trimmed := trim ((slice? source span.start span.stop).getD [])
  let preview := String.ofList (trimmed.take 40)
  let suffix_ := if trimmed.length > 40 then "…" else ""
  let parentKind := parent.getD ""
  let outer := parentKind == "" || parentKind == "source_file"
  let message :=
    if trimmed.isEmpty then
      if outer then "unexpected input here" else s!"unexpected input inside `{parentKind}`"
    else s!"unexpected `{preview}{suffix_}`"
  let diagnostic := Diagnostic.error span .parseError message
  if outer then diagnostic else diagnostic.withNote s!"while parsing a `{parentKind}`"

mutual

/-- One diagnostic for each MISSING or ERROR node, without walking into it. -/
def collectErrors (parent : Option String) : Node → List Diagnostic
  | ⟨_, kind, _, isError, isMissing, span, _, children⟩ =>
    if isMissing then
      [.error span .missingToken
        (if kind == "" then "missing token here" else s!"missing `{kind}` here")]
    else if isError then [errorDiagnostic source parent span]
    else collectChildErrors kind children

def collectChildErrors (parent : String) : List Node → List Diagnostic
  | [] => []
  | child :: rest => collectErrors (some parent) child ++ collectChildErrors parent rest

end

/-! ## Identifiers and tokens -/

def textOf (node : Node) : String := String.ofList (node.text source)

def identFromNode (node : Node) : Ident := ⟨textOf source node, node.span⟩

def lowerIdentField (node : Node) (field : String) : Lowering (Option Ident) :=
  match node.childByFieldName field with
  | some child => return some (identFromNode source child)
  | none => do
    let kind := node.kind
    report (.error node.span .missingField s!"`{kind}` is missing required `{field}`")
    return none

def lowerIdentFromFirstChild (node : Node) : Option Ident :=
  node.firstNamed.map (identFromNode source)

/-- A node of no expected kind, unless `collect_errors` has reported it. -/
def reportUnexpected (node : Node) (message : String) : Lowering PUnit :=
  if node.isError || node.isMissing then return ⟨⟩
  else report (.error node.span .unexpectedNode message)

def lowerNumber (node : Node) : Lowering (Option Expr) :=
  match Decimal.parseI64 (node.text source) with
  | some value => return some (.number value)
  | none => do
    let text := textOf source node
    report (.error node.span .invalidLiteral s!"`{text}` is not a valid integer")
    return none

/-- A fragment whose escapes are invalid is reported at its string and stays raw. -/
def unescapeFragment (node : Node) : StringFragment → Lowering (Option StringFragment)
  | .text text =>
    match unescape text.toList with
    | .ok unescaped => return some (.text (String.ofList unescaped))
    | .error message => do
      report (.error node.span .invalidEscape message)
      return some (.text text)
  | fragment => return some fragment

/-! ## Expressions -/

mutual

def lowerExpression (node : Node) : Lowering (Option Expr) :=
  match node.kind with
  | "primary_expression" =>
    match _found : node.firstNamed with
    | some child => lowerPrimary child
    | none => return none
  | "member_expression" => lowerMemberExpression node
  | "index_expression" => lowerIndexExpression node
  | "identifier" | "string" | "number" | "boolean" | "null" | "atom" | "array" | "squiggle" =>
    lowerPrimary node
  | kind => do
    reportUnexpected node s!"expected an expression, found `{kind}`"
    return none
termination_by (sizeOf node, 3)
decreasing_by
  all_goals first
    | exact .right _ (by decide)
    | exact .left _ _ (Node.sizeOf_lt_of_mem (Node.mem_of_firstNamed _found))

def lowerPrimary (node : Node) : Lowering (Option Expr) :=
  match node.kind with
  | "identifier" => return some (.ident (identFromNode source node))
  | "number" => lowerNumber source node
  | "boolean" => return some (.bool (textOf source node == "true"))
  | "null" => return some .null
  | "atom" => return (lowerIdentFromFirstChild source node).map .atom
  | "string" => lowerString node
  | "squiggle" => lowerSquiggle node
  | "array" => lowerArray node
  | kind => do
    reportUnexpected node s!"expected a value, found `{kind}`"
    return none
termination_by (sizeOf node, 2)
decreasing_by all_goals exact .right _ (by decide)

def lowerMemberExpression (node : Node) : Lowering (Option Expr) :=
  match _found : node.childByFieldName "object" with
  | none => return none
  | some objectNode => do
    let some property ← lowerIdentField source node "property" | return none
    let some object ← lowerExpression objectNode | return none
    return some (.memberAccess object property node.span)
termination_by (sizeOf node, 1)
decreasing_by exact .left _ _ (Node.sizeOf_lt_of_mem (Node.mem_of_childByFieldName _found))

def lowerIndexExpression (node : Node) : Lowering (Option Expr) :=
  match _found : node.childByFieldName "object" with
  | none => return none
  | some objectNode => do
    let some object ← lowerExpression objectNode | return none
    let indices ← each (fun child => lowerExpression child.1)
      (node.childrenByFieldName "index").attach
    return some (.index object indices node.span)
termination_by (sizeOf node, 1)
decreasing_by
  · exact .left _ _ (Node.sizeOf_lt_of_mem (Node.mem_of_childByFieldName _found))
  · exact .left _ _ (Node.sizeOf_lt_of_mem (Node.mem_of_childrenByFieldName child.2))

def lowerArray (node : Node) : Lowering (Option Expr) := do
  let elements ← each (fun child =>
    match child.1.kind with
    | "primary_expression" | "member_expression" | "index_expression" => lowerExpression child.1
    | _ => return none) node.namedChildren.attach
  return some (.array elements)
termination_by (sizeOf node, 1)
decreasing_by exact .left _ _ (Node.sizeOf_lt_of_mem (Node.mem_of_namedChildren child.2))

def lowerString (node : Node) : Lowering (Option Expr) :=
  match _found : node.firstNamed with
  | none => return none
  | some inner =>
    match inner.kind with
    | "double_quoted_string" => do
      let fragments ← lowerStringFragments inner
      return some (.stringLit fragments node.span)
    | "single_quoted_string" => do
      let content ← unquote (inner.text source)
      return some (.stringLit [.text (String.ofList content)] node.span)
    | _ => return none
termination_by (sizeOf node, 1)
decreasing_by exact .left _ _ (Node.sizeOf_lt_of_mem (Node.mem_of_firstNamed _found))

def lowerStringFragments (node : Node) : Lowering (List StringFragment) := do
  let fragments ← collectFragments node "string_content"
  each (unescapeFragment node) fragments
termination_by (sizeOf node, 1)
decreasing_by exact .right _ (by decide)

/-- The text and interpolation children, shared between strings and squiggles. -/
def collectFragments (node : Node) (textKind : String) : Lowering (List StringFragment) :=
  each (fun child =>
    if child.1.kind == textKind then return some (.text (textOf source child.1))
    else if child.1.kind == "interpolation" then
      match _found : child.1.firstNamed with
      | some inner => do
        let some expr ← lowerExpression inner | return none
        return some (.interpolation expr)
      | none => return none
    else return none) node.namedChildren.attach
termination_by (sizeOf node, 0)
decreasing_by
  have inside := Node.sizeOf_lt_of_mem (Node.mem_of_namedChildren child.2)
  exact .left _ _ ((Node.sizeOf_lt_of_mem (Node.mem_of_firstNamed _found)).trans inside)

def lowerSquiggle (node : Node) : Lowering (Option Expr) :=
  match node.childByFieldName "name" with
  | none => return none
  | some name => do
    let fragments ← collectFragments node "squiggle_content"
    return some (.squiggle (identFromNode source name) fragments node.span)
termination_by (sizeOf node, 1)
decreasing_by exact .right _ (by decide)

end

/-! ## Annotations -/

/-- The text of a string node, for annotation values. -/
def extractStringText (node : Node) : Lowering String :=
  match node.firstNamed with
  | none => return ""
  | some inner =>
    match inner.kind with
    | "double_quoted_string" =>
      return String.ofList ((inner.namedChildren.filter fun child =>
        child.kind == "string_content").flatMap (Node.text source))
    | "single_quoted_string" => do
      let content ← unquote (inner.text source)
      return String.ofList content
    | _ => return ""

/-- A child of `annotation_value` is an identifier or a string. -/
def lowerAnnotationValue (inner : Node) : Lowering (Option String) :=
  match inner.kind with
  | "identifier" => return some (textOf source inner)
  | "string" => do
    let text ← extractStringText source inner
    return some text
  | _ => return none

/-- The last name and the last value win. -/
def lowerAnnotation (node : Node) : Lowering (Option Annotation) := do
  let names := node.namedChildren.filter fun child => child.kind == "annotation_name"
  let holders := node.namedChildren.filter fun child => child.kind == "annotation_value"
  let values ← each (lowerAnnotationValue source) (holders.flatMap Node.namedChildren)
  return names.getLast?.map fun name =>
    ⟨identFromNode source name, values.getLast?, node.span⟩

/-! ## Keyword arguments -/

/-- `and_then` -/
def lowerIfPresent {α : Type} (lower : Node → Lowering (Option α)) :
    Option Node → Lowering (Option α)
  | some node => lower node
  | none => return none

def lowerKeywordPair (node : Node) : Lowering (Option (Expr × Expr)) := do
  let some keyNode := node.childByFieldName "key" | return none
  let some valueNode := node.childByFieldName "value" | return none
  let some key ← lowerExpression source keyNode | return none
  let some value ← lowerExpression source valueNode | return none
  return some (key, value)

/-- The value is a block of pairs, if there are any, or one expression. -/
def lowerKeywordArg (node : Node) : Lowering (Option KeywordArg) := do
  let some key ← lowerIdentField source node "key" | return none
  let pairs ← each (lowerKeywordPair source)
    (node.namedChildren.filter fun child => child.kind == "keyword_pair")
  if pairs.isEmpty then
    let some value ← lowerIfPresent (lowerExpression source) (node.childByFieldName "value")
      | return none
    return some ⟨key, .expr value, node.span⟩
  else return some ⟨key, .map pairs, node.span⟩

/-- The arguments of a `keyword_block` or of `inline_keyword_args`. -/
def collectKeywordArgs (node : Node) : Lowering (List KeywordArg) :=
  each (lowerKeywordArg source)
    (node.namedChildren.filter fun child => child.kind == "keyword_arg")

/-! ## Statements -/

/-- What a child adds to a command. -/
inductive CommandPart where
  | annotated (marker : Option Annotation)
  | keywordArgs (args : List KeywordArg)
  | positional (expr : Expr)

def CommandPart.marker? : CommandPart → Option (Option Annotation)
  | .annotated marker => some marker
  | _ => none

def CommandPart.args : CommandPart → List KeywordArg
  | .keywordArgs args => args
  | _ => []

def CommandPart.expr? : CommandPart → Option Expr
  | .positional expr => some expr
  | _ => none

def lowerCommandPart (child : Node) : Lowering (Option CommandPart) :=
  match child.kind with
  | "annotation" => do
    let marker ← lowerAnnotation source child
    return some (.annotated marker)
  | "keyword_block" | "inline_keyword_args" => do
    let args ← collectKeywordArgs source child
    return some (.keywordArgs args)
  | "primary_expression" | "member_expression" | "index_expression" => do
    let some expr ← lowerExpression source child | return none
    return some (.positional expr)
  | _ => return none

def lowerCommand (node : Node) : Lowering (Option Ast.Command) := do
  let some name ← lowerIdentField source node "name" | return none
  let parts ← each (lowerCommandPart source) node.namedChildren
  return some {
    annotation := (parts.filterMap CommandPart.marker?).getLast?.join
    name
    positionalArgs := parts.filterMap CommandPart.expr?
    keywordArgs := parts.flatMap CommandPart.args
    span := node.span }

def lowerComparisonOp (node : Node) : Lowering (Option ComparisonOp) :=
  match textOf source node with
  | "==" => return some .eq
  | "!=" => return some .notEq
  | ">" => return some .gt
  | ">=" => return some .gte
  | "<" => return some .lt
  | "<=" => return some .lte
  | "contains" => return some .contains
  | "!contains" => return some .notContains
  | "matches" => return some .matches
  | "!matches" => return some .notMatches
  | text => do
    report (.error node.span .invalidLiteral s!"`{text}` is not a valid comparison operator")
    return none

def lowerAssert (node : Node) : Lowering (Option Assert) := do
  let some left ← lowerIfPresent (lowerExpression source) (node.childByFieldName "left")
    | return none
  let op ← lowerIfPresent (lowerComparisonOp source) (node.childByFieldName "operator")
  let right ← lowerIfPresent (lowerExpression source) (node.childByFieldName "right")
  let marker ← lowerIfPresent (fun child => lowerAnnotation source child)
    (node.namedChildren.find? fun child => child.kind == "annotation")
  return some ⟨marker, left, op, right, node.span⟩

def lowerParseExpression (node : Node) : Lowering (Option LetValue) := do
  let some sourceNode := node.childByFieldName "source" | return none
  let some format ← lowerIdentField source node "format" | return none
  let some parsed ← lowerExpression source sourceNode | return none
  return some (.parse parsed format)

def lowerLetValue (node : Node) : Lowering (Option LetValue) :=
  if node.kind == "parse_expression" then lowerParseExpression source node
  else do
    let some value ← lowerExpression source node | return none
    return some (.expr value)

def lowerLet (node : Node) : Lowering (Option Let) := do
  let some name ← lowerIdentField source node "name" | return none
  let some value ← lowerIfPresent (lowerLetValue source) (node.childByFieldName "value")
    | return none
  return some ⟨name, value, node.span⟩

def lowerAssignment (node : Node) : Lowering (Option Assignment) := do
  let some target ← lowerIfPresent (lowerExpression source) (node.childByFieldName "target")
    | return none
  let some value ← lowerIfPresent (lowerExpression source) (node.childByFieldName "value")
    | return none
  return some ⟨target, value, node.span⟩

def lowerStatement (child : Node) : Lowering (Option Statement) :=
  match child.kind with
  | "command" => do
    let command ← lowerCommand source child
    return command.map .command
  | "assert_statement" => do
    let assert ← lowerAssert source child
    return assert.map .assert
  | "let_statement" => do
    let letStmt ← lowerLet source child
    return letStmt.map .let
  | "assignment_statement" => do
    let assignment ← lowerAssignment source child
    return assignment.map .assignment
  | "INDENT" | "DEDENT" | "NEWLINE" | "comment" => return none
  | kind => do
    reportUnexpected child s!"unexpected `{kind}` inside `as` block"
    return none

def lowerBlock (node : Node) : Lowering (List Statement) :=
  each (lowerStatement source) node.namedChildren

/-! ## Top-level items -/

/-- Lower every child of a kind, each of which gives a list. -/
def lowerParts {α : Type} (kind : String) (lower : Node → Lowering (List α)) (node : Node) :
    Lowering (List α) := do
  let parts ← each (fun child => do
    let items ← lower child
    return some items) (node.namedChildren.filter fun child => child.kind == kind)
  return parts.flatten

def lowerAsBlock (node : Node) : Lowering (Option AsBlock) := do
  let some actor ← lowerIdentField source node "actor" | return none
  let body ← lowerParts "block" (lowerBlock source) node
  return some ⟨actor, body, node.span⟩

def lowerVarDeclaration (node : Node) : Lowering (Option VarDeclaration) := do
  let some name ← lowerIdentField source node "name" | return none
  let markers ← each (fun child => lowerAnnotation source child)
    (node.namedChildren.filter fun child => child.kind == "annotation")
  let value ← lowerIfPresent (lowerExpression source) (node.childByFieldName "default")
  return some ⟨markers, name, value, node.span⟩

def lowerVarsBlock (node : Node) : Lowering (List VarDeclaration) :=
  each (lowerVarDeclaration source)
    (node.namedChildren.filter fun child => child.kind == "var_declaration")

/-- A property of an actor: its declared vars, or a keyword argument. -/
inductive ActorProperty where
  | vars (declared : List VarDeclaration)
  | keywordArg (arg : KeywordArg)

def ActorProperty.declared : ActorProperty → List VarDeclaration
  | .vars declared => declared
  | .keywordArg _ => []

def ActorProperty.keywordArg? : ActorProperty → Option KeywordArg
  | .vars _ => none
  | .keywordArg arg => some arg

def lowerActorProperty (node : Node) : Lowering (Option ActorProperty) :=
  match node.namedChildren.find? fun child => child.kind == "vars_block" with
  | some block => do
    let vars ← lowerVarsBlock source block
    return some (.vars vars)
  | none => do
    let some key ← lowerIdentField source node "key" | return none
    let some value ← lowerIfPresent (lowerExpression source) (node.childByFieldName "value")
      | return none
    return some (.keywordArg ⟨key, .expr value, node.span⟩)

def lowerActorBody (node : Node) : Lowering (List ActorProperty) :=
  each (lowerActorProperty source)
    (node.namedChildren.filter fun child => child.kind == "actor_property")

def lowerActorDeclaration (node : Node) : Lowering (Option ActorDeclaration) := do
  let some name ← lowerIdentField source node "name" | return none
  let some typeNode := node.childByFieldName "type" | return none
  let some actorType := lowerIdentFromFirstChild source typeNode | return none
  let properties ← lowerParts "actor_body" (lowerActorBody source) node
  return some {
    name
    actorType
    keywordArgs := properties.filterMap ActorProperty.keywordArg?
    vars := properties.flatMap ActorProperty.declared
    span := node.span }

def lowerItem (child : Node) : Lowering (Option TopLevel) :=
  match child.kind with
  | "actor_declaration" => do
    let decl ← lowerActorDeclaration source child
    return decl.map .actorDeclaration
  | "as_block" => do
    let block ← lowerAsBlock source child
    return block.map .asBlock
  | "NEWLINE" | "comment" => return none
  | kind => do
    reportUnexpected child s!"unexpected `{kind}` at top level"
    return none

def lowerSourceFile (root : Node) : Lowering SourceFile := do
  let items ← each (lowerItem source) root.namedChildren
  return ⟨items⟩

end

/-- Lower a source text with the parser `parse`: the syntax tree if nothing was
reported, and no result if the pass panics. -/
def lower (parse : Text → Node) (src : Text) : Option (Except (List Diagnostic) SourceFile) :=
  let normalized := normalize src
  let root := parse normalized
  let errors := collectErrors normalized none root
  match lowerSourceFile normalized root with
  | .panicked => none
  | .returned file reports =>
    if (errors ++ reports).isEmpty then some (.ok file) else some (.error (errors ++ reports))

end Ill.Lower
