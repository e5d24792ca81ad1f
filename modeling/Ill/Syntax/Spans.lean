import Ill.Syntax.Diagnostic

/-!
# The spans of a syntax tree

Every span a syntax tree carries, node by node, so that "this diagnostic points
at a node" can be said of a whole file.
-/

namespace Ill.Ast

mutual

def Expr.spans : Expr → List Span
  | .ident ident => [ident.span]
  | .stringLit fragments span => span :: fragmentSpans fragments
  | .number _ => []
  | .bool _ => []
  | .null => []
  | .atom ident => [ident.span]
  | .array items => itemSpans items
  | .squiggle name fragments span => name.span :: span :: fragmentSpans fragments
  | .memberAccess object property span => property.span :: span :: object.spans
  | .index object indices span => span :: (object.spans ++ itemSpans indices)

def itemSpans : List Expr → List Span
  | [] => []
  | item :: rest => item.spans ++ itemSpans rest

def fragmentSpans : List StringFragment → List Span
  | [] => []
  | .text _ :: rest => fragmentSpans rest
  | .interpolation expr :: rest => expr.spans ++ fragmentSpans rest

end

def KeywordValue.spans : KeywordValue → List Span
  | .expr value => value.spans
  | .map pairs => pairs.flatMap fun pair => pair.1.spans ++ pair.2.spans

def KeywordArg.spans (kw : KeywordArg) : List Span := kw.key.span :: kw.span :: kw.value.spans

def Annotation.spans (marker : Annotation) : List Span :=
  [marker.name.span, marker.span]

/-- The spans of an optional part. -/
def optionSpans {α : Type} (spans : α → List Span) (part : Option α) : List Span :=
  (part.map spans).getD []

def VarDeclaration.spans (var : VarDeclaration) : List Span :=
  var.name.span :: var.span ::
    (var.annotations.flatMap Annotation.spans ++ optionSpans Expr.spans var.default)

def ActorDeclaration.spans (decl : ActorDeclaration) : List Span :=
  decl.name.span :: decl.actorType.span :: decl.span ::
    (decl.keywordArgs.flatMap KeywordArg.spans ++ decl.vars.flatMap VarDeclaration.spans)

def Command.spans (command : Command) : List Span :=
  command.name.span :: command.span ::
    (optionSpans Annotation.spans command.annotation ++ command.positionalArgs.flatMap Expr.spans ++
      command.keywordArgs.flatMap KeywordArg.spans)

def LetValue.spans : LetValue → List Span
  | .expr value => value.spans
  | .parse source format => format.span :: source.spans

def Let.spans (letStmt : Let) : List Span :=
  letStmt.name.span :: letStmt.span :: letStmt.value.spans

def Assignment.spans (assignment : Assignment) : List Span :=
  assignment.span :: (assignment.target.spans ++ assignment.value.spans)

def Assert.spans (assert : Assert) : List Span :=
  assert.span :: (optionSpans Annotation.spans assert.annotation ++ assert.left.spans ++
    optionSpans Expr.spans assert.right)

def Statement.spans : Statement → List Span
  | .command cmd => cmd.spans
  | .assert a => a.spans
  | .let letStmt => letStmt.spans
  | .assignment a => a.spans

def AsBlock.spans (block : AsBlock) : List Span :=
  block.actor.span :: block.span :: block.body.flatMap Statement.spans

def TopLevel.spans : TopLevel → List Span
  | .actorDeclaration decl => decl.spans
  | .asBlock block => block.spans

def SourceFile.spans (source : SourceFile) : List Span := source.items.flatMap TopLevel.spans

end Ill.Ast

namespace Ill

open Ast

/-- A diagnostic of error severity whose span is one of the given ones. -/
def Diagnostic.ErrorAt (spans : List Span) (diagnostic : Diagnostic) : Prop :=
  diagnostic.severity = .error ∧ diagnostic.span ∈ spans

theorem Diagnostic.errorAt_error {spans : List Span} {span : Span} (member : span ∈ spans)
    (code : DiagnosticCode) (message : String) : (Diagnostic.error span code message).ErrorAt spans :=
  ⟨rfl, member⟩

theorem Diagnostic.ErrorAt.mono {spans wider : List Span} {diagnostic : Diagnostic}
    (located : diagnostic.ErrorAt spans) (included : spans ⊆ wider) : diagnostic.ErrorAt wider :=
  ⟨located.1, included located.2⟩

end Ill
