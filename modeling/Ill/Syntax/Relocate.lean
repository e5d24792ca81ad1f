import Ill.Syntax.Spans

/-!
# Syntax trees at other places

The same syntax somewhere else in a file: every span goes where `place` sends
it, and nothing else changes.
-/

namespace Ill.Ast

variable (place : Span → Span)

def Ident.relocate (ident : Ident) : Ident := ⟨ident.name, place ident.span⟩

@[simp] theorem Ident.relocate_name (ident : Ident) : (ident.relocate place).name = ident.name := rfl

mutual

def Expr.relocate : Expr → Expr
  | .ident ident => .ident (ident.relocate place)
  | .stringLit fragments span => .stringLit (relocateFragments fragments) (place span)
  | .number value => .number value
  | .bool value => .bool value
  | .null => .null
  | .atom ident => .atom (ident.relocate place)
  | .array items => .array (relocateItems items)
  | .squiggle name fragments span =>
    .squiggle (name.relocate place) (relocateFragments fragments) (place span)
  | .memberAccess object property span =>
    .memberAccess object.relocate (property.relocate place) (place span)
  | .index object indices span => .index object.relocate (relocateItems indices) (place span)

def relocateItems : List Expr → List Expr
  | [] => []
  | item :: rest => item.relocate :: relocateItems rest

def relocateFragments : List StringFragment → List StringFragment
  | [] => []
  | .text text :: rest => .text text :: relocateFragments rest
  | .interpolation expr :: rest => .interpolation expr.relocate :: relocateFragments rest

end

def StringFragment.relocate : StringFragment → StringFragment
  | .text content => .text content
  | .interpolation inner => .interpolation (inner.relocate place)

def KeywordValue.relocate : KeywordValue → KeywordValue
  | .expr held => .expr (held.relocate place)
  | .map pairs => .map (pairs.map fun pair => (pair.1.relocate place, pair.2.relocate place))

def KeywordArg.relocate (kw : KeywordArg) : KeywordArg :=
  ⟨kw.key.relocate place, kw.value.relocate place, place kw.span⟩

def Annotation.relocate (marker : Annotation) : Annotation :=
  ⟨marker.name.relocate place, marker.value, place marker.span⟩

def VarDeclaration.relocate (var : VarDeclaration) : VarDeclaration where
  annotations := var.annotations.map (·.relocate place)
  name := var.name.relocate place
  default := var.default.map (·.relocate place)
  span := place var.span

def ActorDeclaration.relocate (decl : ActorDeclaration) : ActorDeclaration where
  name := decl.name.relocate place
  actorType := decl.actorType.relocate place
  keywordArgs := decl.keywordArgs.map (·.relocate place)
  vars := decl.vars.map (·.relocate place)
  span := place decl.span

def Command.relocate (command : Command) : Command where
  annotation := command.annotation.map (·.relocate place)
  name := command.name.relocate place
  positionalArgs := command.positionalArgs.map (·.relocate place)
  keywordArgs := command.keywordArgs.map (·.relocate place)
  span := place command.span

def Assignment.relocate (assignment : Assignment) : Assignment :=
  ⟨assignment.target.relocate place, assignment.value.relocate place, place assignment.span⟩

def Assert.relocate (assert : Assert) : Assert where
  annotation := assert.annotation.map (·.relocate place)
  left := assert.left.relocate place
  op := assert.op
  right := assert.right.map (·.relocate place)
  span := place assert.span

def LetValue.relocate : LetValue → LetValue
  | .expr held => .expr (held.relocate place)
  | .parse source format => .parse (source.relocate place) (format.relocate place)

def Let.relocate (letStmt : Let) : Let :=
  ⟨letStmt.name.relocate place, letStmt.value.relocate place, place letStmt.span⟩

def Statement.relocate : Statement → Statement
  | .command cmd => .command (cmd.relocate place)
  | .assert a => .assert (a.relocate place)
  | .let letStmt => .let (letStmt.relocate place)
  | .assignment a => .assignment (a.relocate place)

def AsBlock.relocate (block : AsBlock) : AsBlock :=
  ⟨block.actor.relocate place, block.body.map (·.relocate place), place block.span⟩

def TopLevel.relocate : TopLevel → TopLevel
  | .actorDeclaration decl => .actorDeclaration (decl.relocate place)
  | .asBlock block => .asBlock (block.relocate place)

def SourceFile.relocate (source : SourceFile) : SourceFile := ⟨source.items.map (·.relocate place)⟩

variable {place}

theorem relocateItems_eq_map (items : List Expr) :
    relocateItems place items = items.map (·.relocate place) := by
  induction items with
  | nil => rw [relocateItems, List.map_nil]
  | cons item rest ih => rw [relocateItems, List.map_cons, ih]

theorem relocateFragments_eq_map (fragments : List StringFragment) :
    relocateFragments place fragments = fragments.map (·.relocate place) := by
  induction fragments with
  | nil => rw [relocateFragments, List.map_nil]
  | cons fragment rest ih =>
    cases fragment with
    | text text => rw [relocateFragments, List.map_cons, ih, StringFragment.relocate]
    | interpolation expr => rw [relocateFragments, List.map_cons, ih, StringFragment.relocate]

end Ill.Ast

namespace Ill

open Ast

def Diagnostic.relocate (place : Span → Span) (diagnostic : Diagnostic) : Diagnostic :=
  { diagnostic with span := place diagnostic.span }

@[simp] theorem Diagnostic.relocate_error (place : Span → Span) (span : Span) (code : DiagnosticCode)
    (message : String) :
    (Diagnostic.error span code message).relocate place = .error (place span) code message := rfl

@[simp] theorem Diagnostic.relocate_severity (place : Span → Span) (diagnostic : Diagnostic) :
    (diagnostic.relocate place).severity = diagnostic.severity := rfl

theorem Diagnostic.relocate_withNote (place : Span → Span) (diagnostic : Diagnostic) (note : String) :
    (diagnostic.withNote note).relocate place = (diagnostic.relocate place).withNote note := rfl

end Ill
