import Ill.Syntax.Ast

/-!
# Diagnostics

The one record that lowering and validation report and that the renderer
consumes.
-/

namespace Ill

open Ast

inductive Severity where
  | error | warning | info | hint
deriving DecidableEq, Repr

/-- Machine-readable diagnostic codes. -/
inductive DiagnosticCode where
  | parseError
  | missingToken
  | unexpectedNode
  | missingField
  | invalidLiteral
  | invalidEscape
  | unknownActorType
  | unknownActor
  | duplicateActor
  | unknownCommand
  | commandNotValidInMode
  | missingRequiredArg
  | unknownKeywordArg
  | conflictingOutcomeAsserts
  | typeMismatch
  | unknownSquiggle
  | runtimeFailure
deriving DecidableEq, Repr

structure Diagnostic where
  span : Span
  severity : Severity
  code : DiagnosticCode
  message : String
  notes : List String
deriving DecidableEq, Repr

/-- A diagnostic of error severity without notes. -/
def Diagnostic.error (span : Span) (code : DiagnosticCode) (message : String) : Diagnostic where
  span := span
  severity := .error
  code := code
  message := message
  notes := []

def Diagnostic.withNote (diagnostic : Diagnostic) (note : String) : Diagnostic :=
  { diagnostic with notes := diagnostic.notes ++ [note] }

@[simp] theorem Diagnostic.error_severity (span : Span) (code : DiagnosticCode)
    (message : String) : (Diagnostic.error span code message).severity = .error := rfl

@[simp] theorem Diagnostic.error_span (span : Span) (code : DiagnosticCode)
    (message : String) : (Diagnostic.error span code message).span = span := rfl

@[simp] theorem Diagnostic.withNote_span (diagnostic : Diagnostic) (note : String) :
    (diagnostic.withNote note).span = diagnostic.span := rfl

end Ill
