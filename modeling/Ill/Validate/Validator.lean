import Mathlib.Logic.Function.Basic
import Ill.Base.Fold
import Ill.Validate.Expr

/-!
# The validator

A symbolic interpreter over the syntax tree. The first pass registers every
actor declaration; the second walks the `as` blocks in source order, tracking
each actor's mode. Every check returns the diagnostics it pushes, so a walk is
an `emit` and the accepted files are those on which it is silent.
-/

namespace Ill.Validate

open Ast Actor Base

/-- Per-actor state threaded through the symbolic walk. -/
structure HealthyActor where
  typeDef : ActorType
  mode : Mode
  vars : String → Option ValueType

/-- A declared actor. The declaration of an errored one was reported already,
and its uses are silent. -/
inductive ActorState where
  | healthy (actor : HealthyActor)
  | errored

/-- The symbol table of declared actors. -/
abbrev Actors := String → Option ActorState

namespace Actors

def healthy? (actors : Actors) (name : String) : Option HealthyActor :=
  match actors name with
  | some (.healthy actor) => some actor
  | _ => none

/-- Change a healthy actor in place; nothing happens to another entry. -/
def modify (actors : Actors) (name : String) (change : HealthyActor → HealthyActor) : Actors :=
  match actors name with
  | some (.healthy actor) => Function.update actors name (some (.healthy (change actor)))
  | _ => actors

end Actors

/-- What the statements of a window say about the outcome of its command. -/
inductive CommandOutcome where
  | impliedOk
  | explicitOk
  | explicitError
deriving DecidableEq, Repr

def CommandOutcome.isOk : CommandOutcome → Bool
  | .impliedOk | .explicitOk => true
  | .explicitError => false

@[simp] theorem CommandOutcome.isOk_iff {outcome : CommandOutcome} :
    outcome.isOk = true ↔ outcome ≠ .explicitError := by
  cases outcome <;> decide

/-! ## Actor declarations -/

def unknownKeywordMessage (kw : String) : Option String → String
  | some cmd => s!"unknown keyword arg `{kw}` for command `{cmd}`"
  | none => s!"unknown keyword arg `{kw}`"

def missingKeywordMessage (name : String) : Option String → String
  | some cmd => s!"command `{cmd}` missing required keyword arg `{name}`"
  | none => s!"missing required keyword arg `{name}`"

/-- Unknown keywords first, then the missing required ones. -/
def checkKeywordArgsAgainst (provided : List KeywordArg) (expected : List KeywordArgDef)
    (fallbackSpan : Span) (commandContext : Option String) : List Diagnostic :=
  (provided.flatMap fun kw =>
    if expected.any fun argDef => argDef.name == kw.key.name then []
    else
      [.error kw.key.span .unknownKeywordArg (unknownKeywordMessage kw.key.name commandContext)]) ++
  expected.flatMap fun argDef =>
    if argDef.required && !provided.any fun kw => kw.key.name == argDef.name then
      [.error fallbackSpan .missingRequiredArg (missingKeywordMessage argDef.name commandContext)]
    else []

/-- The declared type of a variable is that of its default. -/
def varType (var : VarDeclaration) : ValueType :=
  (var.default.map exprType).getD .unknown

def declaredVars (vars : List VarDeclaration) : String → Option ValueType :=
  vars.foldl (fun table var => Function.update table var.name.name (some (varType var)))
    fun _ => none

/-- A freshly registered actor is in its type's initial mode. -/
def HealthyActor.initial (typeDef : ActorType) (vars : List VarDeclaration) : HealthyActor where
  typeDef := typeDef
  mode := typeDef.initialMode
  vars := declaredVars vars

def checkDefault (var : VarDeclaration) : List Diagnostic :=
  (var.default.map checkSquigglesInExpr).getD []

/-- Register a declaration whose name has no healthy entry yet. -/
def registerFresh (actors : Actors) (decl : ActorDeclaration) : Actors × List Diagnostic :=
  match Registry.get decl.actorType.name with
  | none =>
    (Function.update actors decl.name.name (some .errored),
      [.error decl.actorType.span .unknownActorType
        s!"unknown actor type `{decl.actorType.name}`"])
  | some typeDef =>
    (Function.update actors decl.name.name (some (.healthy (.initial typeDef decl.vars))),
      checkKeywordArgsAgainst decl.keywordArgs typeDef.constructorKeyword decl.span none ++
        decl.keywordArgs.flatMap (fun kw => checkSquigglesInKwvalue kw.value) ++
        decl.vars.flatMap checkDefault)

/-- A healthy entry makes the declaration a duplicate; an errored one is
replaced. -/
def registerActor (actors : Actors) (decl : ActorDeclaration) : Actors × List Diagnostic :=
  match actors.healthy? decl.name.name with
  | some _ =>
    (actors, [.error decl.name.span .duplicateActor s!"actor `{decl.name.name}` is already declared"])
  | none => registerFresh actors decl

/-! ## Commands -/

/-- What a checked command contributes to its window. -/
structure CommandShape where
  okFields : List OutcomeField
  errorTypes : List ErrorTypeDef
  transition : Option Mode

def CommandShape.empty : CommandShape := ⟨[], [], none⟩

def checkPositional (cmd : Ast.Command) (expected : List ArgDef) (actual : List Expr) :
    List Diagnostic :=
  match expected[actual.length]? with
  | some missing =>
    [.error cmd.name.span .missingRequiredArg
      s!"command `{cmd.name.name}` missing required positional arg `{missing.name}`"]
  | none => []

def modeMessage (cmd : Ast.Command) (mode : Mode) (valid : List Mode) : String :=
  s!"command `{cmd.name.name}` is not valid in mode `{mode.name}` (valid: " ++
    ", ".intercalate (valid.map Mode.name) ++ ")"

/-- Check a command of a healthy actor in its current mode. -/
def checkCommandIn (state : HealthyActor) (cmd : Ast.Command) : CommandShape × List Diagnostic :=
  match state.typeDef.resolveCommand cmd.name.name cmd.positionalArgs with
  | none =>
    (.empty, [.error cmd.name.span .unknownCommand
      (unknownCommandMessage state.typeDef.name cmd.name.name cmd.positionalArgs)])
  | some (cmdDef, consumed) =>
    if cmdDef.validInModes.any fun mode => sameMode mode state.mode then
      let sourcePositional := cmd.positionalArgs.drop consumed
      (⟨cmdDef.okFields, cmdDef.errorTypes, cmdDef.transitionsTo⟩,
        checkPositional cmd cmdDef.positional sourcePositional ++
          sourcePositional.flatMap checkSquigglesInExpr ++
          checkKeywordArgsAgainst cmd.keywordArgs cmdDef.keyword cmd.span (some cmd.name.name) ++
          cmd.keywordArgs.flatMap fun kw => checkSquigglesInKwvalue kw.value)
    else
      (.empty, [.error cmd.name.span .commandNotValidInMode
        (modeMessage cmd state.mode cmdDef.validInModes)])

def checkCommand (actors : Actors) (actorName : String) (cmd : Ast.Command) :
    CommandShape × List Diagnostic :=
  match actors.healthy? actorName with
  | none => (.empty, [])
  | some state => checkCommandIn state cmd

/-! ## `as` blocks -/

/-- The state carried through the statements of a block. -/
structure BlockCheck where
  actors : Actors
  lastOkFields : List OutcomeField
  lastErrorTypes : List ErrorTypeDef
  outcome : CommandOutcome
  pendingTransition : Option Mode

def BlockCheck.start (actors : Actors) : BlockCheck where
  actors := actors
  lastOkFields := []
  lastErrorTypes := []
  outcome := .impliedOk
  pendingTransition := none

/-- Advance the outcome at a reference to `ok` or `error`; mixing both is an
error and keeps the outcome. -/
def advanceOutcome (current : CommandOutcome) (isOk : Bool) (span : Span) :
    CommandOutcome × List Diagnostic :=
  match current, isOk with
  | .impliedOk, true => (.explicitOk, [])
  | .impliedOk, false => (.explicitError, [])
  | .explicitOk, false | .explicitError, true =>
    (current, [.error span .conflictingOutcomeAsserts
      "cannot mix `ok` and `error` references for the same command"])
  | outcome, _ => (outcome, [])

/-- Advance the outcome by the root of an expression, if it is `ok` or `error`. -/
def referOutcome (current : CommandOutcome) (expr : Expr) (span : Span) :
    CommandOutcome × List Diagnostic :=
  if exprStartsWithIdent "ok" expr then advanceOutcome current true span
  else if exprStartsWithIdent "error" expr then advanceOutcome current false span
  else (current, [])

/-- Apply the pending transition of the last command if its window says ok. -/
def applyPending (actorName : String) (check : BlockCheck) : Actors :=
  if check.outcome.isOk then
    match check.pendingTransition with
    | some mode => check.actors.modify actorName fun actor => { actor with mode := mode }
    | none => check.actors
  else check.actors

def exprTypeInActor (actors : Actors) (actorName : String) (lastOkFields : List OutcomeField)
    (lastErrorTypes : List ErrorTypeDef) (expr : Expr) : ValueType :=
  let varTypeOf name := (actors.healthy? actorName).bind fun state => state.vars name
  match expr with
  | .memberAccess (.ident root) property _ =>
    if root.name = "self" then (varTypeOf property.name).getD .unknown
    else (resolveOutcomeChain lastOkFields lastErrorTypes expr).getD .unknown
  | .memberAccess _ _ _ => (resolveOutcomeChain lastOkFields lastErrorTypes expr).getD .unknown
  | .ident ident => (varTypeOf ident.name).getD .unknown
  | _ => exprType expr

/-- Record the type of a `let` binding with the actor. -/
def bindVar (actors : Actors) (actorName name : String) (ty : ValueType) : Actors :=
  actors.modify actorName fun actor =>
    { actor with vars := Function.update actor.vars name (some ty) }

def checkLet (actorName : String) (check : BlockCheck) (letStmt : Let) :
    BlockCheck × List Diagnostic :=
  match letStmt.value with
  | .expr expr =>
    let advanced := referOutcome check.outcome expr letStmt.span
    let ty := exprTypeInActor check.actors actorName check.lastOkFields check.lastErrorTypes expr
    ({ check with
        outcome := advanced.1
        actors := bindVar check.actors actorName letStmt.name.name ty },
      advanced.2 ++ checkSquigglesInExpr expr)
  | .parse source format =>
    let ty := if format.name = "json" then ValueType.dynamic else .unknown
    ({ check with actors := bindVar check.actors actorName letStmt.name.name ty },
      checkSquigglesInExpr source)

def checkStatement (actorName : String) (check : BlockCheck) :
    Statement → BlockCheck × List Diagnostic
  | .command cmd =>
    let actors := applyPending actorName check
    let checked := checkCommand actors actorName cmd
    ({ actors
       lastOkFields := checked.1.okFields
       lastErrorTypes := checked.1.errorTypes
       outcome := .impliedOk
       pendingTransition := checked.1.transition }, checked.2)
  | .let letStmt => checkLet actorName check letStmt
  | .assignment a => (check, checkSquigglesInExpr a.target ++ checkSquigglesInExpr a.value)
  | .assert a =>
    let advanced := referOutcome check.outcome a.left a.span
    ({ check with outcome := advanced.1 },
      advanced.2 ++ checkSquigglesInExpr a.left ++ (a.right.map checkSquigglesInExpr).getD [])

/-- The state after the statements of a block, and what they report. -/
def checkBody (actorName : String) (check : BlockCheck) (body : List Statement) :
    BlockCheck × List Diagnostic :=
  emit (checkStatement actorName) check body

def checkAsBlock (actors : Actors) (block : AsBlock) : Actors × List Diagnostic :=
  match actors block.actor.name with
  | none =>
    (actors,
      [.error block.actor.span .unknownActor s!"unknown actor `{block.actor.name}`"])
  | some .errored => (actors, [])
  | some (.healthy _) =>
    let checked := checkBody block.actor.name (.start actors) block.body
    (applyPending block.actor.name checked.1, checked.2)

/-! ## Both passes -/

/-- One item of the first pass. -/
def registerItem (actors : Actors) : TopLevel → Actors × List Diagnostic
  | .actorDeclaration decl => registerActor actors decl
  | .asBlock _ => (actors, [])

/-- One item of the second pass. -/
def checkItem (actors : Actors) : TopLevel → Actors × List Diagnostic
  | .actorDeclaration _ => (actors, [])
  | .asBlock block => checkAsBlock actors block

/-- The symbol table after the first pass. -/
def registered (source : SourceFile) : Actors :=
  (emit registerItem (fun _ => none) source.items).1

/-- The symbol table when the second pass has walked some leading items. -/
def checkedAfter (source : SourceFile) (items : List TopLevel) : Actors :=
  (emit checkItem (registered source) items).1

def validate (source : SourceFile) : List Diagnostic :=
  (emit registerItem (fun _ => none) source.items).2 ++
    (emit checkItem (registered source) source.items).2

/-- No diagnostic is an error. -/
def accepts (source : SourceFile) : Bool :=
  (validate source).all fun diagnostic => diagnostic.severity != .error

end Ill.Validate
