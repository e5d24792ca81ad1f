import Ill.Base.Fold
import Ill.Actor.Live
import Ill.Runtime.Assert
import Ill.Validate.Expr

/-!
# The test harness

Walks the top-level items in source order: constructs actors as they are
declared, runs `as` blocks against whatever is live, stops at the first
failure, and tears everything constructed down in reverse. The walk is over
any `ActorRuntime`; the calls made are kept in `events`, which is also what a
runtime may base its next reply on.
-/

namespace Ill.Harness

open Ast Actor Base

/-- The failure recorded for one declaration or statement. -/
inductive StatementReport where
  | validationFailure (diagnostics : List Diagnostic)
  | parseFailure (diagnostics : List Diagnostic)
  | constructFailure (actor message : String) (span : Span)
  | commandFailure (actor command : String) (span : Span) (errorFields : Dict)
      (expect : Option String)
  | commandNotImplemented (actor command : String) (span : Span)
  | assertFailure (actor : String) (span : Span) (left : Value) (right : Option Value)
      (op : Option ComparisonOp) (expect : Option String)
  | evalError (actor : String) (span : Span) (message : String)

structure TeardownReport where
  actor : String
  outcome : TeardownOutcome

structure TestReport where
  path : String
  passed : Bool
  statements : List StatementReport
  teardown : List TeardownReport

/-- A call the harness made on an actor type or an instance. -/
inductive Event (Instance : Type) where
  | constructed (actor : String) (actorType : ActorType) (args : ConstructArgs)
  | executed (actor : String) (before : Instance) (command : String) (args : CommandArgs)
      (after : Instance) (outcome : RunOutcome)
  | tornDown (actor : String)

/-- The live instances in construction order and the calls made so far. -/
structure HarnessState (Instance : Type) where
  actors : List (String × Instance)
  events : List (Event Instance)

namespace HarnessState

variable {Instance : Type}

def start : HarnessState Instance := ⟨[], []⟩

def get (state : HarnessState Instance) (name : String) : Option Instance :=
  state.actors.lookup name

def push (state : HarnessState Instance) (name : String) (inst : Instance) :
    HarnessState Instance :=
  { state with actors := state.actors ++ [(name, inst)] }

/-- Overwrite the first instance of a name. -/
def replace (name : String) (inst : Instance) : List (String × Instance) → List (String × Instance)
  | [] => []
  | (first, held) :: rest =>
    if first = name then (first, inst) :: rest else (first, held) :: replace name inst rest

def set (state : HarnessState Instance) (name : String) (inst : Instance) :
    HarnessState Instance :=
  { state with actors := replace name inst state.actors }

def log (state : HarnessState Instance) (event : Event Instance) : HarnessState Instance :=
  { state with events := state.events ++ [event] }

end HarnessState

/-! ## Arguments -/

/-- The key that a value stands for. -/
def keyOf : Value → Except RuntimeError String
  | .string s => .ok s
  | .atom a => .ok a
  | value => throw (.eval s!"map key must be identifier, string, or atom, got {value.typeName}")

/-- A bare identifier is the key itself; other keys are evaluated. -/
def mapKey (scope : Scope) (key : Expr) : Except RuntimeError String :=
  match key with
  | .ident ident => .ok ident.name
  | other => eval scope other >>= keyOf

/-- A key that is not a bare identifier is evaluated. -/
theorem mapKey_of_compound (scope : Scope) {key : Expr} (compound : ∀ ident, key ≠ .ident ident) :
    mapKey scope key = eval scope key >>= keyOf := by
  cases key with
  | ident ident => exact absurd rfl (compound ident)
  | _ => rfl

def evalPairs (scope : Scope) (fields : Dict) : List (Expr × Expr) → Except RuntimeError Dict
  | [] => .ok fields
  | (keyExpr, valueExpr) :: rest => do
    let key ← mapKey scope keyExpr
    let value ← eval scope valueExpr
    evalPairs scope (fields.insert key value) rest

def evalKeywordValue (scope : Scope) : KeywordValue → Except RuntimeError Value
  | .expr expr => eval scope expr
  | .map pairs => (evalPairs scope [] pairs).map .dict

def evalKeywordArgsInto (scope : Scope) (fields : Dict) :
    List KeywordArg → Except RuntimeError Dict
  | [] => .ok fields
  | kw :: rest => do
    let value ← evalKeywordValue scope kw.value
    evalKeywordArgsInto scope (fields.insert kw.key.name value) rest

def evalKeywordArgs (args : List KeywordArg) (scope : Scope) : Except RuntimeError Dict :=
  evalKeywordArgsInto scope [] args

/-- The first `consumed` positionals belong to the command's spelling. -/
def evalCommandArgs (cmd : Ast.Command) (consumed : Nat) (scope : Scope) :
    Except RuntimeError CommandArgs := do
  let positional ← evalItems scope (cmd.positionalArgs.drop consumed)
  let keyword ← evalKeywordArgs cmd.keywordArgs scope
  return { positional, keyword }

def evalVars (scope : Scope) : List VarDeclaration → Except RuntimeError (List DeclaredVar)
  | [] => .ok []
  | var :: rest => do
    let default ← match var.default with
      | some expr => (eval scope expr).map some
      | none => .ok none
    let vars ← evalVars scope rest
    return { name := var.name.name, default } :: vars

/-- The construction arguments of a declaration, evaluated in an empty scope. -/
def evalConstructArgs (decl : ActorDeclaration) (sourceDir : String) :
    Except RuntimeError ConstructArgs := do
  let keyword ← evalKeywordArgs decl.keywordArgs .new
  let vars ← evalVars .new decl.vars
  return { keyword, sourceDir, vars }

/-! ## Windows -/

/-- Whether a statement is a `let` or an `assert` rooted at `error`. -/
def refersToError : Statement → Bool
  | .assert a => exprStartsWithIdent "error" a.left
  | .let letStmt =>
    match letStmt.value with
    | .expr expr => exprStartsWithIdent "error" expr
    | .parse _ _ => false
  | _ => false

/-- Scan up to the next command for a reference to `error`. -/
def scanErrorRef : List Statement → Bool
  | [] => false
  | stmt :: rest =>
    if stmt.isCommand then false
    else if refersToError stmt then true
    else scanErrorRef rest

/-- Whether the window of the command at an index refers to `error`. -/
def blockHasErrorRefAfter (block : AsBlock) (after : Nat) : Bool :=
  scanErrorRef (block.body.drop (after + 1))

def buildErrorDict (variant : String) (fields : Dict) : Dict :=
  (Dict.insert [] "type" (.atom variant)).insert variant (.dict fields)

/-! ## Statements -/

section Run

variable {Instance : Type} (runtime : ActorRuntime (List (Event Instance)) Instance)
  (regex : Regex)

/-- Bind an actor's view under its name, or unbind the name if it has none. -/
def bindView (scope : Scope) (name : String) : Option Dict → Scope
  | some view => scope.bind name (.dict view)
  | none => scope.unbind name

/-- Refresh the bindings of every live actor and of `self`. -/
def bindSelf (scope : Scope) (actors : List (String × Instance)) (actorName : String) : Scope :=
  let scope := actors.foldl
    (fun scope entry => bindView scope entry.1 (runtime.selfView entry.2)) scope
  bindView scope "self" ((actors.lookup actorName).bind runtime.selfView)

/-- The state while a block runs. -/
structure BlockRun (Instance : Type) where
  harness : HarnessState Instance
  scope : Scope

def noLiveInstance (actor : String) (span : Span) : StatementReport :=
  .evalError actor span s!"actor `{actor}` has no live instance"

def unknownCommand (actor : String) (actorType : ActorType) (cmd : Ast.Command) : StatementReport :=
  .evalError actor cmd.span
    (unknownCommandMessage actorType.name cmd.name.name cmd.positionalArgs)

def commandFailed (actor : String) (cmd : Ast.Command) (errorDict : Dict) : StatementReport :=
  .commandFailure actor cmd.name.name cmd.span errorDict (cmd.annotation.bind (·.value))

/-- Bind the outcome of a command, and fail it unless it succeeded or its
window expects the error. -/
def settleOutcome (actor : String) (cmd : Ast.Command) (expectsError : Bool)
    (harness : HarnessState Instance) (scope : Scope) :
    RunOutcome → BlockRun Instance × Option StatementReport
  | .ok fields => (⟨harness, scope.bind "ok" (.dict fields)⟩, none)
  | .error variant fields =>
    let errorDict := buildErrorDict variant fields
    (⟨harness, scope.bind "error" (.dict errorDict)⟩,
      if expectsError then none else some (commandFailed actor cmd errorDict))
  | .notImplemented actorType command =>
    (⟨harness, scope⟩, some (.commandNotImplemented actorType command cmd.span))

def runCommand (block : AsBlock) (actorType : ActorType) (harness : HarnessState Instance)
    (scope : Scope) (cmd : Ast.Command) (idx : Nat) : BlockRun Instance × Option StatementReport :=
  let actor := block.actor.name
  let scope := (scope.unbind "ok").unbind "error"
  match actorType.resolveCommand cmd.name.name cmd.positionalArgs with
  | none => (⟨harness, scope⟩, some (unknownCommand actor actorType cmd))
  | some (cmdDef, consumed) =>
    match evalCommandArgs cmd consumed scope with
    | .error e => (⟨harness, scope⟩, some (.evalError actor cmd.span e.toString))
    | .ok args =>
      match harness.get actor with
      | none => (⟨harness, scope⟩, some (noLiveInstance actor cmd.span))
      | some inst =>
        let (next, outcome) := runtime.execute harness.events inst cmdDef.name args
        settleOutcome actor cmd (blockHasErrorRefAfter block idx)
          ((harness.set actor next).log (.executed actor inst cmdDef.name args next outcome))
          scope outcome

def runLet (letStmt : Let) (scope : Scope) : Except RuntimeError Scope :=
  match letStmt.value with
  | .expr expr => (eval scope expr).map fun value => scope.bind letStmt.name.name value
  | .parse _ _ => .error (.eval "`let ... parse as ...` is not yet supported in runtime")

/-- Whether an assert holds, or the failure to record for it. -/
def runAssert (actor : String) (a : Assert) (scope : Scope) : Option StatementReport :=
  match evalAssert regex a scope with
  | .error e => some (.evalError actor a.span e.toString)
  | .ok result =>
    if result.passed then none
    else
      some (.assertFailure actor a.span result.left result.right result.op
        (a.annotation.bind (·.value)))

/-- One statement of a block, at its index. -/
def runStatement (block : AsBlock) (actorType : ActorType) (run : BlockRun Instance)
    (indexed : Statement × Nat) : BlockRun Instance × Option StatementReport :=
  let actor := block.actor.name
  let scope := bindSelf runtime run.scope run.harness.actors actor
  match indexed.1 with
  | .command cmd => runCommand runtime block actorType run.harness scope cmd indexed.2
  | .let letStmt =>
    match runLet letStmt scope with
    | .ok bound => (⟨run.harness, bound⟩, none)
    | .error e => (⟨run.harness, scope⟩, some (.evalError actor letStmt.span e.toString))
  | .assignment _ =>
    (⟨run.harness, scope⟩, some (.evalError actor block.span
      "assignment statements are not yet supported in runtime"))
  | .assert a => (⟨run.harness, scope⟩, runAssert regex actor a scope)

/-- The statements of a block from some state on. -/
def runStatements (block : AsBlock) (actorType : ActorType) (run : BlockRun Instance)
    (indexed : List (Statement × Nat)) : BlockRun Instance × Option StatementReport :=
  walk (runStatement runtime regex block actorType) run indexed

/-- The registered type of a block's live instance, or the failure to record. -/
def blockType (block : AsBlock) (harness : HarnessState Instance) :
    Except StatementReport ActorType :=
  match harness.get block.actor.name with
  | none => .error (noLiveInstance block.actor.name block.span)
  | some inst =>
    match Registry.get (runtime.typeName inst) with
    | some actorType => .ok actorType
    | none =>
      .error (.evalError block.actor.name block.span
        s!"unknown actor type `{runtime.typeName inst}` in registry")

def runAsBlock (block : AsBlock) (harness : HarnessState Instance) :
    HarnessState Instance × Option StatementReport :=
  match blockType runtime block harness with
  | .error report => (harness, some report)
  | .ok actorType =>
    let (run, failure) :=
      runStatements runtime regex block actorType ⟨harness, .new⟩ block.body.zipIdx
    (run.harness, failure)

/-! ## Files -/

/-- Construct the actor of a declaration, with the failure as text. -/
def constructActor (sourceDir : String) (harness : HarnessState Instance)
    (decl : ActorDeclaration) : HarnessState Instance × Except String Instance :=
  match Registry.get decl.actorType.name with
  | none => (harness, .error s!"unknown actor type `{decl.actorType.name}`")
  | some actorType =>
    match evalConstructArgs decl sourceDir with
    | .error e => (harness, .error e.toString)
    | .ok args =>
      (harness.log (.constructed decl.name.name actorType args),
        (runtime.construct harness.events actorType args).mapError RuntimeError.toString)

/-- One top-level item. -/
def executeItem (sourceDir : String) (harness : HarnessState Instance) :
    TopLevel → HarnessState Instance × Option StatementReport
  | .actorDeclaration decl =>
    match constructActor runtime sourceDir harness decl with
    | (harness, .ok inst) => (harness.push decl.name.name inst, none)
    | (harness, .error message) =>
      (harness, some (.constructFailure decl.name.name message decl.span))
  | .asBlock block => runAsBlock runtime regex block harness

/-- Some top-level items from some state on. -/
def executeItems (sourceDir : String) (harness : HarnessState Instance) (items : List TopLevel) :
    HarnessState Instance × Option StatementReport :=
  walk (executeItem runtime regex sourceDir) harness items

def taskOutcome : TaskEnd → TeardownOutcome
  | .finished outcome => outcome
  | .panicked => .failed "teardown panicked"
  | .cancelled => .failed "teardown cancelled"

/-- Tear down the entries in the order given, logging each call. -/
def teardownInOrder (events : List (Event Instance)) :
    List (String × Instance) → List (Event Instance) × List TeardownReport
  | [] => (events, [])
  | (name, inst) :: rest =>
    let outcome := taskOutcome (runtime.teardown events inst)
    let later := teardownInOrder (events ++ [.tornDown name]) rest
    (later.1, ⟨name, outcome⟩ :: later.2)

variable {runtime} in
/-- Each entry is torn down once, in order, whatever the answers are. -/
theorem teardownInOrder_events (events : List (Event Instance))
    (entries : List (String × Instance)) :
    (teardownInOrder runtime events entries).1 =
      events ++ entries.map fun entry => .tornDown entry.1 := by
  induction entries generalizing events with
  | nil => simp [teardownInOrder]
  | cons entry rest ih =>
    obtain ⟨name, inst⟩ := entry
    rw [teardownInOrder, ih, List.map_cons, List.append_assoc, List.singleton_append]

/-- Tear down in reverse construction order; report in construction order. -/
def teardownAll (harness : HarnessState Instance) : List (Event Instance) × List TeardownReport :=
  let torn := teardownInOrder runtime harness.events harness.actors.reverse
  (torn.1, torn.2.reverse)

/-- A report together with every call made for it. -/
structure TestRun (Instance : Type) where
  report : TestReport
  events : List (Event Instance)

/-- Run a validated file. -/
def execute (path : String) (source : SourceFile) (sourceDir : String) : TestRun Instance :=
  let (harness, failure) := executeItems runtime regex sourceDir .start source.items
  let statements := failure.toList
  let torn := teardownAll runtime harness
  { report := { path, passed := statements.isEmpty, statements, teardown := torn.2 }
    events := torn.1 }

end Run

end Ill.Harness
