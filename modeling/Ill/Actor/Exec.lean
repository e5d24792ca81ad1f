import Ill.Base.Except
import Ill.Runtime.Outcome
import Ill.Actor.Descriptor
import Ill.Actor.HostPath

/-!
# The `exec` actor

The descriptor of `run` and the runtime state machine over `stopped` and
`running`. The file system, the shell word splitter and the process table are
an `External` record of replies.
-/

namespace Ill.Actor.Exec

open Base

/-! ## Descriptors -/

def execErrorFields : List OutcomeField := [⟨"reason", .atom⟩]

def run : Command where
  name := "run"
  validInModes := [.execStopped]
  transitionsTo := some .execRunning
  keyword := [optionalKeyword "env" .unknown]
  okFields := [⟨"pid", .number⟩]
  errorTypes := [⟨"exec", execErrorFields⟩]

def modes : List Mode := [.execStopped, .execRunning]

def commands : List Command := [run]

def constructorKeyword : List KeywordArgDef :=
  [requiredKeyword "command" .string, optionalKeyword "cwd" .string]

/-! ## Replies of the host -/

inductive SpawnErrorKind where
  | notFound | permissionDenied | other
deriving DecidableEq, Repr

/-- A spawned child; its process id is gone once it has been awaited. -/
structure Child where
  id : Option Nat
deriving DecidableEq, Repr

/-- What is spawned: program, arguments, working directory, environment. -/
structure Invocation where
  program : String
  args : List String
  workingDir : String
  env : List (String × String)
deriving DecidableEq, Repr

/-- How waiting for a child to end inside the grace period turns out. On a
timeout the kill that follows may fail. -/
inductive WaitReply where
  | exited
  | waitFailed (message : String)
  | timedOut (killFailure : Option String)
deriving DecidableEq, Repr

structure External where
  isDir : String → Bool
  shlexSplit : String → Option (List String)
  spawn : Invocation → Except SpawnErrorKind Child
  wait : Child → WaitReply

/-! ## State machine -/

def runError (reason : String) : RunOutcome :=
  .error "exec" [("reason", .atom reason)]

def classifySpawnError : SpawnErrorKind → String
  | .notFound => "command_not_found"
  | .permissionDenied => "permission_denied"
  | .other => "spawn_failed"

inductive ExecMode where
  | stopped
  | running (child : Child)
deriving DecidableEq, Repr

structure ExecInstance where
  target : String
  sourceDir : String
  workingDir : String
  mode : ExecMode
deriving DecidableEq, Repr

def ExecMode.descriptor : ExecMode → Mode
  | .stopped => .execStopped
  | .running _ => .execRunning

def resolveCwd (ext : External) (cwd sourceDir : String) : Except RuntimeError String :=
  if cwd = "" then .error (.construct "exec `cwd` must not be empty")
  else
    let resolved := joinPath sourceDir cwd
    if ext.isDir resolved then .ok resolved
    else
      .error (.construct s!"exec `cwd` does not exist or is not a directory: {resolved}")

def targetOf : Option Value → Except RuntimeError String
  | some (.string s) => .ok s
  | some other => .error (.typeMismatch "string" other.typeName "exec `command`")
  | none => .error (.missingKwarg "command")

def workingDirOf (ext : External) (sourceDir : String) : Option Value → Except RuntimeError String
  | none => .ok sourceDir
  | some (.string s) => resolveCwd ext s sourceDir
  | some other => .error (.typeMismatch "string" other.typeName "exec `cwd`")

def construct (ext : External) (args : ConstructArgs) : Except RuntimeError ExecInstance := do
  let target ← targetOf (args.kw "command")
  let workingDir ← workingDirOf ext args.sourceDir (args.kw "cwd")
  return { target, sourceDir := args.sourceDir, workingDir, mode := .stopped }

/-- A bare name is looked up in the search path by the spawner. -/
def resolveProgram (program sourceDir : String) : String :=
  if isAbsolute program then program
  else if !program.toList.contains '/' && !program.toList.contains '\\' then program
  else joinPath sourceDir program

/-- The environment of the child: empty without the keyword. -/
def envOf : Option Value → Option (List (String × String))
  | none => some []
  | some value => applyEnv value

def Stopped.run (ext : External) (inst : ExecInstance) (env : Option Value) :
    ExecMode × RunOutcome :=
  match ext.shlexSplit inst.target with
  | some (program :: rest) =>
    match envOf env with
    | none => (.stopped, runError "bad_env")
    | some pairs =>
      match ext.spawn {
        program := resolveProgram program inst.sourceDir
        args := rest
        workingDir := inst.workingDir
        env := pairs } with
      | .error kind => (.stopped, runError (classifySpawnError kind))
      | .ok child => (.running child, .ok [("pid", .number (child.id.getD 0))])
  | _ => (.stopped, runError "invalid_command")

def notImplemented (cmd : String) : RunOutcome := .notImplemented "exec" cmd

def execute (ext : External) (cmd : String) (args : CommandArgs) (inst : ExecInstance) :
    ExecInstance × RunOutcome :=
  let (next, outcome) := match inst.mode with
    | .stopped =>
      match cmd with
      | "run" => Stopped.run ext inst (args.kw "env")
      | other => (.stopped, notImplemented other)
    | .running child =>
      match cmd with
      | "run" => (.running child, runError "already_running")
      | other => (.running child, notImplemented other)
  ({ inst with mode := next }, outcome)

/-- The result of ending a running child. -/
def stopOutcome : WaitReply → TeardownOutcome
  | .exited => .success
  | .waitFailed message => .failed s!"wait failed: {message}"
  | .timedOut none => .success
  | .timedOut (some message) => .failed s!"kill failed: {message}"

def teardown (ext : External) (inst : ExecInstance) : ExecInstance × TeardownOutcome :=
  match inst.mode with
  | .stopped => ({ inst with mode := .stopped }, .success)
  | .running child => ({ inst with mode := .stopped }, stopOutcome (ext.wait child))

/-! ## What a command does to the mode -/

/-- A run either starts a child or stays stopped with an error. -/
theorem run_cases (ext : External) (inst : ExecInstance) (env : Option Value) :
    (∃ child fields, Stopped.run ext inst env = (.running child, .ok fields)) ∨
      ∃ outcome, outcome.isError ∧ Stopped.run ext inst env = (.stopped, outcome) := by
  unfold Stopped.run
  split
  · split
    · exact Or.inr ⟨_, rfl, rfl⟩
    · split
      · exact Or.inr ⟨_, rfl, rfl⟩
      · exact Or.inl ⟨_, _, rfl⟩
  · exact Or.inr ⟨_, rfl, rfl⟩

/-- Every command valid in the mode obeys its descriptor. -/
theorem execute_obeys (ext : External) (args : CommandArgs) (inst : ExecInstance)
    {command : Command} (member : command ∈ commands)
    (valid : inst.mode.descriptor ∈ command.validInModes) :
    command.Obeys inst.mode.descriptor (execute ext command.name args inst).2
      (execute ext command.name args inst).1.mode.descriptor := by
  obtain ⟨target, sourceDir, workingDir, mode⟩ := inst
  obtain rfl := List.mem_singleton.mp member
  cases mode with
  | running child => simp [run, ExecMode.descriptor] at valid
  | stopped =>
    show run.Obeys _ (Stopped.run ext ⟨target, sourceDir, workingDir, .stopped⟩ (args.kw "env")).2
      (Stopped.run ext ⟨target, sourceDir, workingDir, .stopped⟩ (args.kw "env")).1.descriptor
    rcases run_cases ext ⟨target, sourceDir, workingDir, .stopped⟩ (args.kw "env") with
      ⟨child, fields, done⟩ | ⟨outcome, erroneous, failed⟩
    · rw [done]
      exact .of_ok fields rfl
    · rw [failed]
      exact .of_error erroneous

/-- A new instance is stopped. -/
theorem construct_mode {ext : External} {args : ConstructArgs} {inst : ExecInstance}
    (constructed : construct ext args = .ok inst) : inst.mode = .stopped := by
  obtain ⟨target, _, constructed⟩ := bind_eq_ok.mp constructed
  obtain ⟨workingDir, _, constructed⟩ := bind_eq_ok.mp constructed
  cases constructed
  rfl

end Ill.Actor.Exec
