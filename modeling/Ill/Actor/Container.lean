import Ill.Base.Except
import Ill.Runtime.Outcome
import Ill.Actor.Descriptor
import Ill.Actor.HostPath

/-!
# The `container` actor

Descriptors of `run` and `stop` and the runtime state machine over `stopped`
and `running`. The image store, the file system and the container daemon are
an `External` record of replies.
-/

namespace Ill.Actor.Container

open Base

/-! ## Descriptors -/

def containerErrorFields : List OutcomeField := [⟨"reason", .atom⟩]

def containerErrorTypes : List ErrorTypeDef := [⟨"container", containerErrorFields⟩]

def run : Command where
  name := "run"
  validInModes := [.containerStopped]
  transitionsTo := some .containerRunning
  keyword := [
    optionalKeyword "external_port" .number,
    optionalKeyword "env" .unknown,
    optionalKeyword "timeout" .number]
  okFields := [⟨"id", .string⟩]
  errorTypes := containerErrorTypes

def stop : Command where
  name := "stop"
  validInModes := [.containerRunning]
  transitionsTo := some .containerStopped
  errorTypes := containerErrorTypes

def modes : List Mode := [.containerStopped, .containerRunning]

def commands : List Command := [run, stop]

def constructorKeyword : List KeywordArgDef :=
  [optionalKeyword "image" .string, optionalKeyword "dockerfile" .string,
    optionalKeyword "internal_port" .number]

/-! ## Replies of the daemon -/

/-- Why a container could not be started. -/
inductive StartError where
  | startupTimeout
  | other (rendered : String)
deriving DecidableEq, Repr

inductive RemoveReply where
  | removed
  | failed (message : String)
  | timedOut
deriving DecidableEq, Repr

structure Request where
  imageName : String
  imageTag : String
  mappedPort : Option (Nat × Nat)
  env : List (String × String)
  startupTimeout : Nat
deriving DecidableEq, Repr

/-- `pathHash` is the standard library's hash of a path, as sixteen hexadecimal
digits; a failed pull or build carries the daemon's message. -/
structure External where
  isFile : String → Bool
  pathHash : String → String
  pullImage : String → String → Except String Unit
  buildImage : String → String → Except String Unit
  start : Request → Except StartError String
  rm : String → RemoveReply

/-! ## State machine -/

def runError (reason : String) : RunOutcome :=
  .error "container" [("reason", .atom reason)]

def classifyRunError : StartError → String
  | .startupTimeout => "timeout"
  | .other rendered =>
    if containsText rendered "port is already allocated" ||
        containsText rendered "address already in use" then "port_in_use"
    else "docker_unavailable"

inductive ContainerMode where
  | stopped
  | running (container : String)
deriving DecidableEq, Repr

structure ContainerInstance where
  imageName : String
  imageTag : String
  internalPort : Option Nat
  mode : ContainerMode
  members : Members

def ContainerMode.descriptor : ContainerMode → Mode
  | .stopped => .containerStopped
  | .running _ => .containerRunning

/-- Split at the last colon when what follows is a tag, not a registry path. -/
def splitImageRef (imageRef : String) : String × String :=
  let tag := imageRef.toList.reverse.takeWhile (· != ':')
  if imageRef.toList.contains ':' && !tag.contains '/' && !tag.isEmpty then
    (String.ofList (imageRef.toList.take (imageRef.toList.length - tag.length - 1)),
      String.ofList tag.reverse)
  else (imageRef, "latest")

def prepareFromImage (ext : External) (imageRef : String) (internalPort : Option Nat)
    (members : Members) : Except RuntimeError ContainerInstance :=
  let (name, tag) := splitImageRef imageRef
  match ext.pullImage name tag with
  | .error message => .error (.construct s!"pulling `{name}:{tag}`: {message}")
  | .ok _ => .ok { imageName := name, imageTag := tag, internalPort, mode := .stopped, members }

def synthesizeImageName (ext : External) (path : String) : String :=
  "ill-build-" ++ ext.pathHash path

def prepareFromDockerfile (ext : External) (dockerfile sourceDir : String)
    (internalPort : Option Nat) (members : Members) : Except RuntimeError ContainerInstance :=
  let resolved := joinPath sourceDir dockerfile
  if !ext.isFile resolved then .error (.construct s!"dockerfile not found: {resolved}")
  else
    let name := synthesizeImageName ext resolved
    match ext.buildImage name resolved with
    | .error message => .error (.construct s!"building `{resolved}`: {message}")
    | .ok _ =>
      .ok { imageName := name, imageTag := "latest", internalPort, mode := .stopped, members }

def internalPortOf : Option Value → Except RuntimeError (Option Nat)
  | none => .ok none
  | some (.number n) =>
    if 0 ≤ n ∧ n ≤ 65535 then .ok (some n.toNat)
    else .error (.construct s!"container `internal_port` {n} is out of range for a u16")
  | some other => .error (.typeMismatch "number" other.typeName "container `internal_port`")

def construct (ext : External) (args : ConstructArgs) : Except RuntimeError ContainerInstance := do
  let internalPort ← internalPortOf (args.kw "internal_port")
  let members := Members.fromDeclarations args.vars
  match args.kw "image", args.kw "dockerfile" with
  | some _, some _ =>
    .error (.construct "container requires exactly one of `image:` or `dockerfile:`, not both")
  | none, none => .error (.construct "container requires either `image:` or `dockerfile:`")
  | some (.string imageRef), none => prepareFromImage ext imageRef internalPort members
  | some other, none => .error (.typeMismatch "string" other.typeName "container `image`")
  | none, some (.string pathRef) =>
    prepareFromDockerfile ext pathRef args.sourceDir internalPort members
  | none, some other => .error (.typeMismatch "string" other.typeName "container `dockerfile`")

def valueAsU16 : Value → Option Nat
  | .number n => if 0 ≤ n ∧ n ≤ 65535 then some n.toNat else none
  | _ => none

/-- The default of `timeout:`, in milliseconds. -/
def defaultStartupTimeout : Nat := 60000

def startupTimeout : Option Value → Nat
  | some (.number n) => if 0 < n then n.toNat else defaultStartupTimeout
  | _ => defaultStartupTimeout

/-- The host port to publish: absent, or a port for which the actor declares
an internal one. -/
def externalPort (internalPort : Option Nat) : Option Value → Option (Option Nat)
  | none => some none
  | some value =>
    match valueAsU16 value with
    | none => none
    | some port => if internalPort.isNone then none else some (some port)

/-- The pairs to set; none are set without the keyword. -/
def envOf : Option Value → Option (List (String × String))
  | none => some []
  | some value => applyEnv value

def Stopped.run (ext : External) (inst : ContainerInstance)
    (externalPortKw envKw timeoutKw : Option Value) : ContainerMode × RunOutcome :=
  match externalPort inst.internalPort externalPortKw with
  | none => (.stopped, runError "bad_port")
  | some host =>
    match envOf envKw with
    | none => (.stopped, runError "bad_env")
    | some pairs =>
      match ext.start {
        imageName := inst.imageName
        imageTag := inst.imageTag
        mappedPort := host.bind fun port => inst.internalPort.map fun internal => (port, internal)
        env := pairs
        startupTimeout := startupTimeout timeoutKw } with
      | .ok id => (.running id, .ok [("id", .string id)])
      | .error e => (.stopped, runError (classifyRunError e))

/-- Every outcome leaves the actor stopped: the machine tracks what was
attempted, not what the daemon acknowledged. -/
def Running.stop (ext : External) (container : String) : ContainerMode × RunOutcome :=
  match ext.rm container with
  | .removed => (.stopped, .ok [])
  | .failed _ => (.stopped, runError "docker_unavailable")
  | .timedOut => (.stopped, runError "timeout")

def notImplemented (cmd : String) : RunOutcome := .notImplemented "container" cmd

def execute (ext : External) (cmd : String) (args : CommandArgs) (inst : ContainerInstance) :
    ContainerInstance × RunOutcome :=
  let (next, outcome) := match inst.mode with
    | .stopped =>
      match cmd with
      | "run" => Stopped.run ext inst (args.kw "external_port") (args.kw "env") (args.kw "timeout")
      | "stop" => (.stopped, runError "not_running")
      | other => (.stopped, notImplemented other)
    | .running container =>
      match cmd with
      | "run" => (.running container, runError "already_running")
      | "stop" => Running.stop ext container
      | other => (.running container, notImplemented other)
  ({ inst with mode := next }, outcome)

def teardownOutcome : RemoveReply → TeardownOutcome
  | .removed => .success
  | .failed message => .failed s!"rm failed: {message}"
  | .timedOut => .failed "rm timed out after 15s"

def teardown (ext : External) (inst : ContainerInstance) : ContainerInstance × TeardownOutcome :=
  match inst.mode with
  | .stopped => ({ inst with mode := .stopped }, .success)
  | .running container => ({ inst with mode := .stopped }, teardownOutcome (ext.rm container))

def selfView (inst : ContainerInstance) : Option Dict := some inst.members.assignedView

/-! ## What a command does to the mode -/

/-- A run either starts a container or stays stopped with an error. -/
theorem run_cases (ext : External) (inst : ContainerInstance)
    (externalPortKw envKw timeoutKw : Option Value) :
    (∃ container fields,
        Stopped.run ext inst externalPortKw envKw timeoutKw = (.running container, .ok fields)) ∨
      ∃ outcome, outcome.isError ∧
        Stopped.run ext inst externalPortKw envKw timeoutKw = (.stopped, outcome) := by
  unfold Stopped.run
  split
  · exact Or.inr ⟨_, rfl, rfl⟩
  · split
    · exact Or.inr ⟨_, rfl, rfl⟩
    · split
      · exact Or.inl ⟨_, _, rfl⟩
      · exact Or.inr ⟨_, rfl, rfl⟩

/-- A stop ends stopped, whatever it reports. -/
theorem stop_mode (ext : External) (container : String) :
    (Running.stop ext container).1 = .stopped := by
  unfold Running.stop
  split <;> rfl

/-- `run` obeys its descriptor where it is valid. -/
theorem execute_run_obeys (ext : External) (args : CommandArgs) (inst : ContainerInstance)
    (valid : inst.mode.descriptor ∈ run.validInModes) :
    run.Obeys inst.mode.descriptor (execute ext run.name args inst).2
      (execute ext run.name args inst).1.mode.descriptor := by
  obtain ⟨imageName, imageTag, internalPort, mode, members⟩ := inst
  cases mode with
  | running container => simp [run, ContainerMode.descriptor] at valid
  | stopped =>
    have cases := run_cases ext ⟨imageName, imageTag, internalPort, .stopped, members⟩
      (args.kw "external_port") (args.kw "env") (args.kw "timeout")
    rcases cases with ⟨container, fields, done⟩ | ⟨outcome, erroneous, failed⟩
    · simp only [execute, run, done]
      exact .of_ok fields rfl
    · simp only [execute, run, failed]
      exact .of_error erroneous

/-- `stop` ends in the mode its descriptor names, also when it fails. -/
theorem execute_stop_mode (ext : External) (args : CommandArgs) (inst : ContainerInstance)
    (valid : inst.mode.descriptor ∈ stop.validInModes) :
    (execute ext stop.name args inst).1.mode.descriptor = .containerStopped := by
  obtain ⟨imageName, imageTag, internalPort, mode, members⟩ := inst
  cases mode with
  | stopped => simp [stop, ContainerMode.descriptor] at valid
  | running container =>
    simp only [execute, stop]
    rw [stop_mode]
    rfl

/-- Preparing the image fails or gives a stopped instance with the declared
variables as its members. -/
theorem construct_spec {ext : External} {args : ConstructArgs} {inst : ContainerInstance}
    (constructed : construct ext args = .ok inst) :
    inst.mode = .stopped ∧ inst.members = .fromDeclarations args.vars := by
  obtain ⟨internalPort, _, constructed⟩ := bind_eq_ok.mp constructed
  dsimp only at constructed
  split at constructed
  · simp at constructed
  · simp at constructed
  · next imageRef _ _ =>
    simp only [prepareFromImage] at constructed
    split at constructed
    · simp at constructed
    · cases constructed
      exact ⟨rfl, rfl⟩
  · simp at constructed
  · next pathRef _ _ =>
    simp only [prepareFromDockerfile] at constructed
    split at constructed
    · simp at constructed
    · split at constructed
      · simp at constructed
      · cases constructed
        exact ⟨rfl, rfl⟩
  · simp at constructed

end Ill.Actor.Container
