import Ill.Actor.Registry

/-!
# Live actors

The runtime instances behind one interface. `ActorRuntime` is the trait object
the harness drives, over any type of instances and any behaviour of them;
`LiveActor` is the instances of the registered types, and `execute_cases` is
the one statement about what any of their commands can do to the mode.
-/

namespace Ill.Actor

open Base

/-- The replies of all external systems. -/
structure External where
  pgClient : PgClient.External
  mqttClient : MqttClient.External
  exec : Exec.External
  container : Container.External
  cliArgs : ArgsActor.CliArgs

/-- A live instance of an actor type with a runtime. -/
inductive LiveActor where
  | pgClient (inst : PgClient.PgClientInstance)
  | mqttClient (inst : MqttClient.MqttClientInstance)
  | exec (inst : Exec.ExecInstance)
  | container (inst : Container.ContainerInstance)
  | argsActor (inst : ArgsActor.ArgsActorInstance)

namespace LiveActor

def actorType : LiveActor → ActorType
  | .pgClient _ => .pgClient
  | .mqttClient _ => .mqttClient
  | .exec _ => .exec
  | .container _ => .container
  | .argsActor _ => .argsActor

def typeName (actor : LiveActor) : String := actor.actorType.name

/-- The descriptor of the mode an instance is in. -/
def mode : LiveActor → Mode
  | .pgClient inst => inst.mode.descriptor
  | .mqttClient inst => inst.mode.descriptor
  | .exec inst => inst.mode.descriptor
  | .container inst => inst.mode.descriptor
  | .argsActor _ => .argsReady

/-- Construct an instance; `http_client` keeps the default of its trait. -/
def construct (ext : External) (args : ConstructArgs) : ActorType → Except RuntimeError LiveActor
  | .pgClient => (PgClient.construct args).map .pgClient
  | .mqttClient => (MqttClient.construct args).map .mqttClient
  | .exec => (Exec.construct ext.exec args).map .exec
  | .container => (Container.construct ext.container args).map .container
  | .argsActor => (ArgsActor.construct ext.cliArgs args).map .argsActor
  | .httpClient => .error (.actorNotImplemented "http_client")

def execute (ext : External) (cmd : String) (args : CommandArgs) :
    LiveActor → LiveActor × RunOutcome
  | .pgClient inst => (PgClient.execute ext.pgClient cmd args inst).map .pgClient id
  | .mqttClient inst => (MqttClient.execute ext.mqttClient cmd args inst).map .mqttClient id
  | .exec inst => (Exec.execute ext.exec cmd args inst).map .exec id
  | .container inst => (Container.execute ext.container cmd args inst).map .container id
  | .argsActor inst => (.argsActor inst, ArgsActor.execute cmd args)

/-- Whether a command panics, so that nothing comes of it. -/
def panics (ext : External) (cmd : String) (args : CommandArgs) : LiveActor → Bool
  | .mqttClient inst => MqttClient.panics ext.mqttClient cmd args inst
  | _ => false

def teardown (ext : External) : LiveActor → LiveActor × TeardownOutcome
  | .pgClient inst => (PgClient.teardown inst).map .pgClient id
  | .mqttClient inst => (MqttClient.teardown inst).map .mqttClient id
  | .exec inst => (Exec.teardown ext.exec inst).map .exec id
  | .container inst => (Container.teardown ext.container inst).map .container id
  | .argsActor inst => (.argsActor inst, .success)

/-- The user-visible state; clients have none. -/
def selfView : LiveActor → Option Dict
  | .container inst => Container.selfView inst
  | .argsActor inst => ArgsActor.selfView inst
  | _ => none

end LiveActor

/-! ## The instance interface -/

/-- How a spawned teardown task ends. -/
inductive TaskEnd where
  | finished (outcome : TeardownOutcome)
  | panicked
  | cancelled

/-- What the harness needs of instances. Each call may depend on `past`, the
calls made before it. -/
structure ActorRuntime (Past Instance : Type) where
  construct : Past → ActorType → ConstructArgs → Except RuntimeError Instance
  execute : Past → Instance → String → CommandArgs → Instance × RunOutcome
  teardown : Past → Instance → TaskEnd
  typeName : Instance → String
  selfView : Instance → Option Dict

/-- The registered runtimes, with external systems that may answer every call
differently. -/
def liveRuntime {Past : Type} (world : Past → External) : ActorRuntime Past LiveActor where
  construct past actorType args := LiveActor.construct (world past) args actorType
  execute past actor cmd args := actor.execute (world past) cmd args
  teardown past actor := .finished (actor.teardown (world past)).2
  typeName := LiveActor.typeName
  selfView := LiveActor.selfView

/-! ## What construction and commands do to the mode -/

/-- A constructed instance is of the type asked for, in its initial mode. -/
theorem LiveActor.construct_spec {ext : External} {args : ConstructArgs} {actorType : ActorType}
    {actor : LiveActor} (constructed : construct ext args actorType = .ok actor) :
    actor.actorType = actorType ∧ actor.mode = actorType.initialMode := by
  cases actorType with
  | httpClient => simp [construct] at constructed
  | pgClient =>
    cases constructed
    exact ⟨rfl, rfl⟩
  | mqttClient =>
    cases constructed
    exact ⟨rfl, rfl⟩
  | exec =>
    obtain ⟨inst, made, rfl⟩ := map_eq_ok.mp constructed
    exact ⟨rfl, congrArg Exec.ExecMode.descriptor (Exec.construct_mode made)⟩
  | container =>
    obtain ⟨inst, made, rfl⟩ := map_eq_ok.mp constructed
    exact ⟨rfl, congrArg Container.ContainerMode.descriptor (Container.construct_spec made).1⟩
  | argsActor =>
    obtain ⟨inst, _, rfl⟩ := map_eq_ok.mp constructed
    exact ⟨rfl, rfl⟩

/-- A command never changes the type of an instance. -/
theorem LiveActor.execute_actorType (ext : External) (cmd : String) (args : CommandArgs)
    (actor : LiveActor) : (actor.execute ext cmd args).1.actorType = actor.actorType := by
  cases actor <;> rfl

/-- The errors that end a session or a container all the same: a `stop` the
daemon did not confirm, and a wait for a DISCONNECT on a lost connection. -/
def endsDespiteError (command : Command) (outcome : RunOutcome) : Prop :=
  command = Container.stop ∨
    (command = MqttClient.receiveDisconnect ∧ outcome = MqttClient.networkError "connection_lost")

/-- A command that is valid in the mode of an instance obeys its descriptor,
unless it ends what it was sent to in spite of an error. -/
theorem LiveActor.execute_obeys (ext : External) (args : CommandArgs) (actor : LiveActor)
    {command : Command} (member : command ∈ actor.actorType.commands)
    (valid : actor.mode ∈ command.validInModes)
    (survives : ¬ endsDespiteError command (actor.execute ext command.name args).2) :
    command.Obeys actor.mode (actor.execute ext command.name args).2
      (actor.execute ext command.name args).1.mode := by
  rw [endsDespiteError, not_or] at survives
  cases actor with
  | pgClient inst => exact PgClient.execute_obeys ext.pgClient args inst member valid
  | mqttClient inst =>
    exact MqttClient.execute_obeys ext.mqttClient args inst member valid survives.2
  | exec inst => exact Exec.execute_obeys ext.exec args inst member valid
  | container inst =>
    simp only [actorType, ActorType.commands, Container.commands, List.mem_cons,
      List.not_mem_nil, or_false] at member
    rcases member with rfl | rfl
    · exact Container.execute_run_obeys ext.container args inst valid
    · exact absurd rfl survives.1
  | argsActor inst =>
    obtain rfl := List.mem_singleton.mp member
    exact .of_stays rfl

/-- `stop` is a command of containers only. -/
theorem ActorType.eq_container_of_stop {actorType : ActorType}
    (member : Container.stop ∈ actorType.commands) : actorType = .container := by
  cases actorType with
  | container => rfl
  | _ => exact absurd member (by decide)

/-- `receive_disconnect` is a command of `mqtt_client` only. -/
theorem ActorType.eq_mqttClient_of_receiveDisconnect {actorType : ActorType}
    (member : MqttClient.receiveDisconnect ∈ actorType.commands) : actorType = .mqttClient := by
  cases actorType with
  | mqttClient => rfl
  | _ => exact absurd member (by decide)

/-- An error that ends what it was sent to moves to the mode a success would. -/
theorem LiveActor.execute_ends {ext : External} {args : CommandArgs} {actor : LiveActor}
    {command : Command} (member : command ∈ actor.actorType.commands)
    (valid : actor.mode ∈ command.validInModes)
    (ends : endsDespiteError command (actor.execute ext command.name args).2) :
    (actor.execute ext command.name args).1.mode = command.modeAfterOk actor.mode := by
  rcases ends with rfl | ⟨rfl, lost⟩
  · cases actor with
    | container inst => exact Container.execute_stop_mode ext.container args inst valid
    | _ => exact nomatch ActorType.eq_container_of_stop member
  · cases actor with
    | mqttClient inst => exact MqttClient.execute_receiveDisconnect_lost valid lost
    | _ => exact nomatch ActorType.eq_mqttClient_of_receiveDisconnect member

/-- The mode contract of the registered actors: success moves to the mode the
descriptor names, an error stays, except for the errors that end a container
or a session, which move like a success. -/
theorem LiveActor.execute_mode (ext : External) (args : CommandArgs) (actor : LiveActor)
    (command : Command) (member : command ∈ actor.actorType.commands)
    (valid : actor.mode ∈ command.validInModes) :
    let result := actor.execute ext command.name args
    (result.2.isOk → result.1.mode = command.modeAfterOk actor.mode) ∧
      (result.2.isError → ¬ endsDespiteError command result.2 → result.1.mode = actor.mode) ∧
      (result.2.isError → endsDespiteError command result.2 →
        result.1.mode = command.modeAfterOk actor.mode) := by
  intro result
  refine ⟨fun succeeded => ?_, fun erroneous survives => ?_, fun _ ends => ?_⟩
  · by_cases ends : endsDespiteError command result.2
    · exact execute_ends member valid ends
    · exact (execute_obeys ext args actor member valid ends).1 succeeded
  · exact (execute_obeys ext args actor member valid survives).2 erroneous
  · exact execute_ends member valid ends

/-- External systems that refuse everything. -/
def refusingWorld : External where
  pgClient := {
    connect := fun _ _ => .timedOut
    query := fun _ => .error ⟨none, none, true, "connection closed"⟩
    timedOut := fun _ _ => false }
  mqttClient := {
    takesKeepAlive := fun secs => decide (5 ≤ secs)
    connect := fun _ _ => .timedOut
    subscribe := fun _ _ _ => .connectionLost
    publishQos0 := fun _ _ _ => false
    publishQos1 := fun _ _ _ => .connectionLost
    publishQos2 := fun _ _ _ => .connectionLost
    receivePublish := fun _ => .closed
    receiveDisconnect := fun _ => .closed }
  exec := {
    isDir := fun _ => false
    shlexSplit := fun text => some [text]
    spawn := fun _ => .error .notFound
    wait := fun _ => .exited }
  container := {
    isFile := fun _ => false
    pathHash := fun _ => "0000000000000000"
    pullImage := fun _ _ => .error "no daemon"
    buildImage := fun _ _ => .error "no daemon"
    start := fun _ => .error (.other "no daemon")
    rm := fun _ => .failed "no daemon" }
  cliArgs := []

/-- A running container. -/
def runningContainer : LiveActor :=
  .container {
    imageName := "nginx", imageTag := "latest", internalPort := none, mode := .running "c1"
    members := ⟨[]⟩ }

theorem LiveActor.execute_mode_stop :
    (runningContainer.execute refusingWorld "stop" ⟨[], []⟩).1.mode = .containerStopped :=
  (LiveActor.execute_mode refusingWorld ⟨[], []⟩ runningContainer Container.stop
    (by decide) (by decide)).2.2 rfl (Or.inl rfl)

/-- An error does not always leave the mode alone: a `stop` the daemon refuses
stops the actor, and a wait for a DISCONNECT on a lost connection disconnects it. -/
theorem LiveActor.error_moves_mode :
    ¬ ∀ (ext : External) (args : CommandArgs) (actor : LiveActor) (command : Command),
      command ∈ actor.actorType.commands → actor.mode ∈ command.validInModes →
        command.Obeys actor.mode (actor.execute ext command.name args).2
          (actor.execute ext command.name args).1.mode := by
  intro obeys
  have unmoved := (obeys refusingWorld ⟨[], []⟩ runningContainer Container.stop
    (by decide) (by decide)).2 rfl
  exact absurd unmoved (by decide)

end Ill.Actor
