import Ill.Actor.Schema

/-!
# Commands in and out of their modes

What an instance makes of the commands of its type. In a mode the command is
not valid in it refuses and stays as it is; in a mode the command is valid in
it answers with a success or an error.
-/

namespace Ill

/-- Whether the command was answered: an instance that does not know it in its
mode says that it is not implemented. -/
def RunOutcome.isAnswer : RunOutcome → Bool
  | .notImplemented _ _ => false
  | _ => true

theorem RunOutcome.isAnswer_of_isError {outcome : RunOutcome} (erroneous : outcome.isError) :
    outcome.isAnswer = true := by
  cases outcome with
  | notImplemented actor cmd => simp [RunOutcome.isError] at erroneous
  | _ => rfl

namespace Actor

open Base

/-- An instance refuses a command: it is what it was, and the command did not succeed. -/
def Refuses {Instance : Type} (inst : Instance) (result : Instance × RunOutcome) : Prop :=
  result.1 = inst ∧ result.2.isOk = false

namespace PgClient

theorem execute_refuses (ext : External) (args : CommandArgs) (inst : PgClientInstance)
    {command : Command} (member : command ∈ commands)
    (invalid : inst.mode.descriptor ∉ command.validInModes) :
    Refuses inst (execute ext command.name args inst) := by
  obtain ⟨mode⟩ := inst
  simp only [commands, List.mem_cons, List.not_mem_nil, or_false] at member
  cases mode with
  | disconnected =>
    rcases member with rfl | rfl | rfl
    · exact absurd (by decide) invalid
    · exact ⟨rfl, rfl⟩
    · exact ⟨rfl, rfl⟩
  | connected =>
    rcases member with rfl | rfl | rfl
    · exact ⟨rfl, rfl⟩
    · exact absurd (by decide) invalid
    · exact absurd (by decide) invalid

theorem classifyQueryError_isError (e : PgError) : (classifyQueryError e).isError := by
  unfold classifyQueryError
  repeat' split
  all_goals rfl

theorem query_answers (ext : External) (sql : String) (timeoutKw : Option Value) :
    (Connected.query ext sql timeoutKw).2.isAnswer = true := by
  unfold Connected.query
  split
  · rfl
  · split
    · rfl
    · exact RunOutcome.isAnswer_of_isError (classifyQueryError_isError _)

theorem execute_answers (ext : External) (args : CommandArgs) (inst : PgClientInstance)
    {command : Command} (member : command ∈ commands)
    (valid : inst.mode.descriptor ∈ command.validInModes) :
    (execute ext command.name args inst).2.isAnswer = true := by
  obtain ⟨mode⟩ := inst
  simp only [commands, List.mem_cons, List.not_mem_nil, or_false] at member
  cases mode with
  | disconnected =>
    rcases member with rfl | rfl | rfl
    · show (Disconnected.connect ext args.keyword).2.isAnswer = true
      rcases connect_cases ext args.keyword with done | ⟨outcome, erroneous, failed⟩
      · rw [done]
        rfl
      · rw [failed]
        exact RunOutcome.isAnswer_of_isError erroneous
    · exact absurd valid (by decide)
    · exact absurd valid (by decide)
  | connected =>
    rcases member with rfl | rfl | rfl
    · exact absurd valid (by decide)
    · simp only [execute, query]
      split
      · exact query_answers _ _ _
      · rfl
    · rfl

end PgClient

namespace Exec

theorem execute_refuses (ext : External) (args : CommandArgs) (inst : ExecInstance)
    {command : Command} (member : command ∈ commands)
    (invalid : inst.mode.descriptor ∉ command.validInModes) :
    Refuses inst (execute ext command.name args inst) := by
  obtain ⟨target, sourceDir, workingDir, mode⟩ := inst
  obtain rfl := List.mem_singleton.mp member
  cases mode with
  | stopped => exact absurd (by simp [run, ExecMode.descriptor]) invalid
  | running child => exact ⟨rfl, rfl⟩

theorem execute_answers (ext : External) (args : CommandArgs) (inst : ExecInstance)
    {command : Command} (member : command ∈ commands)
    (valid : inst.mode.descriptor ∈ command.validInModes) :
    (execute ext command.name args inst).2.isAnswer = true := by
  obtain ⟨target, sourceDir, workingDir, mode⟩ := inst
  obtain rfl := List.mem_singleton.mp member
  cases mode with
  | running child => simp [run, ExecMode.descriptor] at valid
  | stopped =>
    show (Stopped.run ext ⟨target, sourceDir, workingDir, .stopped⟩ (args.kw "env")).2.isAnswer = true
    rcases run_cases ext ⟨target, sourceDir, workingDir, .stopped⟩ (args.kw "env") with
      ⟨child, fields, done⟩ | ⟨outcome, erroneous, failed⟩
    · rw [done]
      rfl
    · rw [failed]
      exact RunOutcome.isAnswer_of_isError erroneous

end Exec

namespace Container

theorem execute_refuses (ext : External) (args : CommandArgs) (inst : ContainerInstance)
    {command : Command} (member : command ∈ commands)
    (invalid : inst.mode.descriptor ∉ command.validInModes) :
    Refuses inst (execute ext command.name args inst) := by
  obtain ⟨imageName, imageTag, internalPort, mode, members⟩ := inst
  simp only [commands, List.mem_cons, List.not_mem_nil, or_false] at member
  cases mode with
  | stopped =>
    rcases member with rfl | rfl
    · exact absurd (by simp [run, ContainerMode.descriptor]) invalid
    · exact ⟨rfl, rfl⟩
  | running container =>
    rcases member with rfl | rfl
    · exact ⟨rfl, rfl⟩
    · exact absurd (by simp [stop, ContainerMode.descriptor]) invalid

theorem stop_answers (ext : External) (container : String) :
    (Running.stop ext container).2.isAnswer = true := by
  unfold Running.stop
  split <;> rfl

theorem execute_answers (ext : External) (args : CommandArgs) (inst : ContainerInstance)
    {command : Command} (member : command ∈ commands)
    (valid : inst.mode.descriptor ∈ command.validInModes) :
    (execute ext command.name args inst).2.isAnswer = true := by
  obtain ⟨imageName, imageTag, internalPort, mode, members⟩ := inst
  simp only [commands, List.mem_cons, List.not_mem_nil, or_false] at member
  cases mode with
  | stopped =>
    rcases member with rfl | rfl
    · have cases := run_cases ext ⟨imageName, imageTag, internalPort, .stopped, members⟩
        (args.kw "external_port") (args.kw "env") (args.kw "timeout")
      rcases cases with ⟨container, fields, done⟩ | ⟨outcome, erroneous, failed⟩
      · simp only [execute, run, done]
        rfl
      · simp only [execute, run, failed]
        exact RunOutcome.isAnswer_of_isError erroneous
    · simp [stop, ContainerMode.descriptor] at valid
  | running container =>
    rcases member with rfl | rfl
    · simp [run, ContainerMode.descriptor] at valid
    · exact stop_answers ext container

end Container

namespace MqttClient

theorem execute_refuses (ext : External) (args : CommandArgs) (inst : MqttClientInstance)
    {command : Command} (member : command ∈ commands)
    (invalid : inst.mode.descriptor ∉ command.validInModes) :
    Refuses inst (execute ext command.name args inst) := by
  obtain ⟨mode⟩ := inst
  simp only [commands, List.mem_cons, List.not_mem_nil, or_false] at member
  cases mode with
  | disconnected =>
    rcases member with rfl | rfl | rfl | rfl | rfl | rfl | rfl | rfl | rfl | rfl
    · exact absurd (by decide) invalid
    all_goals exact ⟨rfl, rfl⟩
  | connected =>
    rcases member with rfl | rfl | rfl | rfl | rfl | rfl | rfl | rfl | rfl | rfl
    · exact ⟨rfl, rfl⟩
    all_goals exact absurd (by decide) invalid

/-- A waiter is answered with nothing or with an error. -/
theorem ackOutcome_answers {Ack : Type} {judge : Ack → Except RunOutcome Unit}
    (judged : ∀ ack outcome, judge ack = .error outcome → outcome.isAnswer = true)
    (reply : AckReply Ack) : (ackOutcome judge reply).isAnswer = true := by
  cases reply with
  | sendFailed | connectionLost | senderDropped => rfl
  | acked ack =>
    rw [ackOutcome]
    split
    · rfl
    · next outcome failed => exact judged ack outcome failed

theorem failureOutcome_answers {failure : Option (String × Int)} {outcome : RunOutcome}
    (failed : failureOutcome failure = .error outcome) : outcome.isAnswer = true := by
  obtain ⟨reason, code, rfl⟩ := failureOutcome_error failed
  rfl

theorem subscribe_answers (ext : External) (qos : QoS) (args : CommandArgs) :
    (Connected.subscribe ext qos args).isAnswer = true := by
  unfold Connected.subscribe
  split
  · split
    · rfl
    · exact ackOutcome_answers (fun _ _ => failureOutcome_answers) _
  · rfl

theorem publish_answers (ext : External) (qos : QoS) (args : CommandArgs) :
    (Connected.publish ext qos args).isAnswer = true := by
  rcases publish_cases ext qos args with ⟨_, reason, code, rejected⟩ | ⟨_, _, _, _, sent⟩
  · rw [rejected]
    rfl
  · rw [sent]
    cases qos with
    | atMostOnce =>
      rw [sendPublish]
      split <;> rfl
    | atLeastOnce => exact ackOutcome_answers (fun _ _ => failureOutcome_answers) _
    | exactlyOnce =>
      have judged : ∀ (ack : Unit) (outcome : RunOutcome), pubcompOutcome ack = .error outcome →
          outcome.isAnswer = true := by
        intro ack outcome failed
        simp [pubcompOutcome] at failed
      exact ackOutcome_answers judged _

theorem receivePublish_answers (ext : External) (args : CommandArgs) :
    (Connected.receivePublish ext args).isAnswer = true := by
  unfold Connected.receivePublish
  split <;> rfl

theorem receiveDisconnect_answers (ext : External) (args : CommandArgs) :
    (Connected.receiveDisconnect ext args).2.isAnswer = true := by
  unfold Connected.receiveDisconnect
  split <;> rfl

theorem execute_answers (ext : External) (args : CommandArgs) (inst : MqttClientInstance)
    {command : Command} (member : command ∈ commands)
    (valid : inst.mode.descriptor ∈ command.validInModes) :
    (execute ext command.name args inst).2.isAnswer = true := by
  obtain ⟨mode⟩ := inst
  simp only [commands, List.mem_cons, List.not_mem_nil, or_false] at member
  cases mode with
  | disconnected =>
    rcases member with rfl | rfl | rfl | rfl | rfl | rfl | rfl | rfl | rfl | rfl
    case inl =>
      show (Disconnected.connect ext args.keyword).2.isAnswer = true
      rcases connect_cases ext args.keyword with ⟨fields, done⟩ | ⟨outcome, erroneous, failed⟩
      · rw [done]
        rfl
      · rw [failed]
        exact RunOutcome.isAnswer_of_isError erroneous
    all_goals exact absurd valid (by decide)
  | connected =>
    rcases member with rfl | rfl | rfl | rfl | rfl | rfl | rfl | rfl | rfl | rfl
    · exact absurd valid (by decide)
    · rfl
    · exact subscribe_answers ext .atMostOnce args
    · exact subscribe_answers ext .atLeastOnce args
    · exact subscribe_answers ext .exactlyOnce args
    · exact publish_answers ext .atMostOnce args
    · exact publish_answers ext .atLeastOnce args
    · exact publish_answers ext .exactlyOnce args
    · exact receivePublish_answers ext args
    · exact receiveDisconnect_answers ext args

end MqttClient

/-! ## Any live instance -/

/-- A command that is not valid in the mode of an instance is refused. -/
theorem LiveActor.execute_refuses (ext : External) (args : CommandArgs) (actor : LiveActor)
    {command : Command} (member : command ∈ actor.actorType.commands)
    (invalid : actor.mode ∉ command.validInModes) :
    Refuses actor (actor.execute ext command.name args) := by
  cases actor with
  | pgClient inst =>
    obtain ⟨same, failed⟩ := PgClient.execute_refuses ext.pgClient args inst member invalid
    exact ⟨congrArg pgClient same, failed⟩
  | mqttClient inst =>
    obtain ⟨same, failed⟩ := MqttClient.execute_refuses ext.mqttClient args inst member invalid
    exact ⟨congrArg mqttClient same, failed⟩
  | exec inst =>
    obtain ⟨same, failed⟩ := Exec.execute_refuses ext.exec args inst member invalid
    exact ⟨congrArg exec same, failed⟩
  | container inst =>
    obtain ⟨same, failed⟩ := Container.execute_refuses ext.container args inst member invalid
    exact ⟨congrArg container same, failed⟩
  | argsActor inst =>
    obtain rfl := List.mem_singleton.mp member
    exact absurd (List.mem_singleton.mpr rfl) invalid

/-- A command that is valid in the mode of an instance is answered. -/
theorem LiveActor.execute_answers (ext : External) (args : CommandArgs) (actor : LiveActor)
    {command : Command} (member : command ∈ actor.actorType.commands)
    (valid : actor.mode ∈ command.validInModes) :
    (actor.execute ext command.name args).2.isAnswer = true := by
  cases actor with
  | pgClient inst => exact PgClient.execute_answers ext.pgClient args inst member valid
  | mqttClient inst => exact MqttClient.execute_answers ext.mqttClient args inst member valid
  | exec inst => exact Exec.execute_answers ext.exec args inst member valid
  | container inst => exact Container.execute_answers ext.container args inst member valid
  | argsActor inst =>
    obtain rfl := List.mem_singleton.mp member
    rfl

/-- A success in any mode moves as the descriptor says. -/
theorem LiveActor.execute_ok_moves (ext : External) (args : CommandArgs) (actor : LiveActor)
    {command : Command} (member : command ∈ actor.actorType.commands)
    (succeeded : (actor.execute ext command.name args).2.isOk) :
    (actor.execute ext command.name args).1.mode = command.modeAfterOk actor.mode := by
  by_cases valid : actor.mode ∈ command.validInModes
  · by_cases ends : endsDespiteError command (actor.execute ext command.name args).2
    · exact execute_ends member valid ends
    · exact (execute_obeys ext args actor member valid ends).1 succeeded
  · rw [(execute_refuses ext args actor member valid).2] at succeeded
    exact absurd succeeded Bool.false_ne_true

/-- Only an error that ends what the command was sent to moves an instance. -/
theorem LiveActor.execute_error_moves (ext : External) (args : CommandArgs) (actor : LiveActor)
    {command : Command} (member : command ∈ actor.actorType.commands)
    (erroneous : (actor.execute ext command.name args).2.isError)
    (moved : (actor.execute ext command.name args).1.mode ≠ actor.mode) :
    actor.mode ∈ command.validInModes ∧
      endsDespiteError command (actor.execute ext command.name args).2 := by
  by_cases valid : actor.mode ∈ command.validInModes
  · refine ⟨valid, ?_⟩
    by_contra survives
    exact moved ((execute_obeys ext args actor member valid survives).2 erroneous)
  · rw [(execute_refuses ext args actor member valid).1] at moved
    exact absurd rfl moved

/-- External systems in which nothing ends in spite of an error: the daemon
removes every container, and no wait for a DISCONNECT finds the connection lost. -/
def mildWorld : External :=
  { refusingWorld with
    mqttClient := { refusingWorld.mqttClient with receiveDisconnect := fun _ => .timedOut }
    container := { refusingWorld.container with rm := fun _ => .removed } }

theorem LiveActor.execute_mild (args : CommandArgs) (actor : LiveActor) {command : Command}
    (member : command ∈ actor.actorType.commands)
    (erroneous : (actor.execute mildWorld command.name args).2.isError) :
    (actor.execute mildWorld command.name args).1.mode = actor.mode := by
  by_contra moved
  obtain ⟨valid, rfl | ⟨rfl, lost⟩⟩ := execute_error_moves mildWorld args actor member erroneous moved
  · cases actor with
    | container inst =>
      obtain ⟨imageName, imageTag, internalPort, mode, members⟩ := inst
      cases mode with
      | stopped => simp [LiveActor.mode, Container.ContainerMode.descriptor, Container.stop] at valid
      | running container => exact absurd erroneous Bool.false_ne_true
    | _ => cases ActorType.eq_container_of_stop member
  · cases actor with
    | mqttClient inst =>
      obtain ⟨mode⟩ := inst
      cases mode with
      | disconnected => exact absurd valid (by decide)
      | connected => simp [execute, MqttClient.execute, MqttClient.receiveDisconnect,
          MqttClient.Connected.receiveDisconnect, mildWorld, MqttClient.timeoutError,
          MqttClient.networkError] at lost
    | _ => cases ActorType.eq_mqttClient_of_receiveDisconnect member

end Actor

end Ill
