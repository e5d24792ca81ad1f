import Ill.Actor.Live

/-!
# Outcomes and their declared shapes

The descriptors declare the fields of a command's success and the variants of
its errors; the validator types `ok` and `error` by them. The runtimes build
their outcomes on their own. Here the two are compared, for every registered
actor type with a runtime.
-/

namespace Ill.Actor

open Base

/-- A dict has exactly the declared fields, each with a value of its type. -/
def fieldsMatch : Dict → List OutcomeField → Bool
  | [], [] => true
  | (name, value) :: fields, field :: declared =>
    name == field.name && value.isOfType field.ty && fieldsMatch fields declared
  | _, _ => false

/-- An outcome has the shape its command declares for it. -/
def Command.declares (command : Command) : RunOutcome → Bool
  | .ok fields => fieldsMatch fields command.okFields
  | .error variant fields =>
    command.errorTypes.any fun error => error.name == variant && fieldsMatch fields error.fields
  | .notImplemented _ _ => true

/-- A field that is present is declared, and inhabits its declared type. -/
theorem find_of_fieldsMatch {fields : Dict} {declared : List OutcomeField} {name : String}
    {value : Value} (matched : fieldsMatch fields declared = true)
    (present : fields.get name = some value) :
    ∃ field, (declared.find? fun field => field.name == name) = some field ∧
      value.isOfType field.ty = true := by
  induction fields generalizing declared with
  | nil => simp [Dict.get] at present
  | cons entry fields ih =>
    obtain ⟨first, held⟩ := entry
    cases declared with
    | nil => simp [fieldsMatch] at matched
    | cons field declared =>
      simp only [fieldsMatch, Bool.and_eq_true, beq_iff_eq] at matched
      obtain ⟨⟨rfl, inhabits⟩, rest⟩ := matched
      rw [Dict.get, List.lookup_cons] at present
      by_cases same : name = field.name
      · rw [same, beq_self_eq_true] at present
        refine ⟨field, by simp [same], ?_⟩
        rwa [← Option.some.inj present]
      · rw [beq_false_of_ne same] at present
        rw [List.find?_cons_of_neg (by simpa using Ne.symm same)]
        exact ih rest present

/-- The variants of a command's errors have names of their own, and none is
called `type`. -/
theorem Command.find_errorType {actorType : ActorType} {command : Command}
    (member : command ∈ actorType.commands) {error : ErrorTypeDef}
    (declared : error ∈ command.errorTypes) :
    error.name ≠ "type" ∧
      (command.errorTypes.find? fun other => other.name == error.name) = some error := by
  have each : ∀ command ∈ actorType.commands, ∀ error ∈ command.errorTypes,
      error.name ≠ "type" ∧
        (command.errorTypes.find? fun other => other.name == error.name) = some error := by
    cases actorType <;> decide
  exact each command member error declared

/-! ## `pg_client` -/

namespace PgClient

theorem declares_classifyConnectError (e : PgError) :
    connect.declares (classifyConnectError e) = true := by
  unfold classifyConnectError
  repeat' split
  all_goals rfl

theorem declares_classifyQueryError (e : PgError) : query.declares (classifyQueryError e) = true := by
  unfold classifyQueryError
  repeat' split
  all_goals rfl

theorem declares_connect (ext : External) (kw : Dict) :
    connect.declares (Disconnected.connect ext kw).2 = true := by
  unfold Disconnected.connect
  split
  · rfl
  split
  · rfl
  · next failed =>
    exact retry_error (fun outcome => connect.declares outcome = true) rfl
      declares_classifyConnectError (by simp) failed

theorem declares_query (ext : External) (sql : String) (timeoutKw : Option Value) :
    query.declares (Connected.query ext sql timeoutKw).2 = true := by
  unfold Connected.query
  split
  · rfl
  split
  · rfl
  · exact declares_classifyQueryError _

theorem declares_execute (ext : External) (args : CommandArgs) (inst : PgClientInstance)
    {command : Command} (member : command ∈ commands) :
    command.declares (execute ext command.name args inst).2 = true := by
  obtain ⟨mode⟩ := inst
  simp only [commands, List.mem_cons, List.not_mem_nil, or_false] at member
  cases mode with
  | disconnected =>
    rcases member with rfl | rfl | rfl
    · exact declares_connect ext args.keyword
    · rfl
    · rfl
  | connected =>
    rcases member with rfl | rfl | rfl
    · rfl
    · simp only [execute, query]
      split
      · exact declares_query ext _ _
      · rfl
    · rfl

end PgClient

/-! ## `exec` and `container` -/

namespace Exec

theorem declares_execute (ext : External) (args : CommandArgs) (inst : ExecInstance)
    {command : Command} (member : command ∈ commands) :
    command.declares (execute ext command.name args inst).2 = true := by
  obtain ⟨target, sourceDir, workingDir, mode⟩ := inst
  obtain rfl := List.mem_singleton.mp member
  cases mode with
  | running child => rfl
  | stopped =>
    simp only [execute, run, Stopped.run]
    repeat' split
    all_goals rfl

end Exec

namespace Container

theorem declares_execute (ext : External) (args : CommandArgs) (inst : ContainerInstance)
    {command : Command} (member : command ∈ commands) :
    command.declares (execute ext command.name args inst).2 = true := by
  obtain ⟨imageName, imageTag, internalPort, mode, members⟩ := inst
  simp only [commands, List.mem_cons, List.not_mem_nil, or_false] at member
  rcases member with rfl | rfl
  · cases mode with
    | running container => rfl
    | stopped =>
      simp only [execute, run, Stopped.run]
      repeat' split
      all_goals rfl
  · cases mode with
    | stopped => rfl
    | running container =>
      simp only [execute, stop, Running.stop]
      split <;> rfl

end Container

/-! ## `mqtt_client` -/

namespace MqttClient

theorem declares_mqttError {command : Command} {declared : List ErrorTypeDef}
    (types : command.errorTypes = declared) (mqtt : ⟨"mqtt", mqttErrorFields⟩ ∈ declared)
    (reason : String) (code : Int) : command.declares (mqttError reason code) = true := by
  subst types
  exact List.any_eq_true.mpr ⟨_, mqtt, rfl⟩

theorem declares_classifyConnectError (failure : ConnectFailure) :
    connect.declares (classifyConnectError failure) = true := by
  cases failure with
  | io kind => cases kind <;> rfl
  | _ => rfl

theorem declares_connect (ext : External) (kw : Dict) :
    connect.declares (Disconnected.connect ext kw).2 = true := by
  unfold Disconnected.connect
  split
  · rfl
  split
  · rfl
  · next failed =>
    exact retry_error (fun outcome => connect.declares outcome = true) rfl
      declares_classifyConnectError (by simp) failed

/-- A waiter surfaces nothing or an `mqtt` error. -/
theorem failureOutcome_error {failure : Option (String × Int)} {outcome : RunOutcome}
    (failed : failureOutcome failure = .error outcome) :
    ∃ reason code, outcome = mqttError reason code := by
  cases failure with
  | none => simp [failureOutcome] at failed
  | some pair => exact ⟨pair.1, pair.2, (Except.error.inj failed).symm⟩

/-- A command that declares both kinds of error declares whatever its waiter
ends in. -/
theorem declares_ackOutcome {command : Command} (okFields : command.okFields = [])
    (types : command.errorTypes = networkAndMqttErrorTypes) {Ack : Type}
    {judge : Ack → Except RunOutcome Unit}
    (judged : ∀ ack outcome, judge ack = .error outcome →
      ∃ reason code, outcome = mqttError reason code) (reply : AckReply Ack) :
    command.declares (ackOutcome judge reply) = true := by
  have succeeds : command.declares (.ok []) = true := by
    simp only [Command.declares, okFields, fieldsMatch]
  have lost : command.declares (networkError "connection_lost") = true := by
    simp only [Command.declares, networkError, types]
    rfl
  cases reply with
  | sendFailed | connectionLost | senderDropped => exact lost
  | acked ack =>
    simp only [ackOutcome]
    split
    · exact succeeds
    · next outcome failed =>
      obtain ⟨reason, code, rfl⟩ := judged ack outcome failed
      exact declares_mqttError types (by decide) reason code

theorem declares_subscribe {command : Command} (okFields : command.okFields = [])
    (types : command.errorTypes = networkAndMqttErrorTypes) (ext : External) (qos : QoS)
    (args : CommandArgs) : command.declares (Connected.subscribe ext qos args) = true := by
  unfold Connected.subscribe
  split
  · split
    · exact declares_mqttError types (by decide) _ _
    · exact declares_ackOutcome okFields types (fun _ _ => failureOutcome_error) _
  · exact declares_mqttError types (by decide) _ _

/-- What a publication asks the driver to send, once its arguments pass the
checks made on the client's side. -/
def publishRequest (args : CommandArgs) : Option (String × List UInt8 × Option UserProperties) :=
  match args.positional.head? with
  | some (.string topic) =>
    if topic = "" then none
    else do
      let payload ← publishPayload args.positional[1]?
      let userProps ← dictToUserProperties (args.kw "user_properties")
      return (topic, payload, userProps)
  | _ => none

/-- What becomes of a request that is sent. -/
def sendPublish (ext : External) (topic : String) (payload : List UInt8)
    (userProps : Option UserProperties) : QoS → RunOutcome
  | .atMostOnce =>
    if ext.publishQos0 topic payload userProps then .ok [] else networkError "connection_lost"
  | .atLeastOnce => ackOutcome pubackOutcome (ext.publishQos1 topic payload userProps)
  | .exactlyOnce => ackOutcome pubcompOutcome (ext.publishQos2 topic payload userProps)

/-- A publication is rejected with an `mqtt` error or sent. -/
theorem publish_cases (ext : External) (qos : QoS) (args : CommandArgs) :
    (publishRequest args = none ∧
      ∃ reason code, Connected.publish ext qos args = mqttError reason code) ∨
    ∃ topic payload userProps, publishRequest args = some (topic, payload, userProps) ∧
      Connected.publish ext qos args = sendPublish ext topic payload userProps qos := by
  unfold Connected.publish publishRequest
  cases args.positional.head? with
  | none => exact .inl ⟨rfl, _, _, rfl⟩
  | some value =>
    cases value with
    | string topic =>
      by_cases empty : topic = ""
      · simp only [empty, if_true]
        exact .inl ⟨trivial, _, _, rfl⟩
      simp only [empty, if_false]
      cases publishPayload args.positional[1]? with
      | none => exact .inl ⟨rfl, _, _, rfl⟩
      | some payload =>
        cases dictToUserProperties (args.kw "user_properties") with
        | none => exact .inl ⟨rfl, _, _, rfl⟩
        | some userProps => exact .inr ⟨topic, payload, userProps, rfl, by cases qos <;> rfl⟩
    | _ => exact .inl ⟨rfl, _, _, rfl⟩

theorem declares_publish_acked {command : Command} (okFields : command.okFields = [])
    (types : command.errorTypes = networkAndMqttErrorTypes) (ext : External) (qos : QoS)
    (acked : qos ≠ .atMostOnce) (args : CommandArgs) :
    command.declares (Connected.publish ext qos args) = true := by
  rcases publish_cases ext qos args with ⟨_, reason, code, rejected⟩ | ⟨_, _, _, _, sent⟩
  · rw [rejected]
    exact declares_mqttError types (by decide) reason code
  · rw [sent]
    cases qos with
    | atMostOnce => exact absurd rfl acked
    | atLeastOnce => exact declares_ackOutcome okFields types (fun _ _ => failureOutcome_error) _
    | exactlyOnce =>
      have judged : ∀ (ack : Unit) (outcome : RunOutcome), pubcompOutcome ack = .error outcome →
          ∃ reason code, outcome = mqttError reason code := by
        intro ack outcome failed
        exact nomatch (show Except.ok () = Except.error outcome from failed)
      exact declares_ackOutcome okFields types judged _

/-- A connected session finds its connection gone in a command that declares
no `network` error: a QoS 0 publication that cannot be sent, or a wait on an
inbox that is closed. -/
def FindsConnectionLost (ext : External) (command : Command) (args : CommandArgs) : MqttMode → Prop
  | .disconnected => False
  | .connected =>
    (command = publish0 ∧ ∃ topic payload userProps,
      publishRequest args = some (topic, payload, userProps) ∧
        ext.publishQos0 topic payload userProps = false) ∨
    (command = receivePublish ∧ ext.receivePublish (receiveTimeout args) = .closed) ∨
    (command = receiveDisconnect ∧ ext.receiveDisconnect (receiveTimeout args) = .closed)

/-- At QoS 0 only a failed send is undeclared. -/
theorem declares_publish0_iff (ext : External) (args : CommandArgs) :
    publish0.declares (Connected.publish ext .atMostOnce args) = true ↔
      ¬ ∃ topic payload userProps, publishRequest args = some (topic, payload, userProps) ∧
        ext.publishQos0 topic payload userProps = false := by
  rcases publish_cases ext .atMostOnce args with
    ⟨unsent, reason, code, rejected⟩ | ⟨topic, payload, userProps, request, sent⟩
  · rw [rejected, unsent]
    have declared : publish0.declares (mqttError reason code) = true :=
      declares_mqttError rfl (by decide) reason code
    simp only [declared, reduceCtorEq,
      false_and, exists_const, not_false_eq_true]
  · rw [sent, sendPublish, request]
    cases accepted : ext.publishQos0 topic payload userProps with
    | true => simp [accepted, Command.declares, publish0, publishCmd, fieldsMatch]
    | false =>
      simp [accepted, Command.declares, networkError, publish0, publishCmd, publishQos0ErrorTypes]

theorem declares_receivePublish_iff (ext : External) (args : CommandArgs) :
    receivePublish.declares (Connected.receivePublish ext args) = true ↔
      ext.receivePublish (receiveTimeout args) ≠ .closed := by
  unfold Connected.receivePublish
  cases ext.receivePublish (receiveTimeout args) with
  | timedOut => simp [Command.declares, timeoutError, receivePublish, receiveErrorTypes, fieldsMatch]
  | closed => simp [Command.declares, networkError, receivePublish, receiveErrorTypes]
  | received packet =>
    simp [Command.declares, receivePublish, receivePublishOk, fieldsMatch, Value.isOfType]

theorem declares_receiveDisconnect_iff (ext : External) (args : CommandArgs) :
    receiveDisconnect.declares (Connected.receiveDisconnect ext args).2 = true ↔
      ext.receiveDisconnect (receiveTimeout args) ≠ .closed := by
  unfold Connected.receiveDisconnect
  cases ext.receiveDisconnect (receiveTimeout args) with
  | timedOut =>
    simp [Command.declares, timeoutError, receiveDisconnect, receiveErrorTypes, fieldsMatch]
  | closed => simp [Command.declares, networkError, receiveDisconnect, receiveErrorTypes]
  | received packet =>
    simp [Command.declares, receiveDisconnect, receiveDisconnectOk, fieldsMatch, Value.isOfType]

theorem declares_unless_lost (ext : External) (args : CommandArgs) (inst : MqttClientInstance)
    {command : Command} (member : command ∈ commands) :
    command.declares (execute ext command.name args inst).2 = true ↔
      ¬ FindsConnectionLost ext command args inst.mode := by
  obtain ⟨mode⟩ := inst
  simp only [commands, List.mem_cons, List.not_mem_nil, or_false] at member
  cases mode with
  | disconnected =>
    refine ⟨fun _ => not_false, fun _ => ?_⟩
    rcases member with rfl | rfl | rfl | rfl | rfl | rfl | rfl | rfl | rfl | rfl
    case inl => exact declares_connect ext args.keyword
    all_goals rfl
  | connected =>
    have elsewhere : command ≠ publish0 → command ≠ receivePublish → command ≠ receiveDisconnect →
        ¬ FindsConnectionLost ext command args .connected := by
      rintro notPublish notReceive notDisconnect (⟨same, _⟩ | ⟨same, _⟩ | ⟨same, _⟩)
      · exact notPublish same
      · exact notReceive same
      · exact notDisconnect same
    rcases member with rfl | rfl | rfl | rfl | rfl | rfl | rfl | rfl | rfl | rfl
    · exact iff_of_true rfl (elsewhere (by decide) (by decide) (by decide))
    · exact iff_of_true rfl (elsewhere (by decide) (by decide) (by decide))
    · exact iff_of_true (declares_subscribe rfl rfl ext _ args)
        (elsewhere (by decide) (by decide) (by decide))
    · exact iff_of_true (declares_subscribe rfl rfl ext _ args)
        (elsewhere (by decide) (by decide) (by decide))
    · exact iff_of_true (declares_subscribe rfl rfl ext _ args)
        (elsewhere (by decide) (by decide) (by decide))
    · refine (declares_publish0_iff ext args).trans (not_congr ?_)
      exact ⟨fun lost => .inl ⟨rfl, lost⟩, fun finds => by
        rcases finds with ⟨_, lost⟩ | ⟨same, _⟩ | ⟨same, _⟩
        · exact lost
        · exact absurd same (by decide)
        · exact absurd same (by decide)⟩
    · exact iff_of_true (declares_publish_acked rfl rfl ext .atLeastOnce (by decide) args)
        (elsewhere (by decide) (by decide) (by decide))
    · exact iff_of_true (declares_publish_acked rfl rfl ext .exactlyOnce (by decide) args)
        (elsewhere (by decide) (by decide) (by decide))
    · refine (declares_receivePublish_iff ext args).trans (not_congr ?_)
      exact ⟨fun closed => .inr (.inl ⟨rfl, closed⟩), fun finds => by
        rcases finds with ⟨same, _⟩ | ⟨_, closed⟩ | ⟨same, _⟩
        · exact absurd same (by decide)
        · exact closed
        · exact absurd same (by decide)⟩
    · refine (declares_receiveDisconnect_iff ext args).trans (not_congr ?_)
      exact ⟨fun closed => .inr (.inr ⟨rfl, closed⟩), fun finds => by
        rcases finds with ⟨same, _⟩ | ⟨same, _⟩ | ⟨_, closed⟩
        · exact absurd same (by decide)
        · exact absurd same (by decide)
        · exact closed⟩

end MqttClient

/-! ## Every registered runtime -/

/-- The one way an outcome is not declared. -/
def LiveActor.FindsConnectionLost (ext : External) (command : Command) (args : CommandArgs) :
    LiveActor → Prop
  | .mqttClient inst => MqttClient.FindsConnectionLost ext.mqttClient command args inst.mode
  | _ => False

/-- A command of an actor comes to an outcome of the shape it declares, exactly
when it does not find a connection lost that it declares no error for. -/
theorem LiveActor.declares_execute_iff (ext : External) (args : CommandArgs) (actor : LiveActor)
    (command : Command) (member : command ∈ actor.actorType.commands) :
    command.declares (actor.execute ext command.name args).2 = true ↔
      ¬ actor.FindsConnectionLost ext command args := by
  cases actor with
  | pgClient inst =>
    exact iff_of_true (PgClient.declares_execute ext.pgClient args inst member) not_false
  | mqttClient inst => exact MqttClient.declares_unless_lost ext.mqttClient args inst member
  | exec inst => exact iff_of_true (Exec.declares_execute ext.exec args inst member) not_false
  | container inst =>
    exact iff_of_true (Container.declares_execute ext.container args inst member) not_false
  | argsActor inst =>
    obtain rfl := List.mem_singleton.mp member
    exact iff_of_true rfl not_false

def connectedClient : LiveActor := .mqttClient ⟨.connected⟩

theorem LiveActor.declares_execute_iff_disconnect :
    MqttClient.disconnect.declares
      (connectedClient.execute refusingWorld "disconnect" ⟨[], []⟩).2 = true ↔
      ¬ connectedClient.FindsConnectionLost refusingWorld MqttClient.disconnect ⟨[], []⟩ :=
  LiveActor.declares_execute_iff refusingWorld ⟨[], []⟩ connectedClient MqttClient.disconnect
    (by decide)

/-- A wait for a publish on a closed inbox reports an error of a kind that
`receive publish` does not declare. -/
theorem LiveActor.receivePublish_undeclared :
    ¬ ∀ (ext : External) (args : CommandArgs) (actor : LiveActor) (command : Command),
      command ∈ actor.actorType.commands →
        command.declares (actor.execute ext command.name args).2 = true := by
  intro declares
  exact absurd (declares refusingWorld ⟨[], []⟩ connectedClient MqttClient.receivePublish (by decide))
    (by decide)

end Ill.Actor
