import Ill.Actor.MqttClient
import Ill.Actor.PgClient

/-!
# The connect loops of the clients

`pg_client` and `mqtt_client` connect with the same loop: attempts are repeated
after network errors until the deadline. What the environment does in a loop is
given by its rounds; the two loops go through corresponding rounds alike.
-/

namespace Ill.Actor

open Base

/-- An outcome of the `network` variant. -/
def isNetwork : RunOutcome → Bool
  | .error variant _ => variant == "network"
  | _ => false

/-- `error.network` with the reason `:timeout`. -/
def timeoutOutcome : RunOutcome := .error "network" [("reason", .atom "timeout")]

/-- The outcome of a loop. -/
def surface {Accepted : Type} (accept : Accepted → Dict) : Except RunOutcome Accepted → RunOutcome
  | .ok result => .ok (accept result)
  | .error outcome => outcome

/-- A connect loop is connected exactly if its outcome is ok, and it goes through
its rounds as a loop that retries network errors. -/
structure Connects {Accepted Failed : Type} (classify : Failed → RunOutcome)
    (accept : Accepted → Dict) (deadline : Nat) (rounds : List (Round Accepted Failed))
    (connected : Prop) (outcome : RunOutcome) : Prop where
  connected_iff : connected ↔ outcome.isOk = true
  course : ∃ result,
    Course classify isNetwork deadline timeoutOutcome rounds
      (attemptsMade classify isNetwork deadline rounds) result ∧
      outcome = surface accept result

/-- Two outcomes of the same kind: both ok, both a timeout, or those of failures
that are the same. -/
inductive Corresponding (same : PgClient.PgError → MqttClient.ConnectFailure → Prop) :
    RunOutcome → RunOutcome → Prop where
  | ok (fields others : Dict) : Corresponding same (.ok fields) (.ok others)
  | timeout : Corresponding same timeoutOutcome timeoutOutcome
  | failed {error : PgClient.PgError} {failure : MqttClient.ConnectFailure}
    (alike : same error failure) :
    Corresponding same (PgClient.classifyConnectError error)
      (MqttClient.classifyConnectError failure)

/-! ## The loops -/

/-- The mode and the outcome are what the loop returns. -/
theorem PgClient.connect_settles {ext : PgClient.External} {kw : Dict} {cfg : PgClient.Config}
    {timeout deadline : Nat} {rounds : List (Round Unit PgClient.PgError)}
    (configured : PgClient.buildConfig kw = some (cfg, timeout))
    (met : ext.connect cfg timeout = .ofRounds deadline rounds) :
    let result := retry PgClient.classifyConnectError isNetwork timeoutOutcome none
      (.ofRounds deadline rounds)
    ((PgClient.Disconnected.connect ext kw).1 = .connected ↔ ∃ accepted, result = .ok accepted) ∧
      (PgClient.Disconnected.connect ext kw).2 = surface (fun _ => []) result := by
  intro result
  have loop : retry PgClient.classifyConnectError PgClient.isTransientConnectError
      (PgClient.networkError "timeout") none (ext.connect cfg timeout) = result := by
    rw [met]
    rfl
  rw [PgClient.Disconnected.connect, configured]
  dsimp only
  rw [loop]
  cases result with
  | ok accepted => simp [surface]
  | error outcome => simp [surface]

theorem MqttClient.connect_settles {ext : MqttClient.External} {kw : Dict}
    {options : MqttClient.MqttOptions} {timeout deadline : Nat}
    {rounds : List (Round MqttClient.ConnAck MqttClient.ConnectFailure)}
    (configured : MqttClient.buildConnectConfig ext.takesKeepAlive kw = .ok (options, timeout))
    (met : ext.connect options timeout = .ofRounds deadline rounds) :
    let result := retry MqttClient.classifyConnectError isNetwork timeoutOutcome none
      (.ofRounds deadline rounds)
    ((MqttClient.Disconnected.connect ext kw).1 = .connected ↔ ∃ ack, result = .ok ack) ∧
      (MqttClient.Disconnected.connect ext kw).2 = surface MqttClient.connackToOk result := by
  intro result
  have loop : retry MqttClient.classifyConnectError MqttClient.isTransientConnectError
      (MqttClient.networkError "timeout") none (ext.connect options timeout) = result := by
    rw [met]
    rfl
  rw [MqttClient.Disconnected.connect, configured]
  dsimp only
  rw [loop]
  cases result with
  | ok ack => simp [surface]
  | error outcome => simp [surface]

/-- What a loop returns settles whether it is connected. -/
theorem Connects.of_retry {Accepted Failed : Type} {classify : Failed → RunOutcome}
    (errors : ∀ failed, (classify failed).isError = true) (accept : Accepted → Dict) {deadline : Nat}
    {rounds : List (Round Accepted Failed)} {connected : Prop} {outcome : RunOutcome}
    (settled : let result := retry classify isNetwork timeoutOutcome none (.ofRounds deadline rounds)
      (connected ↔ ∃ accepted, result = .ok accepted) ∧ outcome = surface accept result) :
    Connects classify accept deadline rounds connected outcome where
  connected_iff := by
    rw [settled.1, settled.2]
    cases returned : retry classify isNetwork timeoutOutcome none (.ofRounds deadline rounds) with
    | ok accepted => simp [surface, RunOutcome.isOk]
    | error outcome =>
      have erroneous : outcome.isError = true :=
        retry_error (fun outcome => outcome.isError = true) rfl errors (by simp) returned
      simp [surface, RunOutcome.isOk_of_isError erroneous]
  course := ⟨_, retry_course rounds, settled.2⟩

/-- Results of the same kind are shown as outcomes of the same kind. -/
theorem SameResult.corresponding {same : PgClient.PgError → MqttClient.ConnectFailure → Prop}
    {Accepted Accepted' : Type} {result : Except RunOutcome Accepted}
    {other : Except RunOutcome Accepted'}
    (alike : SameResult same PgClient.classifyConnectError MqttClient.classifyConnectError
      timeoutOutcome timeoutOutcome result other) (accept : Accepted → Dict)
    (accept' : Accepted' → Dict) :
    Corresponding same (surface accept result) (surface accept' other) := by
  cases alike with
  | accepted result other => exact .ok _ _
  | outOfTime => exact .timeout
  | failed alike => exact .failed alike

/-- The loops of both clients retry network errors only, until the deadline, and
go through the same rounds with as many attempts and corresponding outcomes. -/
theorem connect_loops
    (pg : PgClient.External) (mqtt : MqttClient.External) (pgKw mqttKw : Dict) (cfg : PgClient.Config)
    (options : MqttClient.MqttOptions) (pgTimeout mqttTimeout pgStart mqttStart : Nat)
    (pgRounds : List (Round Unit PgClient.PgError))
    (mqttRounds : List (Round MqttClient.ConnAck MqttClient.ConnectFailure))
    (pgConfigured : PgClient.buildConfig pgKw = some (cfg, pgTimeout))
    (mqttConfigured : MqttClient.buildConnectConfig mqtt.takesKeepAlive mqttKw =
      .ok (options, mqttTimeout))
    (pgMet : pg.connect cfg pgTimeout = .ofRounds (pgStart + pgTimeout) pgRounds)
    (mqttMet : mqtt.connect options mqttTimeout = .ofRounds (mqttStart + mqttTimeout) mqttRounds) :
    let pgEnd := PgClient.Disconnected.connect pg pgKw
    let mqttEnd := MqttClient.Disconnected.connect mqtt mqttKw
    Connects PgClient.classifyConnectError (fun _ => []) (pgStart + pgTimeout) pgRounds
      (pgEnd.1 = .connected) pgEnd.2 ∧
    Connects MqttClient.classifyConnectError MqttClient.connackToOk (mqttStart + mqttTimeout)
      mqttRounds (mqttEnd.1 = .connected) mqttEnd.2 ∧
    ∀ same : PgClient.PgError → MqttClient.ConnectFailure → Prop,
      (∀ error failure, same error failure → isNetwork (PgClient.classifyConnectError error) =
        isNetwork (MqttClient.classifyConnectError failure)) →
      pgStart + pgTimeout = mqttStart + mqttTimeout →
      List.Forall₂ (Parallel same) pgRounds mqttRounds →
        (attemptsMade PgClient.classifyConnectError isNetwork (pgStart + pgTimeout) pgRounds).length =
          (attemptsMade MqttClient.classifyConnectError isNetwork (mqttStart + mqttTimeout)
            mqttRounds).length ∧
        Corresponding same pgEnd.2 mqttEnd.2 := by
  intro pgEnd mqttEnd
  have pgSettles := PgClient.connect_settles pgConfigured pgMet
  have mqttSettles := MqttClient.connect_settles mqttConfigured mqttMet
  refine ⟨.of_retry PgClient.classifyConnectError_isError _ pgSettles,
    .of_retry MqttClient.classifyConnectError_isError _ mqttSettles, ?_⟩
  intro same alike sameDeadline parallel
  constructor
  · rw [← sameDeadline]
    exact (attemptsMade_parallel alike (pgStart + pgTimeout) parallel).length_eq
  · change Corresponding same (PgClient.Disconnected.connect pg pgKw).2
      (MqttClient.Disconnected.connect mqtt mqttKw).2
    rw [pgSettles.2, mqttSettles.2, ← sameDeadline]
    apply SameResult.corresponding
    apply retry_parallel alike _ parallel
    exact .outOfTime

/-- A server that refuses the first attempt and accepts the second. -/
def startingServer : PgClient.External where
  connect _ timeout := .ofRounds (0 + timeout) [
    ⟨0, some (.error ⟨none, some .connectionRefused, false, "connection refused"⟩)⟩,
    ⟨200, some (.ok ())⟩]
  query _ := .ok []
  timedOut _ _ := false

/-- A broker that does the same. -/
def startingBroker : MqttClient.External where
  takesKeepAlive secs := 5 ≤ secs
  connect _ timeout := .ofRounds (0 + timeout) [
    ⟨0, some (.error (.io .connectionRefused))⟩,
    ⟨200, some (.ok ⟨false, none⟩)⟩]
  subscribe _ _ _ := .connectionLost
  publishQos0 _ _ _ := false
  publishQos1 _ _ _ := .connectionLost
  publishQos2 _ _ _ := .connectionLost
  receivePublish _ := .closed
  receiveDisconnect _ := .closed

/-- Two failures with the same outcome. -/
def SameNetwork (error : PgClient.PgError) (failure : MqttClient.ConnectFailure) : Prop :=
  PgClient.classifyConnectError error = MqttClient.classifyConnectError failure

theorem connect_loops_starting :
    Corresponding SameNetwork
      (PgClient.Disconnected.connect startingServer
        [("user", .string "ill"), ("database", .string "ill")]).2
      (MqttClient.Disconnected.connect startingBroker []).2 := by
  have loops := connect_loops startingServer startingBroker
    [("user", .string "ill"), ("database", .string "ill")] [] _ _ 10000 10000 0 0 _ _ rfl rfl rfl rfl
  refine (loops.2.2 SameNetwork (fun _ _ same => congrArg isNetwork same) rfl ?_).2
  exact .cons (.failed 0 rfl) (.cons (.accepted 200 _ _) .nil)

end Ill.Actor
