import Ill.Base.Retry
import Ill.Runtime.Outcome
import Ill.Actor.Descriptor

/-!
# The `mqtt_client` actor

Descriptors of its ten commands and the runtime state machine over
`disconnected` and `connected`, with the broker, the event loop and the clock
as an `External` record of replies. What the event loop does between two
commands is the subject of `Ill.Mqtt`.
-/

namespace Ill.Actor.MqttClient

open Base

/-! ## Descriptors -/

def networkErrorFields : List OutcomeField := [⟨"reason", .atom⟩]

def mqttErrorFields : List OutcomeField := [⟨"reason", .atom⟩, ⟨"reason_code", .number⟩]

def networkAndMqttErrorTypes : List ErrorTypeDef :=
  [⟨"network", networkErrorFields⟩, ⟨"mqtt", mqttErrorFields⟩]

/-- Publishing at QoS 0 declares client-side rejections only. -/
def publishQos0ErrorTypes : List ErrorTypeDef := [⟨"mqtt", mqttErrorFields⟩]

def receiveErrorTypes : List ErrorTypeDef := [⟨"timeout", []⟩, ⟨"mqtt", mqttErrorFields⟩]

def connect : Command where
  name := "connect"
  validInModes := [.mqttDisconnected]
  transitionsTo := some .mqttConnected
  keyword := [
    optionalKeyword "host" .string,
    optionalKeyword "port" .number,
    optionalKeyword "username" .string,
    optionalKeyword "password" .string,
    optionalKeyword "client_id" .string,
    optionalKeyword "clean_start" .bool,
    optionalKeyword "keep_alive" .number,
    optionalKeyword "user_properties" .unknown,
    optionalKeyword "timeout" .number]
  okFields :=
    [⟨"session_present", .bool⟩, ⟨"assigned_client_id", .string⟩, ⟨"user_properties", .dict⟩]
  errorTypes := networkAndMqttErrorTypes

def disconnect : Command where
  name := "disconnect"
  validInModes := [.mqttConnected]
  transitionsTo := some .mqttDisconnected
  keyword := [optionalKeyword "reason_code" .number, optionalKeyword "user_properties" .unknown]

/-- The shape shared by the subscriptions. -/
def subscribeCmd (name : String) : Command where
  name := name
  validInModes := [.mqttConnected]
  positional := [⟨"topic", .string⟩]
  keyword := [optionalKeyword "user_properties" .unknown]
  errorTypes := networkAndMqttErrorTypes

/-- The shape shared by the publications. -/
def publishCmd (name : String) (errors : List ErrorTypeDef) : Command where
  name := name
  validInModes := [.mqttConnected]
  positional := [⟨"topic", .string⟩, ⟨"payload", .unknown⟩]
  keyword := [optionalKeyword "user_properties" .unknown]
  errorTypes := errors

def subscribe0 : Command := subscribeCmd "subscribe_0"

def subscribe1 : Command := subscribeCmd "subscribe_1"

def subscribe2 : Command := subscribeCmd "subscribe_2"

def publish0 : Command := publishCmd "publish_0" publishQos0ErrorTypes

def publish1 : Command := publishCmd "publish_1" networkAndMqttErrorTypes

def publish2 : Command := publishCmd "publish_2" networkAndMqttErrorTypes

def receivePublish : Command where
  name := "receive_publish"
  validInModes := [.mqttConnected]
  keyword := [optionalKeyword "timeout" .number]
  okFields :=
    [⟨"topic", .string⟩, ⟨"payload", .bytes⟩, ⟨"qos", .number⟩, ⟨"user_properties", .dict⟩]
  errorTypes := receiveErrorTypes

def receiveDisconnect : Command where
  name := "receive_disconnect"
  validInModes := [.mqttConnected]
  transitionsTo := some .mqttDisconnected
  keyword := [optionalKeyword "timeout" .number]
  okFields := [⟨"reason_code", .number⟩, ⟨"user_properties", .dict⟩]
  errorTypes := receiveErrorTypes

def modes : List Mode := [.mqttDisconnected, .mqttConnected]

def commands : List Command :=
  [connect, disconnect, subscribe0, subscribe1, subscribe2, publish0, publish1, publish2,
    receivePublish, receiveDisconnect]

/-! ## Packets and replies -/

inductive QoS where
  | atMostOnce | atLeastOnce | exactlyOnce
deriving DecidableEq, Repr

inductive ConnectReturnCode where
  | success | unspecifiedError | malformedPacket | protocolError | implementationSpecificError
  | unsupportedProtocolVersion | refusedProtocolVersion | clientIdentifierNotValid | badClientId
  | badUserNamePassword | notAuthorized | serverUnavailable | serviceUnavailable | serverBusy
  | banned | badAuthenticationMethod | topicNameInvalid | packetTooLarge | quotaExceeded
  | payloadFormatInvalid | retainNotSupported | qosNotSupported | useAnotherServer | serverMoved
  | connectionRateExceeded
deriving DecidableEq, Repr

inductive SubscribeReasonCode where
  | success (qos : QoS)
  | failure | unspecified | implementationSpecific | notAuthorized | topicFilterInvalid | pkidInUse
  | quotaExceeded | sharedSubscriptionsNotSupported | subscriptionIdNotSupported
  | wildcardSubscriptionsNotSupported
deriving DecidableEq, Repr

inductive PubAckReason where
  | success | noMatchingSubscribers | unspecifiedError | implementationSpecificError
  | notAuthorized | topicNameInvalid | packetIdentifierInUse | quotaExceeded | payloadFormatInvalid
deriving DecidableEq, Repr

abbrev UserProperties := List (String × String)

/-- The properties of a CONNACK that the client reads. -/
structure ConnAckProperties where
  assignedClientIdentifier : Option String
  userProperties : UserProperties
deriving DecidableEq, Repr

structure ConnAck where
  sessionPresent : Bool
  properties : Option ConnAckProperties
deriving DecidableEq, Repr

inductive IoErrorKind where
  | connectionRefused | timedOut | connectionReset | connectionAborted | brokenPipe | other
deriving DecidableEq, Repr

/-- The ways one attempt at the handshake fails: a CONNACK with a failure
code, or an error of the event loop. -/
inductive ConnectFailure where
  | rejected (code : ConnectReturnCode)
  | connectionRefused (code : ConnectReturnCode)
  | io (kind : IoErrorKind)
  | timeout
  | notConnAck
  | other
deriving DecidableEq, Repr

/-- An incoming PUBLISH; `topic` is its decoded topic text. -/
structure Publish where
  topic : String
  payload : List UInt8
  qos : QoS
  properties : Option UserProperties
deriving DecidableEq, Repr

/-- An incoming DISCONNECT. -/
structure DisconnectPacket where
  reasonCode : Int
  properties : Option UserProperties
deriving DecidableEq, Repr

/-- How a request that waits for an acknowledgement ends: the client refuses to send
it, the waiter is resolved by an ack or by the end of the connection, or the
waiter's sender is dropped unresolved. -/
inductive AckReply (Ack : Type) where
  | sendFailed
  | acked (ack : Ack)
  | connectionLost
  | senderDropped
deriving DecidableEq, Repr

/-- How a bounded wait on an inbox ends. -/
inductive RecvReply (Packet : Type) where
  | timedOut
  | closed
  | received (packet : Packet)
deriving DecidableEq, Repr

/-- The options handed to the driver. -/
structure MqttOptions where
  clientId : String
  host : String
  port : Nat
  cleanStart : Option Bool
  keepAliveSecs : Option Nat
  credentials : Option (String × String)
  userProperties : Option UserProperties
deriving DecidableEq, Repr

/-- The replies of one call; the numbers are timeouts in milliseconds. The driver
panics over a keep-alive, in seconds, that it does not take. -/
structure External where
  takesKeepAlive : Nat → Bool
  connect : MqttOptions → Nat → Attempts ConnAck ConnectFailure
  subscribe : QoS → String → Option UserProperties → AckReply (List SubscribeReasonCode)
  publishQos0 : String → List UInt8 → Option UserProperties → Bool
  publishQos1 : String → List UInt8 → Option UserProperties → AckReply PubAckReason
  publishQos2 : String → List UInt8 → Option UserProperties → AckReply Unit
  receivePublish : Nat → RecvReply Publish
  receiveDisconnect : Nat → RecvReply DisconnectPacket

/-! ## Outcomes -/

def networkError (reason : String) : RunOutcome :=
  .error "network" [("reason", .atom reason)]

def mqttError (reason : String) (reasonCode : Int) : RunOutcome :=
  .error "mqtt" [("reason", .atom reason), ("reason_code", .number reasonCode)]

def timeoutError : RunOutcome := .error "timeout" []

/-- The reason code of errors that did not come from the broker. -/
def clientSideReasonCode : Int := -1

def connackFailureAtom : ConnectReturnCode → String × Int
  | .success => ("other", 0)
  | .unspecifiedError => ("unspecified_error", 0x80)
  | .malformedPacket => ("malformed_packet", 0x81)
  | .protocolError => ("protocol_error", 0x82)
  | .implementationSpecificError => ("implementation_specific_error", 0x83)
  | .unsupportedProtocolVersion | .refusedProtocolVersion => ("unsupported_protocol_version", 0x84)
  | .clientIdentifierNotValid | .badClientId => ("client_identifier_not_valid", 0x85)
  | .badUserNamePassword => ("bad_user_name_or_password", 0x86)
  | .notAuthorized => ("not_authorized", 0x87)
  | .serverUnavailable | .serviceUnavailable => ("server_unavailable", 0x88)
  | .serverBusy => ("server_busy", 0x89)
  | .banned => ("banned", 0x8A)
  | .badAuthenticationMethod => ("bad_authentication_method", 0x8C)
  | .topicNameInvalid => ("topic_name_invalid", 0x90)
  | .packetTooLarge => ("packet_too_large", 0x95)
  | .quotaExceeded => ("quota_exceeded", 0x97)
  | .payloadFormatInvalid => ("payload_format_invalid", 0x99)
  | .retainNotSupported => ("retain_not_supported", 0x9A)
  | .qosNotSupported => ("qos_not_supported", 0x9B)
  | .useAnotherServer => ("use_another_server", 0x9C)
  | .serverMoved => ("server_moved", 0x9D)
  | .connectionRateExceeded => ("connection_rate_exceeded", 0x9F)

def subackFailureAtom : SubscribeReasonCode → Option (String × Int)
  | .success _ => none
  | .failure | .unspecified => some ("unspecified_error", 0x80)
  | .implementationSpecific => some ("implementation_specific_error", 0x83)
  | .notAuthorized => some ("not_authorized", 0x87)
  | .topicFilterInvalid => some ("topic_filter_invalid", 0x8F)
  | .pkidInUse => some ("packet_identifier_in_use", 0x91)
  | .quotaExceeded => some ("quota_exceeded", 0x97)
  | .sharedSubscriptionsNotSupported => some ("shared_subscriptions_not_supported", 0x9E)
  | .subscriptionIdNotSupported => some ("subscription_identifiers_not_supported", 0xA1)
  | .wildcardSubscriptionsNotSupported => some ("wildcard_subscriptions_not_supported", 0xA2)

def pubackFailureAtom : PubAckReason → Option (String × Int)
  | .success | .noMatchingSubscribers => none
  | .unspecifiedError => some ("unspecified_error", 0x80)
  | .implementationSpecificError => some ("implementation_specific_error", 0x83)
  | .notAuthorized => some ("not_authorized", 0x87)
  | .topicNameInvalid => some ("topic_name_invalid", 0x90)
  | .packetIdentifierInUse => some ("packet_identifier_in_use", 0x91)
  | .quotaExceeded => some ("quota_exceeded", 0x97)
  | .payloadFormatInvalid => some ("payload_format_invalid", 0x99)

/-- What a waiter receives: nothing, or the outcome to surface. -/
def failureOutcome : Option (String × Int) → Except RunOutcome Unit
  | some (atom, code) => .error (mqttError atom code)
  | none => .ok ()

/-- The first failing return code decides. -/
def subackOutcome (codes : List SubscribeReasonCode) : Except RunOutcome Unit :=
  failureOutcome (codes.findSome? subackFailureAtom)

def pubackOutcome (reason : PubAckReason) : Except RunOutcome Unit :=
  failureOutcome (pubackFailureAtom reason)

def pubcompOutcome (_ack : Unit) : Except RunOutcome Unit := .ok ()

def classifyConnectError : ConnectFailure → RunOutcome
  | .rejected code => mqttError (connackFailureAtom code).1 (connackFailureAtom code).2
  | .connectionRefused code => mqttError (connackFailureAtom code).1 (connackFailureAtom code).2
  | .io .connectionRefused => networkError "connection_refused"
  | .io .timedOut => networkError "timeout"
  | .io .connectionReset | .io .connectionAborted | .io .brokenPipe =>
    networkError "connection_lost"
  | .io .other => networkError "host_unreachable"
  | .timeout => networkError "timeout"
  | .notConnAck => mqttError "protocol_error" clientSideReasonCode
  | .other => networkError "other"

def userPropertiesToDict (props : UserProperties) : Dict :=
  props.foldl (fun fields pair => Dict.insert fields pair.1 (.string pair.2)) []

/-- Nothing when the keyword is absent; a failure when it is not a dict of strings. -/
def dictToUserProperties : Option Value → Option (Option UserProperties)
  | none => some none
  | some (.dict fields) =>
    (fields.mapM fun (field : String × Value) =>
      match field.2 with
      | .string text => some (field.1, text)
      | _ => none).map some
  | some _ => none

def connackToOk (ack : ConnAck) : Dict :=
  let assigned := (ack.properties.bind ConnAckProperties.assignedClientIdentifier).getD ""
  let properties := (ack.properties.map ConnAckProperties.userProperties).getD []
  [("session_present", .bool ack.sessionPresent), ("assigned_client_id", .string assigned),
    ("user_properties", .dict (userPropertiesToDict properties))]

def qosToByte : QoS → Int
  | .atMostOnce => 0
  | .atLeastOnce => 1
  | .exactlyOnce => 2

def receivePublishOk (p : Publish) : Dict :=
  [("topic", .string p.topic), ("payload", .bytes p.payload), ("qos", .number (qosToByte p.qos)),
    ("user_properties", .dict (userPropertiesToDict (p.properties.getD [])))]

def receiveDisconnectOk (d : DisconnectPacket) : Dict :=
  [("reason_code", .number d.reasonCode),
    ("user_properties", .dict (userPropertiesToDict (d.properties.getD [])))]

/-! ## State machine -/

def defaultHost : String := "127.0.0.1"

def defaultPort : Nat := 1883

def defaultConnectTimeout : Nat := 10000

def defaultReceiveTimeout : Nat := 5000

def defaultKeepAliveSecs : Nat := 60

/-- A user name needs a string password or none; a password alone is ignored. -/
def buildCredentials (username password : Option Value) : Option (Option (String × String)) :=
  match username, password with
  | some (.string user), some (.string secret) => some (some (user, secret))
  | some (.string user), none => some (some (user, ""))
  | none, _ => some none
  | _, _ => none

/-- How building the options goes wrong: a keyword has the wrong type, or the driver
panics. -/
inductive ConfigFailure where
  | rejected
  | panicked
deriving DecidableEq, Repr

def orRejected {α : Type} : Option α → Except ConfigFailure α
  | some value => .ok value
  | none => .error .rejected

/-- The keep-alive of the options, after it was set. -/
def setKeepAlive (takesKeepAlive : Nat → Bool) (secs : Nat) : Except ConfigFailure (Option Nat) :=
  if takesKeepAlive secs then .ok (some secs) else .error .panicked

/-- The driver options and the timeout. -/
def buildConnectConfig (takesKeepAlive : Nat → Bool) (kw : Dict) :
    Except ConfigFailure (MqttOptions × Nat) := do
  let host ← match kw.get "host" with
    | some (.string s) => .ok s
    | none => .ok defaultHost
    | some _ => .error .rejected
  let port ← match kw.get "port" with
    | some (.number n) => if 0 < n ∧ n ≤ 65535 then .ok n.toNat else .error .rejected
    | none => .ok defaultPort
    | some _ => .error .rejected
  let clientId ← match kw.get "client_id" with
    | some (.string s) => .ok s
    | none => .ok ""
    | some _ => .error .rejected
  let cleanStart := match kw.get "clean_start" with
    | some (.bool clean) => some clean
    | _ => none
  -- A number that is not positive leaves the driver's own keep-alive in place.
  let keepAliveSecs ← match kw.get "keep_alive" with
    | some (.number secs) => if 0 < secs then setKeepAlive takesKeepAlive secs.toNat else .ok none
    | _ => setKeepAlive takesKeepAlive defaultKeepAliveSecs
  let credentials ← orRejected (buildCredentials (kw.get "username") (kw.get "password"))
  let userProperties ← orRejected (dictToUserProperties (kw.get "user_properties"))
  let timeout := match kw.get "timeout" with
    | some (.number n) => if 0 < n then n.toNat else defaultConnectTimeout
    | _ => defaultConnectTimeout
  return ({ clientId, host, port, cleanStart, keepAliveSecs, credentials, userProperties }, timeout)

inductive MqttMode where
  | disconnected
  | connected
deriving DecidableEq, Repr

structure MqttClientInstance where
  mode : MqttMode
deriving DecidableEq, Repr

def MqttMode.descriptor : MqttMode → Mode
  | .disconnected => .mqttDisconnected
  | .connected => .mqttConnected

def construct (_args : ConstructArgs) : Except RuntimeError MqttClientInstance :=
  .ok ⟨.disconnected⟩

/-- Every `network` failure of a handshake is worth another attempt. -/
def isTransientConnectError : RunOutcome → Bool
  | .error variant _ => variant == "network"
  | _ => false

def Disconnected.connect (ext : External) (kw : Dict) : MqttMode × RunOutcome :=
  match buildConnectConfig ext.takesKeepAlive kw with
  -- A panic returns nothing; `panics` tells the two failures apart.
  | .error _ => (.disconnected, mqttError "other" clientSideReasonCode)
  | .ok (options, timeout) =>
    match retry classifyConnectError isTransientConnectError (networkError "timeout") none
      (ext.connect options timeout) with
    | .ok ack => (.connected, .ok (connackToOk ack))
    | .error outcome => (.disconnected, outcome)

def Connected.disconnect : MqttMode × RunOutcome :=
  (.disconnected, .ok [])

/-- The outcome of awaiting a waiter. -/
def ackOutcome {Ack : Type} (judge : Ack → Except RunOutcome Unit) : AckReply Ack → RunOutcome
  | .sendFailed => networkError "connection_lost"
  | .acked ack =>
    match judge ack with
    | .ok _ => .ok []
    | .error outcome => outcome
  | .connectionLost => networkError "connection_lost"
  | .senderDropped => networkError "connection_lost"

def Connected.subscribe (ext : External) (qos : QoS) (args : CommandArgs) : RunOutcome :=
  match args.positional.head? with
  | some (.string topic) =>
    match dictToUserProperties (args.kw "user_properties") with
    | none => mqttError "other" clientSideReasonCode
    | some userProps => ackOutcome subackOutcome (ext.subscribe qos topic userProps)
  | _ => mqttError "topic_filter_invalid" clientSideReasonCode

def publishPayload : Option Value → Option (List UInt8)
  | some (.bytes bytes) => some bytes
  | some (.string text) => some text.toUTF8.data.toList
  | _ => none

def Connected.publish (ext : External) (qos : QoS) (args : CommandArgs) : RunOutcome :=
  match args.positional.head? with
  | some (.string topic) =>
    if topic = "" then mqttError "invalid_topic" clientSideReasonCode
    else
      match publishPayload args.positional[1]? with
      | none => mqttError "payload_format_invalid" clientSideReasonCode
      | some payload =>
        match dictToUserProperties (args.kw "user_properties") with
        | none => mqttError "other" clientSideReasonCode
        | some userProps =>
          match qos with
          | .atMostOnce =>
            if ext.publishQos0 topic payload userProps then .ok []
            else networkError "connection_lost"
          | .atLeastOnce => ackOutcome pubackOutcome (ext.publishQos1 topic payload userProps)
          | .exactlyOnce => ackOutcome pubcompOutcome (ext.publishQos2 topic payload userProps)
  | _ => mqttError "topic_name_invalid" clientSideReasonCode

/-- The keyword is in seconds. -/
def receiveTimeout (args : CommandArgs) : Nat :=
  match args.kw "timeout" with
  | some (.number n) => if 0 < n then n.toNat * 1000 else defaultReceiveTimeout
  | _ => defaultReceiveTimeout

def Connected.receivePublish (ext : External) (args : CommandArgs) : RunOutcome :=
  match ext.receivePublish (receiveTimeout args) with
  | .timedOut => timeoutError
  | .closed => networkError "connection_lost"
  | .received p => .ok (receivePublishOk p)

/-- Only a timeout keeps the session; a closed inbox ends it like a packet does. -/
def Connected.receiveDisconnect (ext : External) (args : CommandArgs) : MqttMode × RunOutcome :=
  match ext.receiveDisconnect (receiveTimeout args) with
  | .timedOut => (.connected, timeoutError)
  | .closed => (.disconnected, networkError "connection_lost")
  | .received d => (.disconnected, .ok (receiveDisconnectOk d))

def notImplemented (cmd : String) : RunOutcome := .notImplemented "mqtt_client" cmd

def execute (ext : External) (cmd : String) (args : CommandArgs) (inst : MqttClientInstance) :
    MqttClientInstance × RunOutcome :=
  let (next, outcome) := match inst.mode with
    | .disconnected =>
      match cmd with
      | "connect" => Disconnected.connect ext args.keyword
      | other => (.disconnected, notImplemented other)
    | .connected =>
      match cmd with
      | "disconnect" => Connected.disconnect
      | "subscribe_0" => (.connected, Connected.subscribe ext .atMostOnce args)
      | "subscribe_1" => (.connected, Connected.subscribe ext .atLeastOnce args)
      | "subscribe_2" => (.connected, Connected.subscribe ext .exactlyOnce args)
      | "publish_0" => (.connected, Connected.publish ext .atMostOnce args)
      | "publish_1" => (.connected, Connected.publish ext .atLeastOnce args)
      | "publish_2" => (.connected, Connected.publish ext .exactlyOnce args)
      | "receive_publish" => (.connected, Connected.receivePublish ext args)
      | "receive_disconnect" => Connected.receiveDisconnect ext args
      | other => (.connected, notImplemented other)
  (⟨next⟩, outcome)

/-- Whether a command panics instead of returning. -/
def panics (ext : External) (cmd : String) (args : CommandArgs) (inst : MqttClientInstance) : Bool :=
  match inst.mode, cmd with
  | .disconnected, "connect" =>
    match buildConnectConfig ext.takesKeepAlive args.keyword with
    | .error .panicked => true
    | _ => false
  | _, _ => false

def teardown (_inst : MqttClientInstance) : MqttClientInstance × TeardownOutcome :=
  (⟨.disconnected⟩, .success)

/-! ## What a command does to the mode -/

theorem classifyConnectError_isError (failure : ConnectFailure) :
    (classifyConnectError failure).isError := by
  cases failure with
  | io kind => cases kind <;> rfl
  | _ => rfl

/-- A handshake either connects with a result or stays disconnected with an error. -/
theorem connect_cases (ext : External) (kw : Dict) :
    (∃ fields, Disconnected.connect ext kw = (.connected, .ok fields)) ∨
      ∃ outcome, outcome.isError ∧ Disconnected.connect ext kw = (.disconnected, outcome) := by
  unfold Disconnected.connect
  split
  · exact Or.inr ⟨_, rfl, rfl⟩
  · split
    · exact Or.inl ⟨_, rfl⟩
    · next failed =>
      refine Or.inr ⟨_, ?_, rfl⟩
      exact retry_error (fun outcome => outcome.isError) rfl
        classifyConnectError_isError (by simp) failed

/-- The session survives a wait for a DISCONNECT only when the wait times out. -/
theorem receiveDisconnect_cases (ext : External) (args : CommandArgs) :
    Connected.receiveDisconnect ext args = (.connected, timeoutError) ∨
      Connected.receiveDisconnect ext args = (.disconnected, networkError "connection_lost") ∨
        ∃ fields, Connected.receiveDisconnect ext args = (.disconnected, .ok fields) := by
  unfold Connected.receiveDisconnect
  split
  · exact Or.inl rfl
  · exact Or.inr (Or.inl rfl)
  · exact Or.inr (Or.inr ⟨_, rfl⟩)

/-- A wait for a DISCONNECT that reports the connection lost has left the session. -/
theorem execute_receiveDisconnect_lost {ext : External} {args : CommandArgs}
    {inst : MqttClientInstance} (valid : inst.mode.descriptor ∈ receiveDisconnect.validInModes)
    (lost : (execute ext receiveDisconnect.name args inst).2 = networkError "connection_lost") :
    (execute ext receiveDisconnect.name args inst).1.mode.descriptor = .mqttDisconnected := by
  obtain ⟨mode⟩ := inst
  cases mode with
  | disconnected => exact absurd valid (by decide)
  | connected =>
    simp only [execute, receiveDisconnect] at lost ⊢
    rcases receiveDisconnect_cases ext args with expired | ended | ⟨fields, received⟩
    · rw [expired] at lost
      simp [timeoutError, networkError] at lost
    · rw [ended]
      rfl
    · rw [received]
      rfl

/-- Every command valid in the mode obeys its descriptor, but for a wait for a
DISCONNECT that finds the connection lost. -/
theorem execute_obeys (ext : External) (args : CommandArgs) (inst : MqttClientInstance)
    {command : Command} (member : command ∈ commands)
    (valid : inst.mode.descriptor ∈ command.validInModes)
    (survives : ¬ (command = receiveDisconnect ∧
      (execute ext command.name args inst).2 = networkError "connection_lost")) :
    command.Obeys inst.mode.descriptor (execute ext command.name args inst).2
      (execute ext command.name args inst).1.mode.descriptor := by
  obtain ⟨mode⟩ := inst
  simp only [commands, List.mem_cons, List.not_mem_nil, or_false] at member
  cases mode with
  | disconnected =>
    rcases member with rfl | rfl | rfl | rfl | rfl | rfl | rfl | rfl | rfl | rfl
    case inl =>
      show connect.Obeys _ (Disconnected.connect ext args.keyword).2
        (Disconnected.connect ext args.keyword).1.descriptor
      rcases connect_cases ext args.keyword with ⟨fields, done⟩ | ⟨outcome, erroneous, failed⟩
      · rw [done]
        exact .of_ok fields rfl
      · rw [failed]
        exact .of_error erroneous
    all_goals exact absurd valid (by decide)
  | connected =>
    rcases member with rfl | rfl | rfl | rfl | rfl | rfl | rfl | rfl | rfl | rfl
    · exact absurd valid (by decide)
    · exact .of_ok [] rfl
    -- The subscriptions, the publications and `receive_publish` stay connected.
    iterate 7 exact .of_stays rfl
    · simp only [execute, receiveDisconnect] at survives ⊢
      rcases receiveDisconnect_cases ext args with expired | lost | ⟨fields, received⟩
      · rw [expired]
        exact .of_error rfl
      · rw [lost] at survives
        exact absurd ⟨trivial, rfl⟩ survives
      · rw [received]
        exact .of_ok fields rfl

end Ill.Actor.MqttClient
