import Ill.Mqtt.Replies

/-!
# A connection as a sequential client

To the harness a connection is a client that answers one command after another
from a record of replies. Here every interleaving of a connection is such a
record: what its commands return is what the client answers for some replies,
and every packet in a reply is one that the broker sent.
-/

namespace Ill.Mqtt

open Base Actor.MqttClient

/-! ## The client, one command after another -/

/-- The call of a subscription whose arguments are accepted. -/
def subscribeCall (qos : QoS) (args : CommandArgs) : Option Call :=
  match args.positional.head? with
  | some (.string topic) =>
    (dictToUserProperties (args.kw "user_properties")).map fun _ => .subscribe qos topic
  | _ => none

/-- The call of a publication whose arguments are accepted. -/
def publishCall (qos : QoS) (args : CommandArgs) : Option Call :=
  match args.positional.head? with
  | some (.string topic) =>
    if topic = "" then none
    else
      match publishPayload args.positional[1]? with
      | none => none
      | some payload =>
        (dictToUserProperties (args.kw "user_properties")).map fun _ => .publish qos topic payload
  | _ => none

/-- The call that a command of a connected client makes, if its arguments are accepted. -/
def callOf (cmd : String) (args : CommandArgs) : Option Call :=
  match cmd with
  | "disconnect" => some .disconnect
  | "subscribe_0" => subscribeCall .atMostOnce args
  | "subscribe_1" => subscribeCall .atLeastOnce args
  | "subscribe_2" => subscribeCall .exactlyOnce args
  | "publish_0" => publishCall .atMostOnce args
  | "publish_1" => publishCall .atLeastOnce args
  | "publish_2" => publishCall .exactlyOnce args
  | "receive_publish" => some .receivePublish
  | "receive_disconnect" => some .receiveDisconnect
  | _ => none

/-- What a connected client makes of the replies to a call. -/
def answer (ext : External) (props : Option UserProperties) (timeout : Nat) :
    Call → MqttMode × RunOutcome
  | .subscribe qos topic => (.connected, ackOutcome subackOutcome (ext.subscribe qos topic props))
  | .publish .atMostOnce topic payload =>
    (.connected, if ext.publishQos0 topic payload props then .ok [] else networkError "connection_lost")
  | .publish .atLeastOnce topic payload =>
    (.connected, ackOutcome pubackOutcome (ext.publishQos1 topic payload props))
  | .publish .exactlyOnce topic payload =>
    (.connected, ackOutcome pubcompOutcome (ext.publishQos2 topic payload props))
  | .receivePublish =>
    match ext.receivePublish timeout with
    | .timedOut => (.connected, timeoutError)
    | .closed => (.connected, networkError "connection_lost")
    | .received p => (.connected, .ok (receivePublishOk p))
  | .receiveDisconnect =>
    match ext.receiveDisconnect timeout with
    | .timedOut => (.connected, timeoutError)
    | .closed => (.disconnected, networkError "connection_lost")
    | .received d => (.disconnected, .ok (receiveDisconnectOk d))
  | .disconnect | .teardown => (.disconnected, .ok [])

theorem subscribe_of_call {qos : QoS} {args : CommandArgs} {call : Call}
    (made : subscribeCall qos args = some call) :
    ∃ props, ∀ ext timeout,
      (MqttMode.connected, Connected.subscribe ext qos args) = answer ext props timeout call := by
  unfold subscribeCall at made
  split at made
  · next topic positional =>
    obtain ⟨props, accepted, rfl⟩ := Option.map_eq_some_iff.mp made
    refine ⟨props, fun ext timeout => ?_⟩
    simp only [Connected.subscribe, positional, accepted, answer]
  · exact nomatch made

theorem publish_of_call {qos : QoS} {args : CommandArgs} {call : Call}
    (made : publishCall qos args = some call) :
    ∃ props, ∀ ext timeout,
      (MqttMode.connected, Connected.publish ext qos args) = answer ext props timeout call := by
  unfold publishCall at made
  split at made
  · next topic positional =>
    split at made
    · exact nomatch made
    · next named =>
      split at made
      · exact nomatch made
      · next payload sent =>
        obtain ⟨props, accepted, rfl⟩ := Option.map_eq_some_iff.mp made
        refine ⟨props, fun ext timeout => ?_⟩
        cases qos <;> simp only [Connected.publish, positional, named, sent, accepted, answer, if_false]
  · exact nomatch made

/-- A command whose arguments are accepted does what its call comes to. -/
theorem execute_of_call {cmd : String} {args : CommandArgs} {call : Call}
    (made : callOf cmd args = some call) :
    ∃ props timeout, ∀ ext, execute ext cmd args ⟨.connected⟩ =
      (⟨(answer ext props timeout call).1⟩, (answer ext props timeout call).2) := by
  unfold callOf at made
  split at made
  · obtain rfl := Option.some.inj made
    exact ⟨none, 0, fun ext => rfl⟩
  iterate 3
    · obtain ⟨props, does⟩ := subscribe_of_call made
      exact ⟨props, 0, fun ext => by rw [← does ext 0]; rfl⟩
  iterate 3
    · obtain ⟨props, does⟩ := publish_of_call made
      exact ⟨props, 0, fun ext => by rw [← does ext 0]; rfl⟩
  · obtain rfl := Option.some.inj made
    refine ⟨none, receiveTimeout args, fun ext => ?_⟩
    simp only [execute, Connected.receivePublish, answer]
    cases ext.receivePublish (receiveTimeout args) <;> rfl
  · obtain rfl := Option.some.inj made
    exact ⟨none, receiveTimeout args, fun ext => rfl⟩
  · simp at made

/-! ## Refinement -/

/-- No acknowledgement and no packet ever comes. -/
def silent : External where
  takesKeepAlive secs := 5 ≤ secs
  connect _ _ := .timedOut
  subscribe _ _ _ := .connectionLost
  publishQos0 _ _ _ := false
  publishQos1 _ _ _ := .connectionLost
  publishQos2 _ _ _ := .connectionLost
  receivePublish _ := .timedOut
  receiveDisconnect _ := .timedOut

/-- Replies whose every packet is one that may come. -/
structure RepliesAmong (mayCome : Incoming → Prop) (ext : External) : Prop where
  subscribe : ∀ qos topic props codes, ext.subscribe qos topic props = .acked codes →
    mayCome (.subAck codes)
  publishQos1 : ∀ topic payload props reason, ext.publishQos1 topic payload props = .acked reason →
    mayCome (.pubAck reason)
  publishQos2 : ∀ topic payload props, ext.publishQos2 topic payload props = .acked () →
    mayCome .pubComp
  receivePublish : ∀ timeout p, ext.receivePublish timeout = .received p → mayCome (.publish p)
  receiveDisconnect : ∀ timeout d, ext.receiveDisconnect timeout = .received d →
    mayCome (.disconnect d)

theorem RepliesAmong.mono {mayCome more : Incoming → Prop} {ext : External}
    (here : RepliesAmong mayCome ext) (within : ∀ packet, mayCome packet → more packet) :
    RepliesAmong more ext where
  subscribe qos topic props codes same := within _ (here.subscribe qos topic props codes same)
  publishQos1 topic payload props reason same :=
    within _ (here.publishQos1 topic payload props reason same)
  publishQos2 topic payload props same := within _ (here.publishQos2 topic payload props same)
  receivePublish timeout p same := within _ (here.receivePublish timeout p same)
  receiveDisconnect timeout d same := within _ (here.receiveDisconnect timeout d same)

/-- Replies whose every packet is one of some packets. -/
abbrev Grounded (packets : List Incoming) (ext : External) : Prop :=
  RepliesAmong (· ∈ packets) ext

theorem silent_grounded (packets : List Incoming) : Grounded packets silent := by
  constructor <;> simp [silent]

theorem Reply.shown_acked {Ack : Type} (judge : Ack → Except RunOutcome Unit) (ack : Ack)
    (kind : AckKind) (waiter : WaiterTx) :
    (Reply.answered kind waiter (judge ack)).shown = (.connected, ackOutcome judge (.acked ack)) := by
  simp only [ackOutcome]
  cases judge ack <;> rfl

/-- An acknowledgement that the broker sent can be the reply to the call it is for. -/
theorem answer_acked {packets : List Incoming} {call : Call} {kind : AckKind} {packet : Incoming}
    (waits : call.ackKind? = some kind) (sent : packet ∈ packets)
    (kindOf : packet.ackKind? = some kind) :
    ∃ ext, Grounded packets ext ∧ ∀ props timeout waiter,
      answer ext props timeout call = (Reply.answered kind waiter packet.ackOutcome).shown := by
  have quiet := silent_grounded packets
  cases packet with
  | subAck codes =>
    obtain rfl := Option.some.inj kindOf
    refine ⟨{ silent with subscribe := fun _ _ _ => .acked codes },
      { quiet with subscribe := ?_ }, fun props timeout waiter => ?_⟩
    · intro _ _ _ codes same
      exact AckReply.acked.inj same ▸ sent
    · cases call with
      | subscribe qos topic => exact (Reply.shown_acked subackOutcome codes .sub waiter).symm
      | publish qos => cases qos <;> exact nomatch waits
      | _ => exact nomatch waits
  | pubAck reason =>
    obtain rfl := Option.some.inj kindOf
    refine ⟨{ silent with publishQos1 := fun _ _ _ => .acked reason },
      { quiet with publishQos1 := ?_ }, fun props timeout waiter => ?_⟩
    · intro _ _ _ reason same
      exact AckReply.acked.inj same ▸ sent
    · cases call with
      | publish qos =>
        cases qos with
        | atLeastOnce => exact (Reply.shown_acked pubackOutcome reason .qos1 waiter).symm
        | _ => exact nomatch waits
      | _ => exact nomatch waits
  | pubComp =>
    obtain rfl := Option.some.inj kindOf
    refine ⟨{ silent with publishQos2 := fun _ _ _ => .acked () },
      { quiet with publishQos2 := fun _ _ _ _ => sent }, fun props timeout waiter => ?_⟩
    cases call with
    | publish qos =>
      cases qos with
      | exactlyOnce => exact (Reply.shown_acked pubcompOutcome () .qos2 waiter).symm
      | _ => exact nomatch waits
    | _ => exact nomatch waits
  | _ => exact nomatch kindOf

/-- Whatever a command may return is the answer to some replies from these packets. -/
theorem Answers.answered {packets : List Incoming} {call : Call} {reply : Reply}
    (answers : Answers packets call reply) :
    ∃ ext, Grounded packets ext ∧ ∀ props timeout, answer ext props timeout call = reply.shown := by
  have quiet := silent_grounded packets
  -- A waiting call finds the connection lost.
  have lost {call : Call} {kind : AckKind} (waits : call.ackKind? = some kind)
      (props : Option UserProperties) (timeout : Nat) :
      answer silent props timeout call = (.connected, networkError "connection_lost") := by
    cases call with
    | subscribe => rfl
    | publish qos => cases qos <;> rfl
    | _ => exact nomatch waits
  cases answers with
  | acked waits judged =>
    rcases judged with rfl | ⟨packet, sent, kindOf, rfl⟩
    · exact ⟨silent, quiet, lost waits⟩
    · obtain ⟨ext, grounded, same⟩ := answer_acked waits sent kindOf
      exact ⟨ext, grounded, fun props timeout => same props timeout _⟩
  | unsent waits => exact ⟨silent, quiet, lost waits⟩
  | published =>
    exact ⟨{ silent with publishQos0 := fun _ _ _ => true }, { quiet with }, fun _ _ => rfl⟩
  | publishLost => exact ⟨silent, quiet, fun _ _ => rfl⟩
  | @received p sent =>
    refine ⟨{ silent with receivePublish := fun _ => .received p },
      { quiet with receivePublish := ?_ }, fun _ _ => rfl⟩
    intro _ p same
    exact RecvReply.received.inj same ▸ sent
  | receiveTimedOut => exact ⟨silent, quiet, fun _ _ => rfl⟩
  | receiveLost =>
    refine ⟨{ silent with receivePublish := fun _ => .closed },
      { quiet with receivePublish := ?_ }, fun _ _ => rfl⟩
    exact fun _ _ => nofun
  | disconnectTimedOut => exact ⟨silent, quiet, fun _ _ => rfl⟩
  | @gotDisconnect d sent =>
    refine ⟨{ silent with receiveDisconnect := fun _ => .received d },
      { quiet with receiveDisconnect := ?_ }, fun _ _ => rfl⟩
    intro _ d same
    exact RecvReply.received.inj same ▸ sent
  | disconnectLost =>
    refine ⟨{ silent with receiveDisconnect := fun _ => .closed },
      { quiet with receiveDisconnect := ?_ }, fun _ _ => rfl⟩
    exact fun _ _ => nofun
  | disconnected leaves =>
    rcases leaves with rfl | rfl
    · exact ⟨silent, quiet, fun _ _ => rfl⟩
    · exact ⟨silent, quiet, fun _ _ => rfl⟩

/-- Execute commands one after another, each with its own replies. -/
def replay : List External → List (String × CommandArgs) → MqttClientInstance →
    List (MqttMode × RunOutcome)
  | ext :: exts, (cmd, args) :: commands, inst =>
    ((execute ext cmd args inst).1.mode, (execute ext cmd args inst).2) ::
      replay exts commands (execute ext cmd args inst).1
  | _, _, _ => []

/-- Commands that return what they may are executed to the same results. -/
theorem replay_answers {packets : List Incoming} {past later : List Call} {replies : List Reply}
    (answers : List.Forall₂ (Answers packets) past replies)
    (lasting : ∀ reply ∈ replies.dropLast, reply.shown.1 = .connected)
    {commands : List (String × CommandArgs)}
    (made : commands.map (fun command => callOf command.1 command.2) <+: (past ++ later).map some) :
    ∃ exts, (∀ ext ∈ exts, Grounded packets ext) ∧
      replay exts commands ⟨.connected⟩ = (replies.take commands.length).map Reply.shown := by
  induction answers generalizing commands with
  | nil => exact ⟨[], nofun, by simp [replay]⟩
  | @cons call reply past replies answers further ih =>
    match commands, made with
    | [], _ => exact ⟨[], nofun, by simp [replay]⟩
    | (cmd, args) :: rest, made =>
      obtain ⟨now, made⟩ := List.cons_prefix_cons.mp made
      obtain ⟨props, timeout, does⟩ := execute_of_call now
      obtain ⟨ext, grounded, same⟩ := answers.answered
      have returned : execute ext cmd args ⟨.connected⟩ = (⟨reply.shown.1⟩, reply.shown.2) := by
        rw [does, same]
      cases replies with
      | nil =>
        refine ⟨[ext], fun _ member => List.mem_singleton.mp member ▸ grounded, ?_⟩
        simp [replay, returned]
      | cons next replies =>
        have stays : reply.shown.1 = .connected := lasting reply List.mem_cons_self
        obtain ⟨exts, all, results⟩ :=
          ih (fun reply member => lasting reply (List.mem_cons_of_mem _ member)) made
        refine ⟨ext :: exts, List.forall_mem_cons.mpr ⟨grounded, all⟩, ?_⟩
        rw [replay, returned, stays, results]
        simp only [List.length_cons, List.take_succ_cons, List.map_cons, ← stays]

/-- Every schedule of a connection is, to the harness, a sequential run of the client:
all commands but perhaps the last returned, and what they returned is what executing
them one after another gives for some replies whose packets the broker sent. -/
theorem schedule_sequential {labels : List Label} {s : Session}
    (ran : system.run .connected labels = some s) {commands : List (String × CommandArgs)}
    (made : commands.map (fun command => callOf command.1 command.2) <+:
      (callsOf labels).map some) :
    (callsOf labels).length ≤ s.replies.length + 1 ∧
      ∃ exts, (∀ ext ∈ exts, Grounded (packetsOf labels) ext) ∧
        replay exts commands ⟨.connected⟩ = (s.replies.take commands.length).map Reply.shown := by
  obtain ⟨past, current, here⟩ := served ran
  have returned := here.answers.length_eq
  rw [here.calls] at made ⊢
  refine ⟨?_, replay_answers here.answers here.lasting made⟩
  have last : current.toList.length ≤ 1 := by cases current <;> simp
  rw [List.length_append, returned]
  exact Nat.add_le_add_left last _

/-- A subscription is granted, a packet arrives and is received, and then the broker
disconnects. -/
def sessionSchedule : List Label :=
  [.actor (.call (.subscribe .atLeastOnce "t")), .actor .send,
    .broker (.subAck [.success .atLeastOnce]), .loop .pollPacket, .loop .proceed, .actor .wake,
    .broker (.publish (plainPublish "t")), .broker (.disconnect ⟨0x8E, none⟩),
    .actor (.call .receivePublish), .loop .pollPacket, .loop .proceed, .actor .recv,
    .loop .pollPacket, .loop .proceed, .actor (.call .receiveDisconnect), .actor .recv, .actor .drop]

def sessionCommands : List (String × CommandArgs) :=
  [("subscribe_1", ⟨[.string "t"], []⟩), ("receive_publish", ⟨[], []⟩),
    ("receive_disconnect", ⟨[], []⟩)]

theorem schedule_sequential_session :
    ∃ exts, (∀ ext ∈ exts, Grounded (packetsOf sessionSchedule) ext) ∧
      replay exts sessionCommands ⟨.connected⟩ =
        [(.connected, .ok []), (.connected, .ok (receivePublishOk (plainPublish "t"))),
          (.disconnected, .ok (receiveDisconnectOk ⟨0x8E, none⟩))] := by
  have facts : (system.run .connected sessionSchedule).map (fun s => s.replies.map Reply.shown) =
      some [(.connected, .ok []), (.connected, .ok (receivePublishOk (plainPublish "t"))),
        (.disconnected, .ok (receiveDisconnectOk ⟨0x8E, none⟩))] := rfl
  have made : sessionCommands.map (fun command => callOf command.1 command.2) <+:
      (callsOf sessionSchedule).map some := ⟨[], rfl⟩
  obtain ⟨s, ran, shown⟩ := Option.map_eq_some_iff.mp facts
  obtain ⟨-, exts, grounded, results⟩ := schedule_sequential ran made
  refine ⟨exts, grounded, ?_⟩
  rw [results, List.map_take, shown]
  rfl

/-! ## Every answer has a schedule -/

section Driver

-- The reason codes that a server's DISCONNECT can have.
variable (reasonCodes : Set Int)

/-- What can come of a packet. An acknowledgement has no failure code, as the poll
would fail on it; and a DISCONNECT is one passed on for a server's. -/
def Incoming.Deliverable : Incoming → Prop
  | .disconnect d => d.properties = none ∧ d.reasonCode ∈ reasonCodes
  | packet => packet.failsPoll = false

/-- What the driver can do. A server's DISCONNECT is an error of the poll, never a
packet that it hands out. -/
def Label.Driven : Label → Prop
  | .broker (.disconnect _) => False
  | .loop (.pollError (some reasonCode)) => reasonCode ∈ reasonCodes
  | _ => True

/-- Some schedule of what the driver can do makes this call only, and the call
returns this. -/
def Scheduled (call : Call) (result : MqttMode × RunOutcome) : Prop :=
  ∃ labels s, (∀ label ∈ labels, label.Driven reasonCodes) ∧
    system.run .connected labels = some s ∧ callsOf labels = [call] ∧
    s.replies.map Reply.shown = [result]

variable {reasonCodes}

/-- A step that the driver can make brings in what can come of a packet. -/
theorem Label.Driven.packet {label : Label} (driven : label.Driven reasonCodes) {packet : Incoming}
    (brings : label.packet? = some packet) : packet.Deliverable reasonCodes := by
  cases label with
  | actor => exact nomatch brings
  | loop loop =>
    cases loop with
    | pollError serverDisconnect =>
      cases serverDisconnect with
      | none => exact nomatch brings
      | some reasonCode =>
        obtain rfl := Option.some.inj brings
        exact ⟨rfl, driven⟩
    | _ => exact nomatch brings
  | broker sent =>
    simp only [packet?, Option.ite_none_left_eq_some, Bool.not_eq_true, Option.some.injEq] at brings
    obtain ⟨passes, rfl⟩ := brings
    cases sent with
    | disconnect => exact driven.elim
    | _ => exact passes

theorem Scheduled.of_run {call : Call} {result : MqttMode × RunOutcome} (labels : List Label)
    (driven : ∀ label ∈ labels, label.Driven reasonCodes) (calls : callsOf labels = [call])
    (returns : (system.run .connected labels).map (fun s => s.replies.map Reply.shown) = some [result]) :
    Scheduled reasonCodes call result := by
  obtain ⟨s, ran, same⟩ := Option.map_eq_some_iff.mp returns
  exact ⟨labels, s, driven, ran, calls, same⟩

/-- The connection fails and the event loop returns. -/
def failure : List Label := .loop (.pollError none) :: List.replicate 7 (.loop .proceed)

/-- An acknowledgement without a failure code. -/
def AckKind.granted : AckKind → Incoming
  | .sub => .subAck [.success .atMostOnce]
  | .qos1 => .pubAck .success
  | .qos2 => .pubComp

/-- A call that waits may be acknowledged. -/
theorem Scheduled.acked {call : Call} {kind : AckKind} (waits : call.ackKind? = some kind) :
    Scheduled reasonCodes call (.connected, .ok []) := by
  refine .of_run [.actor (.call call), .actor .send, .broker kind.granted, .loop .pollPacket,
    .loop .proceed, .actor .wake] ?_ rfl ?_
  · cases kind <;> simp [Label.Driven, AckKind.granted]
  · cases call with
    | subscribe qos topic =>
      obtain rfl := Option.some.inj waits
      rfl
    | publish qos topic payload =>
      cases qos with
      | atMostOnce => exact nomatch waits
      | _ =>
        obtain rfl := Option.some.inj waits
        rfl
    | _ => exact nomatch waits

/-- A call that waits may find the connection lost. -/
theorem Scheduled.lost {call : Call} {kind : AckKind} (waits : call.ackKind? = some kind) :
    Scheduled reasonCodes call (.connected, networkError "connection_lost") := by
  refine .of_run ([.actor (.call call), .actor .send] ++ failure ++ [.actor .wake]) ?_ rfl ?_
  · simp [failure, Label.Driven]
  · cases call with
    | subscribe qos topic => rfl
    | publish qos topic payload => cases qos <;> first | rfl | exact nomatch waits
    | _ => exact nomatch waits

/-- A call that waits may return whatever the client makes of a reply to it, of which
no acknowledgement has a failure code. -/
theorem Scheduled.replied {Ack : Type} {call : Call} {kind : AckKind}
    (waits : call.ackKind? = some kind) {judge : Ack → Except RunOutcome Unit} {reply : AckReply Ack}
    (passes : ∀ ack, reply = .acked ack → judge ack = .ok ()) :
    Scheduled reasonCodes call (.connected, ackOutcome judge reply) := by
  cases reply with
  | acked ack =>
    simp only [ackOutcome, passes ack rfl]
    exact .acked waits
  | sendFailed | connectionLost | senderDropped => exact .lost waits

end Driver

end Ill.Mqtt
