import Ill.Mqtt.Steps

/-!
# Delivery of incoming PUBLISH packets

Every polled PUBLISH is in exactly one of three places, in order: returned by
a `receive_publish`, buffered in the inbox, or held by the event loop that
waits for room.
-/

namespace Ill.Mqtt

open Base Actor.MqttClient

/-- The message of a successful `receive_publish`. -/
def Reply.message? : Reply → Option Publish
  | .received p => some p
  | _ => none

/-- The messages returned by `receive_publish` so far. -/
def receivedMessages (replies : List Reply) : List Publish := replies.filterMap Reply.message?

/-- The PUBLISH the event loop has polled and not yet sent on. -/
def LoopPhase.heldPublish : LoopPhase → List Publish
  | .sendingPublish p => [p]
  | _ => []

theorem receivedMessages_append (replies : List Reply) (reply : Reply) :
    receivedMessages (replies ++ [reply]) = receivedMessages replies ++ reply.message?.toList := by
  cases reply <;> simp [receivedMessages, Reply.message?]

/-- Where the polled packets are. -/
structure Delivery (s : Session) : Prop where
  returned : receivedMessages s.replies = s.publishInbox.delivered
  sent : s.publishInbox.accepted <+: s.polled
  held : s.aborted = false → s.polled = s.publishInbox.accepted ++ s.loop.heldPublish
  /-- A closed inbox is reported after everything polled has been returned. -/
  closed : Reply.receiveLost ∈ s.replies →
    s.loop.holdsPublishTx = false ∧ s.publishInbox.delivered = s.polled

/-- What leaves the inbox and the polled packets alone keeps the delivery. -/
theorem Delivery.keeps {s next : Session} (here : Delivery s)
    (returned : receivedMessages next.replies = receivedMessages s.replies)
    (lost : Reply.receiveLost ∈ next.replies → Reply.receiveLost ∈ s.replies)
    (inbox : next.publishInbox = s.publishInbox) (polled : next.polled = s.polled)
    (held : next.aborted = false →
      s.aborted = false ∧ next.loop.heldPublish = s.loop.heldPublish)
    (dropped : s.loop.holdsPublishTx = false → next.loop.holdsPublishTx = false) :
    Delivery next := by
  constructor
  · rw [returned, inbox, here.returned]
  · rw [inbox, polled]
    exact here.sent
  · intro running
    obtain ⟨before, same⟩ := held running
    rw [inbox, polled, same, here.held before]
  · intro reported
    obtain ⟨gone, all⟩ := here.closed (lost reported)
    rw [inbox, polled]
    exact ⟨dropped gone, all⟩

/-- A command that returns neither a message nor a closed inbox keeps the delivery. -/
theorem Delivery.returns {s : Session} (here : Delivery s) {reply : Reply}
    (quiet : reply.message? = none) (other : reply ≠ .receiveLost) : Delivery (s.returns reply) := by
  have returned : receivedMessages (s.replies ++ [reply]) = receivedMessages s.replies := by
    rw [receivedMessages_append, quiet, Option.toList_none, List.append_nil]
  refine here.keeps returned ?_ rfl rfl (fun running => ⟨running, rfl⟩) id
  intro lost
  rcases List.mem_append.mp lost with before | now
  · exact before
  · exact absurd (List.mem_singleton.mp now).symm other

/-- Handing out the front of the inbox keeps the delivery. -/
theorem Delivery.recv {s : Session} (here : Delivery s) {p : Publish}
    {publishInbox : Fifo Publish inboxCap} (taken : s.publishInbox.recv? = some (p, publishInbox)) :
    Delivery (({ s with publishInbox }).returns (.received p)) := by
  obtain ⟨front, accepted, delivered⟩ := Fifo.recv?_eq_some taken
  constructor
  · change receivedMessages (s.replies ++ [.received p]) = publishInbox.delivered
    rw [receivedMessages_append, here.returned, delivered]
    rfl
  · change publishInbox.accepted <+: s.polled
    rw [accepted]
    exact here.sent
  · intro running
    change s.polled = publishInbox.accepted ++ s.loop.heldPublish
    rw [accepted]
    exact here.held running
  · intro lost
    -- After a closed inbox was reported there is nothing left to take.
    have before : Reply.receiveLost ∈ s.replies := by
      simpa [Session.returns] using lost
    obtain ⟨_, all⟩ := here.closed before
    have sent := here.sent
    rw [s.publishInbox.accounted, all, front] at sent
    have longer := sent.length_le
    simp only [List.length_append, List.length_cons] at longer
    omega

/-- Reporting the closed inbox: nothing is buffered and nothing is held. -/
theorem Delivery.recvLost {s : Session} (here : Delivery s) (running : s.aborted = false)
    (empty : s.publishInbox.buffer = []) (dropped : s.loop.holdsPublishTx = false) :
    Delivery (s.returns .receiveLost) := by
  refine ⟨?_, here.sent, here.held, fun _ => ⟨dropped, ?_⟩⟩
  · change receivedMessages (s.replies ++ [.receiveLost]) = s.publishInbox.delivered
    rw [receivedMessages_append, here.returned]
    exact List.append_nil _
  · have none : s.loop.heldPublish = [] := by
      cases phase : s.loop with
      | sendingPublish p => simp [phase, LoopPhase.holdsPublishTx] at dropped
      | _ => rfl
    change s.publishInbox.delivered = s.polled
    rw [here.held running, none, List.append_nil, s.publishInbox.accounted, empty, List.append_nil]

theorem Delivery.actor {s next : Session} {label : ActorLabel} (here : Delivery s)
    (coherent : Coherent s) (step : ActorStep s label next) : Delivery next := by
  have running := (step.aborted coherent.aborted).1
  cases step with
  | callAcked | callPlain | sendRequest | sendDisconnect | refuseRequest | refuseDisconnect
  | recvDisconnect | recvDisconnectLost =>
    exact here.keeps rfl id rfl rfl (fun running => ⟨running, rfl⟩) id
  | sendPublish =>
    refine Delivery.returns ?_ rfl (by simp)
    exact here.keeps rfl id rfl rfl (fun running => ⟨running, rfl⟩) id
  | refusePublish => exact here.returns rfl (by simp)
  | pop =>
    refine Delivery.returns ?_ rfl (by simp)
    exact here.keeps rfl id rfl rfl (fun running => ⟨running, rfl⟩) id
  | wake => exact here.returns rfl (by simp)
  | recvPublish actor taken => exact here.recv taken
  | recvLost actor empty dropped => exact here.recvLost running empty dropped
  | timeoutPublish => exact here.returns rfl (by simp)
  | timeoutDisconnect => exact here.returns rfl (by simp)
  | drop actor =>
    refine here.keeps ?_ ?_ rfl rfl ?_ id
    · rw [receivedMessages_append]
      exact List.append_nil _
    · simp
    · simp

theorem Delivery.loop {s next : Session} {label : LoopLabel} (here : Delivery s)
    (coherent : Coherent s) (step : LoopStep s label next) : Delivery next := by
  cases step with
  | request | ignore => exact here.keeps rfl id rfl rfl (fun running => ⟨running, rfl⟩) id
  | @publish p wire polling running live front =>
    have upToNow : s.polled = s.publishInbox.accepted := by
      rw [here.held running, polling]
      exact List.append_nil _
    refine ⟨here.returned, ?_, fun _ => ?_, fun lost => ?_⟩
    · exact here.sent.trans (List.prefix_append _ _)
    · change s.polled ++ [p] = s.publishInbox.accepted ++ [p]
      rw [upToNow]
    · have gone := (here.closed lost).1
      simp [polling, LoopPhase.holdsPublishTx] at gone
  | @publishSent p publishInbox sending present sent =>
    obtain ⟨_, accepted, delivered⟩ := Fifo.send?_eq_some sent
    have running : s.aborted = false := coherent.aborted.trans present
    have upToNow : s.polled = s.publishInbox.accepted ++ [p] := by
      rw [here.held running, sending]
      rfl
    refine ⟨?_, ?_, fun _ => ?_, fun lost => ?_⟩
    · rw [here.returned, delivered]
    · exact ⟨[], by rw [List.append_nil, accepted, upToNow]⟩
    · change s.polled = publishInbox.accepted ++ []
      rw [accepted, upToNow, List.append_nil]
    · have gone := (here.closed lost).1
      simp [sending, LoopPhase.holdsPublishTx] at gone
  | publishLost sending gone =>
    refine here.keeps rfl id rfl rfl ?_ ?_
    · intro running
      rw [coherent.aborted, gone] at running
      simp at running
    · simp [sending, LoopPhase.holdsPublishTx]
  | cancel aborted suspended =>
    refine here.keeps rfl id rfl rfl ?_ ?_
    · simp [aborted]
    · intro dropped
      cases phase : s.loop <;>
        simp [phase, LoopPhase.holdsPublishTx, LoopPhase.suspended] at dropped suspended
  | disconnect phase | acknowledge phase | failedAck phase | serverDisconnect phase
  | connectionError phase
  | disconnectLost phase | disconnectSent phase | resolve phase | fail phase | drain phase
  | returns phase | dropDisconnectTx phase | dropPublishTx phase | dropEventLoop phase =>
    refine here.keeps rfl id rfl rfl (fun running => ⟨running, ?_⟩) ?_
    · rw [phase]
      rfl
    · simp [phase, LoopPhase.holdsPublishTx]

/-- Every reachable connection delivers in order. -/
theorem delivery {admits : Session → Label → Prop} {s : Session}
    (reached : system.Reachable admits s) : Delivery s := by
  refine invariant_of_steps Delivery ⟨rfl, List.prefix_rfl, fun _ => rfl, by simp [Session.connected]⟩
    ?_ ?_ ?_ reached
  · intro s label next prior here _ step
    exact here.actor (coherent prior) step
  · intro s label next prior here _ step
    exact here.loop (coherent prior) step
  · intro s packet here
    exact ⟨here.returned, here.sent, here.held, here.closed⟩

/-- The messages returned by `receive_publish` are a prefix of the polled ones,
what is missing is buffered or held by the event loop until the connection is
dropped, and a closed inbox is reported only when nothing is missing. -/
theorem received_in_order {s : Session} (reached : system.Reaches s) :
    receivedMessages s.replies <+: s.polled ∧
      (s.actor.hasLeft = false → s.polled =
        receivedMessages s.replies ++ s.publishInbox.buffer ++ s.loop.heldPublish) ∧
      (Reply.receiveLost ∈ s.replies → receivedMessages s.replies = s.polled) := by
  have here := delivery reached
  refine ⟨?_, fun present => ?_, fun lost => ?_⟩
  · rw [here.returned]
    exact s.publishInbox.delivered_prefix.trans here.sent
  · have running : s.aborted = false := (coherent reached).aborted.trans present
    rw [here.held running, here.returned, s.publishInbox.accounted]
  · rw [here.returned]
    exact (here.closed lost).2

/-- An incoming PUBLISH without payload. -/
def plainPublish (topic : String) : Publish := ⟨topic, [], .atMostOnce, none⟩

/-- Two packets arrive, one is received, the connection fails, the other is
received, and then the inbox is closed. -/
def lossSchedule : List Label :=
  [.broker (.publish (plainPublish "a")), .broker (.publish (plainPublish "b")),
    .loop .pollPacket, .loop .proceed, .loop .pollPacket, .loop .proceed,
    .actor (.call .receivePublish), .actor .recv, .loop (.pollError none)] ++
  List.replicate 6 (.loop .proceed) ++
  [.actor (.call .receivePublish), .actor .recv, .actor (.call .receivePublish), .actor .recv]

theorem received_in_order_loss :
    ∃ s, system.run .connected lossSchedule = some s ∧
      receivedMessages s.replies = [plainPublish "a", plainPublish "b"] ∧
      Reply.receiveLost ∈ s.replies ∧ receivedMessages s.replies = s.polled := by
  have facts : (system.run .connected lossSchedule).map
      (fun s => (receivedMessages s.replies, s.replies.getLast?)) =
        some ([plainPublish "a", plainPublish "b"], some .receiveLost) := rfl
  obtain ⟨s, ran, same⟩ := Option.map_eq_some_iff.mp facts
  obtain ⟨messages, last⟩ := Prod.mk.inj same
  have lost : Reply.receiveLost ∈ s.replies := List.mem_of_getLast? last
  exact ⟨s, ran, messages, lost, (received_in_order (reaches_of_schedule ran)).2.2 lost⟩

end Ill.Mqtt
