import Ill.Mqtt.Steps

/-!
# Back-pressure and acknowledgements

The event loop waits for room in the publish inbox while the only consumer of
the inbox may wait for an acknowledgement that only the event loop can
deliver. No other wait is circular.
-/

namespace Ill.Mqtt

open Base Actor.MqttClient

namespace Session

def inboxFull (s : Session) : Bool := s.publishInbox.buffer.length == inboxCap

/-- Whether the next packet is a PUBLISH. -/
def publishNext (s : Session) : Bool :=
  match s.wire with
  | .publish _ :: _ => true
  | _ => false

end Session

/-- Whether the event loop holds a PUBLISH for the inbox. -/
def LoopPhase.sendsPublish : LoopPhase → Bool
  | .sendingPublish _ => true
  | _ => false

/-- A command awaits an acknowledgement that the broker has sent on a live
connection, and neither task can take a step. -/
def Stuck (s : Session) : Prop :=
  ∃ kind waiter, s.actor = .awaiting kind waiter ∧ s.live = true ∧
    (∃ packet ∈ s.wire, packet.ackKind? = some kind) ∧
    ∀ label : Label, label.ofTask = true → s.step label = none

/-- A command awaits an unanswered waiter while the event loop waits for room. -/
def Wedged (s : Session) : Prop :=
  ∃ kind waiter p, s.actor = .awaiting kind waiter ∧ s.resolved.lookup waiter = none ∧
    s.live = true ∧ (∃ packet ∈ s.wire, packet.ackKind? = some kind) ∧
    s.loop = .sendingPublish p ∧ s.inboxFull = true

/-- A stuck connection waits in a circle around the full inbox. -/
theorem wedged_of_stuck {s : Session} (coherent : Coherent s) (stuck : Stuck s) : Wedged s := by
  obtain ⟨kind, waiter, awaiting, live, ⟨packet, sent, answers⟩, blocked⟩ := stuck
  have running : s.aborted = false := by
    rw [coherent.aborted, awaiting]
    rfl
  have unanswered : s.resolved.lookup waiter = none := by
    have wake := blocked (.actor .wake) rfl
    simpa [Session.step, Session.actorStep, Session.wake, awaiting] using wake
  have proceeds : s.proceed = none := blocked (.loop .proceed) rfl
  have serves := coherent.serving live running
  cases phase : s.loop with
  | polling =>
    have poll := blocked (.loop .pollPacket) rfl
    have able : s.canPoll = true := Session.canPoll_iff.mpr ⟨phase, running⟩
    rcases wire : s.wire with _ | ⟨first, rest⟩
    · simp [wire] at sent
    · -- A poll takes any packet, be it to fail on it.
      simp only [Session.step, Session.loopStep, Session.pollPacket, able, live, wire,
        Bool.and_self, if_true] at poll
      split at poll <;> simp at poll
  | resolving found outcome => simp [Session.proceed, phase] at proceeds
  | sendingPublish p =>
    have full : s.publishInbox.send? p = none := by
      simpa [Session.proceed, phase, awaiting, ActorPhase.hasLeft] using proceeds
    rw [Fifo.send?_eq_none_iff] at full
    have noRoom : s.inboxFull = true := by rw [Session.inboxFull, full, beq_self_eq_true]
    exact ⟨kind, waiter, p, awaiting, unanswered, live, ⟨packet, sent, answers⟩, phase, noRoom⟩
  | _ => simp [phase, LoopPhase.serving] at serves

/-- The circle does not resolve itself. -/
theorem stuck_of_wedged {s : Session} (coherent : Coherent s) (wedged : Wedged s) : Stuck s := by
  obtain ⟨kind, waiter, p, awaiting, unanswered, live, answers, sending, full⟩ := wedged
  refine ⟨kind, waiter, awaiting, live, answers, ?_⟩
  have running : s.aborted = false := by
    rw [coherent.aborted, awaiting]
    rfl
  have unable : s.canPoll = false := by simp [Session.canPoll, sending]
  have noRoom : s.publishInbox.send? p = none := by
    rw [Fifo.send?_eq_none_iff]
    simpa [Session.inboxFull] using full
  intro label ofTask
  cases label with
  | broker packet => simp [Label.ofTask] at ofTask
  | actor label =>
    cases label with
    | call call => simp [Session.step, Session.actorStep, awaiting]
    | send => simp [Session.step, Session.actorStep, Session.send, awaiting]
    | refuse => simp [Session.step, Session.actorStep, Session.refuse, awaiting]
    | pop => simp [Session.step, Session.actorStep, Session.pop, awaiting]
    | wake => simp [Session.step, Session.actorStep, Session.wake, awaiting, unanswered]
    | recv => simp [Session.step, Session.actorStep, Session.recv, awaiting]
    | timeout => simp [Session.step, Session.actorStep, Session.timeout, awaiting]
    | drop => simp [Session.step, Session.actorStep, Session.drop, awaiting]
  | loop label =>
    cases label with
    | pollRequest => simp [Session.step, Session.loopStep, Session.pollRequest, unable]
    | pollPacket => simp [Session.step, Session.loopStep, Session.pollPacket, unable]
    | pollError cause => simp [Label.ofTask] at ofTask
    | proceed =>
      simp [Session.step, Session.loopStep, Session.proceed, sending, awaiting, ActorPhase.hasLeft,
        noRoom]
    | cancel => simp [Session.step, Session.loopStep, Session.cancel, running]

/-! ## Keeping clear of the circle -/

/-- The event loop takes no PUBLISH off the network for a full inbox while a
command waits for an acknowledgement, and no such command starts while the
event loop waits for room. -/
def avoidsWedge (s : Session) : Label → Bool
  | .actor (.call call) => !(call.acked && s.loop.sendsPublish && s.inboxFull)
  | .loop .pollPacket => !(s.actor.pending?.isSome && s.inboxFull && s.publishNext)
  | _ => true

/-- While a command waits for an acknowledgement, the PUBLISH the event loop
holds has room. -/
def HasRoom (s : Session) : Prop :=
  s.actor.pending?.isSome = true → s.loop.sendsPublish = true → s.inboxFull = false

theorem HasRoom.actor {s next : Session} {label : ActorLabel} (here : HasRoom s)
    (admitted : avoidsWedge s (.actor label) = true) (step : ActorStep s label next) :
    HasRoom next := by
  intro pending sends
  cases step with
  | callAcked idle acked other =>
    have holds : s.loop.sendsPublish = true := sends
    have room : s.inboxFull = false := by simpa [avoidsWedge, acked, holds] using admitted
    exact room
  | @callPlain call phase idle plain =>
    cases phase <;> simp [ActorPhase.pending?, ActorPhase.plain] at pending plain
  | sendRequest actor isOpen sent =>
    refine here ?_ sends
    rw [actor]
    rfl
  | refuseRequest actor =>
    refine here ?_ sends
    rw [actor]
    rfl
  | _ => simp [Session.returns, ActorPhase.pending?] at pending

theorem HasRoom.loop {s next : Session} {label : LoopLabel} (here : HasRoom s)
    (admitted : avoidsWedge s (.loop label) = true) (step : LoopStep s label next) :
    HasRoom next := by
  intro pending sends
  cases step with
  | request | ignore => exact here pending sends
  | publish polling running live front =>
    have waits : s.actor.pending?.isSome = true := pending
    have next : s.publishNext = true := by simp only [Session.publishNext, front]
    have room : s.inboxFull = false := by simpa [avoidsWedge, waits, next] using admitted
    exact room
  | _ => simp [LoopPhase.sendsPublish] at sends

/-- A reachable connection is stuck exactly if its command waits for an
acknowledgement while the event loop waits for room in the full inbox; and a
run that keeps clear of this is never stuck. -/
theorem stuck_iff_wedged (s : Session) :
    (system.Reaches s → (Stuck s ↔ Wedged s)) ∧
      (system.Reachable (fun s label => avoidsWedge s label) s → ¬ Stuck s) := by
  constructor
  · intro reached
    exact ⟨wedged_of_stuck (coherent reached), stuck_of_wedged (coherent reached)⟩
  · intro reached stuck
    have room : HasRoom s := by
      refine invariant_of_steps HasRoom ?_ ?_ ?_ ?_ reached
      · simp [HasRoom, Session.connected, ActorPhase.pending?]
      · intro s label next _ here admitted step
        exact here.actor admitted step
      · intro s label next _ here admitted step
        exact here.loop admitted step
      · intro s packet here
        exact here
    obtain ⟨kind, waiter, p, awaiting, _, _, _, sending, full⟩ :=
      wedged_of_stuck (coherent reached) stuck
    have empty := room (by rw [awaiting]; rfl) (by rw [sending]; rfl)
    rw [full] at empty
    simp at empty

/-- An incoming PUBLISH. -/
def somePublish : Publish := ⟨"t", [], .atMostOnce, none⟩

/-- A subscription is written; the broker sends `before` packets and then
acknowledges it; the event loop polls until it holds the last packet. -/
def floodSchedule (before : Nat) : List Label :=
  [.actor (.call (.subscribe .atMostOnce "t")), .actor .send, .loop .pollRequest] ++
    List.replicate (before + 1) (.broker (.publish somePublish)) ++
    [.broker (.subAck [.success .atMostOnce])] ++
    (List.replicate before [.loop .pollPacket, .loop .proceed]).flatten ++ [.loop .pollPacket]

set_option maxRecDepth 4000 in
/-- With 64 packets the last one still has room, and the acknowledgement behind
them gets through. -/
theorem stuck_iff_wedged_room :
    ∃ s, system.runWhere avoidsWedge .connected (floodSchedule 63) = some s ∧
      s.actor = .awaiting .sub 0 ∧ s.wire = [.subAck [.success .atMostOnce]] ∧ ¬ Stuck s := by
  have facts : (system.runWhere avoidsWedge .connected (floodSchedule 63)).map
      (fun s => (s.actor, s.wire)) =
        some (.awaiting .sub 0, [.subAck [.success .atMostOnce]]) := rfl
  obtain ⟨s, ran, same⟩ := Option.map_eq_some_iff.mp facts
  obtain ⟨awaiting, wire⟩ := Prod.mk.inj same
  exact ⟨s, ran, awaiting, wire, (stuck_iff_wedged s).2 (reachable_of_schedule ran)⟩

set_option maxRecDepth 4000 in
/-- With 65 packets ahead of the acknowledgement the inbox is full and both tasks wait. -/
theorem flooded_subscription_stuck : ¬ ∀ s, system.Reaches s → ¬ Stuck s := by
  intro free
  have facts : (system.run .connected (floodSchedule 64)).map
      (fun s => (s.actor, s.resolved, s.live, s.wire, s.loop, s.inboxFull)) =
        some (.awaiting .sub 0, [], true, [.subAck [.success .atMostOnce]],
          .sendingPublish somePublish, true) := rfl
  obtain ⟨s, ran, same⟩ := Option.map_eq_some_iff.mp facts
  obtain ⟨awaiting, same⟩ := Prod.mk.inj same
  obtain ⟨resolved, same⟩ := Prod.mk.inj same
  obtain ⟨live, same⟩ := Prod.mk.inj same
  obtain ⟨wire, same⟩ := Prod.mk.inj same
  obtain ⟨sending, full⟩ := Prod.mk.inj same
  have reached : system.Reaches s := reaches_of_schedule ran
  have unanswered : s.resolved.lookup 0 = none := by
    rw [resolved]
    rfl
  have answers : ∃ packet ∈ s.wire, packet.ackKind? = some .sub := by
    rw [wire]
    exact ⟨_, List.mem_singleton_self _, rfl⟩
  have wedged : Wedged s := ⟨.sub, 0, somePublish, awaiting, unanswered, live, answers, sending, full⟩
  exact free s reached (stuck_of_wedged (coherent reached) wedged)

end Ill.Mqtt
