import Ill.Mqtt.AckRouting
import Ill.Mqtt.Delivery

/-!
# What the commands of a connection return

In every interleaving the calls are answered one after another, each with
something that a call of its kind may return: the end of the connection, a
timeout, or what a packet tells that the broker sent and a poll handed out.
-/

namespace Ill.Mqtt

open Base Actor.MqttClient

/-! ## Schedules -/

/-- The call that a step begins. -/
def Label.call? : Label → Option Call
  | .actor (.call call) => some call
  | _ => none

/-- The packet that a step brings in for the client: on the wire, unless a poll would
fail on it, or as the DISCONNECT passed on for a server's. -/
def Label.packet? : Label → Option Incoming
  | .broker packet => if packet.failsPoll then none else some packet
  | .loop (.pollError (some reasonCode)) => some (.disconnect ⟨reasonCode, none⟩)
  | _ => none

def callsOf (labels : List Label) : List Call := labels.filterMap Label.call?

def packetsOf (labels : List Label) : List Incoming := labels.filterMap Label.packet?

theorem callsOf_concat (labels : List Label) (label : Label) :
    callsOf (labels ++ [label]) = callsOf labels ++ label.call?.toList := by
  rw [callsOf, List.filterMap_append]
  cases found : label.call? <;> simp [callsOf, found]

theorem packetsOf_concat (labels : List Label) (label : Label) :
    packetsOf (labels ++ [label]) = packetsOf labels ++ label.packet?.toList := by
  rw [packetsOf, List.filterMap_append]
  cases found : label.packet? <;> simp [packetsOf, found]

theorem packetsOf_subset_concat (labels : List Label) (label : Label) :
    packetsOf labels ⊆ packetsOf (labels ++ [label]) := by
  rw [packetsOf_concat]
  exact List.subset_append_left _ _

/-- The actor's task brings in nothing. -/
theorem packetsOf_actor (labels : List Label) (label : ActorLabel) :
    packetsOf (labels ++ [.actor label]) = packetsOf labels := by
  rw [packetsOf_concat]
  exact List.append_nil _

/-! ## Where packets come from -/

/-- The DISCONNECT the event loop has and not yet sent on. -/
def LoopPhase.heldDisconnect : LoopPhase → List DisconnectPacket
  | .sendingDisconnect d => [d]
  | _ => []

/-- Where a step of the event loop takes the packets it leaves on the way. -/
structure Sources (s : Session) (label : LoopLabel) (next : Session) : Prop where
  wire : ∀ packet ∈ next.wire, packet ∈ s.wire
  messages : ∀ p ∈ next.publishInbox.buffer ++ next.loop.heldPublish,
    p ∈ s.publishInbox.buffer ++ s.loop.heldPublish ∨ .publish p ∈ s.wire
  disconnects : ∀ d ∈ next.disconnectInbox.buffer ++ next.loop.heldDisconnect,
    d ∈ s.disconnectInbox.buffer ++ s.loop.heldDisconnect ∨ .disconnect d ∈ s.wire ∨
      ∃ reasonCode, d = ⟨reasonCode, none⟩ ∧ label = .pollError (some reasonCode)

theorem LoopStep.sources {s next : Session} {label : LoopLabel} (step : LoopStep s label next) :
    Sources s label next := by
  constructor
  · cases step with
    | publish _ _ _ front | disconnect _ _ _ front | acknowledge _ _ _ front | ignore _ _ _ front
    | failedAck _ _ _ front =>
      rw [front]
      exact fun packet member => List.mem_cons_of_mem _ member
    | _ => exact fun packet member => member
  · intro p member
    rw [List.mem_append] at member ⊢
    cases step with
    | publishSent sending present sent =>
      rw [sending]
      rw [(Fifo.send?_eq_some sent).1, List.mem_append] at member
      exact .inl (by simpa [LoopPhase.heldPublish] using member)
    | publish polling running live front =>
      rcases member with buffered | held
      · exact .inl (.inl buffered)
      · obtain rfl := List.mem_singleton.mp held
        exact .inr (front ▸ List.mem_cons_self)
    | request | ignore => exact .inl member
    | _ => exact .inl (member.imp_right fun absurd => nomatch absurd)
  · intro d member
    rw [List.mem_append] at member ⊢
    cases step with
    | disconnectSent sending present sent =>
      rw [sending]
      rw [(Fifo.send?_eq_some sent).1, List.mem_append] at member
      exact .inl (by simpa [LoopPhase.heldDisconnect] using member)
    | disconnect polling running live front =>
      rcases member with buffered | held
      · exact .inl (.inl buffered)
      · obtain rfl := List.mem_singleton.mp held
        exact .inr (.inl (front ▸ List.mem_cons_self))
    | serverDisconnect polling running =>
      rcases member with buffered | held
      · exact .inl (.inl buffered)
      · obtain rfl := List.mem_singleton.mp held
        exact .inr (.inr ⟨_, rfl, rfl⟩)
    | request | ignore => exact .inl member
    | _ => exact .inl (member.imp_right fun absurd => nomatch absurd)

/-- Everything on the way to the actor is one of some packets. -/
structure Brought (packets : List Incoming) (s : Session) : Prop where
  wire : ∀ packet ∈ s.wire, packet.failsPoll = false → packet ∈ packets
  messages : ∀ p ∈ s.publishInbox.buffer ++ s.loop.heldPublish, .publish p ∈ packets
  disconnects : ∀ d ∈ s.disconnectInbox.buffer ++ s.loop.heldDisconnect, .disconnect d ∈ packets

theorem Brought.mono {packets more : List Incoming} {s : Session} (here : Brought packets s)
    (within : packets ⊆ more) : Brought more s where
  wire packet member passes := within (here.wire packet member passes)
  messages p member := within (here.messages p member)
  disconnects d member := within (here.disconnects d member)

/-- The actor's task takes packets only. -/
theorem Brought.actor {packets : List Incoming} {s next : Session} {label : ActorLabel}
    (here : Brought packets s) (step : ActorStep s label next) : Brought packets next := by
  cases step with
  | recvPublish actor taken =>
    refine ⟨here.wire, fun p member => here.messages p ?_, here.disconnects⟩
    rw [(Fifo.recv?_eq_some taken).1, List.cons_append]
    exact List.mem_cons_of_mem _ member
  | recvDisconnect actor taken =>
    refine ⟨here.wire, here.messages, fun d member => here.disconnects d ?_⟩
    rw [(Fifo.recv?_eq_some taken).1, List.cons_append]
    exact List.mem_cons_of_mem _ member
  | _ => exact ⟨here.wire, here.messages, here.disconnects⟩

theorem Brought.loop {packets : List Incoming} {s next : Session} {label : LoopLabel}
    (here : Brought packets s) (step : LoopStep s label next) :
    Brought (packets ++ (Label.loop label).packet?.toList) next := by
  have sources := step.sources
  have more : packets ⊆ packets ++ (Label.loop label).packet?.toList := List.subset_append_left _ _
  refine ⟨fun packet member passes => more (here.wire packet (sources.wire packet member) passes),
    fun p member => more ?_, fun d member => ?_⟩
  · rcases sources.messages p member with before | front
    · exact here.messages p before
    · exact here.wire _ front rfl
  · rcases sources.disconnects d member with before | front | ⟨reasonCode, rfl, rfl⟩
    · exact more (here.disconnects d before)
    · exact more (here.wire _ front rfl)
    · exact List.mem_append_right _ (List.mem_singleton.mpr rfl)

/-- Every packet on the way to the actor is one that the broker sent. -/
theorem brought {labels : List Label} {s : Session} (ran : system.run .connected labels = some s) :
    Brought (packetsOf labels) s := by
  refine TransitionSystem.run_history (fun labels s => Brought (packetsOf labels) s) ?_ ?_ ran
  · constructor <;> simp [Session.connected, LoopPhase.heldPublish, LoopPhase.heldDisconnect]
  · intro labels s label next _ here stepped
    rw [packetsOf_concat]
    cases Step.of_step stepped with
    | actor step => exact (here.actor step).mono (List.subset_append_left _ _)
    | loop step => exact here.loop step
    | @broker sent live =>
      have grown := here.mono (List.subset_append_left _ (Label.packet? (.broker sent)).toList)
      refine ⟨fun packet member passes => ?_, grown.messages, grown.disconnects⟩
      rcases List.mem_append.mp member with before | now
      · exact grown.wire packet before passes
      · obtain rfl := List.mem_singleton.mp now
        apply List.mem_append_right
        simp [Label.packet?, passes]

/-! ## What a waiter is sent -/

/-- The outcomes that waiters were sent or are about to be sent. -/
def Session.outcomes (s : Session) : List (WaiterTx × Except RunOutcome Unit) :=
  match s.loop with
  | .resolving waiter outcome => (waiter, outcome) :: s.resolved
  | _ => s.resolved

theorem Session.resolved_subset_outcomes (s : Session) : s.resolved ⊆ s.outcomes := by
  unfold outcomes
  split
  · exact List.subset_cons_self _ _
  · exact List.Subset.refl _

/-- What a command wakes up to is an outcome that its waiter was sent. -/
theorem Session.mem_outcomes_of_lookup {s : Session} {waiter : WaiterTx}
    {outcome : Except RunOutcome Unit} (resolved : s.resolved.lookup waiter = some outcome) :
    (waiter, outcome) ∈ s.outcomes := by
  obtain ⟨earlier, later, split, -⟩ := List.lookup_eq_some_iff.mp resolved
  exact s.resolved_subset_outcomes (split ▸ List.mem_append_right earlier List.mem_cons_self)

theorem ActorStep.outcomes {s next : Session} {label : ActorLabel} (step : ActorStep s label next) :
    next.outcomes = s.outcomes := by
  unfold Session.outcomes
  rw [step.frame.loop, step.frame.resolved]

/-- What waiting for an acknowledgement ends in: what one of the packets says, or
the end of the connection. -/
def Judged (packets : List Incoming) (kind : AckKind) (outcome : Except RunOutcome Unit) : Prop :=
  outcome = Session.connectionLost ∨
    ∃ packet ∈ packets, packet.ackKind? = some kind ∧ outcome = packet.ackOutcome

/-- A new outcome tells the end of a connection that no longer serves, or is that of
an acknowledgement that a live one polled for the front of its queue. -/
theorem Session.outcomes_loopStep {s next : Session} {label : LoopLabel}
    (stepped : s.loopStep label = some next) {entry : WaiterTx × Except RunOutcome Unit}
    (member : entry ∈ next.outcomes) :
    entry ∈ s.outcomes ∨ (entry.2 = connectionLost ∧ s.loop.serving = false) ∨
      s.live = true ∧ ∃ packet ∈ s.wire, packet.failsPoll = false ∧
        ∃ kind, packet.ackKind? = some kind ∧
          entry.1 ∈ s.waiters.queue kind ∧ entry.2 = packet.ackOutcome := by
  by_cases poll : label = .pollPacket
  · subst poll
    obtain ⟨polling, live, packet, wire, front, ⟨-, rfl⟩ | ⟨passes, rfl⟩⟩ :=
      Session.pollPacket_eq_some stepped
    · exact .inl (s.resolved_subset_outcomes member)
    have before : s.outcomes = s.resolved := by simp only [outcomes, polling]
    rw [before]
    cases kindOf : packet.ackKind? with
    | none =>
      have plain : packet.isAck = false := by rw [Incoming.isAck, kindOf]; rfl
      obtain ⟨loop, _, polled, same, suspended⟩ :=
        ({ s with wire }).dispatch_of_plain plain polling
      rw [same] at member
      cases loop <;> first | exact .inl member | simp [LoopPhase.suspended] at suspended
    | some kind =>
      rw [Session.dispatch_of_ack _ kindOf] at member
      rcases queued : s.waiters.queue kind with _ | ⟨waiter, rest⟩
      · simp only [acknowledge, queued, outcomes, polling] at member
        exact .inl member
      · simp only [acknowledge, queued, outcomes] at member
        rcases List.mem_cons.mp member with rfl | older
        · refine .inr (.inr
            ⟨live, packet, front ▸ List.mem_cons_self, passes, kind, kindOf, ?_, rfl⟩)
          rw [queued]
          exact List.mem_cons_self
        · exact .inl older
  · have older := s.resolved_subset_outcomes
    cases LoopStep.of_step stepped with
    | publish | disconnect | acknowledge | ignore | failedAck => exact absurd rfl poll
    | resolve resolving =>
      left
      simpa only [outcomes, resolving] using member
    | fail failing =>
      rcases List.mem_cons.mp member with rfl | before
      · exact .inr (.inl ⟨rfl, failing ▸ rfl⟩)
      · exact .inl (older before)
    | request polling =>
      simp only [outcomes, polling] at member
      exact .inl (older member)
    | _ => exact .inl (older member)

theorem Judged.mono {packets more : List Incoming} {kind : AckKind}
    {outcome : Except RunOutcome Unit} (judged : Judged packets kind outcome)
    (within : packets ⊆ more) : Judged more kind outcome :=
  judged.imp_right fun ⟨packet, member, kindOf, same⟩ => ⟨packet, within member, kindOf, same⟩

/-- The waiter of the current command is sent what its kind of acknowledgement says. -/
def CurrentJudged (packets : List Incoming) (s : Session) : Prop :=
  ∀ kind waiter, s.actor.pending? = some (kind, waiter) →
    ∀ outcome, (waiter, outcome) ∈ s.outcomes → Judged packets kind outcome

/-- A waiter with an outcome was pushed before. -/
theorem Placed.pushed_of_outcome {s : Session} (here : Placed s) {waiter : WaiterTx}
    {outcome : Except RunOutcome Unit} (member : (waiter, outcome) ∈ s.outcomes) :
    waiter < s.pushed := by
  have known : waiter ∈ s.answered ∨ waiter ∈ s.loop.heldWaiters := by
    unfold Session.outcomes at member
    split at member
    · next held sending =>
      rcases List.mem_cons.mp member with same | before
      · rw [sending, (Prod.mk.inj same).1]
        exact .inr List.mem_cons_self
      · exact .inl (List.mem_map_of_mem before)
    · exact .inl (List.mem_map_of_mem member)
  exact here.fresh waiter (known.imp_right .inr)

/-- A plain phase has no waiter. -/
theorem ActorPhase.pending_of_plain {phase : ActorPhase} (plain : phase.plain = true) :
    phase.pending? = none := by
  cases phase <;> first | rfl | simp [ActorPhase.plain] at plain

theorem CurrentJudged.actor {packets : List Incoming} {s next : Session} {label : ActorLabel}
    (here : CurrentJudged packets s) (placed : Placed s) (step : ActorStep s label next) :
    CurrentJudged packets next := by
  intro kind waiter pending outcome member
  rw [step.outcomes] at member
  cases step with
  | callAcked idle acked other =>
    -- The waiter is new.
    obtain ⟨-, rfl⟩ := Prod.mk.inj (Option.some.inj pending)
    exact absurd (placed.pushed_of_outcome member) (Nat.lt_irrefl _)
  | @callPlain call phase idle plain =>
    rw [ActorPhase.pending_of_plain plain] at pending
    exact nomatch pending
  | sendRequest actor isOpen sent => exact here kind waiter (actor ▸ pending) outcome member
  | refuseRequest actor => exact here kind waiter (actor ▸ pending) outcome member
  | _ => simp [Session.returns, ActorPhase.pending?] at pending

theorem CurrentJudged.loop {packets : List Incoming} {s next : Session} {label : LoopLabel}
    (here : CurrentJudged packets s) (placed : Placed s) (brought : Brought packets s)
    (stepped : s.loopStep label = some next) : CurrentJudged packets next := by
  intro kind waiter pending outcome member
  rw [(LoopStep.of_step stepped).frame.actor] at pending
  rcases Session.outcomes_loopStep stepped member with
    before | ⟨lost, -⟩ | ⟨-, packet, onWire, passes, queue, kindOf, queued, said⟩
  · exact here kind waiter pending outcome before
  · exact .inl lost
  · -- Only the queue of the current command can hold its waiter.
    have own : queue = kind := by
      by_contra different
      rw [placed.queue_eq_nil_of_ne pending different] at queued
      exact nomatch queued
    exact .inr ⟨packet, brought.wire packet onWire passes, own ▸ kindOf, said⟩

theorem currentJudged {labels : List Label} {s : Session}
    (ran : system.run .connected labels = some s) : CurrentJudged (packetsOf labels) s := by
  refine TransitionSystem.run_history (fun labels s => CurrentJudged (packetsOf labels) s) ?_ ?_ ran
  · intro kind waiter pending
    exact nomatch pending
  · intro labels s label next earlier here stepped
    have within := packetsOf_subset_concat labels label
    have more : CurrentJudged (packetsOf (labels ++ [label])) s := fun kind waiter pending outcome member =>
      (here kind waiter pending outcome member).mono within
    have placed := placed (reaches_of_schedule earlier)
    cases Step.of_step stepped with
    | actor step => exact more.actor placed step
    | loop step => exact more.loop placed ((brought earlier).mono within) stepped
    | broker live => exact more

/-! ## What a command returns -/

/-- The mode of the client after a command that returned this, and its outcome. -/
def Reply.shown : Reply → MqttMode × RunOutcome
  | .answered _ _ (.ok _) => (.connected, .ok [])
  | .answered _ _ (.error outcome) => (.connected, outcome)
  | .requestLost _ _ | .publishLost _ | .receiveLost => (.connected, networkError "connection_lost")
  | .published _ => (.connected, .ok [])
  | .received p => (.connected, .ok (receivePublishOk p))
  | .receiveTimedOut | .disconnectTimedOut => (.connected, timeoutError)
  | .farewell (.gotDisconnect d) => (.disconnected, .ok (receiveDisconnectOk d))
  | .farewell .disconnectLost => (.disconnected, networkError "connection_lost")
  | .farewell .disconnected => (.disconnected, .ok [])

theorem Reply.shown_answered (kind : AckKind) (waiter : WaiterTx) (outcome : Except RunOutcome Unit) :
    (Reply.answered kind waiter outcome).shown.1 = .connected := by
  cases outcome <;> rfl

/-- The acknowledgement that a command waits for. -/
def Call.ackKind? : Call → Option AckKind
  | .subscribe _ _ => some .sub
  | .publish .atLeastOnce _ _ => some .qos1
  | .publish .exactlyOnce _ _ => some .qos2
  | _ => none

/-- What a command may return if these are the packets that the broker sent. -/
inductive Answers (packets : List Incoming) : Call → Reply → Prop where
  | acked {call kind waiter outcome} (waits : call.ackKind? = some kind)
      (judged : Judged packets kind outcome) : Answers packets call (.answered kind waiter outcome)
  | unsent {call kind waiter} (waits : call.ackKind? = some kind) :
      Answers packets call (.requestLost kind waiter)
  | published {topic payload request} :
      Answers packets (.publish .atMostOnce topic payload) (.published request)
  | publishLost {topic payload request} :
      Answers packets (.publish .atMostOnce topic payload) (.publishLost request)
  | received {p} (sent : .publish p ∈ packets) : Answers packets .receivePublish (.received p)
  | receiveTimedOut : Answers packets .receivePublish .receiveTimedOut
  | receiveLost : Answers packets .receivePublish .receiveLost
  | disconnectTimedOut : Answers packets .receiveDisconnect .disconnectTimedOut
  | gotDisconnect {d} (sent : .disconnect d ∈ packets) :
      Answers packets .receiveDisconnect (.farewell (.gotDisconnect d))
  | disconnectLost : Answers packets .receiveDisconnect (.farewell .disconnectLost)
  | disconnected {call} (leaves : call = .disconnect ∨ call = .teardown) :
      Answers packets call (.farewell .disconnected)

/-- The actor's task is at work on a command, or on none. -/
inductive Serves (packets : List Incoming) : ActorPhase → Option Call → Prop where
  | idle : Serves packets .idle none
  | left : Serves packets .left none
  | waiting {phase call kind waiter} (pending : ActorPhase.pending? phase = some (kind, waiter))
      (waits : call.ackKind? = some kind) : Serves packets phase (some call)
  | publishing {topic payload request} :
      Serves packets (.publishing request) (some (.publish .atMostOnce topic payload))
  | receiving : Serves packets .receiving (some .receivePublish)
  | receivingDisconnect : Serves packets .receivingDisconnect (some .receiveDisconnect)
  | disconnecting {call} (leaves : call = .disconnect ∨ call = .teardown) :
      Serves packets .disconnecting (some call)
  | leaving {call farewell} (answers : Answers packets call (.farewell farewell)) :
      Serves packets (.leaving farewell) (some call)

theorem Answers.mono {packets more : List Incoming} {call : Call} {reply : Reply}
    (answers : Answers packets call reply) (within : packets ⊆ more) : Answers more call reply := by
  cases answers with
  | acked waits judged => exact .acked waits (judged.mono within)
  | received sent => exact .received (within sent)
  | gotDisconnect sent => exact .gotDisconnect (within sent)
  | unsent waits => exact .unsent waits
  | disconnected leaves => exact .disconnected leaves
  | published => exact .published
  | publishLost => exact .publishLost
  | receiveTimedOut => exact .receiveTimedOut
  | receiveLost => exact .receiveLost
  | disconnectTimedOut => exact .disconnectTimedOut
  | disconnectLost => exact .disconnectLost

theorem Serves.mono {packets more : List Incoming} {phase : ActorPhase} {current : Option Call}
    (serves : Serves packets phase current) (within : packets ⊆ more) : Serves more phase current := by
  cases serves with
  | idle => exact .idle
  | left => exact .left
  | waiting pending waits => exact .waiting pending waits
  | publishing => exact .publishing
  | receiving => exact .receiving
  | receivingDisconnect => exact .receivingDisconnect
  | disconnecting leaves => exact .disconnecting leaves
  | leaving answers => exact .leaving (answers.mono within)

/-- An idle task is at work on no command. -/
theorem Serves.of_idle {packets : List Incoming} {current : Option Call}
    (serves : Serves packets .idle current) : current = none := by
  cases serves with
  | idle => rfl
  | waiting pending => simp [ActorPhase.pending?] at pending

/-- A call sets the actor's task to work on it. -/
theorem Session.begin_serves (s : Session) (packets : List Incoming) (call : Call) :
    Serves packets (s.begin call).actor (some call) := by
  cases call with
  | subscribe qos topic => exact .waiting rfl rfl
  | publish qos topic payload =>
    cases qos with
    | atMostOnce => exact .publishing
    | atLeastOnce => exact .waiting rfl rfl
    | exactlyOnce => exact .waiting rfl rfl
  | receivePublish => exact .receiving
  | receiveDisconnect => exact .receivingDisconnect
  | disconnect => exact .disconnecting (.inl rfl)
  | teardown => exact .disconnecting (.inr rfl)

theorem Session.begin_replies (s : Session) (call : Call) : (s.begin call).replies = s.replies := by
  rcases s.begin_cases call with ⟨-, kind, request, -, begins⟩ | ⟨phase, -, begins⟩
  · rw [begins]
    rfl
  · rw [begins]

/-- A further step of the actor's task goes on with the current command, or returns
from it. -/
theorem ActorStep.answers {packets : List Incoming} {s next : Session} {label : ActorLabel}
    (step : ActorStep s label next) (further : ∀ call, label ≠ .call call) {current : Option Call}
    (serves : Serves packets s.actor current) (brought : Brought packets s)
    (judged : CurrentJudged packets s) :
    (next.replies = s.replies ∧ Serves packets next.actor current) ∨
      ∃ call reply, current = some call ∧ next.replies = s.replies ++ [reply] ∧
        Answers packets call reply ∧ Serves packets next.actor none ∧
        (next.actor.hasLeft = false → reply.shown.1 = .connected) := by
  cases step with
  | @callAcked call => exact absurd rfl (further call)
  | @callPlain call => exact absurd rfl (further call)
  | sendRequest actor isOpen sent =>
    rw [actor] at serves
    cases serves with
    | waiting pending waits => exact .inl ⟨rfl, .waiting (by exact pending) waits⟩
  | refuseRequest actor =>
    rw [actor] at serves
    cases serves with
    | waiting pending waits => exact .inl ⟨rfl, .waiting (by exact pending) waits⟩
  | sendPublish actor isOpen sent =>
    rw [actor] at serves
    cases serves with
    | publishing => exact .inr ⟨_, _, rfl, rfl, .published, .idle, fun _ => rfl⟩
    | waiting pending => exact nomatch pending
  | refusePublish actor =>
    rw [actor] at serves
    cases serves with
    | publishing => exact .inr ⟨_, _, rfl, rfl, .publishLost, .idle, fun _ => rfl⟩
    | waiting pending => exact nomatch pending
  | sendDisconnect actor isOpen sent =>
    rw [actor] at serves
    cases serves with
    | disconnecting leaves => exact .inl ⟨rfl, .leaving (.disconnected leaves)⟩
    | waiting pending => exact nomatch pending
  | refuseDisconnect actor closed =>
    rw [actor] at serves
    cases serves with
    | disconnecting leaves => exact .inl ⟨rfl, .leaving (.disconnected leaves)⟩
    | waiting pending => exact nomatch pending
  | pop actor =>
    rw [actor] at serves
    cases serves with
    | waiting pending waits =>
      obtain ⟨rfl, rfl⟩ := Prod.mk.inj (Option.some.inj pending)
      exact .inr ⟨_, _, rfl, rfl, .unsent waits, .idle, fun _ => rfl⟩
  | @wake kind waiter outcome actor resolved =>
    have sent := Session.mem_outcomes_of_lookup resolved
    have told := judged kind waiter (by rw [actor]; rfl) outcome sent
    rw [actor] at serves
    cases serves with
    | waiting pending waits =>
      obtain ⟨rfl, rfl⟩ := Prod.mk.inj (Option.some.inj pending)
      exact .inr ⟨_, _, rfl, rfl, .acked waits told, .idle, fun _ => Reply.shown_answered _ _ _⟩
  | recvPublish actor taken =>
    rw [actor] at serves
    have front := brought.messages _ (List.mem_append_left _
      ((Fifo.recv?_eq_some taken).1 ▸ List.mem_cons_self))
    cases serves with
    | receiving => exact .inr ⟨_, _, rfl, rfl, .received front, .idle, fun _ => rfl⟩
    | waiting pending => exact nomatch pending
  | recvLost actor empty dropped =>
    rw [actor] at serves
    cases serves with
    | receiving => exact .inr ⟨_, _, rfl, rfl, .receiveLost, .idle, fun _ => rfl⟩
    | waiting pending => exact nomatch pending
  | recvDisconnect actor taken =>
    rw [actor] at serves
    have front := brought.disconnects _ (List.mem_append_left _
      ((Fifo.recv?_eq_some taken).1 ▸ List.mem_cons_self))
    cases serves with
    | receivingDisconnect => exact .inl ⟨rfl, .leaving (.gotDisconnect front)⟩
    | waiting pending => exact nomatch pending
  | recvDisconnectLost actor dropped =>
    rw [actor] at serves
    cases serves with
    | receivingDisconnect => exact .inl ⟨rfl, .leaving .disconnectLost⟩
    | waiting pending => exact nomatch pending
  | timeoutPublish actor =>
    rw [actor] at serves
    cases serves with
    | receiving => exact .inr ⟨_, _, rfl, rfl, .receiveTimedOut, .idle, fun _ => rfl⟩
    | waiting pending => exact nomatch pending
  | timeoutDisconnect actor =>
    rw [actor] at serves
    cases serves with
    | receivingDisconnect => exact .inr ⟨_, _, rfl, rfl, .disconnectTimedOut, .idle, fun _ => rfl⟩
    | waiting pending => exact nomatch pending
  | drop actor =>
    rw [actor] at serves
    cases serves with
    | leaving answers => exact .inr ⟨_, _, rfl, rfl, answers, .left, nofun⟩
    | waiting pending => exact nomatch pending

/-! ## What a connection returns -/

/-- The calls of a schedule are those that returned, in the order of what they
returned, and the one at work. -/
structure Served (labels : List Label) (s : Session) (past : List Call) (current : Option Call) :
    Prop where
  calls : callsOf labels = past ++ current.toList
  answers : List.Forall₂ (Answers (packetsOf labels)) past s.replies
  serves : Serves (packetsOf labels) s.actor current
  /-- Nothing returns after a command that dropped the connection. -/
  lasting : ∀ reply ∈ s.replies.dropLast, reply.shown.1 = .connected
  present : s.actor.hasLeft = false → ∀ reply ∈ s.replies, reply.shown.1 = .connected

/-- A step of anything but the actor's task leaves the commands alone. -/
theorem Served.keeps {labels : List Label} {s next : Session} {past : List Call}
    {current : Option Call} (here : Served labels s past current) {label : Label}
    (quiet : label.call? = none) (actor : next.actor = s.actor) (replies : next.replies = s.replies) :
    Served (labels ++ [label]) next past current := by
  have within := packetsOf_subset_concat labels label
  constructor
  · rw [callsOf_concat, quiet, here.calls]
    exact List.append_nil _
  · rw [replies]
    exact here.answers.imp fun _ _ answers => answers.mono within
  · rw [actor]
    exact here.serves.mono within
  · rw [replies]
    exact here.lasting
  · rw [actor, replies]
    exact here.present

/-- A call is made only when no command is at work. -/
theorem Served.call {labels : List Label} {s next : Session} {past : List Call}
    {current : Option Call} (here : Served labels s past current) {call : Call}
    (stepped : s.actorStep (.call call) = some next) :
    Served (labels ++ [.actor (.call call)]) next past (some call) := by
  cases idle : s.actor with
  | idle =>
    simp only [Session.actorStep, idle, Option.some.injEq] at stepped
    subst stepped
    have none : current = none := (idle ▸ here.serves).of_idle
    have packets := packetsOf_actor labels (.call call)
    constructor
    · rw [callsOf_concat, here.calls, none]
      exact congrArg (· ++ [call]) (List.append_nil past)
    · rw [packets, s.begin_replies]
      exact here.answers
    · exact s.begin_serves _ call
    · rw [s.begin_replies]
      exact here.lasting
    · intro _
      rw [s.begin_replies]
      exact here.present (by rw [idle]; rfl)
  | _ => simp [Session.actorStep, idle] at stepped

/-- Any other step of the actor's task either goes on with its command or returns
from it. -/
theorem Served.actor {labels : List Label} {s next : Session} {past : List Call}
    {current : Option Call} (here : Served labels s past current)
    (reached : system.run .connected labels = some s) {label : ActorLabel}
    (step : ActorStep s label next) (further : ∀ call, label ≠ .call call) :
    ∃ past current, Served (labels ++ [.actor label]) next past current := by
  have packets := packetsOf_actor labels label
  have calls : callsOf (labels ++ [.actor label]) = callsOf labels := by
    have quiet : Label.call? (.actor label) = none := by
      cases label with
      | call call => exact absurd rfl (further call)
      | _ => rfl
    rw [callsOf_concat, quiet]
    exact List.append_nil _
  have aborted := (coherent (reaches_of_schedule reached)).aborted
  have present : s.actor.hasLeft = false := aborted ▸ (step.aborted aborted).1
  rcases step.answers further here.serves (brought reached) (currentJudged reached) with
    ⟨replies, serves⟩ | ⟨call, reply, rfl, replies, answers, serves, stays⟩
  · refine ⟨past, current, calls ▸ here.calls, ?_, packets ▸ serves, ?_, ?_⟩
    · rw [packets, replies]
      exact here.answers
    · rw [replies]
      exact here.lasting
    · intro _
      rw [replies]
      exact here.present present
  · refine ⟨past ++ [call], none, ?_, ?_, packets ▸ serves, ?_, ?_⟩
    · rw [calls, here.calls]
      exact (List.append_nil _).symm
    · rw [packets, replies]
      exact List.rel_append here.answers (.cons answers .nil)
    · rw [replies, List.dropLast_concat]
      exact here.present present
    · intro remains other member
      rw [replies] at member
      rcases List.mem_append.mp member with before | now
      · exact here.present present other before
      · rw [List.mem_singleton.mp now]
        exact stays remains

/-- Every schedule of a connection serves its commands one after another. -/
theorem served {labels : List Label} {s : Session} (ran : system.run .connected labels = some s) :
    ∃ past current, Served labels s past current := by
  refine TransitionSystem.run_history (fun labels s => ∃ past current, Served labels s past current)
    ⟨[], none, rfl, .nil, .idle, by simp [Session.connected], by simp [Session.connected]⟩ ?_ ran
  rintro labels s label next earlier ⟨past, current, here⟩ stepped
  cases Step.of_step stepped with
  | @actor label _ step =>
    by_cases begins : ∃ call, label = .call call
    · obtain ⟨call, rfl⟩ := begins
      exact ⟨past, some call, here.call stepped⟩
    · exact here.actor earlier step fun call same => begins ⟨call, same⟩
  | loop step =>
    have frame := step.frame
    exact ⟨past, current, here.keeps rfl frame.actor frame.replies⟩
  | broker live => exact ⟨past, current, here.keeps rfl rfl rfl⟩

end Ill.Mqtt
