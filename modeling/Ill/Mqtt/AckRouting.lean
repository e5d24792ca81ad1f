import Mathlib.Data.List.Nodup
import Ill.Mqtt.AckWaiters

/-!
# Whose acknowledgement a waiter gets

The event loop looks at no packet id: it hands an acknowledgement to the front
of the queue of its kind. Here a connection is run together with the ids, which
only the broker knows. If the broker acknowledges every accepted request at
most once and, for each kind, in request order, then every acknowledgement goes
to the waiter of the request it was sent for.
-/

namespace Ill.Mqtt

open Base Actor.MqttClient

/-! ## Packet ids -/

/-- An acknowledgement with the request its packet id stands for, named by the
waiter of the command that made it. -/
structure Ack where
  packet : Incoming
  request : WaiterTx
deriving DecidableEq

/-- Whether a packet is an acknowledgement. -/
def Incoming.isAck (packet : Incoming) : Bool := packet.ackKind?.isSome

/-- A poll fails on acknowledgements only. -/
theorem Incoming.isAck_of_failsPoll {packet : Incoming} (fails : packet.failsPoll = true) :
    packet.isAck = true := by
  cases packet <;> first | rfl | simp [failsPoll] at fails

theorem Incoming.isAck_of_kind {packet : Incoming} {kind : AckKind}
    (kindOf : packet.ackKind? = some kind) : packet.isAck = true := by
  rw [isAck, kindOf]
  rfl

/-- What the event loop computes from an acknowledgement. -/
def Incoming.ackOutcome : Incoming → Except RunOutcome Unit
  | .subAck codes => subackOutcome codes
  | .pubAck reason => pubackOutcome reason
  | _ => pubcompOutcome ()

/-- A connection with the requests and acknowledgements that were on it. -/
structure Routing where
  session : Session
  /-- The requests to acknowledge that the channel accepted, oldest first. -/
  accepted : List (AckKind × WaiterTx)
  /-- Every acknowledgement the broker sent, oldest first. -/
  sent : List Ack
  /-- The acknowledgements that no poll has taken. -/
  inFlight : List Ack
  /-- The waiters popped for an acknowledgement, each with what it was popped for. -/
  routed : List (WaiterTx × Ack)

inductive RoutingLabel where
  | actor (label : ActorLabel)
  | loop (label : LoopLabel)
  /-- The broker sends a packet; if it is an acknowledgement, for a request. -/
  | broker (packet : Incoming) (request : WaiterTx)
deriving DecidableEq

/-- The step of the connection alone. -/
def RoutingLabel.label : RoutingLabel → Label
  | .actor label => .actor label
  | .loop label => .loop label
  | .broker packet _ => .broker packet

/-- The waiter of a request to acknowledge that was not accepted. -/
def ActorPhase.unsent? : ActorPhase → Option (AckKind × WaiterTx)
  | .requesting kind waiter _ | .popping kind waiter => some (kind, waiter)
  | _ => none

/-- The request that is sent, if it is one to acknowledge. -/
def ActorPhase.requested : ActorPhase → List (AckKind × WaiterTx)
  | .requesting kind waiter _ => [(kind, waiter)]
  | _ => []

namespace Routing

def connected : Routing where
  session := .connected
  accepted := []
  sent := []
  inFlight := []
  routed := []

/-- The requests of a kind that the channel accepted. -/
def acceptedOf (r : Routing) (kind : AckKind) : List WaiterTx :=
  (r.accepted.filter fun entry => entry.1 = kind).map Prod.snd

/-- The requests of a kind that the broker has acknowledged. -/
def ackedOf (r : Routing) (kind : AckKind) : List WaiterTx :=
  (r.sent.filter fun ack => ack.packet.ackKind? = some kind).map Ack.request

/-- The ids as the connection takes a step. -/
def observe (r : Routing) (next : Session) : RoutingLabel → Routing
  | .actor .send =>
    { r with session := next, accepted := r.accepted ++ r.session.actor.requested }
  | .loop .pollPacket =>
    match r.session.wire.head?.bind Incoming.ackKind?, r.inFlight with
    | some kind, ack :: rest =>
      { r with
        session := next
        inFlight := rest
        routed := r.routed ++
          if ack.packet.failsPoll then []
          else ((r.session.waiters.queue kind).head?.map fun w => (w, ack)).toList }
    | _, _ => { r with session := next }
  | .broker packet request =>
    if packet.isAck then
      { r with
        session := next
        sent := r.sent ++ [⟨packet, request⟩]
        inFlight := r.inFlight ++ [⟨packet, request⟩] }
    else { r with session := next }
  | _ => { r with session := next }

def step (r : Routing) (label : RoutingLabel) : Option Routing :=
  (r.session.step label.label).map fun next => r.observe next label

end Routing

/-- All interleavings of one connection, with the ids. -/
def routing : TransitionSystem Routing RoutingLabel where
  initial r := r = .connected
  step := Routing.step

/-- The broker acknowledges only accepted requests, each at most once and those
of one kind in request order: the requests acknowledged are a subsequence of
those accepted. -/
def acksInOrder (r : Routing) : RoutingLabel → Bool
  | .broker packet request =>
    match packet.ackKind? with
    | some kind => (r.ackedOf kind ++ [request]).isSublist (r.acceptedOf kind)
    | none => true
  | _ => true

/-- Every waiter gets the acknowledgement of its own request. -/
structure RoutedByRequest (r : Routing) : Prop where
  /-- At most one waiter is queued. -/
  single : r.session.waiters.sub.length + r.session.waiters.qos1.length +
    r.session.waiters.qos2.length ≤ 1
  /-- An acknowledgement is handed to the waiter of the request it was sent for. -/
  own : ∀ waiter ack, (waiter, ack) ∈ r.routed → ack ∈ r.sent ∧ ack.request = waiter
  /-- A command returns what was computed from the acknowledgement of its own
  request, or that the connection was lost. -/
  answered : ∀ kind waiter outcome, .answered kind waiter outcome ∈ r.session.replies →
    (kind, waiter) ∈ r.accepted ∧
      ((∃ ack, (waiter, ack) ∈ r.routed ∧ ack.packet.ackKind? = some kind ∧
          outcome = ack.packet.ackOutcome) ∨
        outcome = Session.connectionLost ∧ ∀ ack, (waiter, ack) ∉ r.routed)
  /-- The pop after a failed send takes no other command's waiter. -/
  front : ∀ kind waiter, r.session.actor = .popping kind waiter →
    ∀ other ∈ (r.session.waiters.queue kind).head?, other = waiter

/-! ## The connection alone -/

/-- The ids leave the connection to itself: its steps are those it takes alone. -/
theorem Routing.step_eq_some {r next : Routing} {label : RoutingLabel}
    (stepped : r.step label = some next) : r.session.step label.label = some next.session := by
  obtain ⟨session, taken, rfl⟩ := Option.map_eq_some_iff.mp stepped
  rw [taken]
  congr 1
  cases label with
  | actor label => cases label <;> rfl
  | loop label =>
    cases label with
    | pollPacket =>
      simp only [observe]
      split <;> rfl
    | _ => rfl
  | broker packet request =>
    simp only [observe]
    split <;> rfl

/-- Every step that a connection takes alone it takes with the ids. -/
theorem Routing.step_of_session (r : Routing) {next : Session} (label : RoutingLabel)
    (stepped : r.session.step label.label = some next) :
    ∃ after, r.step label = some after ∧ after.session = next := by
  have taken : r.step label = some (r.observe next label) := by rw [step, stepped]; rfl
  refine ⟨_, taken, ?_⟩
  have same := step_eq_some taken
  rw [stepped] at same
  exact (Option.some.inj same).symm

theorem reaches_session {admits : Routing → RoutingLabel → Prop} {r : Routing}
    (reached : routing.Reachable admits r) : system.Reaches r.session := by
  refine reached.project Routing.session ?_ ?_
  · rintro r rfl
    rfl
  · intro r label next stepped
    exact ⟨label.label, Routing.step_eq_some stepped⟩

/-! ## What a step can do -/

/-- The acknowledgements on the wire are those in flight. -/
def Aligned (r : Routing) : Prop :=
  r.session.wire.filter Incoming.isAck = r.inFlight.map Ack.packet

/-- A poll fails on the front packet or hands it to its arm. -/
theorem Session.pollPacket_eq_some {s next : Session} (stepped : s.pollPacket = some next) :
    s.loop = .polling ∧ s.live = true ∧ ∃ packet wire, s.wire = packet :: wire ∧
      ((packet.failsPoll = true ∧ next = ({ s with wire, live := false }).failAll) ∨
        (packet.failsPoll = false ∧ next = ({ s with wire }).dispatch packet)) := by
  unfold pollPacket at stepped
  split at stepped
  · next enabled =>
    obtain ⟨able, live⟩ := (Bool.and_eq_true _ _).mp enabled
    obtain ⟨polling, _⟩ := Session.canPoll_iff.mp able
    split at stepped
    · next packet wire front =>
      refine ⟨polling, live, packet, wire, front, ?_⟩
      split at stepped
      · next fails => exact .inl ⟨fails, (Option.some.inj stepped).symm⟩
      · next passes => exact .inr ⟨Bool.not_eq_true _ ▸ passes, (Option.some.inj stepped).symm⟩
    · simp at stepped
  · simp at stepped

/-- The arms of the acknowledgements differ in the queue and in the outcome. -/
theorem Session.dispatch_of_ack (s : Session) {packet : Incoming} {kind : AckKind}
    (ack : packet.ackKind? = some kind) : s.dispatch packet = s.acknowledge kind packet.ackOutcome := by
  cases packet <;> simp only [Incoming.ackKind?, Option.some.injEq, reduceCtorEq] at ack <;>
    (subst ack; rfl)

/-- The other arms touch no waiter. -/
theorem Session.dispatch_of_plain (s : Session) {packet : Incoming} (plain : packet.isAck = false)
    (polling : s.loop = .polling) :
    ∃ loop live polled, s.dispatch packet = { s with loop, live, polled } ∧
      loop.suspended = true := by
  cases packet with
  | publish p => exact ⟨.sendingPublish p, s.live, s.polled ++ [p], rfl, rfl⟩
  | disconnect d => exact ⟨.sendingDisconnect d, false, s.polled, rfl, rfl⟩
  | other => exact ⟨s.loop, s.live, s.polled, rfl, by rw [polling]; rfl⟩
  | subAck codes | pubAck reason | pubComp => simp [Incoming.isAck, Incoming.ackKind?] at plain

/-- The steps of a connection with the ids. -/
inductive RoutingStep (r : Routing) : RoutingLabel → Routing → Prop where
  /-- The channel accepts a request to acknowledge. -/
  | accept {kind waiter request requests}
      (actor : r.session.actor = .requesting kind waiter request) :
      RoutingStep r (.actor .send) { r with
        session := { r.session with requests, actor := .awaiting kind waiter }
        accepted := r.accepted ++ [(kind, waiter)] }
  | actor {label next} (step : ActorStep r.session label next)
      (other : ∀ kind waiter, next.actor ≠ .awaiting kind waiter) :
      RoutingStep r (.actor label) { r with session := next }
  /-- An acknowledgement pops the front of its queue. -/
  | route {ack rest wire kind waiter others} (polling : r.session.loop = .polling)
      (front : r.session.wire = ack.packet :: wire) (flight : r.inFlight = ack :: rest)
      (kindOf : ack.packet.ackKind? = some kind)
      (queued : r.session.waiters.queue kind = waiter :: others) :
      RoutingStep r (.loop .pollPacket) { r with
        session := { r.session with
          wire
          waiters := r.session.waiters.setQueue kind others
          loop := .resolving waiter ack.packet.ackOutcome }
        inFlight := rest
        routed := r.routed ++ [(waiter, ack)] }
  /-- An acknowledgement finds its queue empty. -/
  | stray {ack rest wire kind} (polling : r.session.loop = .polling)
      (front : r.session.wire = ack.packet :: wire) (flight : r.inFlight = ack :: rest)
      (kindOf : ack.packet.ackKind? = some kind)
      (queued : r.session.waiters.queue kind = []) :
      RoutingStep r (.loop .pollPacket) { r with
        session := { r.session with wire }, inFlight := rest }
  /-- A poll fails on an acknowledgement. -/
  | failed {ack rest wire} (polling : r.session.loop = .polling)
      (front : r.session.wire = ack.packet :: wire) (flight : r.inFlight = ack :: rest)
      (fails : ack.packet.failsPoll = true) :
      RoutingStep r (.loop .pollPacket) { r with
        session := { r.session with
          wire, loop := .failing [.sub, .qos1, .qos2] [], live := false }
        inFlight := rest }
  /-- A poll hands out another packet. -/
  | packet {packet wire loop live polled} (polling : r.session.loop = .polling)
      (front : r.session.wire = packet :: wire) (plain : packet.isAck = false)
      (suspended : loop.suspended = true) :
      RoutingStep r (.loop .pollPacket) { r with
        session := { r.session with wire, loop, live, polled } }
  | loop {label next} (step : LoopStep r.session label next) (other : label ≠ .pollPacket) :
      RoutingStep r (.loop label) { r with session := next }
  | acked {packet request} (ack : packet.isAck = true) :
      RoutingStep r (.broker packet request) { r with
        session := { r.session with wire := r.session.wire ++ [packet] }
        sent := r.sent ++ [⟨packet, request⟩]
        inFlight := r.inFlight ++ [⟨packet, request⟩] }
  | told {packet request} (plain : packet.isAck = false) :
      RoutingStep r (.broker packet request) { r with
        session := { r.session with wire := r.session.wire ++ [packet] } }

theorem RoutingStep.of_actor {r : Routing} {label : ActorLabel} {next : Session}
    (stepped : r.session.step (.actor label) = some next) :
    RoutingStep r (.actor label) (r.observe next (.actor label)) := by
  have step := ActorStep.of_step stepped
  cases step with
  | @sendRequest kind waiter request requests actor isOpen sent =>
    have asked : r.session.actor.requested = [(kind, waiter)] := by rw [actor]; rfl
    simp only [Routing.observe, asked]
    exact .accept actor
  | sendPublish actor isOpen sent | sendDisconnect actor isOpen sent =>
    have asked : r.session.actor.requested = [] := by rw [actor]; rfl
    simp only [Routing.observe, asked, List.append_nil]
    refine .actor (.of_step stepped) fun kind waiter awaiting => ?_
    simp [Session.returns] at awaiting
  | @callPlain call phase idle plain =>
    refine .actor (.callPlain idle plain) fun kind waiter awaiting => ?_
    rw [show phase = .awaiting kind waiter from awaiting] at plain
    simp [ActorPhase.plain] at plain
  | _ =>
    refine .actor (.of_step stepped) fun kind waiter awaiting => ?_
    simp [Session.returns, Session.pushWaiter] at awaiting

theorem RoutingStep.of_pollPacket {r : Routing} (aligned : Aligned r) {next : Session}
    (stepped : r.session.pollPacket = some next) :
    RoutingStep r (.loop .pollPacket) (r.observe next (.loop .pollPacket)) := by
  obtain ⟨polling, _, packet, wire, front, polled⟩ := Session.pollPacket_eq_some stepped
  simp only [Routing.observe, front, List.head?_cons, Option.bind_some]
  rw [Aligned, front] at aligned
  rcases kindOf : packet.ackKind? with _ | kind
  · have plain : packet.isAck = false := by rw [Incoming.isAck, kindOf]; rfl
    rcases polled with ⟨fails, -⟩ | ⟨-, rfl⟩
    · rw [Incoming.isAck_of_failsPoll fails] at plain
      simp at plain
    · obtain ⟨loop, live, polled, same, suspended⟩ :=
        ({ r.session with wire }).dispatch_of_plain plain polling
      rw [same]
      exact .packet polling front plain suspended
  · rw [List.filter_cons_of_pos (Incoming.isAck_of_kind kindOf)] at aligned
    rcases flight : r.inFlight with _ | ⟨ack, rest⟩
    · simp [flight] at aligned
    · rw [flight, List.map_cons] at aligned
      obtain ⟨rfl, _⟩ := List.cons.inj aligned
      rcases polled with ⟨fails, rfl⟩ | ⟨passes, rfl⟩
      · simp only [fails, if_true, List.append_nil]
        exact .failed polling front flight fails
      · simp only [passes, Bool.false_eq_true, if_false]
        rw [Session.dispatch_of_ack _ kindOf]
        rcases queued : r.session.waiters.queue kind with _ | ⟨waiter, others⟩
        · have ignored : ({ r.session with wire }).acknowledge kind ack.packet.ackOutcome =
              { r.session with wire } := by
            simp only [Session.acknowledge, queued]
          rw [ignored]
          simp only [List.head?_nil, Option.map_none, Option.toList_none, List.append_nil]
          exact .stray polling front flight kindOf queued
        · have popped : ({ r.session with wire }).acknowledge kind ack.packet.ackOutcome =
              { r.session with
                wire
                waiters := r.session.waiters.setQueue kind others
                loop := .resolving waiter ack.packet.ackOutcome } := by
            simp only [Session.acknowledge, queued]
          rw [popped]
          simp only [List.head?_cons, Option.map_some, Option.toList_some]
          exact .route polling front flight kindOf queued

/-- A step with the ids is one of these. -/
theorem RoutingStep.of_step {r next : Routing} {label : RoutingLabel} (aligned : Aligned r)
    (stepped : r.step label = some next) : RoutingStep r label next := by
  obtain ⟨session, taken, rfl⟩ := Option.map_eq_some_iff.mp stepped
  cases label with
  | actor label => exact .of_actor taken
  | loop label =>
    cases label with
    | pollPacket => exact .of_pollPacket aligned taken
    | _ => exact .loop (.of_step taken) (by simp)
  | broker packet request =>
    simp only [RoutingLabel.label, Session.step] at taken
    split at taken
    · obtain rfl := Option.some.inj taken
      simp only [Routing.observe]
      split
      · next ack => exact .acked ack
      · next plain => exact .told (Bool.not_eq_true _ ▸ plain)
    · simp at taken

/-- Only a poll takes a packet. -/
theorem LoopStep.wire_of_ne {s next : Session} {label : LoopLabel} (step : LoopStep s label next)
    (other : label ≠ .pollPacket) : next.wire = s.wire := by
  cases step with
  | publish | disconnect | acknowledge | ignore | failedAck => exact absurd rfl other
  | _ => rfl

theorem RoutingStep.aligned {r next : Routing} {label : RoutingLabel} (step : RoutingStep r label next)
    (here : Aligned r) : Aligned next := by
  unfold Aligned at *
  cases step with
  | accept actor => exact here
  | actor step other =>
    rw [step.frame.wire]
    exact here
  | route polling front flight kindOf queued | stray polling front flight kindOf queued =>
    rw [front, flight, List.filter_cons_of_pos (Incoming.isAck_of_kind kindOf), List.map_cons] at here
    exact (List.cons.inj here).2
  | failed polling front flight fails =>
    rw [front, flight, List.filter_cons_of_pos (Incoming.isAck_of_failsPoll fails),
      List.map_cons] at here
    exact (List.cons.inj here).2
  | packet polling front plain suspended =>
    rw [front, List.filter_cons_of_neg (by simp [plain])] at here
    exact here
  | loop step other =>
    rw [step.wire_of_ne other]
    exact here
  | acked ack =>
    rw [List.filter_append, here, List.map_append, List.filter_cons_of_pos ack]
    rfl
  | told plain =>
    rw [List.filter_append, here, List.filter_cons_of_neg (by simp [plain])]
    exact List.append_nil _

/-- A step of the actor's task after which no acknowledgement is awaited pushes
a waiter, or leaves no other request to send, and takes at most its own waiter
off a queue. -/
theorem ActorStep.push_or_not {s next : Session} {label : ActorLabel} (step : ActorStep s label next)
    (other : ∀ kind waiter, next.actor ≠ .awaiting kind waiter) :
    (s.actor = .idle ∧ ∃ kind request, next = s.pushWaiter kind request) ∨
      (next.pushed = s.pushed ∧
        (∀ kind waiter, next.actor.unsent? = some (kind, waiter) →
          s.actor.unsent? = some (kind, waiter)) ∧
        (∀ kind waiter request, next.actor ≠ .requesting kind waiter request) ∧
          (next.waiters = s.waiters ∨
            (∃ kind waiter, s.actor = .popping kind waiter) ∧ next.actor.pending? = none)) := by
  cases step with
  | callAcked idle acked different => exact .inl ⟨idle, _, _, rfl⟩
  | @callPlain call phase idle plain =>
    refine .inr ⟨rfl, fun kind waiter unsent => ?_, fun kind waiter request requesting => ?_, .inl rfl⟩
    · cases phase <;> simp [ActorPhase.unsent?, ActorPhase.plain] at unsent plain
    · rw [show phase = .requesting kind waiter request from requesting] at plain
      simp [ActorPhase.plain] at plain
  | sendRequest actor isOpen sent => exact absurd rfl (other _ _)
  | refuseRequest actor => exact .inr ⟨rfl, by simp [actor, ActorPhase.unsent?], by simp, .inl rfl⟩
  | pop actor =>
    exact .inr ⟨rfl, by simp [Session.returns, ActorPhase.unsent?], by simp [Session.returns],
      .inr ⟨⟨_, _, actor⟩, rfl⟩⟩
  | _ =>
    exact .inr ⟨rfl, by simp [Session.returns, ActorPhase.unsent?], by simp [Session.returns], .inl rfl⟩

/-- A step after which the event loop still serves, other than a poll of a
packet, was taken by a serving loop and touches no queue. -/
theorem LoopStep.serves {s next : Session} {label : LoopLabel} (step : LoopStep s label next)
    (other : label ≠ .pollPacket) (serving : next.loop.serving = true) :
    s.loop.serving = true ∧ next.waiters = s.waiters := by
  cases step with
  | publish | disconnect | acknowledge | ignore | failedAck => exact absurd rfl other
  | request polling running taken => exact ⟨serving, rfl⟩
  | publishLost phase | publishSent phase | resolve phase =>
    rw [phase]
    exact ⟨rfl, rfl⟩
  | _ => simp [LoopPhase.serving] at serving

/-! ## What was accepted and acknowledged -/

namespace Routing

theorem mem_acceptedOf {r : Routing} {kind : AckKind} {waiter : WaiterTx} :
    waiter ∈ r.acceptedOf kind ↔ (kind, waiter) ∈ r.accepted := by
  simp [acceptedOf]

theorem mem_ackedOf {r : Routing} {kind : AckKind} {waiter : WaiterTx} :
    waiter ∈ r.ackedOf kind ↔
      ∃ ack ∈ r.sent, ack.packet.ackKind? = some kind ∧ ack.request = waiter := by
  simp [ackedOf, and_assoc]

theorem ackedOf_acked (r : Routing) (packet : Incoming) (request : WaiterTx) (kind : AckKind)
    {session : Session} {inFlight : List Ack} :
    ackedOf { r with session, sent := r.sent ++ [⟨packet, request⟩], inFlight } kind =
      r.ackedOf kind ++ if packet.ackKind? = some kind then [request] else [] := by
  rw [ackedOf, List.filter_append, List.map_append, ackedOf]
  split
  · next own => rw [List.filter_cons_of_pos (by simpa using own)]; rfl
  · next other => rw [List.filter_cons_of_neg (by simpa using other)]; rfl

end Routing

/-- The requests on record: each is accepted once, by the command that made it,
and acknowledged in order. -/
structure Recorded (r : Routing) : Prop where
  distinct : (r.accepted.map Prod.snd).Nodup
  fresh : ∀ entry ∈ r.accepted, entry.2 < r.session.pushed
  unsent : ∀ kind waiter, r.session.actor.unsent? = some (kind, waiter) →
    ∀ entry ∈ r.accepted, entry.2 ≠ waiter
  awaited : ∀ kind waiter, r.session.actor = .awaiting kind waiter → (kind, waiter) ∈ r.accepted
  acks : ∀ ack ∈ r.sent, ack.packet.isAck = true
  inOrder : ∀ kind, (r.ackedOf kind).Sublist (r.acceptedOf kind)

/-- A request has one kind. -/
theorem Recorded.kind_eq {r : Routing} (here : Recorded r) {kind other : AckKind}
    {waiter : WaiterTx} (first : (kind, waiter) ∈ r.accepted)
    (second : (other, waiter) ∈ r.accepted) : other = kind :=
  (Prod.mk.inj (List.inj_on_of_nodup_map here.distinct second first rfl)).1

/-- An acknowledged request was accepted. -/
theorem Recorded.accepted_of_acked {r : Routing} (here : Recorded r) {ack : Ack}
    (sent : ack ∈ r.sent) {kind : AckKind} (kindOf : ack.packet.ackKind? = some kind) :
    (kind, ack.request) ∈ r.accepted := by
  have acked := Routing.mem_ackedOf.mpr ⟨ack, sent, kindOf, rfl⟩
  exact Routing.mem_acceptedOf.mp ((here.inOrder kind).subset acked)

/-- A step that accepts and acknowledges nothing keeps the record. -/
theorem Recorded.keeps {r next : Routing} (here : Recorded r) (accepted : next.accepted = r.accepted)
    (sent : next.sent = r.sent) (pushed : r.session.pushed ≤ next.session.pushed)
    (unsent : ∀ kind waiter, next.session.actor.unsent? = some (kind, waiter) →
      ∀ entry ∈ r.accepted, entry.2 ≠ waiter)
    (awaiting : ∀ kind waiter, next.session.actor = .awaiting kind waiter →
      r.session.actor = .awaiting kind waiter) : Recorded next := by
  constructor
  · rw [accepted]
    exact here.distinct
  · rw [accepted]
    intro entry member
    exact Nat.lt_of_lt_of_le (here.fresh entry member) pushed
  · rw [accepted]
    exact unsent
  · rw [accepted]
    intro kind waiter waits
    exact here.awaited kind waiter (awaiting kind waiter waits)
  · rw [sent]
    exact here.acks
  · intro kind
    rw [Routing.ackedOf, Routing.acceptedOf, sent, accepted]
    exact here.inOrder kind

/-- The channel accepts a request for the first time. -/
theorem Recorded.accept {r : Routing} (here : Recorded r) {kind : AckKind} {waiter : WaiterTx}
    {request : Request} (actor : r.session.actor = .requesting kind waiter request)
    (pushed : waiter < r.session.pushed) {requests : Fifo Request requestChannelCap} :
    Recorded { r with
      session := { r.session with requests, actor := .awaiting kind waiter }
      accepted := r.accepted ++ [(kind, waiter)] } := by
  constructor
  · rw [List.map_append, List.nodup_append]
    refine ⟨here.distinct, List.nodup_singleton _, fun first member second last => ?_⟩
    obtain ⟨entry, inside, rfl⟩ := List.mem_map.mp member
    rw [List.map_singleton, List.mem_singleton] at last
    rw [last]
    exact here.unsent kind waiter (by rw [actor]; rfl) entry inside
  · intro entry member
    rcases List.mem_append.mp member with before | now
    · exact here.fresh entry before
    · obtain rfl := List.mem_singleton.mp now
      exact pushed
  · intro other found unsent
    simp [ActorPhase.unsent?] at unsent
  · intro other found awaiting
    obtain ⟨rfl, rfl⟩ := ActorPhase.awaiting.inj awaiting
    exact List.mem_append_right _ (List.mem_singleton.mpr rfl)
  · exact here.acks
  · intro other
    refine (here.inOrder other).trans ?_
    exact ((List.sublist_append_left _ _).filter _).map _

/-- The broker acknowledges the next request. -/
theorem Recorded.acked {r : Routing} (here : Recorded r) {packet : Incoming} {request : WaiterTx}
    (ack : packet.isAck = true) (admitted : acksInOrder r (.broker packet request) = true) :
    Recorded { r with
      session := { r.session with wire := r.session.wire ++ [packet] }
      sent := r.sent ++ [⟨packet, request⟩]
      inFlight := r.inFlight ++ [⟨packet, request⟩] } := by
  refine ⟨here.distinct, here.fresh, here.unsent, here.awaited, fun other member => ?_,
    fun kind => ?_⟩
  · rcases List.mem_append.mp member with before | now
    · exact here.acks other before
    · obtain rfl := List.mem_singleton.mp now
      exact ack
  · obtain ⟨own, kindOf⟩ := Option.isSome_iff_exists.mp ack
    rw [acksInOrder, kindOf] at admitted
    rw [Routing.ackedOf_acked, kindOf]
    change List.Sublist _ (r.acceptedOf kind)
    split
    · next same =>
      rw [← Option.some.inj same]
      exact List.isSublist_iff_sublist.mp admitted
    · rw [List.append_nil]
      exact here.inOrder kind

theorem RoutingStep.recorded {r next : Routing} {label : RoutingLabel}
    (step : RoutingStep r label next) (admitted : acksInOrder r label = true)
    (placed : Placed r.session) (here : Recorded r) : Recorded next := by
  cases step with
  | @accept kind waiter request requests actor =>
    exact here.accept actor (placed.current kind waiter (by rw [actor]; rfl)).1
  | actor step other =>
    rcases step.push_or_not other with ⟨_, kind, request, rfl⟩ | ⟨pushed, unsent, _⟩
    · refine here.keeps rfl rfl (Nat.le_succ _) ?_ (fun kind waiter waits => absurd waits (other _ _))
      intro kind waiter asked entry member
      obtain ⟨_, rfl⟩ := Prod.mk.inj (Option.some.inj asked)
      exact Nat.ne_of_lt (here.fresh entry member)
    · refine here.keeps rfl rfl (Nat.le_of_eq pushed.symm) ?_
        (fun kind waiter waits => absurd waits (other _ _))
      intro kind waiter asked
      exact here.unsent kind waiter (unsent kind waiter asked)
  | loop step other =>
    refine here.keeps rfl rfl (Nat.le_of_eq step.frame.pushed.symm) ?_ ?_
    · intro kind waiter asked
      exact here.unsent kind waiter (step.frame.actor ▸ asked)
    · intro kind waiter waits
      exact step.frame.actor ▸ waits
  | acked ack => exact here.acked ack admitted
  | route | stray | failed | packet | told =>
    exact here.keeps rfl rfl (Nat.le_refl _) here.unsent fun _ _ waits => waits

/-! ## What is in flight -/

/-- While the event loop serves, an acknowledgement in flight is that of the
queued waiter, and every accepted request was acknowledged or has its waiter
queued. -/
structure Outstanding (r : Routing) : Prop where
  flight : r.inFlight = [] ∨ ∃ ack kind, r.inFlight = [ack] ∧ ack ∈ r.sent ∧
    ack.packet.ackKind? = some kind ∧ r.session.waiters.queue kind = [ack.request]
  unacked : ∀ kind waiter, (kind, waiter) ∈ r.accepted →
    waiter ∈ r.ackedOf kind ∨ waiter ∈ r.session.waiters.queue kind
  requesting : ∀ kind waiter request, r.session.actor = .requesting kind waiter request →
    waiter ∈ r.session.waiters.queue kind

/-- What leaves the queues and the ids alone keeps this. -/
theorem Outstanding.keeps {r : Routing} (here : Outstanding r) {session : Session}
    (waiters : session.waiters = r.session.waiters)
    (requesting : ∀ kind waiter request, session.actor = .requesting kind waiter request →
      r.session.actor = .requesting kind waiter request) : Outstanding { r with session } := by
  obtain ⟨flight, unacked, asked⟩ := here
  rw [← waiters] at flight unacked asked
  exact ⟨flight, unacked, fun kind waiter request again =>
    asked kind waiter request (requesting kind waiter request again)⟩

/-- Nothing is in flight while no waiter is queued. -/
theorem Outstanding.inFlight_eq_nil {r : Routing} (here : Outstanding r)
    (empty : ∀ kind, r.session.waiters.queue kind = []) : r.inFlight = [] := by
  rcases here.flight with nothing | ⟨ack, kind, _, _, _, queued⟩
  · exact nothing
  · rw [empty] at queued
    simp at queued

theorem Outstanding.pushWaiter {r : Routing} (here : Outstanding r) (placed : Placed r.session)
    (idle : r.session.actor = .idle) (kind : AckKind) (request : Request) :
    Outstanding { r with session := r.session.pushWaiter kind request } := by
  have empty : ∀ other, r.session.waiters.queue other = [] :=
    placed.queue_eq_nil (by rw [idle]; rfl)
  refine ⟨.inl (here.inFlight_eq_nil empty), fun other waiter accepted => ?_, ?_⟩
  · rcases here.unacked other waiter accepted with acked | queued
    · exact .inl acked
    · rw [empty] at queued
      simp at queued
  · intro other waiter asked requesting
    obtain ⟨rfl, rfl, _⟩ := ActorPhase.requesting.inj requesting
    change r.session.pushed ∈ (r.session.waiters.setQueue kind _).queue kind
    rw [Waiters.queue_setQueue, if_pos rfl]
    exact List.mem_append_right _ (List.mem_singleton.mpr rfl)

/-- An acknowledgement in flight that a poll takes is that of the waiter it pops. -/
theorem Outstanding.front {r : Routing} (here : Outstanding r) {ack : Ack} {rest : List Ack}
    (flight : r.inFlight = ack :: rest) {kind : AckKind} (kindOf : ack.packet.ackKind? = some kind) :
    rest = [] ∧ ack ∈ r.sent ∧ r.session.waiters.queue kind = [ack.request] := by
  rcases here.flight with nothing | ⟨only, own, single, sent, same, queued⟩
  · rw [nothing] at flight
    simp at flight
  · rw [flight] at single
    obtain ⟨rfl, rfl⟩ := List.cons.inj single
    obtain rfl := Option.some.inj (kindOf.symm.trans same)
    exact ⟨rfl, sent, queued⟩

theorem Outstanding.route {r : Routing} (here : Outstanding r) (recorded : Recorded r) {ack : Ack}
    {rest : List Ack} {wire : List Incoming} {kind : AckKind} {waiter : WaiterTx}
    {others : List WaiterTx} (flight : r.inFlight = ack :: rest)
    (kindOf : ack.packet.ackKind? = some kind)
    (queued : r.session.waiters.queue kind = waiter :: others) :
    Outstanding { r with
      session := { r.session with
        wire
        waiters := r.session.waiters.setQueue kind others
        loop := .resolving waiter ack.packet.ackOutcome }
      inFlight := rest
      routed := r.routed ++ [(waiter, ack)] } := by
  obtain ⟨rfl, sent, single⟩ := here.front flight kindOf
  rw [queued] at single
  obtain ⟨rfl, rfl⟩ := List.cons.inj single
  have stays : ∀ other found, found ∈ r.session.waiters.queue other →
      (other, found) = (kind, ack.request) ∨
        found ∈ (r.session.waiters.setQueue kind []).queue other := by
    intro other found member
    rw [Waiters.queue_setQueue]
    by_cases own : other = kind
    · rw [own, queued, List.mem_singleton] at member
      left
      rw [own, member]
    · right
      rwa [if_neg own]
  refine ⟨.inl rfl, fun other found accepted => ?_, fun other found request requesting => ?_⟩
  · rcases here.unacked other found accepted with acked | member
    · exact .inl acked
    · rcases stays other found member with own | still
      · obtain ⟨rfl, rfl⟩ := Prod.mk.inj own
        exact .inl (Routing.mem_ackedOf.mpr ⟨ack, sent, kindOf, rfl⟩)
      · exact .inr still
  · rcases stays other found (here.requesting other found request requesting) with own | still
    -- The broker does not acknowledge a request that is yet to be accepted.
    · obtain ⟨rfl, rfl⟩ := Prod.mk.inj own
      have accepted := recorded.accepted_of_acked sent kindOf
      exact absurd rfl (recorded.unsent _ _ (by rw [requesting]; rfl) _ accepted)
    · exact still

/-- A command whose request was refused takes its own waiter: with it no
acknowledgement is in flight, and no request is left to acknowledge. -/
theorem Outstanding.popped {r : Routing} (here : Outstanding r) (placed : Placed r.session)
    (recorded : Recorded r) {kind : AckKind} {waiter : WaiterTx}
    (popping : r.session.actor = .popping kind waiter) {session : Session}
    (done : session.actor.pending? = none) : Outstanding { r with session } := by
  have pending : r.session.actor.pending? = some (kind, waiter) := by rw [popping]; rfl
  have unsent := recorded.unsent kind waiter (by rw [popping]; rfl)
  -- The only waiter in a queue is that of a request that was not accepted.
  have alone : ∀ other found, (other, found) ∈ r.accepted →
      found ∉ r.session.waiters.queue other := by
    intro other found accepted queued
    rcases placed.queued other with empty | ⟨only, current, single⟩
    · rw [empty] at queued
      simp at queued
    · rw [single, List.mem_singleton] at queued
      rw [pending] at current
      obtain ⟨-, rfl⟩ := Prod.mk.inj (Option.some.inj current)
      exact unsent _ accepted queued
  refine ⟨?_, fun other found accepted => ?_, fun other found request requesting => ?_⟩
  · rcases here.flight with nothing | ⟨ack, other, _, sent, kindOf, queued⟩
    · exact .inl nothing
    · refine absurd ?_ (alone other ack.request (recorded.accepted_of_acked sent kindOf))
      rw [queued]
      exact List.mem_singleton_self _
  · exact .inl ((here.unacked other found accepted).resolve_right (alone other found accepted))
  · rw [show session.actor = .requesting other found request from requesting] at done
    simp [ActorPhase.pending?] at done

/-- The broker acknowledges only the request whose waiter is queued. -/
theorem Outstanding.acked {r : Routing} (here : Outstanding r) (placed : Placed r.session)
    (recorded : Recorded r) {packet : Incoming} {request : WaiterTx} (ack : packet.isAck = true)
    (admitted : acksInOrder r (.broker packet request) = true) :
    Outstanding { r with
      session := { r.session with wire := r.session.wire ++ [packet] }
      sent := r.sent ++ [⟨packet, request⟩]
      inFlight := r.inFlight ++ [⟨packet, request⟩] } := by
  obtain ⟨kind, kindOf⟩ := Option.isSome_iff_exists.mp ack
  rw [acksInOrder, kindOf] at admitted
  have ordered := List.isSublist_iff_sublist.mp admitted
  have distinct : (r.acceptedOf kind).Nodup := by
    have pairs : (r.accepted.map Prod.snd).Nodup := recorded.distinct
    exact pairs.sublist (List.filter_sublist.map _)
  have fresh : request ∉ r.ackedOf kind := by
    intro again
    have apart := (List.nodup_append.mp (distinct.sublist ordered)).2.2
    exact apart request again request (List.mem_singleton.mpr rfl) rfl
  have accepted : (kind, request) ∈ r.accepted :=
    Routing.mem_acceptedOf.mp (ordered.subset (List.mem_append_right _ (List.mem_singleton.mpr rfl)))
  have member : request ∈ r.session.waiters.queue kind :=
    (here.unacked kind request accepted).resolve_left fresh
  obtain ⟨pending, queued⟩ : r.session.actor.pending? = some (kind, request) ∧
      r.session.waiters.queue kind = [request] := by
    rcases placed.queued kind with empty | ⟨only, pending, single⟩
    · rw [empty] at member
      simp at member
    · rw [single, List.mem_singleton] at member
      rw [member]
      exact ⟨pending, single⟩
  have nothing : r.inFlight = [] := by
    rcases here.flight with empty | ⟨before, other, _, sent, same, single⟩
    · exact empty
    · by_cases own : other = kind
      · rw [own, queued] at single
        have repeated := (List.cons.inj single).1
        exact absurd (Routing.mem_ackedOf.mpr ⟨before, sent, own ▸ same, repeated.symm⟩) fresh
      · rw [placed.queue_eq_nil_of_ne pending own] at single
        simp at single
  refine ⟨.inr ⟨⟨packet, request⟩, kind, ?_, ?_, kindOf, queued⟩, fun other waiter found => ?_,
    here.requesting⟩
  · rw [nothing]
    rfl
  · exact List.mem_append_right _ (List.mem_singleton.mpr rfl)
  · rw [Routing.ackedOf_acked]
    exact (here.unacked other waiter found).imp (List.mem_append_left _) id

theorem RoutingStep.outstanding {r next : Routing} {label : RoutingLabel} (step : RoutingStep r label next)
    (admitted : acksInOrder r label = true) (placed : Placed r.session)
    (recorded : Recorded r) (here : r.session.loop.serving = true → Outstanding r)
    (serving : next.session.loop.serving = true) : Outstanding next := by
  cases step with
  | @accept kind waiter request requests actor =>
    obtain ⟨flight, unacked, asked⟩ := here serving
    refine ⟨flight, fun other found accepted => ?_, fun other found request requesting => ?_⟩
    · rcases List.mem_append.mp accepted with before | now
      · exact unacked other found before
      · obtain ⟨rfl, rfl⟩ := Prod.mk.inj (List.mem_singleton.mp now)
        exact .inr (asked _ _ _ actor)
    · simp at requesting
  | actor step other =>
    have before : r.session.loop.serving = true := by
      rw [← step.frame.loop]
      exact serving
    rcases step.push_or_not other with ⟨idle, kind, request, rfl⟩ | ⟨_, _, unrequested, waiters⟩
    · exact (here before).pushWaiter placed idle kind request
    · rcases waiters with same | ⟨⟨kind, waiter, popping⟩, done⟩
      · exact (here before).keeps same fun kind waiter request requesting =>
          absurd requesting (unrequested kind waiter request)
      · exact (here before).popped placed recorded popping done
  | route polling front flight kindOf queued =>
    exact (here (by rw [polling]; rfl)).route recorded flight kindOf queued
  | stray polling front flight kindOf queued =>
    have single := ((here (by rw [polling]; rfl)).front flight kindOf).2.2
    rw [queued] at single
    simp at single
  | failed => simp [LoopPhase.serving] at serving
  | packet polling front plain suspended =>
    exact (here (by rw [polling]; rfl)).keeps rfl fun _ _ _ requesting => requesting
  | loop step other =>
    obtain ⟨before, same⟩ := step.serves other serving
    refine (here before).keeps same fun kind waiter request requesting => ?_
    rw [← step.frame.actor]
    exact requesting
  | acked ack => exact (here serving).acked placed recorded ack admitted
  | told plain => exact (here serving).keeps rfl fun _ _ _ requesting => requesting

/-! ## What a waiter was sent -/

/-- An outcome is that of the acknowledgement a waiter was popped for, or tells
one popped for none that the connection is lost. -/
def AnsweredBy (r : Routing) (waiter : WaiterTx) (outcome : Except RunOutcome Unit) : Prop :=
  (∃ ack, (waiter, ack) ∈ r.routed ∧ outcome = ack.packet.ackOutcome) ∨
    outcome = Session.connectionLost ∧ ∀ ack, (waiter, ack) ∉ r.routed

/-- Where the outcomes come from. -/
structure Attributed (r : Routing) : Prop where
  own : ∀ waiter ack, (waiter, ack) ∈ r.routed → ack ∈ r.sent ∧ ack.request = waiter
  handed : ∀ waiter ack, (waiter, ack) ∈ r.routed →
    waiter ∈ r.session.answered ∨ waiter ∈ r.session.loop.heldWaiters
  resolving : ∀ waiter outcome, r.session.loop = .resolving waiter outcome →
    ∃ ack, (waiter, ack) ∈ r.routed ∧ outcome = ack.packet.ackOutcome
  draining : ∀ queues drained, r.session.loop = .failing queues drained →
    ∀ waiter ∈ drained, ∀ ack, (waiter, ack) ∉ r.routed
  resolved : ∀ waiter outcome, (waiter, outcome) ∈ r.session.resolved →
    AnsweredBy r waiter outcome
  replied : ∀ kind waiter outcome, .answered kind waiter outcome ∈ r.session.replies →
    (kind, waiter) ∈ r.accepted ∧ (waiter, outcome) ∈ r.session.resolved

/-- A queued waiter was popped for no acknowledgement. -/
theorem Attributed.unrouted {r : Routing} (here : Attributed r) (placed : Placed r.session)
    {kind : AckKind} {waiter : WaiterTx} (queued : waiter ∈ r.session.waiters.queue kind) (ack : Ack) :
    (waiter, ack) ∉ r.routed := by
  intro routed
  obtain ⟨unanswered, free⟩ := placed.unanswered kind waiter queued
  rcases here.handed waiter ack routed with answered | held
  · exact unanswered answered
  · exact free held

/-- The replies computed from an outcome are those of woken commands. -/
theorem ActorStep.answered {s next : Session} {label : ActorLabel} (step : ActorStep s label next)
    {kind : AckKind} {waiter : WaiterTx} {outcome : Except RunOutcome Unit}
    (replied : .answered kind waiter outcome ∈ next.replies) :
    .answered kind waiter outcome ∈ s.replies ∨
      s.actor = .awaiting kind waiter ∧ s.resolved.lookup waiter = some outcome := by
  cases step with
  | wake actor resolved =>
    rcases List.mem_append.mp replied with before | now
    · exact .inl before
    · obtain ⟨rfl, rfl, rfl⟩ := Reply.answered.inj (List.mem_singleton.mp now)
      exact .inr ⟨actor, resolved⟩
  | _ => exact .inl (by simpa [Session.returns, Session.pushWaiter] using replied)

theorem Attributed.actor {r : Routing} (here : Attributed r) (recorded : Recorded r)
    {label : ActorLabel} {next : Session} (step : ActorStep r.session label next) :
    Attributed { r with session := next } := by
  have frame := step.frame
  refine ⟨here.own, ?_, ?_, ?_, ?_, ?_⟩
  · intro waiter ack routed
    change waiter ∈ next.resolved.map Prod.fst ∨ waiter ∈ next.loop.heldWaiters
    rw [frame.resolved, frame.loop]
    exact here.handed waiter ack routed
  · intro waiter outcome loop
    exact here.resolving waiter outcome (frame.loop ▸ loop)
  · intro queues drained loop
    exact here.draining queues drained (frame.loop ▸ loop)
  · intro waiter outcome member
    exact here.resolved waiter outcome (frame.resolved ▸ member)
  · intro kind waiter outcome replied
    change _ ∧ _ ∈ next.resolved
    rw [frame.resolved]
    rcases step.answered replied with before | ⟨awaiting, found⟩
    · exact here.replied kind waiter outcome before
    · obtain ⟨first, last, split, _⟩ := List.lookup_eq_some_iff.mp found
      refine ⟨recorded.awaited kind waiter awaiting, ?_⟩
      rw [split]
      exact List.mem_append_right _ List.mem_cons_self

theorem Attributed.route {r : Routing} (here : Attributed r) (placed : Placed r.session)
    {ack : Ack} {rest : List Ack} {wire : List Incoming} {kind : AckKind}
    {waiter : WaiterTx} {others : List WaiterTx} (polling : r.session.loop = .polling)
    (sent : ack ∈ r.sent) (own : ack.request = waiter)
    (queued : r.session.waiters.queue kind = waiter :: others) :
    Attributed { r with
      session := { r.session with
        wire
        waiters := r.session.waiters.setQueue kind others
        loop := .resolving waiter ack.packet.ackOutcome }
      inFlight := rest
      routed := r.routed ++ [(waiter, ack)] } := by
  have member : waiter ∈ r.session.waiters.queue kind := by rw [queued]; exact List.mem_cons_self
  have unanswered := (placed.unanswered kind waiter member).1
  constructor
  · intro other found routed
    rcases List.mem_append.mp routed with before | now
    · exact here.own other found before
    · obtain ⟨rfl, rfl⟩ := Prod.mk.inj (List.mem_singleton.mp now)
      exact ⟨sent, own⟩
  · intro other found routed
    rcases List.mem_append.mp routed with before | now
    · rcases here.handed other found before with answered | held
      · exact .inl answered
      · rw [polling] at held
        simp [LoopPhase.heldWaiters] at held
    · obtain ⟨rfl, rfl⟩ := Prod.mk.inj (List.mem_singleton.mp now)
      exact .inr (List.mem_singleton.mpr rfl)
  · intro other outcome loop
    obtain ⟨rfl, rfl⟩ := LoopPhase.resolving.inj loop
    exact ⟨ack, List.mem_append_right _ (List.mem_singleton.mpr rfl), rfl⟩
  · intro queues drained loop
    simp at loop
  · intro other outcome resolved
    rcases here.resolved other outcome resolved with ⟨found, routed, same⟩ | ⟨lost, unrouted⟩
    · exact .inl ⟨found, List.mem_append_left _ routed, same⟩
    · refine .inr ⟨lost, fun found routed => ?_⟩
      rcases List.mem_append.mp routed with before | now
      · exact unrouted found before
      · obtain ⟨rfl, rfl⟩ := Prod.mk.inj (List.mem_singleton.mp now)
        exact unanswered (List.mem_map_of_mem resolved)
  · exact here.replied

/-- A step that pops no waiter and sends no outcome keeps this. -/
theorem Attributed.keeps {r next : Routing} (here : Attributed r) (routed : next.routed = r.routed)
    (accepted : r.accepted ⊆ next.accepted) (sent : r.sent ⊆ next.sent)
    (resolved : next.session.resolved = r.session.resolved)
    (replies : next.session.replies = r.session.replies)
    (held : next.session.loop.heldWaiters = r.session.loop.heldWaiters)
    (resolving : ∀ waiter outcome, next.session.loop = .resolving waiter outcome →
      r.session.loop = .resolving waiter outcome)
    (draining : ∀ queues drained, next.session.loop = .failing queues drained →
      drained = [] ∨ r.session.loop = .failing queues drained) : Attributed next := by
  constructor
  · intro waiter ack member
    rw [routed] at member
    exact (here.own waiter ack member).imp (fun before => sent before) id
  · intro waiter ack member
    rw [Session.answered, resolved, held]
    exact here.handed waiter ack (routed ▸ member)
  · intro waiter outcome loop
    rw [routed]
    exact here.resolving waiter outcome (resolving waiter outcome loop)
  · intro queues drained loop waiter member
    rw [routed]
    rcases draining queues drained loop with empty | same
    · simp [empty] at member
    · exact here.draining queues drained same waiter member
  · intro waiter outcome member
    rw [AnsweredBy, routed]
    exact here.resolved waiter outcome (resolved ▸ member)
  · intro kind waiter outcome member
    rw [resolved]
    exact (here.replied kind waiter outcome (replies ▸ member)).imp (fun before => accepted before) id

/-- Sending a held waiter its outcome. -/
theorem Attributed.answer {r : Routing} (here : Attributed r) {waiter : WaiterTx}
    {rest : List WaiterTx} (held : r.session.loop.heldWaiters = waiter :: rest)
    {outcome : Except RunOutcome Unit} (answers : AnsweredBy r waiter outcome) {loop : LoopPhase}
    (left : loop.heldWaiters = rest) (resolves : ∀ other found, loop ≠ .resolving other found)
    (drains : ∀ queues drained, loop = .failing queues drained →
      ∀ other ∈ drained, ∀ ack, (other, ack) ∉ r.routed) :
    Attributed { r with
      session := { r.session with resolved := (waiter, outcome) :: r.session.resolved, loop } } := by
  refine ⟨here.own, ?_, fun other found loop => absurd loop (resolves other found), drains, ?_, ?_⟩
  · intro other ack routed
    change other ∈ ((waiter, outcome) :: r.session.resolved).map Prod.fst ∨ other ∈ loop.heldWaiters
    rw [left, List.map_cons, List.mem_cons]
    rcases here.handed other ack routed with answered | member
    · exact .inl (.inr answered)
    · rw [held] at member
      rcases List.mem_cons.mp member with same | later
      · exact .inl (.inl same)
      · exact .inr later
  · intro other found member
    rcases List.mem_cons.mp member with now | before
    · obtain ⟨rfl, rfl⟩ := Prod.mk.inj now
      exact answers
    · exact here.resolved other found before
  · intro kind other found replied
    exact (here.replied kind other found replied).imp id (List.mem_cons_of_mem _)

/-- Draining a queue takes waiters that were popped for nothing. -/
theorem Attributed.drain {r : Routing} (here : Attributed r) (placed : Placed r.session)
    {kind : AckKind} {queues : List AckKind}
    (failing : r.session.loop = .failing (kind :: queues) []) :
    Attributed { r with
      session := { r.session with
        waiters := r.session.waiters.setQueue kind []
        loop := .failing queues (r.session.waiters.queue kind) } } := by
  refine ⟨here.own, ?_, fun waiter outcome loop => by simp at loop, ?_, here.resolved, here.replied⟩
  · intro waiter ack routed
    rcases here.handed waiter ack routed with answered | held
    · exact .inl answered
    · rw [failing] at held
      simp [LoopPhase.heldWaiters] at held
  · intro others drained loop waiter member
    obtain ⟨_, rfl⟩ := LoopPhase.failing.inj loop
    exact here.unrouted placed member

theorem Attributed.loop {r : Routing} (here : Attributed r) (placed : Placed r.session)
    {label : LoopLabel} {next : Session} (step : LoopStep r.session label next)
    (other : label ≠ .pollPacket) : Attributed { r with session := next } := by
  have same := fun {α : Type} (items : List α) => List.Subset.refl items
  cases step with
  | publish | disconnect | acknowledge | ignore | failedAck => exact absurd rfl other
  | @resolve waiter outcome resolving =>
    refine here.answer (by rw [resolving]; rfl) (.inl ?_) rfl (by simp) (by simp)
    exact here.resolving waiter outcome resolving
  | @fail queues waiter drained failing =>
    have unrouted := here.draining queues (waiter :: drained) failing
    refine here.answer (by rw [failing]; rfl) (.inr ⟨rfl, ?_⟩) rfl (by simp) ?_
    · exact unrouted waiter List.mem_cons_self
    · intro others rest loop found member
      obtain ⟨_, rfl⟩ := LoopPhase.failing.inj loop
      exact unrouted found (List.mem_cons_of_mem _ member)
  | drain failing => exact here.drain placed failing
  | request polling running taken =>
    exact here.keeps rfl (same _) (same _) rfl rfl rfl (fun _ _ loop => loop) fun _ _ loop => .inr loop
  | cancel aborted suspended =>
    refine here.keeps rfl (same _) (same _) rfl rfl ?_ (by simp) (by simp)
    cases phase : r.session.loop <;> first | rfl | simp [phase, LoopPhase.suspended] at suspended
  | serverDisconnect phase | connectionError phase | publishLost phase | publishSent phase
  | disconnectLost phase | disconnectSent phase | returns phase | dropDisconnectTx phase
  | dropPublishTx phase | dropEventLoop phase =>
    refine here.keeps rfl (same _) (same _) rfl rfl ?_ (by simp) (by simp)
    rw [phase]
    rfl

theorem RoutingStep.attributed {r next : Routing} {label : RoutingLabel}
    (step : RoutingStep r label next) (placed : Placed r.session) (recorded : Recorded r)
    (outstanding : r.session.loop.serving = true → Outstanding r) (here : Attributed r) : Attributed next := by
  cases step with
  | accept actor =>
    exact here.keeps rfl (List.subset_append_left _ _) (List.Subset.refl _) rfl rfl rfl
      (fun _ _ loop => loop) fun _ _ loop => .inr loop
  | actor step other => exact here.actor recorded step
  | route polling front flight kindOf queued =>
    obtain ⟨_, sent, single⟩ := (outstanding (by rw [polling]; rfl)).front flight kindOf
    rw [queued] at single
    exact here.route placed polling sent (List.cons.inj single).1.symm queued
  | failed polling =>
    refine here.keeps rfl (List.Subset.refl _) (List.Subset.refl _) rfl rfl ?_ (by simp) (by simp)
    rw [polling]
    rfl
  | packet polling front plain suspended =>
    rename_i packet wire loop live polled
    refine here.keeps rfl (List.Subset.refl _) (List.Subset.refl _) rfl rfl ?_ ?_ ?_
    · rw [polling]
      cases loop <;> first | rfl | simp [LoopPhase.suspended] at suspended
    · rintro waiter outcome rfl
      simp [LoopPhase.suspended] at suspended
    · rintro queues drained rfl
      simp [LoopPhase.suspended] at suspended
  | loop step other => exact here.loop placed step other
  | acked ack =>
    exact here.keeps rfl (List.Subset.refl _) (List.subset_append_left _ _) rfl rfl rfl
      (fun _ _ loop => loop) fun _ _ loop => .inr loop
  | stray | told =>
    exact here.keeps rfl (List.Subset.refl _) (List.Subset.refl _) rfl rfl rfl
      (fun _ _ loop => loop) fun _ _ loop => .inr loop

/-! ## Runs -/

/-- What every step keeps. -/
structure Matched (r : Routing) : Prop where
  aligned : Aligned r
  recorded : Recorded r
  outstanding : r.session.loop.serving = true → Outstanding r
  attributed : Attributed r

theorem matched_of_reachable {r : Routing}
    (reached : routing.Reachable (fun r label => acksInOrder r label) r) : Matched r := by
  refine reached.invariant ?_ ?_
  · rintro r rfl
    refine ⟨rfl, ?_, fun _ => ?_, ?_⟩
    · constructor <;> simp [Routing.connected, Session.connected, Routing.ackedOf]
    · constructor <;> simp [Routing.connected, Session.connected]
    · constructor <;> simp [Routing.connected, Session.connected]
  · intro r label next prior here admitted stepped
    have step := RoutingStep.of_step here.aligned stepped
    have placed := placed (reaches_session prior)
    exact ⟨step.aligned here.aligned, step.recorded admitted placed here.recorded,
      step.outstanding admitted placed here.recorded here.outstanding,
      step.attributed placed here.recorded here.outstanding here.attributed⟩

/-- At most one waiter is queued. -/
theorem Placed.single {s : Session} (here : Placed s) :
    s.waiters.sub.length + s.waiters.qos1.length + s.waiters.qos2.length ≤ 1 := by
  have lengths : ∀ kind waiter, s.actor.pending? = some (kind, waiter) →
      ∀ other, (s.waiters.queue other).length ≤ if other = kind then 1 else 0 := by
    intro kind waiter pending other
    split
    · rcases here.queued other with empty | ⟨only, _, single⟩
      · simp [empty]
      · simp [single]
    · next different => simp [here.queue_eq_nil_of_ne pending different]
  rcases current : s.actor.pending? with _ | ⟨kind, waiter⟩
  · have sub := here.queue_eq_nil current .sub
    have qos1 := here.queue_eq_nil current .qos1
    have qos2 := here.queue_eq_nil current .qos2
    simp only [Waiters.queue] at sub qos1 qos2
    simp [sub, qos1, qos2]
  · have sub := lengths kind waiter current .sub
    have qos1 := lengths kind waiter current .qos1
    have qos2 := lengths kind waiter current .qos2
    simp only [Waiters.queue] at sub qos1 qos2
    cases kind <;> simp only [reduceCtorEq, if_true, if_false] at sub qos1 qos2 <;> omega

/-- In every interleaving in which the broker acknowledges each accepted
request at most once and those of a kind in order, every waiter gets the
acknowledgement of its own request. -/
theorem routed_by_request {r : Routing}
    (reached : routing.Reachable (fun r label => acksInOrder r label) r) : RoutedByRequest r := by
  have placed := placed (reaches_session reached)
  obtain ⟨_, recorded, _, attributed⟩ := matched_of_reachable reached
  refine ⟨placed.single, attributed.own, ?_, ?_⟩
  · intro kind waiter outcome replied
    obtain ⟨accepted, resolved⟩ := attributed.replied kind waiter outcome replied
    refine ⟨accepted, ?_⟩
    rcases attributed.resolved waiter outcome resolved with ⟨ack, routed, same⟩ | lost
    · obtain ⟨sent, own⟩ := attributed.own waiter ack routed
      obtain ⟨other, kindOf⟩ := Option.isSome_iff_exists.mp (recorded.acks ack sent)
      have acked := recorded.accepted_of_acked sent kindOf
      rw [own] at acked
      obtain rfl := recorded.kind_eq accepted acked
      exact .inl ⟨ack, routed, kindOf, same⟩
    · exact .inr lost
  · intro kind waiter popping other front
    have pending : r.session.actor.pending? = some (kind, waiter) := by rw [popping]; rfl
    rcases placed.queued kind with empty | ⟨only, again, single⟩
    · simp [empty] at front
    · rw [pending] at again
      obtain ⟨_, rfl⟩ := Prod.mk.inj (Option.some.inj again)
      simpa [single] using front.symm

/-- Two publications at QoS 1 that are acknowledged, and between them one whose
topic the driver does not take, on the open channel. -/
def acknowledgedSchedule : List RoutingLabel :=
  [.actor (.call (.publish .atLeastOnce "t" [])), .actor .send, .broker (.pubAck .success) 0,
    .loop .pollPacket, .loop .proceed, .actor .wake,
    .actor (.call (.publish .atLeastOnce "t/#" [])), .actor .refuse, .actor .pop,
    .actor (.call (.publish .atLeastOnce "t" [])), .actor .send,
    .broker (.pubAck .noMatchingSubscribers) 2, .loop .pollPacket, .loop .proceed, .actor .wake]

theorem routed_by_request_acknowledged :
    ∃ r, routing.runWhere acksInOrder .connected acknowledgedSchedule = some r ∧
      r.session.popped = [1] ∧
      r.routed = [(0, ⟨.pubAck .success, 0⟩), (2, ⟨.pubAck .noMatchingSubscribers, 2⟩)] ∧
        RoutedByRequest r := by
  have facts : (routing.runWhere acksInOrder .connected acknowledgedSchedule).map
      (fun r => (r.session.popped, r.routed)) =
        some ([1], [(0, ⟨.pubAck .success, 0⟩), (2, ⟨.pubAck .noMatchingSubscribers, 2⟩)]) := rfl
  obtain ⟨r, ran, same⟩ := Option.map_eq_some_iff.mp facts
  obtain ⟨popped, routed⟩ := Prod.mk.inj same
  exact ⟨r, ran, popped, routed,
    routed_by_request (TransitionSystem.reachable_of_runWhere (.initial rfl) ran)⟩

end Ill.Mqtt
