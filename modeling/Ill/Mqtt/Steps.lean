import Ill.Mqtt.Session

/-!
# What a step can do

`ActorStep` and `LoopStep` say for each step of the two tasks what it requires
and what it leaves. They are the only place that looks into the step functions;
every invariant is proved from them.
-/

namespace Ill.Mqtt

open Base Actor.MqttClient

/-- The first phases of the commands that wait for no acknowledgement. -/
def ActorPhase.plain : ActorPhase → Bool
  | .publishing (.publish _ _ _) | .receiving | .receivingDisconnect | .disconnecting => true
  | _ => false

/-- The calls that push a waiter. -/
def Call.acked : Call → Bool
  | .subscribe _ _ => true
  | .publish .atMostOnce _ _ => false
  | .publish _ _ _ => true
  | _ => false

/-- A call either pushes a waiter or enters a plain phase. -/
theorem Session.begin_cases (s : Session) (call : Call) :
    (call.acked = true ∧ ∃ kind request, request ≠ .disconnect ∧
        s.begin call = s.pushWaiter kind request) ∨
      ∃ phase : ActorPhase, phase.plain = true ∧ s.begin call = { s with actor := phase } := by
  cases call with
  | subscribe qos topic => exact Or.inl ⟨rfl, _, _, by simp, rfl⟩
  | publish qos topic payload =>
    cases qos with
    | atMostOnce => exact Or.inr ⟨_, rfl, rfl⟩
    | atLeastOnce => exact Or.inl ⟨rfl, _, _, by simp, rfl⟩
    | exactlyOnce => exact Or.inl ⟨rfl, _, _, by simp, rfl⟩
  | receivePublish => exact Or.inr ⟨.receiving, rfl, rfl⟩
  | receiveDisconnect => exact Or.inr ⟨.receivingDisconnect, rfl, rfl⟩
  | disconnect => exact Or.inr ⟨.disconnecting, rfl, rfl⟩
  | teardown => exact Or.inr ⟨.disconnecting, rfl, rfl⟩

/-- The steps of the actor's task. -/
inductive ActorStep (s : Session) : ActorLabel → Session → Prop where
  | callAcked {call kind request} (idle : s.actor = .idle) (acked : call.acked = true)
      (other : request ≠ .disconnect) :
      ActorStep s (.call call) (s.pushWaiter kind request)
  | callPlain {call phase} (idle : s.actor = .idle) (plain : phase.plain = true) :
      ActorStep s (.call call) { s with actor := phase }
  | sendRequest {kind waiter request requests} (actor : s.actor = .requesting kind waiter request)
      (isOpen : s.loop.requestsOpen = true) (sent : s.requests.send? request = some requests) :
      ActorStep s .send { s with requests, actor := .awaiting kind waiter }
  | sendPublish {request requests} (actor : s.actor = .publishing request)
      (isOpen : s.loop.requestsOpen = true) (sent : s.requests.send? request = some requests) :
      ActorStep s .send (({ s with requests }).returns (.published request))
  | sendDisconnect {requests} (actor : s.actor = .disconnecting)
      (isOpen : s.loop.requestsOpen = true) (sent : s.requests.send? .disconnect = some requests) :
      ActorStep s .send { s with requests, actor := .leaving .disconnected }
  | refuseRequest {kind waiter request} (actor : s.actor = .requesting kind waiter request) :
      ActorStep s .refuse { s with actor := .popping kind waiter }
  | refusePublish {request} (actor : s.actor = .publishing request) :
      ActorStep s .refuse (s.returns (.publishLost request))
  | refuseDisconnect (actor : s.actor = .disconnecting) (closed : s.loop.requestsOpen = false) :
      ActorStep s .refuse { s with actor := .leaving .disconnected }
  | pop {kind waiter} (actor : s.actor = .popping kind waiter) :
      ActorStep s .pop (({ s with
        waiters := s.waiters.setQueue kind (s.waiters.queue kind).tail
        popped := s.popped ++ (s.waiters.queue kind).head?.toList }).returns
          (.requestLost kind waiter))
  | wake {kind waiter outcome} (actor : s.actor = .awaiting kind waiter)
      (resolved : s.resolved.lookup waiter = some outcome) :
      ActorStep s .wake (s.returns (.answered kind waiter outcome))
  | recvPublish {p publishInbox} (actor : s.actor = .receiving)
      (taken : s.publishInbox.recv? = some (p, publishInbox)) :
      ActorStep s .recv (({ s with publishInbox }).returns (.received p))
  | recvLost (actor : s.actor = .receiving) (empty : s.publishInbox.buffer = [])
      (dropped : s.loop.holdsPublishTx = false) : ActorStep s .recv (s.returns .receiveLost)
  | recvDisconnect {d disconnectInbox} (actor : s.actor = .receivingDisconnect)
      (taken : s.disconnectInbox.recv? = some (d, disconnectInbox)) :
      ActorStep s .recv { s with disconnectInbox, actor := .leaving (.gotDisconnect d) }
  | recvDisconnectLost (actor : s.actor = .receivingDisconnect)
      (dropped : s.loop.holdsDisconnectTx = false) :
      ActorStep s .recv { s with actor := .leaving .disconnectLost }
  | timeoutPublish (actor : s.actor = .receiving) :
      ActorStep s .timeout (s.returns .receiveTimedOut)
  | timeoutDisconnect (actor : s.actor = .receivingDisconnect) :
      ActorStep s .timeout (s.returns .disconnectTimedOut)
  | drop {farewell} (actor : s.actor = .leaving farewell) :
      ActorStep s .drop { s with
        actor := .left
        aborted := true
        replies := s.replies ++ [.farewell farewell]
        endedBefore := !s.loop.requestsOpen }

/-- An accepted offer. -/
theorem Session.offer_eq_some {s next : Session} {request : Request}
    (offered : s.offer request = some next) :
    s.loop.requestsOpen = true ∧ ∃ requests, s.requests.send? request = some requests ∧
      next = { s with requests } := by
  unfold offer at offered
  split at offered
  · next isOpen =>
    obtain ⟨requests, sent, same⟩ := Option.map_eq_some_iff.mp offered
    exact ⟨isOpen, requests, sent, same.symm⟩
  · simp at offered

theorem ActorStep.of_send {s next : Session} (stepped : s.send = some next) :
    ActorStep s .send next := by
  unfold Session.send at stepped
  split at stepped
  · next kind waiter request actor =>
    obtain ⟨middle, offered, rfl⟩ := Option.map_eq_some_iff.mp stepped
    obtain ⟨isOpen, requests, sent, rfl⟩ := Session.offer_eq_some offered
    exact .sendRequest actor isOpen sent
  · next request actor =>
    obtain ⟨middle, offered, rfl⟩ := Option.map_eq_some_iff.mp stepped
    obtain ⟨isOpen, requests, sent, rfl⟩ := Session.offer_eq_some offered
    exact .sendPublish actor isOpen sent
  · next actor =>
    obtain ⟨middle, offered, rfl⟩ := Option.map_eq_some_iff.mp stepped
    obtain ⟨isOpen, requests, sent, rfl⟩ := Session.offer_eq_some offered
    exact .sendDisconnect actor isOpen sent
  · simp at stepped

theorem ActorStep.of_refuse {s next : Session} (stepped : s.refuse = some next) :
    ActorStep s .refuse next := by
  unfold Session.refuse at stepped
  split at stepped
  · next kind waiter request actor =>
    obtain rfl := Option.some.inj stepped
    exact .refuseRequest actor
  · next request actor =>
    obtain rfl := Option.some.inj stepped
    exact .refusePublish actor
  · next actor =>
    split at stepped
    · simp at stepped
    · next closed =>
      obtain rfl := Option.some.inj stepped
      exact .refuseDisconnect actor (Bool.not_eq_true _ ▸ closed)
  · simp at stepped

theorem ActorStep.of_recv {s next : Session} (stepped : s.recv = some next) :
    ActorStep s .recv next := by
  unfold Session.recv at stepped
  split at stepped
  · next actor =>
    split at stepped
    · next p publishInbox taken =>
      obtain rfl := Option.some.inj stepped
      exact .recvPublish actor taken
    · next nothing =>
      split at stepped
      · simp at stepped
      · next dropped =>
        obtain rfl := Option.some.inj stepped
        exact .recvLost actor (Fifo.recv?_eq_none_iff.mp nothing) (Bool.not_eq_true _ ▸ dropped)
  · next actor =>
    split at stepped
    · next d disconnectInbox taken =>
      obtain rfl := Option.some.inj stepped
      exact .recvDisconnect actor taken
    · next nothing =>
      split at stepped
      · simp at stepped
      · next dropped =>
        obtain rfl := Option.some.inj stepped
        exact .recvDisconnectLost actor (Bool.not_eq_true _ ▸ dropped)
  · simp at stepped

/-- A step of the actor's task is one of these. -/
theorem ActorStep.of_step {s next : Session} {label : ActorLabel}
    (stepped : s.actorStep label = some next) : ActorStep s label next := by
  cases label with
  | call call =>
    simp only [Session.actorStep] at stepped
    split at stepped
    · next idle =>
      obtain rfl := Option.some.inj stepped
      rcases s.begin_cases call with ⟨acked, kind, request, other, begins⟩ | ⟨phase, plain, begins⟩
      · rw [begins]
        exact .callAcked idle acked other
      · rw [begins]
        exact .callPlain idle plain
    · simp at stepped
  | send => exact .of_send stepped
  | refuse => exact .of_refuse stepped
  | pop =>
    simp only [Session.actorStep, Session.pop] at stepped
    split at stepped
    · next kind waiter actor =>
      obtain rfl := Option.some.inj stepped
      exact .pop actor
    · simp at stepped
  | wake =>
    simp only [Session.actorStep, Session.wake] at stepped
    split at stepped
    · next kind waiter actor =>
      obtain ⟨outcome, resolved, rfl⟩ := Option.map_eq_some_iff.mp stepped
      exact .wake actor resolved
    · simp at stepped
  | recv => exact .of_recv stepped
  | timeout =>
    simp only [Session.actorStep, Session.timeout] at stepped
    split at stepped
    · next actor =>
      obtain rfl := Option.some.inj stepped
      exact .timeoutPublish actor
    · next actor =>
      obtain rfl := Option.some.inj stepped
      exact .timeoutDisconnect actor
    · simp at stepped
  | drop =>
    simp only [Session.actorStep, Session.drop] at stepped
    split at stepped
    · next farewell actor =>
      obtain rfl := Option.some.inj stepped
      exact .drop actor
    · simp at stepped

/-- The steps of the event-loop task. -/
inductive LoopStep (s : Session) : LoopLabel → Session → Prop where
  | request {request requests} (polling : s.loop = .polling) (running : s.aborted = false)
      (taken : s.requests.recv? = some (request, requests)) :
      LoopStep s .pollRequest { s with requests }
  | publish {p wire} (polling : s.loop = .polling) (running : s.aborted = false)
      (live : s.live = true) (front : s.wire = .publish p :: wire) :
      LoopStep s .pollPacket
        { s with wire, loop := .sendingPublish p, polled := s.polled ++ [p] }
  | disconnect {d wire} (polling : s.loop = .polling) (running : s.aborted = false)
      (live : s.live = true) (front : s.wire = .disconnect d :: wire) :
      LoopStep s .pollPacket { s with wire, loop := .sendingDisconnect d, live := false }
  | acknowledge {packet wire kind waiter rest outcome} (polling : s.loop = .polling)
      (running : s.aborted = false) (live : s.live = true) (front : s.wire = packet :: wire)
      (queued : s.waiters.queue kind = waiter :: rest) :
      LoopStep s .pollPacket
        { s with
          wire, waiters := s.waiters.setQueue kind rest, loop := .resolving waiter outcome }
  | ignore {packet wire} (polling : s.loop = .polling) (running : s.aborted = false)
      (live : s.live = true) (front : s.wire = packet :: wire) :
      LoopStep s .pollPacket { s with wire }
  | failedAck {packet wire} (polling : s.loop = .polling) (running : s.aborted = false)
      (live : s.live = true) (front : s.wire = packet :: wire) (fails : packet.failsPoll = true) :
      LoopStep s .pollPacket
        { s with wire, loop := .failing [.sub, .qos1, .qos2] [], live := false }
  | serverDisconnect {reasonCode} (polling : s.loop = .polling) (running : s.aborted = false) :
      LoopStep s (.pollError (some reasonCode))
        { s with loop := .sendingDisconnect ⟨reasonCode, none⟩, live := false }
  | connectionError (polling : s.loop = .polling) (running : s.aborted = false) :
      LoopStep s (.pollError none)
        { s with loop := .failing [.sub, .qos1, .qos2] [], live := false }
  | publishLost {p} (sending : s.loop = .sendingPublish p) (gone : s.actor.hasLeft = true) :
      LoopStep s .proceed { s with loop := .polling }
  | publishSent {p publishInbox} (sending : s.loop = .sendingPublish p)
      (present : s.actor.hasLeft = false) (sent : s.publishInbox.send? p = some publishInbox) :
      LoopStep s .proceed { s with publishInbox, loop := .polling }
  | disconnectLost {d} (sending : s.loop = .sendingDisconnect d) (gone : s.actor.hasLeft = true) :
      LoopStep s .proceed { s with loop := .failing [.sub, .qos1, .qos2] [] }
  | disconnectSent {d disconnectInbox} (sending : s.loop = .sendingDisconnect d)
      (present : s.actor.hasLeft = false)
      (sent : s.disconnectInbox.send? d = some disconnectInbox) :
      LoopStep s .proceed
        { s with disconnectInbox, loop := .failing [.sub, .qos1, .qos2] [] }
  | resolve {waiter outcome} (resolving : s.loop = .resolving waiter outcome) :
      LoopStep s .proceed
        { s with resolved := (waiter, outcome) :: s.resolved, loop := .polling }
  | fail {queues waiter drained} (failing : s.loop = .failing queues (waiter :: drained)) :
      LoopStep s .proceed
        { s with
          resolved := (waiter, Session.connectionLost) :: s.resolved
          loop := .failing queues drained }
  | drain {kind queues} (failing : s.loop = .failing (kind :: queues) []) :
      LoopStep s .proceed
        { s with
          waiters := s.waiters.setQueue kind [], loop := .failing queues (s.waiters.queue kind) }
  | returns (failing : s.loop = .failing [] []) :
      LoopStep s .proceed { s with loop := .droppingDisconnectTx }
  | dropDisconnectTx (dropping : s.loop = .droppingDisconnectTx) :
      LoopStep s .proceed { s with loop := .droppingPublishTx }
  | dropPublishTx (dropping : s.loop = .droppingPublishTx) :
      LoopStep s .proceed { s with loop := .droppingEventLoop }
  | dropEventLoop (dropping : s.loop = .droppingEventLoop) :
      LoopStep s .proceed { s with loop := .ended, live := false }
  | cancel (aborted : s.aborted = true) (suspended : s.loop.suspended = true) :
      LoopStep s .cancel { s with loop := .droppingDisconnectTx }

theorem Session.canPoll_iff {s : Session} :
    s.canPoll = true ↔ s.loop = .polling ∧ s.aborted = false := by
  unfold canPoll
  split
  · next polling => simp [polling]
  · next other => simpa using fun polling => absurd polling other

/-- An acknowledgement pops the front waiter of its queue or is ignored. -/
theorem LoopStep.of_acknowledge {s : Session} {packet : Incoming} {wire : List Incoming}
    (polling : s.loop = .polling) (running : s.aborted = false) (live : s.live = true)
    (front : s.wire = packet :: wire) (kind : AckKind) (outcome : Except RunOutcome Unit) :
    LoopStep s .pollPacket (({ s with wire }).acknowledge kind outcome) := by
  rcases queued : s.waiters.queue kind with _ | ⟨waiter, rest⟩
  · have ignored : ({ s with wire }).acknowledge kind outcome = { s with wire } := by
      simp only [Session.acknowledge, queued]
    rw [ignored]
    exact .ignore polling running live front
  · have popped : ({ s with wire }).acknowledge kind outcome =
        { s with
          wire, waiters := s.waiters.setQueue kind rest, loop := .resolving waiter outcome } := by
      simp only [Session.acknowledge, queued]
    rw [popped]
    exact .acknowledge polling running live front queued

theorem LoopStep.of_pollPacket {s next : Session} (stepped : s.pollPacket = some next) :
    LoopStep s .pollPacket next := by
  unfold Session.pollPacket at stepped
  split at stepped
  · next enabled =>
    obtain ⟨able, live⟩ := (Bool.and_eq_true _ _).mp enabled
    obtain ⟨polling, running⟩ := Session.canPoll_iff.mp able
    split at stepped
    · next packet wire front =>
      split at stepped
      · next fails =>
        obtain rfl := Option.some.inj stepped
        exact .failedAck polling running live front fails
      · obtain rfl := Option.some.inj stepped
        cases packet with
        | publish p => exact .publish polling running live front
        | disconnect d => exact .disconnect polling running live front
        | subAck codes => exact .of_acknowledge polling running live front _ _
        | pubAck reason => exact .of_acknowledge polling running live front _ _
        | pubComp => exact .of_acknowledge polling running live front _ _
        | other => exact .ignore polling running live front
    · simp at stepped
  · simp at stepped

theorem LoopStep.of_proceed {s next : Session} (stepped : s.proceed = some next) :
    LoopStep s .proceed next := by
  unfold Session.proceed at stepped
  split at stepped
  · simp at stepped
  · simp at stepped
  · next p sending =>
    split at stepped
    · next gone =>
      obtain rfl := Option.some.inj stepped
      exact .publishLost sending gone
    · next present =>
      obtain ⟨publishInbox, sent, rfl⟩ := Option.map_eq_some_iff.mp stepped
      exact .publishSent sending (Bool.not_eq_true _ ▸ present) sent
  · next d sending =>
    split at stepped
    · next gone =>
      obtain rfl := Option.some.inj stepped
      exact .disconnectLost sending gone
    · next present =>
      obtain ⟨disconnectInbox, sent, rfl⟩ := Option.map_eq_some_iff.mp stepped
      exact .disconnectSent sending (Bool.not_eq_true _ ▸ present) sent
  · next waiter outcome resolving =>
    obtain rfl := Option.some.inj stepped
    exact .resolve resolving
  · next queues waiter drained failing =>
    obtain rfl := Option.some.inj stepped
    exact .fail failing
  · next kind queues failing =>
    obtain rfl := Option.some.inj stepped
    exact .drain failing
  · next failing =>
    obtain rfl := Option.some.inj stepped
    exact .returns failing
  · next dropping =>
    obtain rfl := Option.some.inj stepped
    exact .dropDisconnectTx dropping
  · next dropping =>
    obtain rfl := Option.some.inj stepped
    exact .dropPublishTx dropping
  · next dropping =>
    obtain rfl := Option.some.inj stepped
    exact .dropEventLoop dropping

/-- A step of the event-loop task is one of these. -/
theorem LoopStep.of_step {s next : Session} {label : LoopLabel}
    (stepped : s.loopStep label = some next) : LoopStep s label next := by
  cases label with
  | pollRequest =>
    simp only [Session.loopStep, Session.pollRequest] at stepped
    split at stepped
    · next able =>
      obtain ⟨polling, running⟩ := Session.canPoll_iff.mp able
      obtain ⟨⟨request, requests⟩, taken, rfl⟩ := Option.map_eq_some_iff.mp stepped
      exact .request polling running taken
    · simp at stepped
  | pollPacket => exact .of_pollPacket stepped
  | pollError serverDisconnect =>
    simp only [Session.loopStep, Session.pollError] at stepped
    split at stepped
    · next able =>
      obtain ⟨polling, running⟩ := Session.canPoll_iff.mp able
      cases serverDisconnect with
      | some reasonCode =>
        obtain rfl := Option.some.inj stepped
        exact .serverDisconnect polling running
      | none =>
        obtain rfl := Option.some.inj stepped
        exact .connectionError polling running
    · simp at stepped
  | proceed => exact .of_proceed stepped
  | cancel =>
    simp only [Session.loopStep, Session.cancel] at stepped
    split at stepped
    · next enabled =>
      obtain ⟨aborted, suspended⟩ := (Bool.and_eq_true _ _).mp enabled
      obtain rfl := Option.some.inj stepped
      exact .cancel aborted suspended
    · simp at stepped

/-- The steps of the whole connection. -/
inductive Step (s : Session) : Label → Session → Prop where
  | actor {label next} (step : ActorStep s label next) : Step s (.actor label) next
  | loop {label next} (step : LoopStep s label next) : Step s (.loop label) next
  | broker {packet} (live : s.live = true) :
      Step s (.broker packet) { s with wire := s.wire ++ [packet] }

theorem Step.of_step {s next : Session} {label : Label} (stepped : s.step label = some next) :
    Step s label next := by
  cases label with
  | actor label => exact .actor (.of_step stepped)
  | loop label => exact .loop (.of_step stepped)
  | broker packet =>
    simp only [Session.step] at stepped
    split at stepped
    · next live =>
      obtain rfl := Option.some.inj stepped
      exact .broker live
    · simp at stepped

/-! ## What each task leaves alone -/

/-- The actor's task never touches the event loop's phase or the network. -/
structure ActorFrame (s next : Session) : Prop where
  loop : next.loop = s.loop
  live : next.live = s.live
  wire : next.wire = s.wire
  polled : next.polled = s.polled
  resolved : next.resolved = s.resolved

theorem ActorStep.frame {s next : Session} {label : ActorLabel} (step : ActorStep s label next) :
    ActorFrame s next := by
  cases step <;> exact ⟨rfl, rfl, rfl, rfl, rfl⟩

/-- The event-loop task never touches the current command or what it returned. -/
structure LoopFrame (s next : Session) : Prop where
  actor : next.actor = s.actor
  aborted : next.aborted = s.aborted
  pushed : next.pushed = s.pushed
  popped : next.popped = s.popped
  replies : next.replies = s.replies
  endedBefore : next.endedBefore = s.endedBefore

theorem LoopStep.frame {s next : Session} {label : LoopLabel} (step : LoopStep s label next) :
    LoopFrame s next := by
  cases step <;> exact ⟨rfl, rfl, rfl, rfl, rfl, rfl⟩

/-- The rule for invariants of a connection: they hold when it is accepted and
each task and the broker preserve them. -/
theorem invariant_of_steps {admits : Session → Label → Prop} (property : Session → Prop)
    (start : property .connected)
    (actor : ∀ s label next, system.Reachable admits s → property s → admits s (.actor label) →
      ActorStep s label next → property next)
    (loop : ∀ s label next, system.Reachable admits s → property s → admits s (.loop label) →
      LoopStep s label next → property next)
    (broker : ∀ s packet, property s → property { s with wire := s.wire ++ [packet] })
    {s : Session} (reached : system.Reachable admits s) : property s := by
  refine reached.invariant ?_ ?_
  · rintro s rfl
    exact start
  · intro s label next prior holds admitted stepped
    cases Step.of_step stepped with
    | actor step => exact actor s _ next prior holds admitted step
    | loop step => exact loop s _ next prior holds admitted step
    | broker live => exact broker s _ holds

/-! ## Aborted and live connections -/

/-- The phases of the event loop on a connection that has not failed. -/
def LoopPhase.serving : LoopPhase → Bool
  | .polling | .sendingPublish _ | .resolving _ _ => true
  | _ => false

/-- The event loop is aborted exactly when `Connected` was dropped, and serves
a live connection until then. -/
structure Coherent (s : Session) : Prop where
  aborted : s.aborted = s.actor.hasLeft
  serving : s.live = true → s.aborted = false → s.loop.serving = true

/-- Before its drop the actor's task is there, and only the drop aborts. -/
theorem ActorStep.aborted {s next : Session} {label : ActorLabel} (step : ActorStep s label next)
    (before : s.aborted = s.actor.hasLeft) :
    s.aborted = false ∧ next.aborted = next.actor.hasLeft := by
  have present : s.actor.hasLeft = false := by
    cases step <;> simp only [*, ActorPhase.hasLeft]
  rw [present] at before
  refine ⟨before, ?_⟩
  cases step with
  | callPlain idle plain =>
    rename_i phase
    cases phase <;> first | exact before | simp [ActorPhase.plain] at plain
  | drop actor => rfl
  | _ => exact before

/-- The event loop goes on serving while the connection stays live. -/
theorem LoopStep.serving {s next : Session} {label : LoopLabel} (step : LoopStep s label next)
    (served : s.loop.serving = true) (running : s.aborted = false) (live : next.live = true) :
    next.loop.serving = true := by
  cases step with
  | request | ignore => exact served
  | publish | acknowledge | publishLost | publishSent | resolve => rfl
  | disconnect | failedAck | serverDisconnect | connectionError | dropEventLoop => simp at live
  | disconnectLost sending | disconnectSent sending => simp [sending, LoopPhase.serving] at served
  | fail failing | drain failing | returns failing => simp [failing, LoopPhase.serving] at served
  | dropDisconnectTx dropping | dropPublishTx dropping =>
    simp [dropping, LoopPhase.serving] at served
  | cancel aborted => simp [aborted] at running

/-- No step of the event loop revives a connection. -/
theorem LoopStep.live {s next : Session} {label : LoopLabel} (step : LoopStep s label next)
    (live : next.live = true) : s.live = true := by
  cases step with
  | disconnect | failedAck | serverDisconnect | connectionError | dropEventLoop => simp at live
  | _ => exact live

theorem coherent {admits : Session → Label → Prop} {s : Session}
    (reached : system.Reachable admits s) : Coherent s := by
  refine invariant_of_steps Coherent ⟨rfl, fun _ _ => rfl⟩ ?_ ?_ ?_ reached
  · intro s label next _ here _ step
    obtain ⟨running, aborted⟩ := step.aborted here.aborted
    refine ⟨aborted, fun live _ => ?_⟩
    rw [step.frame.live] at live
    rw [step.frame.loop]
    exact here.serving live running
  · intro s label next _ here _ step
    refine ⟨?_, fun live running => ?_⟩
    · rw [step.frame.aborted, step.frame.actor]
      exact here.aborted
    · rw [step.frame.aborted] at running
      exact step.serving (here.serving (step.live live) running) running live
  · intro s packet here
    exact ⟨here.aborted, here.serving⟩

end Ill.Mqtt
