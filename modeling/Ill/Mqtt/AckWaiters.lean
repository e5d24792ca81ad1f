import Ill.Mqtt.Steps

/-!
# Where a waiter is

Every pushed waiter is queued, held by the event loop, resolved, or popped,
and only the waiter of the current command is ever queued. So a waiter is
stranded only if its request is accepted between the draining of its queue and
the closing of the request channel.
-/

namespace Ill.Mqtt

open Base Actor.MqttClient

/-- The waiters that were sent an outcome. -/
def Session.answered (s : Session) : List WaiterTx := s.resolved.map Prod.fst

/-- The waiters taken off a queue that the event loop has yet to send an outcome. -/
def LoopPhase.heldWaiters : LoopPhase → List WaiterTx
  | .resolving waiter _ => [waiter]
  | .failing _ drained => drained
  | _ => []

/-- Where each pushed waiter is. -/
structure Placed (s : Session) : Prop where
  /-- A queue holds at most the waiter of the current command. -/
  queued : ∀ kind, s.waiters.queue kind = [] ∨
    ∃ waiter, s.actor.pending? = some (kind, waiter) ∧ s.waiters.queue kind = [waiter]
  unanswered : ∀ kind, ∀ waiter ∈ s.waiters.queue kind,
    waiter ∉ s.answered ∧ waiter ∉ s.loop.heldWaiters
  fresh : ∀ waiter, waiter ∈ s.answered ∨ waiter ∈ s.popped ∨ waiter ∈ s.loop.heldWaiters →
    waiter < s.pushed
  current : ∀ kind waiter, s.actor.pending? = some (kind, waiter) →
    waiter < s.pushed ∧ waiter ∉ s.popped
  settled : ∀ waiter < s.pushed, waiter ∈ s.answered ∨ waiter ∈ s.popped ∨
    waiter ∈ s.loop.heldWaiters ∨ ∃ kind, waiter ∈ s.waiters.queue kind

/-- Without a current waiter every queue is empty. -/
theorem Placed.queue_eq_nil {s : Session} (here : Placed s) (none : s.actor.pending? = none)
    (kind : AckKind) : s.waiters.queue kind = [] := by
  rcases here.queued kind with empty | ⟨waiter, pending, _⟩
  · exact empty
  · rw [none] at pending
    simp at pending

/-- Only the queue of the current waiter can be occupied. -/
theorem Placed.queue_eq_nil_of_ne {s : Session} (here : Placed s) {kind other : AckKind}
    {waiter : WaiterTx} (pending : s.actor.pending? = some (kind, waiter)) (different : other ≠ kind) :
    s.waiters.queue other = [] := by
  rcases here.queued other with empty | ⟨found, again, _⟩
  · exact empty
  · rw [pending] at again
    exact absurd (Prod.mk.inj (Option.some.inj again)).1.symm different

/-- What leaves the waiters and the current one alone keeps the places. -/
theorem Placed.keeps {s next : Session} (here : Placed s)
    (pending : next.actor.pending? = s.actor.pending?) (waiters : next.waiters = s.waiters)
    (pushed : next.pushed = s.pushed) (answered : next.answered = s.answered)
    (popped : next.popped = s.popped)
    (held : next.loop.heldWaiters = s.loop.heldWaiters) : Placed next := by
  constructor
  · rw [waiters, pending]
    exact here.queued
  · rw [waiters, answered, held]
    exact here.unanswered
  · rw [answered, popped, held, pushed]
    exact here.fresh
  · rw [pending, pushed, popped]
    exact here.current
  · rw [pushed, answered, popped, held, waiters]
    exact here.settled

/-- A new waiter is queued alone. -/
theorem Placed.pushWaiter {s : Session} (here : Placed s) (none : s.actor.pending? = none)
    (kind : AckKind) (request : Request) : Placed (s.pushWaiter kind request) := by
  have queues : ∀ other, (s.pushWaiter kind request).waiters.queue other =
      if other = kind then [s.pushed] else [] := by
    intro other
    simp only [Session.pushWaiter, Waiters.queue_setQueue, here.queue_eq_nil none, List.nil_append]
  constructor
  · intro other
    rw [queues]
    by_cases own : other = kind
    · right
      exact ⟨s.pushed, by rw [own]; rfl, if_pos own⟩
    · left
      exact if_neg own
  · intro other waiter member
    rw [queues] at member
    split at member
    · obtain rfl := List.mem_singleton.mp member
      have notYet := mt (here.fresh s.pushed) (Nat.lt_irrefl _)
      exact ⟨fun answered => notYet (Or.inl answered), fun held => notYet (Or.inr (Or.inr held))⟩
    · simp at member
  · intro waiter placed
    exact Nat.lt_succ_of_lt (here.fresh waiter placed)
  · intro other waiter pending
    obtain ⟨rfl, rfl⟩ := Prod.mk.inj (Option.some.inj pending)
    refine ⟨Nat.lt_succ_self _, fun again => ?_⟩
    exact Nat.lt_irrefl _ (here.fresh s.pushed (Or.inr (Or.inl again)))
  · intro waiter below
    rcases Nat.lt_succ_iff_lt_or_eq.mp below with before | rfl
    · rcases here.settled waiter before with answered | popped | held | ⟨other, member⟩
      · exact Or.inl answered
      · exact Or.inr (Or.inl popped)
      · exact Or.inr (Or.inr (Or.inl held))
      · rw [here.queue_eq_nil none] at member
        simp at member
    · right; right; right
      refine ⟨kind, ?_⟩
      rw [queues, if_pos rfl]
      exact List.mem_singleton.mpr rfl

/-- A command whose request was refused pops its own waiter, or finds the
queue drained. -/
theorem Placed.pop {s : Session} (here : Placed s) {kind : AckKind} {waiter : WaiterTx}
    (actor : s.actor = .popping kind waiter) {reply : Reply} :
    Placed (({ s with
      waiters := s.waiters.setQueue kind (s.waiters.queue kind).tail
      popped := s.popped ++ (s.waiters.queue kind).head?.toList }).returns reply) := by
  have pending : s.actor.pending? = some (kind, waiter) := by rw [actor]; rfl
  have queues : ∀ other, (s.waiters.setQueue kind (s.waiters.queue kind).tail).queue other = [] := by
    intro other
    rw [Waiters.queue_setQueue]
    split
    · rcases here.queued kind with empty | ⟨_, _, only⟩
      · rw [empty]
        rfl
      · rw [only]
        rfl
    · next different => exact here.queue_eq_nil_of_ne pending different
  have front : ∀ other ∈ (s.waiters.queue kind).head?.toList, other = waiter := by
    intro other member
    rcases here.queued kind with empty | ⟨only, again, single⟩
    · simp [empty] at member
    · rw [pending] at again
      rw [single] at member
      exact (List.mem_singleton.mp member).trans (Prod.mk.inj (Option.some.inj again)).2.symm
  constructor
  · intro other
    exact Or.inl (queues other)
  · intro other found member
    have nothing : found ∈ (s.waiters.setQueue kind (s.waiters.queue kind).tail).queue other := member
    rw [queues] at nothing
    simp at nothing
  · rintro found (answered | popped | held)
    · exact here.fresh found (Or.inl answered)
    · rcases List.mem_append.mp popped with before | now
      · exact here.fresh found (Or.inr (Or.inl before))
      · rw [front found now]
        exact (here.current kind waiter pending).1
    · exact here.fresh found (Or.inr (Or.inr held))
  · intro other found again
    simp [Session.returns, ActorPhase.pending?] at again
  · intro found below
    rcases here.settled found below with answered | popped | held | ⟨other, member⟩
    · exact Or.inl answered
    · exact Or.inr (Or.inl (List.mem_append_left _ popped))
    · exact Or.inr (Or.inr (Or.inl held))
    · right; left
      apply List.mem_append_right
      by_cases own : other = kind
      · rw [own] at member
        rcases here.queued kind with empty | ⟨only, _, single⟩
        · simp [empty] at member
        · rw [single] at member ⊢
          simpa using member
      · rw [here.queue_eq_nil_of_ne pending own] at member
        simp at member

/-- A command whose waiter was answered returns with every queue empty. -/
theorem Placed.wake {s : Session} (here : Placed s) {kind : AckKind} {waiter : WaiterTx}
    {outcome : Except RunOutcome Unit} (actor : s.actor = .awaiting kind waiter)
    (resolved : s.resolved.lookup waiter = some outcome) {reply : Reply} :
    Placed (s.returns reply) := by
  have pending : s.actor.pending? = some (kind, waiter) := by rw [actor]; rfl
  have answered : waiter ∈ s.answered := by
    by_contra absent
    have missing : s.resolved.lookup waiter = none := by
      rw [List.lookup_eq_none_iff]
      intro entry member
      rw [bne_iff_ne]
      rintro rfl
      exact absent (List.mem_map_of_mem member)
    rw [missing] at resolved
    simp at resolved
  have queues : ∀ other, s.waiters.queue other = [] := by
    intro other
    by_cases own : other = kind
    · rw [own]
      rcases here.queued kind with empty | ⟨only, again, single⟩
      · exact empty
      · rw [pending] at again
        obtain ⟨_, rfl⟩ := Prod.mk.inj (Option.some.inj again)
        exact absurd answered (here.unanswered kind waiter (by simp [single])).1
    · exact here.queue_eq_nil_of_ne pending own
  refine ⟨fun other => Or.inl (queues other), here.unanswered, here.fresh, ?_, here.settled⟩
  intro other found again
  simp [Session.returns, ActorPhase.pending?] at again

theorem Placed.actor {s next : Session} {label : ActorLabel} (here : Placed s)
    (step : ActorStep s label next) : Placed next := by
  cases step with
  | callAcked idle acked other =>
    refine here.pushWaiter ?_ _ _
    rw [idle]
    rfl
  | @callPlain call phase idle plain =>
    have nothing : phase.pending? = none := by
      cases phase <;> first | rfl | simp [ActorPhase.plain] at plain
    refine here.keeps ?_ rfl rfl rfl rfl rfl
    rw [idle]
    exact nothing
  | pop actor => exact here.pop actor
  | wake actor resolved => exact here.wake actor resolved
  | sendRequest actor | sendPublish actor | sendDisconnect actor | refuseRequest actor
  | refusePublish actor | refuseDisconnect actor | recvPublish actor | recvLost actor
  | recvDisconnect actor | recvDisconnectLost actor | timeoutPublish actor
  | timeoutDisconnect actor | drop actor =>
    refine here.keeps ?_ rfl rfl rfl rfl rfl
    rw [actor]
    rfl

/-- Taking every waiter off one queue into the hands of the event loop. -/
theorem Placed.take {s : Session} (here : Placed s) (empty : s.loop.heldWaiters = [])
    (kind : AckKind) {loop : LoopPhase} (held : loop.heldWaiters = s.waiters.queue kind)
    {wire : List Incoming} :
    Placed { s with wire, waiters := s.waiters.setQueue kind [], loop } := by
  have queues : ∀ other, (s.waiters.setQueue kind []).queue other = [] ∨
      other ≠ kind ∧ (s.waiters.setQueue kind []).queue other = s.waiters.queue other := by
    intro other
    rw [Waiters.queue_setQueue]
    by_cases own : other = kind
    · exact Or.inl (if_pos own)
    · exact Or.inr ⟨own, if_neg own⟩
  constructor
  · intro other
    rcases queues other with nothing | ⟨_, same⟩
    · exact Or.inl nothing
    · change (s.waiters.setQueue kind []).queue other = [] ∨ _
      rw [same]
      exact here.queued other
  · intro other waiter member
    have there : waiter ∈ (s.waiters.setQueue kind []).queue other := member
    rcases queues other with nothing | ⟨different, same⟩
    · simp [nothing] at there
    · rw [same] at there
      refine ⟨(here.unanswered other waiter there).1, fun taken => ?_⟩
      rw [held] at taken
      rcases here.queued other with nothing | ⟨_, pending, _⟩
      · simp [nothing] at there
      · rw [here.queue_eq_nil_of_ne pending (Ne.symm different)] at taken
        simp at taken
  · rintro waiter (answered | popped | taken)
    · exact here.fresh waiter (Or.inl answered)
    · exact here.fresh waiter (Or.inr (Or.inl popped))
    · rw [held] at taken
      rcases here.queued kind with nothing | ⟨only, pending, single⟩
      · simp [nothing] at taken
      · rw [single] at taken
        obtain rfl := List.mem_singleton.mp taken
        exact (here.current kind waiter pending).1
  · exact here.current
  · intro waiter below
    rcases here.settled waiter below with answered | popped | taken | ⟨other, member⟩
    · exact Or.inl answered
    · exact Or.inr (Or.inl popped)
    · simp [empty] at taken
    · by_cases own : other = kind
      · right; right; left
        rw [own] at member
        exact held ▸ member
      · right; right; right
        refine ⟨other, ?_⟩
        change waiter ∈ (s.waiters.setQueue kind []).queue other
        rwa [Waiters.queue_setQueue, if_neg own]

/-- Sending the first held waiter its outcome. -/
theorem Placed.answer {s : Session} (here : Placed s) {waiter : WaiterTx} {rest : List WaiterTx}
    (held : s.loop.heldWaiters = waiter :: rest) (outcome : Except RunOutcome Unit)
    {loop : LoopPhase} (left : loop.heldWaiters = rest) :
    Placed { s with resolved := (waiter, outcome) :: s.resolved, loop } := by
  have answered : ∀ other, other ∈ ((waiter, outcome) :: s.resolved).map Prod.fst ↔
      other = waiter ∨ other ∈ s.answered := fun other => List.mem_cons
  have holds : ∀ other, other ∈ s.loop.heldWaiters ↔ other = waiter ∨ other ∈ rest := by
    intro other
    rw [held]
    exact List.mem_cons
  refine ⟨here.queued, ?_, ?_, here.current, ?_⟩
  · intro kind other member
    obtain ⟨unanswered, free⟩ := here.unanswered kind other member
    rw [holds, not_or] at free
    refine ⟨fun found => ?_, fun found => free.2 (left ▸ found)⟩
    rcases (answered other).mp found with same | before
    · exact free.1 same
    · exact unanswered before
  · rintro other (found | popped | found)
    · rcases (answered other).mp found with same | before
      · exact here.fresh other (Or.inr (Or.inr ((holds other).mpr (Or.inl same))))
      · exact here.fresh other (Or.inl before)
    · exact here.fresh other (Or.inr (Or.inl popped))
    · exact here.fresh other (Or.inr (Or.inr ((holds other).mpr (Or.inr (left ▸ found)))))
  · intro other below
    rcases here.settled other below with before | popped | found | queued
    · exact Or.inl ((answered other).mpr (Or.inr before))
    · exact Or.inr (Or.inl popped)
    · rcases (holds other).mp found with same | later
      · exact Or.inl ((answered other).mpr (Or.inl same))
      · exact Or.inr (Or.inr (Or.inl (left ▸ later)))
    · exact Or.inr (Or.inr (Or.inr queued))

theorem Placed.loop {s next : Session} {label : LoopLabel} (here : Placed s)
    (step : LoopStep s label next) : Placed next := by
  cases step with
  | @acknowledge packet wire kind waiter rest outcome polling running live front queued =>
    have alone : rest = [] := by
      rcases here.queued kind with empty | ⟨only, _, single⟩
      · rw [empty] at queued
        simp at queued
      · rw [single] at queued
        exact (List.cons.inj queued).2.symm
    rw [alone] at queued ⊢
    have held : (LoopPhase.resolving waiter outcome).heldWaiters = s.waiters.queue kind :=
      queued.symm
    refine here.take ?_ kind held
    rw [polling]
    rfl
  | resolve resolving =>
    refine here.answer ?_ _ rfl
    rw [resolving]
    rfl
  | fail failing =>
    refine here.answer ?_ _ rfl
    rw [failing]
    rfl
  | drain failing =>
    refine here.take ?_ _ rfl
    rw [failing]
    rfl
  | cancel aborted suspended =>
    refine here.keeps rfl rfl rfl rfl rfl ?_
    cases phase : s.loop <;> first | rfl | simp [phase, LoopPhase.suspended] at suspended
  | request | ignore => exact here.keeps rfl rfl rfl rfl rfl rfl
  | publish phase | disconnect phase | failedAck phase | serverDisconnect phase
  | connectionError phase | publishLost phase | publishSent phase | disconnectLost phase | disconnectSent phase
  | returns phase | dropDisconnectTx phase | dropPublishTx phase | dropEventLoop phase =>
    refine here.keeps rfl rfl rfl rfl rfl ?_
    rw [phase]
    rfl

theorem placed {admits : Session → Label → Prop} {s : Session}
    (reached : system.Reachable admits s) : Placed s := by
  refine invariant_of_steps Placed ?_ ?_ ?_ ?_ reached
  · constructor <;> simp [Session.connected, ActorPhase.pending?, Session.answered,
      LoopPhase.heldWaiters]
  · intro s label next _ here _ step
    exact here.actor step
  · intro s label next _ here _ step
    exact here.loop step
  · intro s packet here
    exact here.keeps rfl rfl rfl rfl rfl rfl

/-! ## Stranded waiters -/

/-- Whether the event loop is past draining the queue of a kind for good. -/
def LoopPhase.drained (kind : AckKind) : LoopPhase → Bool
  | .failing queues _ => !queues.contains kind
  | .droppingDisconnectTx | .droppingPublishTx | .droppingEventLoop | .ended => true
  | _ => false

/-- The request cannot be sent, and the command goes on to pop the waiter. -/
def Session.PopsNext (s : Session) (waiter : WaiterTx) : Prop :=
  s.step (.actor .send) = none ∧
    ∃ labels ∈ [[Label.actor .refuse, .actor .pop], [.actor .pop]], ∃ next,
      system.run s labels = some next ∧ waiter ∈ next.popped

/-- Once the event loop has returned no command awaits a queued waiter, and
every waiter was resolved, or was popped because its request could not be
sent, or is about to be. -/
def NoneStranded (s : Session) : Prop :=
  s.loop = .ended →
    (∀ kind waiter, s.actor = .awaiting kind waiter →
      ∀ other, waiter ∉ s.waiters.queue other) ∧
    ∀ waiter < s.pushed, waiter ∈ s.answered ∨ waiter ∈ s.popped ∨ s.PopsNext waiter

/-- No request is accepted while its waiter is in a queue already drained. -/
def acceptsUndrained (s : Session) : Label → Bool
  | .actor .send =>
    match s.actor with
    | .requesting kind waiter _ =>
      !(s.waiters.queue kind).contains waiter || !s.loop.drained kind
    | _ => true
  | _ => true

/-- A command awaits a queued waiter only while its queue is yet to be drained. -/
def Undrained (s : Session) : Prop :=
  ∀ kind waiter, s.actor = .awaiting kind waiter → waiter ∈ s.waiters.queue kind →
    s.loop.drained kind = false

/-- An allowed request leaves its waiter undrained; nothing else starts to await. -/
theorem Undrained.actor {s next : Session} {label : ActorLabel}
    (admitted : acceptsUndrained s (.actor label) = true) (step : ActorStep s label next) :
    Undrained next := by
  intro kind waiter awaiting queued
  cases step with
  | sendRequest actor isOpen sent =>
    obtain ⟨rfl, rfl⟩ := ActorPhase.awaiting.inj awaiting
    have still : _ ∈ s.waiters.queue _ := queued
    simpa [acceptsUndrained, actor, still] using admitted
  | @callPlain call phase idle plain =>
    have waits : phase = .awaiting kind waiter := awaiting
    rw [waits] at plain
    simp [ActorPhase.plain] at plain
  | _ => simp [Session.pushWaiter, Session.returns] at awaiting

theorem Undrained.loop {s next : Session} {label : LoopLabel} (here : Undrained s)
    (coherent : Coherent s) (step : LoopStep s label next) : Undrained next := by
  intro kind waiter awaiting queued
  rw [step.frame.actor] at awaiting
  have running : s.aborted = false := by rw [coherent.aborted, awaiting]; rfl
  cases step with
  | request | ignore => exact here kind waiter awaiting queued
  | publish | disconnect | acknowledge | serverDisconnect | publishLost | publishSent | resolve =>
    rfl
  | failedAck | connectionError | disconnectLost | disconnectSent => cases kind <;> rfl
  | fail failing =>
    have undrained := here kind waiter awaiting queued
    rwa [failing] at undrained
  | @drain first queues failing =>
    have there : waiter ∈ (s.waiters.setQueue first []).queue kind := queued
    rw [Waiters.queue_setQueue] at there
    by_cases own : kind = first
    · simp [own] at there
    · rw [if_neg own] at there
      have undrained := here kind waiter awaiting there
      simpa [failing, LoopPhase.drained, own] using undrained
  | returns phase | dropDisconnectTx phase | dropPublishTx phase | dropEventLoop phase =>
    have undrained := here kind waiter awaiting queued
    simp [phase, LoopPhase.drained] at undrained
  | cancel aborted suspended => simp [aborted] at running

/-- The pop after a refused request takes the waiter of the command. -/
theorem Session.pop_of_single (s : Session) {kind : AckKind} {waiter : WaiterTx}
    (popping : s.actor = .popping kind waiter) (single : s.waiters.queue kind = [waiter]) :
    ∃ next, s.step (.actor .pop) = some next ∧ waiter ∈ next.popped := by
  refine ⟨_, by simp only [Session.step, Session.actorStep, Session.pop, popping]; rfl, ?_⟩
  change waiter ∈ s.popped ++ (s.waiters.queue kind).head?.toList
  rw [single]
  simp

/-- Once the event loop has ended, a queued waiter is awaited or about to be popped. -/
theorem Placed.popsNext {s : Session} (here : Placed s) (ended : s.loop = .ended)
    {kind : AckKind} {waiter : WaiterTx} (queued : waiter ∈ s.waiters.queue kind) :
    s.actor = .awaiting kind waiter ∨ s.PopsNext waiter := by
  rcases here.queued kind with empty | ⟨only, pending, single⟩
  · simp [empty] at queued
  · rw [single] at queued
    obtain rfl := List.mem_singleton.mp queued
    cases phase : s.actor with
    | awaiting current waiting =>
      rw [phase] at pending
      obtain ⟨rfl, rfl⟩ := Prod.mk.inj (Option.some.inj pending)
      exact Or.inl rfl
    | requesting current waiting request =>
      rw [phase] at pending
      obtain ⟨rfl, rfl⟩ := Prod.mk.inj (Option.some.inj pending)
      have closed : s.step (.actor .send) = none := by
        simp [Session.step, Session.actorStep, Session.send, Session.offer, phase, ended,
          LoopPhase.requestsOpen]
      have refused : s.step (.actor .refuse) = some { s with actor := .popping current waiting } := by
        simp [Session.step, Session.actorStep, Session.refuse, phase]
      obtain ⟨next, popped, gone⟩ :=
        Session.pop_of_single { s with actor := .popping current waiting } rfl single
      refine Or.inr ⟨closed, _, List.mem_cons_self, next, ?_, gone⟩
      simp [TransitionSystem.run, system, refused, popped]
    | popping current waiting =>
      rw [phase] at pending
      obtain ⟨rfl, rfl⟩ := Prod.mk.inj (Option.some.inj pending)
      have closed : s.step (.actor .send) = none := by
        simp [Session.step, Session.actorStep, Session.send, phase]
      obtain ⟨next, popped, gone⟩ := s.pop_of_single phase single
      refine Or.inr ⟨closed, [.actor .pop], by simp, next, ?_, gone⟩
      simp [TransitionSystem.run, system, popped]
    | _ => simp [phase, ActorPhase.pending?] at pending

/-- In every run in which no request is accepted after its waiter's queue was
drained, no waiter is stranded. -/
theorem none_stranded_of_accepted_undrained {s : Session}
    (reached : system.Reachable (fun s label => acceptsUndrained s label) s) :
    NoneStranded s := by
  have undrained : Undrained s := by
    refine invariant_of_steps Undrained ?_ ?_ ?_ ?_ reached
    · simp [Undrained, Session.connected]
    · intro s label next _ _ admitted step
      exact .actor admitted step
    · intro s label next prior here _ step
      exact here.loop (coherent prior) step
    · intro s packet here
      exact here
  have here := placed reached
  intro ended
  have unawaited : ∀ kind waiter, s.actor = .awaiting kind waiter →
      waiter ∉ s.waiters.queue kind := by
    intro kind waiter awaiting queued
    have open_ := undrained kind waiter awaiting queued
    simp [ended, LoopPhase.drained] at open_
  constructor
  · intro kind waiter awaiting other queued
    have pending : s.actor.pending? = some (kind, waiter) := by
      rw [awaiting]
      rfl
    by_cases own : other = kind
    · rw [own] at queued
      exact unawaited kind waiter awaiting queued
    · rw [here.queue_eq_nil_of_ne pending own] at queued
      simp at queued
  · intro waiter below
    rcases here.settled waiter below with answered | popped | held | ⟨kind, queued⟩
    · exact Or.inl answered
    · exact Or.inr (Or.inl popped)
    · simp [ended, LoopPhase.heldWaiters] at held
    · rcases here.popsNext ended queued with awaiting | pops
      · exact absurd queued (unawaited kind waiter awaiting)
      · exact Or.inr (Or.inr pops)

/-- A subscription starts and its request is accepted; the connection fails;
its waiter is answered and the event loop returns. -/
def answeredSchedule : List Label :=
  [.actor (.call (.subscribe .atMostOnce "t")), .actor .send, .loop (.pollError none)] ++
    List.replicate 8 (.loop .proceed)

theorem none_stranded_of_accepted_undrained_answered :
    ∃ s, system.runWhere acceptsUndrained .connected answeredSchedule = some s ∧
      s.loop = .ended ∧ NoneStranded s := by
  have facts : (system.runWhere acceptsUndrained .connected answeredSchedule).map
      (fun s => s.loop) = some .ended := rfl
  obtain ⟨s, ran, ended⟩ := Option.map_eq_some_iff.mp facts
  exact ⟨s, ran, ended, none_stranded_of_accepted_undrained (reachable_of_schedule ran)⟩

/-- A subscription that starts between the draining of its queue and the end of
the event loop. -/
def strandedSchedule : List Label :=
  [.loop (.pollError none), .loop .proceed, .actor (.call (.subscribe .atMostOnce "t")),
    .actor .send] ++ List.replicate 6 (.loop .proceed)

/-- A subscription whose request is accepted after its queue was drained awaits
a queued waiter after the event loop has returned. -/
theorem late_subscription_stranded : ¬ ∀ s, system.Reaches s → NoneStranded s := by
  intro safe
  have facts : (system.run .connected strandedSchedule).map
      (fun s => (s.loop, s.actor, s.waiters.queue .sub)) =
        some (.ended, .awaiting .sub 0, [0]) := rfl
  obtain ⟨s, ran, same⟩ := Option.map_eq_some_iff.mp facts
  obtain ⟨ended, rest⟩ := Prod.mk.inj same
  obtain ⟨awaiting, queued⟩ := Prod.mk.inj rest
  have free := (safe s (reaches_of_schedule ran) ended).1 .sub 0 awaiting .sub
  rw [queued] at free
  simp at free

end Ill.Mqtt
