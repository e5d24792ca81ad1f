import Ill.Mqtt.Steps

/-!
# What a disconnect flushes

`disconnect` and `teardown` place a DISCONNECT on the request channel and then
drop `Connected`, which stops the event loop. So what was accepted is written
exactly if the event loop has emptied the channel by then.
-/

namespace Ill.Mqtt

open Base Actor.MqttClient

/-- The request of a QoS 0 publish that returned ok. -/
def Reply.published? : Reply → Option Request
  | .published request => some request
  | _ => none

/-- The QoS 0 publishes that returned ok, in order. -/
def publishedRequests (replies : List Reply) : List Request := replies.filterMap Reply.published?

theorem publishedRequests_append (replies : List Reply) (reply : Reply) :
    publishedRequests (replies ++ [reply]) =
      publishedRequests replies ++ reply.published?.toList := by
  cases reply <;> simp [publishedRequests, Reply.published?]

/-- Every QoS 0 publish that returned ok and the DISCONNECT were taken off the
request channel and written, in this order. -/
def Flushed (s : Session) : Prop :=
  (publishedRequests s.replies ++ [Request.disconnect]).Sublist s.requests.delivered

/-- Once `disconnect` has returned everything is flushed, unless the event loop
had ended before. -/
def Graceful (s : Session) : Prop :=
  Reply.farewell .disconnected ∈ s.replies → Flushed s ∨ s.endedBefore = true

/-- The request a command is sending. -/
def ActorPhase.request? : ActorPhase → Option Request
  | .requesting _ _ request | .publishing request => some request
  | _ => none

/-- Whether a DISCONNECT was placed on the channel, as far as the phase tells. -/
def ActorPhase.disconnects : ActorPhase → Bool
  | .leaving .disconnected | .left => true
  | _ => false

/-- How what was returned and sent relates to the accepted requests. -/
structure Accepted (s : Session) : Prop where
  request : ∀ request, s.actor.request? = some request → request ≠ .disconnect
  published : (publishedRequests s.replies).Sublist s.requests.accepted
  early : s.actor.disconnects = false → Request.disconnect ∉ s.requests.accepted
  /-- The DISCONNECT is the last request. -/
  last : s.actor = .leaving .disconnected → s.loop.requestsOpen = false ∨
    ∃ before, s.requests.accepted = before ++ [.disconnect] ∧ Request.disconnect ∉ before ∧
      (publishedRequests s.replies).Sublist before
  left : Reply.farewell .disconnected ∈ s.replies → s.aborted = true

/-- The event loop has not ended while it takes steps. -/
theorem LoopStep.requestsOpen {s next : Session} {label : LoopLabel}
    (step : LoopStep s label next) : s.loop.requestsOpen = true := by
  cases step with
  | cancel aborted suspended =>
    cases phase : s.loop <;> simp [phase, LoopPhase.suspended, LoopPhase.requestsOpen] at suspended ⊢
  | request phase | publish phase | disconnect phase | acknowledge phase | ignore phase
  | failedAck phase | serverDisconnect phase | connectionError phase | publishLost phase | publishSent phase
  | disconnectLost phase | disconnectSent phase | resolve phase | fail phase | drain phase
  | returns phase | dropDisconnectTx phase | dropPublishTx phase | dropEventLoop phase =>
    rw [phase]
    rfl

/-- The event loop accepts no requests, and writes none once it is aborted. -/
theorem LoopStep.requests {s next : Session} {label : LoopLabel} (step : LoopStep s label next) :
    next.requests.accepted = s.requests.accepted ∧
      (s.aborted = true → next.requests = s.requests) := by
  cases step with
  | request polling running taken =>
    refine ⟨(Fifo.recv?_eq_some taken).2.1, fun aborted => ?_⟩
    rw [running] at aborted
    simp at aborted
  | _ => exact ⟨rfl, fun _ => rfl⟩

theorem Accepted.loop {s next : Session} {label : LoopLabel} (here : Accepted s)
    (step : LoopStep s label next) : Accepted next := by
  obtain ⟨actor, aborted, _, _, replies, _⟩ := step.frame
  obtain ⟨accepted, _⟩ := step.requests
  constructor
  · rw [actor]
    exact here.request
  · rw [replies, accepted]
    exact here.published
  · rw [actor, accepted]
    exact here.early
  · intro leaving
    rw [actor] at leaving
    rw [accepted, replies]
    rcases here.last leaving with closed | sent
    · rw [step.requestsOpen] at closed
      simp at closed
    · exact Or.inr sent
  · rw [replies, aborted]
    exact here.left

/-- A command that returns without having published keeps the account. -/
theorem Accepted.returns {s : Session} (here : Accepted s) (present : s.actor.disconnects = false)
    {reply : Reply} (quiet : reply.published? = none)
    (other : reply ≠ .farewell .disconnected) : Accepted (s.returns reply) := by
  refine ⟨by simp [Session.returns, ActorPhase.request?], ?_, fun _ => here.early present,
    by simp [Session.returns], fun gone => ?_⟩
  · change (publishedRequests (s.replies ++ [reply])).Sublist s.requests.accepted
    rw [publishedRequests_append, quiet, Option.toList_none, List.append_nil]
    exact here.published
  · apply here.left
    rcases List.mem_append.mp gone with before | now
    · exact before
    · exact absurd (List.mem_singleton.mp now).symm other

/-- A command that only moves on keeps the account. -/
theorem Accepted.moves {s : Session} (here : Accepted s) (present : s.actor.disconnects = false)
    {phase : ActorPhase} (request : ∀ request, phase.request? = some request → request ≠ .disconnect)
    (staying : phase ≠ .leaving .disconnected) : Accepted { s with actor := phase } :=
  ⟨request, here.published, fun _ => here.early present, fun leaving => absurd leaving staying,
    here.left⟩

/-- The channel accepts a request other than DISCONNECT. -/
theorem Accepted.sends {s : Session} (here : Accepted s) (present : s.actor.disconnects = false)
    {request : Request} (other : request ≠ .disconnect) {requests : Fifo Request requestChannelCap}
    (sent : s.requests.send? request = some requests) : Accepted { s with requests } := by
  obtain ⟨_, accepted, _⟩ := Fifo.send?_eq_some sent
  refine ⟨here.request, ?_, fun _ => ?_, fun leaving => ?_, here.left⟩
  · change (publishedRequests s.replies).Sublist requests.accepted
    rw [accepted]
    exact here.published.trans (List.sublist_append_left _ _)
  · change Request.disconnect ∉ requests.accepted
    rw [accepted, List.mem_append, not_or]
    refine ⟨here.early present, fun again => ?_⟩
    exact other (List.mem_singleton.mp again).symm
  · have still : s.actor = .leaving .disconnected := leaving
    simp [still, ActorPhase.disconnects] at present

theorem Accepted.actor {s next : Session} {label : ActorLabel} (here : Accepted s)
    (coherent : Coherent s) (step : ActorStep s label next) : Accepted next := by
  have running := (step.aborted coherent.aborted).1
  have notLeft : Reply.farewell .disconnected ∉ s.replies := by
    intro gone
    rw [here.left gone] at running
    simp at running
  have present : ∀ phase, s.actor = phase → phase.disconnects = false →
      s.actor.disconnects = false := by
    rintro phase rfl staying
    exact staying
  cases step with
  | @callAcked call kind request idle acked other =>
    refine ⟨?_, here.published, fun _ => here.early (present _ idle rfl), by simp [Session.pushWaiter],
      here.left⟩
    intro sending same
    obtain rfl := Option.some.inj same
    exact other
  | @callPlain call phase idle plain =>
    refine here.moves (present _ idle rfl) ?_ ?_
    · intro request same
      cases phase with
      | publishing sending =>
        obtain rfl := Option.some.inj same
        rintro rfl
        simp [ActorPhase.plain] at plain
      | requesting kind waiter sending => simp [ActorPhase.plain] at plain
      | _ => simp [ActorPhase.request?] at same
    · rintro rfl
      simp [ActorPhase.plain] at plain
  | @sendRequest kind waiter request requests actor isOpen sent =>
    have other := here.request request (by rw [actor]; rfl)
    have offered := here.sends (present _ actor rfl) other sent
    exact offered.moves (present _ actor rfl) (by simp [ActorPhase.request?]) (by simp)
  | @sendPublish request requests actor isOpen sent =>
    have other := here.request request (by rw [actor]; rfl)
    have offered := here.sends (present _ actor rfl) other sent
    refine ⟨by simp [Session.returns, ActorPhase.request?], ?_,
      fun _ => offered.early (present _ actor rfl), by simp [Session.returns], ?_⟩
    · change (publishedRequests (s.replies ++ [.published request])).Sublist requests.accepted
      rw [publishedRequests_append, (Fifo.send?_eq_some sent).2.1]
      exact here.published.append (List.Sublist.refl _)
    · intro gone
      exact absurd (by simpa [Session.returns] using gone) notLeft
  | @sendDisconnect requests actor isOpen sent =>
    obtain ⟨_, accepted, _⟩ := Fifo.send?_eq_some sent
    have clear := here.early (present _ actor rfl)
    refine ⟨by simp [ActorPhase.request?], ?_, by simp [ActorPhase.disconnects], fun _ => ?_, here.left⟩
    · change (publishedRequests s.replies).Sublist requests.accepted
      rw [accepted]
      exact here.published.trans (List.sublist_append_left _ _)
    · exact Or.inr ⟨s.requests.accepted, accepted, clear, here.published⟩
  | refuseRequest actor =>
    exact here.moves (present _ actor rfl) (by simp [ActorPhase.request?]) (by simp)
  | refusePublish actor => exact here.returns (present _ actor rfl) rfl (by simp)
  | refuseDisconnect actor closed =>
    exact ⟨by simp [ActorPhase.request?], here.published, by simp [ActorPhase.disconnects],
      fun _ => Or.inl closed, here.left⟩
  | pop actor =>
    refine Accepted.returns ?_ ?_ rfl (by simp)
    · exact ⟨here.request, here.published, here.early, here.last, here.left⟩
    · exact present _ actor rfl
  | wake actor resolved => exact here.returns (present _ actor rfl) rfl (by simp)
  | recvPublish actor taken =>
    refine Accepted.returns ?_ ?_ rfl (by simp)
    · exact ⟨here.request, here.published, here.early, here.last, here.left⟩
    · exact present _ actor rfl
  | recvLost actor empty dropped => exact here.returns (present _ actor rfl) rfl (by simp)
  | @recvDisconnect d disconnectInbox actor taken =>
    have received : Accepted { s with disconnectInbox } :=
      ⟨here.request, here.published, here.early, here.last, here.left⟩
    exact received.moves (present _ actor rfl) (by simp [ActorPhase.request?]) (by simp)
  | recvDisconnectLost actor dropped =>
    exact here.moves (present _ actor rfl) (by simp [ActorPhase.request?]) (by simp)
  | timeoutPublish actor => exact here.returns (present _ actor rfl) rfl (by simp)
  | timeoutDisconnect actor => exact here.returns (present _ actor rfl) rfl (by simp)
  | drop actor =>
    refine ⟨by simp [ActorPhase.request?], ?_, by simp [ActorPhase.disconnects], by simp, fun _ => rfl⟩
    change (publishedRequests (s.replies ++ [.farewell _])).Sublist s.requests.accepted
    rw [publishedRequests_append]
    exact (List.append_nil _).symm ▸ here.published

/-- The account holds in every reachable state. -/
theorem accepted {admits : Session → Label → Prop} {s : Session}
    (reached : system.Reachable admits s) : Accepted s := by
  refine invariant_of_steps Accepted ?_ ?_ ?_ ?_ reached
  · constructor <;> simp [Session.connected, ActorPhase.request?, publishedRequests]
  · intro s label next prior here _ step
    exact here.actor (coherent prior) step
  · intro s label next _ here _ step
    exact here.loop step
  · intro s packet here
    exact ⟨here.request, here.published, here.early, here.last, here.left⟩

/-! ## The drop decides -/

theorem Session.step_drop {s : Session} {farewell : Farewell} (leaving : s.actor = .leaving farewell) :
    s.step (.actor .drop) = some { s with
      actor := .left
      aborted := true
      replies := s.replies ++ [.farewell farewell]
      endedBefore := !s.loop.requestsOpen } := by
  simp only [Session.step, Session.actorStep, Session.drop, leaving]

/-- A drop after a disconnect is graceful exactly if the event loop has taken
everything off the channel by then, or has ended. -/
theorem Accepted.graceful_drop_iff {s next : Session} (here : Accepted s)
    (leaving : s.actor = .leaving .disconnected) (stepped : s.step (.actor .drop) = some next) :
    Graceful next ↔ s.requests.buffer = [] ∨ s.loop.requestsOpen = false := by
  have dropped := (Option.some.inj ((Session.step_drop leaving).symm.trans stepped)).symm
  have published : publishedRequests next.replies = publishedRequests s.replies := by
    rw [dropped, publishedRequests_append]
    exact List.append_nil _
  have returned : Reply.farewell .disconnected ∈ next.replies := by simp [dropped]
  have written : next.requests = s.requests := by rw [dropped]
  have ended : next.endedBefore = !s.loop.requestsOpen := by rw [dropped]
  rcases here.last leaving with closed | ⟨before, last, fresh, order⟩
  · simp [Graceful, ended, closed]
  · constructor
    · intro graceful
      rcases graceful returned with flushed | gone
      · left
        by_contra buffered
        -- The last request is still buffered, and it is the only DISCONNECT.
        have earlier : s.requests.delivered ++ s.requests.buffer.dropLast = before := by
          rw [← List.dropLast_append_of_ne_nil buffered, ← s.requests.accounted, last,
            List.dropLast_concat]
        apply fresh
        rw [← earlier]
        apply List.mem_append_left
        rw [Flushed, published, written] at flushed
        exact flushed.subset (List.mem_append_right _ (List.mem_singleton.mpr rfl))
      · right
        rw [ended] at gone
        simpa using gone
    · rintro (empty | closed) _
      · left
        rw [Flushed, published, written, s.requests.delivered_eq_accepted_iff.mpr empty, last]
        exact order.append (List.Sublist.refl _)
      · right
        rw [ended, closed]
        rfl

/-- Where a disconnect drops the connection, the event loop has emptied the
request channel or has ended. -/
def flushesFirst (s : Session) : Label → Bool
  | .actor .drop =>
    match s.actor with
    | .leaving .disconnected => s.requests.buffer.isEmpty || !s.loop.requestsOpen
    | _ => true
  | _ => true

/-- Only the drop lets a disconnect return. -/
theorem ActorStep.disconnected {s next : Session} {label : ActorLabel}
    (step : ActorStep s label next) (returned : Reply.farewell .disconnected ∈ next.replies) :
    Reply.farewell .disconnected ∈ s.replies ∨
      label = .drop ∧ s.actor = .leaving .disconnected := by
  cases step with
  | drop actor =>
    rcases List.mem_append.mp returned with before | now
    · exact Or.inl before
    · obtain rfl := Reply.farewell.inj (List.mem_singleton.mp now)
      exact Or.inr ⟨rfl, actor⟩
  | sendPublish | refusePublish | pop | wake | recvPublish | recvLost | timeoutPublish
  | timeoutDisconnect =>
    left
    simpa [Session.returns] using returned
  | _ => exact Or.inl returned

/-- No later step of the event loop changes what was flushed. -/
theorem Graceful.loop {s next : Session} {label : LoopLabel} (here : Graceful s)
    (account : Accepted s) (step : LoopStep s label next) : Graceful next := by
  obtain ⟨_, _, _, _, replies, endedBefore⟩ := step.frame
  intro returned
  rw [replies] at returned
  have same := step.requests.2 (account.left returned)
  rw [Flushed, replies, same, endedBefore]
  exact here returned

/-- A disconnect that has returned has flushed every QoS 0 publish that had
returned ok and its own DISCONNECT, unless the event loop had ended, in every
run in which the channel is empty when the connection is dropped; and a drop
with requests left in it never has. -/
theorem disconnect_flushes_iff (s : Session) :
    (system.Reachable (fun s label => flushesFirst s label) s → Graceful s) ∧
      (system.Reaches s → s.actor = .leaving .disconnected →
        ∀ next, s.step (.actor .drop) = some next →
          (Graceful next ↔ s.requests.buffer = [] ∨ s.loop.requestsOpen = false)) := by
  constructor
  · intro reached
    refine reached.invariant ?_ ?_
    · rintro s rfl
      simp [Graceful, Session.connected]
    · intro s label next prior here admitted stepped
      cases Step.of_step stepped with
      | broker live => exact here
      | loop step => exact here.loop (accepted prior) step
      | @actor label _ step =>
        intro returned
        rcases step.disconnected returned with before | ⟨rfl, leaving⟩
        · have aborted := (accepted prior).left before
          rw [(step.aborted (coherent prior).aborted).1] at aborted
          simp at aborted
        · have flushed : s.requests.buffer = [] ∨ s.loop.requestsOpen = false := by
            simpa [flushesFirst, leaving] using admitted
          exact ((accepted prior).graceful_drop_iff leaving stepped).mpr flushed returned
  · intro reached leaving next stepped
    exact (accepted reached).graceful_drop_iff leaving stepped

/-- A QoS 0 publish and a disconnect, with `written` polls of the event loop
between the two requests and the drop. -/
def disconnectSchedule (written : Nat) : List Label :=
  [.actor (.call (.publish .atMostOnce "t" [])), .actor .send, .actor (.call .disconnect),
    .actor .send] ++ List.replicate written (.loop .pollRequest)

theorem disconnect_flushes_iff_written :
    ∃ s, system.runWhere flushesFirst .connected (disconnectSchedule 2 ++ [.actor .drop]) = some s ∧
      s.replies.getLast? = some (.farewell .disconnected) ∧ Graceful s := by
  have facts : (system.runWhere flushesFirst .connected
      (disconnectSchedule 2 ++ [.actor .drop])).map (fun s => s.replies.getLast?) =
        some (some (.farewell .disconnected)) := rfl
  obtain ⟨s, ran, last⟩ := Option.map_eq_some_iff.mp facts
  exact ⟨s, ran, last, (disconnect_flushes_iff s).1 (reachable_of_schedule ran)⟩

/-- Dropped right after its requests were accepted, a connection has written
neither of them. -/
theorem disconnect_drops_accepted_requests :
    ¬ ∀ s, system.Reaches s → Graceful s := by
  intro graceful
  have facts : (system.run .connected (disconnectSchedule 0 ++ [.actor .drop])).map
      (fun s => (s.replies.getLast?, s.requests.delivered, s.endedBefore)) =
        some (some (.farewell .disconnected), [], false) := rfl
  obtain ⟨s, ran, same⟩ := Option.map_eq_some_iff.mp facts
  obtain ⟨last, rest⟩ := Prod.mk.inj same
  obtain ⟨written, ended⟩ := Prod.mk.inj rest
  rcases graceful s (reaches_of_schedule ran) (List.mem_of_getLast? last) with flushed | gone
  · rw [Flushed, written] at flushed
    simp at flushed
  · rw [ended] at gone
    simp at gone

end Ill.Mqtt
