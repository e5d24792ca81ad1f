import Ill.Mqtt.Replies

/-!
# The end of a connection as its commands see it

A command reports `connection_lost` also when the client refuses its request, be
it for a topic that the driver does not take. What any other command reports so
is the end of the connection: it stays lost to every command that waits for an
acknowledgement. The others may still succeed: a `receive_publish` drains what
the inbox holds, and a `publish` at QoS 0 waits for nothing.
-/

namespace Ill.Mqtt

open Base Actor.MqttClient

/-- Whether a command returned the loss of the connection. -/
def Reply.Lost (reply : Reply) : Prop := reply.shown.2 = networkError "connection_lost"

/-- Whether the client refused the request of the command. -/
def Reply.refused : Reply → Bool
  | .requestLost _ _ | .publishLost _ => true
  | _ => false

/-- Whether the command waited for an acknowledgement. -/
def Reply.awaited : Reply → Bool
  | .answered _ _ _ | .requestLost _ _ => true
  | _ => false

theorem Reply.lost_answered {kind : AckKind} {waiter : WaiterTx} {outcome : Except RunOutcome Unit} :
    (Reply.answered kind waiter outcome).Lost ↔ outcome = Session.connectionLost := by
  cases outcome <;> simp [Reply.Lost, Reply.shown, Session.connectionLost, networkError]

/-- No acknowledgement tells the loss of the connection. -/
theorem Incoming.ackOutcome_ne_lost (packet : Incoming) :
    packet.ackOutcome ≠ Session.connectionLost := by
  have told (failure : Option (String × Int)) : failureOutcome failure ≠ Session.connectionLost := by
    cases failure <;> simp [failureOutcome, Session.connectionLost, mqttError, networkError]
  cases packet with
  | subAck codes => exact told _
  | pubAck reason => exact told _
  | _ => simp [Incoming.ackOutcome, pubcompOutcome, Session.connectionLost]

/-- What is known once a loss is on its way. -/
structure LossFinal (s : Session) : Prop where
  /-- A waiter is told of a loss only after it. -/
  told : s.aborted = false → ∀ waiter, (waiter, Session.connectionLost) ∈ s.outcomes → s.live = false
  /-- A loss is reported only after it. -/
  reported : ∀ reply ∈ s.replies, reply.refused = false → reply.Lost → s.live = false
  /-- A command begun after the report is told of the loss, if anything. -/
  current : ∀ reply ∈ s.replies, reply.refused = false → reply.Lost →
    ∀ kind waiter, s.actor.pending? = some (kind, waiter) →
      ∀ outcome, (waiter, outcome) ∈ s.outcomes → outcome = Session.connectionLost
  leaving : s.actor = .leaving .disconnectLost → s.live = false
  final : s.replies.Pairwise fun earlier later =>
    earlier.refused = false → earlier.Lost → later.awaited = true → later.Lost

/-- A serving event loop holds everything that a command can find gone. -/
theorem LoopPhase.open_of_serving {loop : LoopPhase} (serving : loop.serving = true) :
    loop.holdsPublishTx = true ∧ loop.holdsDisconnectTx = true := by
  cases loop <;> first | exact ⟨rfl, rfl⟩ | exact nomatch serving

/-- While the actor's task is there, an event loop that no longer serves has lost the
connection. -/
theorem Coherent.lost {s : Session} (coherent : Coherent s) (running : s.aborted = false)
    (gone : s.loop.serving = false) : s.live = false := by
  cases live : s.live with
  | false => rfl
  | true =>
    have serving := coherent.serving live running
    rw [gone] at serving
    exact nomatch serving

/-- A step that returns nothing keeps what is known, if it gives its command no
waiter that has an outcome. -/
theorem LossFinal.moves {s next : Session} (here : LossFinal s) (running : s.aborted = false)
    (outcomes : next.outcomes = s.outcomes) (live : next.live = s.live)
    (replies : next.replies = s.replies)
    (current : ∀ kind waiter, next.actor.pending? = some (kind, waiter) →
      s.actor.pending? = some (kind, waiter) ∨ ∀ outcome, (waiter, outcome) ∉ s.outcomes)
    (leaving : next.actor = .leaving .disconnectLost → s.live = false) :
    LossFinal next := by
  constructor
  · rw [outcomes, live]
    exact fun _ => here.told running
  · rw [replies, live]
    exact here.reported
  · intro reply member own lost kind waiter pending outcome sent
    rw [replies] at member
    rw [outcomes] at sent
    rcases current kind waiter pending with before | unanswered
    · exact here.current reply member own lost kind waiter before outcome sent
    · exact absurd sent (unanswered outcome)
  · rw [live]
    exact leaving
  · rw [replies]
    exact here.final

/-- A step that returns keeps what is known, if what it returns fits the losses
reported before. -/
theorem LossFinal.returns {s next : Session} (here : LossFinal s) {reply : Reply}
    (running : s.aborted = false) (outcomes : next.outcomes = s.outcomes) (live : next.live = s.live)
    (replies : next.replies = s.replies ++ [reply])
    (done : next.actor = .idle ∨ next.actor = .left)
    (lost : reply.refused = false → reply.Lost → s.live = false)
    (fits : reply.awaited = true → ∀ earlier ∈ s.replies, earlier.refused = false →
      earlier.Lost → reply.Lost) :
    LossFinal next := by
  constructor
  · rw [outcomes, live]
    exact fun _ => here.told running
  · intro other member own otherLost
    rw [replies] at member
    rw [live]
    rcases List.mem_append.mp member with before | now
    · exact here.reported other before own otherLost
    · obtain rfl := List.mem_singleton.mp now
      exact lost own otherLost
  · intro _ _ _ _ kind waiter pending
    rcases done with idle | left
    · simp [idle, ActorPhase.pending?] at pending
    · simp [left, ActorPhase.pending?] at pending
  · intro leaving
    rcases done with idle | left
    · simp [idle] at leaving
    · simp [left] at leaving
  · rw [replies, List.pairwise_append]
    refine ⟨here.final, List.pairwise_singleton _ _, ?_⟩
    intro earlier before later now own earlierLost awaited
    obtain rfl := List.mem_singleton.mp now
    exact fits awaited earlier before own earlierLost

theorem LossFinal.actor {s next : Session} {label : ActorLabel} (here : LossFinal s)
    (coherent : Coherent s) (placed : Placed s) (step : ActorStep s label next) :
    LossFinal next := by
  have running := (step.aborted coherent.aborted).1
  have outcomes := step.outcomes
  have live := step.frame.live
  have ended (gone : s.loop.serving ≠ true) : s.live = false :=
    coherent.lost running (Bool.not_eq_true _ ▸ gone)
  cases step with
  | callAcked idle acked other =>
    refine here.moves running outcomes live rfl (fun kind waiter pending => .inr ?_)
      (by simp [Session.pushWaiter])
    -- The waiter is new.
    intro outcome sent
    obtain ⟨-, rfl⟩ := Prod.mk.inj (Option.some.inj pending)
    exact absurd (placed.pushed_of_outcome sent) (Nat.lt_irrefl _)
  | @callPlain call phase idle plain =>
    refine here.moves running outcomes live rfl (fun kind waiter pending => ?_) ?_
    · simp [ActorPhase.pending_of_plain plain] at pending
    · rintro rfl
      simp [ActorPhase.plain] at plain
  | sendRequest actor | refuseRequest actor =>
    refine here.moves running outcomes live rfl (fun kind waiter pending => .inl ?_) (by simp)
    rw [actor]
    exact pending
  | sendDisconnect | refuseDisconnect | recvDisconnect =>
    exact here.moves running outcomes live rfl (by simp [ActorPhase.pending?]) (by simp)
  | recvDisconnectLost actor dropped =>
    refine here.moves running outcomes live rfl (by simp [ActorPhase.pending?]) fun _ =>
      ended fun serving => ?_
    simp [(LoopPhase.open_of_serving serving).2] at dropped
  | sendPublish | recvPublish | timeoutPublish | timeoutDisconnect =>
    refine here.returns running outcomes live rfl (.inl rfl) (fun _ lost => ?_) (by simp [Reply.awaited])
    simp [Reply.Lost, Reply.shown, timeoutError, networkError] at lost
  | refusePublish actor =>
    exact here.returns running outcomes live rfl (.inl rfl) (by simp [Reply.refused])
      (by simp [Reply.awaited])
  | pop actor =>
    exact here.returns running outcomes live rfl (.inl rfl) (by simp [Reply.refused])
      fun _ _ _ _ _ => rfl
  | @wake kind waiter outcome actor resolved =>
    have sent := Session.mem_outcomes_of_lookup resolved
    refine here.returns running outcomes live rfl (.inl rfl) ?_ ?_
    · intro _ lost
      exact here.told running waiter (Reply.lost_answered.mp lost ▸ sent)
    · intro _ reply member own lost
      have pending : s.actor.pending? = some (kind, waiter) := by rw [actor]; rfl
      exact Reply.lost_answered.mpr
        (here.current reply member own lost kind waiter pending outcome sent)
  | recvLost actor empty dropped =>
    refine here.returns running outcomes live rfl (.inl rfl) (fun _ _ => ended fun serving => ?_)
      (by simp [Reply.awaited])
    simp [(LoopPhase.open_of_serving serving).1] at dropped
  | @drop farewell actor =>
    refine here.returns running outcomes live rfl (.inr rfl) (fun _ lost => ?_) (by simp [Reply.awaited])
    cases farewell with
    | disconnectLost => exact here.leaving actor
    | _ => simp [Reply.Lost, Reply.shown, networkError] at lost

theorem LossFinal.loop {s next : Session} {label : LoopLabel} (here : LossFinal s)
    (coherent : Coherent s) (stepped : s.loopStep label = some next) : LossFinal next := by
  have step := LoopStep.of_step stepped
  have frame := step.frame
  -- No step revives a connection.
  have dead (lost : s.live = false) : next.live = false := by
    cases live : next.live with
    | false => rfl
    | true => exact nomatch lost ▸ step.live live
  constructor
  · intro running waiter sent
    rw [frame.aborted] at running
    rcases Session.outcomes_loopStep stepped sent with
      before | ⟨-, gone⟩ | ⟨-, packet, -, -, -, -, -, told⟩
    · exact dead (here.told running waiter before)
    · exact dead (coherent.lost running gone)
    · exact absurd told.symm packet.ackOutcome_ne_lost
  · rw [frame.replies]
    exact fun reply member own lost => dead (here.reported reply member own lost)
  · rw [frame.replies, frame.actor]
    intro reply member own lost kind waiter pending outcome sent
    rcases Session.outcomes_loopStep stepped sent with before | ⟨told, -⟩ | ⟨live, -⟩
    · exact here.current reply member own lost kind waiter pending outcome before
    · exact told
    · -- A lost connection hands out no acknowledgement.
      rw [here.reported reply member own lost] at live
      exact nomatch live
  · rw [frame.actor]
    exact fun leaving => dead (here.leaving leaving)
  · rw [frame.replies]
    exact here.final

/-- What is known of a loss in every reachable connection. -/
theorem lossFinal {s : Session} (reached : system.Reaches s) : LossFinal s := by
  refine reached.invariant ?_ ?_
  · rintro s rfl
    constructor <;> simp [Session.connected, Session.outcomes]
  · intro s label next prior here _ stepped
    cases Step.of_step stepped with
    | actor step =>
      exact here.actor (coherent prior) (placed prior) step
    | loop _ => exact here.loop (coherent prior) stepped
    | broker live => exact ⟨here.told, here.reported, here.current, here.leaving, here.final⟩

/-- The loss of a connection is final: after a command whose request was not refused
returned it, every command that waits for an acknowledgement does. -/
theorem loss_is_final {s : Session} (reached : system.Reaches s) :
    s.replies.Pairwise fun earlier later =>
      earlier.refused = false → earlier.shown.2 = networkError "connection_lost" →
        later.awaited = true → later.shown.2 = networkError "connection_lost" :=
  (lossFinal reached).final

/-- The client refuses a topic on a live connection. Then a subscription finds the
connection lost, a publication is accepted before its queue is drained, and
another is refused. -/
def lossesSchedule : List Label :=
  [.actor (.call (.publish .atLeastOnce "t/#" [])), .actor .refuse, .actor .pop,
    .actor (.call (.subscribe .atLeastOnce "t")), .actor .send, .loop (.pollError none),
    .loop .proceed, .loop .proceed, .actor .wake,
    .actor (.call (.publish .atLeastOnce "t" [])), .actor .send, .loop .proceed, .loop .proceed,
    .actor .wake] ++
  List.replicate 5 (.loop .proceed) ++
  [.actor (.call (.publish .exactlyOnce "t" [])), .actor .refuse, .actor .pop]

theorem loss_is_final_losses :
    ∃ s, system.run .connected lossesSchedule = some s ∧
      s.replies.map (fun reply => (reply.refused, reply.shown.2)) =
        [(true, networkError "connection_lost"), (false, networkError "connection_lost"),
          (false, networkError "connection_lost"), (true, networkError "connection_lost")] ∧
      s.replies.Pairwise fun earlier later =>
        earlier.refused = false → earlier.shown.2 = networkError "connection_lost" →
          later.awaited = true → later.shown.2 = networkError "connection_lost" := by
  have facts : (system.run .connected lossesSchedule).map
      (fun s => s.replies.map (fun reply => (reply.refused, reply.shown.2))) =
        some [(true, networkError "connection_lost"), (false, networkError "connection_lost"),
          (false, networkError "connection_lost"), (true, networkError "connection_lost")] := rfl
  obtain ⟨s, ran, shown⟩ := Option.map_eq_some_iff.mp facts
  exact ⟨s, ran, shown, loss_is_final (reaches_of_schedule ran)⟩

end Ill.Mqtt
