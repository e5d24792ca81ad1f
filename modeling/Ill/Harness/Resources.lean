import Ill.Base.Ledger
import Ill.Harness.Teardown
import Ill.Harness.Isolation
import Ill.Harness.Panics

/-!
# Processes, containers and connections

What the actors of a run start outside the harness: a child process, a
container, a session with a server. The log of the run is read as a ledger with
a slot for each actor, which has what the instance of the actor holds before and
after a call. However the run ends, short of a panic, everything that was started
is given up once, by a command of its own actor or by its teardown.
-/

namespace Ill

open Base

namespace Actor

/-- What a live instance keeps running outside the harness. -/
inductive Resource where
  | process (child : Exec.Child)
  | container (id : String)
  | session (client : ActorType)
deriving DecidableEq

/-- What the mode of an instance holds. -/
def LiveActor.held : LiveActor → Option Resource
  | .pgClient inst =>
    match inst.mode with
    | .disconnected => none
    | .connected => some (.session .pgClient)
  | .mqttClient inst =>
    match inst.mode with
    | .disconnected => none
    | .connected => some (.session .mqttClient)
  | .exec inst =>
    match inst.mode with
    | .stopped => none
    | .running child => some (.process child)
  | .container inst =>
    match inst.mode with
    | .stopped => none
    | .running id => some (.container id)
  | .argsActor _ => none

/-- The commands that start something. -/
def starting (cmd : String) : Prop := cmd = "run" ∨ cmd = "connect"

/-- The commands that end something. -/
def ending (cmd : String) : Prop := cmd = "stop" ∨ cmd = "disconnect" ∨ cmd = "receive_disconnect"

/-- What a command may do to what an instance holds. -/
inductive HoldStep (cmd : String) (outcome : RunOutcome) : Option Resource → Option Resource → Prop where
  | keeps (held : Option Resource) : HoldStep cmd outcome held held
  | starts {resource : Resource} (by_ : starting cmd) (succeeded : outcome.isOk) :
    HoldStep cmd outcome none (some resource)
  | ends {resource : Resource} (by_ : ending cmd) : HoldStep cmd outcome (some resource) none

theorem HoldStep.sound {cmd : String} {outcome : RunOutcome} {before after : Option Resource}
    (step : HoldStep cmd outcome before after) {name : String} :
    (Move.mk name before after).Sound := by
  cases step with
  | keeps => exact .inr (.inr rfl)
  | starts => exact .inl rfl
  | ends => exact .inr (.inl rfl)

/-- A new instance holds nothing. -/
theorem LiveActor.construct_holds {ext : External} {args : ConstructArgs} {actorType : ActorType}
    {actor : LiveActor} (constructed : construct ext args actorType = .ok actor) :
    actor.held = none := by
  cases actorType with
  | httpClient => simp [construct] at constructed
  | pgClient =>
    cases constructed
    rfl
  | mqttClient =>
    cases constructed
    rfl
  | exec =>
    obtain ⟨inst, made, rfl⟩ := map_eq_ok.mp constructed
    simp only [held, Exec.construct_mode made]
  | container =>
    obtain ⟨inst, made, rfl⟩ := map_eq_ok.mp constructed
    simp only [held, (Container.construct_spec made).1]
  | argsActor =>
    obtain ⟨inst, _, rfl⟩ := map_eq_ok.mp constructed
    rfl

theorem PgClient.execute_holds (ext : PgClient.External) (cmd : String) (args : CommandArgs)
    (inst : PgClientInstance) :
    HoldStep cmd (PgClient.execute ext cmd args inst).2 (LiveActor.pgClient inst).held
      (LiveActor.pgClient (PgClient.execute ext cmd args inst).1).held := by
  obtain ⟨mode⟩ := inst
  cases mode with
  | disconnected =>
    simp only [PgClient.execute]
    split
    · rcases connect_cases ext args.keyword with done | ⟨outcome, _, failed⟩
      · rw [done]
        exact .starts (.inr rfl) rfl
      · rw [failed]
        exact .keeps _
    · exact .keeps _
  | connected =>
    simp only [PgClient.execute]
    split
    · split
      · simp only [LiveActor.held, query_mode]
        exact .keeps _
      · exact .keeps _
    · exact .ends (.inr (.inl rfl))
    · exact .keeps _

theorem MqttClient.execute_holds (ext : MqttClient.External) (cmd : String) (args : CommandArgs)
    (inst : MqttClientInstance) :
    HoldStep cmd (MqttClient.execute ext cmd args inst).2 (LiveActor.mqttClient inst).held
      (LiveActor.mqttClient (MqttClient.execute ext cmd args inst).1).held := by
  obtain ⟨mode⟩ := inst
  cases mode with
  | disconnected =>
    simp only [MqttClient.execute]
    split
    · rcases connect_cases ext args.keyword with ⟨fields, done⟩ | ⟨outcome, _, failed⟩
      · rw [done]
        exact .starts (.inr rfl) rfl
      · rw [failed]
        exact .keeps _
    · exact .keeps _
  | connected =>
    simp only [MqttClient.execute]
    split
    · exact .ends (.inr (.inl rfl))
    -- The subscriptions, the publications and `receive_publish` stay connected.
    iterate 7 exact .keeps _
    · rcases receiveDisconnect_cases ext args with expired | lost | ⟨fields, received⟩
      · rw [expired]
        exact .keeps _
      · rw [lost]
        exact .ends (.inr (.inr rfl))
      · rw [received]
        exact .ends (.inr (.inr rfl))
    · exact .keeps _

theorem Exec.execute_holds (ext : Exec.External) (cmd : String) (args : CommandArgs)
    (inst : ExecInstance) :
    HoldStep cmd (Exec.execute ext cmd args inst).2 (LiveActor.exec inst).held
      (LiveActor.exec (Exec.execute ext cmd args inst).1).held := by
  obtain ⟨target, sourceDir, workingDir, mode⟩ := inst
  cases mode with
  | running child =>
    simp only [Exec.execute]
    split <;> exact .keeps _
  | stopped =>
    simp only [Exec.execute]
    split
    · rcases run_cases ext ⟨target, sourceDir, workingDir, .stopped⟩ (args.kw "env") with
        ⟨child, fields, done⟩ | ⟨outcome, _, failed⟩
      · rw [done]
        exact .starts (.inl rfl) rfl
      · rw [failed]
        exact .keeps _
    · exact .keeps _

theorem Container.execute_holds (ext : Container.External) (cmd : String) (args : CommandArgs)
    (inst : ContainerInstance) :
    HoldStep cmd (Container.execute ext cmd args inst).2 (LiveActor.container inst).held
      (LiveActor.container (Container.execute ext cmd args inst).1).held := by
  obtain ⟨imageName, imageTag, internalPort, mode, members⟩ := inst
  cases mode with
  | running container =>
    simp only [Container.execute]
    split
    · exact .keeps _
    · simp only [LiveActor.held, stop_mode]
      exact .ends (.inl rfl)
    · exact .keeps _
  | stopped =>
    simp only [Container.execute]
    split
    · rcases run_cases ext ⟨imageName, imageTag, internalPort, .stopped, members⟩
        (args.kw "external_port") (args.kw "env") (args.kw "timeout") with
        ⟨id, fields, done⟩ | ⟨outcome, _, failed⟩
      · rw [done]
        exact .starts (.inl rfl) rfl
      · rw [failed]
        exact .keeps _
    · exact .keeps _
    · exact .keeps _

/-- Whatever a command is sent to and whatever the systems outside answer, it
starts something only if nothing is held, and ends only what is held. -/
theorem LiveActor.execute_holds (ext : External) (cmd : String) (args : CommandArgs)
    (actor : LiveActor) :
    HoldStep cmd (actor.execute ext cmd args).2 actor.held (actor.execute ext cmd args).1.held := by
  cases actor with
  | pgClient inst => exact PgClient.execute_holds ext.pgClient cmd args inst
  | mqttClient inst => exact MqttClient.execute_holds ext.mqttClient cmd args inst
  | exec inst => exact Exec.execute_holds ext.exec cmd args inst
  | container inst => exact Container.execute_holds ext.container cmd args inst
  | argsActor inst => exact .keeps _

/-- How giving up what is held turns out: a child is awaited or killed, a
container removed, a session dropped. -/
def giveUp (ext : External) : Option Resource → TeardownOutcome
  | none => .success
  | some (.process child) => Exec.stopOutcome (ext.exec.wait child)
  | some (.container id) => Container.teardownOutcome (ext.container.rm id)
  | some (.session _) => .success

/-- Teardown gives up what is held and leaves nothing running. -/
theorem LiveActor.teardown_gives_up (ext : External) (actor : LiveActor) :
    (actor.teardown ext).1.held = none ∧ (actor.teardown ext).2 = giveUp ext actor.held := by
  cases actor with
  | pgClient inst =>
    obtain ⟨mode⟩ := inst
    cases mode <;> exact ⟨rfl, rfl⟩
  | mqttClient inst =>
    obtain ⟨mode⟩ := inst
    cases mode <;> exact ⟨rfl, rfl⟩
  | exec inst =>
    obtain ⟨target, sourceDir, workingDir, mode⟩ := inst
    cases mode <;> exact ⟨rfl, rfl⟩
  | container inst =>
    obtain ⟨imageName, imageTag, internalPort, mode, members⟩ := inst
    cases mode <;> exact ⟨rfl, rfl⟩
  | argsActor inst => exact ⟨rfl, rfl⟩

end Actor

namespace Harness

open Ast Actor Validate

/-! ## The ledger of a run -/

/-- What the live instance of an actor holds. -/
def HarnessState.held (state : HarnessState LiveActor) (name : String) : Option Resource :=
  (state.get name).bind LiveActor.held

section Ledger

variable (world : List (Event LiveActor) → External)

/-- The instances after one more call; one that was torn down is as its teardown
left it. -/
def afterCall (state : HarnessState LiveActor) : Event LiveActor → HarnessState LiveActor
  | .tornDown actor =>
    match state.get actor with
    | some inst => state.set actor (inst.teardown (world state.events)).1
    | none => state
  | event => { state with actors := replayStep (liveRuntime world) state.events state.actors event }

/-- What a call does to the slot of its actor. -/
def ledgerStep (state : HarnessState LiveActor) (event : Event LiveActor) :
    HarnessState LiveActor × List (Move String Resource) :=
  let next := afterCall world state event
  (next.log event, [⟨event.actor, state.held event.actor, next.held event.actor⟩])

/-- The moves of a log, from no actors on. -/
def ledger (events : List (Event LiveActor)) : List (Move String Resource) :=
  (emit (ledgerStep world) .start events).2

def stateAfter (events : List (Event LiveActor)) : HarnessState LiveActor :=
  (emit (ledgerStep world) .start events).1

/-- What the actors hold after a log. -/
def slotsAfter (events : List (Event LiveActor)) : String → Option Resource :=
  (stateAfter world events).held

/-- The moves of a log fit together. -/
def Balanced (events : List (Event LiveActor)) : Prop :=
  Chain Moves (fun _ => none) (ledger world events) (slotsAfter world events)

end Ledger

variable {world : List (Event LiveActor) → External}

theorem stateAfter_concat (events : List (Event LiveActor)) (event : Event LiveActor) :
    stateAfter world (events ++ [event]) =
      (afterCall world (stateAfter world events) event).log event := by
  rw [stateAfter, emit_append_state]
  rfl

theorem slotsAfter_concat (events : List (Event LiveActor)) (event : Event LiveActor) :
    slotsAfter world (events ++ [event]) = (afterCall world (stateAfter world events) event).held := by
  rw [slotsAfter, stateAfter_concat]
  rfl

theorem ledger_concat (events : List (Event LiveActor)) (event : Event LiveActor) :
    ledger world (events ++ [event]) = ledger world events ++
      [⟨event.actor, slotsAfter world events event.actor,
        slotsAfter world (events ++ [event]) event.actor⟩] := by
  rw [slotsAfter_concat, ledger, emit_append_output]
  rfl

theorem HarnessState.held_set (state : HarnessState LiveActor) (name other : String)
    (inst : LiveActor) :
    (state.set name inst).held other =
      if other = name then (state.get name).bind fun _ => inst.held else state.held other := by
  rw [held, get_set]
  split
  · cases state.get name <;> rfl
  · rfl

/-- A new instance starts with an empty slot. -/
theorem HarnessState.held_push (state : HarnessState LiveActor) (name : String) {inst : LiveActor}
    (idle : inst.held = none) : (state.push name inst).held = state.held := by
  funext other
  rw [held, get_push, held]
  cases state.get other with
  | some live => rfl
  | none =>
    rw [Option.none_or]
    split
    · exact idle
    · rfl

/-- A call leaves the slots of the other actors alone. -/
theorem held_afterCall_of_ne (state : HarnessState LiveActor) (event : Event LiveActor)
    {other : String} (different : other ≠ event.actor) :
    (afterCall world state event).held other = state.held other := by
  cases event with
  | constructed actor actorType args =>
    simp only [afterCall, replayStep]
    split
    · next made => exact congrFun (state.held_push actor (LiveActor.construct_holds made)) other
    · rfl
  | executed actor before command args after outcome =>
    exact (state.held_set _ _ _).trans (if_neg different)
  | tornDown actor =>
    rw [afterCall]
    split
    · exact (state.held_set _ _ _).trans (if_neg different)
    · rfl

/-- A further call fits if it never puts one thing in the place of another. -/
theorem Balanced.concat {events : List (Event LiveActor)} (balanced : Balanced world events)
    {event : Event LiveActor}
    (sound : (Move.mk event.actor (slotsAfter world events event.actor)
      (slotsAfter world (events ++ [event]) event.actor)).Sound) :
    Balanced world (events ++ [event]) := by
  rw [Balanced, ledger_concat]
  refine Chain.append balanced (.cons ⟨rfl, sound, ?_⟩ .nil)
  funext other
  by_cases own : other = event.actor
  · rw [own, Function.update_self]
  · rw [Function.update_of_ne own, slotsAfter_concat]
    exact held_afterCall_of_ne _ event own

/-- A command did to what its actor holds what commands may do. -/
def Event.MayHold : Event LiveActor → Prop
  | .executed _ before cmd _ after outcome => HoldStep cmd outcome before.held after.held
  | _ => True

variable (world) in
/-- The log accounts for the live instances, its ledger is sound, and every
command in it did what commands may do. -/
structure Tracked (harness : HarnessState LiveActor) : Prop where
  state : stateAfter world harness.events = harness
  balanced : Balanced world harness.events
  steps : ∀ event ∈ harness.events, event.MayHold

theorem Tracked.start : Tracked world .start where
  state := rfl
  balanced := .nil
  steps _ member := absurd member List.not_mem_nil

section Walk

variable {regex : Regex} {harness : HarnessState LiveActor}

/-- The slots are those of the live instances. -/
theorem Tracked.held (tracked : Tracked world harness) :
    slotsAfter world harness.events = harness.held := by
  rw [slotsAfter, tracked.state]

/-- A further call is tracked if the instances change as it says. -/
theorem Tracked.log (tracked : Tracked world harness) {event : Event LiveActor}
    {next : HarnessState LiveActor} (changed : afterCall world harness event = next)
    (kept : next.events = harness.events) (may : event.MayHold)
    (sound : (Move.mk event.actor (harness.held event.actor) (next.held event.actor)).Sound) :
    Tracked world (next.log event) where
  state := by
    change stateAfter world (next.events ++ [event]) = _
    rw [kept, stateAfter_concat, tracked.state, changed]
  balanced := by
    change Balanced world (next.events ++ [event])
    rw [kept]
    apply tracked.balanced.concat
    rw [slotsAfter_concat, tracked.held, tracked.state, changed]
    exact sound
  steps := by
    intro other member
    change other ∈ next.events ++ [event] at member
    rw [kept] at member
    rcases List.mem_append.mp member with before | here
    · exact tracked.steps other before
    · rw [List.mem_singleton.mp here]
      exact may

/-- A command is sent to the instance that holds what the ledger says. -/
theorem Tracked.executed (tracked : Tracked world harness) {actor : String} {inst : LiveActor}
    (live : harness.get actor = some inst) {cmd : String} {args : CommandArgs} {next : LiveActor}
    {outcome : RunOutcome} (step : HoldStep cmd outcome inst.held next.held) :
    Tracked world ((harness.set actor next).log (.executed actor inst cmd args next outcome)) := by
  refine tracked.log rfl rfl step ?_
  have before : harness.held actor = inst.held := by rw [HarnessState.held, live, Option.bind_some]
  have after : (harness.set actor next).held actor = next.held := by
    rw [harness.held_set, if_pos rfl, live, Option.bind_some]
  change (Move.mk actor (harness.held actor) ((harness.set actor next).held actor)).Sound
  rw [before, after]
  exact step.sound

theorem Tracked.runStatement {run : BlockRun LiveActor} (tracked : Tracked world run.harness)
    (block : AsBlock) (actorType : ActorType) (indexed : Statement × Nat) :
    Tracked world (runStatement (liveRuntime world) regex block actorType run indexed).1.harness := by
  unfold Harness.runStatement
  dsimp only
  split
  · unfold runCommand
    dsimp only
    split
    · exact tracked
    · split
      · exact tracked
      · split
        · exact tracked
        · next inst live =>
          rw [harness_settleOutcome]
          exact tracked.executed live (LiveActor.execute_holds _ _ _ inst)
  · split <;> exact tracked
  · exact tracked
  · exact tracked

theorem Tracked.executeItem (tracked : Tracked world harness) (sourceDir : String) (item : TopLevel) :
    Tracked world (executeItem (liveRuntime world) regex sourceDir harness item).1 := by
  cases item with
  | asBlock block =>
    rw [Harness.executeItem]
    unfold runAsBlock
    split
    · exact tracked
    · next actorType typed =>
      exact walk_invariant (fun run : BlockRun LiveActor => Tracked world run.harness)
        (fun run indexed kept => kept.runStatement block actorType indexed) tracked _
  | actorDeclaration decl =>
    simp only [Harness.executeItem, constructActor]
    cases Registry.get decl.actorType.name with
    | none => exact tracked
    | some actorType =>
      cases evalConstructArgs decl sourceDir with
      | error e => exact tracked
      | ok args =>
        dsimp only
        cases made : (liveRuntime world).construct harness.events actorType args with
        | error e =>
          have changed : afterCall world harness (.constructed decl.name.name actorType args) =
              harness := by
            simp only [afterCall, replayStep, made]
          exact tracked.log changed rfl trivial (.inr (.inr rfl))
        | ok inst =>
          have changed : afterCall world harness (.constructed decl.name.name actorType args) =
              harness.push decl.name.name inst := by
            simp only [afterCall, replayStep, made, HarnessState.push]
          refine tracked.log changed rfl trivial ?_
          rw [harness.held_push decl.name.name (LiveActor.construct_holds made)]
          exact .inr (.inr rfl)

/-- Wherever the walk stops, the ledger shows what is still running. -/
theorem tracked_executeItems (sourceDir : String) (items : List TopLevel) :
    Tracked world (executeItems (liveRuntime world) regex sourceDir .start items).1 :=
  walk_invariant (Tracked world) (fun _ item tracked => tracked.executeItem sourceDir item) .start items

end Walk

/-! ## Teardown -/

/-- A teardown call empties the slot of its actor: what it leaves holds nothing. -/
theorem slotsAfter_tornDown (events : List (Event LiveActor)) (actor : String) :
    slotsAfter world (events ++ [.tornDown actor]) =
      Function.update (slotsAfter world events) actor none := by
  rw [slotsAfter_concat]
  funext other
  by_cases own : other = actor
  · subst own
    rw [Function.update_self, afterCall]
    cases live : (stateAfter world events).get other with
    | none =>
      dsimp only
      rw [HarnessState.held, live, Option.bind_none]
    | some inst =>
      dsimp only
      rw [HarnessState.held_set, if_pos rfl, live, Option.bind_some]
      exact (inst.teardown_gives_up _).1
  · rw [Function.update_of_ne own]
    exact held_afterCall_of_ne _ (.tornDown actor) own

/-- Teardown calls empty the slots of the actors they are made on. -/
theorem balanced_tornDown {events : List (Event LiveActor)} (balanced : Balanced world events)
    (names : List String) :
    let torn := events ++ names.map Event.tornDown
    Balanced world torn ∧ ∀ name,
      slotsAfter world torn name = if name ∈ names then none else slotsAfter world events name := by
  induction names generalizing events with
  | nil => simpa using balanced
  | cons first rest ih =>
    have here : Balanced world (events ++ [.tornDown first]) := by
      apply balanced.concat
      rw [slotsAfter_tornDown]
      exact .inr (.inl (Function.update_self _ _ _))
    obtain ⟨later, emptied⟩ := ih here
    rw [List.append_assoc, List.singleton_append] at later emptied
    refine ⟨later, fun name => ?_⟩
    rw [List.map_cons, emptied, slotsAfter_tornDown]
    by_cases own : name = first
    · simp [own]
    · simp [own]

/-- When the turn of an actor comes, its slot holds what its instance holds. -/
theorem Tracked.slots_torn {harness : HarnessState LiveActor} (tracked : Tracked world harness)
    (distinct : harness.names.Nodup) {before after : List (String × LiveActor)}
    {entry : String × LiveActor} (split : harness.actors = before ++ entry :: after) :
    slotsAfter world (harness.events ++ after.reverse.map fun torn => .tornDown torn.1) entry.1 =
      entry.2.held := by
  have member : entry ∈ harness.actors := by
    rw [split]
    exact List.mem_append_right _ List.mem_cons_self
  have live := HarnessState.get_of_mem distinct member
  rw [HarnessState.names, split, List.map_append, List.map_cons] at distinct
  have standing : entry.1 ∉ after.reverse.map Prod.fst := by
    rw [List.map_reverse, List.mem_reverse]
    exact (List.nodup_cons.mp (List.nodup_append.mp distinct).2.1).1
  have same : (after.reverse.map fun torn => @Event.tornDown LiveActor torn.1) =
      (after.reverse.map Prod.fst).map Event.tornDown := by
    rw [List.map_map]
    rfl
  rw [same, (balanced_tornDown tracked.balanced _).2, if_neg standing, tracked.held,
    HarnessState.held, live]
  rfl

/-- In every run of a file that declares no actor twice, unless a command panics,
each process, container or session that an actor starts is given up once, in the
order started: by a command of that actor, or else by its teardown. Until then
every command of the actor finds it running, and none starts another. What is
reported of a teardown is how giving up what the ledger has left for the actor
turns out. -/
theorem resources_given_up (world : List (Event LiveActor) → External) (regex : Regex)
    (path sourceDir : String) (source : SourceFile) (distinct : (declaredNames source.items).Nodup)
    (run : TestRun LiveActor) (ran : executeLive world regex path source sourceDir = .ok run) :
    let walked := (executeItems (liveRuntime world) regex sourceDir .start source.items).1
    let moves := ledger world run.events
    (∀ event ∈ run.events, event.MayHold) ∧
    (∀ actor, takenBy actor moves = givenBy actor moves) ∧
    (∀ before move after resource, moves = before ++ move :: after → move.taken = some resource →
      ∃ between giving later, after = between ++ giving :: later ∧ giving.key = move.key ∧
        giving.given = some resource ∧ ∀ other ∈ between, other.key = move.key →
          other.before = some resource ∧ other.after = some resource) ∧
    ∀ before entry after, walked.actors = before ++ entry :: after →
      let past := walked.events ++ after.reverse.map fun torn => .tornDown torn.1
      run.report.teardown[before.length]? =
        some ⟨entry.1, giveUp (world past) (slotsAfter world past entry.1)⟩ := by
  obtain rfl := executeLive_eq_ok ran
  intro walked moves
  have tracked : Tracked world walked := tracked_executeItems sourceDir source.items
  have events : (execute (liveRuntime world) regex path source sourceDir).events =
      walked.events ++ (walked.actors.reverse.map Prod.fst).map Event.tornDown := by
    change (teardownAll (liveRuntime world) walked).1 = _
    rw [teardownAll, teardownInOrder_events, List.map_map]
    rfl
  obtain ⟨balanced, emptied⟩ :=
    balanced_tornDown tracked.balanced (walked.actors.reverse.map Prod.fst)
  rw [← events] at balanced emptied
  have settled : ∀ actor,
      slotsAfter world (execute (liveRuntime world) regex path source sourceDir).events actor = none := by
    intro actor
    rw [emptied]
    split
    · rfl
    · next absent =>
      have unknown : actor ∉ walked.names := by
        rwa [List.map_reverse, List.mem_reverse] at absent
      rw [tracked.held, HarnessState.held, HarnessState.get_eq_none_iff.mpr unknown]
      rfl
  refine ⟨?_, ?_, ?_, ?_⟩
  · intro event member
    rw [events, List.mem_append] at member
    rcases member with called | torn
    · exact tracked.steps event called
    · obtain ⟨name, -, rfl⟩ := List.mem_map.mp torn
      trivial
  · intro actor
    have sums := Chain.balance balanced actor
    rw [settled, Option.toList_none, List.append_nil] at sums
    exact sums
  · intro before move after resource split taken
    exact Chain.taken_given_up balanced settled split taken
  · intro before entry after split past
    obtain ⟨more, names, front⟩ :=
      @names_executeItems _ (liveRuntime world) regex .start sourceDir source.items
    rw [HarnessState.names_start, List.nil_append] at names
    have different : walked.names.Nodup := by
      rw [names]
      exact front.sublist.nodup distinct
    rw [tracked.slots_torn different split]
    have reported := @teardownAll_outcome _ (liveRuntime world) walked _ _ _ split
    refine reported.trans ?_
    exact congrArg (fun outcome => some (TeardownReport.mk entry.1 outcome))
      (entry.2.teardown_gives_up (world past)).2

/-- A process that is started and never stopped. -/
def spawnFile : SourceFile where
  items := [
    .actorDeclaration {
      name := ⟨"p", ⟨0, 0⟩⟩, actorType := ⟨"exec", ⟨0, 0⟩⟩, vars := [], span := ⟨0, 0⟩
      keywordArgs := [
        ⟨⟨"command", ⟨0, 0⟩⟩, .expr (.stringLit [.text "serve"] ⟨0, 0⟩), ⟨0, 0⟩⟩] },
    .asBlock (plainBlock "p" [.command (plainCommand "run")])]

/-- A host that spawns every program, and has to kill it. -/
def spawningWorld : External :=
  { refusingWorld with
    exec := {
      isDir := fun _ => false
      shlexSplit := fun text => some [text]
      spawn := fun _ => .ok ⟨some 7⟩
      wait := fun _ => .timedOut none } }

/-- The process is given up by the teardown of its actor. -/
theorem resources_given_up_spawned :
    let run := execute (liveRuntime fun _ => spawningWorld) noRegex "spawn.ill" spawnFile "."
    givenBy "p" (ledger (fun _ => spawningWorld) run.events) = [.process ⟨some 7⟩] := by
  intro run
  have given := resources_given_up (fun _ => spawningWorld) noRegex "spawn.ill" "." spawnFile
    (by decide) run rfl
  rw [← given.2.1 "p"]
  rfl

end Harness

end Ill
