import Ill.Harness.Harness

/-!
# Teardown

The calls logged during the walk say which instances were constructed and what
the commands made of them; `replay` reads them back. However the walk ends,
teardown is called on exactly these, last constructed first, whatever the calls
before it came to.
-/

namespace Ill.Harness

open Ast Actor Base HarnessState

section Replay

variable {Instance : Type} (runtime : ActorRuntime (List (Event Instance)) Instance)

/-- The instances after one more call. -/
def replayStep (past : List (Event Instance)) (live : List (String × Instance)) :
    Event Instance → List (String × Instance)
  | .constructed actor actorType args =>
    match runtime.construct past actorType args with
    | .ok inst => live ++ [(actor, inst)]
    | .error _ => live
  | .executed actor _ _ _ after _ => replace actor after live
  | .tornDown _ => live

def replayFrom (past : List (Event Instance)) (live : List (String × Instance)) :
    List (Event Instance) → List (String × Instance)
  | [] => live
  | event :: later => replayFrom (past ++ [event]) (replayStep runtime past live event) later

/-- The instances constructed in a log of calls, in construction order, each as
its last command left it. -/
def replay (events : List (Event Instance)) : List (String × Instance) :=
  replayFrom runtime [] [] events

variable {runtime}

theorem replayFrom_append (past : List (Event Instance)) (live : List (String × Instance))
    (events later : List (Event Instance)) :
    replayFrom runtime past live (events ++ later) =
      replayFrom runtime (past ++ events) (replayFrom runtime past live events) later := by
  induction events generalizing past live with
  | nil => simp [replayFrom]
  | cons event events ih =>
    rw [List.cons_append, replayFrom, replayFrom, ih, List.append_assoc, List.singleton_append]

/-- One more call at the end of a log. -/
theorem replay_concat (events : List (Event Instance)) (event : Event Instance) :
    replay runtime (events ++ [event]) = replayStep runtime events (replay runtime events) event := by
  rw [replay, replayFrom_append, List.nil_append]
  rfl

end Replay

def Event.isTeardown {Instance : Type} : Event Instance → Bool
  | .tornDown _ => true
  | _ => false

section Walk

variable {Instance : Type} {runtime : ActorRuntime (List (Event Instance)) Instance} {regex : Regex}

/-- The live instances are those the log accounts for, and nothing was torn
down yet. -/
structure Replays (runtime : ActorRuntime (List (Event Instance)) Instance)
    (harness : HarnessState Instance) : Prop where
  live : harness.actors = replay runtime harness.events
  standing : ∀ event ∈ harness.events, event.isTeardown = false

theorem Replays.start : Replays runtime (start : HarnessState Instance) where
  live := rfl
  standing := by simp [HarnessState.start]

/-- A logged call keeps the log and the instances together, if the instances
change as the call says. -/
theorem Replays.log {harness : HarnessState Instance} (replays : Replays runtime harness)
    (event : Event Instance) (live : event.isTeardown = false) {actors : List (String × Instance)}
    (changed : actors = replayStep runtime harness.events harness.actors event) :
    Replays runtime ⟨actors, harness.events ++ [event]⟩ where
  live := by rw [replay_concat, ← replays.live, changed]
  standing := by
    intro other member
    rcases List.mem_append.mp member with before | here
    · exact replays.standing other before
    · rw [List.mem_singleton.mp here]
      exact live

theorem Replays.settleOutcome {actor : String} {cmd : Ast.Command} {expectsError : Bool}
    {harness : HarnessState Instance} (replays : Replays runtime harness) (scope : Scope)
    (outcome : RunOutcome) :
    Replays runtime (settleOutcome actor cmd expectsError harness scope outcome).1.harness := by
  cases outcome <;> exact replays

theorem Replays.runCommand {harness : HarnessState Instance} (replays : Replays runtime harness)
    (block : AsBlock) (actorType : ActorType) (scope : Scope) (cmd : Ast.Command) (idx : Nat) :
    Replays runtime (runCommand runtime block actorType harness scope cmd idx).1.harness := by
  unfold Harness.runCommand
  dsimp only
  split
  · exact replays
  next cmdDef consumed resolved =>
  split
  · exact replays
  next args evaluated =>
  split
  · exact replays
  · next inst found =>
    let answer := runtime.execute harness.events inst cmdDef.name args
    have logged := replays.log
      (.executed block.actor.name inst cmdDef.name args answer.1 answer.2) rfl rfl
    exact logged.settleOutcome _ _

theorem Replays.runStatement {run : BlockRun Instance} (replays : Replays runtime run.harness)
    (block : AsBlock) (actorType : ActorType) (indexed : Statement × Nat) :
    Replays runtime (runStatement runtime regex block actorType run indexed).1.harness := by
  unfold Harness.runStatement
  dsimp only
  split
  · exact replays.runCommand block actorType _ _ _
  · split <;> exact replays
  · exact replays
  · exact replays

theorem Replays.runAsBlock {harness : HarnessState Instance} (replays : Replays runtime harness)
    (block : AsBlock) : Replays runtime (runAsBlock runtime regex block harness).1 := by
  unfold Harness.runAsBlock
  split
  · exact replays
  · next actorType typed =>
    exact walk_invariant (fun run : BlockRun Instance => Replays runtime run.harness)
      (fun run indexed kept => kept.runStatement block actorType indexed) replays _

theorem Replays.executeItem {harness : HarnessState Instance} (replays : Replays runtime harness)
    (sourceDir : String) (item : TopLevel) :
    Replays runtime (executeItem runtime regex sourceDir harness item).1 := by
  cases item with
  | actorDeclaration decl =>
    simp only [Harness.executeItem, constructActor]
    cases Registry.get decl.actorType.name with
    | none => exact replays
    | some actorType =>
      cases evalConstructArgs decl sourceDir with
      | error e => exact replays
      | ok args =>
        have logged : ∀ {actors : List (String × Instance)}, _ → Replays runtime ⟨actors, _⟩ :=
          replays.log (.constructed decl.name.name actorType args) rfl
        cases constructed : runtime.construct harness.events actorType args with
        | error e =>
          simp only [constructed, Except.mapError]
          refine logged ?_
          rw [replayStep, constructed]
        | ok inst =>
          simp only [constructed, Except.mapError]
          refine logged ?_
          rw [replayStep, constructed]
          rfl
  | asBlock block => exact replays.runAsBlock block

/-- Wherever the walk stops, the log accounts for the live instances. -/
theorem replays_executeItems (sourceDir : String) (items : List TopLevel) :
    Replays runtime (executeItems runtime regex sourceDir .start items).1 :=
  walk_invariant (Replays runtime)
    (fun _ item replays => replays.executeItem sourceDir item) .start items

/-! ## The walk in reverse -/

/-- One report for each entry. -/
theorem teardownInOrder_actors (events : List (Event Instance))
    (entries : List (String × Instance)) :
    (teardownInOrder runtime events entries).2.map (·.actor) = entries.map Prod.fst := by
  induction entries generalizing events with
  | nil => rfl
  | cons entry rest ih =>
    obtain ⟨name, inst⟩ := entry
    rw [teardownInOrder, List.map_cons, ih, List.map_cons]

/-- The report of an entry holds the answer of that entry's own instance. -/
theorem teardownInOrder_outcome (events : List (Event Instance))
    (before after : List (String × Instance)) (entry : String × Instance) :
    (teardownInOrder runtime events (before ++ entry :: after)).2[before.length]? =
      some ⟨entry.1, taskOutcome
        (runtime.teardown (events ++ before.map fun torn => .tornDown torn.1) entry.2)⟩ := by
  induction before generalizing events with
  | nil =>
    obtain ⟨name, inst⟩ := entry
    simp [teardownInOrder]
  | cons first before ih =>
    obtain ⟨name, inst⟩ := first
    rw [List.cons_append, teardownInOrder, List.length_cons, List.getElem?_cons_succ, ih,
      List.map_cons, List.append_assoc, List.singleton_append]

/-- The reports in construction order. -/
theorem teardownAll_outcome (harness : HarnessState Instance)
    {before after : List (String × Instance)} {entry : String × Instance}
    (split : harness.actors = before ++ entry :: after) :
    (teardownAll runtime harness).2[before.length]? =
      some ⟨entry.1, taskOutcome (runtime.teardown
        (harness.events ++ after.reverse.map fun torn => .tornDown torn.1) entry.2)⟩ := by
  have reported := @teardownInOrder_outcome _ runtime harness.events after.reverse
    before.reverse entry
  have backwards : harness.actors.reverse = after.reverse ++ entry :: before.reverse := by
    simp [split]
  have length : (teardownInOrder runtime harness.events harness.actors.reverse).2.length =
      before.length + 1 + after.length := by
    have reports := congrArg List.length
      (@teardownInOrder_actors _ runtime harness.events harness.actors.reverse)
    have total := congrArg List.length split
    rw [List.length_map, List.length_map, List.length_reverse] at reports
    rw [List.length_append, List.length_cons] at total
    omega
  rw [← backwards, List.length_reverse] at reported
  have mirrored : before.length + 1 + after.length - 1 - before.length = after.length := by omega
  rw [teardownAll, List.getElem?_reverse (by omega), length, mirrored]
  exact reported

/-- Teardown is called on exactly the instances constructed, each once, last
constructed first, and on nothing before the walk has stopped. The reports list
the same actors in construction order, each with the answer of its own instance.
What the teardown calls come to changes neither the calls nor the verdict. -/
theorem teardown_accounting (runtime : ActorRuntime (List (Event Instance)) Instance)
    (regex : Regex) (path sourceDir : String) (source : SourceFile) :
    let walked := (executeItems runtime regex sourceDir .start source.items).1.events
    let constructed := replay runtime walked
    let run := execute runtime regex path source sourceDir
    (∀ event ∈ walked, event.isTeardown = false) ∧
    run.events = walked ++ constructed.reverse.map (fun entry => .tornDown entry.1) ∧
    run.report.teardown.map (·.actor) = constructed.map Prod.fst ∧
    (∀ before entry after, constructed = before ++ entry :: after →
      run.report.teardown[before.length]? = some ⟨entry.1, taskOutcome (runtime.teardown
        (walked ++ after.reverse.map fun torn => .tornDown torn.1) entry.2)⟩) ∧
    ∀ teardown : List (Event Instance) → Instance → TaskEnd,
      let other := execute { runtime with teardown } regex path source sourceDir
      other.events = run.events ∧ other.report.passed = run.report.passed ∧
        other.report.statements = run.report.statements := by
  intro walked constructed run
  obtain ⟨live, standing⟩ : Replays runtime _ :=
    @replays_executeItems _ runtime regex sourceDir source.items
  let harness := (executeItems runtime regex sourceDir .start source.items).1
  change harness.actors = constructed at live
  have events : run.events = walked ++ constructed.reverse.map fun entry => .tornDown entry.1 := by
    change (teardownAll runtime harness).1 = _
    rw [teardownAll, teardownInOrder_events, live]
  refine ⟨standing, events, ?_, ?_, ?_⟩
  · change (teardownAll runtime harness).2.map (·.actor) = _
    rw [teardownAll, List.map_reverse, teardownInOrder_actors, live, List.map_reverse,
      List.reverse_reverse]
  · intro before entry after split
    exact teardownAll_outcome _ (live.trans split)
  · intro teardown other
    refine ⟨?_, rfl, rfl⟩
    rw [events]
    change (teardownAll { runtime with teardown } harness).1 = _
    rw [teardownAll, teardownInOrder_events, live]

end Walk

end Ill.Harness
