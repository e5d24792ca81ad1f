import Ill.Harness.Instances
import Ill.Harness.Isolation

/-!
# Where the calls of a run come from

The log of a run lists the calls that were made, without the places they were
made at. Each command in it was dispatched at a command the walk reached, and
each command that was dispatched at such a place is in the log.
-/

namespace Ill.Harness

open Ast Actor Base

section Calls

variable {Instance : Type} {runtime : ActorRuntime (List (Event Instance)) Instance}
  {regex : Regex} {sourceDir : String} {source : SourceFile}

/-- A statement makes no call or dispatches its command, however it ends. -/
theorem runStatement_calls (block : AsBlock) (actorType : ActorType) (run : BlockRun Instance)
    (indexed : Statement × Nat) :
    (runStatement runtime regex block actorType run indexed).1.harness = run.harness ∨
      ∃ cmd outcome, indexed.1 = .command cmd ∧
        Dispatched runtime block actorType run cmd outcome
          (runStatement runtime regex block actorType run indexed).1.harness := by
  rcases statement_done_or_fails runtime regex block actorType run indexed with
    ⟨next, done⟩ | ⟨next, report, fails⟩
  · rw [runStatement_of_done runtime regex done]
    exact done.instances
  · rw [runStatement_of_fails runtime regex fails]
    cases fails with
    | commandError dispatched unexpected => exact .inr ⟨_, _, rfl, dispatched⟩
    | notImplemented dispatched => exact .inr ⟨_, _, rfl, dispatched⟩
    | _ => exact .inl rfl

/-- A declaration executes no command. -/
theorem executed_of_declaration {harness : HarnessState Instance} {decl : ActorDeclaration}
    {past : List (Event Instance)} {actor command : String} {before after : Instance}
    {args : CommandArgs} {outcome : RunOutcome}
    (front : past ++ [.executed actor before command args after outcome] <+:
      (executeItem runtime regex sourceDir harness (.actorDeclaration decl)).1.events) :
    past ++ [.executed actor before command args after outcome] <+: harness.events := by
  have older : ∀ actorType args',
      past ++ [.executed actor before command args after outcome] <+:
        harness.events ++ [.constructed decl.name.name actorType args'] →
      past ++ [.executed actor before command args after outcome] <+: harness.events := by
    intro actorType args' front
    rcases List.prefix_concat_iff.mp front with new | old
    · cases List.singleton_inj.mp (List.append_inj' new rfl).2
    · exact old
  simp only [executeItem, constructActor] at front
  cases known : Registry.get decl.actorType.name with
  | none => simpa only [known] using front
  | some actorType =>
    cases evaluated : evalConstructArgs decl sourceDir with
    | error e => simpa only [known, evaluated] using front
    | ok constructArgs =>
      simp only [known, evaluated] at front
      cases made : runtime.construct harness.events actorType constructArgs with
      | error e =>
        rw [made] at front
        exact older actorType constructArgs front
      | ok inst =>
        rw [made] at front
        exact older actorType constructArgs front

variable (runtime regex sourceDir source) in
/-- A command in the log and the calls before it: the place it was dispatched at,
with its arguments and the instance it found there. -/
inductive DispatchedAt : List (Event Instance) → Event Instance → Prop where
  | intro {visited block later harness actorType prior cmd rest run cmdDef consumed args inst next
      outcome}
      (reached : ReachesCommand runtime regex sourceDir source visited block later harness actorType
        prior cmd rest run)
      (resolved : actorType.resolveCommand cmd.name.name cmd.positionalArgs =
        some (cmdDef, consumed))
      (evaluated : evalCommandArgs cmd consumed (commandScope runtime block run) = .ok args)
      (live : run.harness.get block.actor.name = some inst)
      (answered : runtime.execute run.harness.events inst cmdDef.name args = (next, outcome)) :
      DispatchedAt run.harness.events
        (.executed block.actor.name inst cmdDef.name args next outcome)

variable (runtime regex sourceDir source) in
/-- Every command in the log so far was dispatched at a place the walk reached. -/
def Traced (harness : HarnessState Instance) : Prop :=
  ∀ past actor before command args after outcome,
    past ++ [.executed actor before command args after outcome] <+: harness.events →
      DispatchedAt runtime regex sourceDir source past
        (.executed actor before command args after outcome)

/-- A reached statement calls nothing, or is a reached command that is dispatched. -/
theorem ReachesBlock.statement_calls {visited later : List TopLevel} {block : AsBlock}
    {harness : HarnessState Instance}
    (reached : ReachesBlock runtime regex sourceDir source visited block later harness)
    {actorType : ActorType} (typed : blockType runtime block harness = .ok actorType)
    {prior rest : List (Statement × Nat)} {indexed : Statement × Nat} {run : BlockRun Instance}
    (split : block.body.zipIdx = prior ++ indexed :: rest)
    (ran : runStatements runtime regex block actorType ⟨harness, .new⟩ prior = (run, none)) :
    let after := (runStatement runtime regex block actorType run indexed).1.harness
    after = run.harness ∨ ∃ before cmd following outcome,
      ReachesCommand runtime regex sourceDir source visited block later harness actorType before cmd
          following run ∧
        Dispatched runtime block actorType run cmd outcome after := by
  obtain ⟨before, behind, body, rfl, numbered⟩ := List.zipIdx_eq_append_iff.mp split
  obtain ⟨stmt, following, rfl, rfl, rfl⟩ := List.zipIdx_eq_cons_iff.mp numbered.symm
  rcases runStatement_calls block actorType run (stmt, 0 + before.length) with
    same | ⟨cmd, outcome, isCommand, dispatched⟩
  · exact .inl same
  · obtain rfl : stmt = .command cmd := isCommand
    exact .inr ⟨before, cmd, following, outcome, ⟨reached, typed, body, ran⟩, dispatched⟩

/-- A reached statement logs a command only by dispatching it there. -/
theorem Traced.runStatement {visited later : List TopLevel} {block : AsBlock}
    {harness : HarnessState Instance}
    (reached : ReachesBlock runtime regex sourceDir source visited block later harness)
    {actorType : ActorType} (typed : blockType runtime block harness = .ok actorType)
    {prior rest : List (Statement × Nat)} {indexed : Statement × Nat} {run : BlockRun Instance}
    (split : block.body.zipIdx = prior ++ indexed :: rest)
    (ran : runStatements runtime regex block actorType ⟨harness, .new⟩ prior = (run, none))
    (traced : Traced runtime regex sourceDir source run.harness) :
    Traced runtime regex sourceDir source
      (runStatement runtime regex block actorType run indexed).1.harness := by
  rcases reached.statement_calls typed split ran with
    same | ⟨before, cmd, following, outcome, here, dispatched⟩
  · rw [same]
    exact traced
  · generalize (Harness.runStatement runtime regex block actorType run _).1.harness = final
      at dispatched
    cases dispatched with
    | intro resolved evaluated live answered =>
      intro past actor before command args after outcome front
      rcases List.prefix_concat_iff.mp front with new | old
      · obtain ⟨rfl, last⟩ := List.append_inj' new rfl
        cases List.singleton_inj.mp last
        exact .intro here resolved evaluated live answered
      · exact traced _ _ _ _ _ _ _ old

/-- A reached item logs commands only by dispatching them at places of its own. -/
theorem Traced.executeItem {visited later : List TopLevel} {item : TopLevel}
    {harness : HarnessState Instance} (split : source.items = visited ++ item :: later)
    (completed : executeItems runtime regex sourceDir .start visited = (harness, none))
    (traced : Traced runtime regex sourceDir source harness) :
    Traced runtime regex sourceDir source
      (executeItem runtime regex sourceDir harness item).1 := by
  cases item with
  | actorDeclaration decl =>
    intro past actor before command args after outcome front
    exact traced _ _ _ _ _ _ _ (executed_of_declaration front)
  | asBlock block =>
    rw [Harness.executeItem]
    unfold runAsBlock
    split
    · exact traced
    · next actorType typed =>
      exact walk_reached_invariant
        (fun run : BlockRun Instance => Traced runtime regex sourceDir source run.harness)
        (fun _ _ _ _ whole ran kept => kept.runStatement ⟨split, completed⟩ typed whole ran) traced

/-- Every command in the log of a run was dispatched at a command of the file
that the walk reached after the calls before it. -/
theorem dispatched_of_executed {path : String} {past later : List (Event Instance)}
    {actor command : String} {before after : Instance} {args : CommandArgs} {outcome : RunOutcome}
    (logged : (execute runtime regex path source sourceDir).events =
      past ++ .executed actor before command args after outcome :: later) :
    DispatchedAt runtime regex sourceDir source past
      (.executed actor before command args after outcome) := by
  have walked : Traced runtime regex sourceDir source
      (executeItems runtime regex sourceDir .start source.items).1 :=
    walk_reached_invariant (Traced runtime regex sourceDir source)
      (fun _ _ _ _ whole ran kept => kept.executeItem whole ran) (by simp [Traced, HarnessState.start])
  change (teardownAll runtime (executeItems runtime regex sourceDir .start source.items).1).1 = _
    at logged
  generalize (executeItems runtime regex sourceDir .start source.items).1 = final at walked logged
  rw [teardownAll, teardownInOrder_events] at logged
  have notTorn : .executed actor before command args after outcome ∉
      final.actors.reverse.map fun entry => Event.tornDown entry.1 := by simp
  apply walked
  rcases List.append_eq_append_iff.mp logged with ⟨torn, _, rest⟩ | ⟨called, whole, rest⟩
  · rw [rest] at notTorn
    exact absurd (List.mem_append_right _ List.mem_cons_self) notTorn
  · cases called with
    | nil =>
      rw [List.nil_append] at rest
      rw [← rest] at notTorn
      exact absurd List.mem_cons_self notTorn
    | cons first called =>
      obtain rfl := (List.cons.inj rest).1
      exact ⟨called, by rw [whole, List.append_assoc, List.singleton_append]⟩

/-- A command dispatched at a place the walk reaches is in the log of the run,
after the calls made before. -/
theorem ReachesCommand.executed {visited later : List TopLevel} {block : AsBlock}
    {harness : HarnessState Instance} {actorType : ActorType} {prior rest : List Statement}
    {cmd : Ast.Command} {run : BlockRun Instance}
    (reached : ReachesCommand runtime regex sourceDir source visited block later harness actorType
      prior cmd rest run) {cmdDef : Actor.Command} {consumed : Nat} {args : CommandArgs}
    {inst next : Instance} {outcome : RunOutcome}
    (resolved : actorType.resolveCommand cmd.name.name cmd.positionalArgs = some (cmdDef, consumed))
    (evaluated : evalCommandArgs cmd consumed (commandScope runtime block run) = .ok args)
    (live : run.harness.get block.actor.name = some inst)
    (answered : runtime.execute run.harness.events inst cmdDef.name args = (next, outcome))
    (path : String) :
    run.harness.events ++ [.executed block.actor.name inst cmdDef.name args next outcome] <+:
      (execute runtime regex path source sourceDir).events := by
  have dispatched : Dispatched runtime block actorType run cmd outcome _ :=
    .intro resolved evaluated live answered
  have logged : (runStatement runtime regex block actorType run
        (.command cmd, prior.length)).1.harness.events =
      run.harness.events ++ [.executed block.actor.name inst cmdDef.name args next outcome] := by
    rw [runStatement_of_dispatched runtime regex dispatched, harness_settleOutcome]
    rfl
  rw [← logged]
  -- From the statement to its block, from the block to the walk, and on to the teardown.
  have inBlock : (runStatement runtime regex block actorType run
        (.command cmd, prior.length)).1.harness.events <+:
      (runAsBlock runtime regex block harness).1.events := by
    have front : prior.zipIdx ++ [(Statement.command cmd, prior.length)] <+: block.body.zipIdx := by
      rw [reached.body, List.zipIdx_append, List.zipIdx_cons, Nat.zero_add]
      exact ⟨rest.zipIdx (prior.length + 1), by rw [List.append_assoc, List.singleton_append]⟩
    have grown := walk_log_prefix (runStatement runtime regex block actorType)
      (fun run => run.harness.events) (fun run indexed => events_runStatement block actorType run indexed)
      ⟨harness, .new⟩ front
    rw [walk_append_of_completed reached.ran, walk_singleton] at grown
    rw [runAsBlock, reached.typed]
    exact grown
  have inWalk : (runAsBlock runtime regex block harness).1.events <+:
      (executeItems runtime regex sourceDir .start source.items).1.events := by
    have front : visited ++ [.asBlock block] <+: source.items :=
      ⟨later, by rw [reached.split, List.append_assoc, List.singleton_append]⟩
    have grown := @events_executeItems _ runtime regex .start sourceDir _ _ front
    rwa [executeItems, walk_append_of_completed reached.completed, walk_singleton] at grown
  exact (inBlock.trans inWalk).trans (events_execute path sourceDir source)

/-- A command that is reported as not implemented is in the log with this answer. -/
theorem executed_of_notImplemented {path actor command : String} {span : Span}
    (recorded : .commandNotImplemented actor command span ∈
      (execute runtime regex path source sourceDir).report.statements) :
    ∃ name before cmd args after, .executed name before cmd args after (.notImplemented actor command) ∈
      (execute runtime regex path source sourceDir).events := by
  rcases ran : executeItems runtime regex sourceDir .start source.items with ⟨final, _ | report⟩
  · simp [execute, ran] at recorded
  · have same : report = .commandNotImplemented actor command span := by
      simpa [execute, ran, eq_comm] using recorded
    have walked := @events_execute _ runtime regex path sourceDir source
    rw [ran] at walked
    obtain ⟨_, _, _, _, _, _, fails⟩ := (executeItems_failed_iff runtime regex).mp ran
    cases fails with
    | statement _ _ _ _ failed =>
      cases failed with
      | notImplemented dispatched =>
        cases same
        cases dispatched with
        | intro _ _ _ _ =>
          exact ⟨_, _, _, _, _, walked.subset (List.mem_append_right _ List.mem_cons_self)⟩
      | _ => simp [unknownCommand, noLiveInstance, commandFailed] at same
    | _ => simp [noLiveInstance] at same

end Calls

/-! ## The first calls only -/

section Agree

variable {Instance : Type} {regex : Regex} {sourceDir : String} {source : SourceFile}

/-- Two runtimes that show instances alike and answer the first calls alike. -/
structure AgreeWithin (calls : Nat) (runtime other : ActorRuntime (List (Event Instance)) Instance) :
    Prop where
  typeName : other.typeName = runtime.typeName
  selfView : other.selfView = runtime.selfView
  construct : ∀ past, past.length < calls → other.construct past = runtime.construct past
  execute : ∀ past, past.length < calls → other.execute past = runtime.execute past

variable {calls : Nat} {runtime other : ActorRuntime (List (Event Instance)) Instance}

theorem AgreeWithin.symm (agree : AgreeWithin calls runtime other) : AgreeWithin calls other runtime where
  typeName := agree.typeName.symm
  selfView := agree.selfView.symm
  construct past early := (agree.construct past early).symm
  execute past early := (agree.execute past early).symm

/-- A statement does the same with both, as long as no further call is made. -/
theorem AgreeWithin.runStatement (agree : AgreeWithin calls runtime other) {block : AsBlock}
    {actorType : ActorType} {run : BlockRun Instance} {indexed : Statement × Nat}
    (within : (runStatement runtime regex block actorType run indexed).1.harness.events.length ≤
      calls) :
    runStatement other regex block actorType run indexed =
      runStatement runtime regex block actorType run indexed := by
  have bound : bindSelf other run.scope run.harness.actors block.actor.name =
      bindSelf runtime run.scope run.harness.actors block.actor.name := by
    rw [bindSelf, bindSelf, agree.selfView]
  obtain ⟨stmt, idx⟩ := indexed
  simp only [Harness.runStatement, bound] at within ⊢
  cases stmt with
  | command cmd =>
    dsimp only at within ⊢
    cases resolved : actorType.resolveCommand cmd.name.name cmd.positionalArgs with
    | none => simp only [runCommand, resolved]
    | some found =>
      obtain ⟨cmdDef, consumed⟩ := found
      cases evaluated : evalCommandArgs cmd consumed (commandScope runtime block run) with
      | error e =>
        simp only [commandScope, entryScope] at evaluated
        simp only [runCommand, resolved, evaluated]
      | ok args =>
        simp only [commandScope, entryScope] at evaluated
        cases live : run.harness.get block.actor.name with
        | none => simp only [runCommand, resolved, evaluated, live]
        | some inst =>
          rcases answered : runtime.execute run.harness.events inst cmdDef.name args with
            ⟨next, outcome⟩
          rw [runCommand_answered resolved evaluated live answered, harness_settleOutcome] at within
          have early : run.harness.events.length < calls := by
            simpa [HarnessState.log, HarnessState.set, Nat.succ_le_iff] using within
          have mirrored : other.execute run.harness.events inst cmdDef.name args = (next, outcome) := by
            rw [agree.execute _ early, answered]
          rw [runCommand_answered resolved evaluated live answered,
            runCommand_answered resolved evaluated live mirrored]
  | _ => rfl

theorem AgreeWithin.runStatements (agree : AgreeWithin calls runtime other) {block : AsBlock}
    {actorType : ActorType} {run : BlockRun Instance} {indexed : List (Statement × Nat)}
    (within : (runStatements runtime regex block actorType run indexed).1.harness.events.length ≤
      calls) :
    runStatements other regex block actorType run indexed =
      runStatements runtime regex block actorType run indexed := by
  obtain ⟨state, failure⟩ := walk_related (Harness.runStatement runtime regex block actorType)
    (Harness.runStatement other regex block actorType) Eq
    (fun run => run.harness.events.length ≤ calls) (List.forall₂_eq_eq_eq ▸ rfl)
    (fun run indexed later =>
      ((events_runStatement block actorType run indexed).length_le).trans later)
    (by
      rintro run _ indexed _ _ rfl within rfl
      rw [agree.runStatement within]
      exact ⟨rfl, rfl⟩)
    within rfl
  exact Prod.ext state.symm failure.symm

theorem AgreeWithin.blockType (agree : AgreeWithin calls runtime other) (block : AsBlock)
    (harness : HarnessState Instance) :
    blockType other block harness = blockType runtime block harness := by
  rw [Harness.blockType, Harness.blockType, agree.typeName]

theorem AgreeWithin.executeItem (agree : AgreeWithin calls runtime other)
    {harness : HarnessState Instance} {item : TopLevel}
    (within : (executeItem runtime regex sourceDir harness item).1.events.length ≤ calls) :
    executeItem other regex sourceDir harness item =
      executeItem runtime regex sourceDir harness item := by
  cases item with
  | asBlock block =>
    simp only [Harness.executeItem, runAsBlock, agree.blockType] at within ⊢
    split
    · rfl
    · next actorType typed =>
      simp only [typed] at within
      rw [agree.runStatements within]
  | actorDeclaration decl =>
    simp only [Harness.executeItem, constructActor] at within ⊢
    cases known : Registry.get decl.actorType.name with
    | none => rfl
    | some actorType =>
      cases evaluated : evalConstructArgs decl sourceDir with
      | error e => rfl
      | ok args =>
        have early : harness.events.length < calls := by
          simp only [known, evaluated] at within
          cases made : runtime.construct harness.events actorType args <;>
            simpa [made, Except.mapError, HarnessState.log, HarnessState.push, Nat.succ_le_iff]
              using within
        dsimp only
        rw [agree.construct _ early]

theorem AgreeWithin.executeItems (agree : AgreeWithin calls runtime other)
    {harness : HarnessState Instance} {items : List TopLevel}
    (within : (executeItems runtime regex sourceDir harness items).1.events.length ≤ calls) :
    executeItems other regex sourceDir harness items =
      executeItems runtime regex sourceDir harness items := by
  obtain ⟨state, failure⟩ := walk_related (Harness.executeItem runtime regex sourceDir)
    (Harness.executeItem other regex sourceDir) Eq (fun harness => harness.events.length ≤ calls)
    (List.forall₂_eq_eq_eq ▸ rfl)
    (fun harness item later => (events_executeItem sourceDir item).length_le.trans later)
    (by
      rintro harness _ item _ _ rfl within rfl
      rw [agree.executeItem within]
      exact ⟨rfl, rfl⟩)
    within rfl
  exact Prod.ext state.symm failure.symm

/-- A command reached within the first calls is reached with both, in the same state. -/
theorem ReachesCommand.agree {visited later : List TopLevel} {block : AsBlock}
    {harness : HarnessState Instance} {actorType : ActorType} {prior rest : List Statement}
    {cmd : Ast.Command} {run : BlockRun Instance}
    (reached : ReachesCommand runtime regex sourceDir source visited block later harness actorType
      prior cmd rest run)
    (agree : AgreeWithin calls runtime other) (within : run.harness.events.length ≤ calls) :
    ReachesCommand other regex sourceDir source visited block later harness actorType prior cmd rest
      run := by
  have grown : harness.events <+: run.harness.events := by
    have walked := walk_log_prefix (Harness.runStatement runtime regex block actorType)
      (fun run => run.harness.events) (fun run indexed => events_runStatement block actorType run indexed)
      ⟨harness, .new⟩ (@List.nil_prefix _ prior.zipIdx)
    rw [show walk _ _ prior.zipIdx = _ from reached.ran] at walked
    exact walked
  have before := @AgreeWithin.executeItems _ regex sourceDir _ _ _ agree .start visited
  have inside := @AgreeWithin.runStatements _ regex _ _ _ agree block actorType ⟨harness, .new⟩
    prior.zipIdx
  rw [reached.completed] at before
  rw [reached.ran] at inside
  exact {
    split := reached.split
    completed := before (grown.length_le.trans within)
    typed := (agree.blockType block harness).trans reached.typed
    body := reached.body
    ran := inside within }

end Agree

end Ill.Harness
