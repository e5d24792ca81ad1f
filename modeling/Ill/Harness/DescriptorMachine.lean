import Mathlib.Logic.Function.Basic
import Ill.Actor.InMode
import Ill.Harness.Calls
import Ill.Harness.Lockstep
import Ill.Harness.Panics

/-!
# The machine the descriptors describe

Of an actor a descriptor shows a type and a mode. The machine made of these
alone constructs an actor in the initial mode of its type, takes a command only
in a mode the command is valid in, moves on a success, stays on an error, knows
every command it takes, and gives each actor up once. The runs of an accepted
file are runs of this machine, from no actors to no actors; a run that a panic
ends is one up to the command that panicked.
-/

namespace Ill.Harness

open Ast Actor Base Validate

/-- The actors by name, as their descriptors show them. -/
abbrev Shown := String → Option (ActorType × Mode)

/-- One call, as the descriptors have it. -/
inductive DescribedStep {Instance : Type} : Shown → Event Instance → Shown → Prop where
  | constructed {shown name actorType args} (fresh : shown name = none) :
      DescribedStep shown (.constructed name actorType args)
        (Function.update shown name (some (actorType, actorType.initialMode)))
  | notConstructed {shown name actorType args} (fresh : shown name = none) :
      DescribedStep shown (.constructed name actorType args) shown
  | succeeded {shown name inst cmdDef args next fields actorType mode}
      (live : shown name = some (actorType, mode)) (member : cmdDef ∈ actorType.commands)
      (valid : mode ∈ cmdDef.validInModes) :
      DescribedStep shown (.executed name inst cmdDef.name args next (.ok fields))
        (Function.update shown name (some (actorType, cmdDef.modeAfterOk mode)))
  | failed {shown name inst cmdDef args next variant fields actorType mode}
      (live : shown name = some (actorType, mode)) (member : cmdDef ∈ actorType.commands)
      (valid : mode ∈ cmdDef.validInModes) :
      DescribedStep shown (.executed name inst cmdDef.name args next (.error variant fields)) shown
  | tornDown {shown name actorType mode} (live : shown name = some (actorType, mode)) :
      DescribedStep shown (.tornDown name) (Function.update shown name none)

/-- The call a run leaves the machine with: a command in a mode it is valid in,
whose error ends what it was sent to. -/
inductive Derails {Instance : Type} : Shown → Event Instance → Prop where
  | intro {shown name inst cmdDef args next variant fields actorType mode}
      (live : shown name = some (actorType, mode)) (member : cmdDef ∈ actorType.commands)
      (valid : mode ∈ cmdDef.validInModes)
      (ends : endsDespiteError cmdDef (.error variant fields)) :
      Derails shown (.executed name inst cmdDef.name args next (.error variant fields))

/-- Some calls run the machine to a call that leaves it. -/
def Derailed {Instance : Type} (events : List (Event Instance)) : Prop :=
  ∃ followed call later shown, events = followed ++ call :: later ∧
    Chain DescribedStep (fun _ => none) followed shown ∧ Derails shown call

/-- The machine takes a command: the actor is live and in a mode it is valid in. -/
def Takes (shown : Shown) (name command : String) : Prop :=
  ∃ actorType mode, shown name = some (actorType, mode) ∧
    ∃ cmdDef ∈ actorType.commands, cmdDef.name = command ∧ mode ∈ cmdDef.validInModes

/-- No window of a file can capture a reference to `error`. -/
def CapturesNothing (source : SourceFile) : Prop :=
  ∀ before block after, source.items = before ++ .asBlock block :: after →
    ∀ prior cmd rest, block.body = prior ++ .command cmd :: rest →
      capturesError before (window rest) = false

section Live

variable {world : List (Event LiveActor) → External} {regex : Regex} {sourceDir : String}
  {source : SourceFile}

/-- A file whose blocks do not refer to `error` captures nothing. -/
theorem capturesNothing_of_unread {source : SourceFile}
    (unread : ∀ block, .asBlock block ∈ source.items → ∀ stmt ∈ block.body,
      refersToError stmt = false) : CapturesNothing source := by
  intro before block after split prior cmd rest body
  apply capturesError_of_unread
  intro stmt inside
  apply unread block
  · rw [split]
    exact List.mem_append_right _ List.mem_cons_self
  · rw [body]
    exact List.mem_append_right _ (List.mem_cons_of_mem _ (List.takeWhile_subset _ inside))

/-- Nor does a file with one actor whose only block does not refer to `error`. -/
theorem CapturesNothing.of_one_block {name actorType : String} {block : AsBlock}
    (unread : ∀ stmt ∈ block.body, refersToError stmt = false) :
    CapturesNothing ⟨[plainActor name actorType, .asBlock block]⟩ := by
  apply capturesNothing_of_unread
  intro other member
  simp only [plainActor, List.mem_cons, reduceCtorEq, TopLevel.asBlock.injEq, List.not_mem_nil,
    or_false, false_or] at member
  rw [member]
  exact unread

theorem CapturesNothing.uncaptured (nothing : CapturesNothing source) :
    Uncaptured world regex sourceDir source := by
  intro before block after harness actorType prior cmd rest run reached
  exact nothing _ _ _ reached.split _ _ _ reached.body

/-! ## Until an error moves an instance -/

/-- A command whose error moved its instance to another mode. -/
def errorMoved : Event LiveActor → Bool
  | .executed _ inst _ _ next outcome => outcome.isError && next.mode != inst.mode
  | _ => false

theorem stays_of_unmoved {name command : String} {inst next : LiveActor} {args : CommandArgs}
    {outcome : RunOutcome} (unmoved : errorMoved (.executed name inst command args next outcome) = false)
    (erroneous : outcome.isError = true) : next.mode = inst.mode := by
  rw [errorMoved, erroneous, Bool.true_and] at unmoved
  exact bne_eq_false_iff_eq.mp unmoved

/-- A world, up to some number of calls; from then on nothing ends in spite of an error. -/
def mended (calls : Nat) (world : List (Event LiveActor) → External)
    (past : List (Event LiveActor)) : External :=
  if past.length < calls then world past else mildWorld

theorem agree_mended (calls : Nat) (world : List (Event LiveActor) → External) :
    AgreeWithin calls (liveRuntime world) (liveRuntime (mended calls world)) where
  typeName := rfl
  selfView := rfl
  construct past early := by simp only [liveRuntime, mended, if_pos early]
  execute past early := by simp only [liveRuntime, mended, if_pos early]

/-- If no error among the first calls of a run moved its instance, every command
of the mended run obeys its descriptor. -/
theorem obeysDescriptors_mended (accepted : accepts source = true) {path : String}
    {followed : List (Event LiveActor)}
    (front : followed <+: (execute (liveRuntime world) regex path source sourceDir).events)
    (unmoved : ∀ event ∈ followed, errorMoved event = false) :
    ObeysDescriptors (mended followed.length world) regex sourceDir source := by
  intro before block after harness actorType prior cmd rest run reached cmdDef consumed args actor
    resolved evaluated live
  obtain ⟨actorArgs, _⟩ := reached.actorType_eq accepted live
  have member : cmdDef ∈ actor.actorType.commands :=
    actorArgs ▸ (ActorType.resolveCommand_spec resolved).1
  refine ⟨LiveActor.execute_ok_moves _ _ _ member, fun erroneous => ?_⟩
  by_cases early : run.harness.events.length < followed.length
  · have here := reached.agree (agree_mended followed.length world).symm early.le
    have logged := here.executed resolved evaluated live rfl path
    have inside := List.prefix_of_prefix_length_le logged front (by
      rw [List.length_append, List.length_singleton]
      exact early)
    have still := unmoved _ (inside.subset (List.mem_append_right _ List.mem_cons_self))
    rw [mended, if_pos early] at erroneous ⊢
    exact stays_of_unmoved still erroneous
  · rw [mended, if_neg early] at erroneous ⊢
    exact LiveActor.execute_mild args actor member erroneous

/-- Live actors, as their descriptors show them. -/
def shownOf (actors : List (String × LiveActor)) : Shown :=
  fun name => (actors.lookup name).map fun actor => (actor.actorType, actor.mode)

def shownBy (harness : HarnessState LiveActor) : Shown := shownOf harness.actors

/-- The calls made so far are a run of the machine that ends in the live actors. -/
structure Described (harness : HarnessState LiveActor) : Prop where
  distinct : harness.names.Nodup
  follows : Chain DescribedStep (fun _ => none) harness.events (shownBy harness)

theorem Described.start : Described .start where
  distinct := List.nodup_nil
  follows := .nil

/-- A further call is described if it is a step of the machine. -/
theorem Described.log {harness next : HarnessState LiveActor} (described : Described harness)
    {event : Event LiveActor} (logged : next.events = harness.events ++ [event])
    (distinct : next.names.Nodup) (step : DescribedStep (shownBy harness) event (shownBy next)) :
    Described next where
  distinct := distinct
  follows := by
    rw [logged]
    exact described.follows.append (.cons step .nil)

theorem Described.constructed {harness : HarnessState LiveActor} (described : Described harness)
    {name : String} (fresh : harness.get name = none) {ext : External} {actorType : ActorType}
    {args : ConstructArgs} {actor : LiveActor}
    (made : LiveActor.construct ext args actorType = .ok actor) :
    Described ((harness.log (.constructed name actorType args)).push name actor) := by
  obtain ⟨kind, mode⟩ := LiveActor.construct_spec made
  have unshown : shownBy harness name = none := by
    change (harness.get name).map _ = none
    rw [fresh, Option.map_none]
  refine described.log rfl ?_ ?_
  · rw [HarnessState.names_push, HarnessState.names_log]
    refine described.distinct.append (List.nodup_singleton name) ?_
    rw [List.disjoint_singleton]
    exact HarnessState.get_eq_none_iff.mp fresh
  · have shown : shownBy ((harness.log (.constructed name actorType args)).push name actor) =
        Function.update (shownBy harness) name (some (actorType, actorType.initialMode)) := by
      funext other
      change (HarnessState.get _ other).map _ = _
      rw [HarnessState.get_push, HarnessState.get_log]
      by_cases own : other = name
      · rw [own, Function.update_self, fresh, if_pos rfl, Option.none_or, Option.map_some, kind, mode]
      · rw [Function.update_of_ne own, if_neg own, Option.or_none]
        rfl
    rw [shown]
    exact .constructed unshown

/-- A command in a mode it is valid in, answered as its descriptor says. -/
theorem Described.executed {harness : HarnessState LiveActor} (described : Described harness)
    {name : String} {actor next : LiveActor} (live : harness.get name = some actor)
    {cmdDef : Actor.Command} (member : cmdDef ∈ actor.actorType.commands)
    (valid : actor.mode ∈ cmdDef.validInModes) {ext : External} {args : CommandArgs}
    {outcome : RunOutcome} (answered : actor.execute ext cmdDef.name args = (next, outcome))
    (obeys : cmdDef.Obeys actor.mode outcome next.mode) :
    Described ((harness.set name next).log
      (.executed name actor cmdDef.name args next outcome)) := by
  have kind : next.actorType = actor.actorType := by
    have kept := LiveActor.execute_actorType ext cmdDef.name args actor
    rwa [answered] at kept
  have known : outcome.isAnswer = true := by
    have replied := LiveActor.execute_answers ext args actor member valid
    rwa [answered] at replied
  have held : shownBy harness name = some (actor.actorType, actor.mode) := by
    change (harness.get name).map _ = _
    rw [live, Option.map_some]
  have shown : shownBy ((harness.set name next).log
        (.executed name actor cmdDef.name args next outcome)) =
      Function.update (shownBy harness) name (some (actor.actorType, next.mode)) := by
    funext other
    change (HarnessState.get _ other).map _ = _
    rw [HarnessState.get_log, HarnessState.get_set]
    by_cases own : other = name
    · rw [own, if_pos rfl, live, Function.update_self, ← kind]
      rfl
    · rw [if_neg own, Function.update_of_ne own]
      rfl
  refine described.log rfl ?_ ?_
  · rw [HarnessState.names_log, HarnessState.names_set]
    exact described.distinct
  · rw [shown]
    cases outcome with
    | ok fields =>
      rw [obeys.1 rfl]
      exact .succeeded held member valid
    | error variant fields =>
      rw [obeys.2 rfl, ← held, Function.update_eq_self]
      exact .failed held member valid
    | notImplemented actor command => simp [RunOutcome.isAnswer] at known

/-- Tearing actors down one by one, the last first, leaves none. -/
theorem tornDown_described {actors : List (String × LiveActor)}
    (distinct : (actors.map Prod.fst).Nodup) :
    Chain (@DescribedStep LiveActor) (shownOf actors)
      (actors.reverse.map fun entry => .tornDown entry.1) fun _ => none := by
  induction actors using List.reverseRecOn with
  | nil => exact .nil
  | append_singleton front last ih =>
    obtain ⟨name, actor⟩ := last
    rw [List.map_append, List.nodup_append'] at distinct
    obtain ⟨apart, _, disjoint⟩ := distinct
    have absent : front.lookup name = none := by
      refine List.lookup_eq_none_iff.mpr fun entry member => ?_
      have other : entry.1 ≠ name := by
        rintro rfl
        exact disjoint (List.mem_map_of_mem member) List.mem_cons_self
      exact bne_iff_ne.mpr other.symm
    have live : shownOf (front ++ [(name, actor)]) name = some (actor.actorType, actor.mode) := by
      rw [shownOf, List.lookup_append, absent, Option.none_or, List.lookup_cons_self, Option.map_some]
    have rest : Function.update (shownOf (front ++ [(name, actor)])) name none = shownOf front := by
      funext other
      by_cases own : other = name
      · rw [own, Function.update_self, shownOf, absent, Option.map_none]
      · rw [Function.update_of_ne own, shownOf, List.lookup_append, List.lookup_cons,
          beq_false_of_ne own]
        simp [shownOf]
    rw [List.reverse_concat, List.map_cons]
    refine .cons (.tornDown live) ?_
    rw [rest]
    exact ih apart

/-- A reached command finds its instance in a mode the command is valid in. -/
theorem ReachesCommand.valid_in_mode (accepted : accepts source = true)
    (obeys : ObeysDescriptors world regex sourceDir source)
    (uncaptured : Uncaptured world regex sourceDir source) {visited later : List TopLevel}
    {block : AsBlock} {harness : HarnessState LiveActor} {actorType : ActorType}
    {prior rest : List Statement} {cmd : Ast.Command} {run : BlockRun LiveActor}
    (reached : ReachesCommand (liveRuntime world) regex sourceDir source visited block later harness
      actorType prior cmd rest run) {cmdDef : Actor.Command} {consumed : Nat} {actor : LiveActor}
    (resolved : actorType.resolveCommand cmd.name.name cmd.positionalArgs = some (cmdDef, consumed))
    (live : run.harness.get block.actor.name = some actor) :
    actor.mode ∈ cmdDef.validInModes := by
  have inStep := inStep_of_completed accepted obeys uncaptured reached.split
    ((executeItems_completed_iff (liveRuntime world) regex).mp reached.completed)
  obtain ⟨first, found, _, known⟩ :=
    (reached.toReachesBlock.liveFor accepted).blockType_eq reached.typed
  obtain ⟨present, here, agree⟩ := reached.toReachesBlock.modes_agree accepted obeys uncaptured
    reached.typed found (inStep.modes _ _ found) prior _ run reached.body rfl reached.ran
  obtain rfl : present = actor := Option.some.inj (here.symm.trans live)
  obtain ⟨state, healthy, stateType, checked⟩ := command_silent accepted reached.split reached.body
  have sameMode : state.mode = present.mode := by
    rw [Actors.mode?, examined, healthy] at agree
    exact Option.some.inj agree
  have sameType : state.typeDef = actorType := Option.some.inj (stateType.symm.trans known)
  obtain ⟨examinedDef, taken, lookup, valid, _⟩ := checkCommandIn_silent checked
  rw [sameType, resolved] at lookup
  obtain ⟨rfl, rfl⟩ := Prod.mk.inj (Option.some.inj lookup)
  exact sameMode ▸ valid

/-- A reached statement keeps the calls described. -/
theorem Described.runStatement (accepted : accepts source = true)
    (obeys : ObeysDescriptors world regex sourceDir source)
    (uncaptured : Uncaptured world regex sourceDir source) {visited later : List TopLevel}
    {block : AsBlock} {harness : HarnessState LiveActor}
    (reached : ReachesBlock (liveRuntime world) regex sourceDir source visited block later harness)
    {actorType : ActorType} (typed : blockType (liveRuntime world) block harness = .ok actorType)
    {prior rest : List (Statement × Nat)} {indexed : Statement × Nat} {run : BlockRun LiveActor}
    (split : block.body.zipIdx = prior ++ indexed :: rest)
    (ran : runStatements (liveRuntime world) regex block actorType ⟨harness, .new⟩ prior = (run, none))
    (described : Described run.harness) :
    Described (runStatement (liveRuntime world) regex block actorType run indexed).1.harness := by
  rcases reached.statement_calls typed split ran with
    same | ⟨before, cmd, following, outcome, here, dispatched⟩
  · rw [same]
    exact described
  · generalize (Harness.runStatement (liveRuntime world) regex block actorType run _).1.harness = final
      at dispatched
    cases dispatched with
    | intro resolved evaluated live answered =>
      have member := (ActorType.resolveCommand_spec resolved).1
      rw [← (here.actorType_eq accepted live).1] at member
      have obeyed := obeys _ _ _ _ _ _ _ _ _ here _ _ _ _ resolved evaluated live
      have result : LiveActor.execute (world run.harness.events) _ _ _ = _ := answered
      rw [result] at obeyed
      exact described.executed live member
        (here.valid_in_mode accepted obeys uncaptured resolved live) result obeyed

/-- A reached item keeps the calls described. -/
theorem Described.executeItem (accepted : accepts source = true)
    (obeys : ObeysDescriptors world regex sourceDir source)
    (uncaptured : Uncaptured world regex sourceDir source) {visited later : List TopLevel}
    {item : TopLevel} {harness : HarnessState LiveActor}
    (split : source.items = visited ++ item :: later)
    (completed : executeItems (liveRuntime world) regex sourceDir .start visited = (harness, none))
    (described : Described harness) :
    Described (executeItem (liveRuntime world) regex sourceDir harness item).1 := by
  cases item with
  | asBlock block =>
    rw [Harness.executeItem]
    unfold runAsBlock
    split
    · exact described
    · next actorType typed =>
      exact walk_reached_invariant (fun run : BlockRun LiveActor => Described run.harness)
        (fun _ _ _ _ whole ran kept =>
          kept.runStatement accepted obeys uncaptured ⟨split, completed⟩ typed whole ran) described
  | actorDeclaration decl =>
    have fresh : harness.get decl.name.name = none := by
      have live := liveFor_of_completed accepted split
        ((executeItems_completed_iff (liveRuntime world) regex).mp completed)
      have distinct := (registers_of_accepts accepted).distinct
      rw [split, declaredNames_append, List.nodup_append] at distinct
      rw [HarnessState.get_eq_none_iff, live.names]
      exact fun again => distinct.2.2 _ again _ (by simp) rfl
    simp only [Harness.executeItem, constructActor]
    cases Registry.get decl.actorType.name with
    | none => exact described
    | some actorType =>
      cases evalConstructArgs decl sourceDir with
      | error e => exact described
      | ok args =>
        dsimp only
        cases made : (liveRuntime world).construct harness.events actorType args with
        | error e =>
          refine described.log rfl described.distinct (.notConstructed ?_)
          change (harness.get decl.name.name).map _ = none
          rw [fresh, Option.map_none]
        | ok actor => exact described.constructed fresh made

/-- Some items of a file, walked from its start, keep the calls described. -/
theorem described_executeItems (accepted : accepts source = true)
    (obeys : ObeysDescriptors world regex sourceDir source)
    (uncaptured : Uncaptured world regex sourceDir source) {items later : List TopLevel}
    (split : source.items = items ++ later) :
    Described (executeItems (liveRuntime world) regex sourceDir .start items).1 := by
  refine walk_reached_invariant Described (fun before item after current whole ran kept => ?_) .start
  rw [whole, List.append_assoc, List.cons_append] at split
  exact kept.executeItem accepted obeys uncaptured split ran

/-- The calls before a reached command are described. -/
theorem ReachesCommand.described (accepted : accepts source = true)
    (obeys : ObeysDescriptors world regex sourceDir source)
    (uncaptured : Uncaptured world regex sourceDir source) {visited later : List TopLevel}
    {block : AsBlock} {harness : HarnessState LiveActor} {actorType : ActorType}
    {prior rest : List Statement} {cmd : Ast.Command} {run : BlockRun LiveActor}
    (reached : ReachesCommand (liveRuntime world) regex sourceDir source visited block later harness
      actorType prior cmd rest run) : Described run.harness := by
  have start := described_executeItems accepted obeys uncaptured reached.split
  rw [reached.completed] at start
  have walked : Described (runStatements (liveRuntime world) regex block actorType ⟨harness, .new⟩
      prior.zipIdx).1.harness := by
    refine walk_reached_invariant (fun run : BlockRun LiveActor => Described run.harness)
      (fun before indexed after current whole ran kept => ?_) start
    have split : block.body.zipIdx = before ++ indexed ::
        (after ++ (Statement.command cmd :: rest).zipIdx prior.length) := by
      rw [reached.body, List.zipIdx_append, whole, List.append_assoc, List.cons_append, Nat.zero_add]
    exact kept.runStatement accepted obeys uncaptured reached.toReachesBlock reached.typed split ran
  rwa [reached.ran] at walked

/-- A command in the log, after calls of which none errs and moves its instance: the
calls are described, and the machine takes the command. -/
theorem executed_described (accepted : accepts source = true) (nothing : CapturesNothing source)
    {path name command : String} {followed later : List (Event LiveActor)} {inst next : LiveActor}
    {args : CommandArgs} {outcome : RunOutcome}
    (split : (execute (liveRuntime world) regex path source sourceDir).events =
      followed ++ .executed name inst command args next outcome :: later)
    (unmoved : ∀ event ∈ followed, errorMoved event = false) :
    inst.execute (world followed) command args = (next, outcome) ∧
      ∃ shown, Chain DescribedStep (fun _ => none) followed shown ∧
        shown name = some (inst.actorType, inst.mode) ∧
        ∃ cmdDef ∈ inst.actorType.commands, cmdDef.name = command ∧ inst.mode ∈ cmdDef.validInModes := by
  have obeys := obeysDescriptors_mended accepted ⟨_, split.symm⟩ unmoved
  cases dispatched_of_executed split with
  | @intro visited block rest harness actorType prior cmd after run cmdDef consumed args inst next
      outcome reached resolved evaluated live answered =>
    have here := reached.agree (agree_mended run.harness.events.length world) le_rfl
    have described := here.described accepted obeys nothing.uncaptured
    have valid := here.valid_in_mode accepted obeys nothing.uncaptured resolved live
    have member := (ActorType.resolveCommand_spec resolved).1
    rw [← (reached.actorType_eq accepted live).1] at member
    refine ⟨answered, _, described.follows, ?_, cmdDef, member, rfl, valid⟩
    change (run.harness.get block.actor.name).map _ = _
    rw [live, Option.map_some]

/-- Among the calls that a run starts with no error moves its instance, or they
leave the machine. -/
theorem unmoved_or_derailed (accepted : accepts source = true) (nothing : CapturesNothing source)
    {path : String} {front : List (Event LiveActor)}
    (starts : front <+: (execute (liveRuntime world) regex path source sourceDir).events) :
    (∀ event ∈ front, errorMoved event = false) ∨ Derailed front := by
  cases first : front.find? errorMoved with
  | none => exact .inl (by simpa using List.find?_eq_none.mp first)
  | some call =>
    right
    obtain ⟨moved, followed, later, split, before⟩ := List.find?_eq_some_iff_append.mp first
    obtain ⟨behind, whole⟩ := starts
    rw [split, List.append_assoc, List.cons_append] at whole
    cases call with
    | constructed name actorType args => simp [errorMoved] at moved
    | tornDown name => simp [errorMoved] at moved
    | executed name inst command args next outcome =>
      obtain ⟨answered, shown, follows, live, cmdDef, member, rfl, valid⟩ :=
        executed_described accepted nothing whole.symm (by simpa using before)
      rw [errorMoved, Bool.and_eq_true, bne_iff_ne] at moved
      have ends := LiveActor.execute_error_moves (world followed) args inst member
      rw [answered] at ends
      obtain ⟨_, ends⟩ := ends moved.1 moved.2
      refine ⟨followed, _, later, shown, split, follows, ?_⟩
      cases outcome with
      | error variant fields => exact .intro live member valid ends
      | ok fields => simp [RunOutcome.isError] at moved
      | notImplemented actor command => simp [RunOutcome.isError] at moved

/-- The run of an accepted file is a run of the machine the descriptors
describe, from no actors to no actors, or leaves it with an error that ends what
the command was sent to, after a run of the machine. So is a run that a panic
ends, up to the command that panicked, which the machine takes there. -/
theorem run_follows_descriptors (world : List (Event LiveActor) → External) (regex : Regex)
    (path sourceDir : String) (source : SourceFile) (accepted : accepts source = true)
    (nothing : CapturesNothing source) :
    (∀ run, executeLive world regex path source sourceDir = .ok run →
      (Chain DescribedStep (fun _ => none) run.events (fun _ => none) ∧
          ∀ report ∈ run.report.statements, ∀ actor command span,
            report ≠ .commandNotImplemented actor command span) ∨
        Derailed run.events) ∧
    ∀ panicked, executeLive world regex path source sourceDir = .error panicked →
      (∃ shown, Chain DescribedStep (fun _ => none) panicked.events shown ∧
          Takes shown panicked.actor panicked.command) ∨
        Derailed panicked.events := by
  constructor
  · intro run ran
    obtain rfl := executeLive_eq_ok ran
    refine (unmoved_or_derailed accepted nothing List.prefix_rfl).imp_left fun unmoved => ?_
    have obeys := obeysDescriptors_mended accepted List.prefix_rfl unmoved
    have walked := described_executeItems accepted obeys nothing.uncaptured
      (List.append_nil source.items).symm
    -- The mended run is this run: its world differs only after the last call.
    rw [(agree_mended _ world).executeItems (events_execute path sourceDir source).length_le] at walked
    have follows : Chain DescribedStep (fun _ => none)
        (execute (liveRuntime world) regex path source sourceDir).events (fun _ => none) := by
      change Chain _ _ (teardownAll _ _).1 _
      rw [teardownAll, teardownInOrder_events]
      exact walked.follows.append (tornDown_described walked.distinct)
    refine ⟨follows, ?_⟩
    rintro report recorded actor command span rfl
    obtain ⟨_, _, _, _, _, unanswered⟩ := executed_of_notImplemented recorded
    obtain ⟨_, _, step⟩ := follows.step_of_mem unanswered
    cases step
  · intro panicked ended
    -- The calls up to the panic are those that the run starts with.
    obtain ⟨next, outcome, later, split⟩ := executeLive_eq_error ended
    have starts : panicked.events <+: (execute (liveRuntime world) regex path source sourceDir).events :=
      ⟨_, split.symm⟩
    refine (unmoved_or_derailed accepted nothing starts).imp_left fun unmoved => ?_
    obtain ⟨_, shown, follows, live, known⟩ := executed_described accepted nothing split unmoved
    exact ⟨shown, follows, _, _, live, known⟩

end Live

/-- A keyword argument with a string. -/
def stringKeyword (key text : String) : KeywordArg where
  key := ⟨key, ⟨0, 0⟩⟩
  value := .expr (.stringLit [.text text] ⟨0, 0⟩)
  span := ⟨0, 0⟩

/-- A database session: `connect`, then `disconnect`. -/
def sessionFile : SourceFile where
  items := [plainActor "db" "pg_client", .asBlock (plainBlock "db" [
    .command { plainCommand "connect" with
      keywordArgs := [stringKeyword "user" "u", stringKeyword "database" "d"] },
    .command (plainCommand "disconnect")])]

/-- External systems that accept every connection to a database. -/
def acceptingWorld : External :=
  { refusingWorld with
    pgClient := { refusingWorld.pgClient with connect := fun _ _ => .accepted () } }

/-- A client that asks for a keep-alive of one second, which its driver does not take. -/
def hastyFile : SourceFile where
  items := [plainActor "m" "mqtt_client", .asBlock (plainBlock "m" [
    .command { plainCommand "connect" with
      keywordArgs := [⟨⟨"keep_alive", ⟨0, 0⟩⟩, .expr (.number 1), ⟨0, 0⟩⟩] }])]

theorem run_follows_descriptors_session :
    Chain DescribedStep (fun _ => none)
      (execute (liveRuntime fun _ => acceptingWorld) noRegex "session.ill" sessionFile ".").events
      (fun _ => none) ∧
    ∃ panicked, executeLive (fun _ => refusingWorld) noRegex "hasty.ill" hastyFile "." =
        .error panicked ∧
      ∃ shown, Chain DescribedStep (fun _ => none) panicked.events shown ∧ Takes shown "m" "connect" := by
  constructor
  · have nothing : CapturesNothing sessionFile := .of_one_block (by simp [plainBlock, refersToError])
    obtain ⟨completes, _⟩ := run_follows_descriptors (fun _ => acceptingWorld) noRegex "session.ill"
      "." sessionFile (by decide) nothing
    rcases completes _ rfl with ⟨follows, _⟩ | ⟨followed, call, later, shown, split, _, derails⟩
    · exact follows
    · have calm : ((execute (liveRuntime fun _ => acceptingWorld) noRegex "session.ill" sessionFile
          ".").events.all fun event => match event with
            | .executed _ _ _ _ _ outcome => outcome.isOk
            | _ => true) = true := by decide
      rw [split, List.all_append, List.all_cons] at calm
      cases derails
      simp [RunOutcome.isOk] at calm
  · have nothing : CapturesNothing hastyFile := .of_one_block (by simp [plainBlock, refersToError])
    obtain ⟨_, panics⟩ := run_follows_descriptors (fun _ => refusingWorld) noRegex "hasty.ill" "."
      hastyFile (by decide) nothing
    refine ⟨_, rfl, ?_⟩
    rcases panics _ rfl with described | ⟨followed, call, later, shown, split, _, derails⟩
    · exact described
    · -- Only the client was constructed by then.
      have before : [.constructed "m" .mqttClient ⟨[], ".", []⟩] = followed ++ call :: later := split
      have only : call ∈ [Event.constructed "m" .mqttClient ⟨[], ".", []⟩] := by
        rw [before]
        exact List.mem_append_right _ List.mem_cons_self
      cases derails
      simp at only

end Ill.Harness
