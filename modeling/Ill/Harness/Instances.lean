import Ill.Harness.Verdict
import Ill.Validate.Accepted

/-!
# Which instances are live

After a completed prefix of a file the live instances are those declared in
it, in order, each of the type the validator registered for its name.
-/

namespace Ill.Harness

open Ast Actor Base Validate

namespace HarnessState

variable {Instance : Type}

/-- The names of the live instances, in construction order. -/
def names (state : HarnessState Instance) : List String := state.actors.map Prod.fst

@[simp] theorem get_start (name : String) : (start : HarnessState Instance).get name = none := rfl

@[simp] theorem names_start : (start : HarnessState Instance).names = [] := rfl

@[simp] theorem get_log (state : HarnessState Instance) (event : Event Instance) (name : String) :
    (state.log event).get name = state.get name := rfl

@[simp] theorem names_log (state : HarnessState Instance) (event : Event Instance) :
    (state.log event).names = state.names := rfl

@[simp] theorem names_push (state : HarnessState Instance) (name : String) (inst : Instance) :
    (state.push name inst).names = state.names ++ [name] := by
  simp [names, push]

theorem get_eq_none_iff {state : HarnessState Instance} {name : String} :
    state.get name = none ↔ name ∉ state.names := by
  simp only [get, List.lookup_eq_none_iff, names, List.mem_map, not_exists, not_and, bne_iff_ne]
  exact ⟨fun absent entry member same => absent entry member same.symm,
    fun absent entry member same => absent entry member same.symm⟩

/-- An entry is what its name is looked up to if no name occurs twice. -/
theorem get_of_mem {state : HarnessState Instance} (distinct : state.names.Nodup)
    {entry : String × Instance} (member : entry ∈ state.actors) :
    state.get entry.1 = some entry.2 := by
  obtain ⟨actors, events⟩ := state
  change (actors.map Prod.fst).Nodup at distinct
  change actors.lookup entry.1 = some entry.2
  induction actors with
  | nil => simp at member
  | cons first rest ih =>
    obtain ⟨name, inst⟩ := first
    rw [List.map_cons, List.nodup_cons] at distinct
    rcases List.mem_cons.mp member with rfl | later
    · exact List.lookup_cons_self
    · have different : entry.1 ≠ name := by
        intro same
        exact distinct.1 (List.mem_map.mpr ⟨entry, later, same⟩)
      rw [List.lookup_cons, beq_false_of_ne different]
      exact ih later distinct.2

/-- A pushed instance is found under its name unless an older one is. -/
theorem get_push (state : HarnessState Instance) (name other : String) (inst : Instance) :
    (state.push name inst).get other =
      (state.get other).or (if other = name then some inst else none) := by
  simp only [get, push, List.lookup_append]
  congr 1
  by_cases same : other = name
  · simp [same]
  · simp [same, List.lookup_cons, beq_false_of_ne same]

theorem names_set (state : HarnessState Instance) (name : String) (inst : Instance) :
    (state.set name inst).names = state.names := by
  obtain ⟨actors, events⟩ := state
  simp only [names, set]
  induction actors with
  | nil => rfl
  | cons entry rest ih =>
    rw [replace]
    split
    · rfl
    · rw [List.map_cons, ih, List.map_cons]

/-- Overwriting changes the instance of its own name only. -/
theorem get_set (state : HarnessState Instance) (name other : String) (inst : Instance) :
    (state.set name inst).get other =
      if other = name then (state.get name).map fun _ => inst else state.get other := by
  obtain ⟨actors, events⟩ := state
  simp only [get, set]
  induction actors with
  | nil => simp [replace]
  | cons entry rest ih =>
    obtain ⟨first, held⟩ := entry
    rw [replace]
    by_cases here : first = name
    · rw [if_pos here]
      by_cases same : other = name
      · simp [here, same]
      · have different : (other == first) = false := beq_false_of_ne (here ▸ same)
        rw [if_neg same, List.lookup_cons, List.lookup_cons, different]
    · rw [if_neg here, List.lookup_cons, List.lookup_cons, ih]
      by_cases same : other = name
      · have different : (name == first) = false := beq_false_of_ne (Ne.symm here)
        simp [same, different]
      · rw [if_neg same, if_neg same, List.lookup_cons]

end HarnessState

section Reached

variable {Instance : Type} (runtime : ActorRuntime (List (Event Instance)) Instance)
  (regex : Regex) (sourceDir : String) (source : SourceFile)

/-- The walk reaches a block: every item before it completed. -/
structure ReachesBlock (before : List TopLevel) (block : AsBlock) (after : List TopLevel)
    (harness : HarnessState Instance) : Prop where
  split : source.items = before ++ .asBlock block :: after
  completed : executeItems runtime regex sourceDir .start before = (harness, none)

/-- The walk reaches a command of a block: every statement before it completed. -/
structure ReachesCommand (before : List TopLevel) (block : AsBlock) (after : List TopLevel)
    (harness : HarnessState Instance) (actorType : ActorType) (prior : List Statement)
    (cmd : Ast.Command) (rest : List Statement) (run : BlockRun Instance) : Prop
    extends ReachesBlock runtime regex sourceDir source before block after harness where
  typed : blockType runtime block harness = .ok actorType
  body : block.body = prior ++ .command cmd :: rest
  ran : runStatements runtime regex block actorType ⟨harness, .new⟩ prior.zipIdx = (run, none)

end Reached

section Dispatch

variable {Instance : Type} {runtime : ActorRuntime (List (Event Instance)) Instance}
  {regex : Regex} {block : AsBlock} {actorType : ActorType}

/-- A dispatch resolves its command, replaces the block's own instance by the
one its execution returns, and leaves every other instance alone. -/
theorem Dispatched.effect {run : BlockRun Instance} {cmd : Ast.Command} {outcome : RunOutcome}
    {after : HarnessState Instance}
    (dispatched : Dispatched runtime block actorType run cmd outcome after) :
    ∃ cmdDef consumed args inst next,
      actorType.resolveCommand cmd.name.name cmd.positionalArgs = some (cmdDef, consumed) ∧
        evalCommandArgs cmd consumed (commandScope runtime block run) = .ok args ∧
        run.harness.get block.actor.name = some inst ∧
        runtime.execute run.harness.events inst cmdDef.name args = (next, outcome) ∧
        after.names = run.harness.names ∧
        ∀ name, after.get name = if name = block.actor.name then some next else run.harness.get name
    := by
  obtain ⟨resolved, evaluated, live, answered⟩ := dispatched
  refine ⟨_, _, _, _, _, resolved, evaluated, live, answered, ?_, fun name => ?_⟩
  · rw [HarnessState.names_log, HarnessState.names_set]
  · rw [HarnessState.get_log, HarnessState.get_set, live, Option.map_some]

/-- A done command was dispatched. -/
theorem StatementDone.dispatched {run next : BlockRun Instance} {cmd : Ast.Command} {idx : Nat}
    (done : StatementDone runtime regex block actorType run (.command cmd, idx) next) :
    ∃ outcome, Dispatched runtime block actorType run cmd outcome next.harness := by
  cases done with
  | commandOk dispatched => exact ⟨_, dispatched⟩
  | commandError dispatched expected => exact ⟨_, dispatched⟩

/-- A done statement leaves the instances alone, or is a dispatched command. -/
theorem StatementDone.instances {run next : BlockRun Instance} {indexed : Statement × Nat}
    (done : StatementDone runtime regex block actorType run indexed next) :
    next.harness = run.harness ∨ ∃ cmd outcome, indexed.1 = .command cmd ∧
      Dispatched runtime block actorType run cmd outcome next.harness := by
  cases done with
  | commandOk dispatched => exact Or.inr ⟨_, _, rfl, dispatched⟩
  | commandError dispatched expected => exact Or.inr ⟨_, _, rfl, dispatched⟩
  | bound evaluated => exact Or.inl rfl
  | asserted evaluated holds => exact Or.inl rfl

end Dispatch

section Live

variable (world : List (Event LiveActor) → External) (regex : Regex)

/-- Each live instance has the type registered for its name. -/
def TypedAs (source : SourceFile) (harness : HarnessState LiveActor) : Prop :=
  ∀ name actor, harness.get name = some actor →
    (registered source).type? name = some actor.actorType

/-- The live instances are those declared so far, with their registered types. -/
structure LiveFor (source : SourceFile) (before : List TopLevel)
    (harness : HarnessState LiveActor) : Prop where
  names : harness.names = declaredNames before
  types : TypedAs source harness

variable {world regex}

/-- The statements of a block keep which instances are live and their types. -/
theorem liveFor_of_statements {source : SourceFile} {before : List TopLevel} {block : AsBlock}
    {actorType : ActorType} (first : BlockRun LiveActor) {final : BlockRun LiveActor}
    {indexed : List (Statement × Nat)} (live : LiveFor source before first.harness)
    (chain : Chain (StatementDone (liveRuntime world) regex block actorType) first indexed final) :
    LiveFor source before final.harness := by
  refine Chain.prefix_invariant (fun _ run => LiveFor source before run.harness) ?_ live chain
  intro prior stmt after run next split _ here done
  rcases done.instances with same | ⟨cmd, outcome, _, dispatched⟩
  · exact same ▸ here
  · obtain ⟨cmdDef, consumed, args, inst, successor, _, _, present, answered, names, get⟩ :=
      dispatched.effect
    refine ⟨names.trans here.names, fun name actor found => ?_⟩
    rw [get name] at found
    split at found
    · next own =>
      have kind : successor.actorType = inst.actorType := by
        have kept := LiveActor.execute_actorType (world run.harness.events) cmdDef.name args inst
        rwa [show inst.execute (world run.harness.events) cmdDef.name args = (successor, outcome)
          from answered] at kept
      rw [own, ← Option.some.inj found, kind]
      exact here.types _ _ present
    · exact here.types name actor found

/-- A completed prefix of an accepted file leaves exactly its declarations live. -/
theorem liveFor_of_completed {source : SourceFile} (accepted : accepts source = true)
    {sourceDir : String} {before after : List TopLevel} (split : source.items = before ++ after)
    {harness : HarnessState LiveActor}
    (chain : Chain (ItemDone (liveRuntime world) regex sourceDir) .start before harness) :
    LiveFor source before harness := by
  refine Chain.prefix_invariant (fun visited harness => LiveFor source visited harness) ?_
    ⟨rfl, by simp [TypedAs]⟩ chain
  intro visited item rest current next prior _ here done
  cases done with
  | @ran block inst actorType run live registered statements =>
    obtain ⟨names, types⟩ := liveFor_of_statements ⟨current, .new⟩ here statements
    refine ⟨?_, types⟩
    rw [names, declaredNames_append, declaredNames_asBlock, declaredNames_nil, List.append_nil]
  | @constructed decl actorType args inst registered evaluated constructed =>
    refine ⟨?_, fun name actor found => ?_⟩
    · rw [HarnessState.names_push, HarnessState.names_log, here.names, declaredNames_append,
        declaredNames_actorDeclaration, declaredNames_nil]
    · rw [HarnessState.get_push, HarnessState.get_log] at found
      rcases older : current.get name with _ | held
      · rw [older, Option.none_or] at found
        split at found
        · next own =>
          have member : decl ∈ declarations source.items := by
            rw [split, prior]
            simp [declarations]
          obtain ⟨typeDef, known, entry⟩ := (registers_of_accepts accepted).declared decl member
          have kind := (LiveActor.construct_spec constructed).1
          rw [known] at registered
          rw [own, Actors.type?, entry, ← Option.some.inj found, kind]
          exact registered
        · simp at found
      · rw [older, Option.some_or] at found
        exact here.types name actor (older.trans found)

/-- A reached block finds exactly the instances declared before it. -/
theorem ReachesBlock.liveFor {source : SourceFile} (accepted : accepts source = true)
    {sourceDir : String} {before after : List TopLevel} {block : AsBlock}
    {harness : HarnessState LiveActor}
    (reached : ReachesBlock (liveRuntime world) regex sourceDir source before block after harness) :
    LiveFor source before harness :=
  liveFor_of_completed accepted reached.split
    ((executeItems_completed_iff (liveRuntime world) regex).mp reached.completed)

/-- A reached command finds the same instances as its block did. -/
theorem ReachesCommand.liveFor {source : SourceFile} (accepted : accepts source = true)
    {sourceDir : String} {before after : List TopLevel} {block : AsBlock}
    {harness : HarnessState LiveActor} {actorType : ActorType} {prior rest : List Statement}
    {cmd : Ast.Command} {run : BlockRun LiveActor}
    (reached : ReachesCommand (liveRuntime world) regex sourceDir source before block after harness
      actorType prior cmd rest run) :
    LiveFor source before run.harness :=
  liveFor_of_statements ⟨harness, .new⟩ (reached.toReachesBlock.liveFor accepted)
    ((runStatements_completed_iff (liveRuntime world) regex).mp reached.ran)

/-- The type a live block runs with is the one its instance was registered with. -/
theorem LiveFor.blockType_eq {source : SourceFile} {before : List TopLevel}
    {harness : HarnessState LiveActor} (live : LiveFor source before harness) {block : AsBlock}
    {actorType : ActorType}
    (typed : blockType (liveRuntime world) block harness = .ok actorType) :
    ∃ actor, harness.get block.actor.name = some actor ∧ actor.actorType = actorType ∧
      (registered source).type? block.actor.name = some actorType := by
  unfold blockType at typed
  split at typed
  · simp at typed
  · next actor present =>
    have known : Registry.get ((liveRuntime world).typeName actor) = some actor.actorType :=
      Registry.get_name actor.actorType
    rw [known] at typed
    have same := Except.ok.inj typed
    exact ⟨actor, present, same, same ▸ live.types _ actor present⟩

/-- The instance of a reached command is of the type the block runs with, which
a declaration of the file names. -/
theorem ReachesCommand.actorType_eq {source : SourceFile} (accepted : accepts source = true)
    {sourceDir : String} {before after : List TopLevel} {block : AsBlock}
    {harness : HarnessState LiveActor} {actorType : ActorType} {prior rest : List Statement}
    {cmd : Ast.Command} {run : BlockRun LiveActor}
    (reached : ReachesCommand (liveRuntime world) regex sourceDir source before block after harness
      actorType prior cmd rest run) {actor : LiveActor}
    (live : run.harness.get block.actor.name = some actor) :
    actor.actorType = actorType ∧
      ∃ decl ∈ declarations source.items, Registry.get decl.actorType.name = some actorType := by
  obtain ⟨_, _, _, typed⟩ := (reached.toReachesBlock.liveFor accepted).blockType_eq reached.typed
  have own := (reached.liveFor accepted).types _ _ live
  obtain ⟨decl, member, named⟩ := exists_declaration (declared_of_block accepted reached.split)
  obtain ⟨typeDef, found, known⟩ := type?_of_declared accepted member []
  have same : typeDef = actorType := by
    rw [named] at known
    exact Option.some.inj (known.symm.trans typed)
  exact ⟨Option.some.inj (own.symm.trans typed), decl, member, same ▸ found⟩

end Live

end Ill.Harness
