import Ill.Harness.Window

/-!
# Validator and harness in lockstep

The validator defers each command's transition to the end of its window and
decides it by the window's references; the harness takes it when the command
answers. They agree on every mode and every outcome as long as nothing but an
error can make a window's references to `error` evaluate.
-/

namespace Ill.Harness

open Ast Actor Base Validate

/-! ## What can capture `error` -/

/-- Whether the actor called `error` is of a type whose instances have a view. -/
def viewNamedError (before : List TopLevel) : Bool :=
  (declarations before).any fun decl =>
    decl.name.name == "error" &&
      (decl.actorType.name == "container" || decl.actorType.name == "args_actor")

/-- Whether the references of a window to `error` can evaluate although its
command succeeded: to the view of an actor of that name, or, if there is no
such actor, to a `let` of the window. -/
def capturesError (before : List TopLevel) (inside : List Statement) : Bool :=
  if "error" ∈ declaredNames before then viewNamedError before && inside.any refersToError
  else shadowsError inside

section Statement

variable (world : List (Event LiveActor) → External) (regex : Regex) (sourceDir : String)
  (source : SourceFile)

/-- Every dispatched command obeys its descriptor. -/
def ObeysDescriptors : Prop :=
  ∀ before block after harness actorType prior cmd rest run,
    ReachesCommand (liveRuntime world) regex sourceDir source before block after harness actorType
      prior cmd rest run →
    ∀ cmdDef consumed args actor, actorType.resolveCommand cmd.name.name cmd.positionalArgs =
        some (cmdDef, consumed) →
      evalCommandArgs cmd consumed (commandScope (liveRuntime world) block run) = .ok args →
      run.harness.get block.actor.name = some actor →
      cmdDef.Obeys actor.mode (actor.execute (world run.harness.events) cmdDef.name args).2
        (actor.execute (world run.harness.events) cmdDef.name args).1.mode

/-- No window that the run gets to captures `error`. -/
def Uncaptured : Prop :=
  ∀ before block after harness actorType prior cmd rest run,
    ReachesCommand (liveRuntime world) regex sourceDir source before block after harness actorType
      prior cmd rest run →
    capturesError before (window rest) = false

/-- The table in which the validator examines the command after `prior`, or
holds at the end of the block. -/
def examined (before : List TopLevel) (block : AsBlock) (prior : List Statement) : Actors :=
  applyPending block.actor.name
    (checkBody block.actor.name (.start (checkedAfter source before)) prior).1

/-- The outcome the validator has reached after some statements of a block. -/
def outcomeAfter (before : List TopLevel) (block : AsBlock) (prior : List Statement) :
    CommandOutcome :=
  (checkBody block.actor.name (.start (checkedAfter source before)) prior).1.outcome

/-- The validator and the harness agree about every dispatched command. -/
structure Lockstep : Prop where
  /-- The live instance is in the mode in which the command was examined. -/
  modes : ∀ before block after harness actorType prior cmd rest run,
    ReachesCommand (liveRuntime world) regex sourceDir source before block after harness actorType
      prior cmd rest run →
    ∀ outcome next, Dispatched (liveRuntime world) block actorType run cmd outcome next →
      ∃ actor, run.harness.get block.actor.name = some actor ∧
        (examined source before block prior).mode? block.actor.name = some actor.mode
  /-- A command whose window completes has the outcome its window ended in. -/
  outcomes : ∀ before block after harness actorType prior cmd rest run,
    ReachesCommand (liveRuntime world) regex sourceDir source before block after harness actorType
      prior cmd rest run →
    ∀ outcome next, Dispatched (liveRuntime world) block actorType run cmd outcome next →
      ∀ final, runStatements (liveRuntime world) regex block actorType run
          ((.command cmd, prior.length) :: (window rest).zipIdx (prior.length + 1)) =
            (final, none) →
        (outcome.isError ↔
          outcomeAfter source before block (prior ++ .command cmd :: window rest) =
            .explicitError) ∧
        (outcome.isOk ↔
          outcomeAfter source before block (prior ++ .command cmd :: window rest) ≠
            .explicitError)
  /-- No command of a passing run succeeds although its window refers to `error`. -/
  verdict : ∀ path,
    (execute (liveRuntime world) regex path source sourceDir).report.passed = true →
    ∀ before block after harness actorType prior cmd rest run,
      ReachesCommand (liveRuntime world) regex sourceDir source before block after harness
        actorType prior cmd rest run →
      ∀ outcome next, Dispatched (liveRuntime world) block actorType run cmd outcome next →
        outcome.isOk → ∀ stmt ∈ window rest, refersToError stmt = false

end Statement

section Live

variable {world : List (Event LiveActor) → External} {regex : Regex} {sourceDir : String}
  {source : SourceFile}

/-! ## The actor called `error` -/

/-- An instance with a view is a container or an `args_actor`. -/
theorem typeName_of_selfView {actor : LiveActor} (seen : actor.selfView ≠ none) :
    actor.actorType.name = "container" ∨ actor.actorType.name = "args_actor" := by
  cases actor with
  | container inst => exact Or.inl rfl
  | argsActor inst => exact Or.inr rfl
  | _ => exact absurd rfl seen

/-- Where the actor called `error` has no view, `error` is never bound by the
refresh before a statement. -/
theorem LiveFor.hides_error (accepted : accepts source = true) {before after : List TopLevel}
    (split : source.items = before ++ after) {harness : HarnessState LiveActor}
    (live : LiveFor source before harness) (declared : "error" ∈ declaredNames before)
    (viewless : viewNamedError before = false) (scope : Scope) (actorName : String) :
    (bindSelf (liveRuntime world) scope harness.actors actorName).get "error" = none := by
  have distinct : harness.names.Nodup := by
    have whole := (registers_of_accepts accepted).distinct
    rw [split, declaredNames_append] at whole
    rw [live.names]
    exact (List.nodup_append.mp whole).1
  rw [bindSelf, get_bindView, if_neg (by decide)]
  apply get_foldl_bindView_hidden
  · intro entry member named
    by_contra seen
    obtain ⟨decl, declMember, declNamed⟩ := exists_declaration declared
    have known := live.types _ _ (HarnessState.get_of_mem distinct member)
    have inSource : decl ∈ declarations source.items := by
      rw [split, declarations, List.filterMap_append]
      exact List.mem_append_left _ declMember
    obtain ⟨typeDef, found, typed⟩ := type?_of_declared accepted inSource []
    have same : entry.2.actorType = typeDef := by
      have fromTable := typed
      rw [declNamed, ← named] at fromTable
      exact Option.some.inj (known.symm.trans fromTable)
    have typeName := Registry.get_eq_some found
    rw [viewNamedError, List.any_eq_false] at viewless
    have noView := viewless decl declMember
    rw [same.symm] at typeName
    rcases typeName_of_selfView seen with container | argsActor
    · simp [declNamed, ← typeName, container] at noView
    · simp [declNamed, ← typeName, argsActor] at noView
  · right
    rw [← live.names] at declared
    exact declared

/-! ## One window -/

/-- A window of a successful command that completes and captures nothing does
not read `error`. -/
theorem reads_nothing_of_ok (accepted : accepts source = true) {before after : List TopLevel}
    (split : source.items = before ++ after) {block : AsBlock} {actorType : ActorType}
    {run final : BlockRun LiveActor} {idx : Nat} {inside : List Statement}
    (live : LiveFor source before run.harness) (unbound : run.scope.get "error" = none)
    (uncaptured : capturesError before inside = false)
    (quiet : ∀ stmt ∈ inside, stmt.isCommand = false)
    (chain : Chain (StatementDone (liveRuntime world) regex block actorType) run
      (inside.zipIdx idx) final) :
    ∀ stmt ∈ inside, refersToError stmt = false := by
  unfold capturesError at uncaptured
  split at uncaptured
  · next declared =>
    cases viewless : viewNamedError before with
    | true =>
      rw [viewless, Bool.true_and, List.any_eq_false] at uncaptured
      simpa using uncaptured
    | false =>
      apply reads_nothing_of_hidden quiet _ chain
      intro scope
      exact live.hides_error accepted split declared viewless scope block.actor.name
  · next undeclared =>
    rw [← live.names] at undeclared
    exact reads_nothing_of_unbound quiet undeclared unbound uncaptured chain

/-- A command whose window completes failed exactly if the window reads
`error`, and succeeded otherwise. -/
theorem ReachesCommand.outcome_of_window (accepted : accepts source = true)
    {before : List TopLevel} {block : AsBlock} {after : List TopLevel}
    {harness : HarnessState LiveActor} {actorType : ActorType} {prior rest : List Statement}
    {cmd : Ast.Command} {run : BlockRun LiveActor}
    (reached : ReachesCommand (liveRuntime world) regex sourceDir source before block after harness
      actorType prior cmd rest run)
    (uncaptured : capturesError before (window rest) = false) {outcome : RunOutcome}
    {next : HarnessState LiveActor}
    (dispatched : Dispatched (liveRuntime world) block actorType run cmd outcome next)
    {final : BlockRun LiveActor}
    (chain : Chain (StatementDone (liveRuntime world) regex block actorType) run
      ((.command cmd, prior.length) :: (window rest).zipIdx (prior.length + 1)) final) :
    (outcome.isOk = true ∧ ¬ ∃ stmt ∈ window rest, refersToError stmt = true) ∨
      (outcome.isError = true ∧ ∃ stmt ∈ window rest, refersToError stmt = true) := by
  have quiet : ∀ stmt ∈ window rest, stmt.isCommand = false := fun _ => isCommand_of_mem_window
  cases chain with
  | @cons _ _ middle _ _ first tail =>
    have settled := runStatement_of_done (liveRuntime world) regex first
    rw [runStatement_of_dispatched (liveRuntime world) regex dispatched] at settled
    cases outcome with
    | ok fields =>
      left
      refine ⟨rfl, ?_⟩
      have left := (Prod.mk.inj settled).1
      have live : LiveFor source before middle.harness :=
        liveFor_of_statements run (reached.liveFor accepted) (.cons first .nil)
      have unbound : middle.scope.get "error" = none := by
        rw [← left]
        rfl
      have unread := reads_nothing_of_ok accepted reached.split live unbound uncaptured quiet tail
      rintro ⟨stmt, member, reads⟩
      rw [unread stmt member] at reads
      simp at reads
    | error variant fields =>
      right
      refine ⟨rfl, ?_⟩
      have expects := (Prod.mk.inj settled).2
      split at expects
      · next expected =>
        have refers := (blockHasErrorRefAfter_iff _ _).mp expected
        have suffix : block.body.drop (prior.length + 1) = rest := by
          rw [reached.body, ← List.drop_drop, List.drop_left]
          rfl
        rwa [WindowRefersToError, suffix] at refers
      · simp at expects
    | notImplemented actor command => simp [settleOutcome] at settled

/-- The mode the validator holds after a command and its window, both checked
silently: the command's own transition if nothing reads `error`. -/
theorem examined_command {before : List TopLevel} {block : AsBlock}
    {prior inside : List Statement} {cmd : Ast.Command} {state : HealthyActor}
    (held : (examined source before block prior).healthy? block.actor.name = some state)
    (checked : (checkCommandIn state cmd).2 = [])
    (quiet : ∀ stmt ∈ inside, stmt.isCommand = false)
    (silent : (checkBody block.actor.name (.start (checkedAfter source before))
      (prior ++ .command cmd :: inside)).2 = []) :
    ∃ cmdDef consumed,
      state.typeDef.resolveCommand cmd.name.name cmd.positionalArgs = some (cmdDef, consumed) ∧
      (outcomeAfter source before block (prior ++ .command cmd :: inside) = .explicitError ↔
        ∃ stmt ∈ inside, refersToError stmt = true) ∧
      (examined source before block (prior ++ .command cmd :: inside)).mode? block.actor.name =
        some (if (outcomeAfter source before block (prior ++ .command cmd :: inside)).isOk
          then cmdDef.modeAfterOk state.mode else state.mode) := by
  obtain ⟨cmdDef, consumed, resolved, _, transition⟩ := checkCommandIn_silent checked
  let start := BlockCheck.start (checkedAfter source before)
  let opened := (checkStatement block.actor.name (checkBody block.actor.name start prior).1
    (.command cmd)).1
  have whole : (checkBody block.actor.name start (prior ++ .command cmd :: inside)).1 =
      (checkBody block.actor.name opened inside).1 := emit_append_state start prior _
  have quietly : (checkBody block.actor.name opened inside).2 = [] := by
    rw [checkBody, emit_append_output, List.append_eq_nil_iff] at silent
    exact (List.append_eq_nil_iff.mp silent.2).2
  have pending : opened.pendingTransition = cmdDef.transitionsTo := by
    have looked : checkCommand (examined source before block prior) block.actor.name cmd =
        checkCommandIn state cmd := by simp only [checkCommand, held]
    rw [← transition, ← looked]
    rfl
  have heldMode : opened.actors.mode? block.actor.name = some state.mode := by
    change (examined source before block prior).mode? block.actor.name = some state.mode
    rw [Actors.mode?, held, Option.map_some]
  obtain ⟨modes, kept, committed⟩ := checkBody_window quiet (.of_silent quietly)
  refine ⟨cmdDef, consumed, resolved, ?_, ?_⟩
  · rw [outcomeAfter, whole, committed]
    simp [opened, checkStatement]
  · have ended : (checkBody block.actor.name start (prior ++ .command cmd :: inside)).1.actors.mode?
        block.actor.name = some state.mode := by rw [whole, modes, heldMode]
    rw [examined, mode?_applyPending ended, whole, kept, pending, outcomeAfter, whole]
    rfl

/-! ## One block -/

/-- A command whose window completed leaves its instance in the mode the
validator holds after the window, if both agreed at the command. -/
theorem ReachesCommand.mode_after_window (accepted : accepts source = true)
    (obeys : ObeysDescriptors world regex sourceDir source)
    (uncaptured : Uncaptured world regex sourceDir source) {before : List TopLevel}
    {block : AsBlock} {after : List TopLevel} {harness : HarnessState LiveActor}
    {actorType : ActorType} {prior inside rest : List Statement} {cmd : Ast.Command}
    {middle run : BlockRun LiveActor}
    (reached : ReachesCommand (liveRuntime world) regex sourceDir source before block after harness
      actorType prior cmd (inside ++ rest) middle)
    (quiet : ∀ stmt ∈ inside, stmt.isCommand = false) (ended : window rest = [])
    {actor : LiveActor} (present : middle.harness.get block.actor.name = some actor)
    (agree : (examined source before block prior).mode? block.actor.name = some actor.mode)
    (chain : Chain (StatementDone (liveRuntime world) regex block actorType) middle
      ((.command cmd, prior.length) :: inside.zipIdx (prior.length + 1)) run) :
    ∃ successor, run.harness.get block.actor.name = some successor ∧
      (examined source before block (prior ++ .command cmd :: inside)).mode? block.actor.name =
        some successor.mode := by
  have body : block.body = (prior ++ .command cmd :: inside) ++ rest := by
    rw [reached.body, List.append_assoc, List.cons_append]
  have windowed : window (inside ++ rest) = inside := by
    rw [window_append quiet, ended, List.append_nil]
  -- The validator: the command was examined in the mode of the live instance.
  obtain ⟨state, healthy, stateType, checked⟩ := command_silent accepted reached.split reached.body
  have sameMode : state.mode = actor.mode := by
    rw [Actors.mode?, examined, healthy] at agree
    exact Option.some.inj agree
  have sameType : state.typeDef = actorType := by
    obtain ⟨_, _, _, known⟩ :=
      (reached.toReachesBlock.liveFor accepted).blockType_eq reached.typed
    exact Option.some.inj (stateType.symm.trans known)
  have silent := (body_silent accepted reached.split).2
  rw [body] at silent
  have quietly := emit_silent_prefix silent
  obtain ⟨cmdDef, consumed, resolved, committed, moved⟩ :=
    examined_command healthy checked quiet quietly
  -- The harness: the command was dispatched and its window completed.
  cases chain with
  | cons head tail =>
    obtain ⟨outcome, dispatched⟩ := head.dispatched
    have settled := reached.outcome_of_window accepted
      (uncaptured _ _ _ _ _ _ _ _ _ reached) dispatched (by
        rw [windowed]
        exact .cons head tail)
    rw [windowed, ← committed] at settled
    obtain ⟨found, taken, args, inst, successor, lookup, evaluated, old, answered, _, get⟩ :=
      dispatched.effect
    obtain rfl := Option.some.inj (present.symm.trans old)
    rw [← sameType, resolved] at lookup
    obtain ⟨rfl, rfl⟩ := Prod.mk.inj (Option.some.inj lookup)
    have obeyed := obeys _ _ _ _ _ _ _ _ _ reached cmdDef consumed args actor
      (sameType ▸ resolved) evaluated old
    have result : actor.execute (world middle.harness.events) cmdDef.name args =
        (successor, outcome) := answered
    rw [result] at obeyed
    refine ⟨successor, ?_, ?_⟩
    · rw [harness_eq_of_window quiet tail, get, if_pos rfl]
    · rw [moved, sameMode]
      rcases settled with ⟨succeeded, notError⟩ | ⟨failed, isError⟩
      · rw [if_pos (CommandOutcome.isOk_iff.mpr notError), obeyed.1 succeeded]
      · rw [isError, obeyed.2 failed]
        rfl

/-- At every command of a block and at its end the live instance is in the mode
the validator holds, if it is so at the start. The induction is over windows,
since within one the transition is still pending. -/
theorem ReachesBlock.modes_agree (accepted : accepts source = true)
    (obeys : ObeysDescriptors world regex sourceDir source)
    (uncaptured : Uncaptured world regex sourceDir source) {before : List TopLevel}
    {block : AsBlock} {after : List TopLevel} {harness : HarnessState LiveActor}
    {actorType : ActorType}
    (reached : ReachesBlock (liveRuntime world) regex sourceDir source before block after harness)
    (typed : blockType (liveRuntime world) block harness = .ok actorType) {first : LiveActor}
    (live : harness.get block.actor.name = some first)
    (agree : (checkedAfter source before).mode? block.actor.name = some first.mode)
    (prior : List Statement) :
    ∀ rest run, block.body = prior ++ rest → window rest = [] →
      runStatements (liveRuntime world) regex block actorType ⟨harness, .new⟩ prior.zipIdx =
        (run, none) →
      ∃ actor, run.harness.get block.actor.name = some actor ∧
        (examined source before block prior).mode? block.actor.name = some actor.mode := by
  induction prior using window_induction with
  | head inside quiet =>
    intro rest run body _ ran
    have chain := (runStatements_completed_iff (liveRuntime world) regex).mp ran
    have same := harness_eq_of_window quiet chain
    have silent := (body_silent accepted reached.split).2
    rw [body] at silent
    have checked := emit_silent_prefix silent
    obtain ⟨modes, kept, _⟩ := checkBody_window quiet (.of_silent checked)
    refine ⟨first, ?_, ?_⟩
    · rw [same]
      exact live
    · rw [examined, mode?_applyPending ((modes _).trans agree), kept]
      split <;> rfl
  | command prior cmd inside quiet ih =>
    intro rest run body ended ran
    have here : block.body = prior ++ .command cmd :: (inside ++ rest) := by
      rw [body, List.append_assoc, List.cons_append]
    rw [List.zipIdx_append, List.zipIdx_cons, Nat.zero_add] at ran
    obtain ⟨middle, ranPrior, ranWindow⟩ := walk_append_completed ran
    have chain := (runStatements_completed_iff (liveRuntime world) regex).mp ranWindow
    have atCommand : ReachesCommand (liveRuntime world) regex sourceDir source before block after
        harness actorType prior cmd (inside ++ rest) middle := ⟨reached, typed, here, ranPrior⟩
    obtain ⟨actor, present, held⟩ := ih (.command cmd :: (inside ++ rest)) middle here rfl ranPrior
    exact atCommand.mode_after_window accepted obeys uncaptured quiet ended present held chain

/-! ## Whole files -/

/-- The statements of a block leave the instances of other names alone. -/
theorem get_of_statements_of_ne {block : AsBlock} {actorType : ActorType}
    {first final : BlockRun LiveActor} {indexed : List (Statement × Nat)} {name : String}
    (different : name ≠ block.actor.name)
    (chain : Chain (StatementDone (liveRuntime world) regex block actorType) first indexed final) :
    final.harness.get name = first.harness.get name := by
  induction chain with
  | nil => rfl
  | cons head _ ih =>
    rw [ih]
    rcases head.instances with same | ⟨cmd, outcome, _, dispatched⟩
    · rw [same]
    · obtain ⟨_, _, _, _, _, _, _, _, _, _, get⟩ := dispatched.effect
      rw [get, if_neg different]

/-- After some items the validator holds the mode of every live instance, and
has not touched a name that is still to be declared. -/
structure InStep (source : SourceFile) (visited : List TopLevel)
    (harness : HarnessState LiveActor) : Prop where
  modes : ∀ name actor, harness.get name = some actor →
    (checkedAfter source visited).mode? name = some actor.mode
  pristine : ∀ name, name ∉ declaredNames visited →
    (checkedAfter source visited).healthy? name = (registered source).healthy? name

/-- A declared actor starts in the mode it was registered in. -/
theorem InStep.construct (accepted : accepts source = true) {visited after : List TopLevel}
    {decl : ActorDeclaration} (split : source.items = visited ++ .actorDeclaration decl :: after)
    {harness next : HarnessState LiveActor} (here : InStep source visited harness)
    (done : ItemDone (liveRuntime world) regex sourceDir harness (.actorDeclaration decl) next) :
    InStep source (visited ++ [.actorDeclaration decl]) next := by
  have unchanged : checkedAfter source (visited ++ [.actorDeclaration decl]) =
      checkedAfter source visited := checkedAfter_concat source visited _
  have registration := registers_of_accepts accepted
  have fresh : decl.name.name ∉ declaredNames visited := by
    have distinct := registration.distinct
    rw [split, declaredNames_append, List.nodup_append] at distinct
    intro again
    exact distinct.2.2 _ again _ (by simp) rfl
  have member : decl ∈ declarations source.items := by
    rw [split]
    simp [declarations]
  cases done with
  | @constructed _ actorType args inst known evaluated made =>
    refine ⟨fun name actor found => ?_, fun name absent => ?_⟩
    · rw [unchanged]
      rw [HarnessState.get_push, HarnessState.get_log] at found
      rcases older : harness.get name with _ | held
      · rw [older, Option.none_or] at found
        split at found
        · next own =>
          obtain ⟨typeDef, registered, entry⟩ := registration.declared decl member
          have mode := (LiveActor.construct_spec made).2
          obtain rfl := Option.some.inj (registered.symm.trans known)
          rw [own, Actors.mode?, here.pristine _ fresh, entry, ← Option.some.inj found, mode]
          rfl
        · simp at found
      · rw [older, Option.some_or] at found
        exact here.modes name actor (older.trans found)
    · rw [unchanged]
      apply here.pristine
      intro declared
      apply absent
      rw [declaredNames_append]
      exact List.mem_append_left _ declared

/-- A block that completes leaves every live instance in the validator's mode. -/
theorem InStep.block (accepted : accepts source = true)
    (obeys : ObeysDescriptors world regex sourceDir source)
    (uncaptured : Uncaptured world regex sourceDir source) {visited after : List TopLevel}
    {block : AsBlock} {harness next : HarnessState LiveActor}
    (reached : ReachesBlock (liveRuntime world) regex sourceDir source visited block after harness)
    (here : InStep source visited harness)
    (done : ItemDone (liveRuntime world) regex sourceDir harness (.asBlock block) next) :
    InStep source (visited ++ [.asBlock block]) next := by
  cases done with
  | @ran _ inst actorType run live registered statements =>
    have typed := blockType_of_registered (liveRuntime world) live registered
    have ran := (runStatements_completed_iff (liveRuntime world) regex).mpr statements
    obtain ⟨actor, present, held⟩ := reached.modes_agree accepted obeys uncaptured typed live
      (here.modes _ _ live) block.body [] run (List.append_nil _).symm rfl ran
    obtain ⟨state, healthy⟩ := Option.ne_none_iff_exists'.mp (body_silent accepted reached.split).1
    have checked : checkedAfter source (visited ++ [.asBlock block]) =
        examined source visited block block.body := by
      rw [checkedAfter_concat, checkItem, checkAsBlock_of_healthy healthy]
      rfl
    have others : ∀ name, name ≠ block.actor.name →
        (examined source visited block block.body).healthy? name =
          (checkedAfter source visited).healthy? name := by
      intro name different
      rw [← checked, checkedAfter_concat]
      exact Actors.healthy?_congr (checkAsBlock_of_ne different _)
    rw [← checked] at held others
    constructor
    · intro name other found
      by_cases own : name = block.actor.name
      · rw [own, present] at found
        rw [own, held, Option.some.inj found]
      · rw [get_of_statements_of_ne own statements] at found
        rw [Actors.mode?, others name own]
        exact here.modes name other found
    · intro name absent
      rw [declaredNames_append, declaredNames_asBlock, declaredNames_nil, List.append_nil] at absent
      have different : name ≠ block.actor.name := by
        rintro rfl
        apply absent
        rw [← (reached.liveFor accepted).names]
        by_contra missing
        rw [← HarnessState.get_eq_none_iff, live] at missing
        simp at missing
      rw [others name different, here.pristine name absent]

/-- A completed prefix of an accepted file leaves validator and harness in step. -/
theorem inStep_of_completed (accepted : accepts source = true)
    (obeys : ObeysDescriptors world regex sourceDir source)
    (uncaptured : Uncaptured world regex sourceDir source) {before after : List TopLevel}
    (split : source.items = before ++ after) {harness : HarnessState LiveActor}
    (chain : Chain (ItemDone (liveRuntime world) regex sourceDir) .start before harness) :
    InStep source before harness := by
  refine Chain.prefix_invariant (fun visited harness => InStep source visited harness) ?_
    ⟨by simp, fun _ _ => rfl⟩ chain
  intro visited item rest current next prior chain here done
  rw [prior, List.append_assoc, List.cons_append] at split
  cases item with
  | actorDeclaration decl => exact here.construct accepted split done
  | asBlock block =>
    have completed := (executeItems_completed_iff (liveRuntime world) regex).mpr chain
    exact here.block accepted obeys uncaptured ⟨split, completed⟩ done

/-- The validator ends the window of a command in `explicitError` exactly if
some statement of it refers to `error`. -/
theorem ReachesCommand.outcomeAfter_window (accepted : accepts source = true)
    {before : List TopLevel} {block : AsBlock} {after : List TopLevel}
    {harness : HarnessState LiveActor} {actorType : ActorType} {prior rest : List Statement}
    {cmd : Ast.Command} {run : BlockRun LiveActor}
    (reached : ReachesCommand (liveRuntime world) regex sourceDir source before block after harness
      actorType prior cmd rest run) :
    outcomeAfter source before block (prior ++ .command cmd :: window rest) = .explicitError ↔
      ∃ stmt ∈ window rest, refersToError stmt = true := by
  obtain ⟨state, healthy, _, checked⟩ := command_silent accepted reached.split reached.body
  have silent := (body_silent accepted reached.split).2
  have body : block.body = (prior ++ .command cmd :: window rest) ++
      rest.dropWhile (fun stmt => !stmt.isCommand) := by
    rw [reached.body, List.append_assoc, List.cons_append, window, List.takeWhile_append_dropWhile]
  rw [body] at silent
  have quietly := emit_silent_prefix silent
  obtain ⟨_, _, _, committed, _⟩ :=
    examined_command healthy checked (fun _ => isCommand_of_mem_window) quietly
  exact committed

/-- A run that passes completed every item. -/
theorem completed_of_passed {Instance : Type}
    {runtime : ActorRuntime (List (Event Instance)) Instance} {path : String}
    (passed : (execute runtime regex path source sourceDir).report.passed = true) :
    ∃ final, executeItems runtime regex sourceDir .start source.items = (final, none) := by
  rcases ran : executeItems runtime regex sourceDir .start source.items with ⟨final, _ | report⟩
  · exact ⟨final, rfl⟩
  · simp [execute, ran] at passed

/-- In a run that completes every item, so does the window of each command. -/
theorem ReachesCommand.window_completes {before : List TopLevel} {block : AsBlock}
    {after : List TopLevel} {harness : HarnessState LiveActor} {actorType : ActorType}
    {prior rest : List Statement} {cmd : Ast.Command} {run : BlockRun LiveActor}
    (reached : ReachesCommand (liveRuntime world) regex sourceDir source before block after harness
      actorType prior cmd rest run)
    (completed : ∃ final,
      executeItems (liveRuntime world) regex sourceDir .start source.items = (final, none)) :
    ∃ final, runStatements (liveRuntime world) regex block actorType run
      ((.command cmd, prior.length) :: (window rest).zipIdx (prior.length + 1)) =
        (final, none) := by
  obtain ⟨last, ran⟩ := completed
  rw [reached.split] at ran
  obtain ⟨current, ranBefore, ranBlock⟩ := walk_append_completed ran
  obtain rfl : harness = current := (Prod.mk.inj (reached.completed.symm.trans ranBefore)).1
  have chain := (executeItems_completed_iff (liveRuntime world) regex).mp ranBlock
  cases chain with
  | cons head _ =>
    cases head with
    | ran live registered statements =>
      have typed := blockType_of_registered (liveRuntime world) live registered
      obtain rfl := Except.ok.inj (reached.typed.symm.trans typed)
      have ranBody := (runStatements_completed_iff (liveRuntime world) regex).mpr statements
      have body : block.body = prior ++ (.command cmd :: window rest) ++
          rest.dropWhile (fun stmt => !stmt.isCommand) := by
        rw [reached.body, List.append_assoc, List.cons_append, window,
          List.takeWhile_append_dropWhile]
      rw [body, List.zipIdx_append, List.zipIdx_append, List.zipIdx_cons, Nat.zero_add] at ranBody
      obtain ⟨final, ranPrefix, _⟩ := walk_append_completed ranBody
      obtain ⟨middle, ranPrior, ranWindow⟩ := walk_append_completed ranPrefix
      obtain rfl : run = middle := (Prod.mk.inj (reached.ran.symm.trans ranPrior)).1
      exact ⟨final, ranWindow⟩

/-- Validator and harness are in lockstep in every run whose commands obey
their descriptors and whose windows capture no reference to `error`. -/
theorem lockstep_of_uncaptured (world : List (Event LiveActor) → External) (regex : Regex)
    (sourceDir : String) (source : SourceFile) (accepted : accepts source = true)
    (obeys : ObeysDescriptors world regex sourceDir source)
    (uncaptured : Uncaptured world regex sourceDir source) :
    Lockstep world regex sourceDir source := by
  have settled : ∀ before block after harness actorType prior cmd rest run,
      ReachesCommand (liveRuntime world) regex sourceDir source before block after harness
        actorType prior cmd rest run →
      ∀ outcome next, Dispatched (liveRuntime world) block actorType run cmd outcome next →
        ∀ final, runStatements (liveRuntime world) regex block actorType run
          ((.command cmd, prior.length) :: (window rest).zipIdx (prior.length + 1)) =
            (final, none) →
        (outcome.isOk = true ∧ ¬ ∃ stmt ∈ window rest, refersToError stmt = true) ∨
          (outcome.isError = true ∧ ∃ stmt ∈ window rest, refersToError stmt = true) := by
    intro before block after harness actorType prior cmd rest run reached outcome next dispatched
      final ran
    exact reached.outcome_of_window accepted (uncaptured _ _ _ _ _ _ _ _ _ reached) dispatched
      ((runStatements_completed_iff (liveRuntime world) regex).mp ran)
  constructor
  · intro before block after harness actorType prior cmd rest run reached outcome next _
    have inStep := inStep_of_completed accepted obeys uncaptured reached.split
      ((executeItems_completed_iff (liveRuntime world) regex).mp reached.completed)
    obtain ⟨actor, live, _, _⟩ :=
      (reached.toReachesBlock.liveFor accepted).blockType_eq reached.typed
    exact reached.toReachesBlock.modes_agree accepted obeys uncaptured reached.typed live
      (inStep.modes _ _ live) prior _ run reached.body rfl reached.ran
  · intro before block after harness actorType prior cmd rest run reached outcome next dispatched
      final ran
    have committed := reached.outcomeAfter_window accepted
    rcases settled _ _ _ _ _ _ _ _ _ reached outcome next dispatched final ran with
      ⟨succeeded, unread⟩ | ⟨failed, reads⟩
    · rw [← committed] at unread
      have notError := RunOutcome.isError_of_isOk succeeded
      simp [succeeded, notError, unread]
    · rw [← committed] at reads
      have notOk := RunOutcome.isOk_of_isError failed
      simp [failed, notOk, reads]
  · intro path passed before block after harness actorType prior cmd rest run reached outcome next
      dispatched succeeded
    obtain ⟨final, ran⟩ := reached.window_completes (completed_of_passed passed)
    rcases settled _ _ _ _ _ _ _ _ _ reached outcome next dispatched final ran with
      ⟨_, unread⟩ | ⟨failed, _⟩
    · intro stmt member
      by_contra reads
      exact unread ⟨stmt, member, by simpa using reads⟩
    · have notOk := RunOutcome.isOk_of_isError failed
      rw [succeeded] at notOk
      simp at notOk

/-! ## A window that captures `error` -/

/-- A window without a reference to `error` captures none. -/
theorem capturesError_of_unread (before : List TopLevel) {inside : List Statement}
    (unread : ∀ stmt ∈ inside, refersToError stmt = false) :
    capturesError before inside = false := by
  have none : inside.any refersToError = false := by
    rw [List.any_eq_false]
    simpa using unread
  have unshadowed : shadowsError inside = false := by
    induction inside with
    | nil => rfl
    | cons stmt rest ih =>
      obtain ⟨silent, later⟩ := List.forall_mem_cons.mp unread
      rw [List.any_cons, silent, Bool.false_or] at none
      rw [shadowsError, silent, if_neg Bool.false_ne_true]
      split
      · exact none
      · exact ih later none
  rw [capturesError, none, Bool.and_false, unshadowed, ite_self]

/-- An `args_actor` obeys its descriptor. -/
theorem obeysDescriptors_of_argsActors (accepted : accepts source = true)
    (plain : ∀ decl ∈ declarations source.items, decl.actorType.name = "args_actor") :
    ObeysDescriptors world regex sourceDir source := by
  intro before block after harness actorType prior cmd rest run reached cmdDef consumed args actor
    resolved _ live
  obtain ⟨actorArgs, decl, member, found⟩ := reached.actorType_eq accepted live
  rw [plain decl member] at found
  have blockArgs : actorType = .argsActor := (Option.some.inj found).symm
  rw [blockArgs] at actorArgs
  rw [blockArgs] at resolved
  obtain rfl := List.mem_singleton.mp (ActorType.resolveCommand_spec resolved).1
  cases actor with
  | argsActor inst => exact .of_stays rfl
  | _ => exact nomatch actorArgs

end Live

/-- `assert` that a name is a number. -/
def assertNumber (name : String) (n : Int) : Statement :=
  .assert {
    «annotation» := none, left := .ident ⟨name, ⟨0, 0⟩⟩, op := some .eq, right := some (.number n)
    span := ⟨0, 0⟩ }

/-- One `args_actor` called `a`, and a block of it. -/
def argsFile (body : List Statement) : SourceFile where
  items := [plainActor "a" "args_actor", .asBlock (plainBlock "a" body)]

theorem argsFile_declarations {body : List Statement} :
    ∀ decl ∈ declarations (argsFile body).items, decl.actorType.name = "args_actor" := by
  intro decl member
  obtain rfl := List.mem_singleton.mp member
  rfl

theorem lockstep_of_uncaptured_unread :
    (execute (liveRuntime fun _ => refusingWorld) noRegex "unread.ill"
        (argsFile [.command (plainCommand "check"), letNumber "error" 1]) ".").report.passed =
          true ∧
      Lockstep (fun _ => refusingWorld) noRegex "."
        (argsFile [.command (plainCommand "check"), letNumber "error" 1]) := by
  refine ⟨by decide, lockstep_of_uncaptured _ _ _ _ (by decide)
    (obeysDescriptors_of_argsActors (by decide) argsFile_declarations) ?_⟩
  intro before block after harness actorType prior cmd rest run reached
  have member : TopLevel.asBlock block ∈
      (argsFile [.command (plainCommand "check"), letNumber "error" 1]).items := by
    rw [reached.split]
    simp
  have same : block = plainBlock "a" [.command (plainCommand "check"), letNumber "error" 1] := by
    simpa [argsFile, plainActor] using member
  apply capturesError_of_unread
  intro stmt inside
  have inBody : stmt ∈ block.body := by
    rw [reached.body]
    exact List.mem_append_right _ (List.mem_cons_of_mem _ (List.takeWhile_subset _ inside))
  rw [same] at inBody
  simp only [plainBlock, List.mem_cons, List.not_mem_nil, or_false] at inBody
  rcases inBody with rfl | rfl <;> rfl

/-- A `let error` after a command that succeeds lets its window commit to the
error branch and pass all the same. -/
theorem shadowed_error_breaks_lockstep :
    ¬ ∀ (world : List (Event LiveActor) → External) (regex : Regex) (sourceDir : String)
      (source : SourceFile), accepts source = true →
        ObeysDescriptors world regex sourceDir source →
          Lockstep world regex sourceDir source := by
  intro lockstep
  have inStep := lockstep (fun _ => refusingWorld) noRegex "."
    (argsFile [.command (plainCommand "check"), letNumber "error" 1, assertNumber "error" 1])
    (by decide) (obeysDescriptors_of_argsActors (by decide) argsFile_declarations)
  have reached : ReachesCommand (liveRuntime fun _ => refusingWorld) noRegex "."
      (argsFile [.command (plainCommand "check"), letNumber "error" 1, assertNumber "error" 1])
      [plainActor "a" "args_actor"] _ [] _ .argsActor [] (plainCommand "check")
      [letNumber "error" 1, assertNumber "error" 1] _ := ⟨⟨rfl, rfl⟩, rfl, rfl, rfl⟩
  have unread := inStep.verdict "shadowed.ill" (by decide) _ _ _ _ _ _ _ _ _ reached (.ok []) _
    (.intro rfl rfl rfl rfl) rfl (assertNumber "error" 1) (by simp [window, letNumber, assertNumber, Statement.isCommand])
  exact absurd unread (by decide)

end Ill.Harness
