import Ill.Harness.Harness

/-!
# The verdict of a run

`StatementDone` and `ItemDone` say, without the harness's control flow, what it
means for a statement and a declaration to succeed, and `StatementFails` and
`ItemFails` what each failure is and which entry it is reported with. The
harness is exact for them: it passes a file exactly when every item is done in
order, and otherwise reports the first failure and makes no further call.
-/

namespace Ill.Harness

open Ast Actor Base

section Verdict

variable {Instance : Type} (runtime : ActorRuntime (List (Event Instance)) Instance)
  (regex : Regex)

/-- Some statement of the command's own window is a `let` or an `assert`
rooted at `error`. -/
def WindowRefersToError (block : AsBlock) (idx : Nat) : Prop :=
  ∃ stmt ∈ window (block.body.drop (idx + 1)), refersToError stmt = true

/-- The scope a statement is evaluated in. -/
def entryScope (block : AsBlock) (run : BlockRun Instance) : Scope :=
  bindSelf runtime run.scope run.harness.actors block.actor.name

/-- The scope the arguments of a command are evaluated in. -/
def commandScope (block : AsBlock) (run : BlockRun Instance) : Scope :=
  ((entryScope runtime block run).unbind "ok").unbind "error"

/-- A command dispatched to the block's live instance, with its answer and the
state after it. -/
inductive Dispatched (block : AsBlock) (actorType : ActorType) (run : BlockRun Instance)
    (cmd : Ast.Command) (outcome : RunOutcome) : HarnessState Instance → Prop where
  | intro {cmdDef consumed args inst next}
      (resolved : actorType.resolveCommand cmd.name.name cmd.positionalArgs =
        some (cmdDef, consumed))
      (evaluated : evalCommandArgs cmd consumed (commandScope runtime block run) = .ok args)
      (live : run.harness.get block.actor.name = some inst)
      (answered : runtime.execute run.harness.events inst cmdDef.name args = (next, outcome)) :
      Dispatched block actorType run cmd outcome
        ((run.harness.set block.actor.name next).log
          (.executed block.actor.name inst cmdDef.name args next outcome))

/-- What it means for a statement of a block to succeed. -/
inductive StatementDone (block : AsBlock) (actorType : ActorType) :
    BlockRun Instance → Statement × Nat → BlockRun Instance → Prop where
  | commandOk {run cmd idx after fields}
      (dispatched : Dispatched runtime block actorType run cmd (.ok fields) after) :
      StatementDone block actorType run (.command cmd, idx)
        ⟨after, (commandScope runtime block run).bind "ok" (.dict fields)⟩
  | commandError {run cmd idx after variant fields}
      (dispatched : Dispatched runtime block actorType run cmd (.error variant fields) after)
      (expected : WindowRefersToError block idx) :
      StatementDone block actorType run (.command cmd, idx)
        ⟨after, (commandScope runtime block run).bind "error"
          (.dict (buildErrorDict variant fields))⟩
  | bound {run name expr span idx value}
      (evaluated : eval (entryScope runtime block run) expr = .ok value) :
      StatementDone block actorType run (.let ⟨name, .expr expr, span⟩, idx)
        ⟨run.harness, (entryScope runtime block run).bind name.name value⟩
  | asserted {run a idx result}
      (evaluated : evalAssert regex a (entryScope runtime block run) = .ok result)
      (holds : result.passed = true) :
      StatementDone block actorType run (.assert a, idx)
        ⟨run.harness, entryScope runtime block run⟩

/-- The ways a statement of a block fails, each with the entry it is reported
as. Only the failures of a dispatched command have made a call. -/
inductive StatementFails (block : AsBlock) (actorType : ActorType) :
    BlockRun Instance → Statement × Nat → BlockRun Instance → StatementReport → Prop where
  | unresolved {run cmd idx}
      (unknown : actorType.resolveCommand cmd.name.name cmd.positionalArgs = none) :
      StatementFails block actorType run (.command cmd, idx)
        ⟨run.harness, commandScope runtime block run⟩
        (unknownCommand block.actor.name actorType cmd)
  | arguments {run cmd idx cmdDef consumed e}
      (resolved : actorType.resolveCommand cmd.name.name cmd.positionalArgs =
        some (cmdDef, consumed))
      (failed : evalCommandArgs cmd consumed (commandScope runtime block run) = .error e) :
      StatementFails block actorType run (.command cmd, idx)
        ⟨run.harness, commandScope runtime block run⟩
        (.evalError block.actor.name cmd.span e.toString)
  | notLive {run cmd idx cmdDef consumed args}
      (resolved : actorType.resolveCommand cmd.name.name cmd.positionalArgs =
        some (cmdDef, consumed))
      (evaluated : evalCommandArgs cmd consumed (commandScope runtime block run) = .ok args)
      (absent : run.harness.get block.actor.name = none) :
      StatementFails block actorType run (.command cmd, idx)
        ⟨run.harness, commandScope runtime block run⟩
        (noLiveInstance block.actor.name cmd.span)
  | commandError {run cmd idx after variant fields}
      (dispatched : Dispatched runtime block actorType run cmd (.error variant fields) after)
      (unexpected : ¬ WindowRefersToError block idx) :
      StatementFails block actorType run (.command cmd, idx)
        ⟨after, (commandScope runtime block run).bind "error"
          (.dict (buildErrorDict variant fields))⟩
        (commandFailed block.actor.name cmd (buildErrorDict variant fields))
  | notImplemented {run cmd idx after actor command}
      (dispatched : Dispatched runtime block actorType run cmd (.notImplemented actor command)
        after) :
      StatementFails block actorType run (.command cmd, idx)
        ⟨after, commandScope runtime block run⟩ (.commandNotImplemented actor command cmd.span)
  | unbound {run letStmt idx e}
      (failed : runLet letStmt (entryScope runtime block run) = .error e) :
      StatementFails block actorType run (.let letStmt, idx)
        ⟨run.harness, entryScope runtime block run⟩
        (.evalError block.actor.name letStmt.span e.toString)
  | assigned {run a idx} :
      StatementFails block actorType run (.assignment a, idx)
        ⟨run.harness, entryScope runtime block run⟩
        (.evalError block.actor.name block.span
          "assignment statements are not yet supported in runtime")
  | undecided {run a idx e}
      (failed : evalAssert regex a (entryScope runtime block run) = .error e) :
      StatementFails block actorType run (.assert a, idx)
        ⟨run.harness, entryScope runtime block run⟩
        (.evalError block.actor.name a.span e.toString)
  | refuted {run a idx result}
      (evaluated : evalAssert regex a (entryScope runtime block run) = .ok result)
      (fails : result.passed = false) :
      StatementFails block actorType run (.assert a, idx)
        ⟨run.harness, entryScope runtime block run⟩
        (.assertFailure block.actor.name a.span result.left result.right result.op
          (a.annotation.bind (·.value)))

/-- What it means for a top-level item to succeed. -/
inductive ItemDone (sourceDir : String) :
    HarnessState Instance → TopLevel → HarnessState Instance → Prop where
  | constructed {harness decl actorType args inst}
      (registered : Registry.get decl.actorType.name = some actorType)
      (evaluated : evalConstructArgs decl sourceDir = .ok args)
      (constructed : runtime.construct harness.events actorType args = .ok inst) :
      ItemDone sourceDir harness (.actorDeclaration decl)
        ((harness.log (.constructed decl.name.name actorType args)).push decl.name.name inst)
  | ran {harness block inst actorType run}
      (live : harness.get block.actor.name = some inst)
      (registered : Registry.get (runtime.typeName inst) = some actorType)
      (statements : Chain (StatementDone runtime regex block actorType) ⟨harness, .new⟩
        block.body.zipIdx run) :
      ItemDone sourceDir harness (.asBlock block) run.harness

/-- The ways a top-level item fails, each with the entry it is reported as. -/
inductive ItemFails (sourceDir : String) :
    HarnessState Instance → TopLevel → HarnessState Instance → StatementReport → Prop where
  | unknownType {harness decl}
      (unregistered : Registry.get decl.actorType.name = none) :
      ItemFails sourceDir harness (.actorDeclaration decl) harness
        (.constructFailure decl.name.name s!"unknown actor type `{decl.actorType.name}`" decl.span)
  | arguments {harness decl actorType e}
      (registered : Registry.get decl.actorType.name = some actorType)
      (failed : evalConstructArgs decl sourceDir = .error e) :
      ItemFails sourceDir harness (.actorDeclaration decl) harness
        (.constructFailure decl.name.name e.toString decl.span)
  | construct {harness decl actorType args e}
      (registered : Registry.get decl.actorType.name = some actorType)
      (evaluated : evalConstructArgs decl sourceDir = .ok args)
      (failed : runtime.construct harness.events actorType args = .error e) :
      ItemFails sourceDir harness (.actorDeclaration decl)
        (harness.log (.constructed decl.name.name actorType args))
        (.constructFailure decl.name.name e.toString decl.span)
  | notLive {harness block} (absent : harness.get block.actor.name = none) :
      ItemFails sourceDir harness (.asBlock block) harness
        (noLiveInstance block.actor.name block.span)
  | unregistered {harness block inst} (live : harness.get block.actor.name = some inst)
      (unknown : Registry.get (runtime.typeName inst) = none) :
      ItemFails sourceDir harness (.asBlock block) harness
        (.evalError block.actor.name block.span
          s!"unknown actor type `{runtime.typeName inst}` in registry")
  | statement {harness block inst actorType before stmt after middle final report}
      (live : harness.get block.actor.name = some inst)
      (registered : Registry.get (runtime.typeName inst) = some actorType)
      (split : block.body.zipIdx = before ++ stmt :: after)
      (done : Chain (StatementDone runtime regex block actorType) ⟨harness, .new⟩ before middle)
      (fails : StatementFails runtime regex block actorType middle stmt final report) :
      ItemFails sourceDir harness (.asBlock block) final.harness report

/-- Every item of a file succeeds in order. -/
def FileDone (sourceDir : String) (items : List TopLevel) (final : HarnessState Instance) : Prop :=
  Chain (ItemDone runtime regex sourceDir) .start items final

/-- Some item fails after every item before it succeeded. -/
def FileFails (sourceDir : String) (items : List TopLevel) (final : HarnessState Instance)
    (report : StatementReport) : Prop :=
  ∃ before item after middle, items = before ++ item :: after ∧
    Chain (ItemDone runtime regex sourceDir) .start before middle ∧
    ItemFails runtime regex sourceDir middle item final report

/-! ## The harness is exact for these relations -/

/-- The scan for a reference to `error` looks at the command's own window only. -/
theorem scanErrorRef_iff (after : List Statement) :
    scanErrorRef after = true ↔ ∃ stmt ∈ window after, refersToError stmt = true := by
  induction after with
  | nil => simp [scanErrorRef]
  | cons stmt rest ih =>
    cases inside : stmt.isCommand with
    | true => simp [scanErrorRef, window, inside]
    | false =>
      rw [scanErrorRef, inside, window_cons inside, if_neg Bool.false_ne_true]
      split
      · next refers => simp [refers]
      · next silent => simp [silent, ih]

theorem blockHasErrorRefAfter_iff (block : AsBlock) (idx : Nat) :
    blockHasErrorRefAfter block idx = true ↔ WindowRefersToError block idx :=
  scanErrorRef_iff _

/-- The answers to a dispatched command, by what the harness makes of them. -/
theorem runStatement_of_dispatched {block : AsBlock} {actorType : ActorType}
    {run : BlockRun Instance} {cmd : Ast.Command} {outcome : RunOutcome}
    {after : HarnessState Instance}
    (dispatched : Dispatched runtime block actorType run cmd outcome after) (idx : Nat) :
    runStatement runtime regex block actorType run (.command cmd, idx) =
      settleOutcome block.actor.name cmd (blockHasErrorRefAfter block idx) after
        (commandScope runtime block run) outcome := by
  obtain ⟨resolved, evaluated, live, answered⟩ := dispatched
  simp only [commandScope, entryScope] at evaluated
  simp only [runStatement, runCommand, resolved, evaluated, live, answered, commandScope,
    entryScope]

/-- A done statement is what the harness completes. -/
theorem runStatement_of_done {block : AsBlock} {actorType : ActorType}
    {run next : BlockRun Instance} {indexed : Statement × Nat}
    (done : StatementDone runtime regex block actorType run indexed next) :
    runStatement runtime regex block actorType run indexed = (next, none) := by
  cases done with
  | commandOk dispatched => exact runStatement_of_dispatched runtime regex dispatched _
  | commandError dispatched expected =>
    rw [runStatement_of_dispatched runtime regex dispatched, settleOutcome,
      if_pos ((blockHasErrorRefAfter_iff _ _).mpr expected)]
  | bound evaluated =>
    simp only [entryScope] at evaluated
    simp only [runStatement, runLet, evaluated, Except.map, entryScope]
  | asserted evaluated holds =>
    simp only [entryScope] at evaluated
    simp only [runStatement, runAssert, evaluated, holds, entryScope, if_true]

/-- A failed statement is what the harness stops at, with its report. -/
theorem runStatement_of_fails {block : AsBlock} {actorType : ActorType}
    {run next : BlockRun Instance} {indexed : Statement × Nat} {report : StatementReport}
    (fails : StatementFails runtime regex block actorType run indexed next report) :
    runStatement runtime regex block actorType run indexed = (next, some report) := by
  cases fails with
  | unresolved unknown =>
    simp only [runStatement, runCommand, unknown, commandScope, entryScope]
  | arguments resolved failed =>
    simp only [commandScope, entryScope] at failed
    simp only [runStatement, runCommand, resolved, failed, commandScope, entryScope]
  | notLive resolved evaluated absent =>
    simp only [commandScope, entryScope] at evaluated
    simp only [runStatement, runCommand, resolved, evaluated, absent, commandScope, entryScope]
  | commandError dispatched unexpected =>
    rw [runStatement_of_dispatched runtime regex dispatched, settleOutcome,
      if_neg fun expects => unexpected ((blockHasErrorRefAfter_iff _ _).mp expects)]
  | notImplemented dispatched => exact runStatement_of_dispatched runtime regex dispatched _
  | unbound failed =>
    simp only [entryScope] at failed
    simp only [runStatement, failed, entryScope]
  | assigned => rfl
  | undecided failed =>
    simp only [entryScope] at failed
    simp only [runStatement, runAssert, failed, entryScope]
  | refuted evaluated fails =>
    simp only [entryScope] at evaluated
    simp only [runStatement, runAssert, evaluated, fails, entryScope, Bool.false_eq_true, if_false]

/-- A command fails before it is dispatched, or is dispatched. -/
theorem command_fails_or_dispatched (block : AsBlock) (actorType : ActorType)
    (run : BlockRun Instance) (cmd : Ast.Command) (idx : Nat) :
    (∃ next report,
        StatementFails runtime regex block actorType run (.command cmd, idx) next report) ∨
      ∃ outcome after, Dispatched runtime block actorType run cmd outcome after := by
  rcases resolved : actorType.resolveCommand cmd.name.name cmd.positionalArgs with
    _ | ⟨cmdDef, consumed⟩
  · exact Or.inl ⟨_, _, .unresolved resolved⟩
  · rcases evaluated : evalCommandArgs cmd consumed (commandScope runtime block run) with e | args
    · exact Or.inl ⟨_, _, .arguments resolved evaluated⟩
    · rcases live : run.harness.get block.actor.name with _ | inst
      · exact Or.inl ⟨_, _, .notLive resolved evaluated live⟩
      · rcases answered : runtime.execute run.harness.events inst cmdDef.name args with
          ⟨next, outcome⟩
        exact Or.inr ⟨outcome, _, .intro resolved evaluated live answered⟩

/-- Every statement is done or fails. -/
theorem statement_done_or_fails (block : AsBlock) (actorType : ActorType)
    (run : BlockRun Instance) (indexed : Statement × Nat) :
    (∃ next, StatementDone runtime regex block actorType run indexed next) ∨
      ∃ next report, StatementFails runtime regex block actorType run indexed next report := by
  obtain ⟨stmt, idx⟩ := indexed
  cases stmt with
  | command cmd =>
    rcases command_fails_or_dispatched runtime regex block actorType run cmd idx with
      fails | ⟨outcome, after, dispatched⟩
    · exact Or.inr fails
    · cases outcome with
      | ok fields => exact Or.inl ⟨_, .commandOk dispatched⟩
      | error variant fields =>
        by_cases expected : WindowRefersToError block idx
        · exact Or.inl ⟨_, .commandError dispatched expected⟩
        · exact Or.inr ⟨_, _, .commandError dispatched expected⟩
      | notImplemented actor command => exact Or.inr ⟨_, _, .notImplemented dispatched⟩
  | «let» letStmt =>
    obtain ⟨name, value, span⟩ := letStmt
    cases value with
    | parse source format => exact Or.inr ⟨_, _, .unbound rfl⟩
    | expr expr =>
      rcases evaluated : eval (entryScope runtime block run) expr with e | value
      · refine Or.inr ⟨_, _, .unbound (e := e) ?_⟩
        simp only [runLet, evaluated, Except.map]
      · exact Or.inl ⟨_, .bound evaluated⟩
  | assignment a => exact Or.inr ⟨_, _, .assigned⟩
  | assert a =>
    rcases evaluated : evalAssert regex a (entryScope runtime block run) with e | result
    · exact Or.inr ⟨_, _, .undecided evaluated⟩
    · cases passed : result.passed with
      | true => exact Or.inl ⟨_, .asserted evaluated passed⟩
      | false => exact Or.inr ⟨_, _, .refuted evaluated passed⟩

theorem runStatement_completed_iff {block : AsBlock} {actorType : ActorType}
    (run : BlockRun Instance) (indexed : Statement × Nat) (next : BlockRun Instance) :
    runStatement runtime regex block actorType run indexed = (next, none) ↔
      StatementDone runtime regex block actorType run indexed next := by
  refine ⟨fun completed => ?_, runStatement_of_done runtime regex⟩
  rcases statement_done_or_fails runtime regex block actorType run indexed with
    ⟨other, done⟩ | ⟨other, report, fails⟩
  · rw [runStatement_of_done runtime regex done] at completed
    exact (Prod.mk.inj completed).1 ▸ done
  · rw [runStatement_of_fails runtime regex fails] at completed
    simp at completed

theorem runStatement_failed_iff {block : AsBlock} {actorType : ActorType}
    (run : BlockRun Instance) (indexed : Statement × Nat) (next : BlockRun Instance)
    (report : StatementReport) :
    runStatement runtime regex block actorType run indexed = (next, some report) ↔
      StatementFails runtime regex block actorType run indexed next report := by
  refine ⟨fun failed => ?_, runStatement_of_fails runtime regex⟩
  rcases statement_done_or_fails runtime regex block actorType run indexed with
    ⟨other, done⟩ | ⟨other, recorded, fails⟩
  · rw [runStatement_of_done runtime regex done] at failed
    simp at failed
  · rw [runStatement_of_fails runtime regex fails] at failed
    obtain ⟨rfl, same⟩ := Prod.mk.inj failed
    exact Option.some.inj same ▸ fails

/-- The statements of a block complete exactly when each is done in turn. -/
theorem runStatements_completed_iff {block : AsBlock} {actorType : ActorType}
    {run final : BlockRun Instance} {indexed : List (Statement × Nat)} :
    runStatements runtime regex block actorType run indexed = (final, none) ↔
      Chain (StatementDone runtime regex block actorType) run indexed final :=
  walk_completed_iff (runStatement_completed_iff runtime regex)

/-! ## Items and files -/

theorem blockType_of_registered {block : AsBlock} {harness : HarnessState Instance}
    {inst : Instance} {actorType : ActorType} (live : harness.get block.actor.name = some inst)
    (registered : Registry.get (runtime.typeName inst) = some actorType) :
    blockType runtime block harness = .ok actorType := by
  simp only [blockType, live, registered]

/-- A done item is what the harness completes. -/
theorem executeItem_of_done {sourceDir : String} {harness next : HarnessState Instance}
    {item : TopLevel} (done : ItemDone runtime regex sourceDir harness item next) :
    executeItem runtime regex sourceDir harness item = (next, none) := by
  cases done with
  | constructed registered evaluated constructed =>
    simp only [executeItem, constructActor, registered, evaluated, constructed, Except.mapError]
  | ran live registered statements =>
    have completed := (runStatements_completed_iff runtime regex).mpr statements
    simp only [executeItem, runAsBlock, blockType_of_registered runtime live registered, completed]

/-- A failed item is what the harness stops at, with its report. -/
theorem executeItem_of_fails {sourceDir : String} {harness next : HarnessState Instance}
    {item : TopLevel} {report : StatementReport}
    (fails : ItemFails runtime regex sourceDir harness item next report) :
    executeItem runtime regex sourceDir harness item = (next, some report) := by
  cases fails with
  | unknownType unregistered => simp only [executeItem, constructActor, unregistered]
  | arguments registered failed => simp only [executeItem, constructActor, registered, failed]
  | construct registered evaluated failed =>
    simp only [executeItem, constructActor, registered, evaluated, failed, Except.mapError]
  | notLive absent => simp only [executeItem, runAsBlock, blockType, absent]
  | unregistered live unknown => simp only [executeItem, runAsBlock, blockType, live, unknown]
  | @statement block inst actorType before stmt after middle final report live registered split
      done fails =>
    have stopped : runStatements runtime regex block actorType ⟨harness, .new⟩ block.body.zipIdx =
        (final, some report) := by
      rw [runStatements, walk_failed_iff]
      exact ⟨before, stmt, after, middle, split,
        (runStatements_completed_iff runtime regex).mpr done, runStatement_of_fails runtime regex fails⟩
    simp only [executeItem, runAsBlock, blockType_of_registered runtime live registered, stopped]

/-- Every item is done or fails. -/
theorem item_done_or_fails (sourceDir : String) (harness : HarnessState Instance)
    (item : TopLevel) :
    (∃ next, ItemDone runtime regex sourceDir harness item next) ∨
      ∃ next report, ItemFails runtime regex sourceDir harness item next report := by
  cases item with
  | actorDeclaration decl =>
    rcases registered : Registry.get decl.actorType.name with _ | actorType
    · exact Or.inr ⟨_, _, .unknownType registered⟩
    · rcases evaluated : evalConstructArgs decl sourceDir with e | args
      · exact Or.inr ⟨_, _, .arguments registered evaluated⟩
      · rcases constructed : runtime.construct harness.events actorType args with e | inst
        · exact Or.inr ⟨_, _, .construct registered evaluated constructed⟩
        · exact Or.inl ⟨_, .constructed registered evaluated constructed⟩
  | asBlock block =>
    rcases live : harness.get block.actor.name with _ | inst
    · exact Or.inr ⟨_, _, .notLive live⟩
    · rcases registered : Registry.get (runtime.typeName inst) with _ | actorType
      · exact Or.inr ⟨_, _, .unregistered live registered⟩
      · rcases ran : runStatements runtime regex block actorType ⟨harness, .new⟩
            block.body.zipIdx with ⟨final, _ | report⟩
        · exact Or.inl ⟨_, .ran live registered
            ((runStatements_completed_iff runtime regex).mp ran)⟩
        · rw [runStatements, walk_failed_iff] at ran
          obtain ⟨before, stmt, after, middle, split, done, fails⟩ := ran
          exact Or.inr ⟨_, _, .statement live registered split
            ((runStatements_completed_iff runtime regex).mp done)
            ((runStatement_failed_iff runtime regex _ _ _ _).mp fails)⟩

theorem executeItem_completed_iff (sourceDir : String) (harness : HarnessState Instance)
    (item : TopLevel) (next : HarnessState Instance) :
    executeItem runtime regex sourceDir harness item = (next, none) ↔
      ItemDone runtime regex sourceDir harness item next := by
  refine ⟨fun completed => ?_, executeItem_of_done runtime regex⟩
  rcases item_done_or_fails runtime regex sourceDir harness item with
    ⟨other, done⟩ | ⟨other, report, fails⟩
  · rw [executeItem_of_done runtime regex done] at completed
    exact (Prod.mk.inj completed).1 ▸ done
  · rw [executeItem_of_fails runtime regex fails] at completed
    simp at completed

theorem executeItem_failed_iff (sourceDir : String) (harness : HarnessState Instance)
    (item : TopLevel) (next : HarnessState Instance) (report : StatementReport) :
    executeItem runtime regex sourceDir harness item = (next, some report) ↔
      ItemFails runtime regex sourceDir harness item next report := by
  refine ⟨fun failed => ?_, executeItem_of_fails runtime regex⟩
  rcases item_done_or_fails runtime regex sourceDir harness item with
    ⟨other, done⟩ | ⟨other, recorded, fails⟩
  · rw [executeItem_of_done runtime regex done] at failed
    simp at failed
  · rw [executeItem_of_fails runtime regex fails] at failed
    obtain ⟨rfl, same⟩ := Prod.mk.inj failed
    exact Option.some.inj same ▸ fails

/-- The items of a file complete exactly when each is done in turn. -/
theorem executeItems_completed_iff {sourceDir : String} {harness final : HarnessState Instance}
    {items : List TopLevel} :
    executeItems runtime regex sourceDir harness items = (final, none) ↔
      Chain (ItemDone runtime regex sourceDir) harness items final :=
  walk_completed_iff (executeItem_completed_iff runtime regex sourceDir)

/-- The items of a file stop exactly at the first that fails. -/
theorem executeItems_failed_iff {sourceDir : String} {final : HarnessState Instance}
    {items : List TopLevel} {report : StatementReport} :
    executeItems runtime regex sourceDir .start items = (final, some report) ↔
      FileFails runtime regex sourceDir items final report := by
  rw [executeItems, walk_failed_iff]
  constructor
  · rintro ⟨before, item, after, middle, split, done, fails⟩
    exact ⟨before, item, after, middle, split, (executeItems_completed_iff runtime regex).mp done,
      (executeItem_failed_iff runtime regex sourceDir middle item final report).mp fails⟩
  · rintro ⟨before, item, after, middle, split, done, fails⟩
    exact ⟨before, item, after, middle, split, (executeItems_completed_iff runtime regex).mpr done,
      executeItem_of_fails runtime regex fails⟩

/-- A run passes exactly when every declaration and statement succeeds in
source order. Otherwise it reports one entry, that of the first failure, and
after the calls made up to it only tears down. -/
theorem execute_verdict (path : String) (source : SourceFile) (sourceDir : String) :
    let run := execute runtime regex path source sourceDir
    (run.report.passed = true ↔ ∃ final, FileDone runtime regex sourceDir source.items final) ∧
      (run.report.passed = false → ∃ report final, run.report.statements = [report] ∧
        FileFails runtime regex sourceDir source.items final report ∧
        ∃ torn : List (Event Instance), run.events = final.events ++ torn ∧
          ∀ event ∈ torn, ∃ actor, event = .tornDown actor) := by
  intro run
  rcases ran : executeItems runtime regex sourceDir .start source.items with ⟨final, _ | report⟩
  · have passed : run.report.passed = true := by
      simp only [run, execute, ran, Option.toList_none, List.isEmpty_nil]
    refine ⟨⟨fun _ => ⟨final, (executeItems_completed_iff runtime regex).mp ran⟩, fun _ => passed⟩,
      fun failed => ?_⟩
    rw [passed] at failed
    simp at failed
  · have failed : run.report.passed = false := by
      simp only [run, execute, ran, Option.toList_some, List.isEmpty_cons]
    refine ⟨⟨fun passed => ?_, ?_⟩, fun _ => ⟨report, final, ?_, ?_, ?_⟩⟩
    · rw [failed] at passed
      simp at passed
    · rintro ⟨other, done⟩
      have completed := (executeItems_completed_iff runtime regex).mpr done
      rw [ran] at completed
      simp at completed
    · simp only [run, execute, ran, Option.toList_some]
    · exact (executeItems_failed_iff runtime regex).mp ran
    · refine ⟨final.actors.reverse.map fun entry => .tornDown entry.1, ?_, ?_⟩
      · simp only [run, execute, ran, teardownAll, teardownInOrder_events]
      · intro event member
        obtain ⟨entry, _, rfl⟩ := List.mem_map.mp member
        exact ⟨entry.1, rfl⟩

end Verdict

end Ill.Harness
