import Ill.Harness.Inlining

/-!
# A block in two parts

Between two blocks of one actor nothing is kept but the actor: bindings are of the
block, and a window ends with it. A command ends the window before it as well, and
clears its outcome. So a block can be cut in two before a command, unless what comes
behind the cut looks up a name that a `let` before it binds.
-/

namespace Ill.Ast

/-- The names that the `let`s among some statements bind. -/
def boundBy (prior : List Statement) (name : String) : Bool :=
  prior.any (Harness.rebinds name)

/-- The parts of a block before and from a command on. -/
def AsBlock.cut (block : AsBlock) (prior : List Statement) (cmd : Command) (later : List Statement) :
    List TopLevel :=
  [.asBlock { block with body := prior }, .asBlock { block with body := .command cmd :: later }]

end Ill.Ast

namespace Ill.Validate

open Ast Base

/-! ## What the check says -/

variable {actors : Actors} {block : AsBlock} {prior later : List Statement} {cmd : Ast.Command}

/-- A command is checked as at the start of a block, once the pending transition
is applied. -/
theorem checkStatement_start (actorName : String) (check : BlockCheck) (cmd : Ast.Command) :
    checkStatement actorName (.start (applyPending actorName check)) (.command cmd) =
      checkStatement actorName check (.command cmd) := rfl

/-- The body of a block is checked in two parts. -/
theorem checkBody_cut (actorName : String) (check : BlockCheck) :
    let first := checkBody actorName check prior
    let second := checkBody actorName (.start (applyPending actorName first.1)) (.command cmd :: later)
    checkBody actorName check (prior ++ .command cmd :: later) = (second.1, first.2 ++ second.2) := by
  intro first second
  have behind : second = checkBody actorName first.1 (.command cmd :: later) := by
    simp only [second, checkBody, emit, checkStatement_start]
  rw [behind]
  exact emit_append check prior _

/-- The parts of a block of a declared actor say what the block says. -/
theorem checkItem_cut (body : block.body = prior ++ .command cmd :: later)
    (declared : actors block.actor.name ≠ none) :
    emit checkItem actors (block.cut prior cmd later) = emit checkItem actors [.asBlock block] := by
  simp only [AsBlock.cut, emit, List.append_nil, checkItem]
  rcases entry : actors block.actor.name with _ | actor | _
  · exact absurd entry declared
  · have healthy : actors.healthy? block.actor.name = some actor := by
      simp only [Actors.healthy?, entry]
    let middle := applyPending block.actor.name (checkBody block.actor.name (.start actors) prior).1
    have kept : Actors.Keeps actors middle :=
      (keeps_checkBody block.actor.name (.start actors) prior).trans (keeps_applyPending _ _)
    have typed : middle.type? block.actor.name = some actor.typeDef := by
      rw [kept.types, Actors.type?, healthy, Option.map_some]
    obtain ⟨next, still, -⟩ := Option.map_eq_some_iff.mp typed
    have first := @checkAsBlock_of_healthy actors { block with body := prior } actor healthy
    have second := @checkAsBlock_of_healthy middle { block with body := .command cmd :: later } next still
    have whole := @checkBody_cut prior later cmd block.actor.name (.start actors)
    rw [← body] at whole
    rw [checkAsBlock_of_healthy healthy, whole, first, second]
  · simp only [checkAsBlock, entry]
    rfl

/-- A file is accepted exactly if it is with the block cut. -/
theorem accepts_cut (body : block.body = prior ++ .command cmd :: later) (before after : List TopLevel) :
    accepts ⟨before ++ (block.cut prior cmd later ++ after)⟩ =
      accepts ⟨before ++ ([.asBlock block] ++ after)⟩ := by
  let whole : SourceFile := ⟨before ++ ([.asBlock block] ++ after)⟩
  let parts : SourceFile := ⟨before ++ (block.cut prior cmd later ++ after)⟩
  -- The first pass does nothing at a block.
  have skipped : ∀ actors, emit registerItem actors (block.cut prior cmd later) =
      emit registerItem actors [.asBlock block] := fun _ => rfl
  have first : emit registerItem (fun _ => none) parts.items =
      emit registerItem (fun _ => none) whole.items := emit_replaced (skipped _) after
  have tables : registered parts = registered whole := congrArg Prod.fst first
  by_cases declared : checkedAfter whole before block.actor.name = none
  · -- A block of an unknown actor is reported, in each of its parts.
    have rejected : ∀ {source : SourceFile} {rest : List TopLevel} {other : AsBlock},
        source.items = before ++ .asBlock other :: rest → other.actor = block.actor →
        registered source = registered whole → accepts source = false := by
      intro source rest other split actor same
      by_contra accepted
      rw [Bool.not_eq_false] at accepted
      have silent := checkItem_silent accepted split
      rw [checkedAfter, same, ← checkedAfter] at silent
      simp [checkItem, checkAsBlock, actor, declared] at silent
    rw [@rejected parts _ _ rfl rfl tables, @rejected whole _ _ rfl rfl rfl]
  · have second : emit checkItem (registered whole) parts.items =
        emit checkItem (registered whole) whole.items :=
      emit_replaced (checkItem_cut body declared) after
    have same : validate parts = validate whole := by
      rw [validate, validate, first, tables, second]
    exact congrArg (List.all · _) same

end Ill.Validate

namespace Ill.Harness

open Ast Actor Base Validate

/-! ## What the run does -/

section Nobody

variable {Instance : Type} {runtime : ActorRuntime (List (Event Instance)) Instance}

/-- No actor is left out. -/
def nobody : String → Bool := fun _ => false

theorem apart_nobody_iff {harness partner : HarnessState Instance} :
    Apart nobody harness partner ↔ partner = harness := by
  have actors : instancesOfOthers nobody harness.actors = harness.actors :=
    List.filter_eq_self.mpr fun _ _ => rfl
  have events : callsOfOthers nobody harness.events = harness.events :=
    List.filter_eq_self.mpr fun _ _ => rfl
  constructor
  · intro apart
    cases partner
    cases harness
    exact congrArg₂ HarnessState.mk (apart.actors.trans actors) (apart.events.trans events)
  · rintro rfl
    exact ⟨actors.symm, events.symm⟩

variable (runtime) in
theorem unfelt_nobody (events : List (Event Instance)) : Unfelt runtime nobody events := by
  intro before event after whole other
  have all : callsOfOthers nobody before = before := List.filter_eq_self.mpr fun _ _ => rfl
  cases event with
  | constructed actor actorType args => exact congrArg (runtime.construct · actorType args) all.symm
  | executed actor inst command args next outcome =>
    exact congrArg (runtime.execute · inst command args) all.symm
  | tornDown actor => trivial

end Nobody

section Run

variable {Instance : Type} {runtime : ActorRuntime (List (Event Instance)) Instance} {regex : Regex}
  {block : AsBlock} {actorType : ActorType} {prior later : List Statement} {cmd : Ast.Command}
  {harness : HarnessState Instance} {run : BlockRun Instance}

/-- Behind a completed front, the scope of a command differs from that at the start
of a block in the names that the front binds only. -/
theorem agreeOff_front
    (completed : runStatements runtime regex block actorType ⟨harness, .new⟩ prior.zipIdx = (run, none)) :
    AgreeOff (boundBy prior) (commandScope runtime block run)
      (commandScope runtime block ⟨run.harness, .new⟩) := by
  have chain := (runStatements_completed_iff runtime regex).mp completed
  have names := names_of_chain chain
  intro name unbound
  simp only [commandScope, Scope.get_unbind]
  by_cases error : name = "error"
  · rw [if_pos error, if_pos error]
  by_cases ok : name = "ok"
  · rw [if_neg error, if_neg error, if_pos ok, if_pos ok]
  rw [if_neg error, if_neg error, if_neg ok, if_neg ok, entryScope, entryScope, bindSelf, bindSelf,
    get_bindView, get_bindView]
  by_cases self : name = "self"
  · rw [if_pos self, if_pos self]
  rw [if_neg self, if_neg self]
  apply get_foldl_bindView_congr
  by_cases live : name ∈ run.harness.actors.map Prod.fst
  · exact .inr live
  · -- No statement of the front writes the name.
    have absent : name ∉ harness.names := by
      rw [← names]
      exact live
    have kept : ∀ indexed ∈ prior.zipIdx, rebinds name indexed.1 = false := by
      rw [boundBy, List.any_eq_false] at unbound
      intro indexed member
      simpa using unbound indexed.1 (List.fst_mem_of_mem_zipIdx member)
    exact .inl (get_scope_of_chain chain self absent kept fun _ _ _ => ⟨ok, error⟩).2

/-- From the command on, the block ends as the one that starts with the command. -/
theorem runStatements_behind (own : block.body = .command cmd :: later)
    (agree : AgreeOff (boundBy prior) (commandScope runtime block run)
      (commandScope runtime block ⟨run.harness, .new⟩))
    (unread : ∀ stmt ∈ block.body, stmt.scopeNames.any (boundBy prior) = false) :
    let apart := runStatements runtime regex block actorType ⟨run.harness, .new⟩ block.body.zipIdx
    let joined := runStatements runtime regex block actorType run block.body.zipIdx
    joined.1.harness = apart.1.harness ∧ joined.2 = apart.2 := by
  have within : ∀ name, nobody name = true → boundBy prior name = true := fun _ absurd => nomatch absurd
  have same : Apart nobody run.harness run.harness := apart_nobody_iff.mpr rfl
  let step := runStatement runtime regex block actorType
  have first : RunsApart nobody (boundBy prior) (step run (.command cmd, 0)).1
        (step ⟨run.harness, .new⟩ (.command cmd, 0)).1 ∧
      (step run (.command cmd, 0)).2 = (step ⟨run.harness, .new⟩ (.command cmd, 0)).2 :=
    same.runCommand agree rfl actorType (unread (.command cmd) (by simp [own])) 0
      (unfelt_nobody runtime _)
  have silent : ∀ entry ∈ later.zipIdx 1, entry.1.scopeNames.any (boundBy prior) = false :=
    fun entry member => unread entry.1
      (own ▸ List.mem_cons_of_mem _ (List.fst_mem_of_mem_zipIdx member))
  rw [own, List.zipIdx_cons]
  have sides := walk_cons_related (RunsApart nobody (boundBy prior)) first fun left right related =>
    related.runStatements within rfl actorType _ silent (unfelt_nobody runtime _)
  exact ⟨(apart_nobody_iff.mp sides.1.harness).symm, sides.2⟩

/-! ## Types of instances -/

variable (runtime) in
/-- A command leaves an instance of the type it was sent to. -/
def KeepsTypes : Prop :=
  ∀ past inst command args, runtime.typeName (runtime.execute past inst command args).1 = runtime.typeName inst

/-- A completed front leaves a block of its actor the type it had. -/
theorem blockType_front (keeps : KeepsTypes runtime) {indexed : List (Statement × Nat)}
    {start final : BlockRun Instance} (own : blockType runtime block start.harness = .ok actorType)
    (chain : Chain (StatementDone runtime regex block actorType) start indexed final) :
    blockType runtime block final.harness = .ok actorType := by
  induction chain with
  | nil => exact own
  | @cons start entry next rest final done tail ih =>
    apply ih
    rcases done.instances with same | ⟨cmd, outcome, _, dispatched⟩
    · rw [same, own]
    · obtain ⟨cmdDef, consumed, args, inst, successor, _, _, present, answered, _, get⟩ :=
        dispatched.effect
      have kept := keeps start.harness.events inst cmdDef.name args
      rw [answered] at kept
      unfold blockType at own ⊢
      rw [get, if_pos rfl]
      rw [present] at own
      dsimp only at own kept ⊢
      rw [kept, own]

/-! ## The parts of a block -/

theorem executeItem_typed (sourceDir : String)
    (found : blockType runtime block harness = .ok actorType) :
    executeItem runtime regex sourceDir harness (.asBlock block) =
      ((runStatements runtime regex block actorType ⟨harness, .new⟩ block.body.zipIdx).1.harness,
        (runStatements runtime regex block actorType ⟨harness, .new⟩ block.body.zipIdx).2) := by
  simp only [executeItem, runAsBlock, found]

/-- The parts of a block run one after the other as the block does. -/
theorem executeItems_cut (keeps : KeepsTypes runtime) (sourceDir : String)
    (body : block.body = prior ++ .command cmd :: later)
    (unread : ∀ stmt ∈ Statement.command cmd :: later, stmt.scopeNames.any (boundBy prior) = false)
    (harness : HarnessState Instance) :
    executeItems runtime regex sourceDir harness (block.cut prior cmd later) =
      executeItems runtime regex sourceDir harness [.asBlock block] := by
  let front : AsBlock := { block with body := prior }
  let back : AsBlock := { block with body := .command cmd :: later }
  have typedFront : blockType runtime front harness = blockType runtime block harness := rfl
  unfold executeItems
  rw [walk_singleton, AsBlock.cut]
  cases found : blockType runtime block harness with
  | error report =>
    have whole : executeItem runtime regex sourceDir harness (.asBlock block) = (harness, some report) := by
      simp only [executeItem, runAsBlock, found]
    have first : executeItem runtime regex sourceDir harness (.asBlock front) = (harness, some report) := by
      simp only [executeItem, runAsBlock, typedFront, found]
    rw [walk_cons_of_failed first, whole]
  | ok actorType =>
    have numbered : block.body.zipIdx =
        prior.zipIdx ++ (Statement.command cmd :: later).zipIdx prior.length := by
      rw [body, List.zipIdx_append, Nat.zero_add]
    have before : runStatements runtime regex block actorType ⟨harness, .new⟩ prior.zipIdx =
        runStatements runtime regex front actorType ⟨harness, .new⟩ front.body.zipIdx := by
      -- The command ends every window of the front.
      have closed : scanErrorRef (.command cmd :: later) = scanErrorRef [] := rfl
      have placed := placed_front prior closed
      rw [← body, List.append_nil] at placed
      exact @runStatements_placed _ _ _ block front rfl rfl actorType _ _ placed _
    have first := @executeItem_typed _ runtime regex front actorType harness sourceDir found
    rw [executeItem_typed sourceDir found, numbered]
    rcases ran : runStatements runtime regex front actorType ⟨harness, .new⟩ front.body.zipIdx with
      ⟨run, _ | failure⟩
    · rw [ran] at first before
      have typedBack : blockType runtime back run.harness = .ok actorType :=
        @blockType_front _ runtime regex front actorType keeps _ ⟨harness, .new⟩ run found
          ((runStatements_completed_iff runtime regex).mp ran)
      have behind : runStatements runtime regex block actorType run
            ((Statement.command cmd :: later).zipIdx prior.length) =
          runStatements runtime regex back actorType run back.body.zipIdx := by
        have placed := placed_behind prior (.command cmd :: later)
        rw [← body] at placed
        exact @runStatements_placed _ _ _ block back rfl rfl actorType _ _ placed _
      have agree : AgreeOff (boundBy prior) (commandScope runtime back run)
          (commandScope runtime back ⟨run.harness, .new⟩) :=
        @agreeOff_front _ runtime regex front actorType prior harness run ran
      obtain ⟨same, alike⟩ := @runStatements_behind _ runtime regex back actorType prior later cmd run
        rfl agree unread
      rw [walk_cons_of_completed first, walk_singleton, executeItem_typed sourceDir typedBack,
        ← same, ← alike, ← behind]
      unfold runStatements at before ⊢
      rw [walk_append_of_completed before]
    · rw [ran] at first before
      unfold runStatements at before ⊢
      rw [walk_cons_of_failed first, walk_append_of_failed before]

end Run

/-! ## Files -/

theorem keepsTypes_live (world : List (Event LiveActor) → External) : KeepsTypes (liveRuntime world) :=
  fun past inst command args =>
    congrArg ActorType.name (LiveActor.execute_actorType (world past) command args inst)

/-- A block can be cut in two before a command if nothing from the command on looks
up a name that a `let` before it binds: the file is accepted exactly if it was, and
its run makes the same calls and ends in the same report, teardowns included. -/
theorem run_cut (world : List (Event LiveActor) → External) (regex : Regex) (path sourceDir : String)
    (before after : List TopLevel) (block : AsBlock) (prior later : List Statement)
    (cmd : Ast.Command) (body : block.body = prior ++ .command cmd :: later)
    (unread : ∀ stmt ∈ Statement.command cmd :: later, stmt.scopeNames.any (boundBy prior) = false) :
    let whole : SourceFile := ⟨before ++ .asBlock block :: after⟩
    let parts : SourceFile := ⟨before ++ (block.cut prior cmd later ++ after)⟩
    accepts parts = accepts whole ∧
      execute (liveRuntime world) regex path parts sourceDir =
        execute (liveRuntime world) regex path whole sourceDir := by
  intro whole parts
  refine ⟨accepts_cut body before after, ?_⟩
  have same : executeItems (liveRuntime world) regex sourceDir .start parts.items =
      executeItems (liveRuntime world) regex sourceDir .start whole.items :=
    walk_replaced (fun middle _ =>
      executeItems_cut (keepsTypes_live world) sourceDir body unread middle) after
  unfold execute
  rw [same]

/-- `let x = 1` and `check`, then `check` and `assert ok == ok`. -/
def repeatedBlock : AsBlock :=
  plainBlock "a" [letNumber "x" 1, .command (plainCommand "check"), .command (plainCommand "check"),
    .assert ⟨none, .ident ⟨"ok", ⟨0, 0⟩⟩, some .eq, some (.ident ⟨"ok", ⟨0, 0⟩⟩), ⟨0, 0⟩⟩]

theorem run_cut_repeated :
    let parts : SourceFile := ⟨plainActor "a" "args_actor" ::
      repeatedBlock.cut (repeatedBlock.body.take 2) (plainCommand "check") (repeatedBlock.body.drop 3)⟩
    accepts parts = true ∧
      (execute (liveRuntime fun _ => refusingWorld) noRegex "t.ill" parts ".").report.passed = true := by
  have cut := run_cut (fun _ => refusingWorld) noRegex "t.ill" "." [plainActor "a" "args_actor"] []
    repeatedBlock (repeatedBlock.body.take 2) (repeatedBlock.body.drop 3) (plainCommand "check") rfl
    (by decide)
  obtain ⟨accepted, ran⟩ := cut
  rw [List.append_nil] at accepted ran
  refine ⟨accepted.trans (by decide), ?_⟩
  exact (congrArg (fun run : TestRun LiveActor => run.report.passed) ran).trans (by decide)

end Ill.Harness
