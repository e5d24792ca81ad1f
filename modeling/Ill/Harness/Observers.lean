import Ill.Harness.Isolation

/-!
# Asserts observe

An assert evaluates its two sides and stops the run if they do not compare. It
calls nothing and binds nothing, and what it refreshes is refreshed again before
the next statement. So a run without some asserts differs only where one of
these asserts fails. The asserts rooted at `error` are the exception: they also
tell the harness that the command before them may fail.
-/

namespace Ill.Ast

/-- Whether a statement is one of some asserts. -/
def Statement.isAssertOf (drop : Assert → Bool) : Statement → Bool
  | .assert a => drop a
  | _ => false

def AsBlock.withoutAsserts (drop : Assert → Bool) (block : AsBlock) : AsBlock :=
  { block with body := block.body.filter fun stmt => !stmt.isAssertOf drop }

def TopLevel.withoutAsserts (drop : Assert → Bool) : TopLevel → TopLevel
  | .actorDeclaration decl => .actorDeclaration decl
  | .asBlock block => .asBlock (block.withoutAsserts drop)

/-- The file without some of its asserts. -/
def SourceFile.withoutAsserts (drop : Assert → Bool) (source : SourceFile) : SourceFile where
  items := source.items.map (TopLevel.withoutAsserts drop)

end Ill.Ast

namespace Ill.Harness

open Ast Actor Base

/-! ## Windows in two blocks -/

/-- A statement at its place in two blocks, in which it has the same window. -/
structure Placed (body other : List Statement) (indexed form : Statement × Nat) : Prop where
  same : indexed.1 = form.1
  window : scanErrorRef (body.drop (indexed.2 + 1)) = scanErrorRef (other.drop (form.2 + 1))

/-- The window of a statement reaches into what comes behind by its scan only. -/
theorem scanErrorRef_append {rest others : List Statement}
    (same : scanErrorRef rest = scanErrorRef others) (body : List Statement) :
    scanErrorRef (body ++ rest) = scanErrorRef (body ++ others) := by
  induction body with
  | nil => exact same
  | cons stmt body ih => rw [List.cons_append, List.cons_append, scanErrorRef, scanErrorRef, ih]

/-- The numbered statements of a common front. -/
theorem placed_front (prior : List Statement) {rest others : List Statement}
    (same : scanErrorRef rest = scanErrorRef others) :
    List.Forall₂ (Placed (prior ++ rest) (prior ++ others)) prior.zipIdx prior.zipIdx := by
  refine List.forall₂_same.mpr fun indexed member => ⟨rfl, ?_⟩
  have inside : indexed.2 + 1 ≤ prior.length := (List.mem_zipIdx' member).1
  rw [List.drop_append_of_le_length inside, List.drop_append_of_le_length inside]
  exact scanErrorRef_append same _

/-- The statements behind a front, numbered as in the block and on their own. -/
theorem placed_behind (prior rest : List Statement) :
    List.Forall₂ (Placed (prior ++ rest) rest) (rest.zipIdx prior.length) rest.zipIdx := by
  refine List.forall₂_iff_get.mpr ⟨by simp, fun i here there => ⟨by simp, ?_⟩⟩
  simp only [List.get_eq_getElem, List.getElem_zipIdx, Nat.add_assoc, Nat.zero_add]
  rw [List.drop_append, List.drop_of_length_le (Nat.le_add_right _ _), Nat.add_sub_cancel_left,
    List.nil_append]

/-! ## Windows without some asserts -/

/-- None of the asserts is rooted at `error`. -/
def Unrooted (drop : Assert → Bool) : Prop :=
  ∀ a, drop a = true → exprStartsWithIdent "error" a.left = false

section Thin

variable {drop : Assert → Bool}

/-- A statement left out is an assert that tells no command it may fail. -/
theorem Unrooted.dropped (unrooted : Unrooted drop) {stmt : Statement}
    (out : stmt.isAssertOf drop = true) :
    ∃ a, stmt = .assert a ∧ drop a = true ∧ refersToError stmt = false := by
  cases stmt with
  | assert a => exact ⟨a, rfl, out, unrooted a out⟩
  | _ => exact nomatch out

theorem scanErrorRef_filter (unrooted : Unrooted drop) (body : List Statement) :
    scanErrorRef (body.filter fun stmt => !stmt.isAssertOf drop) = scanErrorRef body := by
  induction body with
  | nil => rfl
  | cons stmt rest ih =>
    cases out : stmt.isAssertOf drop with
    | true =>
      obtain ⟨a, rfl, -, unreferring⟩ := unrooted.dropped out
      rw [List.filter_cons_of_neg (by simp [out]), ih, scanErrorRef, unreferring]
      rfl
    | false => rw [List.filter_cons_of_pos (by simp [out]), scanErrorRef, scanErrorRef, ih]

/-- The numbered statements of a block, and of what is left of it. -/
theorem thinned_zipIdx (unrooted : Unrooted drop) (body : List Statement) :
    let keep : Statement → Bool := fun stmt => !stmt.isAssertOf drop
    Thinned (Placed body (body.filter keep)) (fun indexed => indexed.1.isAssertOf drop = true)
      body.zipIdx (body.filter keep).zipIdx := by
  intro keep
  -- The statements behind a split point, numbered from there on both sides.
  have behind : ∀ prior rest, body = prior ++ rest →
      Thinned (Placed body (body.filter keep)) (fun indexed => indexed.1.isAssertOf drop = true)
        (rest.zipIdx prior.length) ((rest.filter keep).zipIdx (prior.filter keep).length) := by
    intro prior rest
    induction rest generalizing prior with
    | nil => exact fun _ => .nil
    | cons stmt rest ih =>
      intro whole
      have later := ih (prior ++ [stmt]) (by rw [whole, List.append_assoc, List.singleton_append])
      rw [List.length_append, List.length_singleton, List.filter_append] at later
      rw [List.zipIdx_cons]
      cases out : stmt.isAssertOf drop with
      | true =>
        have left : keep stmt = false := by simp [keep, out]
        have none_ : [stmt].filter keep = [] := List.filter_cons_of_neg (by simp [left])
        rw [none_, List.append_nil] at later
        rw [List.filter_cons_of_neg (by simp [left])]
        exact .drop out later
      | false =>
        have kept : keep stmt = true := by simp [keep, out]
        have one : [stmt].filter keep = [stmt] := List.filter_cons_of_pos kept
        rw [one, List.length_append, List.length_singleton] at later
        rw [List.filter_cons_of_pos kept, List.zipIdx_cons]
        refine .keep ⟨rfl, ?_⟩ later
        dsimp only
        rw [whole, List.filter_append, List.filter_cons_of_pos kept, List.drop_append,
          List.drop_append]
        simp only [List.drop_of_length_le (Nat.le_succ _), Nat.add_sub_cancel_left, List.drop_one,
          List.nil_append, List.tail_cons]
        exact (scanErrorRef_filter unrooted rest).symm
  exact behind [] body rfl

end Thin

section Run

variable {Instance : Type} {runtime : ActorRuntime (List (Event Instance)) Instance} {regex : Regex}
  {drop : Assert → Bool}

/-! ## Refreshing twice -/

/-- Where two scopes agree or an actor has the name, refreshing makes them agree. -/
theorem get_foldl_bindView_congr (actors : List (String × Instance)) (name : String)
    {left right : Scope}
    (agree : left.get name = right.get name ∨ name ∈ actors.map Prod.fst) :
    (actors.foldl (fun scope entry => bindView scope entry.1 (runtime.selfView entry.2)) left).get
        name =
      (actors.foldl (fun scope entry => bindView scope entry.1 (runtime.selfView entry.2))
        right).get name := by
  induction actors generalizing left right with
  | nil => simpa using agree
  | cons entry rest ih =>
    rw [List.foldl_cons, List.foldl_cons]
    apply ih
    rw [get_bindView, get_bindView]
    by_cases here : name = entry.1
    · simp [here]
    · simpa [here] using agree

/-- The refresh before a statement finds nothing to do right after another. -/
theorem bindSelf_idempotent (scope : Scope) (actors : List (String × Instance))
    (actorName : String) :
    bindSelf runtime (bindSelf runtime scope actors actorName) actors actorName =
      bindSelf runtime scope actors actorName := by
  have pointwise : ∀ name,
      (bindSelf runtime (bindSelf runtime scope actors actorName) actors actorName).get name =
        (bindSelf runtime scope actors actorName).get name := by
    intro name
    rw [bindSelf, get_bindView, bindSelf, get_bindView]
    by_cases self : name = "self"
    · rw [if_pos self, if_pos self]
    · rw [if_neg self, if_neg self]
      by_cases known : name ∈ actors.map Prod.fst
      · exact get_foldl_bindView_congr actors name (.inr known)
      · rw [get_foldl_bindView known, get_bindView, if_neg self]
  exact congrArg Scope.mk (funext pointwise)

/-! ## One statement -/

/-- Two states of a block that the next statement cannot tell apart. -/
structure Alongside (runtime : ActorRuntime (List (Event Instance)) Instance) (block : AsBlock)
    (run partner : BlockRun Instance) : Prop where
  harness : run.harness = partner.harness
  scope : entryScope runtime block run = entryScope runtime block partner

/-- A statement does the same in a block in which it has the same window. -/
theorem Alongside.runStatement {block other : AsBlock} (actor : other.actor = block.actor)
    (span : other.span = block.span) {run partner : BlockRun Instance}
    (alongside : Alongside runtime block run partner) (actorType : ActorType)
    {indexed form : Statement × Nat} (placed : Placed block.body other.body indexed form) :
    runStatement runtime regex block actorType run indexed =
      runStatement runtime regex other actorType partner form := by
  obtain ⟨stmt, idx⟩ := indexed
  obtain ⟨stmtForm, idxForm⟩ := form
  obtain ⟨rfl : stmt = stmtForm, window⟩ := placed
  obtain ⟨harness, scope⟩ := run
  obtain ⟨_, partnerScope⟩ := partner
  obtain ⟨rfl, refreshed⟩ := alongside
  simp only [entryScope] at refreshed
  cases stmt with
  | command cmd =>
    have expects : blockHasErrorRefAfter block idx = blockHasErrorRefAfter other idxForm := window
    simp only [Harness.runStatement, runCommand, actor, refreshed, expects]
  | assert a => simp only [Harness.runStatement, actor, refreshed]
  | «let» letStmt => simp only [Harness.runStatement, actor, refreshed]
  | assignment a => simp only [Harness.runStatement, actor, span, refreshed]

/-- Statements do the same in a block in which they have the same windows. -/
theorem runStatements_placed {block other : AsBlock} (actor : other.actor = block.actor)
    (span : other.span = block.span) (actorType : ActorType) {indexed forms : List (Statement × Nat)}
    (placed : List.Forall₂ (Placed block.body other.body) indexed forms) (run : BlockRun Instance) :
    runStatements runtime regex block actorType run indexed =
      runStatements runtime regex other actorType run forms := by
  unfold runStatements
  induction placed generalizing run with
  | nil => rfl
  | @cons entry form rest forms here later ih =>
    have alongside : Alongside runtime block run run := ⟨rfl, rfl⟩
    rw [walk_cons, walk_cons, alongside.runStatement actor span actorType here]
    rcases Harness.runStatement runtime regex other actorType run form with ⟨next, _ | failure⟩
    · exact ih next
    · rfl

/-- An assert leaves a state that the next statement cannot tell from the one
it found. -/
theorem Alongside.assert {block : AsBlock} {run partner : BlockRun Instance}
    (alongside : Alongside runtime block run partner) (actorType : ActorType) (a : Assert) (idx : Nat) :
    Alongside runtime block (Harness.runStatement runtime regex block actorType run (.assert a, idx)).1
      partner where
  harness := alongside.harness
  scope := (bindSelf_idempotent _ _ _).trans alongside.scope

/-! ## Blocks -/

/-- The run of a block stops at one of some asserts. -/
def StopsAtAssert (runtime : ActorRuntime (List (Event Instance)) Instance) (regex : Regex)
    (drop : Assert → Bool) (block : AsBlock) (harness : HarnessState Instance)
    (report : StatementReport) : Prop :=
  ∃ actorType prior a rest run, blockType runtime block harness = .ok actorType ∧
    block.body = prior ++ .assert a :: rest ∧ drop a = true ∧
    runStatements runtime regex block actorType ⟨harness, .new⟩ prior.zipIdx = (run, none) ∧
    runAssert regex block.actor.name a (entryScope runtime block run) = some report

/-- A block does the same without some asserts, unless it stops at one of them. -/
theorem runAsBlock_withoutAsserts (unrooted : Unrooted drop) (block : AsBlock)
    (harness : HarnessState Instance) :
    runAsBlock runtime regex (block.withoutAsserts drop) harness =
        runAsBlock runtime regex block harness ∨
      ∃ report, StopsAtAssert runtime regex drop block harness report ∧
        (runAsBlock runtime regex block harness).2 = some report ∧
        (runAsBlock runtime regex block harness).1.events <+:
          (runAsBlock runtime regex (block.withoutAsserts drop) harness).1.events := by
  have typed : blockType runtime (block.withoutAsserts drop) harness =
      blockType runtime block harness := rfl
  unfold runAsBlock
  rw [typed]
  cases found : blockType runtime block harness with
  | error report => exact .inl rfl
  | ok actorType =>
    let bareStep := runStatement runtime regex (block.withoutAsserts drop) actorType
    have actor : (block.withoutAsserts drop).actor = block.actor := rfl
    have span : (block.withoutAsserts drop).span = block.span := rfl
    have begin : Alongside runtime block ⟨harness, .new⟩ ⟨harness, .new⟩ := ⟨rfl, rfl⟩
    have sides := walk_thinned (runStatement runtime regex block actorType) bareStep
      (Alongside runtime block) (fun _ => True) (thinned_zipIdx unrooted block.body) (fun _ _ _ => trivial)
      (fun run partner indexed form _ placed _ alongside => by
        have same : _ = bareStep partner form :=
          alongside.runStatement actor span actorType placed
        rw [same]
        exact ⟨⟨rfl, rfl⟩, rfl⟩)
      (fun run partner indexed _ out alongside => by
        obtain ⟨a, asserted, -, -⟩ := unrooted.dropped out
        obtain ⟨stmt, idx⟩ := indexed
        obtain rfl : stmt = .assert a := asserted
        exact alongside.assert actorType a idx)
      trivial begin
    rcases sides with ⟨alongside, alike⟩ | ⟨indexed, failed, out, before, front, -, alongside⟩
    · exact .inl (Prod.ext alongside.harness.symm alike.symm)
    · obtain ⟨listed, after, middle, final, report, split, done, stops, whole⟩ :=
        failedAt_eq_some failed
      obtain ⟨prior, later, body, rfl, rest⟩ := List.zipIdx_eq_append_iff.mp split
      obtain ⟨a, asserted, dropped, -⟩ := unrooted.dropped out
      obtain ⟨stmt, idx⟩ := indexed
      obtain rfl : stmt = .assert a := asserted
      have behind : later = .assert a :: later.tail := by
        obtain ⟨first, others, rfl, same, -⟩ := List.zipIdx_eq_cons_iff.mp rest.symm
        rw [← (Prod.mk.inj same).1, List.tail_cons]
      rw [behind] at body
      have refuted : runAssert regex block.actor.name a (entryScope runtime block middle) = some report :=
        congrArg Prod.snd stops
      refine .inr ⟨report, ⟨actorType, prior, a, later.tail, middle, found, body, dropped, done, refuted⟩,
        congrArg Prod.snd whole, ?_⟩
      have longer := walk_log_prefix bareStep (fun run : BlockRun Instance => run.harness.events)
        (events_runStatement (block.withoutAsserts drop) actorType) ⟨harness, .new⟩ front
      rwa [← alongside.harness] at longer

/-! ## Files -/

/-- The run of a file stops at one of some asserts, in a block that it gets to. -/
def FileStopsAtAssert (runtime : ActorRuntime (List (Event Instance)) Instance) (regex : Regex)
    (sourceDir : String) (drop : Assert → Bool) (source : SourceFile) (report : StatementReport) : Prop :=
  ∃ before block after harness, ReachesBlock runtime regex sourceDir source before block after harness ∧
    StopsAtAssert runtime regex drop block harness report

/-- Items do the same without some asserts, unless they stop at one of them. -/
theorem executeItems_withoutAsserts (unrooted : Unrooted drop) (sourceDir : String)
    (items : List TopLevel) (harness : HarnessState Instance) :
    executeItems runtime regex sourceDir harness (items.map (TopLevel.withoutAsserts drop)) =
        executeItems runtime regex sourceDir harness items ∨
      ∃ report before block after middle, items = before ++ .asBlock block :: after ∧
        executeItems runtime regex sourceDir harness before = (middle, none) ∧
        StopsAtAssert runtime regex drop block middle report ∧
        (executeItems runtime regex sourceDir harness items).2 = some report ∧
        (executeItems runtime regex sourceDir harness items).1.events <+:
          (executeItems runtime regex sourceDir harness
            (items.map (TopLevel.withoutAsserts drop))).1.events := by
  induction items generalizing harness with
  | nil => exact .inl rfl
  | cons item rest ih =>
    rw [List.map_cons]
    -- Either the item stops at an assert, or it is the same on both sides.
    have here : executeItem runtime regex sourceDir harness (item.withoutAsserts drop) =
          executeItem runtime regex sourceDir harness item ∨
        ∃ report block, item = .asBlock block ∧ StopsAtAssert runtime regex drop block harness report ∧
          (executeItem runtime regex sourceDir harness item).2 = some report ∧
          (executeItem runtime regex sourceDir harness item).1.events <+:
            (executeItem runtime regex sourceDir harness (item.withoutAsserts drop)).1.events := by
      cases item with
      | actorDeclaration decl => exact .inl rfl
      | asBlock block =>
        rcases runAsBlock_withoutAsserts unrooted block harness with same | ⟨report, stops, rest⟩
        · exact .inl same
        · exact .inr ⟨report, block, rfl, stops, rest⟩
    rcases here with same | ⟨report, block, rfl, stops, failed, longer⟩
    · rcases stepped : executeItem runtime regex sourceDir harness item with ⟨next, _ | failure⟩
      · rw [stepped] at same
        unfold executeItems
        rw [walk_cons_of_completed stepped, walk_cons_of_completed same]
        rcases ih next with later | ⟨report, before, block, after, middle, rfl, done, stops⟩
        · exact .inl later
        · refine .inr ⟨report, item :: before, block, after, middle, rfl, ?_, stops⟩
          rw [walk_cons_of_completed stepped]
          exact done
      · rw [stepped] at same
        unfold executeItems
        rw [walk_cons_of_failed stepped, walk_cons_of_failed same]
        exact .inl rfl
    · have failing : executeItem runtime regex sourceDir harness (.asBlock block) = (_, some report) :=
        Prod.ext rfl failed
      refine .inr ⟨report, [], block, rest, harness, rfl, rfl, stops, ?_, ?_⟩
      · rw [executeItems, walk_cons_of_failed failing]
      · have whole : executeItems runtime regex sourceDir harness (.asBlock block :: rest) = (_, some report) :=
          walk_cons_of_failed failing rest
        let bare := (TopLevel.asBlock block).withoutAsserts drop
        have further : (executeItems runtime regex sourceDir harness [bare]).1.events <+:
            (executeItems runtime regex sourceDir harness
              (bare :: rest.map (TopLevel.withoutAsserts drop))).1.events :=
          events_executeItems sourceDir (List.prefix_append [_] _)
        rw [executeItems, walk_singleton] at further
        rw [whole]
        exact longer.trans further

/-- A run without some asserts is the run with them, call for call and report
for report, unless one of these asserts fails; then it makes all the calls made
before that one, and goes on. -/
theorem execute_withoutAsserts (runtime : ActorRuntime (List (Event Instance)) Instance)
    (regex : Regex) (path sourceDir : String) (source : SourceFile) (drop : Assert → Bool)
    (unrooted : Unrooted drop) :
    let run := execute runtime regex path source sourceDir
    let bare := execute runtime regex path (source.withoutAsserts drop) sourceDir
    (run.report.passed = true → bare = run) ∧
      (bare = run ∨ ∃ report, FileStopsAtAssert runtime regex sourceDir drop source report ∧
        run.report.statements = [report] ∧
        (executeItems runtime regex sourceDir .start source.items).1.events <+: bare.events) := by
  intro run bare
  have sides : bare = run ∨ ∃ report, FileStopsAtAssert runtime regex sourceDir drop source report ∧
      run.report.statements = [report] ∧
      (executeItems runtime regex sourceDir .start source.items).1.events <+: bare.events := by
    rcases executeItems_withoutAsserts unrooted sourceDir source.items .start with
      same | ⟨report, before, block, after, middle, split, done, stops, failed, longer⟩
    · left
      change execute runtime regex path ⟨_⟩ sourceDir = execute runtime regex path source sourceDir
      unfold execute
      rw [same]
    · refine .inr ⟨report, ⟨before, block, after, middle, ⟨split, done⟩, stops⟩, ?_, ?_⟩
      · change (executeItems runtime regex sourceDir .start source.items).2.toList = [report]
        rw [failed]
        rfl
      · exact longer.trans (events_execute path sourceDir (source.withoutAsserts drop))
  refine ⟨fun passed => ?_, sides⟩
  rcases sides with same | ⟨report, -, statements, -⟩
  · exact same
  · have verdict : run.report.passed = run.report.statements.isEmpty := rfl
    rw [statements, passed] at verdict
    exact nomatch verdict

end Run

/-- A block with one assert, which holds. -/
def assertedBlock : SourceFile where
  items := [
    .actorDeclaration ⟨⟨"a", ⟨6, 7⟩⟩, ⟨"args_actor", ⟨10, 20⟩⟩, [], [], ⟨0, 20⟩⟩,
    .asBlock ⟨⟨"a", ⟨24, 25⟩⟩, [
      .let ⟨⟨"x", ⟨32, 33⟩⟩, .expr (.number 1), ⟨28, 37⟩⟩,
      .assert ⟨none, .ident ⟨"x", ⟨47, 48⟩⟩, some .eq, some (.number 1), ⟨40, 53⟩⟩], ⟨21, 53⟩⟩]

theorem execute_withoutAsserts_passed :
    execute (liveRuntime fun _ => refusingWorld) (fun _ => .error "") "t.ill"
        (assertedBlock.withoutAsserts fun a => a.op == some .eq && !exprStartsWithIdent "error" a.left) "." =
      execute (liveRuntime fun _ => refusingWorld) (fun _ => .error "") "t.ill" assertedBlock "." :=
  (execute_withoutAsserts (liveRuntime fun _ => refusingWorld) (fun _ => .error "") "t.ill" "."
    assertedBlock _ (fun a dropped => by simpa using (Bool.and_eq_true_iff.mp dropped).2)).1 (by decide)

end Ill.Harness
