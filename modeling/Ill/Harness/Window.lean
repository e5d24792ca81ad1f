import Ill.Harness.Persistence
import Ill.Validate.Exact

/-!
# Windows

A window is read twice. The validator folds its references to `ok` and
`error` into an outcome; the harness evaluates them. This module says what a
silent check and a completed run of one window amount to.
-/

namespace Ill.Harness

open Ast Actor Base Validate

/-! ## The validator's reading -/

/-- The harness scans for the references that the validator counts. -/
theorem refersToError_eq (stmt : Statement) : refersToError stmt = refersTo "error" stmt := by
  cases stmt <;> rfl

/-- An unconflicted window keeps every mode and the pending transition, and
commits to `error` exactly when some statement refers to it. -/
theorem checkBody_window {inside : List Statement}
    (quiet : ∀ stmt ∈ inside, stmt.isCommand = false) {actorName : String} {check : BlockCheck}
    (unconflicted : Unconflicted (checkBody actorName check inside).2) :
    (∀ name, (checkBody actorName check inside).1.actors.mode? name = check.actors.mode? name) ∧
      (checkBody actorName check inside).1.pendingTransition = check.pendingTransition ∧
      ((checkBody actorName check inside).1.outcome = .explicitError ↔
        check.outcome = .explicitError ∨ ∃ stmt ∈ inside, refersToError stmt = true) := by
  induction inside generalizing check with
  | nil => exact ⟨fun _ => rfl, rfl, by simp [checkBody]⟩
  | cons stmt rest ih =>
    have parts := unconflicted_append.mp unconflicted
    have first : stmt.isCommand = false := quiet stmt List.mem_cons_self
    have kept := checkStatement_window first actorName check
    have committed := checkStatement_outcome first parts.1
    rw [← refersToError_eq] at committed
    obtain ⟨modes, pending, outcome⟩ :=
      ih (fun other member => quiet other (List.mem_cons_of_mem _ member)) parts.2
    refine ⟨fun name => (modes name).trans (kept name).1, pending.trans (kept "").2, ?_⟩
    have folded := outcome.trans (or_congr_left committed)
    rw [or_assoc] at folded
    simp only [List.mem_cons, exists_eq_or_imp]
    exact folded

/-- The look-ahead of the harness agrees with the fold of the validator: where
a block mixes no references, the scan after a command finds one to `error`
exactly when the outcome is committed to `error` at the next command or the end
of the block. -/
theorem blockHasErrorRefAfter_agrees (block : AsBlock) (start : BlockCheck)
    (unconflicted : Unconflicted (checkBody block.actor.name start block.body).2) (idx : Nat)
    (cmd : Ast.Command) (here : block.body[idx]? = some (.command cmd)) :
    blockHasErrorRefAfter block idx = true ↔
      (checkBody block.actor.name start
        (block.body.take (idx + 1) ++ window (block.body.drop (idx + 1)))).1.outcome =
          .explicitError := by
  obtain ⟨bound, isCommand⟩ := List.getElem?_eq_some_iff.mp here
  have prior : block.body.take (idx + 1) = block.body.take idx ++ [.command cmd] := by
    rw [← isCommand, List.take_concat_get']
  generalize after : block.body.drop (idx + 1) = rest
  have whole : block.body =
      block.body.take (idx + 1) ++ (window rest ++ rest.dropWhile fun stmt => !stmt.isCommand) := by
    rw [window, List.takeWhile_append_dropWhile, ← after, List.take_append_drop]
  generalize reached : (checkBody block.actor.name start (block.body.take (idx + 1))).1 = check
  -- The command opens its window uncommitted.
  have uncommitted : check.outcome = .impliedOk := by
    rw [← reached, prior, checkBody, emit_append_state]
    rfl
  have inWindow : Unconflicted (checkBody block.actor.name check (window rest)).2 := by
    rw [whole, checkBody, emit_append_output, emit_append_output] at unconflicted
    rw [← reached]
    exact (unconflicted_append.mp (unconflicted_append.mp unconflicted).2).1
  obtain ⟨-, -, committed⟩ := checkBody_window (fun _ => isCommand_of_mem_window) inWindow
  rw [checkBody, emit_append_state, ← checkBody, ← checkBody, reached, committed, uncommitted,
    blockHasErrorRefAfter, after, scanErrorRef_iff]
  simp

/-- `as db: disconnect`, `assert error.type` and `disconnect`. -/
def expectingBlock : AsBlock :=
  plainBlock "db" [.command (plainCommand "disconnect"),
    .assert ⟨none, .memberAccess (.ident ⟨"error", ⟨0, 0⟩⟩) ⟨"type", ⟨0, 0⟩⟩ ⟨0, 0⟩, none, none,
      ⟨0, 0⟩⟩,
    .command (plainCommand "disconnect")]

theorem blockHasErrorRefAfter_agrees_example :
    (checkBody "db" (.start fun _ => none)
      (expectingBlock.body.take 1 ++ window (expectingBlock.body.drop 1))).1.outcome =
        .explicitError := by
  have silent : (checkBody "db" (.start fun _ => none) expectingBlock.body).2 = [] := rfl
  exact (blockHasErrorRefAfter_agrees expectingBlock (.start fun _ => none) (.of_silent silent) 0
    (plainCommand "disconnect") rfl).mp rfl

/-! ## The harness's reading -/

section Reading

variable {Instance : Type} {runtime : ActorRuntime (List (Event Instance)) Instance}
  {regex : Regex} {block : AsBlock} {actorType : ActorType}

/-- A statement that reads `error` is not done where `error` is unbound. -/
theorem StatementDone.reads_nothing {run next : BlockRun Instance} {stmt : Statement} {idx : Nat}
    (done : StatementDone runtime regex block actorType run (stmt, idx) next)
    (unbound : (entryScope runtime block run).get "error" = none) : refersToError stmt = false := by
  by_contra reads
  rw [Bool.not_eq_false] at reads
  cases done with
  | commandOk dispatched => simp [refersToError] at reads
  | commandError dispatched expected => simp [refersToError] at reads
  | bound evaluated =>
    obtain ⟨e, failed⟩ := eval_of_unbound reads unbound
    rw [failed] at evaluated
    simp at evaluated
  | asserted evaluated holds =>
    obtain ⟨e, failed⟩ := eval_of_unbound reads unbound
    simp [evalAssert, failed, bind, Except.bind] at evaluated

/-- A done statement of a window makes no call. -/
theorem StatementDone.harness_eq {run next : BlockRun Instance} {indexed : Statement × Nat}
    (done : StatementDone runtime regex block actorType run indexed next)
    (inside : indexed.1.isCommand = false) : next.harness = run.harness := by
  rcases done.instances with same | ⟨cmd, outcome, command, _⟩
  · exact same
  · rw [command] at inside
    simp [Statement.isCommand] at inside

/-- A completed window makes no call. -/
theorem harness_eq_of_window {inside : List Statement} {idx : Nat} {run final : BlockRun Instance}
    (quiet : ∀ stmt ∈ inside, stmt.isCommand = false)
    (chain : Chain (StatementDone runtime regex block actorType) run (inside.zipIdx idx) final) :
    final.harness = run.harness := by
  induction inside generalizing idx run with
  | nil =>
    cases chain
    rfl
  | cons stmt rest ih =>
    rw [List.zipIdx_cons] at chain
    cases chain with
    | cons first tail =>
      have later := ih (fun other member => quiet other (List.mem_cons_of_mem _ member)) tail
      exact later.trans (first.harness_eq (quiet stmt List.mem_cons_self))

/-- A completed window does not read `error` while the actors hide it. -/
theorem reads_nothing_of_hidden {inside : List Statement} {idx : Nat}
    {run final : BlockRun Instance} (quiet : ∀ stmt ∈ inside, stmt.isCommand = false)
    (hidden : ∀ scope : Scope,
      (bindSelf runtime scope run.harness.actors block.actor.name).get "error" = none)
    (chain : Chain (StatementDone runtime regex block actorType) run (inside.zipIdx idx) final) :
    ∀ stmt ∈ inside, refersToError stmt = false := by
  induction inside generalizing idx run with
  | nil => simp
  | cons stmt rest ih =>
    rw [List.zipIdx_cons] at chain
    cases chain with
    | cons first tail =>
      have same := first.harness_eq (quiet stmt List.mem_cons_self)
      have later := ih (fun other member => quiet other (List.mem_cons_of_mem _ member))
        (same ▸ hidden) tail
      exact List.forall_mem_cons.mpr ⟨first.reads_nothing (hidden run.scope), later⟩

/-- Whether a window reads `error` only after a `let` of its own has bound it. -/
def shadowsError : List Statement → Bool
  | [] => false
  | stmt :: rest =>
    if refersToError stmt then false
    else if rebinds "error" stmt then rest.any refersToError
    else shadowsError rest

/-- A completed window that began with `error` unbound does not read it, unless
it bound it before. -/
theorem reads_nothing_of_unbound {inside : List Statement} {idx : Nat}
    {run final : BlockRun Instance} (quiet : ∀ stmt ∈ inside, stmt.isCommand = false)
    (absent : "error" ∉ run.harness.names) (unbound : run.scope.get "error" = none)
    (clear : shadowsError inside = false)
    (chain : Chain (StatementDone runtime regex block actorType) run (inside.zipIdx idx) final) :
    ∀ stmt ∈ inside, refersToError stmt = false := by
  induction inside generalizing idx run with
  | nil => simp
  | cons stmt rest ih =>
    rw [List.zipIdx_cons] at chain
    cases chain with
    | cons first tail =>
      have inWindow := quiet stmt List.mem_cons_self
      have silent : refersToError stmt = false :=
        first.reads_nothing ((get_entryScope (by decide) absent).trans unbound)
      rw [shadowsError, silent, if_neg Bool.false_ne_true] at clear
      refine List.forall_mem_cons.mpr ⟨silent, ?_⟩
      split at clear
      · simpa using clear
      · next kept =>
        rw [Bool.not_eq_true] at kept
        have same := first.get_scope (by decide) absent kept (by simp [inWindow])
        refine ih (fun other member => quiet other (List.mem_cons_of_mem _ member)) ?_
          (same.trans unbound) clear tail
        rwa [first.names]

end Reading

end Ill.Harness
