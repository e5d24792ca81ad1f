import Ill.Harness.Declared

/-!
# What a scope keeps

Before every statement the harness writes one binding per live actor and
`self`, and every command clears `ok` and `error`. All other bindings of a
block persist until a `let` rebinds them, and the outcome of a command stays
visible throughout its window.
-/

namespace Ill.Harness

open Ast Actor Base Validate

section Scope

variable {Instance : Type} {runtime : ActorRuntime (List (Event Instance)) Instance}
  {regex : Regex} {block : AsBlock} {actorType : ActorType}

/-! ## Refreshing the actor views -/

theorem get_bindView (scope : Scope) (name other : String) (view : Option Dict) :
    (bindView scope name view).get other =
      if other = name then view.map .dict else scope.get other := by
  cases view with
  | none => exact Scope.get_unbind scope name other
  | some fields => exact Scope.get_bind scope name other (.dict fields)

/-- Refreshing leaves the names of no actor alone. -/
theorem get_foldl_bindView {actors : List (String × Instance)} {name : String}
    (absent : name ∉ actors.map Prod.fst) (scope : Scope) :
    (actors.foldl (fun scope entry => bindView scope entry.1 (runtime.selfView entry.2)) scope).get
      name = scope.get name := by
  induction actors generalizing scope with
  | nil => rfl
  | cons entry rest ih =>
    rw [List.map_cons, List.mem_cons, not_or] at absent
    rw [List.foldl_cons, ih absent.2, get_bindView, if_neg absent.1]

theorem get_bindSelf {actors : List (String × Instance)} {name : String}
    (other : name ≠ "self") (absent : name ∉ actors.map Prod.fst) (scope : Scope)
    (actorName : String) :
    (bindSelf runtime scope actors actorName).get name = scope.get name := by
  rw [bindSelf, get_bindView, if_neg other]
  exact get_foldl_bindView absent scope

/-- A name that only actors without a view carry is unbound if it was, or if
there is such an actor. -/
theorem get_foldl_bindView_hidden {actors : List (String × Instance)} {name : String}
    (hidden : ∀ entry ∈ actors, entry.1 = name → runtime.selfView entry.2 = none) {scope : Scope}
    (unbound : scope.get name = none ∨ name ∈ actors.map Prod.fst) :
    (actors.foldl (fun scope entry => bindView scope entry.1 (runtime.selfView entry.2)) scope).get
      name = none := by
  induction actors generalizing scope with
  | nil => simpa using unbound
  | cons entry rest ih =>
    apply ih fun later member => hidden later (List.mem_cons_of_mem _ member)
    rw [get_bindView]
    by_cases same : name = entry.1
    · have unseen := hidden entry List.mem_cons_self same.symm
      left
      rw [if_pos same, unseen, Option.map_none]
    · rw [if_neg same]
      simpa [same] using unbound

/-! ## One statement -/

/-- The scope in which the expressions of a statement are evaluated. -/
def evaluationScope (runtime : ActorRuntime (List (Event Instance)) Instance) (block : AsBlock)
    (run : BlockRun Instance) (stmt : Statement) : Scope :=
  if stmt.isCommand then commandScope runtime block run else entryScope runtime block run

/-- The scope a command leaves behind with its outcome. -/
def outcomeScope (scope : Scope) : RunOutcome → Scope
  | .ok fields => scope.bind "ok" (.dict fields)
  | .error variant fields => scope.bind "error" (.dict (buildErrorDict variant fields))
  | .notImplemented _ _ => scope

/-- Whether a statement is a `let` of a name. -/
def rebinds (name : String) : Statement → Bool
  | .let letStmt => letStmt.name.name == name
  | _ => false

/-- A done statement keeps which instances are live. -/
theorem StatementDone.names {run next : BlockRun Instance} {indexed : Statement × Nat}
    (done : StatementDone runtime regex block actorType run indexed next) :
    next.harness.names = run.harness.names := by
  rcases done.instances with same | ⟨cmd, outcome, _, dispatched⟩
  · rw [same]
  · obtain ⟨_, _, _, _, _, _, _, _, _, names, _⟩ := dispatched.effect
    exact names

/-- A name that no actor carries looks the same at the entry of a statement. -/
theorem get_entryScope {run : BlockRun Instance} {name : String} (other : name ≠ "self")
    (absent : name ∉ run.harness.names) :
    (entryScope runtime block run).get name = run.scope.get name :=
  get_bindSelf other absent run.scope block.actor.name

/-- A command clears `ok` and `error` only. -/
theorem get_commandScope {run : BlockRun Instance} {name : String} (notOk : name ≠ "ok")
    (notError : name ≠ "error") :
    (commandScope runtime block run).get name = (entryScope runtime block run).get name := by
  simp only [commandScope, Scope.get_unbind, if_neg notOk, if_neg notError]

/-- A done statement keeps the binding of a name it does not write. -/
theorem StatementDone.get_scope {run next : BlockRun Instance} {indexed : Statement × Nat}
    (done : StatementDone runtime regex block actorType run indexed next) {name : String}
    (other : name ≠ "self") (absent : name ∉ run.harness.names)
    (kept : rebinds name indexed.1 = false)
    (uncleared : indexed.1.isCommand = true → name ≠ "ok" ∧ name ≠ "error") :
    next.scope.get name = run.scope.get name := by
  cases done with
  | commandOk dispatched =>
    obtain ⟨notOk, notError⟩ := uncleared rfl
    rw [Scope.get_bind, if_neg notOk, get_commandScope notOk notError, get_entryScope other absent]
  | commandError dispatched expected =>
    obtain ⟨notOk, notError⟩ := uncleared rfl
    rw [Scope.get_bind, if_neg notError, get_commandScope notOk notError,
      get_entryScope other absent]
  | @bound bound expr span idx value evaluated =>
    have different : name ≠ bound.name := by
      intro same
      simp [rebinds, same] at kept
    rw [Scope.get_bind, if_neg different, get_entryScope other absent]
  | asserted evaluated holds => exact get_entryScope other absent

/-! ## Runs of statements -/

/-- Done statements that do not write a name keep its binding. -/
theorem get_scope_of_chain {start final : BlockRun Instance} {indexed : List (Statement × Nat)}
    (chain : Chain (StatementDone runtime regex block actorType) start indexed final)
    {name : String} (other : name ≠ "self") (absent : name ∉ start.harness.names)
    (kept : ∀ entry ∈ indexed, rebinds name entry.1 = false)
    (uncleared : ∀ entry ∈ indexed, entry.1.isCommand = true → name ≠ "ok" ∧ name ≠ "error") :
    final.harness.names = start.harness.names ∧ final.scope.get name = start.scope.get name := by
  induction chain with
  | nil => exact ⟨rfl, rfl⟩
  | cons head tail ih =>
    have names := head.names
    obtain ⟨laterNames, laterScope⟩ := ih (names ▸ absent)
      (fun entry member => kept entry (List.mem_cons_of_mem _ member))
      (fun entry member => uncleared entry (List.mem_cons_of_mem _ member))
    refine ⟨laterNames.trans names, laterScope.trans ?_⟩
    exact head.get_scope other absent (kept _ List.mem_cons_self) (uncleared _ List.mem_cons_self)

/-- Done statements keep which instances are live. -/
theorem names_of_chain {start final : BlockRun Instance} {indexed : List (Statement × Nat)}
    (chain : Chain (StatementDone runtime regex block actorType) start indexed final) :
    final.harness.names = start.harness.names := by
  induction chain with
  | nil => rfl
  | cons head _ ih => exact ih.trans head.names

/-- A kept binding is what a later statement evaluates the name to. -/
theorem get_evaluationScope {run : BlockRun Instance} {stmt : Statement} {name : String}
    (other : name ≠ "self") (absent : name ∉ run.harness.names)
    (uncleared : stmt.isCommand = true → name ≠ "ok" ∧ name ≠ "error") :
    (evaluationScope runtime block run stmt).get name = run.scope.get name := by
  unfold evaluationScope
  split
  · next command =>
    obtain ⟨notOk, notError⟩ := uncleared command
    rw [get_commandScope notOk notError, get_entryScope other absent]
  · exact get_entryScope other absent

end Scope

section Bindings

variable {Instance : Type} (runtime : ActorRuntime (List (Event Instance)) Instance)
  (regex : Regex) (block : AsBlock) (actorType : ActorType) (harness : HarnessState Instance)

/-- A run of the block reaches `stmt` after a `let` that gave a name its value,
with `middle` between the two. -/
structure AfterLet (name : Ident) (value : Value) (middle : List Statement) (stmt : Statement)
    (run : BlockRun Instance) : Prop where
  reached : ∃ before expr span after start,
    block.body = before ++ .let ⟨name, .expr expr, span⟩ :: (middle ++ stmt :: after) ∧
      runStatements runtime regex block actorType ⟨harness, .new⟩ before.zipIdx = (start, none) ∧
      eval (entryScope runtime block start) expr = .ok value ∧
      runStatements runtime regex block actorType start
        ((.let ⟨name, .expr expr, span⟩, before.length) :: middle.zipIdx (before.length + 1)) =
          (run, none)

/-- A run of the block reaches `stmt` in the window of a command that gave an
outcome, with `middle` between the two. -/
structure AfterCommand (outcome : RunOutcome) (middle : List Statement) (stmt : Statement)
    (run : BlockRun Instance) : Prop where
  reached : ∃ before cmd after start dispatched,
    block.body = before ++ .command cmd :: (middle ++ stmt :: after) ∧
      runStatements runtime regex block actorType ⟨harness, .new⟩ before.zipIdx = (start, none) ∧
      Dispatched runtime block actorType start cmd outcome dispatched ∧
      runStatements runtime regex block actorType start
        ((.command cmd, before.length) :: middle.zipIdx (before.length + 1)) = (run, none)
  window : ∀ other ∈ middle ++ [stmt], other.isCommand = false

/-- Every later statement sees the value of a `let` until one rebinds the name. -/
def SeesLet (name : Ident) : Prop :=
  ∀ value middle stmt run, AfterLet runtime regex block actorType harness name value middle stmt run →
    (∀ other ∈ middle, rebinds name.name other = false) →
      (evaluationScope runtime block run stmt).get name.name = some value

/-- Every later statement up to the next command sees the value of a `let`
until one rebinds the name. -/
def SeesLetInWindow (name : Ident) : Prop :=
  ∀ value middle stmt run, AfterLet runtime regex block actorType harness name value middle stmt run →
    (∀ other ∈ middle, rebinds name.name other = false) →
      (∀ other ∈ middle ++ [stmt], other.isCommand = false) →
        (evaluationScope runtime block run stmt).get name.name = some value

/-- Every statement of a command's window sees its outcome: exactly the fields
of a success under `ok`, or the error under `error`, and the other name
unbound, but for a name that a `let` of the window rebinds. -/
def SeesOutcome : Prop :=
  ∀ middle stmt run,
    (∀ fields, AfterCommand runtime regex block actorType harness (.ok fields) middle stmt run →
      ((∀ other ∈ middle, rebinds "ok" other = false) →
        (evaluationScope runtime block run stmt).get "ok" = some (.dict fields)) ∧
      ((∀ other ∈ middle, rebinds "error" other = false) →
        (evaluationScope runtime block run stmt).get "error" = none)) ∧
    (∀ variant fields,
      AfterCommand runtime regex block actorType harness (.error variant fields) middle stmt run →
      ((∀ other ∈ middle, rebinds "error" other = false) →
        (evaluationScope runtime block run stmt).get "error" =
          some (.dict (buildErrorDict variant fields))) ∧
      ((∀ other ∈ middle, rebinds "ok" other = false) →
        (evaluationScope runtime block run stmt).get "ok" = none))

variable {runtime regex block actorType harness}

/-- A statement sees an earlier `let` unless something between them writes the name. -/
theorem AfterLet.sees {name : Ident} {value : Value} {middle : List Statement} {stmt : Statement}
    {run : BlockRun Instance}
    (reached : AfterLet runtime regex block actorType harness name value middle stmt run)
    (other : name.name ≠ "self") (absent : name.name ∉ harness.names)
    (kept : ∀ between ∈ middle, rebinds name.name between = false)
    (uncleared : ∀ later ∈ middle ++ [stmt], later.isCommand = true →
      name.name ≠ "ok" ∧ name.name ≠ "error") :
    (evaluationScope runtime block run stmt).get name.name = some value := by
  obtain ⟨before, expr, span, after, start, body, ran, evaluated, continued⟩ := reached.reached
  have startNames := names_of_chain ((runStatements_completed_iff runtime regex).mp ran)
  have chain := (runStatements_completed_iff runtime regex).mp continued
  cases chain with
  | cons head tail =>
    cases head with
    | bound again =>
      rw [evaluated] at again
      obtain rfl := Except.ok.inj again
      have startAbsent : name.name ∉ start.harness.names := by
        rw [startNames]
        exact absent
      obtain ⟨names, scope⟩ := get_scope_of_chain tail other startAbsent
        (fun entry member => kept entry.1 (List.fst_mem_of_mem_zipIdx member))
        (fun entry member => uncleared entry.1
          (List.mem_append_left _ (List.fst_mem_of_mem_zipIdx member)))
      have runAbsent : name.name ∉ run.harness.names := by
        rw [names]
        exact startAbsent
      rw [get_evaluationScope other runAbsent (uncleared stmt (by simp)), scope, Scope.get_bind,
        if_pos rfl]

/-- A statement of a window sees what its command left under a name, unless a
`let` between them writes the name. -/
theorem AfterCommand.sees {outcome : RunOutcome} {middle : List Statement} {stmt : Statement}
    {run : BlockRun Instance}
    (reached : AfterCommand runtime regex block actorType harness outcome middle stmt run)
    {name : String} (other : name ≠ "self") (absent : name ∉ harness.names)
    (kept : ∀ between ∈ middle, rebinds name between = false) :
    ∃ start, (evaluationScope runtime block run stmt).get name =
      (outcomeScope (commandScope runtime block start) outcome).get name := by
  obtain ⟨before, cmd, after, start, dispatched, body, ran, dispatch, continued⟩ := reached.reached
  have startNames := names_of_chain ((runStatements_completed_iff runtime regex).mp ran)
  have chain := (runStatements_completed_iff runtime regex).mp continued
  cases chain with
  | @cons _ _ next _ _ head tail =>
    have settled := runStatement_of_done runtime regex head
    rw [runStatement_of_dispatched runtime regex dispatch] at settled
    have left : next.scope = outcomeScope (commandScope runtime block start) outcome := by
      have first := congrArg (fun result => result.1.scope) settled
      cases outcome <;> exact first.symm
    have nextAbsent : name ∉ next.harness.names := by
      rw [head.names, startNames]
      exact absent
    have quiet : ∀ later ∈ middle ++ [stmt], later.isCommand = true → name ≠ "ok" ∧ name ≠ "error" := by
      intro later member command
      rw [reached.window later member] at command
      simp at command
    obtain ⟨names, scope⟩ := get_scope_of_chain tail other nextAbsent
      (fun entry member => kept entry.1 (List.fst_mem_of_mem_zipIdx member))
      (fun entry member => quiet entry.1
        (List.mem_append_left _ (List.fst_mem_of_mem_zipIdx member)))
    have runAbsent : name ∉ run.harness.names := by
      rw [names]
      exact nextAbsent
    exact ⟨start, by rw [get_evaluationScope other runAbsent (quiet stmt (by simp)), scope, left]⟩

/-- Bindings persist: a `let` of a name that is neither `self` nor an actor's
is seen by every later statement until it is rebound, or in the case of `ok`
and `error` until the next command; and an outcome is seen throughout its
window if no actor is called `ok` or `error`. -/
theorem scope_persists (runtime : ActorRuntime (List (Event Instance)) Instance) (regex : Regex)
    (block : AsBlock) (actorType : ActorType) (harness : HarnessState Instance) :
    (∀ name : Ident, name.name ≠ "self" → name.name ∉ harness.names →
      (name.name ≠ "ok" → name.name ≠ "error" →
        SeesLet runtime regex block actorType harness name) ∧
      SeesLetInWindow runtime regex block actorType harness name) ∧
    ("ok" ∉ harness.names → "error" ∉ harness.names →
      SeesOutcome runtime regex block actorType harness) := by
  refine ⟨fun name other absent => ⟨?_, ?_⟩, fun okAbsent errorAbsent => ?_⟩
  · intro notOk notError value middle stmt run reached kept
    exact reached.sees other absent kept fun _ _ _ => ⟨notOk, notError⟩
  · intro value middle stmt run reached kept window
    refine reached.sees other absent kept fun later member command => ?_
    rw [window later member] at command
    simp at command
  · intro middle stmt run
    refine ⟨fun fields reached => ⟨fun kept => ?_, fun kept => ?_⟩,
      fun variant fields reached => ⟨fun kept => ?_, fun kept => ?_⟩⟩
    · obtain ⟨start, seen⟩ := reached.sees (by decide) okAbsent kept
      rw [seen, outcomeScope, Scope.get_bind, if_pos rfl]
    · obtain ⟨start, seen⟩ := reached.sees (by decide) errorAbsent kept
      rw [seen, outcomeScope, Scope.get_bind, if_neg (by decide), commandScope, Scope.get_unbind,
        if_pos rfl]
    · obtain ⟨start, seen⟩ := reached.sees (by decide) errorAbsent kept
      rw [seen, outcomeScope, Scope.get_bind, if_pos rfl]
    · obtain ⟨start, seen⟩ := reached.sees (by decide) okAbsent kept
      rw [seen, outcomeScope, Scope.get_bind, if_neg (by decide), commandScope, Scope.get_unbind,
        if_neg (by decide), Scope.get_unbind, if_pos rfl]

/-- The dict under `error` names the variant and holds its fields. -/
theorem buildErrorDict_eq {variant : String} (named : variant ≠ "type") (fields : Dict) :
    buildErrorDict variant fields = [("type", .atom variant), (variant, .dict fields)] := by
  simp [buildErrorDict, Dict.insert, Assoc.insert, Ne.symm named]

end Bindings

/-! ## Names that collide -/

/-- `let` of a number. -/
def letNumber (name : String) (n : Int) : Statement :=
  .let ⟨⟨name, ⟨0, 0⟩⟩, .expr (.number n), ⟨0, 0⟩⟩

/-- `as a:` with `check`, `let b = 1`, `let self = 1`, `let ok = 1`, `check` and `let x = 1`. -/
def collidingBlock : AsBlock :=
  plainBlock "a" [.command (plainCommand "check"), letNumber "b" 1, letNumber "self" 1,
    letNumber "ok" 1, .command (plainCommand "check"), letNumber "x" 1]

/-- Actors `a`, `b` and `error`, and the block. -/
def collidingNames : SourceFile where
  items := [plainActor "a" "args_actor", plainActor "b" "args_actor",
    plainActor "error" "args_actor", .asBlock collidingBlock]

/-- The instances when the block of `collidingNames` is reached. -/
def collidingHarness : HarnessState LiveActor :=
  (executeItems (liveRuntime fun _ => refusingWorld) noRegex "." .start
    [plainActor "a" "args_actor", plainActor "b" "args_actor", plainActor "error" "args_actor"]).1

/-- A `let` of an actor's name or of `self` is overwritten by the next
statement, one of `ok` by the next command, and an actor called `error` hides
that a command succeeded. -/
theorem colliding_names_overwrite :
    accepts collidingNames = true ∧
      ReachesBlock (liveRuntime fun _ => refusingWorld) noRegex "." collidingNames
        [plainActor "a" "args_actor", plainActor "b" "args_actor", plainActor "error" "args_actor"]
        collidingBlock [] collidingHarness ∧
      ¬ SeesLet (liveRuntime fun _ => refusingWorld) noRegex collidingBlock .argsActor
        collidingHarness ⟨"b", ⟨0, 0⟩⟩ ∧
      ¬ SeesLet (liveRuntime fun _ => refusingWorld) noRegex collidingBlock .argsActor
        collidingHarness ⟨"self", ⟨0, 0⟩⟩ ∧
      ¬ SeesLet (liveRuntime fun _ => refusingWorld) noRegex collidingBlock .argsActor
        collidingHarness ⟨"ok", ⟨0, 0⟩⟩ ∧
      ¬ SeesOutcome (liveRuntime fun _ => refusingWorld) noRegex collidingBlock .argsActor
        collidingHarness := by
  refine ⟨by decide, ⟨rfl, rfl⟩, ?_, ?_, ?_, ?_⟩
  · intro sees
    have seen := sees (.number 1) [] (letNumber "self" 1) _
      ⟨[.command (plainCommand "check")], _, _, _, _, rfl, rfl, rfl, rfl⟩ (by simp)
    exact nomatch seen
  · intro sees
    have seen := sees (.number 1) [] (letNumber "ok" 1) _
      ⟨[.command (plainCommand "check"), letNumber "b" 1], _, _, _, _, rfl, rfl, rfl, rfl⟩ (by simp)
    exact nomatch seen
  · intro sees
    have seen := sees (.number 1) [.command (plainCommand "check")] (letNumber "x" 1) _
      ⟨[.command (plainCommand "check"), letNumber "b" 1, letNumber "self" 1], _, _, _, _,
        rfl, rfl, rfl, rfl⟩ (by decide)
    exact nomatch seen
  · intro sees
    have seen := ((sees [] (letNumber "b" 1) _).1 []
      ⟨⟨[], plainCommand "check", _, _, _, rfl, rfl,
        .intro rfl rfl rfl rfl, rfl⟩, by decide⟩).2 (by simp)
    exact nomatch seen

/-- `as a:` with `let x = 1`, `check` and `let y = 2`. -/
def distinctBlock : AsBlock :=
  plainBlock "a" [letNumber "x" 1, .command (plainCommand "check"), letNumber "y" 2]

/-- The only live instance: an `args_actor` called `a`. -/
def distinctHarness : HarnessState LiveActor := HarnessState.start.push "a" (.argsActor ⟨[]⟩)

theorem scope_persists_distinct :
    ∃ run,
      (AfterLet (liveRuntime fun _ => refusingWorld) noRegex distinctBlock .argsActor
          distinctHarness ⟨"x", ⟨0, 0⟩⟩ (.number 1) [.command (plainCommand "check")]
          (letNumber "y" 2) run ∧
        (evaluationScope (liveRuntime fun _ => refusingWorld) distinctBlock run
          (letNumber "y" 2)).get "x" = some (.number 1)) ∧
      AfterCommand (liveRuntime fun _ => refusingWorld) noRegex distinctBlock .argsActor
          distinctHarness (.ok []) [] (letNumber "y" 2) run ∧
        (evaluationScope (liveRuntime fun _ => refusingWorld) distinctBlock run
          (letNumber "y" 2)).get "ok" = some (.dict []) := by
  obtain ⟨lets, outcomes⟩ :=
    scope_persists (liveRuntime fun _ => refusingWorld) noRegex distinctBlock .argsActor
      distinctHarness
  have sees := (lets ⟨"x", ⟨0, 0⟩⟩ (by decide) (by decide)).1 (by decide) (by decide)
  have afterLet : AfterLet (liveRuntime fun _ => refusingWorld) noRegex distinctBlock .argsActor
      distinctHarness ⟨"x", ⟨0, 0⟩⟩ (.number 1) [.command (plainCommand "check")]
      (letNumber "y" 2) _ := ⟨[], _, _, [], _, rfl, rfl, rfl, rfl⟩
  have afterCommand : AfterCommand (liveRuntime fun _ => refusingWorld) noRegex distinctBlock
      .argsActor distinctHarness (.ok []) [] (letNumber "y" 2) _ :=
    ⟨⟨[letNumber "x" 1], plainCommand "check", [], _, _, rfl, rfl, .intro rfl rfl rfl rfl, rfl⟩,
      by decide⟩
  exact ⟨_, ⟨afterLet, sees _ _ _ _ afterLet (by decide)⟩, afterCommand,
    ((outcomes (by decide) (by decide) [] _ _).1 [] afterCommand).1 (by simp)⟩

end Ill.Harness
