import Ill.Harness.Instances

/-!
# Declared before used

The validator collects every declaration before it checks a block; the harness
constructs actors in the same walk that runs the blocks. So the harness meets
an actor without a live instance exactly where a block it reaches precedes its
actor's declaration, and an unresolved command nowhere.
-/

namespace Ill.Harness

open Ast Actor Base Validate

section Defensive

variable {Instance : Type} (runtime : ActorRuntime (List (Event Instance)) Instance)
  (regex : Regex) (sourceDir : String) (source : SourceFile)

/-- The failures that validation is meant to exclude, as they are recorded. -/
inductive DefensiveFailure : StatementReport → Prop where
  | blockNotLive {before block after harness}
      (reached : ReachesBlock runtime regex sourceDir source before block after harness)
      (absent : harness.get block.actor.name = none) :
      DefensiveFailure (noLiveInstance block.actor.name block.span)
  | commandNotLive {before block after harness actorType prior cmd rest run cmdDef consumed args}
      (reached : ReachesCommand runtime regex sourceDir source before block after harness actorType
        prior cmd rest run)
      (resolved : actorType.resolveCommand cmd.name.name cmd.positionalArgs =
        some (cmdDef, consumed))
      (evaluated : evalCommandArgs cmd consumed (commandScope runtime block run) = .ok args)
      (absent : run.harness.get block.actor.name = none) :
      DefensiveFailure (noLiveInstance block.actor.name cmd.span)
  | unknownCommand {before block after harness actorType prior cmd rest run}
      (reached : ReachesCommand runtime regex sourceDir source before block after harness actorType
        prior cmd rest run)
      (unknown : actorType.resolveCommand cmd.name.name cmd.positionalArgs = none) :
      DefensiveFailure (unknownCommand block.actor.name actorType cmd)

variable {runtime regex sourceDir source}

/-- A statement that fails where the walk reaches it is the failure of its block. -/
theorem ReachesCommand.item_fails {before : List TopLevel} {block : AsBlock}
    {after : List TopLevel} {harness : HarnessState Instance} {actorType : ActorType}
    {prior rest : List Statement} {cmd : Ast.Command} {run next : BlockRun Instance}
    {report : StatementReport}
    (reached : ReachesCommand runtime regex sourceDir source before block after harness actorType
      prior cmd rest run)
    (fails : StatementFails runtime regex block actorType run (.command cmd, prior.length) next
      report) :
    ItemFails runtime regex sourceDir harness (.asBlock block) next.harness report := by
  have typed := reached.typed
  unfold blockType at typed
  split at typed
  · simp at typed
  · next inst live =>
    split at typed
    · next found known =>
      obtain rfl := Except.ok.inj typed
      have split : block.body.zipIdx =
          prior.zipIdx ++ (.command cmd, prior.length) :: rest.zipIdx (prior.length + 1) := by
        rw [reached.body, List.zipIdx_append, List.zipIdx_cons, Nat.zero_add]
      exact .statement live known split
        ((runStatements_completed_iff runtime regex).mp reached.ran) fails
    · simp at typed

/-- A defensive failure is what the run records. -/
theorem DefensiveFailure.recorded {report : StatementReport}
    (failure : DefensiveFailure runtime regex sourceDir source report) (path : String) :
    (execute runtime regex path source sourceDir).report.statements = [report] := by
  have fails : ∃ final, FileFails runtime regex sourceDir source.items final report := by
    cases failure with
    | blockNotLive reached absent =>
      exact ⟨_, _, _, _, _, reached.split,
        (executeItems_completed_iff runtime regex).mp reached.completed, .notLive absent⟩
    | commandNotLive reached resolved evaluated absent =>
      exact ⟨_, _, _, _, _, reached.split,
        (executeItems_completed_iff runtime regex).mp reached.completed,
        reached.item_fails (.notLive resolved evaluated absent)⟩
    | unknownCommand reached unknown =>
      exact ⟨_, _, _, _, _, reached.split,
        (executeItems_completed_iff runtime regex).mp reached.completed,
        reached.item_fails (.unresolved unknown)⟩
  obtain ⟨final, stopped⟩ := fails
  have ran := (executeItems_failed_iff runtime regex).mpr stopped
  simp only [execute, ran, Option.toList_some]

end Defensive

section Live

variable {world : List (Event LiveActor) → External} {regex : Regex} {sourceDir : String}
  {source : SourceFile}

/-- Every block comes after the declaration of its actor. -/
def DeclaredFirst (source : SourceFile) : Prop :=
  ∀ before block after, source.items = before ++ .asBlock block :: after →
    block.actor.name ∈ declaredNames before

/-- A command of an accepted file that the walk reaches resolves. -/
theorem ReachesCommand.resolves (accepted : accepts source = true) {before : List TopLevel}
    {block : AsBlock} {after : List TopLevel} {harness : HarnessState LiveActor}
    {actorType : ActorType} {prior rest : List Statement} {cmd : Ast.Command}
    {run : BlockRun LiveActor}
    (reached : ReachesCommand (liveRuntime world) regex sourceDir source before block after harness
      actorType prior cmd rest run) :
    actorType.resolveCommand cmd.name.name cmd.positionalArgs ≠ none := by
  obtain ⟨state, _, typed, silent⟩ := command_silent accepted reached.split reached.body
  obtain ⟨cmdDef, consumed, resolved, _⟩ := checkCommandIn_silent silent
  obtain ⟨actor, _, _, same⟩ :=
    (reached.toReachesBlock.liveFor accepted).blockType_eq reached.typed
  rw [typed] at same
  rw [← Option.some.inj same, resolved]
  simp

/-- The live instance of a block is still live at each of its commands. -/
theorem ReachesCommand.live (accepted : accepts source = true) {before : List TopLevel}
    {block : AsBlock} {after : List TopLevel} {harness : HarnessState LiveActor}
    {actorType : ActorType} {prior rest : List Statement} {cmd : Ast.Command}
    {run : BlockRun LiveActor}
    (reached : ReachesCommand (liveRuntime world) regex sourceDir source before block after harness
      actorType prior cmd rest run) :
    run.harness.get block.actor.name ≠ none := by
  have atBlock := reached.toReachesBlock.liveFor accepted
  obtain ⟨actor, present, _, _⟩ := atBlock.blockType_eq reached.typed
  have named : block.actor.name ∈ declaredNames before := by
    by_contra absent
    rw [← atBlock.names] at absent
    rw [HarnessState.get_eq_none_iff.mpr absent] at present
    simp at present
  rw [Ne, HarnessState.get_eq_none_iff, (reached.liveFor accepted).names, not_not]
  exact named

/-- An accepted file never records a defensive failure if every block follows
its actor's declaration; a run records one exactly when it reaches a block
that does not. -/
theorem defensive_failure_iff (world : List (Event LiveActor) → External) (regex : Regex)
    (sourceDir : String) (source : SourceFile) (accepted : accepts source = true) :
    (DeclaredFirst source →
        ∀ report, ¬ DefensiveFailure (liveRuntime world) regex sourceDir source report) ∧
      ((∃ report, DefensiveFailure (liveRuntime world) regex sourceDir source report) ↔
        ∃ before block after harness,
          ReachesBlock (liveRuntime world) regex sourceDir source before block after harness ∧
            block.actor.name ∉ declaredNames before) := by
  have undeclared : ∀ report, DefensiveFailure (liveRuntime world) regex sourceDir source report →
      ∃ before block after harness,
        ReachesBlock (liveRuntime world) regex sourceDir source before block after harness ∧
          block.actor.name ∉ declaredNames before := by
    intro report failure
    cases failure with
    | blockNotLive reached absent =>
      have live := reached.liveFor accepted
      rw [HarnessState.get_eq_none_iff, live.names] at absent
      exact ⟨_, _, _, _, reached, absent⟩
    | commandNotLive reached resolved evaluated absent =>
      exact absurd absent (reached.live accepted)
    | unknownCommand reached unknown => exact absurd unknown (reached.resolves accepted)
  refine ⟨fun declared report failure => ?_, fun ⟨report, failure⟩ => undeclared report failure, ?_⟩
  · obtain ⟨before, block, after, harness, reached, absent⟩ := undeclared report failure
    exact absent (declared before block after reached.split)
  · rintro ⟨before, block, after, harness, reached, absent⟩
    rw [← (reached.liveFor accepted).names] at absent
    exact ⟨_, .blockNotLive reached (HarnessState.get_eq_none_iff.mpr absent)⟩

end Live

/-! ## A block before its declaration -/

/-- An actor declaration without arguments. -/
def plainActor (name actorType : String) : TopLevel :=
  .actorDeclaration {
    name := ⟨name, ⟨0, 0⟩⟩, actorType := ⟨actorType, ⟨0, 0⟩⟩, keywordArgs := [], vars := []
    span := ⟨0, 0⟩ }

def plainBlock (actor : String) (body : List Statement) : AsBlock where
  actor := ⟨actor, ⟨0, 0⟩⟩
  body := body
  span := ⟨0, 0⟩

/-- A command without arguments. -/
def plainCommand (name : String) : Ast.Command where
  «annotation» := none
  name := ⟨name, ⟨0, 0⟩⟩
  positionalArgs := []
  keywordArgs := []
  span := ⟨0, 0⟩

/-- A regular expression engine that compiles nothing. -/
def noRegex : Regex := fun _ => .error "unsupported"

/-- `as a: check` followed by `actor a = args_actor`. -/
def blockFirst : SourceFile where
  items := [.asBlock (plainBlock "a" [.command (plainCommand "check")]),
    plainActor "a" "args_actor"]

theorem blockFirst_reached :
    ReachesBlock (liveRuntime fun _ => refusingWorld) noRegex "." blockFirst []
      (plainBlock "a" [.command (plainCommand "check")]) [plainActor "a" "args_actor"] .start :=
  ⟨rfl, rfl⟩

theorem defensive_failure_iff_blockFirst :
    ∃ report, DefensiveFailure (liveRuntime fun _ => refusingWorld) noRegex "." blockFirst report :=
  (defensive_failure_iff (fun _ => refusingWorld) noRegex "." blockFirst (by decide)).2.mpr
    ⟨_, _, _, _, blockFirst_reached, by simp⟩

/-- Acceptance alone does not exclude the defensive failures. -/
theorem accepted_file_fails_defensively :
    ¬ ∀ (world : List (Event LiveActor) → External) (regex : Regex) (sourceDir : String)
      (source : SourceFile), accepts source = true →
        ∀ report, ¬ DefensiveFailure (liveRuntime world) regex sourceDir source report := by
  intro safe
  have accepted : accepts blockFirst = true := by decide
  exact safe (fun _ => refusingWorld) noRegex "." blockFirst accepted _
    (.blockNotLive blockFirst_reached rfl)

end Ill.Harness
