import Ill.Actor.Arguments
import Ill.Harness.Declared
import Ill.Validate.Exact

/-!
# Arguments of dispatched commands

The validator looks for the arguments that a command requires, not at their
types. So a dispatched command is given what it requires, and whether its
runtime falls back is up to the values.
-/

namespace Ill.Harness

open Ast Actor Base Validate

/-! ## Evaluation -/

theorem length_evalItems {scope : Scope} {items : List Expr} {values : List Value}
    (evaluated : evalItems scope items = .ok values) : values.length = items.length := by
  induction items generalizing values with
  | nil =>
    cases evaluated
    rfl
  | cons item rest ih =>
    obtain ⟨value, _, tail⟩ := bind_eq_ok.mp evaluated
    obtain ⟨others, later, returned⟩ := bind_eq_ok.mp tail
    cases returned
    rw [List.length_cons, ih later, List.length_cons]

/-- A keyword that is written, or was there before, has a value. -/
theorem get_evalKeywordArgsInto {scope : Scope} {provided : List KeywordArg} {name : String}
    {fields final : Dict} (evaluated : evalKeywordArgsInto scope fields provided = .ok final)
    (given : fields.get name ≠ none ∨ ∃ kw ∈ provided, kw.key.name = name) :
    final.get name ≠ none := by
  induction provided generalizing fields with
  | nil =>
    cases evaluated
    rcases given with held | ⟨kw, member, _⟩
    · exact held
    · exact absurd member List.not_mem_nil
  | cons first rest ih =>
    obtain ⟨value, _, later⟩ := bind_eq_ok.mp evaluated
    apply ih later
    by_cases own : name = first.key.name
    · left
      rw [own, Dict.get_insert_self]
      exact Option.some_ne_none _
    · rcases given with held | ⟨kw, member, named⟩
      · left
        rwa [Dict.get_insert_of_ne own]
      · right
        rcases List.mem_cons.mp member with rfl | inside
        · exact absurd named.symm own
        · exact ⟨kw, inside, named⟩

/-- Evaluating the arguments that the validator has found gives what the
command requires. -/
theorem supplied_of_fits {typeDef : ActorType} {mode : Mode} {cmd : Ast.Command}
    {cmdDef : Actor.Command} {consumed : Nat} (fits : CommandFits typeDef mode cmd cmdDef consumed)
    {scope : Scope} {args : CommandArgs} (evaluated : evalCommandArgs cmd consumed scope = .ok args) :
    cmdDef.Supplied args := by
  obtain ⟨positional, items, later⟩ := bind_eq_ok.mp evaluated
  obtain ⟨keyword, pairs, returned⟩ := bind_eq_ok.mp later
  cases returned
  constructor
  · rw [length_evalItems items]
    exact fits.positional
  · intro argDef member required
    exact get_evalKeywordArgsInto pairs (.inr (fits.keyword.required argDef member required))

/-! ## Runs -/

section Statement

variable (world : List (Event LiveActor) → External) (regex : Regex) (sourceDir : String)
  (source : SourceFile)

/-- The arguments of every dispatched command are those its runtime matches. -/
def ArgumentsServed : Prop :=
  ∀ before block after harness actorType prior cmd rest run,
    ReachesCommand (liveRuntime world) regex sourceDir source before block after harness actorType
      prior cmd rest run →
    ∀ cmdDef consumed args, actorType.resolveCommand cmd.name.name cmd.positionalArgs =
        some (cmdDef, consumed) →
      evalCommandArgs cmd consumed (commandScope (liveRuntime world) block run) = .ok args →
      actorType.Served (world run.harness.events).mqttClient.takesKeepAlive cmdDef args

end Statement

section Live

variable {world : List (Event LiveActor) → External} {regex : Regex} {sourceDir : String}
  {source : SourceFile} {before after : List TopLevel} {block : AsBlock}
  {harness : HarnessState LiveActor} {actorType : ActorType} {prior rest : List Statement}
  {cmd : Ast.Command} {run : BlockRun LiveActor}

/-- A reached command was examined silently, for an actor of the type the block
runs with, and so fits its descriptor. -/
theorem ReachesCommand.fits (accepted : accepts source = true)
    (reached : ReachesCommand (liveRuntime world) regex sourceDir source before block after harness
      actorType prior cmd rest run) :
    ∃ state, (applyPending block.actor.name (checkBody block.actor.name
          (.start (checkedAfter source before)) prior).1).healthy? block.actor.name = some state ∧
      state.typeDef = actorType ∧
      ∃ cmdDef consumed, CommandFits state.typeDef state.mode cmd cmdDef consumed := by
  obtain ⟨state, healthy, stateType, silent⟩ := command_silent accepted reached.split reached.body
  obtain ⟨_, _, _, known⟩ := (reached.toReachesBlock.liveFor accepted).blockType_eq reached.typed
  exact ⟨state, healthy, Option.some.inj (stateType.symm.trans known),
    fits_of_checkCommandIn_silent silent⟩

end Live

/-- In every run of an accepted file, the runtime of a dispatched command takes
its arguments exactly when those it insists on have their declared types, and
the driver takes the keep-alive of a connect. -/
theorem dispatched_served_iff (world : List (Event LiveActor) → External) (regex : Regex)
    (sourceDir : String) (source : SourceFile) (accepted : accepts source = true) :
    ∀ before block after harness actorType prior cmd rest run,
      ReachesCommand (liveRuntime world) regex sourceDir source before block after harness
        actorType prior cmd rest run →
      ∀ cmdDef consumed args, actorType.resolveCommand cmd.name.name cmd.positionalArgs =
          some (cmdDef, consumed) →
        evalCommandArgs cmd consumed (commandScope (liveRuntime world) block run) = .ok args →
        let takesKeepAlive := (world run.harness.events).mqttClient.takesKeepAlive
        (actorType.Served takesKeepAlive cmdDef args ↔
          actorType.WellTyped takesKeepAlive cmdDef args) := by
  intro before block after harness actorType prior cmd rest run reached cmdDef consumed args
    resolved evaluated
  obtain ⟨state, _, rfl, found, taken, fits⟩ := reached.fits accepted
  obtain ⟨rfl, rfl⟩ := Prod.mk.inj (Option.some.inj (resolved.symm.trans fits.resolved))
  exact ActorType.served_iff (ActorType.resolveCommand_spec resolved).1
    (supplied_of_fits fits evaluated)

/-- `connect user: .., database: "d"`. -/
def connectAs (user : Expr) : Ast.Command :=
  { plainCommand "connect" with
    keywordArgs := [
      ⟨⟨"user", ⟨0, 0⟩⟩, .expr user, ⟨0, 0⟩⟩,
      ⟨⟨"database", ⟨0, 0⟩⟩, .expr (.stringLit [.text "d"] ⟨0, 0⟩), ⟨0, 0⟩⟩] }

/-- One `pg_client` called `db`, and a block that connects it. -/
def connectFile (user : Expr) : SourceFile where
  items := [plainActor "db" "pg_client", .asBlock (plainBlock "db" [.command (connectAs user)])]

/-- The state in which the client has been constructed. -/
def clientConstructed : HarnessState LiveActor :=
  (executeItems (liveRuntime fun _ => refusingWorld) noRegex "." .start
    [plainActor "db" "pg_client"]).1

theorem connectFile_reached (user : Expr) :
    ReachesCommand (liveRuntime fun _ => refusingWorld) noRegex "." (connectFile user)
      [plainActor "db" "pg_client"] (plainBlock "db" [.command (connectAs user)]) []
      clientConstructed .pgClient [] (connectAs user) [] ⟨clientConstructed, .new⟩ :=
  ⟨⟨rfl, rfl⟩, rfl, rfl, rfl⟩

theorem dispatched_served_of_texts :
    ActorType.pgClient.Served refusingWorld.mqttClient.takesKeepAlive PgClient.connect
      ⟨[], [("user", .string "u"), ("database", .string "d")]⟩ := by
  refine (dispatched_served_iff (fun _ => refusingWorld) noRegex "."
    (connectFile (.stringLit [.text "u"] ⟨0, 0⟩)) (by decide) _ _ _ _ _ _ _ _ _
    (connectFile_reached _) PgClient.connect 0 _ rfl rfl).mpr ?_
  refine ⟨fun _ => ⟨?_, ?_⟩, fun other => absurd other (by decide)⟩
  · simp [Command.KeywordTyped, GivenAs, CommandArgs.kw, Dict.get]
    decide
  · intro n given
    have absent : some (Value.number n) = none := given.symm
    simp at absent

/-- A user that is a number is accepted, and `connect` falls back. -/
theorem number_user_falls_back :
    ¬ ∀ (world : List (Event LiveActor) → External) (regex : Regex) (sourceDir : String)
      (source : SourceFile), accepts source = true →
        ArgumentsServed world regex sourceDir source := by
  intro serves
  have served := serves (fun _ => refusingWorld) noRegex "." (connectFile (.number 5)) (by decide)
    _ _ _ _ _ _ _ _ _ (connectFile_reached _) PgClient.connect 0 _ rfl rfl
  exact served.connect rfl rfl

end Ill.Harness
