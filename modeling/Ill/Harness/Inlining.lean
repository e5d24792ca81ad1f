import Ill.Harness.Observers
import Ill.Runtime.Substitution

/-!
# Inlining a let

A `let` of an expression that looks up no name can be taken out of its block,
with the expression in the place of the name in the statements after it. The
block then makes the same calls and ends in the same report.
-/

namespace Ill.Ast

/-- A bare identifier in the place of a key stays. -/
def substMapKey (name : String) (image : Expr) : Expr → Expr
  | .ident ident => .ident ident
  | key => substExpr name image key

def substKeywordValue (name : String) (image : Expr) : KeywordValue → KeywordValue
  | .expr held => .expr (substExpr name image held)
  | .map pairs =>
    .map (pairs.map fun pair => (substMapKey name image pair.1, substExpr name image pair.2))

def substKeywordArg (name : String) (image : Expr) (kw : KeywordArg) : KeywordArg :=
  { kw with value := substKeywordValue name image kw.value }

def substCommand (name : String) (image : Expr) (cmd : Command) : Command :=
  { cmd with
    positionalArgs := substItems name image cmd.positionalArgs
    keywordArgs := cmd.keywordArgs.map (substKeywordArg name image) }

def substAssert (name : String) (image : Expr) (a : Assert) : Assert :=
  { a with left := substExpr name image a.left, right := a.right.map (substExpr name image) }

def substLetValue (name : String) (image : Expr) : LetValue → LetValue
  | .expr held => .expr (substExpr name image held)
  | .parse source format => .parse source format

/-- Put an expression wherever a statement looks a name up. -/
def substStatement (name : String) (image : Expr) : Statement → Statement
  | .command cmd => .command (substCommand name image cmd)
  | .assert a => .assert (substAssert name image a)
  | .let letStmt => .let { letStmt with value := substLetValue name image letStmt.value }
  | .assignment a => .assignment a

end Ill.Ast

namespace Ill.Harness

open Ast Actor Base Validate

/-! ## Arguments and comparisons -/

section Arguments

variable {scope : Scope} {name : String} {image : Expr} {value : Value}

theorem mapKey_subst (held : eval scope image = .ok value) (key : Expr) :
    mapKey scope (substMapKey name image key) = mapKey (scope.bind name value) key := by
  cases key with
  | ident ident => rfl
  | _ =>
    rw [substMapKey, mapKey_of_compound _ (by simp [substExpr]), mapKey_of_compound _ (by simp),
      eval_subst held]
    simp

theorem evalPairs_subst (held : eval scope image = .ok value) (pairs : List (Expr × Expr))
    (fields : Dict) :
    evalPairs scope fields
        (pairs.map fun pair => (substMapKey name image pair.1, substExpr name image pair.2)) =
      evalPairs (scope.bind name value) fields pairs := by
  induction pairs generalizing fields with
  | nil => rfl
  | cons pair rest ih =>
    obtain ⟨key, expr⟩ := pair
    rw [List.map_cons, evalPairs, evalPairs, mapKey_subst held, eval_subst held]
    exact bind_congr fun key => bind_congr fun held => ih _

theorem evalKeywordValue_subst (held : eval scope image = .ok value) (kw : KeywordValue) :
    evalKeywordValue scope (substKeywordValue name image kw) =
      evalKeywordValue (scope.bind name value) kw := by
  cases kw with
  | expr expr => exact eval_subst held expr
  | map pairs => exact congrArg (Except.map Value.dict) (evalPairs_subst held pairs [])

theorem evalKeywordArgsInto_subst (held : eval scope image = .ok value) (args : List KeywordArg)
    (fields : Dict) :
    evalKeywordArgsInto scope fields (args.map (substKeywordArg name image)) =
      evalKeywordArgsInto (scope.bind name value) fields args := by
  induction args generalizing fields with
  | nil => rfl
  | cons kw rest ih =>
    rw [List.map_cons, evalKeywordArgsInto, evalKeywordArgsInto]
    simp only [substKeywordArg, evalKeywordValue_subst held]
    exact bind_congr fun held => ih _

theorem evalCommandArgs_subst (held : eval scope image = .ok value) (cmd : Ast.Command)
    (consumed : Nat) :
    evalCommandArgs (substCommand name image cmd) consumed scope =
      evalCommandArgs cmd consumed (scope.bind name value) := by
  have positional : evalItems scope ((substItems name image cmd.positionalArgs).drop consumed) =
      evalItems (scope.bind name value) (cmd.positionalArgs.drop consumed) := by
    rw [substItems_eq_map, ← List.map_drop, ← substItems_eq_map, evalItems_subst held]
  simp only [evalCommandArgs, substCommand, evalKeywordArgs, positional,
    evalKeywordArgsInto_subst held]

theorem evalAssert_subst (regex : Regex) (held : eval scope image = .ok value) (a : Assert) :
    evalAssert regex (substAssert name image a) scope =
      evalAssert regex a (scope.bind name value) := by
  obtain ⟨ annotation, left, op, right, span⟩ := a
  simp only [evalAssert, substAssert, eval_subst held]
  cases op with
  | none => rfl
  | some op =>
    cases right with
    | none => rfl
    | some expr => simp only [Option.map_some, eval_subst held]

end Arguments

/-! ## Windows -/

section Windows

variable {name : String} {image : Expr}

end Windows

/-! ## The statements after the let -/

/-- Whether the positionals of a command start with a bare name. -/
def leadsWith (name : String) (cmd : Ast.Command) : Bool :=
  match cmd.positionalArgs.head? with
  | some (.ident ident) => ident.name == name
  | _ => false

/-- What a statement must not do with the name: bind it again, or use it as the
word after `receive`, which is not evaluated. An unknown command may not lead
with it either, as the report quotes that word. -/
def keepsName (actorType : ActorType) (name : String) : Statement → Bool
  | .command cmd =>
    !leadsWith name cmd ||
      cmd.name.name != "receive" && (actorType.command cmd.name.name).isSome
  | stmt => !rebinds name stmt

/-- Only the first positional is looked at, and only if it is a bare word. -/
theorem resolveCommand_subst {actorType : ActorType} {name : String} {image : Expr}
    {cmd : Ast.Command} (keeps : keepsName actorType name (.command cmd) = true) :
    actorType.resolveCommand cmd.name.name (substItems name image cmd.positionalArgs) =
        actorType.resolveCommand cmd.name.name cmd.positionalArgs ∧
      (actorType.resolveCommand cmd.name.name cmd.positionalArgs = none →
        unknownCommandMessage actorType.name cmd.name.name (substItems name image cmd.positionalArgs) =
          unknownCommandMessage actorType.name cmd.name.name cmd.positionalArgs) := by
  obtain ⟨ annotation, word, positional, keyword, span⟩ := cmd
  cases positional with
  | nil => exact ⟨rfl, fun _ => rfl⟩
  | cons first rest =>
    rw [substItems]
    cases first with
    | ident ident =>
      rw [substExpr]
      by_cases same : ident.name = name
      · have leads : leadsWith name ⟨ annotation, word, .ident ident :: rest, keyword, span⟩ = true := by
          simp [leadsWith, same]
        rw [keepsName, leads, Bool.not_true, Bool.false_or, Bool.and_eq_true, bne_iff_ne] at keeps
        obtain ⟨notReceive, known⟩ := keeps
        -- The command is found by its own word, whatever follows.
        have plain : ∀ positional, actorType.resolveCommand word.name positional =
            (actorType.command word.name).map fun command => (command, 0) := by
          intro positional
          cases actorType <;> simp [ActorType.resolveCommand, notReceive]
        refine ⟨by rw [plain, plain], fun unknown => ?_⟩
        rw [plain, Option.map_eq_none_iff] at unknown
        rw [unknown] at known
        exact nomatch known
      · rw [if_neg same]
        exact ⟨rfl, fun _ => rfl⟩
    | _ => exact ⟨rfl, fun _ => rfl⟩

section Run

variable {Instance : Type} {runtime : ActorRuntime (List (Event Instance)) Instance} {regex : Regex}
  {name : String} {image : Expr} {value : Value}

theorem unbind_bind {other : String} (different : name ≠ other) (scope : Scope) :
    (scope.bind name value).unbind other = (scope.unbind other).bind name value := by
  refine congrArg Scope.mk (funext fun looked => ?_)
  change (if looked = other then none else (scope.bind name value).get looked) = _
  change _ = if looked = name then some value else (scope.unbind other).get looked
  rw [Scope.get_bind, Scope.get_unbind]
  by_cases here : looked = name
  · subst here
    simp [different]
  · simp [here]

theorem bind_bind {other : String} (different : name ≠ other) (scope : Scope) (held : Value) :
    (scope.bind name value).bind other held = (scope.bind other held).bind name value := by
  refine congrArg Scope.mk (funext fun looked => ?_)
  change (if looked = other then some held else (scope.bind name value).get looked) = _
  change _ = if looked = name then some value else (scope.bind other held).get looked
  rw [Scope.get_bind, Scope.get_bind]
  by_cases here : looked = name
  · subst here
    simp [different]
  · simp [here]

/-- A binding that no actor view overwrites can be made before or after the
refresh. -/
theorem bindSelf_bind {actors : List (String × Instance)} (notSelf : name ≠ "self")
    (free : name ∉ actors.map Prod.fst) (scope : Scope) (actorName : String) :
    bindSelf runtime (scope.bind name value) actors actorName =
      (bindSelf runtime scope actors actorName).bind name value := by
  have pointwise : ∀ looked, (bindSelf runtime (scope.bind name value) actors actorName).get looked =
      ((bindSelf runtime scope actors actorName).bind name value).get looked := by
    intro looked
    rw [Scope.get_bind]
    by_cases here : looked = name
    · subst here
      rw [if_pos rfl, get_bindSelf notSelf free, Scope.get_bind, if_pos rfl]
    · rw [if_neg here, bindSelf, get_bindView, bindSelf, get_bindView]
      by_cases self : looked = "self"
      · rw [if_pos self, if_pos self]
      · rw [if_neg self, if_neg self]
        apply get_foldl_bindView_congr
        exact .inl (by rw [Scope.get_bind, if_neg here])
  exact congrArg Scope.mk (funext pointwise)

/-- A name that the harness writes no binding of its own to. -/
structure PlainName (name : String) : Prop where
  notSelf : name ≠ "self"
  notOk : name ≠ "ok"
  notError : name ≠ "error"

/-- The state of a block beside that of the block without the `let`. -/
structure Inlined (runtime : ActorRuntime (List (Event Instance)) Instance) (block : AsBlock)
    (name : String) (value : Value) (run partner : BlockRun Instance) : Prop where
  harness : run.harness = partner.harness
  free : name ∉ run.harness.names
  scope : entryScope runtime block run = (entryScope runtime block partner).bind name value

/-- Scopes that differ in the binding differ in it after the next refresh. -/
theorem Inlined.of_bind (plain : PlainName name) {harness : HarnessState Instance}
    (free : name ∉ harness.names) (block : AsBlock) (scope : Scope) :
    Inlined runtime block name value ⟨harness, scope.bind name value⟩ ⟨harness, scope⟩ where
  harness := rfl
  free := free
  scope := bindSelf_bind plain.notSelf free scope block.actor.name

/-- A settled outcome keeps the binding. -/
theorem Inlined.settleOutcome (plain : PlainName name) {harness : HarnessState Instance}
    (free : name ∉ harness.names) (block : AsBlock) (scope : Scope) (cmd : Ast.Command)
    (expectsError : Bool) (outcome : RunOutcome) :
    Inlined runtime block name value
        (settleOutcome block.actor.name cmd expectsError harness (scope.bind name value) outcome).1
        (settleOutcome block.actor.name (substCommand name image cmd) expectsError harness scope
          outcome).1 ∧
      (settleOutcome block.actor.name cmd expectsError harness (scope.bind name value) outcome).2 =
        (settleOutcome block.actor.name (substCommand name image cmd) expectsError harness scope
          outcome).2 := by
  cases outcome with
  | ok fields =>
    rw [Harness.settleOutcome, bind_bind plain.notOk]
    exact ⟨.of_bind plain free block _, rfl⟩
  | error variant fields =>
    rw [Harness.settleOutcome, bind_bind plain.notError]
    exact ⟨.of_bind plain free block _, rfl⟩
  | notImplemented actorType command => exact ⟨.of_bind plain free block _, rfl⟩

theorem Inlined.runCommand (plain : PlainName name) {harness : HarnessState Instance}
    (free : name ∉ harness.names) {block form : AsBlock} (actor : form.actor = block.actor)
    (actorType : ActorType) {scope : Scope} (held : ∀ scope, eval scope image = .ok value)
    {cmd : Ast.Command} (keeps : keepsName actorType name (.command cmd) = true) {idx idxForm : Nat}
    (window : blockHasErrorRefAfter block idx = blockHasErrorRefAfter form idxForm) :
    Inlined runtime block name value
        (runCommand runtime block actorType harness (scope.bind name value) cmd idx).1
        (runCommand runtime form actorType harness scope (substCommand name image cmd) idxForm).1 ∧
      (runCommand runtime block actorType harness (scope.bind name value) cmd idx).2 =
        (runCommand runtime form actorType harness scope (substCommand name image cmd) idxForm).2 := by
  have cleared : ((scope.bind name value).unbind "ok").unbind "error" =
      ((scope.unbind "ok").unbind "error").bind name value := by
    rw [unbind_bind plain.notOk, unbind_bind plain.notError]
  obtain ⟨resolves, quoted⟩ := @resolveCommand_subst _ _ image _ keeps
  have arguments := fun consumed =>
    @evalCommandArgs_subst _ name _ _ (held ((scope.unbind "ok").unbind "error")) cmd consumed
  have dropped : Inlined runtime block name value
      ⟨harness, ((scope.bind name value).unbind "ok").unbind "error"⟩
      ⟨harness, (scope.unbind "ok").unbind "error"⟩ := by
    rw [cleared]
    exact .of_bind plain free block _
  rcases resolved : actorType.resolveCommand cmd.name.name cmd.positionalArgs with
    _ | ⟨cmdDef, consumed⟩
  · have unknown : actorType.resolveCommand (substCommand name image cmd).name.name
        (substCommand name image cmd).positionalArgs = none := resolves.trans resolved
    simp only [Harness.runCommand, resolved, unknown]
    refine ⟨dropped, ?_⟩
    simp only [unknownCommand, actor, substCommand, quoted resolved]
  have found : actorType.resolveCommand (substCommand name image cmd).name.name
      (substCommand name image cmd).positionalArgs = some (cmdDef, consumed) := resolves.trans resolved
  rcases evaluated : evalCommandArgs (substCommand name image cmd) consumed
      ((scope.unbind "ok").unbind "error") with e | args
  · simp only [Harness.runCommand, resolved, found, cleared, ← arguments, evaluated, actor]
    rw [cleared] at dropped
    exact ⟨dropped, rfl⟩
  rcases live : harness.get block.actor.name with _ | inst
  · simp only [Harness.runCommand, resolved, found, cleared, ← arguments, evaluated, actor, live]
    rw [cleared] at dropped
    exact ⟨dropped, rfl⟩
  rcases answered : runtime.execute harness.events inst cmdDef.name args with ⟨next, outcome⟩
  rw [runCommand_answered resolved (by rw [cleared, ← arguments, evaluated]) live answered,
    runCommand_answered found evaluated (by rw [actor, live]) answered, cleared, ← window, actor]
  apply Inlined.settleOutcome plain
  rw [HarnessState.names_log, HarnessState.names_set]
  exact free

/-- A statement after the `let` does the same with the expression in the place of
the name. -/
theorem Inlined.runStatement (plain : PlainName name) {block form : AsBlock}
    (actor : form.actor = block.actor) (span : form.span = block.span) (actorType : ActorType)
    (held : ∀ scope, eval scope image = .ok value) {run partner : BlockRun Instance}
    (inlined : Inlined runtime block name value run partner) {stmt : Statement}
    (keeps : keepsName actorType name stmt = true) {idx idxForm : Nat}
    (window : blockHasErrorRefAfter block idx = blockHasErrorRefAfter form idxForm) :
    Inlined runtime block name value
        (runStatement runtime regex block actorType run (stmt, idx)).1
        (runStatement runtime regex form actorType partner (substStatement name image stmt, idxForm)).1 ∧
      (runStatement runtime regex block actorType run (stmt, idx)).2 =
        (runStatement runtime regex form actorType partner
          (substStatement name image stmt, idxForm)).2 := by
  obtain ⟨harness, scope⟩ := run
  obtain ⟨_, partnerScope⟩ := partner
  obtain ⟨rfl, free, refreshed⟩ := inlined
  simp only [entryScope] at refreshed
  have refreshedAlone := held (bindSelf runtime partnerScope harness.actors block.actor.name)
  have same : Inlined runtime block name value
      ⟨harness, (bindSelf runtime partnerScope harness.actors block.actor.name).bind name value⟩
      ⟨harness, bindSelf runtime partnerScope harness.actors block.actor.name⟩ :=
    .of_bind plain free block _
  cases stmt with
  | command cmd =>
    simp only [Harness.runStatement, substStatement, actor, refreshed]
    exact Inlined.runCommand plain free actor actorType held keeps window
  | assert a =>
    simp only [Harness.runStatement, substStatement, actor, refreshed]
    refine ⟨same, ?_⟩
    simp only [runAssert, evalAssert_subst regex refreshedAlone]
    rfl
  | assignment a =>
    simp only [Harness.runStatement, substStatement, actor, span, refreshed]
    exact ⟨same, trivial⟩
  | «let» letStmt =>
    obtain ⟨bound, expression, extent⟩ := letStmt
    simp only [Harness.runStatement, substStatement, actor, refreshed]
    cases expression with
    | parse source format => exact ⟨same, rfl⟩
    | expr expr =>
      have other : name ≠ bound.name := by
        rintro rfl
        simp [keepsName, rebinds] at keeps
      simp only [runLet, substLetValue, eval_subst refreshedAlone]
      cases eval ((bindSelf runtime partnerScope harness.actors block.actor.name).bind name value)
          expr with
      | error e => exact ⟨same, rfl⟩
      | ok result =>
        simp only [Except.map, bind_bind other]
        exact ⟨.of_bind plain free block _, trivial⟩

/-! ## The block without the let -/

section Block

variable {block : AsBlock} {prior rest : List Statement} {ident : Ident} {span : Span}

/-- The block with the expression in the place of the name behind the `let`. -/
def inlined (block : AsBlock) (prior : List Statement) (name : String) (image : Expr)
    (rest : List Statement) : AsBlock :=
  { block with body := prior ++ rest.map (substStatement name image) }

end Block

/-! ## The file without the let -/

end Run

end Ill.Harness
