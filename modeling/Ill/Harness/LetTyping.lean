import Mathlib.Data.List.Induction
import Ill.Actor.Schema
import Ill.Harness.Arguments
import Ill.Harness.Persistence
import Ill.Harness.Views
import Ill.Validate.Independent

/-!
# Values and recorded types

At every `let` the validator records a type for the name it binds. It reads
names in one table per actor, which holds the declared variables and the `let`
bindings of all its blocks; the harness reads them in a scope per block, in
which the views of the actors, `self` and the outcome of the last command
stand beside the bindings. The bound value inhabits the recorded type wherever
the two read the same thing.
-/

namespace Ill.Harness

open Ast Actor Base Validate

/-! ## What the validator holds -/

section Held

variable (source : SourceFile) (before : List TopLevel) (block : AsBlock)

/-- The validator's state after some statements of a block. -/
def blockCheck (prior : List Statement) : BlockCheck :=
  (checkBody block.actor.name (.start (checkedAfter source before)) prior).1

/-- The type the validator holds for a name after some statements of a block. -/
def typeHeld (prior : List Statement) (name : String) : Option ValueType :=
  varTypes (blockCheck source before block prior).actors block.actor.name name

/-- The statements of an actor's blocks. -/
def statementsOf (name : String) (items : List TopLevel) : List Statement :=
  items.flatMap fun item =>
    match item with
    | .actorDeclaration _ => []
    | .asBlock block => if block.actor.name = name then block.body else []

/-- Whether a `let` binds the name after the last command. -/
def boundInWindow (name : String) : List Statement → Bool
  | [] => false
  | stmt :: rest =>
    (rebinds name stmt && rest.all fun later => !later.isCommand) || boundInWindow name rest

/-- The ways in which the validator and the harness read an expression
differently, after some statements of a block. -/
inductive Captured (prior : List Statement) : Expr → Prop where
  /-- `self.field` is typed as a `let` of that name, not as the variable. -/
  | self {root property : Ident} {span : Span} (own : root.name = "self")
      (rebound : (statementsOf block.actor.name before ++ prior).any (rebinds property.name) = true) :
      Captured prior (.memberAccess (.ident root) property span)
  /-- A name is typed as a variable or a `let`, but stands for a view or for
  the outcome of a command. -/
  | name {ident : Ident} (held : typeHeld source before block prior ident.name ≠ none)
      (elsewhere : ident.name = "self" ∨ ident.name ∈ declaredNames before ∨
        (ident.name = "ok" ∨ ident.name = "error") ∧ boundInWindow ident.name prior = false) :
      Captured prior (.ident ident)
  /-- A chain is typed as the outcome of a command, but its root stands for a
  view or for a `let`. -/
  | outcome {root : String} {expr : Expr}
      (typed : resolveOutcomeChain (blockCheck source before block prior).lastOkFields
        (blockCheck source before block prior).lastErrorTypes expr ≠ none)
      (rooted : exprStartsWithIdent root expr = true)
      (elsewhere : root ∈ declaredNames before ∨ boundInWindow root prior = true) :
      Captured prior expr

end Held

section Statement

variable (world : List (Event LiveActor) → External) (regex : Regex) (sourceDir : String)
  (source : SourceFile)

/-- The walk reaches a `let` of a block: every statement before it completed. -/
structure ReachesLet (before : List TopLevel) (block : AsBlock) (after : List TopLevel)
    (harness : HarnessState LiveActor) (actorType : ActorType) (prior : List Statement)
    (name : Ident) (expr : Expr) (span : Span) (rest : List Statement) (run : BlockRun LiveActor) :
    Prop extends ReachesBlock (liveRuntime world) regex sourceDir source before block after harness
    where
  typed : blockType (liveRuntime world) block harness = .ok actorType
  body : block.body = prior ++ .let ⟨name, .expr expr, span⟩ :: rest
  ran : runStatements (liveRuntime world) regex block actorType ⟨harness, .new⟩ prior.zipIdx =
    (run, none)

/-- Every dispatched command comes to an outcome of the shape it declares. -/
def DeclaresOutcomes : Prop :=
  ∀ before block after harness actorType prior cmd rest run,
    ReachesCommand (liveRuntime world) regex sourceDir source before block after harness actorType
      prior cmd rest run →
    ∀ cmdDef consumed args actor, actorType.resolveCommand cmd.name.name cmd.positionalArgs =
        some (cmdDef, consumed) →
      evalCommandArgs cmd consumed (commandScope (liveRuntime world) block run) = .ok args →
      run.harness.get block.actor.name = some actor →
      cmdDef.declares (actor.execute (world run.harness.events) cmdDef.name args).2 = true

/-- Validator and harness read the value of every `let` that the run gets to
alike. -/
def LetsUncaptured : Prop :=
  ∀ before block after harness actorType prior name expr span rest run,
    ReachesLet world regex sourceDir source before block after harness actorType prior name expr
      span rest run →
    ¬ Captured source before block prior expr

/-- At every `let` that succeeds, the value inhabits the type recorded for the
name it binds. -/
def LetsInhabit : Prop :=
  ∀ before block after harness actorType prior name expr span rest run,
    ReachesLet world regex sourceDir source before block after harness actorType prior name expr
      span rest run →
    ∀ value, eval (entryScope (liveRuntime world) block run) expr = .ok value →
      ∃ ty, typeHeld source before block (prior ++ [.let ⟨name, .expr expr, span⟩]) name.name =
          some ty ∧ value.isOfType ty = true

end Statement

/-! ## How the held types change -/

section Table

variable {source : SourceFile} {before : List TopLevel} {block : AsBlock}

theorem varTypes_modify {actors : Actors} {name other field : String}
    {change : HealthyActor → HealthyActor}
    (keeps : ∀ actor, (change actor).vars field = actor.vars field) :
    varTypes (actors.modify name change) other field = varTypes actors other field := by
  unfold varTypes
  rw [Actors.healthy?_modify]
  split
  · next same =>
    rw [same, Option.bind_map]
    exact congrArg _ (funext keeps)
  · rfl

theorem varTypes_applyPending (actorName other field : String) (check : BlockCheck) :
    varTypes (applyPending actorName check) other field = varTypes check.actors other field := by
  unfold applyPending
  split
  · split
    · exact varTypes_modify fun _ => rfl
    · rfl
  · rfl

/-- A statement changes the held type of a name only if it is a `let` of it. -/
theorem varTypes_checkStatement {field : String} {stmt : Statement}
    (kept : rebinds field stmt = false) (actorName : String) (check : BlockCheck) :
    varTypes (checkStatement actorName check stmt).1.actors actorName field =
      varTypes check.actors actorName field := by
  cases stmt with
  | command cmd => exact varTypes_applyPending _ _ _ _
  | «let» letStmt =>
    obtain ⟨bound, value, span⟩ := letStmt
    have different : field ≠ bound.name := by
      intro same
      simp [rebinds, same] at kept
    cases value <;> exact varTypes_modify fun actor => Function.update_of_ne different _ _
  | assignment a => rfl
  | assert a => rfl

theorem varTypes_checkBody {field : String} (actorName : String) (body : List Statement)
    {check : BlockCheck} (kept : body.any (rebinds field) = false) :
    varTypes (checkBody actorName check body).1.actors actorName field =
      varTypes check.actors actorName field := by
  rw [List.any_eq_false] at kept
  refine emit_invariant
    (fun after : BlockCheck => varTypes after.actors actorName field = varTypes check.actors actorName field) ?_ rfl
  intro current stmt member same
  exact (varTypes_checkStatement (by simpa using kept stmt member) actorName current).trans same

/-- The declared types stand until a `let` of an actor's blocks rebinds them. -/
theorem varTypes_checkedAfter {name field : String} (items : List TopLevel) {actors : Actors}
    (kept : (statementsOf name items).any (rebinds field) = false) :
    varTypes (emit checkItem actors items).1 name field = varTypes actors name field := by
  refine emit_invariant (fun after => varTypes after name field = varTypes actors name field) ?_ rfl
  intro current item member same
  refine Eq.trans ?_ same
  cases item with
  | actorDeclaration decl => rfl
  | asBlock block =>
    by_cases own : name = block.actor.name
    · have body : block.body.any (rebinds field) = false := by
        rw [List.any_eq_false] at kept ⊢
        intro stmt inside
        refine kept stmt (List.mem_flatMap.mpr ⟨_, member, ?_⟩)
        simpa [own] using inside
      rw [own]
      rcases healthy : current.healthy? block.actor.name with _ | actor
      · obtain ⟨unchanged, _⟩ := checkAsBlock_unhealthy healthy block.body
        exact congrArg (varTypes · block.actor.name field) unchanged
      · rw [checkItem, checkAsBlock_of_healthy healthy, varTypes_applyPending]
        exact varTypes_checkBody _ _ body
    · rw [varTypes, varTypes, checkItem, Actors.healthy?_congr (checkAsBlock_of_ne own current)]

theorem blockCheck_concat (prior : List Statement) (stmt : Statement) :
    blockCheck source before block (prior ++ [stmt]) =
      (checkStatement block.actor.name (blockCheck source before block prior) stmt).1 := by
  rw [blockCheck, checkBody, emit_append_state]
  rfl

theorem typeHeld_concat {stmt : Statement} {name : String} (kept : rebinds name stmt = false)
    (prior : List Statement) :
    typeHeld source before block (prior ++ [stmt]) name = typeHeld source before block prior name := by
  rw [typeHeld, blockCheck_concat]
  exact varTypes_checkStatement kept _ _

/-- A name that no `let` of the actor binds is held at its declared type. -/
theorem typeHeld_of_unbound {prior : List Statement} {name : String}
    (kept : (statementsOf block.actor.name before ++ prior).any (rebinds name) = false) :
    typeHeld source before block prior name =
      varTypes (registered source) block.actor.name name := by
  rw [List.any_append, Bool.or_eq_false_iff] at kept
  exact (varTypes_checkBody _ prior kept.2).trans (varTypes_checkedAfter before kept.1)

/-- The type of its value is what a `let` records. -/
theorem typeHeld_let {prior : List Statement} {name : Ident} {expr : Expr} {span : Span}
    (present : (blockCheck source before block prior).actors.healthy? block.actor.name ≠ none) :
    typeHeld source before block (prior ++ [.let ⟨name, .expr expr, span⟩]) name.name =
      some (exprTypeInActor (blockCheck source before block prior).actors block.actor.name
        (blockCheck source before block prior).lastOkFields
        (blockCheck source before block prior).lastErrorTypes expr) := by
  obtain ⟨actor, healthy⟩ := Option.ne_none_iff_exists'.mp present
  rw [typeHeld, blockCheck_concat]
  simp only [checkStatement, checkLet, varTypes, bindVar, Actors.healthy?_modify, if_true, healthy,
    Option.map_some, Option.bind_some, Function.update_self]

end Table

/-! ## How the harness reads -/

theorem boundInWindow_concat (name : String) (prior : List Statement) (stmt : Statement) :
    boundInWindow name (prior ++ [stmt]) =
      (rebinds name stmt || (!stmt.isCommand && boundInWindow name prior)) := by
  induction prior with
  | nil => simp [boundInWindow]
  | cons first rest ih =>
    rw [List.cons_append, boundInWindow, ih, boundInWindow, List.all_append, List.all_cons,
      List.all_nil, Bool.and_true]
    generalize (rest.all fun later => !later.isCommand) = quiet
    generalize stmt.isCommand = command
    cases rebinds name first <;> cases rebinds name stmt <;> cases command <;> cases quiet <;> rfl

/-- A value bound to `ok` is a success of the shape declared. -/
def OkTyped (declared : List OutcomeField) (value : Value) : Prop :=
  ∃ fields, value = .dict fields ∧ fieldsMatch fields declared = true

/-- A value bound to `error` is an error of one of the shapes declared. -/
def ErrorTyped (declared : List ErrorTypeDef) (value : Value) : Prop :=
  ∃ variant fields errorType, value = .dict (buildErrorDict variant fields) ∧ variant ≠ "type" ∧
    (declared.find? fun other => other.name == variant) = some errorType ∧
    fieldsMatch fields errorType.fields = true

/-- What member access finds. -/
theorem memberOf_eq_ok {object value : Value} {property : String}
    (found : memberOf object property = .ok value) :
    ∃ fields, object = .dict fields ∧ Dict.get fields property = some value := by
  cases object with
  | dict fields =>
    rw [memberOf] at found
    split at found
    · next held present => exact ⟨fields, rfl, present.trans (congrArg some (Except.ok.inj found))⟩
    · simp at found
  | _ => simp [memberOf] at found

theorem eval_memberAccess {scope : Scope} {object : Expr} {property : Ident} {span : Span}
    {value : Value} (evaluated : eval scope (.memberAccess object property span) = .ok value) :
    ∃ fields, eval scope object = .ok (.dict fields) ∧ Dict.get fields property.name = some value := by
  rw [eval] at evaluated
  obtain ⟨held, known, found⟩ := bind_eq_ok.mp evaluated
  obtain ⟨fields, rfl, present⟩ := memberOf_eq_ok found
  exact ⟨fields, known, present⟩

theorem eval_ident {scope : Scope} {ident : Ident} {value : Value}
    (evaluated : eval scope (.ident ident) = .ok value) : scope.get ident.name = some value := by
  rw [eval] at evaluated
  split at evaluated
  · next held present => exact present.trans (congrArg some (Except.ok.inj evaluated))
  · simp at evaluated

/-- The two fields of an error dict. -/
theorem get_buildErrorDict {variant name : String} {fields : Dict} {value : Value}
    (named : variant ≠ "type") (present : (buildErrorDict variant fields).get name = some value) :
    (name = "type" ∧ value = .atom variant) ∨ (name = variant ∧ value = .dict fields) := by
  rw [buildErrorDict_eq named, Dict.get, List.lookup_cons] at present
  by_cases tagged : name = "type"
  · rw [tagged, beq_self_eq_true] at present
    exact .inl ⟨tagged, (Option.some.inj present).symm⟩
  · rw [beq_false_of_ne tagged, List.lookup_cons] at present
    by_cases own : name = variant
    · rw [own, beq_self_eq_true] at present
      exact .inr ⟨own, (Option.some.inj present).symm⟩
    · rw [beq_false_of_ne own] at present
      simp at present

/-- A member of an error is its tag or the fields of its variant. -/
theorem ErrorTyped.get {declared : List ErrorTypeDef} {fields : Dict}
    (typed : ErrorTyped declared (.dict fields)) {name : String} {value : Value}
    (present : fields.get name = some value) :
    (name = "type" ∧ ∃ variant, value = .atom variant) ∨
      (name ≠ "type" ∧ ∃ inner errorType, value = .dict inner ∧
        (declared.find? fun other => other.name == name) = some errorType ∧
        fieldsMatch inner errorType.fields = true) := by
  obtain ⟨variant, inner, errorType, same, untagged, found, matched⟩ := typed
  obtain rfl := Value.dict.inj same
  rcases get_buildErrorDict untagged present with ⟨tagged, rfl⟩ | ⟨rfl, rfl⟩
  · exact .inl ⟨tagged, variant, rfl⟩
  · exact .inr ⟨untagged, inner, errorType, rfl, found, matched⟩

/-- An outcome chain evaluates to a value of the type it resolves to. -/
theorem isOfType_outcomeChain {okFields : List OutcomeField} {errorTypes : List ErrorTypeDef}
    {scope : Scope} {expr : Expr} {ty : ValueType} {value : Value}
    (resolved : resolveOutcomeChain okFields errorTypes expr = some ty)
    (evaluated : eval scope expr = .ok value)
    (okTyped : exprStartsWithIdent "ok" expr = true →
      ∀ held, scope.get "ok" = some held → OkTyped okFields held)
    (errorTyped : exprStartsWithIdent "error" expr = true →
      ∀ held, scope.get "error" = some held → ErrorTyped errorTypes held) :
    value.isOfType ty = true := by
  unfold resolveOutcomeChain at resolved
  split at resolved
  · next root property span =>
    obtain ⟨fields, known, present⟩ := eval_memberAccess evaluated
    have bound := eval_ident known
    split at resolved
    · next named =>
      have rooted : exprStartsWithIdent "ok" (.memberAccess (.ident root) property span) = true := by
        simp [exprStartsWithIdent, named]
      obtain ⟨held, same, matched⟩ := okTyped rooted _ (named ▸ bound)
      obtain rfl := Value.dict.inj same
      obtain ⟨field, found, inhabits⟩ := find_of_fieldsMatch matched present
      rw [found] at resolved
      rwa [← Option.some.inj resolved]
    · split at resolved
      · next named =>
        have rooted :
            exprStartsWithIdent "error" (.memberAccess (.ident root) property span) = true := by
          simp [exprStartsWithIdent, named]
        split at resolved
        · next tagged =>
          rcases (errorTyped rooted _ (named ▸ bound)).get present with
            ⟨_, variant, rfl⟩ | ⟨untagged, _⟩
          · rw [← Option.some.inj resolved]
            rfl
          · exact absurd tagged untagged
        · obtain ⟨_, _, rfl⟩ := Option.map_eq_some_iff.mp resolved
          exact Value.isOfType_unknown value
      · simp at resolved
  · next root variantProp innerSpan property span =>
    split at resolved
    · next named =>
      obtain ⟨fields, known, present⟩ := eval_memberAccess evaluated
      obtain ⟨outer, knownRoot, presentVariant⟩ := eval_memberAccess known
      have bound := eval_ident knownRoot
      have rooted : exprStartsWithIdent "error"
          (.memberAccess (.memberAccess (.ident root) variantProp innerSpan) property span) =
            true := by simp [exprStartsWithIdent, named]
      rcases (errorTyped rooted _ (named ▸ bound)).get presentVariant with
        ⟨_, _, clash⟩ | ⟨_, inner, errorType, same, found, matched⟩
      · simp at clash
      · obtain rfl := Value.dict.inj same
        obtain ⟨field, declared, inhabits⟩ := find_of_fieldsMatch matched present
        simp only [found, declared, Option.bind_eq_bind, Option.bind_some, Option.pure_def]
          at resolved
        rwa [← Option.some.inj resolved]
    · simp at resolved
  · simp at resolved

/-! ## One `let` -/

section Block

variable {world : List (Event LiveActor) → External} {regex : Regex} {sourceDir : String}
  {source : SourceFile} {before : List TopLevel} {block : AsBlock}

/-- What the scope of a block binds is typed as the validator holds it: the
names of the block's own `let` bindings, and the outcome of the last command. -/
structure ScopeTyped (source : SourceFile) (before : List TopLevel) (block : AsBlock)
    (prior : List Statement) (run : BlockRun LiveActor) : Prop where
  lets : ∀ name value, name ≠ "self" → name ∉ run.harness.names →
    ((name = "ok" ∨ name = "error") → boundInWindow name prior = true) →
    run.scope.get name = some value →
      ∃ ty, typeHeld source before block prior name = some ty ∧ value.isOfType ty = true
  ok : "ok" ∉ run.harness.names → boundInWindow "ok" prior = false →
    ∀ value, run.scope.get "ok" = some value →
      OkTyped (blockCheck source before block prior).lastOkFields value
  error : "error" ∉ run.harness.names → boundInWindow "error" prior = false →
    ∀ value, run.scope.get "error" = some value →
      ErrorTyped (blockCheck source before block prior).lastErrorTypes value

/-- The view of a block's own actor is what `self` stands for. -/
theorem get_entryScope_self (run : BlockRun LiveActor) :
    (entryScope (liveRuntime world) block run).get "self" =
      ((run.harness.get block.actor.name).bind LiveActor.selfView).map .dict := by
  rw [entryScope, bindSelf, get_bindView, if_pos rfl]
  rfl

/-- An uncaptured chain rooted at `ok` or `error` reads the outcome of the last
command. -/
theorem ScopeTyped.inhabits_outcome {prior : List Statement} {run : BlockRun LiveActor}
    (typed : ScopeTyped source before block prior run)
    (names : run.harness.names = declaredNames before) {expr : Expr}
    (uncaptured : ¬ Captured source before block prior expr) {value : Value}
    (evaluated : eval (entryScope (liveRuntime world) block run) expr = .ok value) :
    value.isOfType ((resolveOutcomeChain (blockCheck source before block prior).lastOkFields
      (blockCheck source before block prior).lastErrorTypes expr).getD .unknown) = true := by
  rcases resolved : resolveOutcomeChain (blockCheck source before block prior).lastOkFields
      (blockCheck source before block prior).lastErrorTypes expr with _ | ty
  · exact Value.isOfType_unknown value
  have here : ∀ root, exprStartsWithIdent root expr = true →
      root ∉ run.harness.names ∧ boundInWindow root prior = false := by
    intro root rooted
    constructor
    · intro declared
      exact uncaptured (.outcome (by simp [resolved]) rooted (.inl (names ▸ declared)))
    · by_contra bound
      rw [Bool.not_eq_false] at bound
      exact uncaptured (.outcome (by simp [resolved]) rooted (.inr bound))
  refine isOfType_outcomeChain resolved evaluated ?_ ?_
  · intro rooted held bound
    obtain ⟨absent, unbound⟩ := here "ok" rooted
    rw [get_entryScope (by decide) absent] at bound
    exact typed.ok absent unbound held bound
  · intro rooted held bound
    obtain ⟨absent, unbound⟩ := here "error" rooted
    rw [get_entryScope (by decide) absent] at bound
    exact typed.error absent unbound held bound

/-- An uncaptured `self.field` reads the actor's variable at its declared type. -/
theorem ViewsTyped.inhabits_self {prior : List Statement} {run : BlockRun LiveActor}
    (views : ViewsTyped source run.harness) {root property : Ident} {span : Span}
    (own : root.name = "self")
    (uncaptured : ¬ Captured source before block prior (.memberAccess (.ident root) property span))
    {value : Value}
    (evaluated : eval (entryScope (liveRuntime world) block run)
      (.memberAccess (.ident root) property span) = .ok value) :
    value.isOfType ((typeHeld source before block prior property.name).getD .unknown) = true := by
  obtain ⟨fields, known, present⟩ := eval_memberAccess evaluated
  have bound := eval_ident known
  rw [own, get_entryScope_self] at bound
  obtain ⟨view, shown, same⟩ := Option.map_eq_some_iff.mp bound
  obtain rfl := Value.dict.inj same
  obtain ⟨actor, live, shown⟩ := Option.bind_eq_some_iff.mp shown
  obtain ⟨ty, declared, inhabits⟩ := views _ actor live view shown property.name value present
  have kept : (statementsOf block.actor.name before ++ prior).any (rebinds property.name) =
      false := by
    by_contra rebound
    rw [Bool.not_eq_false] at rebound
    exact uncaptured (.self own rebound)
  rw [typeHeld_of_unbound kept, declared]
  exact inhabits

/-- An uncaptured name reads the block's own `let` of that name. -/
theorem ScopeTyped.inhabits_name {prior : List Statement} {run : BlockRun LiveActor}
    (typed : ScopeTyped source before block prior run)
    (names : run.harness.names = declaredNames before) {ident : Ident}
    (uncaptured : ¬ Captured source before block prior (.ident ident)) {value : Value}
    (evaluated : eval (entryScope (liveRuntime world) block run) (.ident ident) = .ok value) :
    value.isOfType ((typeHeld source before block prior ident.name).getD .unknown) = true := by
  rcases held : typeHeld source before block prior ident.name with _ | ty
  · exact Value.isOfType_unknown value
  have notSelf : ident.name ≠ "self" := fun own =>
    uncaptured (.name (by simp [held]) (.inl own))
  have absent : ident.name ∉ run.harness.names := fun declared =>
    uncaptured (.name (by simp [held]) (.inr (.inl (names ▸ declared))))
  have inWindow : (ident.name = "ok" ∨ ident.name = "error") →
      boundInWindow ident.name prior = true := by
    intro outcome
    by_contra unbound
    rw [Bool.not_eq_true] at unbound
    exact uncaptured (.name (by simp [held]) (.inr (.inr ⟨outcome, unbound⟩)))
  have bound := eval_ident evaluated
  rw [get_entryScope notSelf absent] at bound
  obtain ⟨other, heldOther, inhabits⟩ := typed.lets _ value notSelf absent inWindow bound
  rw [held] at heldOther
  obtain rfl := Option.some.inj heldOther
  exact inhabits

/-- The type of a value that is not captured is the type of its expression. -/
theorem ScopeTyped.inhabits {prior : List Statement} {run : BlockRun LiveActor}
    (typed : ScopeTyped source before block prior run) (views : ViewsTyped source run.harness)
    (names : run.harness.names = declaredNames before) {expr : Expr}
    (uncaptured : ¬ Captured source before block prior expr) {value : Value}
    (evaluated : eval (entryScope (liveRuntime world) block run) expr = .ok value) :
    value.isOfType (exprTypeInActor (blockCheck source before block prior).actors block.actor.name
      (blockCheck source before block prior).lastOkFields
      (blockCheck source before block prior).lastErrorTypes expr) = true := by
  have outcome := typed.inhabits_outcome names uncaptured evaluated
  unfold exprTypeInActor
  split
  · next root property span =>
    split
    · next own => exact views.inhabits_self own uncaptured evaluated
    · exact outcome
  · exact outcome
  · next ident => exact typed.inhabits_name names uncaptured evaluated
  · exact eval_isOfType evaluated

/-! ## One statement -/

/-- A statement inside the window leaves the outcome shapes that the validator holds. -/
theorem shapes_concat {stmt : Statement} (quiet : stmt.isCommand = false) (prior : List Statement) :
    (blockCheck source before block (prior ++ [stmt])).lastOkFields =
        (blockCheck source before block prior).lastOkFields ∧
      (blockCheck source before block (prior ++ [stmt])).lastErrorTypes =
        (blockCheck source before block prior).lastErrorTypes := by
  rw [blockCheck_concat]
  cases stmt with
  | command cmd => exact nomatch quiet
  | «let» letStmt =>
    obtain ⟨name, value, span⟩ := letStmt
    cases value <;> exact ⟨rfl, rfl⟩
  | assignment a => exact ⟨rfl, rfl⟩
  | assert a => exact ⟨rfl, rfl⟩

/-- A statement inside the window keeps the scope typed, if what it binds is of
the type recorded for it. -/
theorem ScopeTyped.window {actorType : ActorType} {prior : List Statement}
    {run next : BlockRun LiveActor} (here : ScopeTyped source before block prior run)
    {stmt : Statement} {idx : Nat} (quiet : stmt.isCommand = false)
    (done : StatementDone (liveRuntime world) regex block actorType run (stmt, idx) next)
    (rebound : ∀ name value, rebinds name stmt = true → next.scope.get name = some value →
      ∃ ty, typeHeld source before block (prior ++ [stmt]) name = some ty ∧
        value.isOfType ty = true) :
    ScopeTyped source before block (prior ++ [stmt]) next := by
  have names := done.names
  have bounded : ∀ name, boundInWindow name (prior ++ [stmt]) =
      (rebinds name stmt || boundInWindow name prior) := by
    intro name
    rw [boundInWindow_concat, quiet, Bool.not_false, Bool.true_and]
  have kept : ∀ name, name ≠ "self" → name ∉ run.harness.names → rebinds name stmt = false →
      next.scope.get name = run.scope.get name := fun name notSelf absent untouched =>
    done.get_scope notSelf absent untouched fun command => nomatch quiet.symm.trans command
  constructor
  · intro name value notSelf absent inWindow bound
    rw [names] at absent
    rcases touched : rebinds name stmt
    · rw [kept name notSelf absent touched] at bound
      rw [typeHeld_concat touched]
      refine here.lets name value notSelf absent (fun outcome => ?_) bound
      simpa only [bounded, touched, Bool.false_or] using inWindow outcome
    · exact rebound name value touched bound
  · intro absent unbound value bound
    rw [names] at absent
    rw [bounded, Bool.or_eq_false_iff] at unbound
    rw [kept "ok" (by decide) absent unbound.1] at bound
    rw [(shapes_concat quiet prior).1]
    exact here.ok absent unbound.2 value bound
  · intro absent unbound value bound
    rw [names] at absent
    rw [bounded, Bool.or_eq_false_iff] at unbound
    rw [kept "error" (by decide) absent unbound.1] at bound
    rw [(shapes_concat quiet prior).2]
    exact here.error absent unbound.2 value bound

/-- A dispatched command comes to an outcome of the shape that the validator
holds after it. -/
theorem ReachesCommand.declared (accepted : accepts source = true)
    (declares : DeclaresOutcomes world regex sourceDir source) {after : List TopLevel}
    {harness : HarnessState LiveActor} {actorType : ActorType} {prior rest : List Statement}
    {cmd : Ast.Command} {run : BlockRun LiveActor}
    (reached : ReachesCommand (liveRuntime world) regex sourceDir source before block after harness
      actorType prior cmd rest run) {outcome : RunOutcome} {next : HarnessState LiveActor}
    (dispatched : Dispatched (liveRuntime world) block actorType run cmd outcome next) :
    ∃ cmdDef,
      (blockCheck source before block (prior ++ [.command cmd])).lastOkFields = cmdDef.okFields ∧
      (blockCheck source before block (prior ++ [.command cmd])).lastErrorTypes =
        cmdDef.errorTypes ∧
      cmdDef ∈ actorType.commands ∧ cmdDef.declares outcome = true := by
  obtain ⟨state, healthy, rfl, cmdDef, consumed, fits⟩ := reached.fits accepted
  have shape := (checkCommandIn_of_fits fits).1
  have checked : checkCommand (applyPending block.actor.name (blockCheck source before block prior))
      block.actor.name cmd = checkCommandIn state cmd := by
    simp only [checkCommand, blockCheck, healthy]
  obtain ⟨found, taken, args, inst, successor, resolved, evaluated, present, answered, _, _⟩ :=
    dispatched.effect
  obtain ⟨rfl, rfl⟩ := Prod.mk.inj (Option.some.inj (resolved.symm.trans fits.resolved))
  have declared := declares _ _ _ _ _ _ _ _ _ reached found taken args inst resolved evaluated present
  rw [show inst.execute (world run.harness.events) found.name args = (successor, outcome)
    from answered] at declared
  refine ⟨found, ?_, ?_, (ActorType.resolveCommand_spec resolved).1, declared⟩
  · rw [blockCheck_concat]
    simp only [checkStatement, checked, shape]
  · rw [blockCheck_concat]
    simp only [checkStatement, checked, shape]

/-- A command that comes to an outcome of its declared shape keeps the scope typed. -/
theorem ScopeTyped.command (accepted : accepts source = true)
    (declares : DeclaresOutcomes world regex sourceDir source) {after : List TopLevel}
    {harness : HarnessState LiveActor} {actorType : ActorType} {prior rest : List Statement}
    {cmd : Ast.Command} {run next : BlockRun LiveActor}
    (reached : ReachesCommand (liveRuntime world) regex sourceDir source before block after harness
      actorType prior cmd rest run)
    (here : ScopeTyped source before block prior run) {idx : Nat}
    (done : StatementDone (liveRuntime world) regex block actorType run (.command cmd, idx) next) :
    ScopeTyped source before block (prior ++ [.command cmd]) next := by
  have window : ∀ other, boundInWindow other (prior ++ [.command cmd]) = false :=
    fun other => boundInWindow_concat other prior _
  constructor
  · intro other held notSelf absent inWindow bound
    rw [window] at inWindow
    have ordinary : other ≠ "ok" ∧ other ≠ "error" := by
      constructor
      · intro ok
        exact Bool.false_ne_true (inWindow (.inl ok))
      · intro error
        exact Bool.false_ne_true (inWindow (.inr error))
    rw [done.names] at absent
    rw [done.get_scope notSelf absent rfl fun _ => ordinary] at bound
    rw [typeHeld_concat rfl]
    refine here.lets other held notSelf absent ?_ bound
    rintro (ok | error)
    · exact absurd ok ordinary.1
    · exact absurd error ordinary.2
  · intro absent _ held bound
    cases done with
    | commandOk dispatched =>
      obtain ⟨cmdDef, okShape, _, _, declared⟩ := reached.declared accepted declares dispatched
      rw [Scope.get_bind, if_pos rfl] at bound
      rw [okShape]
      exact ⟨_, (Option.some.inj bound).symm, declared⟩
    | commandError dispatched expected =>
      simp [commandScope] at bound
  · intro absent _ held bound
    cases done with
    | commandOk dispatched =>
      simp [commandScope] at bound
    | commandError dispatched expected =>
      obtain ⟨cmdDef, _, errorShape, member, declared⟩ := reached.declared accepted declares dispatched
      obtain ⟨errorType, listed, matched⟩ := List.any_eq_true.mp declared
      obtain ⟨named, matched⟩ := Bool.and_eq_true_iff.mp matched
      obtain ⟨untagged, found⟩ := Command.find_errorType member listed
      rw [beq_iff_eq] at named
      rw [Scope.get_bind, if_pos rfl] at bound
      rw [errorShape]
      exact ⟨_, _, errorType, (Option.some.inj bound).symm, named ▸ untagged, named ▸ found, matched⟩

/-! ## Runs -/

/-- The validator examines every statement of an accepted file's block for a
healthy actor. -/
theorem healthy_of_accepted (accepted : accepts source = true) {after : List TopLevel}
    (split : source.items = before ++ .asBlock block :: after) (prior : List Statement) :
    (blockCheck source before block prior).actors.healthy? block.actor.name ≠ none := by
  have present := (body_silent accepted split).1
  have kept := (keeps_checkBody block.actor.name (.start (checkedAfter source before)) prior).types
    block.actor.name
  intro unhealthy
  rw [blockCheck] at unhealthy
  rw [Actors.type?, Actors.type?, unhealthy, Option.map_none, eq_comm, Option.map_eq_none_iff]
    at kept
  exact present kept

/-- A `let` that the run gets to finds the instances its block found. -/
theorem ReachesLet.live (accepted : accepts source = true) {after : List TopLevel}
    {harness : HarnessState LiveActor} {actorType : ActorType} {prior rest : List Statement}
    {name : Ident} {expr : Expr} {span : Span} {run : BlockRun LiveActor}
    (reached : ReachesLet world regex sourceDir source before block after harness actorType prior
      name expr span rest run) :
    ViewsTyped source run.harness ∧ run.harness.names = declaredNames before := by
  have items := (executeItems_completed_iff (liveRuntime world) regex).mp reached.completed
  have statements := (runStatements_completed_iff (liveRuntime world) regex).mp reached.ran
  constructor
  · exact viewsTyped_of_statements ⟨harness, .new⟩
      (viewsTyped_of_completed accepted reached.split items) statements
  · exact (liveFor_of_statements ⟨harness, .new⟩ (reached.toReachesBlock.liveFor accepted)
      statements).names

/-- In every run of an accepted file the scope is typed after each statement.
The induction is over the statements of the block that completed. -/
theorem ReachesBlock.scopeTyped (accepted : accepts source = true)
    (declares : DeclaresOutcomes world regex sourceDir source)
    (uncaptured : LetsUncaptured world regex sourceDir source) {after : List TopLevel}
    {harness : HarnessState LiveActor} {actorType : ActorType}
    (reached : ReachesBlock (liveRuntime world) regex sourceDir source before block after harness)
    (typed : blockType (liveRuntime world) block harness = .ok actorType)
    (prior : List Statement) :
    ∀ rest run, block.body = prior ++ rest →
      runStatements (liveRuntime world) regex block actorType ⟨harness, .new⟩ prior.zipIdx =
        (run, none) →
      ScopeTyped source before block prior run := by
  induction prior using List.reverseRecOn with
  | nil =>
    intro rest run _ ran
    obtain rfl := (Prod.mk.inj ran).1
    constructor
    · intro name value _ _ _ bound
      simp [Scope.get_new] at bound
    · intro _ _ value bound
      simp [Scope.get_new] at bound
    · intro _ _ value bound
      simp [Scope.get_new] at bound
  | append_singleton prior stmt ih =>
    intro rest run body ran
    rw [List.append_assoc, List.singleton_append] at body
    rw [List.zipIdx_append, List.zipIdx_cons, List.zipIdx_nil, Nat.zero_add] at ran
    obtain ⟨middle, ranPrior, ranLast⟩ := walk_append_completed ran
    have here := ih (stmt :: rest) middle body ranPrior
    have chain := (runStatements_completed_iff (liveRuntime world) regex).mp ranLast
    cases chain with
    | cons done ended =>
      cases ended
      cases stmt with
      | command cmd => exact here.command accepted declares ⟨reached, typed, body, ranPrior⟩ done
      | «let» letStmt =>
        have bounded := done
        cases done with
        | @bound name expr span _ value evaluated =>
          have atLet : ReachesLet world regex sourceDir source before block after harness actorType
            prior name expr span rest middle := ⟨reached, typed, body, ranPrior⟩
          obtain ⟨views, names⟩ := atLet.live accepted
          have inhabits := here.inhabits views names (uncaptured _ _ _ _ _ _ _ _ _ _ _ atLet) evaluated
          refine here.window rfl bounded fun other held rebinding bound => ?_
          obtain rfl := beq_iff_eq.mp rebinding
          rw [Scope.get_bind, if_pos rfl] at bound
          obtain rfl := Option.some.inj bound
          exact ⟨_, typeHeld_let (healthy_of_accepted accepted reached.split prior), inhabits⟩
      | assignment a => exact nomatch done
      | assert a => exact here.window rfl done fun _ _ rebinding => nomatch rebinding

end Block

/-- In an accepted file every `let` that succeeds binds a value of the type
recorded for it, if no `let` that the run gets to is captured. -/
theorem lets_inhabit (world : List (Event LiveActor) → External) (regex : Regex)
    (sourceDir : String) (source : SourceFile) (accepted : accepts source = true)
    (declares : DeclaresOutcomes world regex sourceDir source)
    (uncaptured : LetsUncaptured world regex sourceDir source) :
    LetsInhabit world regex sourceDir source := by
  intro before block after harness actorType prior name expr span rest run reached value evaluated
  have here := reached.toReachesBlock.scopeTyped accepted declares uncaptured reached.typed prior _
    run reached.body reached.ran
  obtain ⟨views, names⟩ := reached.live accepted
  exact ⟨_, typeHeld_let (healthy_of_accepted accepted reached.split prior),
    here.inhabits views names (uncaptured _ _ _ _ _ _ _ _ _ _ _ reached) evaluated⟩

/-- `actor a = args_actor` with `vars: foo = 1`, and a block of it. -/
def fooFile (body : List Statement) : SourceFile where
  items := [
    .actorDeclaration {
      name := ⟨"a", ⟨0, 0⟩⟩, actorType := ⟨"args_actor", ⟨0, 0⟩⟩, keywordArgs := []
      vars := [{
        annotations := [], name := ⟨"foo", ⟨0, 0⟩⟩, default := some (.number 1), span := ⟨0, 0⟩ }]
      span := ⟨0, 0⟩ },
    .asBlock (plainBlock "a" body)]

/-- `let y = self.foo`. -/
def letSelfFoo : Statement :=
  .let ⟨⟨"y", ⟨0, 0⟩⟩, .expr (.memberAccess (.ident ⟨"self", ⟨0, 0⟩⟩) ⟨"foo", ⟨0, 0⟩⟩ ⟨0, 0⟩), ⟨0, 0⟩⟩

theorem declaresOutcomes_of_argsActors {world : List (Event LiveActor) → External} {regex : Regex}
    {sourceDir : String} {source : SourceFile} (accepted : accepts source = true)
    (plain : ∀ decl ∈ declarations source.items, decl.actorType.name = "args_actor") :
    DeclaresOutcomes world regex sourceDir source := by
  intro before block after harness actorType prior cmd rest run reached cmdDef consumed args actor
    resolved _ live
  obtain ⟨actorArgs, decl, member, found⟩ := reached.actorType_eq accepted live
  rw [plain decl member] at found
  obtain rfl : ActorType.argsActor = actorType := Option.some.inj found
  obtain rfl := List.mem_singleton.mp (ActorType.resolveCommand_spec resolved).1
  cases actor with
  | argsActor inst => rfl
  | _ => exact nomatch actorArgs

theorem fooFile_declarations {body : List Statement} :
    ∀ decl ∈ declarations (fooFile body).items, decl.actorType.name = "args_actor" := by
  intro decl member
  obtain rfl := List.mem_singleton.mp member
  rfl

theorem lets_inhabit_of_self :
    LetsInhabit (fun _ => refusingWorld) noRegex "."
      (fooFile [.command (plainCommand "check"), letSelfFoo]) := by
  refine lets_inhabit _ _ _ _ (by decide)
    (declaresOutcomes_of_argsActors (by decide) fooFile_declarations) ?_
  intro before block after harness actorType prior name expr span rest run reached captured
  have split := reached.split
  have body := reached.body
  rcases before with _ | ⟨first, _ | ⟨second, others⟩⟩
  · simp [fooFile] at split
  · obtain ⟨rfl, rfl, rfl⟩ : _ ∧ _ ∧ _ := by simpa [fooFile] using split
    rcases prior with _ | ⟨first, _ | ⟨second, others⟩⟩
    · simp [plainBlock] at body
    · obtain ⟨rfl, ⟨rfl, rfl, rfl⟩, rfl⟩ : _ ∧ (_ ∧ _ ∧ _) ∧ _ := by
        simpa [plainBlock, letSelfFoo] using body
      cases captured with
      | self own rebound => exact absurd rebound (by decide)
      | outcome typed rooted elsewhere => exact typed rfl
    · simp [plainBlock] at body
  · simp [fooFile] at split

/-- `let foo = true`. -/
def letFooTrue : Statement := .let ⟨⟨"foo", ⟨0, 0⟩⟩, .expr (.bool true), ⟨0, 0⟩⟩

/-- A `let` named as a variable is taken for it in `self.foo`. -/
theorem shadowed_var_breaks_lets :
    ¬ ∀ (world : List (Event LiveActor) → External) (regex : Regex) (sourceDir : String)
      (source : SourceFile), accepts source = true →
        DeclaresOutcomes world regex sourceDir source →
          LetsInhabit world regex sourceDir source := by
  intro inhabit
  have reached : ReachesLet (fun _ => refusingWorld) noRegex "." (fooFile [letFooTrue, letSelfFoo])
      (fooFile []).items.dropLast (plainBlock "a" [letFooTrue, letSelfFoo]) [] _ .argsActor
      [letFooTrue] _ _ _ [] _ := ⟨⟨rfl, rfl⟩, rfl, rfl, rfl⟩
  obtain ⟨ty, held, inhabits⟩ := inhabit (fun _ => refusingWorld) noRegex "."
    (fooFile [letFooTrue, letSelfFoo]) (by decide)
    (declaresOutcomes_of_argsActors (by decide) fooFile_declarations)
    _ _ _ _ _ _ _ _ _ _ _ reached (.number 1) rfl
  have recorded : typeHeld (fooFile [letFooTrue, letSelfFoo]) (fooFile []).items.dropLast
      (plainBlock "a" [letFooTrue, letSelfFoo]) [letFooTrue, letSelfFoo] "y" = some .bool := rfl
  obtain rfl := Option.some.inj (recorded.symm.trans held)
  exact absurd inhabits (by decide)

end Ill.Harness
