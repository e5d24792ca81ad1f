import Ill.Validate.Accepted

/-!
# Actors are validated on their own

The validator threads one symbol table and one list of diagnostics through the
whole file. Every item reads and writes the entry of its own actor only, so an
actor's items can be left out without a change to what is reported of the
others, and the blocks of an actor that never became healthy are not looked
into.
-/

namespace Ill.Ast

/-- The actor that an item declares or acts for. -/
def TopLevel.actorName : TopLevel → String
  | .actorDeclaration decl => decl.name.name
  | .asBlock block => block.actor.name

/-- The file with the declarations and the `as` blocks of one actor removed. -/
def SourceFile.without (source : SourceFile) (name : String) : SourceFile where
  items := source.items.filter fun item => item.actorName != name

end Ill.Ast

namespace Ill.Validate

open Ast Actor Base

/-- What the validator reports, each diagnostic with the item it is raised at. -/
def raised (source : SourceFile) : List (TopLevel × Diagnostic) :=
  emitLabelled registerItem (fun _ => none) source.items ++
    emitLabelled checkItem (registered source) source.items

theorem map_raised (source : SourceFile) : (raised source).map Prod.snd = validate source := by
  rw [raised, List.map_append, map_emitLabelled, map_emitLabelled]
  rfl

/-! ## Each item keeps to its own entry -/

theorem update_congr (actors others : Actors) (name : String) (entry : Option ActorState) :
    Function.update actors name entry name = Function.update others name entry name :=
  (Function.update_self name entry actors).trans (Function.update_self name entry others).symm

theorem registerActor_congr {actors others : Actors} {decl : ActorDeclaration}
    (same : actors decl.name.name = others decl.name.name) :
    (registerActor actors decl).1 decl.name.name = (registerActor others decl).1 decl.name.name ∧
      (registerActor actors decl).2 = (registerActor others decl).2 := by
  unfold registerActor
  rw [Actors.healthy?_congr same]
  split
  · exact ⟨same, rfl⟩
  · unfold registerFresh
    split
    · exact ⟨update_congr _ _ _ _, rfl⟩
    · exact ⟨update_congr _ _ _ _, rfl⟩

theorem registerActor_of_ne {decl : ActorDeclaration} {other : String}
    (different : other ≠ decl.name.name) (actors : Actors) :
    (registerActor actors decl).1 other = actors other := by
  unfold registerActor
  split
  · rfl
  · unfold registerFresh
    split
    · exact Function.update_of_ne different _ _
    · exact Function.update_of_ne different _ _

/-- Two checks of a block that differ at most in the entries of other actors. -/
structure BlockCheck.Same (actorName : String) (check other : BlockCheck) : Prop where
  entry : check.actors actorName = other.actors actorName
  lastOkFields : check.lastOkFields = other.lastOkFields
  lastErrorTypes : check.lastErrorTypes = other.lastErrorTypes
  outcome : check.outcome = other.outcome
  pendingTransition : check.pendingTransition = other.pendingTransition

theorem modify_congr {actors others : Actors} {name : String}
    (same : actors name = others name) (change : HealthyActor → HealthyActor) :
    actors.modify name change name = others.modify name change name := by
  unfold Actors.modify
  rcases entry : others name with _ | actor | _
  · simp only [same, entry]
  · simp only [same, entry, Function.update_self]
  · simp only [same, entry]

theorem applyPending_congr {actorName : String} {check other : BlockCheck}
    (same : check.Same actorName other) :
    applyPending actorName check actorName = applyPending actorName other actorName := by
  unfold applyPending
  rw [same.outcome, same.pendingTransition]
  split
  · cases other.pendingTransition with
    | some mode => exact modify_congr same.entry _
    | none => exact same.entry
  · exact same.entry

theorem checkCommand_congr {actors others : Actors} {actorName : String}
    (same : actors actorName = others actorName) (cmd : Ast.Command) :
    checkCommand actors actorName cmd = checkCommand others actorName cmd := by
  rw [checkCommand, checkCommand, Actors.healthy?_congr same]

theorem exprTypeInActor_congr {actors others : Actors} {actorName : String}
    (same : actors actorName = others actorName) (okFields : List OutcomeField)
    (errorTypes : List ErrorTypeDef) (expr : Expr) :
    exprTypeInActor actors actorName okFields errorTypes expr =
      exprTypeInActor others actorName okFields errorTypes expr := by
  unfold exprTypeInActor
  rw [Actors.healthy?_congr same]

theorem checkLet_congr {actorName : String} {check other : BlockCheck}
    (same : check.Same actorName other) (letStmt : Let) :
    (checkLet actorName check letStmt).1.Same actorName (checkLet actorName other letStmt).1 ∧
      (checkLet actorName check letStmt).2 = (checkLet actorName other letStmt).2 := by
  obtain ⟨entry, okFields, errorTypes, outcome, pending⟩ := same
  obtain ⟨name, value, span⟩ := letStmt
  cases value with
  | expr expr =>
    simp only [checkLet, outcome, okFields, errorTypes, exprTypeInActor_congr entry, and_true]
    exact ⟨modify_congr entry _, rfl, rfl, rfl, pending⟩
  | parse source format =>
    exact ⟨⟨modify_congr entry _, okFields, errorTypes, outcome, pending⟩, rfl⟩

theorem checkStatement_congr {actorName : String} {check other : BlockCheck}
    (same : check.Same actorName other) (stmt : Statement) :
    (checkStatement actorName check stmt).1.Same actorName (checkStatement actorName other stmt).1 ∧
      (checkStatement actorName check stmt).2 = (checkStatement actorName other stmt).2 := by
  cases stmt with
  | command cmd =>
    have applied := applyPending_congr same
    have checked := checkCommand_congr applied cmd
    simp only [checkStatement, checked, and_true]
    exact ⟨applied, rfl, rfl, rfl, rfl⟩
  | «let» letStmt => exact checkLet_congr same letStmt
  | assignment a => exact ⟨same, rfl⟩
  | assert a =>
    simp only [checkStatement, same.outcome, and_true]
    exact ⟨same.entry, same.lastOkFields, same.lastErrorTypes, rfl, same.pendingTransition⟩

theorem checkBody_congr {actorName : String} {check other : BlockCheck}
    (same : check.Same actorName other) (body : List Statement) :
    (checkBody actorName check body).1.Same actorName (checkBody actorName other body).1 ∧
      (checkBody actorName check body).2 = (checkBody actorName other body).2 := by
  refine emit_congr Eq (BlockCheck.Same actorName) ?_ (List.forall₂_same.mpr fun _ _ => rfl) same
  rintro before after stmt _ rfl here
  exact checkStatement_congr here stmt

theorem checkAsBlock_congr {actors others : Actors} {block : AsBlock}
    (same : actors block.actor.name = others block.actor.name) :
    (checkAsBlock actors block).1 block.actor.name =
        (checkAsBlock others block).1 block.actor.name ∧
      (checkAsBlock actors block).2 = (checkAsBlock others block).2 := by
  unfold checkAsBlock
  rw [← same]
  split
  · exact ⟨same, rfl⟩
  · exact ⟨same, rfl⟩
  · have start : BlockCheck.Same block.actor.name (.start actors) (.start others) :=
      ⟨same, rfl, rfl, rfl, rfl⟩
    obtain ⟨final, output⟩ := checkBody_congr start block.body
    exact ⟨applyPending_congr final, output⟩

theorem registerItem_local : Local TopLevel.actorName registerItem where
  own := by
    intro actors others item same
    cases item with
    | actorDeclaration decl => exact registerActor_congr same
    | asBlock block => exact ⟨same, rfl⟩
  frame := by
    intro actors item other different
    cases item with
    | actorDeclaration decl => exact registerActor_of_ne different actors
    | asBlock block => rfl

theorem checkItem_local : Local TopLevel.actorName checkItem where
  own := by
    intro actors others item same
    cases item with
    | actorDeclaration decl => exact ⟨same, rfl⟩
    | asBlock block => exact checkAsBlock_congr same
  frame := by
    intro actors item other different
    cases item with
    | actorDeclaration decl => rfl
    | asBlock block => exact checkAsBlock_of_ne different actors

/-- Without an actor, the validator reports what it reports of the others. -/
theorem validate_without (source : SourceFile) (name : String) :
    validate (source.without name) =
      ((raised source).filter fun report => report.1.actorName != name).map Prod.snd := by
  obtain ⟨agree, first⟩ :=
    registerItem_local.emit_without name source.items (.refl name fun _ => none)
  obtain ⟨_, second⟩ := checkItem_local.emit_without name source.items agree
  rw [raised, List.filter_append, List.map_append]
  exact congrArg₂ (· ++ ·) first second

/-! ## Blocks that are not looked into -/

/-- No declaration of the actor has a registered type. -/
def Unregistered (source : SourceFile) (name : String) : Prop :=
  ∀ decl ∈ declarations source.items, decl.name.name = name →
    Registry.get decl.actorType.name = none

/-- The same item, or the same block of the actor with any body. -/
inductive Rebodied (name : String) : TopLevel → TopLevel → Prop where
  | same (item : TopLevel) : Rebodied name item item
  | body (block : AsBlock) (owned : block.actor.name = name) (body : List Statement) :
    Rebodied name (.asBlock block) (.asBlock { block with body := body })

/-- An unregistered actor is never healthy. -/
theorem healthy?_of_unregistered {source : SourceFile} {name : String}
    (unregistered : Unregistered source name) : (registered source).healthy? name = none := by
  refine emit_invariant (fun actors : Actors => actors.healthy? name = none) ?_ rfl
  intro before item member unhealthy
  by_cases own : name = item.actorName
  · cases item with
    | asBlock block => exact unhealthy
    | actorDeclaration decl =>
      obtain rfl : name = decl.name.name := own
      have declared : decl ∈ declarations source.items := List.mem_filterMap.mpr ⟨_, member, rfl⟩
      simp only [registerItem, registerActor, unhealthy, registerFresh,
        unregistered decl declared rfl]
      simp only [Actors.healthy?, Function.update_self]
  · exact (Actors.healthy?_congr (registerItem_local.frame before item own)).trans unhealthy

/-- A block of an actor that is not healthy is not looked into. -/
theorem checkAsBlock_unhealthy {actors : Actors} {block : AsBlock}
    (unhealthy : actors.healthy? block.actor.name = none) (body : List Statement) :
    (checkAsBlock actors { block with body := body }).1 = actors ∧
      (checkAsBlock actors { block with body := body }).2 = (checkAsBlock actors block).2 := by
  unfold checkAsBlock
  rcases entry : actors block.actor.name with _ | actor | _
  · exact ⟨rfl, rfl⟩
  · simp [Actors.healthy?, entry] at unhealthy
  · exact ⟨rfl, rfl⟩

theorem registerItem_rebodied {name : String} {before after : Actors} {item other : TopLevel}
    (rebodied : Rebodied name item other) (same : before = after) :
    (registerItem before item).1 = (registerItem after other).1 ∧
      (registerItem before item).2 = (registerItem after other).2 := by
  subst same
  cases rebodied with
  | same item => exact ⟨rfl, rfl⟩
  | body block owned body => exact ⟨rfl, rfl⟩

/-- Two tables that are the same, with an actor that is not healthy. -/
def SameUnhealthy (name : String) (before after : Actors) : Prop :=
  before = after ∧ after.healthy? name = none

theorem checkItem_rebodied {name : String} {before after : Actors} {item other : TopLevel}
    (rebodied : Rebodied name item other) (same : SameUnhealthy name before after) :
    SameUnhealthy name (checkItem before item).1 (checkItem after other).1 ∧
      (checkItem before item).2 = (checkItem after other).2 := by
  obtain ⟨rfl, unhealthy⟩ := same
  cases rebodied with
  | same item =>
    refine ⟨⟨rfl, ?_⟩, rfl⟩
    by_cases own : name = item.actorName
    · cases item with
      | actorDeclaration decl => exact unhealthy
      | asBlock block =>
        rw [own] at unhealthy ⊢
        obtain ⟨unchanged, _⟩ := checkAsBlock_unhealthy unhealthy block.body
        exact (congrArg (Actors.healthy? · block.actor.name) unchanged).trans unhealthy
    · exact (Actors.healthy?_congr (checkItem_local.frame before item own)).trans unhealthy
  | body block owned body =>
    subst owned
    obtain ⟨unchanged, _⟩ := checkAsBlock_unhealthy unhealthy block.body
    obtain ⟨replaced, reported⟩ := checkAsBlock_unhealthy unhealthy body
    refine ⟨⟨unchanged.trans replaced.symm, ?_⟩, reported.symm⟩
    exact (congrArg (Actors.healthy? · block.actor.name) replaced).trans unhealthy

/-- What the bodies of an unregistered actor's blocks say does not matter. -/
theorem validate_rebodied {source other : SourceFile} {name : String}
    (unregistered : Unregistered source name)
    (rebodied : List.Forall₂ (Rebodied name) source.items other.items) :
    validate other = validate source := by
  obtain ⟨tables, first⟩ := emit_congr (Rebodied name) Eq (fun _ _ _ _ => registerItem_rebodied)
    rebodied (Eq.refl fun _ => none)
  have tables : registered source = registered other := tables
  have unhealthy : SameUnhealthy name (registered source) (registered other) :=
    ⟨tables, tables ▸ healthy?_of_unregistered unregistered⟩
  obtain ⟨_, second⟩ := emit_congr (Rebodied name) (SameUnhealthy name)
    (fun _ _ _ _ => checkItem_rebodied) rebodied unhealthy
  exact (congrArg₂ (· ++ ·) first second).symm

/-- The validation of one actor does not depend on another: without the items
of an actor, the same is reported of the others in the same order, and nothing
depends on the bodies of its blocks if it has no registered type. -/
theorem validate_independent (source : SourceFile) (name : String) :
    (raised source).map Prod.snd = validate source ∧
      validate (source.without name) =
        ((raised source).filter fun report => report.1.actorName != name).map Prod.snd ∧
      (Unregistered source name → ∀ other : SourceFile,
        List.Forall₂ (Rebodied name) source.items other.items →
          validate other = validate source) := by
  refine ⟨map_raised source, validate_without source name, ?_⟩
  intro unregistered other rebodied
  exact validate_rebodied unregistered rebodied

end Ill.Validate
