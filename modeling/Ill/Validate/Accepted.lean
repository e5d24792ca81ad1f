import Ill.Validate.Reported

/-!
# Accepted files

What silence of the two passes gives: every declaration is registered under a
name of its own in its type's initial mode, and in the second pass every entry
keeps its type, a statement other than a command keeps every mode, and a
command was resolved and valid in the mode its actor was then in.
-/

namespace Ill.Validate

open Ast Actor Base

/-! ## The symbol table -/

namespace Actors

@[simp] theorem healthy?_update_healthy (actors : Actors) (name other : String)
    (actor : HealthyActor) :
    Actors.healthy? (Function.update actors name (some (.healthy actor))) other =
      if other = name then some actor else actors.healthy? other := by
  unfold Actors.healthy?
  by_cases same : other = name
  · rw [same, Function.update_self, if_pos rfl]
  · rw [Function.update_of_ne same, if_neg same]

/-- Whether an actor is healthy depends on its own entry. -/
theorem healthy?_congr {actors others : Actors} {name : String}
    (same : actors name = others name) : actors.healthy? name = others.healthy? name := by
  rw [Actors.healthy?, Actors.healthy?, same]

/-- A change leaves every other entry as it is. -/
theorem modify_of_ne {name other : String} (different : other ≠ name) (actors : Actors)
    (change : HealthyActor → HealthyActor) : actors.modify name change other = actors other := by
  unfold Actors.modify
  rcases actors name with _ | actor | _
  · rfl
  · exact Function.update_of_ne different _ _
  · rfl

theorem healthy?_modify (actors : Actors) (name other : String)
    (change : HealthyActor → HealthyActor) :
    (actors.modify name change).healthy? other =
      if other = name then (actors.healthy? name).map change else actors.healthy? other := by
  unfold Actors.modify
  split
  · next actor entry =>
    have present : actors.healthy? name = some actor := by simp only [Actors.healthy?, entry]
    rw [healthy?_update_healthy, present, Option.map_some]
  · next absent =>
    split
    · next same =>
      subst same
      have missing : actors.healthy? other = none := by
        unfold Actors.healthy?
        split
        · next actor entry => exact absurd entry (absent actor)
        · rfl
      rw [missing, Option.map_none]
    · rfl

/-- The mode the validator holds for a healthy actor. -/
def mode? (actors : Actors) (name : String) : Option Mode :=
  (actors.healthy? name).map HealthyActor.mode

/-- The type of a healthy actor. -/
def type? (actors : Actors) (name : String) : Option ActorType :=
  (actors.healthy? name).map HealthyActor.typeDef

/-- A change that keeps the mode keeps every mode in the table. -/
theorem mode?_modify {change : HealthyActor → HealthyActor}
    (keeps : ∀ actor, (change actor).mode = actor.mode) (actors : Actors)
    (name other : String) : (actors.modify name change).mode? other = actors.mode? other := by
  unfold mode?
  rw [healthy?_modify]
  split
  · next same =>
    rw [same, Option.map_map]
    exact congrFun (congrArg Option.map (funext keeps)) _
  · rfl

/-- What every step of the second pass keeps: the type of each actor, and
which names have no entry. -/
structure Keeps (before after : Actors) : Prop where
  types : ∀ name, after.type? name = before.type? name
  vacant : ∀ name, before name = none → after name = none

theorem Keeps.refl (actors : Actors) : Keeps actors actors :=
  ⟨fun _ => rfl, fun _ vacant => vacant⟩

theorem Keeps.trans {before middle after : Actors} (first : Keeps before middle)
    (second : Keeps middle after) : Keeps before after :=
  ⟨fun name => (second.types name).trans (first.types name),
    fun name vacant => second.vacant name (first.vacant name vacant)⟩

theorem Keeps.modify {change : HealthyActor → HealthyActor}
    (keeps : ∀ actor, (change actor).typeDef = actor.typeDef) (actors : Actors) (name : String) :
    Keeps actors (actors.modify name change) := by
  constructor
  · intro other
    unfold type?
    rw [healthy?_modify]
    split
    · next same =>
      rw [same, Option.map_map]
      exact congrFun (congrArg Option.map (funext keeps)) _
    · rfl
  · intro other vacant
    rcases entry : actors name with _ | actor | _
    · simpa only [Actors.modify, entry] using vacant
    · have different : other ≠ name := by
        rintro rfl
        rw [vacant] at entry
        simp at entry
      simp only [Actors.modify, entry, Function.update_of_ne different, vacant]
    · simpa only [Actors.modify, entry] using vacant

/-- The type and the mode of an entry belong to one healthy actor. -/
theorem healthy?_of_mode? {actors : Actors} {name : String} {mode : Mode}
    (held : actors.mode? name = some mode) :
    ∃ actor, actors.healthy? name = some actor ∧ actor.mode = mode :=
  Option.map_eq_some_iff.mp held

end Actors

/-! ## The first pass -/

/-- The declarations among some items, in order. -/
def declarations (items : List TopLevel) : List ActorDeclaration :=
  items.filterMap fun item =>
    match item with
    | .actorDeclaration decl => some decl
    | .asBlock _ => none

/-- The declared names among some items, in order. -/
def declaredNames (items : List TopLevel) : List String :=
  (declarations items).map fun decl => decl.name.name

@[simp] theorem declaredNames_nil : declaredNames [] = [] := rfl

@[simp] theorem declaredNames_actorDeclaration (decl : ActorDeclaration) (items : List TopLevel) :
    declaredNames (.actorDeclaration decl :: items) = decl.name.name :: declaredNames items := rfl

@[simp] theorem declaredNames_asBlock (block : AsBlock) (items : List TopLevel) :
    declaredNames (.asBlock block :: items) = declaredNames items := rfl

@[simp] theorem declaredNames_append (before after : List TopLevel) :
    declaredNames (before ++ after) = declaredNames before ++ declaredNames after := by
  simp [declaredNames, declarations]

/-- A declaration registered silently had a fresh name and a registered type,
and is in its initial mode. -/
theorem registerActor_silent {actors : Actors} {decl : ActorDeclaration}
    (silent : (registerActor actors decl).2 = []) :
    actors.healthy? decl.name.name = none ∧
      ∃ typeDef, Registry.get decl.actorType.name = some typeDef ∧
        (registerActor actors decl).1 = Function.update actors decl.name.name
          (some (.healthy (.initial typeDef decl.vars))) := by
  unfold registerActor at silent ⊢
  split at silent
  · simp at silent
  · next fresh =>
    refine ⟨fresh, ?_⟩
    unfold registerFresh at silent ⊢
    split at silent
    · simp at silent
    · next typeDef found => exact ⟨typeDef, found, rfl⟩

/-- What the first pass makes of a table when it is silent. -/
structure Registers (actors : Actors) (items : List TopLevel) (final : Actors) : Prop where
  /-- A healthy entry is never overwritten. -/
  kept : ∀ name actor, actors.healthy? name = some actor → final.healthy? name = some actor
  fresh : ∀ name ∈ declaredNames items, actors.healthy? name = none
  distinct : (declaredNames items).Nodup
  declared : ∀ decl ∈ declarations items, ∃ typeDef,
    Registry.get decl.actorType.name = some typeDef ∧
      final.healthy? decl.name.name = some (.initial typeDef decl.vars)
  untouched : ∀ name, name ∉ declaredNames items → final name = actors name

theorem emit_registerItem_silent {actors : Actors} {items : List TopLevel}
    (silent : (emit registerItem actors items).2 = []) :
    Registers actors items (emit registerItem actors items).1 := by
  induction items generalizing actors with
  | nil =>
    refine ⟨fun _ _ present => present, ?_, ?_, ?_, fun _ _ => rfl⟩
    · simp
    · simp
    · simp [declarations]
  | cons item rest ih =>
    rw [emit_cons_output, List.append_eq_nil_iff] at silent
    have later := ih silent.2
    cases item with
    | asBlock block => exact ⟨later.kept, later.fresh, later.distinct, later.declared, later.untouched⟩
    | actorDeclaration decl =>
      obtain ⟨unused, typeDef, found, stepped⟩ := registerActor_silent silent.1
      have entry : (registerItem actors (.actorDeclaration decl)).1.healthy? decl.name.name =
          some (.initial typeDef decl.vars) := by
        simp only [registerItem, stepped, Actors.healthy?_update_healthy, if_true]
      have others : ∀ name, name ≠ decl.name.name →
          (registerItem actors (.actorDeclaration decl)).1 name = actors name := by
        intro name different
        simp only [registerItem, stepped, Function.update_of_ne different]
      have absent : decl.name.name ∉ declaredNames rest := by
        intro again
        have vacant := later.fresh _ again
        rw [entry] at vacant
        simp at vacant
      refine ⟨?_, ?_, ?_, ?_, ?_⟩
      · intro name actor present
        refine later.kept name actor ?_
        have different : name ≠ decl.name.name := by
          rintro rfl
          rw [unused] at present
          simp at present
        simpa only [Actors.healthy?, others name different] using present
      · intro name member
        rcases List.mem_cons.mp member with rfl | member
        · exact unused
        · have different : name ≠ decl.name.name := fun same => absent (same ▸ member)
          simpa only [Actors.healthy?, others name different] using later.fresh name member
      · exact List.nodup_cons.mpr ⟨absent, later.distinct⟩
      · intro other member
        rcases List.mem_cons.mp member with rfl | member
        · exact ⟨typeDef, found, later.kept _ _ entry⟩
        · exact later.declared other member
      · intro name outside
        rw [declaredNames_actorDeclaration, List.mem_cons, not_or] at outside
        rw [emit_cons_state, later.untouched name outside.2, others name outside.1]

/-! ## The second pass -/

/-- The mode that the pending transition of the last command leads to. -/
theorem mode?_applyPending {actorName : String} {check : BlockCheck} {mode : Mode}
    (held : check.actors.mode? actorName = some mode) :
    (applyPending actorName check).mode? actorName =
      some (if check.outcome.isOk then check.pendingTransition.getD mode else mode) := by
  unfold applyPending
  split
  · split
    · next next pending =>
      obtain ⟨actor, present, _⟩ := Actors.healthy?_of_mode? held
      rw [Actors.mode?, Actors.healthy?_modify, if_pos rfl, present, pending]
      rfl
    · next pending =>
      rw [held, pending]
      rfl
  · exact held

theorem keeps_applyPending (actorName : String) (check : BlockCheck) :
    Actors.Keeps check.actors (applyPending actorName check) := by
  unfold applyPending
  split
  · split
    · refine Actors.Keeps.modify ?_ check.actors actorName
      intro actor
      rfl
    · exact .refl _
  · exact .refl _

theorem applyPending_of_ne {actorName other : String} (different : other ≠ actorName)
    (check : BlockCheck) : applyPending actorName check other = check.actors other := by
  unfold applyPending
  split
  · cases check.pendingTransition with
    | some mode => exact Actors.modify_of_ne different _ _
    | none => rfl
  · rfl

theorem keeps_bindVar (actors : Actors) (actorName name : String) (ty : ValueType) :
    Actors.Keeps actors (bindVar actors actorName name ty) := by
  refine Actors.Keeps.modify ?_ actors actorName
  intro actor
  rfl

theorem mode?_bindVar (actors : Actors) (actorName name : String) (ty : ValueType)
    (other : String) : (bindVar actors actorName name ty).mode? other = actors.mode? other := by
  refine Actors.mode?_modify ?_ actors actorName other
  intro actor
  rfl

theorem bindVar_of_ne {actorName other : String} (different : other ≠ actorName)
    (actors : Actors) (name : String) (ty : ValueType) :
    bindVar actors actorName name ty other = actors other :=
  Actors.modify_of_ne different _ _

theorem keeps_checkStatement (actorName : String) (check : BlockCheck) (stmt : Statement) :
    Actors.Keeps check.actors (checkStatement actorName check stmt).1.actors := by
  cases stmt with
  | command cmd => exact keeps_applyPending actorName check
  | «let» letStmt =>
    obtain ⟨bound, value, span⟩ := letStmt
    cases value <;> exact keeps_bindVar _ _ _ _
  | assignment a => exact .refl _
  | assert a => exact .refl _

/-- A statement leaves every other actor alone. -/
theorem checkStatement_of_ne {actorName other : String} (different : other ≠ actorName)
    (check : BlockCheck) (stmt : Statement) :
    (checkStatement actorName check stmt).1.actors other = check.actors other := by
  cases stmt with
  | command cmd => exact applyPending_of_ne different check
  | «let» letStmt =>
    obtain ⟨bound, value, span⟩ := letStmt
    cases value <;> exact bindVar_of_ne different _ _ _
  | assignment a => rfl
  | assert a => rfl

/-- A statement other than a command keeps every mode and the pending transition. -/
theorem checkStatement_window {stmt : Statement} (inside : stmt.isCommand = false)
    (actorName : String) (check : BlockCheck) (name : String) :
    (checkStatement actorName check stmt).1.actors.mode? name = check.actors.mode? name ∧
      (checkStatement actorName check stmt).1.pendingTransition = check.pendingTransition := by
  cases stmt with
  | command cmd => simp [Statement.isCommand] at inside
  | «let» letStmt =>
    obtain ⟨bound, value, span⟩ := letStmt
    cases value <;> exact ⟨mode?_bindVar _ _ _ _ _, rfl⟩
  | assignment a => exact ⟨rfl, rfl⟩
  | assert a => exact ⟨rfl, rfl⟩

/-- A command checked silently was resolved, was valid in the mode of its
actor, and leaves its own transition pending. -/
theorem checkCommandIn_silent {state : HealthyActor} {cmd : Ast.Command}
    (silent : (checkCommandIn state cmd).2 = []) :
    ∃ cmdDef consumed,
      state.typeDef.resolveCommand cmd.name.name cmd.positionalArgs = some (cmdDef, consumed) ∧
        state.mode ∈ cmdDef.validInModes ∧
        (checkCommandIn state cmd).1.transition = cmdDef.transitionsTo := by
  unfold checkCommandIn at silent ⊢
  split at silent
  · simp at silent
  · next cmdDef consumed resolved =>
    dsimp only at silent ⊢
    split at silent
    · next valid =>
      obtain ⟨mode, member, same⟩ := List.any_eq_true.mp valid
      rw [sameMode_iff] at same
      exact ⟨cmdDef, consumed, resolved, same ▸ member, by rw [if_pos valid]⟩
    · simp at silent

/-- A block of a healthy actor checks its statements and applies the last
pending transition. -/
theorem checkAsBlock_of_healthy {actors : Actors} {block : AsBlock} {actor : HealthyActor}
    (healthy : actors.healthy? block.actor.name = some actor) :
    checkAsBlock actors block =
      (applyPending block.actor.name
          (checkBody block.actor.name (.start actors) block.body).1,
        (checkBody block.actor.name (.start actors) block.body).2) := by
  have entry : ∃ found, actors block.actor.name = some (.healthy found) := by
    unfold Actors.healthy? at healthy
    split at healthy
    · next found present => exact ⟨found, present⟩
    · simp at healthy
  obtain ⟨found, present⟩ := entry
  simp only [checkAsBlock, present]

theorem keeps_checkBody (actorName : String) (check : BlockCheck) (body : List Statement) :
    Actors.Keeps check.actors (checkBody actorName check body).1.actors :=
  emit_invariant (fun after => Actors.Keeps check.actors after.actors)
    (fun before stmt _ holds => holds.trans (keeps_checkStatement actorName before stmt))
    (Actors.Keeps.refl _)

theorem checkBody_of_ne {actorName other : String} (different : other ≠ actorName)
    (check : BlockCheck) (body : List Statement) :
    (checkBody actorName check body).1.actors other = check.actors other :=
  emit_invariant (fun after => after.actors other = check.actors other)
    (fun before stmt _ holds => (checkStatement_of_ne different before stmt).trans holds) rfl

theorem keeps_checkItem (actors : Actors) (item : TopLevel) :
    Actors.Keeps actors (checkItem actors item).1 := by
  cases item with
  | actorDeclaration decl => exact .refl _
  | asBlock block =>
    simp only [checkItem, checkAsBlock]
    split
    · exact .refl _
    · exact .refl _
    · exact (keeps_checkBody _ (.start actors) _).trans (keeps_applyPending _ _)

/-- A block leaves every actor but its own alone. -/
theorem checkAsBlock_of_ne {block : AsBlock} {other : String}
    (different : other ≠ block.actor.name) (actors : Actors) :
    (checkAsBlock actors block).1 other = actors other := by
  simp only [checkAsBlock]
  split
  · rfl
  · rfl
  · exact (applyPending_of_ne different _).trans (checkBody_of_ne different _ _)

/-! ## Whole files -/

/-- The first pass of an accepted file. -/
theorem registers_of_accepts {source : SourceFile} (accepted : accepts source = true) :
    Registers (fun _ => none) source.items (registered source) := by
  have silent := accepts_iff.mp accepted
  exact emit_registerItem_silent (List.append_eq_nil_iff.mp silent).1

/-- The second pass of an accepted file is silent on every prefix and on the
item after it. -/
theorem checkItem_silent {source : SourceFile} (accepted : accepts source = true)
    {before after : List TopLevel} {item : TopLevel}
    (split : source.items = before ++ item :: after) :
    (checkItem (checkedAfter source before) item).2 = [] := by
  have silent := (List.append_eq_nil_iff.mp (accepts_iff.mp accepted)).2
  rw [split] at silent
  exact emit_silent_at silent

/-- The table after one more item. -/
theorem checkedAfter_concat (source : SourceFile) (before : List TopLevel) (item : TopLevel) :
    checkedAfter source (before ++ [item]) = (checkItem (checkedAfter source before) item).1 := by
  rw [checkedAfter, emit_append_state]
  rfl

/-- Types never change after registration, and no name is added. -/
theorem keeps_checkedAfter (source : SourceFile) (items : List TopLevel) :
    Actors.Keeps (registered source) (checkedAfter source items) :=
  emit_invariant (fun actors => Actors.Keeps (registered source) actors)
    (fun before item _ holds => holds.trans (keeps_checkItem before item)) (Actors.Keeps.refl _)

/-- The actor that a block of an accepted file names is declared in the file. -/
theorem declared_of_block {source : SourceFile} (accepted : accepts source = true)
    {before after : List TopLevel} {block : AsBlock}
    (split : source.items = before ++ .asBlock block :: after) :
    block.actor.name ∈ declaredNames source.items := by
  by_contra undeclared
  have vacant := (registers_of_accepts accepted).untouched _ undeclared
  have unknown := (keeps_checkedAfter source before).vacant _ vacant
  have silent := checkItem_silent accepted split
  simp [checkItem, checkAsBlock, unknown] at silent

/-- A declared actor of an accepted file is healthy throughout the second pass,
with its declared type. -/
theorem type?_of_declared {source : SourceFile} (accepted : accepts source = true)
    {decl : ActorDeclaration} (member : decl ∈ declarations source.items)
    (items : List TopLevel) :
    ∃ typeDef, Registry.get decl.actorType.name = some typeDef ∧
      (checkedAfter source items).type? decl.name.name = some typeDef := by
  obtain ⟨typeDef, found, entry⟩ := (registers_of_accepts accepted).declared decl member
  refine ⟨typeDef, found, ?_⟩
  rw [(keeps_checkedAfter source items).types, Actors.type?, entry]
  rfl

/-- A declared name has a declaration. -/
theorem exists_declaration {items : List TopLevel} {name : String}
    (declared : name ∈ declaredNames items) :
    ∃ decl ∈ declarations items, decl.name.name = name :=
  List.mem_map.mp declared

/-- The check of a block of an accepted file is silent, and its actor healthy. -/
theorem body_silent {source : SourceFile} (accepted : accepts source = true)
    {before after : List TopLevel} {block : AsBlock}
    (split : source.items = before ++ .asBlock block :: after) :
    (checkedAfter source before).healthy? block.actor.name ≠ none ∧
      (checkBody block.actor.name (.start (checkedAfter source before)) block.body).2 = [] := by
  obtain ⟨decl, member, named⟩ := exists_declaration (declared_of_block accepted split)
  obtain ⟨typeDef, _, entry⟩ := type?_of_declared accepted member before
  rw [named] at entry
  obtain ⟨actor, healthy, _⟩ := Option.map_eq_some_iff.mp entry
  have silent := checkItem_silent accepted split
  rw [checkItem, checkAsBlock_of_healthy healthy] at silent
  exact ⟨by simp [healthy], silent⟩

/-- A command of an accepted file was examined silently, for a healthy actor of
the registered type. -/
theorem command_silent {source : SourceFile} (accepted : accepts source = true)
    {before after : List TopLevel} {block : AsBlock}
    (split : source.items = before ++ .asBlock block :: after) {prior rest : List Statement}
    {cmd : Ast.Command} (body : block.body = prior ++ .command cmd :: rest) :
    ∃ state,
      (applyPending block.actor.name (checkBody block.actor.name
        (.start (checkedAfter source before)) prior).1).healthy? block.actor.name = some state ∧
      (registered source).type? block.actor.name = some state.typeDef ∧
      (checkCommandIn state cmd).2 = [] := by
  obtain ⟨present, silent⟩ := body_silent accepted split
  rw [body] at silent
  have checked : (checkStatement block.actor.name (checkBody block.actor.name
      (.start (checkedAfter source before)) prior).1 (.command cmd)).2 = [] :=
    emit_silent_at silent
  have kept : Actors.Keeps (checkedAfter source before) (applyPending block.actor.name
      (checkBody block.actor.name (.start (checkedAfter source before)) prior).1) :=
    (keeps_checkBody _ (.start (checkedAfter source before)) prior).trans (keeps_applyPending _ _)
  obtain ⟨actor, healthy⟩ := Option.ne_none_iff_exists'.mp present
  have typed : (applyPending block.actor.name (checkBody block.actor.name
      (.start (checkedAfter source before)) prior).1).type? block.actor.name =
        some actor.typeDef := by
    rw [kept.types, Actors.type?, healthy]
    rfl
  obtain ⟨state, held, same⟩ := Option.map_eq_some_iff.mp typed
  refine ⟨state, held, ?_, ?_⟩
  · rw [same, ← (keeps_checkedAfter source before).types, Actors.type?, healthy]
    rfl
  · simpa only [checkStatement, checkCommand, held] using checked

end Ill.Validate
