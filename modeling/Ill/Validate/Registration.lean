import Ill.Validate.Independent

/-!
# How a declared name is resolved

A file may declare one name several times. A declaration of an unregistered
type poisons the name until a declaration of a registered type replaces it;
from then on the name is taken, and every further declaration is a duplicate
whatever its type.
-/

namespace Ill.Validate

open Ast Actor Base

/-- The declarations of one name, in source order. -/
def declarationsOf (source : SourceFile) (name : String) : List ActorDeclaration :=
  (declarations source.items).filter fun decl => decl.name.name == name

/-- What the first pass reports, each diagnostic with its declaration. -/
def registrations (source : SourceFile) : List (ActorDeclaration × Diagnostic) :=
  emitLabelled registerActor (fun _ => none) (declarations source.items)

/-- What the first pass reports of the declarations of one name. -/
def registrationsOf (source : SourceFile) (name : String) : List (ActorDeclaration × Diagnostic) :=
  (registrations source).filter fun report => report.1.name.name == name

def unknownActorType (decl : ActorDeclaration) : Diagnostic :=
  .error decl.actorType.span .unknownActorType s!"unknown actor type `{decl.actorType.name}`"

def duplicateActor (decl : ActorDeclaration) : Diagnostic :=
  .error decl.name.span .duplicateActor s!"actor `{decl.name.name}` is already declared"

/-- What the declaration of a registered type reports of its own arguments and
defaults. -/
def ownReports (typeDef : ActorType) (decl : ActorDeclaration) : List Diagnostic :=
  checkKeywordArgsAgainst decl.keywordArgs typeDef.constructorKeyword decl.span none ++
    decl.keywordArgs.flatMap (fun kw => checkSquigglesInKwvalue kw.value) ++
    decl.vars.flatMap checkDefault

/-! ## The first pass visits the declarations -/

theorem emit_registerItem (items : List TopLevel) (actors : Actors) :
    emit registerItem actors items = emit registerActor actors (declarations items) := by
  induction items generalizing actors with
  | nil => rfl
  | cons item rest ih =>
    cases item with
    | asBlock block => exact ih actors
    | actorDeclaration decl =>
      have here : declarations (.actorDeclaration decl :: rest) = decl :: declarations rest := rfl
      rw [here, emit, emit, registerItem, ih]

theorem registered_eq (source : SourceFile) :
    registered source = (emit registerActor (fun _ => none) (declarations source.items)).1 :=
  congrArg Prod.fst (emit_registerItem source.items _)

theorem validate_eq_registrations (source : SourceFile) :
    validate source =
      (registrations source).map Prod.snd ++ (emit checkItem (registered source) source.items).2 := by
  rw [registrations, map_emitLabelled, ← emit_registerItem, validate]

theorem registerActor_local : Local (fun decl => decl.name.name) registerActor where
  own := registerActor_congr
  frame := fun actors _ _ different => registerActor_of_ne different actors

/-! ## One declaration after another of the same name -/

theorem registerActor_unregistered {actors : Actors} {decl : ActorDeclaration}
    (unhealthy : actors.healthy? decl.name.name = none)
    (unregistered : Registry.get decl.actorType.name = none) :
    registerActor actors decl =
      (Function.update actors decl.name.name (some .errored), [unknownActorType decl]) := by
  simp only [registerActor, unhealthy, registerFresh, unregistered, unknownActorType]

theorem registerActor_registered {actors : Actors} {decl : ActorDeclaration} {typeDef : ActorType}
    (unhealthy : actors.healthy? decl.name.name = none)
    (isRegistered : Registry.get decl.actorType.name = some typeDef) :
    registerActor actors decl =
      (Function.update actors decl.name.name (some (.healthy (.initial typeDef decl.vars))),
        ownReports typeDef decl) := by
  simp only [registerActor, unhealthy, registerFresh, isRegistered, ownReports]

theorem registerActor_taken {actors : Actors} {decl : ActorDeclaration} {actor : HealthyActor}
    (taken : actors.healthy? decl.name.name = some actor) :
    registerActor actors decl = (actors, [duplicateActor decl]) := by
  simp only [registerActor, taken, duplicateActor]

/-- A poisoned or absent name stays so until a registered type comes. -/
theorem emit_unregistered {name : String} {decls : List ActorDeclaration} {actors : Actors}
    (named : ∀ decl ∈ decls, decl.name.name = name)
    (unregistered : ∀ decl ∈ decls, Registry.get decl.actorType.name = none)
    (unhealthy : actors.healthy? name = none) :
    (emit registerActor actors decls).1 name =
        (if decls = [] then actors name else some .errored) ∧
      emitLabelled registerActor actors decls = decls.map fun decl => (decl, unknownActorType decl) := by
  induction decls generalizing actors with
  | nil => exact ⟨rfl, rfl⟩
  | cons decl rest ih =>
    obtain rfl : decl.name.name = name := named decl (by simp)
    have step := registerActor_unregistered unhealthy (unregistered decl (by simp))
    have poisoned : Actors.healthy? (Function.update actors decl.name.name (some .errored))
        decl.name.name = none := by
      simp only [Actors.healthy?, Function.update_self]
    obtain ⟨entry, reports⟩ := ih (fun other inside => named other (List.mem_cons_of_mem _ inside))
      (fun other inside => unregistered other (List.mem_cons_of_mem _ inside)) poisoned
    rw [Function.update_self, ite_self] at entry
    rw [emit_cons_state, emitLabelled, step, reports]
    exact ⟨entry, rfl⟩

/-- A taken name stays as it is. -/
theorem emit_taken {name : String} {decls : List ActorDeclaration} {actors : Actors}
    {actor : HealthyActor} (named : ∀ decl ∈ decls, decl.name.name = name)
    (taken : actors.healthy? name = some actor) :
    (emit registerActor actors decls).1 = actors ∧
      emitLabelled registerActor actors decls = decls.map fun decl => (decl, duplicateActor decl) := by
  induction decls with
  | nil => exact ⟨rfl, rfl⟩
  | cons decl rest ih =>
    obtain rfl : decl.name.name = name := named decl (by simp)
    have step := registerActor_taken taken
    obtain ⟨entry, reports⟩ := ih fun other inside => named other (List.mem_cons_of_mem _ inside)
    rw [emit_cons_state, emitLabelled, step, reports]
    exact ⟨entry, rfl⟩

/-! ## One name among others -/

/-- The first pass makes of a name, and reports of it, what it would if the
file held the declarations of that name only. -/
theorem registered_only (source : SourceFile) (name : String) :
    registered source name =
        (emit registerActor (fun _ => none) (declarationsOf source name)).1 name ∧
      registrationsOf source name =
        emitLabelled registerActor (fun _ => none) (declarationsOf source name) := by
  rw [registered_eq]
  exact registerActor_local.emit_only _ rfl

theorem named_of_declarationsOf {source : SourceFile} {name : String} {decl : ActorDeclaration}
    (inside : decl ∈ declarationsOf source name) : decl.name.name = name := by
  simpa using (List.mem_filter.mp inside).2

/-- A name none of whose declarations has a registered type is poisoned. -/
theorem registered_errored {source : SourceFile} {name : String}
    (declared : declarationsOf source name ≠ [])
    (unregistered : ∀ decl ∈ declarationsOf source name, Registry.get decl.actorType.name = none) :
    registered source name = some .errored ∧
      registrationsOf source name =
        (declarationsOf source name).map fun decl => (decl, unknownActorType decl) := by
  obtain ⟨entry, reports⟩ := registered_only source name
  obtain ⟨poisoned, unknown⟩ :=
    emit_unregistered (fun _ => named_of_declarationsOf) unregistered
      (Eq.refl (Actors.healthy? (fun _ => none) name))
  rw [if_neg declared] at poisoned
  exact ⟨entry.trans poisoned, reports.trans unknown⟩

/-- The first declaration of a registered type takes the name. -/
theorem registered_healthy {source : SourceFile} {name : String}
    {before after : List ActorDeclaration} {decl : ActorDeclaration} {typeDef : ActorType}
    (split : declarationsOf source name = before ++ decl :: after)
    (unregistered : ∀ earlier ∈ before, Registry.get earlier.actorType.name = none)
    (isRegistered : Registry.get decl.actorType.name = some typeDef) :
    registered source name = some (.healthy (.initial typeDef decl.vars)) ∧
      registrationsOf source name =
        before.map (fun earlier => (earlier, unknownActorType earlier)) ++
          (ownReports typeDef decl).map (Prod.mk decl) ++
          after.map fun later => (later, duplicateActor later) := by
  have named : ∀ other ∈ before ++ decl :: after, other.name.name = name :=
    fun other inside => named_of_declarationsOf (split ▸ inside)
  obtain rfl : decl.name.name = name := named decl (by simp)
  obtain ⟨entry, reports⟩ := registered_only source decl.name.name
  obtain ⟨poisoned, unknown⟩ :=
    emit_unregistered (fun other inside => named other (List.mem_append_left _ inside))
      unregistered (Eq.refl (Actors.healthy? (fun _ => none) decl.name.name))
  have unhealthy : (emit registerActor (fun _ => none) before).1.healthy? decl.name.name = none := by
    simp only [Actors.healthy?, poisoned]
    cases before <;> rfl
  have step := registerActor_registered unhealthy isRegistered
  rw [split, emit_append_state, emit_cons_state, step] at entry
  rw [split, emitLabelled_append, emitLabelled, step, unknown] at reports
  generalize (emit registerActor (fun _ => none) before).1 = middle at entry reports
  have taken : Actors.healthy? (Function.update middle decl.name.name
      (some (.healthy (.initial typeDef decl.vars)))) decl.name.name =
      some (.initial typeDef decl.vars) := by
    simp only [Actors.healthy?, Function.update_self]
  have others : ∀ other ∈ after, other.name.name = decl.name.name :=
    fun other inside => named other (by simp [inside])
  obtain ⟨kept, duplicates⟩ := emit_taken others taken
  rw [kept, Function.update_self] at entry
  rw [duplicates, ← List.append_assoc] at reports
  exact ⟨entry, reports⟩

/-! ## What a healthy declaration reports of itself -/

mutual

theorem forEachExpr_code : ∀ expr, ∀ diagnostic ∈ forEachExpr unknownSquiggle expr,
    diagnostic.code = .unknownSquiggle
  | .ident _ | .number _ | .bool _ | .null | .atom _ => by simp [forEachExpr, unknownSquiggle]
  | .stringLit fragments _ => forEachFragment_code fragments
  | .squiggle name fragments span => by
    have nested := forEachFragment_code fragments
    simp only [forEachExpr, unknownSquiggle, List.mem_append]
    rintro diagnostic (own | inside)
    · split at own
      · rw [List.mem_singleton.mp own]
        rfl
      · simp at own
    · exact nested diagnostic inside
  | .array items => forEachItem_code items
  | .memberAccess object _ _ => forEachExpr_code object
  | .index object indices _ => by
    have root := forEachExpr_code object
    have keys := forEachItem_code indices
    intro diagnostic inside
    exact (List.mem_append.mp inside).elim (root diagnostic) (keys diagnostic)

theorem forEachItem_code : ∀ items, ∀ diagnostic ∈ forEachItem unknownSquiggle items,
    diagnostic.code = .unknownSquiggle
  | [] => by simp [forEachItem]
  | item :: rest => by
    have first := forEachExpr_code item
    have others := forEachItem_code rest
    intro diagnostic inside
    exact (List.mem_append.mp inside).elim (first diagnostic) (others diagnostic)

theorem forEachFragment_code : ∀ fragments, ∀ diagnostic ∈ forEachFragment unknownSquiggle fragments,
    diagnostic.code = .unknownSquiggle
  | [] => by simp [forEachFragment]
  | .text _ :: rest => forEachFragment_code rest
  | .interpolation expr :: rest => by
    have first := forEachExpr_code expr
    have others := forEachFragment_code rest
    intro diagnostic inside
    exact (List.mem_append.mp inside).elim (first diagnostic) (others diagnostic)

end

theorem checkSquigglesInKwvalue_code {value : KeywordValue} {diagnostic : Diagnostic}
    (inside : diagnostic ∈ checkSquigglesInKwvalue value) : diagnostic.code = .unknownSquiggle := by
  cases value with
  | expr expr => exact forEachExpr_code expr diagnostic inside
  | map pairs =>
    obtain ⟨pair, _, inPair⟩ := List.mem_flatMap.mp inside
    rcases List.mem_append.mp inPair with inKey | inValue
    · exact forEachExpr_code pair.1 diagnostic inKey
    · exact forEachExpr_code pair.2 diagnostic inValue

theorem checkKeywordArgsAgainst_code {provided : List KeywordArg} {expected : List KeywordArgDef}
    {fallback : Span} {context : Option String} {diagnostic : Diagnostic}
    (inside : diagnostic ∈ checkKeywordArgsAgainst provided expected fallback context) :
    diagnostic.code = .unknownKeywordArg ∨ diagnostic.code = .missingRequiredArg := by
  rcases List.mem_append.mp inside with unknown | missing
  · obtain ⟨kw, _, reported⟩ := List.mem_flatMap.mp unknown
    split at reported
    · simp at reported
    · rw [List.mem_singleton.mp reported]
      exact .inl rfl
  · obtain ⟨argDef, _, reported⟩ := List.mem_flatMap.mp missing
    split at reported
    · rw [List.mem_singleton.mp reported]
      exact .inr rfl
    · simp at reported

/-- A declaration that takes its name is neither unknown nor a duplicate. -/
theorem ownReports_code {typeDef : ActorType} {decl : ActorDeclaration} {diagnostic : Diagnostic}
    (inside : diagnostic ∈ ownReports typeDef decl) :
    diagnostic.code ≠ .unknownActorType ∧ diagnostic.code ≠ .duplicateActor := by
  have squiggle (code : diagnostic.code = .unknownSquiggle) :
      diagnostic.code ≠ .unknownActorType ∧ diagnostic.code ≠ .duplicateActor := by
    rw [code]
    decide
  rcases List.mem_append.mp inside with inArgs | inDefaults
  · rcases List.mem_append.mp inArgs with keyword | value
    · rcases checkKeywordArgsAgainst_code keyword with code | code <;> rw [code] <;> decide
    · obtain ⟨kw, _, reported⟩ := List.mem_flatMap.mp value
      exact squiggle (checkSquigglesInKwvalue_code reported)
  · obtain ⟨var, _, reported⟩ := List.mem_flatMap.mp inDefaults
    unfold checkDefault at reported
    cases value : var.default with
    | none => simp [value] at reported
    | some default =>
      rw [value] at reported
      exact squiggle (forEachExpr_code default diagnostic reported)

/-- The declared variables of an actor: the last declaration of a name counts. -/
theorem declaredVars_append (vars : List VarDeclaration) (var : VarDeclaration) (name : String) :
    declaredVars (vars ++ [var]) name =
      if name = var.name.name then some (varType var) else declaredVars vars name := by
  simp only [declaredVars, List.foldl_append, List.foldl_cons, List.foldl_nil]
  exact Function.update_apply _ _ _ _

theorem declaredVars_eq (vars : List VarDeclaration) (name : String) :
    declaredVars vars name = (vars.reverse.find? fun var => var.name.name == name).map varType := by
  induction vars using List.reverseRecOn with
  | nil => rfl
  | append_singleton vars var ih =>
    rw [declaredVars_append, ih, List.reverse_append, List.reverse_singleton, List.singleton_append,
      List.find?_cons]
    by_cases own : name = var.name.name
    · simp [own]
    · rw [if_neg own, beq_false_of_ne (Ne.symm own)]

/-! ## The resolution of a name -/

/-- How a name that a file declares is resolved. If one of its declarations is
of a registered type, the first of those makes the entry, with the initial mode
of its type and its own variables; each declaration before it yields one
unknown type and each after it one duplicate, whatever its type. Otherwise the
name is poisoned and each declaration yields one unknown type. -/
theorem declaration_resolution (source : SourceFile) (name : String)
    (declared : declarationsOf source name ≠ []) :
    validate source =
        (registrations source).map Prod.snd ++ (emit checkItem (registered source) source.items).2 ∧
      ((∃ before decl after typeDef,
        declarationsOf source name = before ++ decl :: after ∧
          (∀ earlier ∈ before, Registry.get earlier.actorType.name = none) ∧
          Registry.get decl.actorType.name = some typeDef ∧
          (∃ actor, registered source name = some (.healthy actor) ∧
            actor.typeDef = typeDef ∧ actor.mode = typeDef.initialMode ∧
            ∀ var, actor.vars var =
              (decl.vars.reverse.find? fun known => known.name.name == var).map varType) ∧
          (∀ diagnostic ∈ ownReports typeDef decl,
            diagnostic.code ≠ .unknownActorType ∧ diagnostic.code ≠ .duplicateActor) ∧
          registrationsOf source name =
            before.map (fun earlier => (earlier, unknownActorType earlier)) ++
              (ownReports typeDef decl).map (Prod.mk decl) ++
              after.map fun later => (later, duplicateActor later)) ∨
      ((∀ decl ∈ declarationsOf source name, Registry.get decl.actorType.name = none) ∧
        registered source name = some .errored ∧
        registrationsOf source name =
          (declarationsOf source name).map fun decl => (decl, unknownActorType decl))) := by
  refine ⟨validate_eq_registrations source, ?_⟩
  cases first : (declarationsOf source name).find? fun decl =>
      (Registry.get decl.actorType.name).isSome with
  | none =>
    have unregistered : ∀ decl ∈ declarationsOf source name,
        Registry.get decl.actorType.name = none := by
      simpa using List.find?_eq_none.mp first
    exact .inr ⟨unregistered, registered_errored declared unregistered⟩
  | some decl =>
    obtain ⟨known, before, after, split, earlier⟩ := List.find?_eq_some_iff_append.mp first
    obtain ⟨typeDef, isRegistered⟩ := Option.isSome_iff_exists.mp known
    have unregistered : ∀ earlier ∈ before, Registry.get earlier.actorType.name = none := by
      simpa using earlier
    obtain ⟨entry, reports⟩ := registered_healthy split unregistered isRegistered
    refine .inl ⟨before, decl, after, typeDef, split, unregistered, isRegistered, ?_, ?_, reports⟩
    · exact ⟨_, entry, rfl, rfl, declaredVars_eq decl.vars⟩
    · exact fun _ => ownReports_code

/-- A poisoned name that the second of its three declarations takes. -/
def shadowedSource : SourceFile where
  items :=
    [.actorDeclaration ⟨⟨"db", ⟨6, 8⟩⟩, ⟨"postgres", ⟨11, 19⟩⟩, [], [], ⟨0, 19⟩⟩,
      .actorDeclaration ⟨⟨"db", ⟨26, 28⟩⟩, ⟨"exec", ⟨31, 35⟩⟩, [], [], ⟨20, 35⟩⟩,
      .actorDeclaration ⟨⟨"db", ⟨42, 44⟩⟩, ⟨"postgres", ⟨47, 55⟩⟩, [], [], ⟨36, 55⟩⟩]

theorem declaration_resolution_shadowed :
    ∃ actor, registered shadowedSource "db" = some (.healthy actor) := by
  have declared : declarationsOf shadowedSource "db" ≠ [] := List.cons_ne_nil _ _
  obtain ⟨-, healthy | poisoned⟩ := declaration_resolution shadowedSource "db" declared
  · obtain ⟨_, _, _, _, -, -, -, ⟨actor, entry, -⟩, -⟩ := healthy
    exact ⟨actor, entry⟩
  · obtain ⟨unregistered, -⟩ := poisoned
    have known := unregistered ⟨⟨"db", ⟨26, 28⟩⟩, ⟨"exec", ⟨31, 35⟩⟩, [], [], ⟨20, 35⟩⟩
      (by simp [declarationsOf, declarations, shadowedSource])
    cases known

end Ill.Validate
