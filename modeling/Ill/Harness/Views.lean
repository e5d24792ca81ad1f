import Mathlib.Data.List.Nodup
import Mathlib.Data.String.Basic
import Ill.Harness.Instances

/-!
# What an actor shows

The view of a live instance holds the values of its declared variables:
defaults, overridden on the command line for an `args_actor`. Every value
inhabits the type that the validator registered for the variable.
-/

namespace Ill

open Ast Actor Base Validate

/-- Every field of a dict is in a table of types and inhabits its type there. -/
def DictTyped (fields : Dict) (table : String → Option ValueType) : Prop :=
  ∀ name value, fields.get name = some value →
    ∃ ty, table name = some ty ∧ value.isOfType ty = true

theorem DictTyped.nil (table : String → Option ValueType) : DictTyped [] table := by
  intro name value present
  simp [Dict.get] at present

/-- Writing a field and its type keeps a dict typed. -/
theorem DictTyped.insert {fields : Dict} {table : String → Option ValueType}
    (typed : DictTyped fields table) {name : String} {value : Value} {ty : ValueType}
    (inhabits : value.isOfType ty = true) :
    DictTyped (fields.insert name value) (Function.update table name (some ty)) := by
  intro other held present
  by_cases same : other = name
  · subst same
    rw [Dict.get_insert_self] at present
    refine ⟨ty, Function.update_self _ _ _, ?_⟩
    rwa [← Option.some.inj present]
  · rw [Dict.get_insert_of_ne same] at present
    rw [Function.update_of_ne same]
    exact typed other held present

/-- A declared variable with the value that the default of its declaration has. -/
def DeclaredAs (var : VarDeclaration) (declared : DeclaredVar) : Prop :=
  declared.name = var.name.name ∧
    match declared.default with
    | some value => value.isOfType (varType var) = true
    | none => varType var = .unknown

/-! ## `args_actor` -/

namespace Actor.ArgsActor

/-- A text read for a default is of the default's type. -/
theorem isOfType_coerceTo {raw varName : String} {target value : Value} {ty : ValueType}
    (coerced : coerceTo raw target varName = .ok value) (inhabits : target.isOfType ty = true) :
    value.isOfType ty = true := by
  cases target with
  | string text =>
    cases coerced
    cases ty <;> first | rfl | exact nomatch inhabits
  | number n =>
    rw [coerceTo] at coerced
    split at coerced
    · cases coerced
      cases ty <;> first | rfl | exact nomatch inhabits
    · simp at coerced
  | bool b =>
    rw [coerceTo] at coerced
    split at coerced
    · cases coerced
      cases ty <;> first | rfl | exact nomatch inhabits
    · split at coerced
      · cases coerced
        cases ty <;> first | rfl | exact nomatch inhabits
      · simp at coerced
  | atom name =>
    cases coerced
    cases ty <;> first | rfl | exact nomatch inhabits
  | float _ | bytes _ | array _ | dict _ | null => simp [coerceTo] at coerced

theorem isOfType_memberValue {cliArgs : CliArgs} {var : VarDeclaration} {declared : DeclaredVar}
    (same : DeclaredAs var declared) {value : Value}
    (found : memberValue cliArgs declared = .ok value) : value.isOfType (varType var) = true := by
  obtain ⟨_, default⟩ := same
  unfold memberValue at found
  split at found
  · next raw held _ known =>
    rw [known] at default
    exact isOfType_coerceTo found default
  · next known =>
    rw [known] at default
    rw [default]
    exact Value.isOfType_unknown value
  · next held _ known =>
    rw [known] at default
    cases found
    exact default
  · simp at found

/-- The members are typed as the validator types the declared variables. -/
theorem collectMembers_typed {cliArgs : CliArgs} {vars : List VarDeclaration}
    {declared : List DeclaredVar} (same : List.Forall₂ DeclaredAs vars declared)
    {members final : Dict} {table : String → Option ValueType} (typed : DictTyped members table)
    (collected : collectMembers cliArgs members declared = .ok final) :
    DictTyped final (vars.foldl
      (fun table var => Function.update table var.name.name (some (varType var))) table) := by
  induction same generalizing members table with
  | nil =>
    cases collected
    exact typed
  | @cons var first vars rest head _ ih =>
    obtain ⟨value, found, later⟩ := bind_eq_ok.mp collected
    refine ih ?_ later
    rw [head.1]
    exact typed.insert (isOfType_memberValue head found)

end Actor.ArgsActor

/-! ## Slots -/

namespace Members

/-- Slots are sorted by name, and their values inhabit the types of a table. -/
structure SlotsTyped (slots : List (String × Option Value)) (table : String → Option ValueType) :
    Prop where
  sorted : slots.Pairwise fun first second => first.1 < second.1
  typed : ∀ name value, (name, some value) ∈ slots →
    ∃ ty, table name = some ty ∧ value.isOfType ty = true

theorem mem_insertSorted {name : String} {slot : Option Value}
    {slots : List (String × Option Value)} {entry : String × Option Value}
    (member : entry ∈ insertSorted name slot slots) : entry = (name, slot) ∨ entry ∈ slots := by
  induction slots with
  | nil => exact .inl (List.mem_singleton.mp member)
  | cons first rest ih =>
    obtain ⟨held, value⟩ := first
    rw [insertSorted] at member
    split at member
    · rcases List.mem_cons.mp member with own | later
      · exact .inl own
      · exact .inr (List.mem_cons_of_mem _ later)
    · split at member
      · exact List.mem_cons.mp member
      · rcases List.mem_cons.mp member with rfl | later
        · exact .inr List.mem_cons_self
        · exact (ih later).imp id (List.mem_cons_of_mem _)

theorem sorted_insertSorted {name : String} {slot : Option Value}
    {slots : List (String × Option Value)}
    (sorted : slots.Pairwise fun first second => first.1 < second.1) :
    (insertSorted name slot slots).Pairwise fun first second => first.1 < second.1 := by
  induction slots with
  | nil => exact List.pairwise_singleton _ _
  | cons first rest ih =>
    obtain ⟨held, value⟩ := first
    obtain ⟨below, later⟩ := List.pairwise_cons.mp sorted
    rw [insertSorted]
    split
    · next same => exact List.pairwise_cons.mpr ⟨same ▸ below, later⟩
    · next different =>
      split
      · next smaller =>
        refine List.pairwise_cons.mpr ⟨fun entry member => ?_, sorted⟩
        rcases List.mem_cons.mp member with rfl | inside
        · exact smaller
        · exact lt_trans smaller (below entry inside)
      · next larger =>
        refine List.pairwise_cons.mpr ⟨fun entry member => ?_, ih later⟩
        rcases mem_insertSorted member with rfl | inside
        · exact lt_of_le_of_ne (not_lt.mp larger) (Ne.symm different)
        · exact below entry inside

theorem mem_insertSorted_self (name : String) (slot : Option Value)
    (slots : List (String × Option Value)) : (name, slot) ∈ insertSorted name slot slots := by
  induction slots with
  | nil => exact List.mem_singleton.mpr rfl
  | cons first rest ih =>
    obtain ⟨held, value⟩ := first
    rw [insertSorted]
    split
    · exact List.mem_cons_self
    · split
      · exact List.mem_cons_self
      · exact List.mem_cons_of_mem _ ih

/-- In a sorted map the slot inserted is the only one of its name. -/
theorem eq_of_mem_insertSorted {name : String} {slot : Option Value}
    {slots : List (String × Option Value)}
    (sorted : slots.Pairwise fun first second => first.1 < second.1)
    {entry : String × Option Value} (member : entry ∈ insertSorted name slot slots)
    (same : entry.1 = name) : entry = (name, slot) := by
  have distinct : ((insertSorted name slot slots).map Prod.fst).Nodup := by
    rw [List.Nodup, List.pairwise_map]
    exact (sorted_insertSorted sorted).imp ne_of_lt
  exact List.inj_on_of_nodup_map distinct member (mem_insertSorted_self name slot slots) same

theorem SlotsTyped.insert {slots : List (String × Option Value)}
    {table : String → Option ValueType} (typed : SlotsTyped slots table) {var : VarDeclaration}
    {declared : DeclaredVar} (same : DeclaredAs var declared) :
    SlotsTyped (insertSorted declared.name declared.default slots)
      (Function.update table var.name.name (some (varType var))) := by
  obtain ⟨named, default⟩ := same
  refine ⟨sorted_insertSorted typed.sorted, fun name value member => ?_⟩
  by_cases own : name = declared.name
  · have entry := eq_of_mem_insertSorted typed.sorted member own
    rw [← (Prod.mk.inj entry).2] at default
    refine ⟨varType var, ?_, default⟩
    rw [own, named, Function.update_self]
  · rw [Function.update_of_ne (named ▸ own)]
    rcases mem_insertSorted member with entry | older
    · exact absurd (Prod.mk.inj entry).1 own
    · exact typed.typed name value older

theorem fromDeclarations_typed {vars : List VarDeclaration} {declared : List DeclaredVar}
    (same : List.Forall₂ DeclaredAs vars declared) :
    SlotsTyped (fromDeclarations declared).slots (declaredVars vars) := by
  have folded : ∀ {slots : List (String × Option Value)} {table : String → Option ValueType},
      SlotsTyped slots table →
      SlotsTyped (declared.foldl (fun slots var => insertSorted var.name var.default slots) slots)
        (vars.foldl
          (fun table var => Function.update table var.name.name (some (varType var))) table) := by
    induction same with
    | nil =>
      intro slots table typed
      exact typed
    | cons head _ ih =>
      intro slots table typed
      exact ih (typed.insert head)
  exact folded ⟨List.Pairwise.nil, fun _ _ member => absurd member List.not_mem_nil⟩

/-- What is assigned is typed as it was declared. -/
theorem assignedView_typed {members : Members} {table : String → Option ValueType}
    (typed : ∀ name value, (name, some value) ∈ members.slots →
      ∃ ty, table name = some ty ∧ value.isOfType ty = true) :
    DictTyped members.assignedView table := by
  obtain ⟨slots⟩ := members
  have folded : ∀ {fields : Dict}, DictTyped fields table →
      DictTyped (slots.foldl
        (fun fields slot =>
          match slot.2 with
          | some value => fields.insert slot.1 value
          | none => fields) fields) table := by
    induction slots with
    | nil =>
      intro fields held
      exact held
    | cons slot rest ih =>
      intro fields held
      obtain ⟨name, value⟩ := slot
      refine ih (fun name value member => typed name value (List.mem_cons_of_mem _ member)) ?_
      cases value with
      | none => exact held
      | some value =>
        obtain ⟨ty, known, inhabits⟩ := typed name value List.mem_cons_self
        have inserted : DictTyped (fields.insert name value) _ := held.insert inhabits
        rwa [← known, Function.update_eq_self] at inserted
  exact folded (.nil table)

end Members

/-! ## Construction and execution -/

namespace Actor.LiveActor

/-- A constructed actor shows its declared variables at their types. -/
theorem construct_selfView {ext : External} {args : ConstructArgs} {actorType : ActorType}
    {actor : LiveActor} (constructed : construct ext args actorType = .ok actor)
    {vars : List VarDeclaration} (same : List.Forall₂ DeclaredAs vars args.vars) {view : Dict}
    (shown : actor.selfView = some view) : DictTyped view (declaredVars vars) := by
  cases actorType with
  | httpClient => simp [construct] at constructed
  | pgClient =>
    cases constructed
    simp [selfView] at shown
  | mqttClient =>
    cases constructed
    simp [selfView] at shown
  | exec =>
    obtain ⟨inst, made, rfl⟩ := map_eq_ok.mp constructed
    simp [selfView] at shown
  | container =>
    obtain ⟨inst, made, rfl⟩ := map_eq_ok.mp constructed
    obtain rfl := Option.some.inj shown
    rw [(Container.construct_spec made).2]
    exact Members.assignedView_typed (Members.fromDeclarations_typed same).typed
  | argsActor =>
    obtain ⟨inst, made, rfl⟩ := map_eq_ok.mp constructed
    obtain rfl := Option.some.inj shown
    unfold ArgsActor.construct at made
    split at made
    · simp at made
    · obtain ⟨members, collected, rfl⟩ := map_eq_ok.mp made
      exact ArgsActor.collectMembers_typed same (.nil _) collected

/-- A command does not change what an actor shows. -/
theorem execute_selfView (ext : External) (cmd : String) (args : CommandArgs) (actor : LiveActor) :
    (actor.execute ext cmd args).1.selfView = actor.selfView := by
  cases actor <;> rfl

end Actor.LiveActor

/-! ## Runs -/

namespace Harness

/-- Evaluated variables are declared as in the source. -/
theorem evalVars_declared {scope : Scope} {vars : List VarDeclaration}
    {declared : List DeclaredVar} (evaluated : evalVars scope vars = .ok declared) :
    List.Forall₂ DeclaredAs vars declared := by
  induction vars generalizing declared with
  | nil =>
    cases evaluated
    exact .nil
  | cons var rest ih =>
    obtain ⟨marks, name, value, span⟩ := var
    cases value with
    | none =>
      obtain ⟨others, later, returned⟩ := bind_eq_ok.mp evaluated
      cases returned
      exact .cons ⟨rfl, rfl⟩ (ih later)
    | some expr =>
      obtain ⟨default, known, tail⟩ := bind_eq_ok.mp evaluated
      obtain ⟨value, held, rfl⟩ := map_eq_ok.mp known
      obtain ⟨others, later, returned⟩ := bind_eq_ok.mp tail
      cases returned
      exact .cons ⟨rfl, eval_isOfType held⟩ (ih later)

/-- The types the validator holds for the variables of an actor. -/
def varTypes (actors : Actors) (name field : String) : Option ValueType :=
  (actors.healthy? name).bind fun actor => actor.vars field

/-- Every live instance shows its declared variables at their types. -/
def ViewsTyped (source : SourceFile) (harness : HarnessState LiveActor) : Prop :=
  ∀ name actor, harness.get name = some actor → ∀ view, actor.selfView = some view →
    DictTyped view (varTypes (registered source) name)

variable {world : List (Event LiveActor) → External} {regex : Regex} {source : SourceFile}

theorem viewsTyped_of_statements {block : AsBlock} {actorType : ActorType}
    (first : BlockRun LiveActor) {final : BlockRun LiveActor} {indexed : List (Statement × Nat)}
    (typed : ViewsTyped source first.harness)
    (chain : Chain (StatementDone (liveRuntime world) regex block actorType) first indexed final) :
    ViewsTyped source final.harness := by
  refine Chain.prefix_invariant (fun _ run => ViewsTyped source run.harness) ?_ typed chain
  intro prior stmt after run next split _ here done
  rcases done.instances with same | ⟨cmd, outcome, _, dispatched⟩
  · exact same ▸ here
  · obtain ⟨cmdDef, consumed, args, inst, successor, _, _, present, answered, _, get⟩ :=
      dispatched.effect
    intro name actor found view shown
    rw [get name] at found
    split at found
    · next own =>
      have kept := LiveActor.execute_selfView (world run.harness.events) cmdDef.name args inst
      rw [show inst.execute (world run.harness.events) cmdDef.name args = (successor, outcome)
        from answered, Option.some.inj found, shown] at kept
      rw [own]
      exact here _ _ present view kept.symm
    · exact here name actor found view shown

/-- A completed prefix of an accepted file leaves every view typed. -/
theorem viewsTyped_of_completed (accepted : accepts source = true) {sourceDir : String}
    {before after : List TopLevel} (split : source.items = before ++ after)
    {harness : HarnessState LiveActor}
    (chain : Chain (ItemDone (liveRuntime world) regex sourceDir) .start before harness) :
    ViewsTyped source harness := by
  have none : ViewsTyped source .start := by
    intro name actor found
    simp at found
  refine Chain.prefix_invariant (fun _ harness => ViewsTyped source harness) ?_ none chain
  intro visited item rest current next prior _ here done
  cases done with
  | @ran block inst actorType run live registered statements =>
    exact viewsTyped_of_statements ⟨current, .new⟩ here statements
  | @constructed decl actorType args inst known evaluated constructed =>
    intro name actor found view shown
    rw [HarnessState.get_push, HarnessState.get_log] at found
    rcases older : current.get name with _ | held
    · rw [older, Option.none_or] at found
      split at found
      · next own =>
        obtain rfl := Option.some.inj found
        have member : decl ∈ declarations source.items := by
          rw [split, prior]
          simp [declarations]
        obtain ⟨typeDef, _, entry⟩ := (registers_of_accepts accepted).declared decl member
        obtain ⟨keyword, _, later⟩ := bind_eq_ok.mp evaluated
        obtain ⟨vars, evaluatedVars, returned⟩ := bind_eq_ok.mp later
        cases returned
        have declared := LiveActor.construct_selfView constructed
          (evalVars_declared evaluatedVars) shown
        have same : varTypes (Validate.registered source) name = declaredVars decl.vars := by
          funext field
          rw [own, varTypes, entry]
          rfl
        rw [same]
        exact declared
      · simp at found
    · rw [older, Option.some_or] at found
      exact here name actor (older.trans found) view shown

end Harness

end Ill
