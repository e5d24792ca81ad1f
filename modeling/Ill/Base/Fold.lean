import Mathlib.Algebra.GroupWithZero.Nat
import Mathlib.Data.List.Basic
import Mathlib.Data.List.Forall2
import Mathlib.Order.Nat

/-!
# Sequential folds that stop or report

Two ways of visiting a list in order. `walk` threads a state and stops at the
first item whose step reports a failure; `emit` threads a state through every
item and concatenates what the steps report. Both come with the rules a
client needs: splitting at an append, locating the first failure, and carrying
an invariant or a reflexive-transitive relation along the visited prefix.
-/

namespace Ill.Base

universe u v w

section Walk

variable {State : Type u} {Item : Type v} {Failure : Type w}

/-- Visit the items in order until a step reports a failure. The state reached
is returned in both cases. -/
def walk (step : State → Item → State × Option Failure) :
    State → List Item → State × Option Failure
  | state, [] => (state, none)
  | state, item :: rest =>
    match step state item with
    | (next, none) => walk step next rest
    | (next, some failure) => (next, some failure)

variable {step : State → Item → State × Option Failure}

@[simp] theorem walk_nil (state : State) : walk step state [] = (state, none) := rfl

theorem walk_cons (state : State) (item : Item) (rest : List Item) :
    walk step state (item :: rest) =
      match step state item with
      | (next, none) => walk step next rest
      | (next, some failure) => (next, some failure) := rfl

/-- A completed first step continues with the rest. -/
theorem walk_cons_of_completed {state next : State} {item : Item}
    (completed : step state item = (next, none)) (rest : List Item) :
    walk step state (item :: rest) = walk step next rest := by
  rw [walk_cons, completed]

/-- A failed first step is the result of the whole walk. -/
theorem walk_cons_of_failed {state next : State} {item : Item} {failure : Failure}
    (failed : step state item = (next, some failure)) (rest : List Item) :
    walk step state (item :: rest) = (next, some failure) := by
  rw [walk_cons, failed]

/-- A completed prefix hands its state to the suffix. -/
theorem walk_append_of_completed {state middle : State} {before : List Item}
    (completed : walk step state before = (middle, none)) (after : List Item) :
    walk step state (before ++ after) = walk step middle after := by
  induction before generalizing state with
  | nil =>
    simp only [walk_nil, Prod.mk.injEq, and_true] at completed
    rw [List.nil_append, completed]
  | cons item rest ih =>
    rw [List.cons_append]
    rcases stepped : step state item with ⟨next, _ | failure⟩
    · rw [walk_cons_of_completed stepped] at completed ⊢
      exact ih completed
    · rw [walk_cons_of_failed stepped] at completed
      simp at completed

/-- A failed prefix is the result of the whole walk. -/
theorem walk_append_of_failed {state final : State} {before : List Item} {failure : Failure}
    (failed : walk step state before = (final, some failure)) (after : List Item) :
    walk step state (before ++ after) = (final, some failure) := by
  induction before generalizing state with
  | nil => simp at failed
  | cons item rest ih =>
    rw [List.cons_append]
    rcases stepped : step state item with ⟨next, _ | first⟩
    · rw [walk_cons_of_completed stepped] at failed ⊢
      exact ih failed
    · rw [walk_cons_of_failed stepped] at failed ⊢
      exact failed

/-- Items that do the same where the walk gets to them can take each other's place. -/
theorem walk_replaced {state : State} {before items others : List Item}
    (same : ∀ middle, walk step state before = (middle, none) →
      walk step middle items = walk step middle others) (after : List Item) :
    walk step state (before ++ (items ++ after)) = walk step state (before ++ (others ++ after)) := by
  rcases visited : walk step state before with ⟨middle, _ | failure⟩
  · rw [walk_append_of_completed visited, walk_append_of_completed visited]
    have alike := same middle visited
    rcases walked : walk step middle items with ⟨next, _ | failure⟩
    · rw [walk_append_of_completed walked, walk_append_of_completed (alike.symm.trans walked)]
    · rw [walk_append_of_failed walked, walk_append_of_failed (alike.symm.trans walked)]
  · rw [walk_append_of_failed visited, walk_append_of_failed visited]

/-- A walk that completes has completed every prefix. -/
theorem walk_append_completed {state final : State} {before after : List Item}
    (completed : walk step state (before ++ after) = (final, none)) :
    ∃ middle, walk step state before = (middle, none) ∧
      walk step middle after = (final, none) := by
  rcases visited : walk step state before with ⟨middle, _ | failure⟩
  · exact ⟨middle, rfl, by rw [← walk_append_of_completed visited, completed]⟩
  · rw [walk_append_of_failed visited] at completed
    simp at completed

/-- An invariant that every step preserves, failed or not, holds where the walk
stops. -/
theorem walk_invariant (invariant : State → Prop)
    (preserved : ∀ state item, invariant state → invariant (step state item).1) {state : State}
    (holds : invariant state) (items : List Item) : invariant (walk step state items).1 := by
  induction items generalizing state with
  | nil => exact holds
  | cons item rest ih =>
    have kept := preserved state item holds
    rcases stepped : step state item with ⟨next, _ | failure⟩
    · rw [stepped] at kept
      rw [walk_cons_of_completed stepped]
      exact ih kept
    · rw [stepped] at kept
      rw [walk_cons_of_failed stepped]
      exact kept

/-- An invariant that every step preserves where the walk reaches it holds where
the walk stops. -/
theorem walk_reached_invariant (invariant : State → Prop) {items : List Item} {state : State}
    (preserved : ∀ before item after current, items = before ++ item :: after →
      walk step state before = (current, none) → invariant current →
      invariant (step current item).1)
    (holds : invariant state) : invariant (walk step state items).1 := by
  have extend : ∀ rest before current, items = before ++ rest →
      walk step state before = (current, none) → invariant current →
        invariant (walk step current rest).1 := by
    intro rest
    induction rest with
    | nil => exact fun _ _ _ _ here => here
    | cons item rest ih =>
      intro before current whole visited here
      have kept := preserved before item rest current whole visited here
      rcases stepped : step current item with ⟨next, _ | failure⟩
      · rw [stepped] at kept
        rw [walk_cons_of_completed stepped]
        refine ih (before ++ [item]) next ?_ ?_ kept
        · rw [whole, List.append_assoc, List.singleton_append]
        · rw [walk_append_of_completed visited, walk_cons_of_completed stepped, walk_nil]
      · rw [stepped] at kept
        rw [walk_cons_of_failed stepped]
        exact kept
  exact extend items [] state rfl rfl holds

/-- Zero or more steps of a relation, one for each item in order. -/
inductive Chain (relation : State → Item → State → Prop) : State → List Item → State → Prop where
  | nil {state} : Chain relation state [] state
  | cons {state item next rest final} (head : relation state item next)
      (tail : Chain relation next rest final) : Chain relation state (item :: rest) final

/-- Chains compose where they meet. -/
theorem Chain.append {relation : State → Item → State → Prop} {state middle final : State}
    {before after : List Item} (first : Chain relation state before middle)
    (second : Chain relation middle after final) :
    Chain relation state (before ++ after) final := by
  induction first with
  | nil => exact second
  | cons head _ ih => exact .cons head (ih second)

/-- Every item of a chain is stepped over. -/
theorem Chain.step_of_mem {relation : State → Item → State → Prop} {state final : State}
    {items : List Item} (chain : Chain relation state items final) {item : Item}
    (member : item ∈ items) : ∃ before after, relation before item after := by
  induction chain with
  | nil => simp at member
  | cons head _ ih =>
    rcases List.mem_cons.mp member with rfl | later
    · exact ⟨_, _, head⟩
    · exact ih later

@[simp] theorem chain_nil_iff {relation : State → Item → State → Prop} {state final : State} :
    Chain relation state [] final ↔ state = final := by
  constructor
  · rintro ⟨⟩
    rfl
  · rintro rfl
    exact .nil

theorem chain_cons_iff {relation : State → Item → State → Prop} {state final : State} {item : Item}
    {rest : List Item} :
    Chain relation state (item :: rest) final ↔
      ∃ next, relation state item next ∧ Chain relation next rest final := by
  constructor
  · rintro (_ | ⟨head, tail⟩)
    exact ⟨_, head, tail⟩
  · rintro ⟨next, head, tail⟩
    exact .cons head tail

/-- A chain over an append passes through a state in between. -/
theorem chain_append_iff {relation : State → Item → State → Prop} {state final : State}
    {before after : List Item} :
    Chain relation state (before ++ after) final ↔
      ∃ middle, Chain relation state before middle ∧ Chain relation middle after final := by
  constructor
  · intro chain
    induction before generalizing state with
    | nil => exact ⟨state, .nil, chain⟩
    | cons item rest ih =>
      obtain ⟨next, head, tail⟩ := chain_cons_iff.mp chain
      obtain ⟨middle, first, second⟩ := ih tail
      exact ⟨middle, .cons head first, second⟩
  · rintro ⟨middle, first, second⟩
    exact first.append second

/-- Where a relation describes exactly the completed steps, a completed walk is
exactly a chain of it. -/
theorem walk_completed_iff {relation : State → Item → State → Prop}
    (exact_step : ∀ state item next, step state item = (next, none) ↔ relation state item next)
    {state final : State} {items : List Item} :
    walk step state items = (final, none) ↔ Chain relation state items final := by
  constructor
  · intro completed
    induction items generalizing state with
    | nil =>
      simp only [walk_nil, Prod.mk.injEq, and_true] at completed
      exact completed ▸ .nil
    | cons item rest ih =>
      rcases stepped : step state item with ⟨next, _ | failure⟩
      · rw [walk_cons_of_completed stepped] at completed
        exact .cons ((exact_step _ _ _).mp stepped) (ih completed)
      · rw [walk_cons_of_failed stepped] at completed
        simp at completed
  · intro chain
    induction chain with
    | nil => rfl
    | cons head _ ih => rw [walk_cons_of_completed ((exact_step _ _ _).mpr head), ih]

/-- A failed walk failed at exactly one item, after completing everything
before it and visiting nothing after it. -/
theorem walk_failed_iff {state final : State} {items : List Item} {failure : Failure} :
    walk step state items = (final, some failure) ↔
      ∃ before item after middle, items = before ++ item :: after ∧
        walk step state before = (middle, none) ∧ step middle item = (final, some failure) := by
  constructor
  · intro failed
    induction items generalizing state with
    | nil => simp at failed
    | cons item rest ih =>
      rcases stepped : step state item with ⟨next, _ | first⟩
      · rw [walk_cons_of_completed stepped] at failed
        obtain ⟨before, bad, after, middle, rfl, completed, badStep⟩ := ih failed
        exact ⟨item :: before, bad, after, middle, rfl,
          by rw [walk_cons_of_completed stepped, completed], badStep⟩
      · rw [walk_cons_of_failed stepped] at failed
        exact ⟨[], item, rest, state, rfl, rfl, by rw [stepped, failed]⟩
  · rintro ⟨before, item, after, middle, rfl, completed, badStep⟩
    rw [walk_append_of_completed completed, walk_cons_of_failed badStep]

/-- A property of the visited prefix and the state, preserved by every step in
its place, holds at the end of a chain. -/
theorem Chain.prefix_invariant {relation : State → Item → State → Prop}
    (holds : List Item → State → Prop) {items : List Item} {state final : State}
    (preserved : ∀ before item after current next, items = before ++ item :: after →
      Chain relation state before current → holds before current → relation current item next →
      holds (before ++ [item]) next)
    (start : holds [] state) (chain : Chain relation state items final) : holds items final := by
  have extend : ∀ {rest : List Item} {current last : State}, Chain relation current rest last →
      ∀ before, items = before ++ rest → Chain relation state before current →
        holds before current → holds items last := by
    intro rest current last tail
    induction tail with
    | nil =>
      intro before whole _ here
      rw [whole, List.append_nil]
      exact here
    | @cons current item next rest last head tail ih =>
      intro before whole visited here
      refine ih (before ++ [item]) ?_ (visited.append (.cons head .nil)) ?_
      · rw [whole, List.append_assoc, List.singleton_append]
      · exact preserved before item rest current next whole visited here head
  exact extend chain [] rfl .nil start

end Walk

section Emit

variable {State : Type u} {Item : Type v} {Output : Type w}

/-- Visit every item, threading a state and concatenating what the steps report. -/
def emit (step : State → Item → State × List Output) : State → List Item → State × List Output
  | state, [] => (state, [])
  | state, item :: rest =>
    let stepped := step state item
    let visited := emit step stepped.1 rest
    (visited.1, stepped.2 ++ visited.2)

variable {step : State → Item → State × List Output}

@[simp] theorem emit_nil (state : State) : emit step state [] = (state, []) := rfl

@[simp] theorem emit_cons_state (state : State) (item : Item) (rest : List Item) :
    (emit step state (item :: rest)).1 = (emit step (step state item).1 rest).1 := rfl

@[simp] theorem emit_cons_output (state : State) (item : Item) (rest : List Item) :
    (emit step state (item :: rest)).2 =
      (step state item).2 ++ (emit step (step state item).1 rest).2 := rfl

/-- The state after an append is the state of the suffix started where the
prefix ended. -/
theorem emit_append_state (state : State) (before after : List Item) :
    (emit step state (before ++ after)).1 = (emit step (emit step state before).1 after).1 := by
  induction before generalizing state with
  | nil => rfl
  | cons item rest ih => exact ih _

/-- The output of an append is the two outputs in order. -/
theorem emit_append_output (state : State) (before after : List Item) :
    (emit step state (before ++ after)).2 =
      (emit step state before).2 ++ (emit step (emit step state before).1 after).2 := by
  induction before generalizing state with
  | nil => rfl
  | cons item rest ih =>
    rw [List.cons_append, emit_cons_output, ih, emit_cons_output, List.append_assoc]
    rfl

theorem emit_append (state : State) (before after : List Item) :
    emit step state (before ++ after) =
      let first := emit step state before
      let second := emit step first.1 after
      (second.1, first.2 ++ second.2) :=
  Prod.ext (emit_append_state state before after) (emit_append_output state before after)

/-- Items that do the same where the visit gets to them can take each other's place. -/
theorem emit_replaced {state : State} {before items others : List Item}
    (same : emit step (emit step state before).1 items =
      emit step (emit step state before).1 others) (after : List Item) :
    emit step state (before ++ (items ++ after)) = emit step state (before ++ (others ++ after)) := by
  simp only [emit_append, same]

/-- A silent visit was silent at every item, in the state reached there. -/
theorem emit_silent_at {state : State} {before after : List Item} {item : Item}
    (silent : (emit step state (before ++ item :: after)).2 = []) :
    (step (emit step state before).1 item).2 = [] := by
  rw [emit_append_output, emit_cons_output] at silent
  exact (List.append_eq_nil_iff.mp (List.append_eq_nil_iff.mp silent).2).1

/-- A silent visit was silent on every prefix. -/
theorem emit_silent_prefix {state : State} {before after : List Item}
    (silent : (emit step state (before ++ after)).2 = []) : (emit step state before).2 = [] := by
  rw [emit_append_output] at silent
  exact (List.append_eq_nil_iff.mp silent).1

/-- An invariant that every step preserves holds at the end of the visit. -/
theorem emit_invariant (invariant : State → Prop) {items : List Item} {state : State}
    (preserved : ∀ before, ∀ item ∈ items, invariant before → invariant (step before item).1)
    (holds : invariant state) : invariant (emit step state items).1 := by
  induction items generalizing state with
  | nil => exact holds
  | cons item rest ih =>
    exact ih (fun before other member => preserved before other (List.mem_cons_of_mem _ member))
      (preserved state item List.mem_cons_self holds)

/-- What a property holds of in every step's output, it holds of in the whole output. -/
theorem emit_outputs {property : Output → Prop} {items : List Item} {state : State}
    (each : ∀ before, ∀ item ∈ items, ∀ output ∈ (step before item).2, property output) :
    ∀ output ∈ (emit step state items).2, property output := by
  induction items generalizing state with
  | nil => simp
  | cons item rest ih =>
    intro output member
    rw [emit_cons_output, List.mem_append] at member
    rcases member with here | later
    · exact each state item List.mem_cons_self output here
    · exact ih (fun before other member => each before other (List.mem_cons_of_mem _ member))
        output later

/-- A visit whose steps report a view of what other steps do. -/
theorem emit_map {Other : Type*} {viewed : State → Item → State × List Other} {view : Output → Other}
    (same : ∀ state item, viewed state item = ((step state item).1, (step state item).2.map view))
    (state : State) (items : List Item) :
    emit viewed state items = ((emit step state items).1, (emit step state items).2.map view) := by
  induction items generalizing state with
  | nil => rfl
  | cons item rest ih => rw [emit, same, ih, emit_cons_output, List.map_append, emit_cons_state]

/-- If the cost of every step is covered by what it gains and what the potential
falls by, the cost of a visit is covered by what it gains and the first potential. -/
theorem emit_amortized {potential : State → Nat} {cost gain : Output → Nat} {invariant : State → Prop}
    {items : List Item} (preserved : ∀ before item, invariant before → invariant (step before item).1)
    (covered : ∀ before, ∀ item ∈ items, invariant before →
      ((step before item).2.map cost).sum + potential (step before item).1 ≤
        potential before + ((step before item).2.map gain).sum)
    (state : State) (holds : invariant state) :
    ((emit step state items).2.map cost).sum + potential (emit step state items).1 ≤
      potential state + ((emit step state items).2.map gain).sum := by
  induction items generalizing state with
  | nil => simp
  | cons item rest ih =>
    have first := covered state item List.mem_cons_self holds
    have later := ih (fun before other member => covered before other (List.mem_cons_of_mem _ member))
      _ (preserved state item holds)
    rw [emit_cons_state, emit_cons_output, List.map_append, List.map_append, List.sum_append,
      List.sum_append]
    omega

/-- What a visit reports, each output with the item it was reported of. -/
def emitLabelled (step : State → Item → State × List Output) :
    State → List Item → List (Item × Output)
  | _, [] => []
  | state, item :: rest =>
    (step state item).2.map (Prod.mk item) ++ emitLabelled step (step state item).1 rest

/-- The labels add nothing to the output. -/
theorem emitLabelled_append (state : State) (before after : List Item) :
    emitLabelled step state (before ++ after) =
      emitLabelled step state before ++ emitLabelled step (emit step state before).1 after := by
  induction before generalizing state with
  | nil => rfl
  | cons item rest ih =>
    rw [List.cons_append, emitLabelled, emitLabelled, ih, List.append_assoc, emit_cons_state]

theorem map_emitLabelled (state : State) (items : List Item) :
    (emitLabelled step state items).map Prod.snd = (emit step state items).2 := by
  induction items generalizing state with
  | nil => rfl
  | cons item rest ih =>
    rw [emitLabelled, List.map_append, ih, emit_cons_output, List.map_map]
    exact congrArg (· ++ _) (List.map_id _)

/-- One machine simulates another on items that are alike, if they report the same
of alike items in related states and stay related. -/
theorem emit_simulation {Other Twin : Type*} {mimic : Other → Twin → Other × List Output}
    (alike : Item → Twin → Prop) (related : State → Other → Prop)
    (step_related : ∀ state other item twin, alike item twin → related state other →
      related (step state item).1 (mimic other twin).1 ∧ (step state item).2 = (mimic other twin).2)
    {items : List Item} {twins : List Twin} (pairwise : List.Forall₂ alike items twins)
    {state : State} {other : Other} (start : related state other) :
    related (emit step state items).1 (emit mimic other twins).1 ∧
      (emit step state items).2 = (emit mimic other twins).2 := by
  induction pairwise generalizing state other with
  | nil => exact ⟨start, rfl⟩
  | cons head _ ih =>
    obtain ⟨next, same⟩ := step_related _ _ _ _ head start
    obtain ⟨final, rest⟩ := ih next
    exact ⟨final, by rw [emit_cons_output, emit_cons_output, same, rest]⟩

/-- Two visits of items that are alike report the same, if alike items report
the same in related states and keep them related. -/
theorem emit_congr (alike : Item → Item → Prop) (related : State → State → Prop)
    (step_congr : ∀ state other item twin, alike item twin → related state other →
      related (step state item).1 (step other twin).1 ∧ (step state item).2 = (step other twin).2)
    {items twins : List Item} (pairwise : List.Forall₂ alike items twins) {state other : State}
    (start : related state other) :
    related (emit step state items).1 (emit step other twins).1 ∧
      (emit step state items).2 = (emit step other twins).2 :=
  emit_simulation alike related step_congr pairwise start

/-- Leaving items out leaves out what they report and nothing else, if states
stay related whether such an item is visited or not. -/
theorem emit_filter {keep : Item → Bool} (related : State → State → Prop)
    (kept : ∀ {state other item}, keep item = true → related state other →
      related (step state item).1 (step other item).1 ∧ (step state item).2 = (step other item).2)
    (dropped : ∀ {state other item}, keep item = false → related state other →
      related (step state item).1 other)
    {state other : State} (items : List Item) (start : related state other) :
    related (emit step state items).1 (emit step other (items.filter keep)).1 ∧
      (emit step other (items.filter keep)).2 =
        ((emitLabelled step state items).filter fun reported => keep reported.1).map Prod.snd := by
  induction items generalizing state other with
  | nil => exact ⟨start, rfl⟩
  | cons item rest ih =>
    by_cases inside : keep item = true
    · obtain ⟨next, same⟩ := kept inside start
      obtain ⟨final, later⟩ := ih next
      have own : ((step state item).2.map (Prod.mk item)).filter (fun reported => keep reported.1) =
          (step state item).2.map (Prod.mk item) := by
        simp [List.filter_eq_self, inside]
      rw [List.filter_cons_of_pos inside, emitLabelled, List.filter_append, own]
      refine ⟨final, ?_⟩
      rw [emit_cons_output, List.map_append, List.map_map, later, ← same]
      exact congrArg (· ++ _) (List.map_id _).symm
    · rw [Bool.not_eq_true] at inside
      obtain ⟨final, later⟩ := ih (dropped inside start)
      have none : ((step state item).2.map (Prod.mk item)).filter (fun reported => keep reported.1) =
          [] := by
        simp [List.filter_eq_nil_iff, inside]
      rw [List.filter_cons_of_neg (by simp [inside]), emitLabelled, List.filter_append, none,
        List.nil_append]
      exact ⟨final, later⟩

end Emit

/-! ## Steps that own one key

The state is a table, and every item owns one key of it. -/

section Keyed

variable {Key Entry Item Output : Type} {owner : Item → Key}
  {step : (Key → Entry) → Item → (Key → Entry) × List Output}

/-- A step reads and writes the entry of its item's own key only. -/
structure Local (owner : Item → Key)
    (step : (Key → Entry) → Item → (Key → Entry) × List Output) : Prop where
  own : ∀ {table other : Key → Entry} {item : Item}, table (owner item) = other (owner item) →
    (step table item).1 (owner item) = (step other item).1 (owner item) ∧
      (step table item).2 = (step other item).2
  frame : ∀ (table : Key → Entry) (item : Item) {key : Key}, key ≠ owner item →
    (step table item).1 key = table key

/-- Two tables agree on every key but one. -/
def AgreeOutside (excluded : Key) (table other : Key → Entry) : Prop :=
  ∀ key, key ≠ excluded → table key = other key

theorem AgreeOutside.refl (excluded : Key) (table : Key → Entry) :
    AgreeOutside excluded table table :=
  fun _ _ => rfl

/-- An item with another key does the same to tables that agree outside the key. -/
theorem Local.step_congr (isLocal : Local owner step) {excluded : Key}
    {table other : Key → Entry} {item : Item} (elsewhere : owner item ≠ excluded)
    (agree : AgreeOutside excluded table other) :
    AgreeOutside excluded (step table item).1 (step other item).1 ∧
      (step table item).2 = (step other item).2 := by
  obtain ⟨entry, output⟩ := isLocal.own (agree _ elsewhere)
  refine ⟨fun key outside => ?_, output⟩
  by_cases mine : key = owner item
  · rw [mine]
    exact entry
  · rw [isLocal.frame table item mine, isLocal.frame other item mine]
    exact agree key outside

/-- An item that owns the key keeps the agreement outside it. -/
theorem Local.step_outside (isLocal : Local owner step) {table other : Key → Entry} {item : Item}
    (agree : AgreeOutside (owner item) table other) :
    AgreeOutside (owner item) (step table item).1 other := by
  intro key outside
  rw [isLocal.frame table item outside]
  exact agree key outside

/-- Leaving out every item that owns a key leaves out what those items report,
and changes no other entry. -/
theorem Local.emit_without [DecidableEq Key] (isLocal : Local owner step) (excluded : Key)
    {table other : Key → Entry} (items : List Item) (agree : AgreeOutside excluded table other) :
    AgreeOutside excluded (emit step table items).1
        (emit step other (items.filter fun item => owner item != excluded)).1 ∧
      (emit step other (items.filter fun item => owner item != excluded)).2 =
        ((emitLabelled step table items).filter
          fun reported => owner reported.1 != excluded).map Prod.snd := by
  refine emit_filter (AgreeOutside excluded) ?_ ?_ items agree
  · intro before after item elsewhere
    exact isLocal.step_congr (bne_iff_ne.mp elsewhere)
  · intro before after item mine
    have owned : owner item = excluded := by simpa using mine
    rw [← owned]
    exact isLocal.step_outside

/-- The items that own a key make of its entry, and report, what they do among
all items. -/
theorem Local.emit_only [DecidableEq Key] (isLocal : Local owner step) {key : Key}
    {table other : Key → Entry} (items : List Item) (same : table key = other key) :
    (emit step table items).1 key =
        (emit step other (items.filter fun item => owner item == key)).1 key ∧
      (emitLabelled step table items).filter (fun reported => owner reported.1 == key) =
        emitLabelled step other (items.filter fun item => owner item == key) := by
  induction items generalizing table other with
  | nil => exact ⟨same, rfl⟩
  | cons item rest ih =>
    rw [emitLabelled, List.filter_append]
    by_cases mine : owner item = key
    · have here : table (owner item) = other (owner item) := mine ▸ same
      obtain ⟨entry, output⟩ := isLocal.own here
      rw [mine] at entry
      obtain ⟨final, later⟩ := ih entry
      have own : ((step table item).2.map (Prod.mk item)).filter
          (fun reported => owner reported.1 == key) = (step table item).2.map (Prod.mk item) := by
        simp [List.filter_eq_self, mine]
      rw [List.filter_cons_of_pos (by simp [mine]), emitLabelled, own, output, later]
      exact ⟨final, rfl⟩
    · have kept : (step table item).1 key = other key :=
        (isLocal.frame table item (Ne.symm mine)).trans same
      have none : ((step table item).2.map (Prod.mk item)).filter
          (fun reported => owner reported.1 == key) = [] := by
        simp [List.filter_eq_nil_iff, mine]
      rw [List.filter_cons_of_neg (by simp [mine]), none, List.nil_append]
      exact ih kept

end Keyed

end Ill.Base
