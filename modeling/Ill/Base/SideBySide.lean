import Ill.Base.Fold
import Mathlib.Data.List.Infix

/-!
# Walks side by side

Two walks that stop at the first failure, compared item by item. The second
visits another form of the items of the first, and may leave some of them out.
A relation between the states that matching steps keep, and that the steps left
out do not disturb, holds where the walks stop.
-/

namespace Ill.Base

universe u v w x y

variable {State : Type u} {Item : Type v} {Failure : Type w} {Partner : Type x} {Form : Type y}
  {step : State → Item → State × Option Failure} {other : Partner → Form → Partner × Option Failure}

/-- What no step can bring about held before the walk. -/
theorem walk_back (property : State → Prop)
    (back : ∀ state item, property (step state item).1 → property state) {state : State}
    {items : List Item} (holds : property (walk step state items).1) : property state := by
  induction items generalizing state with
  | nil => exact holds
  | cons item rest ih =>
    rcases stepped : step state item with ⟨next, _ | failure⟩
    · rw [walk_cons_of_completed stepped] at holds
      apply back state item
      rw [stepped]
      exact ih holds
    · rw [walk_cons_of_failed stepped] at holds
      apply back state item
      rw [stepped]
      exact holds

/-- The item a walk fails at. -/
def failedAt (step : State → Item → State × Option Failure) : State → List Item → Option Item
  | _, [] => none
  | state, item :: rest =>
    match step state item with
    | (next, none) => failedAt step next rest
    | (_, some _) => some item

theorem failedAt_cons_of_completed {state next : State} {item : Item}
    (completed : step state item = (next, none)) (rest : List Item) :
    failedAt step state (item :: rest) = failedAt step next rest := by
  rw [failedAt, completed]

theorem failedAt_cons_of_failed {state next : State} {item : Item} {failure : Failure}
    (failed : step state item = (next, some failure)) (rest : List Item) :
    failedAt step state (item :: rest) = some item := by
  rw [failedAt, failed]

/-- A walk fails at an item exactly if it fails. -/
theorem failedAt_eq_none {state : State} {items : List Item} :
    failedAt step state items = none ↔ (walk step state items).2 = none := by
  induction items generalizing state with
  | nil => exact iff_of_true rfl rfl
  | cons item rest ih =>
    rcases stepped : step state item with ⟨next, _ | failure⟩
    · rw [failedAt_cons_of_completed stepped, walk_cons_of_completed stepped]
      exact ih
    · rw [failedAt_cons_of_failed stepped, walk_cons_of_failed stepped]
      simp

/-- The item a walk fails at is one it gets to. -/
theorem failedAt_eq_some {state : State} {items : List Item} {item : Item}
    (failed : failedAt step state items = some item) :
    ∃ before after middle final failure, items = before ++ item :: after ∧
      walk step state before = (middle, none) ∧ step middle item = (final, some failure) ∧
      walk step state items = (final, some failure) := by
  induction items generalizing state with
  | nil => exact nomatch failed
  | cons first rest ih =>
    rcases stepped : step state first with ⟨next, _ | failure⟩
    · rw [failedAt_cons_of_completed stepped] at failed
      obtain ⟨before, after, middle, final, failure, rfl, done, stops, whole⟩ := ih failed
      refine ⟨first :: before, after, middle, final, failure, rfl, ?_, stops, ?_⟩
      · rw [walk_cons_of_completed stepped, done]
      · rw [walk_cons_of_completed stepped, whole]
    · rw [failedAt_cons_of_failed stepped] at failed
      obtain rfl := Option.some.inj failed
      exact ⟨[], rest, state, next, failure, rfl, rfl, stepped, walk_cons_of_failed stepped rest⟩

/-- What a walk has logged is a prefix of what a longer one logs. -/
theorem walk_log_prefix {Entry : Type*} (step : State → Item → State × Option Failure)
    (log : State → List Entry) (grows : ∀ state item, log state <+: log (step state item).1) (state : State)
    {before items : List Item} (front : before <+: items) :
    log (walk step state before).1 <+: log (walk step state items).1 := by
  obtain ⟨after, rfl⟩ := front
  rcases walked : walk step state before with ⟨middle, _ | failure⟩
  · rw [walk_append_of_completed walked]
    exact walk_invariant (fun later => log middle <+: log later)
      (fun later item longer => longer.trans (grows later item)) List.prefix_rfl after
  · rw [walk_append_of_failed walked]

theorem walk_singleton (step : State → Item → State × Option Failure) (state : State) (item : Item) :
    walk step state [item] = step state item := by
  rcases stepped : step state item with ⟨next, _ | failure⟩
  · rw [walk_cons_of_completed stepped, walk_nil]
  · rw [walk_cons_of_failed stepped]

/-- Forms of the items of a list in order, with some items left out. -/
inductive Thinned (matched : Item → Form → Prop) (out : Item → Prop) :
    List Item → List Form → Prop where
  | nil : Thinned matched out [] []
  | keep {item form items forms} (here : matched item form)
      (later : Thinned matched out items forms) : Thinned matched out (item :: items) (form :: forms)
  | drop {item items forms} (here : out item) (later : Thinned matched out items forms) :
      Thinned matched out (item :: items) forms

theorem Thinned.filter (keep : Item → Bool) (items : List Item) :
    Thinned (fun item form => item = form ∧ keep item = true) (fun item => keep item = false) items
      (items.filter keep) := by
  induction items with
  | nil => exact .nil
  | cons item rest ih =>
    cases kept : keep item with
    | true =>
      rw [List.filter_cons_of_pos kept]
      exact .keep ⟨rfl, kept⟩ ih
    | false =>
      rw [List.filter_cons_of_neg (by simp [kept])]
      exact .drop kept ih

theorem Thinned.of_forall₂ {matched : Item → Form → Prop} {items : List Item} {forms : List Form}
    (same : List.Forall₂ matched items forms) : Thinned matched (fun _ => False) items forms := by
  induction same with
  | nil => exact .nil
  | cons here _ ih => exact .keep here ih

/-- A walk beside one over fewer items. `holds` is what the steps of the first
can count on. The walks fail alike, in related states, unless the first fails at
an item left out. -/
theorem walk_thinned (step : State → Item → State × Option Failure)
    (other : Partner → Form → Partner × Option Failure) (related : State → Partner → Prop)
    (holds : State → Prop) {matched : Item → Form → Prop} {out : Item → Prop} {items : List Item}
    {forms : List Form} (thinned : Thinned matched out items forms)
    (back : ∀ state item, holds (step state item).1 → holds state)
    (kept : ∀ state partner item form, item ∈ items → matched item form →
      holds (step state item).1 → related state partner →
      related (step state item).1 (other partner form).1 ∧
        (step state item).2 = (other partner form).2)
    (dropped : ∀ state partner item, item ∈ items → out item → related state partner →
      related (step state item).1 partner)
    {state : State} {partner : Partner} (counted : holds (walk step state items).1)
    (start : related state partner) :
    (related (walk step state items).1 (walk other partner forms).1 ∧
        (walk step state items).2 = (walk other partner forms).2) ∨
      ∃ item, failedAt step state items = some item ∧ out item ∧
        ∃ before, before <+: forms ∧ (walk other partner before).2 = none ∧
          related (walk step state items).1 (walk other partner before).1 := by
  induction thinned generalizing state partner with
  | nil => exact .inl ⟨start, rfl⟩
  | @keep item form rest forms here later ih =>
    replace ih := @ih (fun state partner item form member => kept state partner item form
      (List.mem_cons_of_mem _ member)) (fun state partner item member => dropped state partner item
      (List.mem_cons_of_mem _ member))
    have within : holds (step state item).1 := by
      rcases stepped : step state item with ⟨next, _ | failure⟩
      · rw [walk_cons_of_completed stepped] at counted
        exact walk_back holds back counted
      · rwa [walk_cons_of_failed stepped] at counted
    obtain ⟨after, alike⟩ := kept state partner item form List.mem_cons_self here within start
    rcases stepped : step state item with ⟨next, _ | failure⟩
    · rw [stepped] at after alike
      have completed : other partner form = ((other partner form).1, none) := Prod.ext rfl alike.symm
      rw [walk_cons_of_completed stepped] at counted
      rw [walk_cons_of_completed stepped, walk_cons_of_completed completed,
        failedAt_cons_of_completed stepped]
      rcases ih counted after with together | ⟨bad, failed, left, before, front, done, apart⟩
      · exact .inl together
      · refine .inr ⟨bad, failed, left, form :: before, ?_, ?_, ?_⟩
        · exact (List.prefix_cons_inj form).mpr front
        · rw [walk_cons_of_completed completed]
          exact done
        · rw [walk_cons_of_completed completed]
          exact apart
    · rw [stepped] at after alike
      have failed : other partner form = ((other partner form).1, some failure) :=
        Prod.ext rfl alike.symm
      rw [walk_cons_of_failed stepped, walk_cons_of_failed failed]
      exact .inl ⟨after, rfl⟩
  | @drop item rest forms here later ih =>
    replace ih := @ih (fun state partner item form member => kept state partner item form
      (List.mem_cons_of_mem _ member)) (fun state partner item member => dropped state partner item
      (List.mem_cons_of_mem _ member))
    have after := dropped state partner item List.mem_cons_self here start
    rcases stepped : step state item with ⟨next, _ | failure⟩
    · rw [stepped] at after
      rw [walk_cons_of_completed stepped] at counted ⊢
      rw [failedAt_cons_of_completed stepped]
      exact ih counted after
    · rw [stepped] at after
      rw [walk_cons_of_failed stepped, failedAt_cons_of_failed stepped]
      exact .inr ⟨item, rfl, here, [], List.nil_prefix, rfl, after⟩

/-- Two forms of one list of items: the walks fail alike, in related states. -/
theorem walk_related (step : State → Item → State × Option Failure)
    (other : Partner → Form → Partner × Option Failure) (related : State → Partner → Prop)
    (holds : State → Prop) {matched : Item → Form → Prop} {items : List Item} {forms : List Form}
    (same : List.Forall₂ matched items forms)
    (back : ∀ state item, holds (step state item).1 → holds state)
    (kept : ∀ state partner item form, item ∈ items → matched item form →
      holds (step state item).1 → related state partner →
      related (step state item).1 (other partner form).1 ∧
        (step state item).2 = (other partner form).2)
    {state : State} {partner : Partner} (counted : holds (walk step state items).1)
    (start : related state partner) :
    related (walk step state items).1 (walk other partner forms).1 ∧
      (walk step state items).2 = (walk other partner forms).2 := by
  rcases walk_thinned step other related holds (.of_forall₂ same) back kept
    (fun _ _ _ _ absurd => absurd.elim) counted start with together | ⟨_, _, absurd, _⟩
  · exact together
  · exact absurd.elim

/-- Walks whose first steps end alike, in related states, end alike if all walks
over the rest from related states do. -/
theorem walk_cons_related (related : State → Partner → Prop) {state : State} {partner : Partner}
    {item : Item} {form : Form} {items : List Item} {forms : List Form}
    (first : related (step state item).1 (other partner form).1 ∧
      (step state item).2 = (other partner form).2)
    (rest : ∀ state partner, related state partner →
      related (walk step state items).1 (walk other partner forms).1 ∧
        (walk step state items).2 = (walk other partner forms).2) :
    related (walk step state (item :: items)).1 (walk other partner (form :: forms)).1 ∧
      (walk step state (item :: items)).2 = (walk other partner (form :: forms)).2 := by
  obtain ⟨after, alike⟩ := first
  rcases stepped : step state item with ⟨next, failure⟩
  rcases answered : other partner form with ⟨partnerNext, partnerFailure⟩
  rw [stepped, answered] at after alike
  obtain rfl : failure = partnerFailure := alike
  cases failure with
  | none =>
    rw [walk_cons_of_completed stepped, walk_cons_of_completed answered]
    exact rest next partnerNext after
  | some failure =>
    rw [walk_cons_of_failed stepped, walk_cons_of_failed answered]
    exact ⟨after, rfl⟩

/-! ## Other forms of the items -/

section Translated

variable {image : Item → Form}

end Translated

end Ill.Base
