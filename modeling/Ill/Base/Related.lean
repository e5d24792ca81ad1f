import Mathlib.Data.List.Forall2

/-!
# Lists related item by item

What is left of a relation between two lists when a part of the items is taken
on both sides.
-/

namespace Ill.Base

universe u v w

variable {Item : Type u} {Value : Type v} {Part : Type w}

/-- A list of at most one item, from its last one. -/
theorem toList_getLast? {items : List Item} (short : items.length ≤ 1) :
    items.getLast?.toList = items := by
  cases items with
  | nil => rfl
  | cons item rest =>
    cases rest with
    | nil => rfl
    | cons other rest => simp at short

theorem length_flatMap_le {items : List Item} {parts : Item → List Part}
    (short : items.length ≤ 1) (each : ∀ item ∈ items, (parts item).length ≤ 1) :
    (items.flatMap parts).length ≤ 1 := by
  cases items with
  | nil => exact Nat.zero_le 1
  | cons item rest =>
    cases rest with
    | nil => simpa using each item List.mem_cons_self
    | cons other rest => simp at short

/-- Where every item is related to a value, the items are to a list of values. -/
theorem exists_forall₂ {related : Item → Value → Prop} {items : List Item}
    (each : ∀ item ∈ items, ∃ value, related item value) : ∃ values, List.Forall₂ related items values := by
  induction items with
  | nil => exact ⟨[], .nil⟩
  | cons item rest ih =>
    obtain ⟨value, here⟩ := each item List.mem_cons_self
    obtain ⟨values, later⟩ := ih fun other inside => each other (List.mem_cons_of_mem _ inside)
    exact ⟨value :: values, .cons here later⟩

/-- The item of a value, and what stands around it. -/
theorem forall₂_append_cons {related : Item → Value → Prop} {items : List Item}
    {before : List Value} {value : Value} {after : List Value}
    (each : List.Forall₂ related items (before ++ value :: after)) :
    ∃ first item rest, items = first ++ item :: rest ∧ List.Forall₂ related first before ∧
      related item value ∧ List.Forall₂ related rest after := by
  induction before generalizing items with
  | nil =>
    obtain ⟨item, rest, here, later, rfl⟩ := List.forall₂_cons_right_iff.mp each
    exact ⟨[], item, rest, rfl, .nil, here, later⟩
  | cons head before ih =>
    obtain ⟨first, others, here, later, rfl⟩ := List.forall₂_cons_right_iff.mp each
    obtain ⟨front, item, rest, rfl, earlier, same, behind⟩ := ih later
    exact ⟨first :: front, item, rest, rfl, .cons here earlier, same, behind⟩

/-- Views of the values, for the items that are kept. -/
theorem forall₂_filterMap {earlier : Item → Value → Prop} {later : Item → Part → Prop}
    {keep : Item → Bool} {view : Value → Option Part} {items : List Item} {values : List Value}
    (related : List.Forall₂ earlier items values)
    (kept : ∀ item value, earlier item value → keep item = true →
      ∃ part, view value = some part ∧ later item part)
    (dropped : ∀ item value, earlier item value → keep item = false → view value = none) :
    List.Forall₂ later (items.filter keep) (values.filterMap view) := by
  induction related with
  | nil => exact .nil
  | @cons item value items values here rest ih =>
    cases keeps : keep item with
    | true =>
      obtain ⟨part, viewed, holds⟩ := kept item value here keeps
      rw [List.filter_cons_of_pos keeps, List.filterMap_cons_some viewed]
      exact .cons holds ih
    | false =>
      rw [List.filter_cons_of_neg (by simp [keeps]),
        List.filterMap_cons_none (dropped item value here keeps)]
      exact ih

/-- Lists of parts, in order, for the items that are kept. -/
theorem forall₂_flatMap {Piece : Type*} {earlier : Item → Value → Prop} {later : Piece → Part → Prop}
    {keep : Item → Bool} {pieces : Item → List Piece} {parts : Value → List Part} {items : List Item}
    {values : List Value} (related : List.Forall₂ earlier items values)
    (kept : ∀ item value, earlier item value → keep item = true →
      List.Forall₂ later (pieces item) (parts value))
    (dropped : ∀ item value, earlier item value → keep item = false → parts value = []) :
    List.Forall₂ later ((items.filter keep).flatMap pieces) (values.flatMap parts) := by
  induction related with
  | nil => exact .nil
  | @cons item value items values here rest ih =>
    rw [List.flatMap_cons]
    cases keeps : keep item with
    | true =>
      rw [List.filter_cons_of_pos keeps, List.flatMap_cons]
      exact List.rel_append (kept item value here keeps) ih
    | false =>
      rw [List.filter_cons_of_neg (by simp [keeps]), dropped item value here keeps, List.nil_append]
      exact ih

end Ill.Base
