import Mathlib.Init

/-!
# Stacks in arrays

A stack that is kept in the cells below a size. The cells from the size on hold
whatever was left there.
-/

namespace Ill.Base.CellStack

variable {Value : Type*} {capacity : Nat}

/-- The stack in the cells below `size`, its top first. -/
def live (cells : Vector Value capacity) (size : Nat) : List Value :=
  (cells.toList.take size).reverse

theorem length_live {cells : Vector Value capacity} {size : Nat} (within : size ≤ capacity) :
    (live cells size).length = size := by
  simp [live, within]

/-- The top is in the last cell below the size. -/
theorem live_succ {cells : Vector Value capacity} {size : Nat} (within : size < capacity) :
    live cells (size + 1) = cells[size] :: live cells size := by
  have stored : size < cells.toList.length := by simpa using within
  rw [live, List.take_succ_eq_append_getElem stored, List.reverse_append]
  simp [live]

/-- Storing in the cell at the size pushes. -/
theorem live_push {cells : Vector Value capacity} {size : Nat} (within : size < capacity)
    (value : Value) :
    live (cells.setIfInBounds size value) (size + 1) = value :: live cells size := by
  rw [live_succ within, Vector.getElem_setIfInBounds_self, live, live, Vector.toList_setIfInBounds,
    List.take_set_of_le (Nat.le_refl size)]

/-- Two arrays hold the same stack if they agree below its size. -/
theorem live_congr {cells others : Vector Value capacity} {size : Nat} (within : size ≤ capacity)
    (same : ∀ index, (below : index < size) → cells[index] = others[index]) :
    live cells size = live others size := by
  induction size with
  | zero => rfl
  | succ size ih =>
    have earlier := ih (Nat.le_of_lt within) fun index below => same index (Nat.lt_succ_of_lt below)
    rw [live_succ within, live_succ within, same size (Nat.lt_succ_self size), earlier]

end Ill.Base.CellStack
