import Mathlib.Data.List.DropRight

/-!
# Splitting at the last separator

What stands behind the last occurrence of a separator in a list, and what stands
before it.
-/

namespace Ill.Base.LastSplit

universe u

variable {α : Type u} {separator : α}

/-- A list that contains the separator has a last one. -/
theorem exists_of_mem {list : List α} (inside : separator ∈ list) :
    ∃ front back, list = front ++ separator :: back ∧ separator ∉ back := by
  obtain ⟨back, front, backwards, plain⟩ :=
    List.eq_append_cons_of_mem (List.mem_reverse.mpr inside)
  refine ⟨front.reverse, back.reverse, ?_, ?_⟩
  · have forwards := congrArg List.reverse backwards
    simpa using forwards
  · rwa [List.mem_reverse]

variable [BEq α] [LawfulBEq α]

theorem bne_of_notMem {back : List α} (plain : separator ∉ back) :
    ∀ item ∈ back, (item != separator) = true := by
  intro item inside
  apply bne_iff_ne.mpr
  rintro rfl
  exact plain inside

theorem rtakeWhile_append {back : List α} (plain : separator ∉ back) (front : List α) :
    (front ++ separator :: back).rtakeWhile (· != separator) = back := by
  have backwards : ∀ item ∈ back.reverse, (item != separator) = true :=
    bne_of_notMem (by rwa [List.mem_reverse])
  rw [List.rtakeWhile, List.reverse_append, List.reverse_cons, List.append_assoc,
    List.takeWhile_append_of_pos backwards]
  simp

theorem rdropWhile_append {back : List α} (plain : separator ∉ back) (front : List α) :
    (front ++ separator :: back).rdropWhile (· != separator) = front ++ [separator] := by
  have backwards : ∀ item ∈ back.reverse, (item != separator) = true :=
    bne_of_notMem (by rwa [List.mem_reverse])
  rw [List.rdropWhile, List.reverse_append, List.reverse_cons, List.append_assoc,
    List.dropWhile_append_of_pos backwards]
  simp

/-- There is only one way to split at the last separator. -/
theorem unique {front other back tail : List α} (plain : separator ∉ back) (plainTail : separator ∉ tail)
    (same : front ++ separator :: back = other ++ separator :: tail) : front = other ∧ back = tail := by
  have ends : back = tail := by
    rw [← rtakeWhile_append plain front, same, rtakeWhile_append plainTail]
  subst ends
  exact ⟨List.append_cancel_right same, rfl⟩

end Ill.Base.LastSplit
