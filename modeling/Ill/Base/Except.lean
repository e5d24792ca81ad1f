/-!
# Inverting successful computations

The two inversions that a proof about a successful `Except` computation needs:
a bind that succeeded ran both halves, and a map that succeeded had a result
to map.
-/

namespace Ill.Base

universe u v w

variable {Error : Type u} {α : Type v} {β : Type w}

/-- A sequence succeeds exactly when its first part yields a value from which
the rest succeeds. -/
theorem bind_eq_ok {first : Except Error α} {rest : α → Except Error β} {result : β} :
    (first.bind rest) = .ok result ↔ ∃ value, first = .ok value ∧ rest value = .ok result := by
  cases first with
  | error error => simp [Except.bind]
  | ok value => simp [Except.bind]

/-- A mapped computation succeeds exactly when the computation does. -/
theorem map_eq_ok {computation : Except Error α} {f : α → β} {result : β} :
    (computation.map f) = .ok result ↔ ∃ value, computation = .ok value ∧ f value = result := by
  cases computation with
  | error error => simp [Except.map]
  | ok value => simp [Except.map]

/-- A value that is paired with a known key. -/
theorem keyed_eq_ok {Key : Type u} {computation : Except Error α} {key : Key} {pair : Key × α} :
    (computation.map fun value => (key, value)) = .ok pair ↔
      pair.1 = key ∧ computation = .ok pair.2 := by
  rw [map_eq_ok]
  constructor
  · rintro ⟨value, held, rfl⟩
    exact ⟨rfl, held⟩
  · rintro ⟨rfl, held⟩
    exact ⟨pair.2, held, rfl⟩

end Ill.Base
