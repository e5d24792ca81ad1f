import Ill.Base.Fold
import Mathlib.Data.List.Count
import Mathlib.Data.List.Perm.Basic

/-!
# Interleavings of lists with owners

Two lists that have the same items of every owner in the same order are
interleavings of the same lists. Steps that keep to the entry of their owner
cannot tell them apart.
-/

namespace Ill.Base

section Interleaved

variable {Item Key : Type} [DecidableEq Key]

/-- The same items of every owner, in the same order. -/
def Interleaved (owner : Item → Key) (items others : List Item) : Prop :=
  ∀ key, items.filter (fun item => owner item == key) = others.filter fun item => owner item == key

theorem Interleaved.perm {owner : Item → Key} {items others : List Item}
    (same : Interleaved owner items others) : items.Perm others := by
  classical
  rw [List.perm_iff_count]
  intro item
  -- Counting among the items of its owner counts every occurrence.
  simpa using congrArg (List.count item) (same (owner item))

end Interleaved

section Keyed

variable {Key Entry Item Output : Type} [DecidableEq Key] {owner : Item → Key}
  {step : (Key → Entry) → Item → (Key → Entry) × List Output}

/-- Items that do nothing can be left out. -/
theorem emitLabelled_filter {State : Type} {step : State → Item → State × List Output}
    {keep : Item → Bool} (idle : ∀ state item, keep item = false → step state item = (state, []))
    (state : State) (items : List Item) :
    (emit step state (items.filter keep)).1 = (emit step state items).1 ∧
      emitLabelled step state (items.filter keep) = emitLabelled step state items := by
  induction items generalizing state with
  | nil => exact ⟨rfl, rfl⟩
  | cons item rest ih =>
    cases kept : keep item with
    | true =>
      rw [List.filter_cons_of_pos kept, emit_cons_state, emit_cons_state, emitLabelled, emitLabelled,
        (ih _).1, (ih _).2]
      exact ⟨rfl, rfl⟩
    | false =>
      rw [List.filter_cons_of_neg (by simp [kept]), emit_cons_state, emitLabelled,
        idle state item kept]
      exact ih state

/-- Steps that keep to the entries of their owners make the same table of
interleavings, and report the same of every owner in the same order. -/
theorem Local.emit_interleaved (isLocal : Local owner step) {items others : List Item}
    (same : Interleaved owner items others) {table other : Key → Entry} (agree : table = other) :
    (emit step table items).1 = (emit step other others).1 ∧
      Interleaved (fun reported => owner reported.1) (emitLabelled step table items)
        (emitLabelled step other others) := by
  subst agree
  constructor
  · funext key
    rw [(isLocal.emit_only items (Eq.refl (table key))).1,
      (isLocal.emit_only others (Eq.refl (table key))).1, same]
  · intro key
    rw [(isLocal.emit_only items (Eq.refl (table key))).2,
      (isLocal.emit_only others (Eq.refl (table key))).2, same]

end Keyed

end Ill.Base
