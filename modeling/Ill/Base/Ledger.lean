import Ill.Base.Fold
import Mathlib.Logic.Function.Basic

/-!
# Slots that hold one thing at a time

Each key has a slot that is empty or holds something. A move fills an empty
slot, empties a full one, or leaves it as it is; it never puts one thing in the
place of another. What the moves of a key take and what they give up is then
the same, up to what the slot holds in the end, and everything taken stays in
its slot until it is given up.
-/

namespace Ill.Base

universe u v

variable {Key : Type u} {Thing : Type v}

/-- What a slot holds before and after something happened to it. -/
structure Move (Key : Type u) (Thing : Type v) where
  key : Key
  before : Option Thing
  after : Option Thing

namespace Move

/-- What a move puts into an empty slot. -/
def taken (move : Move Key Thing) : Option Thing :=
  match move.before with
  | none => move.after
  | some _ => none

/-- What a move takes out of a slot. -/
def given (move : Move Key Thing) : Option Thing :=
  match move.after with
  | none => move.before
  | some _ => none

/-- A move never replaces what a slot holds. -/
def Sound (move : Move Key Thing) : Prop :=
  move.before = none ∨ move.after = none ∨ move.before = move.after

/-- What a sound move takes goes on top of what the slot held, and what it gives
comes from there. -/
theorem Sound.balance {move : Move Key Thing} (sound : move.Sound) :
    move.before.toList ++ move.taken.toList = move.given.toList ++ move.after.toList := by
  obtain ⟨key, before, after⟩ := move
  rcases sound with empty | emptied | kept
  · obtain rfl : before = none := empty
    cases after <;> rfl
  · obtain rfl : after = none := emptied
    cases before <;> rfl
  · obtain rfl : before = after := kept
    cases before <;> rfl

end Move

variable [DecidableEq Key]

/-- A move finds in its slot what it says, and leaves what it says there. -/
structure Moves (slots : Key → Option Thing) (move : Move Key Thing) (next : Key → Option Thing) :
    Prop where
  found : slots move.key = move.before
  sound : move.Sound
  left : next = Function.update slots move.key move.after

/-- What the moves of a key put into its slot, in order. -/
def takenBy (key : Key) (moves : List (Move Key Thing)) : List Thing :=
  (moves.filter (·.key = key)).filterMap Move.taken

/-- What the moves of a key take out of its slot, in order. -/
def givenBy (key : Key) (moves : List (Move Key Thing)) : List Thing :=
  (moves.filter (·.key = key)).filterMap Move.given

theorem takenBy_cons (key : Key) (move : Move Key Thing) (moves : List (Move Key Thing)) :
    takenBy key (move :: moves) =
      (if move.key = key then move.taken.toList else []) ++ takenBy key moves := by
  by_cases own : move.key = key
  · cases taken : move.taken <;> simp [takenBy, own, taken]
  · simp [takenBy, own]

theorem givenBy_cons (key : Key) (move : Move Key Thing) (moves : List (Move Key Thing)) :
    givenBy key (move :: moves) =
      (if move.key = key then move.given.toList else []) ++ givenBy key moves := by
  by_cases own : move.key = key
  · cases given : move.given <;> simp [givenBy, own, given]
  · simp [givenBy, own]

variable {slots final : Key → Option Thing} {moves : List (Move Key Thing)}

/-- Things are given up in the order they are taken, one at a time: what is taken
but not given up is what the slot holds. -/
theorem Chain.balance (chain : Chain Moves slots moves final) (key : Key) :
    (slots key).toList ++ takenBy key moves = givenBy key moves ++ (final key).toList := by
  induction chain with
  | nil => simp [takenBy, givenBy]
  | @cons slots move next rest final head _ ih =>
    rw [takenBy_cons, givenBy_cons, List.append_assoc, ← ih, head.left]
    by_cases own : move.key = key
    · subst own
      rw [if_pos rfl, if_pos rfl, Function.update_self, head.found, ← List.append_assoc,
        head.sound.balance, List.append_assoc]
    · rw [if_neg own, if_neg own, Function.update_of_ne (Ne.symm own), List.nil_append, List.nil_append]

/-- What is in a slot stays there until a move of its key gives it up. -/
theorem Chain.given_up (chain : Chain Moves slots moves final) {key : Key} {thing : Thing}
    (held : slots key = some thing) (gone : final key ≠ some thing) :
    ∃ before move after, moves = before ++ move :: after ∧ move.key = key ∧
      move.given = some thing ∧
      ∀ other ∈ before, other.key = key → other.before = some thing ∧ other.after = some thing := by
  induction chain with
  | nil => exact absurd held gone
  | @cons slots move next rest final head _ ih =>
    by_cases own : move.key = key
    · have before : move.before = some thing := by rw [← head.found, own, held]
      rcases after : move.after with _ | kept
      · exact ⟨[], move, rest, rfl, own, by rw [Move.given, after, before], by simp⟩
      · have same : move.after = some thing := by
          rcases head.sound with empty | emptied | same
          · rw [before] at empty
            exact nomatch empty
          · rw [after] at emptied
            exact nomatch emptied
          · rw [← same, before]
        have still : next key = some thing := by rw [head.left, own, Function.update_self, same]
        obtain ⟨prior, giving, later, rfl, giver, given, between⟩ := ih still gone
        refine ⟨move :: prior, giving, later, rfl, giver, given, fun other member => ?_⟩
        rcases List.mem_cons.mp member with rfl | inside
        · exact fun _ => ⟨before, same⟩
        · exact between other inside
    · have still : next key = some thing := by
        rw [head.left, Function.update_of_ne (Ne.symm own), held]
      obtain ⟨prior, giving, later, rfl, giver, given, between⟩ := ih still gone
      refine ⟨move :: prior, giving, later, rfl, giver, given, fun other member => ?_⟩
      rcases List.mem_cons.mp member with rfl | inside
      · exact fun mine => absurd mine own
      · exact between other inside

/-- From empty slots to empty slots, everything taken is given up later. -/
theorem Chain.taken_given_up (chain : Chain Moves slots moves final) (settled : ∀ key, final key = none)
    {before after : List (Move Key Thing)} {move : Move Key Thing} {thing : Thing}
    (split : moves = before ++ move :: after) (taken : move.taken = some thing) :
    ∃ between giving later, after = between ++ giving :: later ∧ giving.key = move.key ∧
      giving.given = some thing ∧ ∀ other ∈ between, other.key = move.key →
        other.before = some thing ∧ other.after = some thing := by
  subst split
  obtain ⟨middle, -, later⟩ := chain_append_iff.mp chain
  obtain ⟨next, head, tail⟩ := chain_cons_iff.mp later
  have filled : move.after = some thing := by
    rw [Move.taken] at taken
    split at taken
    · exact taken
    · exact nomatch taken
  apply tail.given_up
  · rw [head.left, Function.update_self, filled]
  · rw [settled]
    nofun

end Ill.Base
