import Ill.Base.Fold
import Ill.Grammar.Scanner
import Mathlib.Data.List.Induction

/-!
# What every run of scanner calls keeps

The parser calls the scanner where it likes, with any tokens allowed. Over
every such run the stack stays well formed, and the tokens emitted account for
the levels open and the DEDENTs still due, as long as no call opens a level
past the capacity of the stack: that call emits an INDENT which nothing closes.
-/

namespace Ill.Grammar

open Ill.Base
open Ill.Base.Utf8 (Text)
open Ill.Base.Layout (Levels)

/-- One call: the tokens allowed and the text under the lexer. -/
structure Call where
  valid : ValidSymbols
  input : Text
deriving DecidableEq, Repr

/-- The scanner after a call, and the token emitted if there is one. -/
def Call.step (scanner : Scanner) (call : Call) : Scanner × List TokenType :=
  let scanned := scan call.valid scanner call.input
  (scanned.scanner, scanned.symbol.toList)

/-- The scanner and the tokens emitted after calls from a fresh scanner. -/
def afterCalls (calls : List Call) : Scanner × List TokenType :=
  emit Call.step create calls

/-- A well-formed stack that the tokens emitted so far account for. -/
structure Sound (scanner : Scanner) (emitted : List TokenType) : Prop where
  grounded : scanner.indentStack.getLast? = some 0
  increasing : scanner.indentStack.Pairwise (· > ·)
  opened : 1 ≤ scanner.stackSize
  capacity : scanner.stackSize ≤ maxIndentLevels
  accounted : emitted.count .indent =
    emitted.count .dedent + (scanner.stackSize - 1) + scanner.pendingDedents

theorem sound_create : Sound create [] where
  grounded := rfl
  increasing := List.pairwise_singleton _ _
  opened := Nat.le_refl 1
  capacity := by decide
  accounted := rfl

/-- The stack of a sound scanner, as the levels of the off-side rule. -/
def Sound.levels {scanner : Scanner} {emitted : List TokenType} (sound : Sound scanner emitted) :
    Levels Nat where
  widths := scanner.indentStack
  nested := sound.increasing
  grounded := sound.grounded

/-- What a narrower line leaves of the stack is not empty and shorter. -/
theorem Sound.length_kept {scanner : Scanner} {emitted : List TokenType}
    (sound : Sound scanner emitted) {indent : Nat} (shallower : indent < scanner.currentIndent) :
    1 ≤ (scanner.indentStack.dropWhile fun level => indent < level).length ∧
      (scanner.indentStack.dropWhile fun level => indent < level).length < scanner.stackSize :=
  sound.levels.length_closing shallower

/-- Every call that does not overflow keeps a sound scanner sound. -/
theorem Sound.step {scanner next : Scanner} {emitted : List TokenType} {valid : ValidSymbols}
    {input : Text} {symbol : Option TokenType} (sound : Sound scanner emitted)
    (within : opensPastCapacity valid scanner input = false)
    (emits : Emits valid scanner input symbol next) :
    Sound next (emitted ++ symbol.toList) := by
  obtain ⟨grounded, increasing, opened, capacity, accounted⟩ := id sound
  cases emits with
  | nothing => simpa using sound
  | pendingDedent pending usable =>
    refine ⟨grounded, increasing, opened, capacity, ?_⟩
    simp [Scanner.stackSize] at accounted ⊢
    omega
  | pendingNewline | sameLevel =>
    refine ⟨grounded, increasing, opened, capacity, ?_⟩
    simpa [Scanner.stackSize] using accounted
  | @opened indent deeper room =>
    let pushed := sound.levels.opening indent deeper
    refine ⟨pushed.grounded, pushed.nested, ?_, ?_, ?_⟩
    · simp [Scanner.stackSize]
    · rw [Scanner.stackSize] at room ⊢
      exact room
    · simp [Scanner.stackSize] at accounted opened ⊢
      omega
  | overflowed full => simp [full] at within
  | @closed indent popped shallower settled pops =>
    let kept := sound.levels.closing indent
    obtain ⟨nonempty, shorter⟩ := sound.length_kept shallower
    have bounded : scanner.stackSize ≤ 2 ^ 8 := Nat.le_trans capacity (by decide)
    rw [popLevels_eq grounded (by rw [Nat.zero_add]; exact bounded)] at pops
    subst pops
    refine ⟨kept.grounded, kept.nested, nonempty, ?_, ?_⟩
    · exact Nat.le_trans (Nat.le_of_lt shorter) capacity
    · -- The levels popped, less the one whose DEDENT this call emits, are pending.
      simp [Scanner.stackSize] at accounted shorter nonempty bounded ⊢
      omega
  | closedAtEof open_ settled =>
    refine ⟨Levels.getLast?_tail grounded open_, increasing.tail, ?_, ?_, ?_⟩
    · rw [Scanner.stackSize, List.length_tail]
      exact Nat.le_sub_of_add_le open_
    · rw [Scanner.stackSize, List.length_tail]
      exact Nat.le_trans (Nat.sub_le _ _) capacity
    · simp [Scanner.stackSize] at accounted open_ ⊢
      omega

/-- A run in which no call overflows stays sound. -/
theorem sound_afterCalls {calls : List Call}
    (within : ∀ before call, before ++ [call] <+: calls →
      opensPastCapacity call.valid (afterCalls before).1 call.input = false) :
    Sound (afterCalls calls).1 (afterCalls calls).2 := by
  induction calls using List.reverseRecOn with
  | nil => exact sound_create
  | append_singleton before call ih =>
    have sound := ih fun earlier other visited =>
      within earlier other (visited.trans (List.prefix_append before [call]))
    have fits := within before call (List.prefix_refl _)
    have stepped := sound.step fits (scan_cases call.valid (afterCalls before).1 call.input)
    unfold afterCalls at stepped ⊢
    rw [emit_append_state, emit_append_output]
    simpa [Call.step] using stepped

/-- A call that opens a level past the capacity emits an INDENT and leaves the
scanner as it was. -/
theorem scan_of_opensPastCapacity {valid : ValidSymbols} {scanner : Scanner} {input : Text}
    (overflows : opensPastCapacity valid scanner input = true) :
    (scan valid scanner input).symbol = some .indent ∧
      (scan valid scanner input).scanner = scanner := by
  simp only [opensPastCapacity, Bool.and_eq_true, decide_eq_true_eq, ge_iff_le] at overflows
  obtain ⟨⟨⟨idle, usable⟩, full⟩, deeper⟩ := overflows
  have undue := idle
  simp only [nothingDue, Bool.and_eq_true, Bool.not_eq_true'] at undue
  unfold scan
  rw [if_neg (by simp [undue.1]), if_neg (by simp [undue.2]), if_neg (by simp [usable])]
  split at deeper
  · next indent rest line =>
    have wider : scanner.currentIndent < indent := by simpa using deeper
    have noRoom : ¬ scanner.stackSize < maxIndentLevels := Nat.not_lt.mpr full
    rw [line]
    simp [atLine, wider, usable, noRoom]
  · simp at deeper

/-- At the end of the input, a call that could emit a DEDENT and emits nothing
leaves no level open and no DEDENT due. -/
theorem nothing_open_at_eof {valid : ValidSymbols} {scanner : Scanner} (usable : valid.dedent = true)
    (silent : (scan valid scanner []).symbol = none) :
    scanner.pendingDedents = 0 ∧ scanner.stackSize ≤ 1 := by
  unfold scan at silent
  split at silent
  · simp at silent
  next noDedent =>
  split at silent
  · simp at silent
  rw [if_neg (by simp [usable])] at silent
  simp only [position, atEof] at silent
  split at silent
  · simp at silent
  next noLevel =>
  simp only [usable, Bool.true_and, Bool.and_true, decide_eq_true_eq] at noDedent noLevel
  omega

/-- After every call of a run the stack is well formed and accounts for the
tokens, they balance where the input ends with nothing left to emit, and calls
that return false change nothing, exactly when no call of the run opens a level
that the full stack has no entry for. -/
theorem scanner_invariant_iff (calls : List Call) :
    (∀ visited, visited <+: calls →
      Sound (afterCalls visited).1 (afterCalls visited).2 ∧
      (∀ valid, valid.dedent = true → (scan valid (afterCalls visited).1 []).symbol = none →
        (afterCalls visited).2.count .indent = (afterCalls visited).2.count .dedent) ∧
      ∀ valid input, (scan valid (afterCalls visited).1 input).symbol = none →
        (scan valid (afterCalls visited).1 input).scanner = (afterCalls visited).1) ↔
      ∀ before call, before ++ [call] <+: calls →
        opensPastCapacity call.valid (afterCalls before).1 call.input = false := by
  constructor
  · intro holds before call visited
    by_contra overflows
    rw [Bool.not_eq_false] at overflows
    obtain ⟨symbol, unchanged⟩ := scan_of_opensPastCapacity overflows
    have accounted := (holds before ((List.prefix_append before [call]).trans visited)).1.accounted
    have after := (holds (before ++ [call]) visited).1.accounted
    unfold afterCalls at accounted after symbol unchanged
    rw [emit_append_state, emit_append_output] at after
    simp [Call.step, symbol, unchanged] at after
    omega
  · intro within visited earlier
    have sound : Sound (afterCalls visited).1 (afterCalls visited).2 :=
      sound_afterCalls fun before call begins => within before call (begins.trans earlier)
    refine ⟨sound, fun valid usable silent => ?_, fun valid input silent => scanner_of_silent silent⟩
    obtain ⟨settled, closed⟩ := nothing_open_at_eof usable silent
    have accounted := sound.accounted
    omega

/-- Sixty-four lines, each one space deeper than the last. -/
def staircase : List Call :=
  (List.range maxIndentLevels).map fun depth =>
    ⟨⟨true, true, true⟩, '\n' :: List.replicate (depth + 1) ' ' ++ ['x']⟩

/-- The last step of the staircase is one INDENT more than the stack accounts for. -/
theorem staircase_unaccounted :
    ¬ ∀ calls : List Call, Sound (afterCalls calls).1 (afterCalls calls).2 := by
  intro holds
  have accounted := (holds staircase).accounted
  revert accounted
  decide

end Ill.Grammar
