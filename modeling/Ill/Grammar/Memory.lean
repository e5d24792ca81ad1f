import Ill.Base.CellStack
import Ill.Grammar.Progress

/-!
# The scanner in memory

The scanner as the parser allocates it: a stack of fixed capacity in an array of
16-bit widths, a size and a counter of 8 bits. `view` reads it as the scanner of
lists and numbers, and `scan_view` says that the calls do the same to both.
-/

namespace Ill.Grammar

open Ill.Base
open Ill.Base.Utf8 (Text)

/-- The fields of the scanner. The entries from `stackSize` on are left over. -/
structure Memory where
  indentStack : Vector UInt16 maxIndentLevels
  stackSize : UInt8
  pendingDedents : UInt8
  pendingNewline : Bool
deriving DecidableEq, Repr

namespace Memory

/-- The allocation clears every entry. -/
def create : Memory := ⟨Vector.replicate maxIndentLevels 0, 1, 0, false⟩

/-- An entry of the stack. None outside of the array is read. -/
def entry (memory : Memory) (index : Nat) : UInt16 := memory.indentStack.getD index 0

def currentIndent (memory : Memory) : UInt16 := memory.entry (memory.stackSize.toNat - 1)

/-- What a call leaves in memory: the token if it returned true, the scanner, and the
text the lexer has not advanced over. -/
structure Result where
  symbol : Option TokenType
  memory : Memory
  rest : Text
deriving DecidableEq, Repr

/-- The loop that pops the levels above `indent`, never the last one, with a bound on
its turns. -/
def popLevels (indent : UInt16) : Nat → Memory → Memory
  | 0, memory => memory
  | turns + 1, memory =>
    if memory.stackSize > 1 && memory.currentIndent > indent then
      popLevels indent turns { memory with
        stackSize := memory.stackSize - 1
        pendingDedents := memory.pendingDedents + 1 }
    else memory

/-- The comparison of a measured line with the innermost level. -/
def atLine (valid : ValidSymbols) (memory : Memory) (indent : UInt16) (rest : Text) : Result :=
  let cur := memory.currentIndent
  if indent > cur && valid.indent then
    let pushed := if memory.stackSize.toNat < maxIndentLevels then
      { memory with
        indentStack := memory.indentStack.setIfInBounds memory.stackSize.toNat indent
        stackSize := memory.stackSize + 1 } else memory
    ⟨some .indent, pushed, rest⟩
  else if indent < cur && valid.dedent then
    let popped := popLevels indent memory.stackSize.toNat memory
    ⟨some .dedent, { popped with
      pendingDedents := popped.pendingDedents - 1
      pendingNewline := popped.pendingNewline || popped.currentIndent = indent }, rest⟩
  else if indent = cur && valid.newline then ⟨some .newline, memory, rest⟩
  else ⟨none, memory, rest⟩

/-- The end of the input closes one open level. -/
def atEof (valid : ValidSymbols) (memory : Memory) : Result :=
  if valid.dedent && memory.stackSize > 1 then
    ⟨some .dedent, { memory with stackSize := memory.stackSize - 1 }, []⟩
  else ⟨none, memory, []⟩

def scan (valid : ValidSymbols) (memory : Memory) (input : Text) : Result :=
  if memory.pendingDedents > 0 && valid.dedent then
    ⟨some .dedent, { memory with pendingDedents := memory.pendingDedents - 1 }, input⟩
  else if memory.pendingDedents = 0 && memory.pendingNewline && valid.newline then
    ⟨some .newline, { memory with pendingNewline := false }, input⟩
  else if !valid.newline && !valid.indent && !valid.dedent then ⟨none, memory, input⟩
  else
    match position input with
    | .line indent rest => atLine valid memory (UInt16.ofNat indent) rest
    | .eof => atEof valid memory
    | .elsewhere => ⟨none, memory, input⟩

/-- The scanner that the memory holds. -/
def view (memory : Memory) : Scanner where
  indentStack := (CellStack.live memory.indentStack memory.stackSize.toNat).map UInt16.toNat
  pendingDedents := memory.pendingDedents.toNat
  pendingNewline := memory.pendingNewline

def Result.view (result : Result) : Scanned := ⟨result.symbol, result.memory.view, result.rest⟩

/-- The size stays within the array, above the last level. -/
structure Sized (memory : Memory) : Prop where
  nonempty : 1 ≤ memory.stackSize.toNat
  capacity : memory.stackSize.toNat ≤ maxIndentLevels

theorem sized_create : Sized create := ⟨Nat.le_refl 1, by decide⟩

theorem view_create : create.view = Grammar.create := by decide

theorem entry_eq (memory : Memory) {index : Nat} (within : index < maxIndentLevels) :
    memory.entry index = memory.indentStack[index] := by
  simp [entry, Vector.getD, within]

theorem Sized.view_stackSize {memory : Memory} (sized : Sized memory) :
    memory.view.stackSize = memory.stackSize.toNat := by
  rw [Scanner.stackSize, view, List.length_map, CellStack.length_live sized.capacity]

/-- The stack of the memory, with its innermost level in front. -/
theorem Sized.view_indentStack {memory : Memory} (sized : Sized memory) :
    memory.view.indentStack = memory.currentIndent.toNat ::
      (CellStack.live memory.indentStack (memory.stackSize.toNat - 1)).map UInt16.toNat := by
  obtain ⟨below, size⟩ := Nat.exists_eq_add_of_le' sized.nonempty
  have within : below < maxIndentLevels := by
    have capacity := sized.capacity
    omega
  rw [view, currentIndent, size, CellStack.live_succ within, List.map_cons, Nat.add_sub_cancel,
    entry_eq memory within]

theorem Sized.view_currentIndent {memory : Memory} (sized : Sized memory) :
    memory.view.currentIndent = memory.currentIndent.toNat := by
  rw [Scanner.currentIndent, sized.view_indentStack, List.headD_cons]

/-- A width is the innermost level in memory if it is that of the scanner. -/
theorem Sized.decide_currentIndent {memory : Memory} (sized : Sized memory) (indent : UInt16) :
    decide (memory.currentIndent = indent) =
      decide (memory.view.currentIndent = indent.toNat) := by
  rw [sized.view_currentIndent]
  exact decide_eq_decide.mpr UInt16.toNat_inj.symm

/-- The counter wraps around below zero. -/
theorem toNat_pred (count : UInt8) : (count - 1).toNat = (count.toNat + (2 ^ 8 - 1)) % 2 ^ 8 := by
  rw [UInt8.toNat_sub, Nat.add_comm]
  rfl

/-- What a size one less leaves of the stack. -/
theorem Sized.below {memory lesser : Memory} (sized : Sized memory) (deep : 1 < memory.stackSize)
    (cells : lesser.indentStack = memory.indentStack) (size : lesser.stackSize = memory.stackSize - 1) :
    Sized lesser ∧ lesser.stackSize.toNat + 1 = memory.stackSize.toNat ∧
      memory.view.indentStack = memory.currentIndent.toNat :: lesser.view.indentStack := by
  have nonempty := UInt8.lt_iff_toNat_lt.mp deep
  have one : UInt8.toNat 1 = 1 := rfl
  have fewer : lesser.stackSize.toNat = memory.stackSize.toNat - 1 := by
    rw [size, UInt8.toNat_sub_of_le _ _ sized.nonempty, one]
  refine ⟨⟨?_, ?_⟩, ?_, ?_⟩
  · omega
  · exact Nat.le_trans (by omega) sized.capacity
  · omega
  · rw [sized.view_indentStack, view, cells, fewer]

/-- The last level has none below it. -/
theorem Sized.view_indentStack_of_last {memory : Memory} (sized : Sized memory)
    (last : ¬ 1 < memory.stackSize) : memory.view.indentStack = [memory.currentIndent.toNat] := by
  have size : memory.stackSize.toNat - 1 = 0 := Nat.sub_eq_zero_of_le (Nat.le_of_not_lt last)
  rw [sized.view_indentStack, size]
  rfl

/-- The two loops pop the same levels. -/
theorem Sized.popLevels {memory : Memory} (sized : Sized memory) (indent : UInt16) {turns : Nat}
    (enough : memory.stackSize.toNat ≤ turns) :
    Sized (popLevels indent turns memory) ∧ (popLevels indent turns memory).view =
      let popped := Grammar.popLevels indent.toNat memory.view.pendingDedents memory.view.indentStack
      ⟨popped.1, popped.2, memory.pendingNewline⟩ := by
  induction turns generalizing memory with
  | zero =>
    have nonempty := sized.nonempty
    omega
  | succ turns ih =>
    let lesser : Memory := { memory with
      stackSize := memory.stackSize - 1
      pendingDedents := memory.pendingDedents + 1 }
    by_cases deep : 1 < memory.stackSize
    · obtain ⟨sizedLesser, fewer, stack⟩ : Sized lesser ∧ _ := sized.below deep rfl rfl
      rw [stack, sizedLesser.view_indentStack, Grammar.popLevels]
      by_cases wider : indent < memory.currentIndent
      · have counted : (memory.view.pendingDedents + 1) % 2 ^ 8 = lesser.view.pendingDedents :=
          (UInt8.toNat_add memory.pendingDedents 1).symm
        rw [Memory.popLevels, if_pos (by simp [deep, wider]), if_pos (UInt16.lt_iff_toNat_lt.mp wider),
          counted, ← sizedLesser.view_indentStack]
        exact ih sizedLesser (Nat.le_of_succ_le_succ (Nat.le_trans (Nat.le_of_eq fewer) enough))
      · rw [Memory.popLevels, if_neg (by simp [wider]), if_neg (mt UInt16.lt_iff_toNat_lt.mpr wider),
          ← sizedLesser.view_indentStack, ← stack]
        exact ⟨sized, rfl⟩
    · have stays : Grammar.popLevels indent.toNat memory.view.pendingDedents memory.view.indentStack =
          (memory.view.indentStack, memory.view.pendingDedents) := by
        rw [sized.view_indentStack_of_last deep]
        rfl
      rw [Memory.popLevels, if_neg (by simp [deep]), stays]
      exact ⟨sized, rfl⟩

/-- Storing a width past the innermost level opens a level. -/
theorem sized_push {memory : Memory} (room : memory.stackSize.toNat < maxIndentLevels)
    (indent : UInt16) :
    let pushed : Memory := { memory with
      indentStack := memory.indentStack.setIfInBounds memory.stackSize.toNat indent
      stackSize := memory.stackSize + 1 }
    Sized pushed ∧
      pushed.view = { memory.view with indentStack := indent.toNat :: memory.view.indentStack } := by
  have more : (memory.stackSize + 1).toNat = memory.stackSize.toNat + 1 := by
    rw [UInt8.toNat_add]
    exact Nat.mod_eq_of_lt (Nat.lt_of_le_of_lt room (by decide))
  intro pushed
  refine ⟨⟨?_, ?_⟩, ?_⟩
  · exact more ▸ Nat.le_add_left 1 _
  · exact more ▸ room
  · simp only [view, pushed]
    rw [more, CellStack.live_push room, List.map_cons]

/-- A result in memory is what the scanner of lists leaves. -/
structure Mirrors (result : Result) (scanned : Scanned) : Prop where
  sized : Sized result.memory
  same : result.view = scanned

/-- Two branches on the same condition. -/
theorem Mirrors.ite {ours theirs : Bool} {result other : Result} {scanned otherwise : Scanned}
    (condition : ours = theirs) (yes : ours = true → Mirrors result scanned)
    (no : ¬ ours = true → Mirrors other otherwise) :
    Mirrors (if ours then result else other) (if theirs then scanned else otherwise) := by
  subst condition
  split
  · next holds => exact yes holds
  · next fails => exact no fails

theorem Sized.atLine {memory : Memory} (sized : Sized memory) (valid : ValidSymbols)
    (indent : UInt16) (rest : Text) :
    Mirrors (atLine valid memory indent rest) (Grammar.atLine valid memory.view indent.toNat rest) := by
  rw [Memory.atLine, Grammar.atLine, sized.view_currentIndent]
  refine .ite rfl (fun _ => ?deeper) fun _ => .ite rfl (fun _ => ?shallower) fun _ =>
    .ite ?level (fun _ => ⟨sized, rfl⟩) fun _ => ⟨sized, rfl⟩
  case deeper =>
    rw [sized.view_stackSize]
    split
    · next room =>
      obtain ⟨pushed, same⟩ := sized_push room indent
      exact ⟨pushed, by rw [Result.view, same]⟩
    · exact ⟨sized, rfl⟩
  case shallower =>
    obtain ⟨popped, same⟩ := sized.popLevels indent (Nat.le_refl _)
    have stack := congrArg Scanner.indentStack same
    have count := congrArg Scanner.pendingDedents same
    have queued := congrArg Scanner.pendingNewline same
    dsimp only at stack count queued ⊢
    rw [← stack, ← count]
    generalize Memory.popLevels indent memory.stackSize.toNat memory = lesser at popped queued ⊢
    refine ⟨⟨popped.nonempty, popped.capacity⟩, ?_⟩
    rw [Result.view, view, toNat_pred, popped.decide_currentIndent]
    -- The loop leaves the pending newline as it was.
    change _ = Scanned.mk _ ⟨_, _, memory.pendingNewline || _⟩ _
    rw [← queued]
    rfl
  case level =>
    rw [decide_eq_decide.mpr UInt16.toNat_inj.symm]

theorem Sized.atEof {memory : Memory} (sized : Sized memory) (valid : ValidSymbols) :
    Mirrors (atEof valid memory) (Grammar.atEof valid memory.view) := by
  rw [Memory.atEof, Grammar.atEof, sized.view_stackSize]
  refine .ite rfl (fun closes => ?_) fun _ => ⟨sized, rfl⟩
  simp only [gt_iff_lt, Bool.and_eq_true, decide_eq_true_eq] at closes
  let lesser : Memory := { memory with stackSize := memory.stackSize - 1 }
  obtain ⟨sizedLesser, -, stack⟩ : Sized lesser ∧ _ := sized.below closes.2 rfl rfl
  rw [stack]
  exact ⟨sizedLesser, rfl⟩

/-- A call does the same in memory as to the scanner that the memory holds. -/
theorem Sized.scan {memory : Memory} (sized : Sized memory) (valid : ValidSymbols) (input : Text) :
    Mirrors (scan valid memory input) (Grammar.scan valid memory.view input) := by
  rw [Memory.scan, Grammar.scan]
  refine .ite rfl (fun due => ?pendingDedent) fun _ => .ite ?settled
    (fun _ => ⟨⟨sized.nonempty, sized.capacity⟩, rfl⟩) fun _ => .ite rfl (fun _ => ⟨sized, rfl⟩)
    fun _ => ?line
  case pendingDedent =>
    simp only [gt_iff_lt, Bool.and_eq_true, decide_eq_true_eq] at due
    have one : (memory.pendingDedents - 1).toNat = memory.view.pendingDedents - 1 :=
      UInt8.toNat_sub_of_le _ _ due.1
    refine ⟨⟨sized.nonempty, sized.capacity⟩, ?_⟩
    rw [← one]
    rfl
  case settled =>
    rw [decide_eq_decide.mpr UInt8.toNat_inj.symm]
    rfl
  case line =>
    cases found : position input with
    | line indent rest =>
      have measured : (UInt16.ofNat indent).toNat = indent :=
        UInt16.toNat_ofNat_of_lt' (indent_lt found)
      have mirrors := sized.atLine valid (UInt16.ofNat indent) rest
      rwa [measured] at mirrors
    | eof => exact sized.atEof valid
    | elsewhere => exact ⟨sized, rfl⟩

/-! ## Runs -/

/-- The memory after a call, and the token emitted if there is one. -/
def step (memory : Memory) (call : Call) : Memory × List TokenType :=
  let result := scan call.valid memory call.input
  (result.memory, result.symbol.toList)

/-- The memory and the tokens emitted after calls from a fresh one. -/
def afterCalls (calls : List Call) : Memory × List TokenType := emit step create calls

/-- The memory holds the scanner. -/
structure Holds (memory : Memory) (scanner : Scanner) : Prop where
  sized : Sized memory
  same : memory.view = scanner

theorem Holds.step {memory : Memory} {scanner : Scanner} (holds : Holds memory scanner)
    (call : Call) : Holds (step memory call).1 (Call.step scanner call).1 ∧
      (Memory.step memory call).2 = (Call.step scanner call).2 := by
  obtain ⟨sized, rfl⟩ := holds
  obtain ⟨kept, same⟩ := sized.scan call.valid call.input
  rw [Call.step, ← same]
  exact ⟨⟨kept, rfl⟩, rfl⟩

/-- Any calls leave the same scanner in memory and emit the same tokens. -/
theorem holds_afterCalls (calls : List Call) :
    Holds (afterCalls calls).1 (Grammar.afterCalls calls).1 ∧
      (afterCalls calls).2 = (Grammar.afterCalls calls).2 := by
  have steps : ∀ memory scanner call twin, call = twin → Holds memory scanner →
      Holds (step memory call).1 (Call.step scanner twin).1 ∧
        (step memory call).2 = (Call.step scanner twin).2 := by
    rintro memory scanner call _ rfl holds
    exact holds.step call
  have pairwise : List.Forall₂ (· = ·) calls calls := by rw [List.forall₂_eq_eq_eq]
  exact emit_simulation (· = ·) Holds steps pairwise ⟨sized_create, view_create⟩

end Memory

end Ill.Grammar
