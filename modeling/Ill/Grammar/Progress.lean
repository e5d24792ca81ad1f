import Ill.Grammar.Balance

/-!
# Progress of the scanner

Some tokens are emitted without reading any text. A call that scans a line pays for
them in advance, two tokens for every newline, with the levels it leaves open and the
tokens it leaves pending as the potential. At the end of the input only what is left
of that can be emitted.
-/

namespace Ill.Grammar

open Ill.Base
open Ill.Base.Utf8 (Text)
open Ill.Base.Layout (Levels)

/-! ## Well-formed scanners -/

/-- What holds of the scanner after any calls, also past the capacity of its stack. -/
structure Formed (scanner : Scanner) : Prop where
  grounded : scanner.indentStack.getLast? = some 0
  increasing : scanner.indentStack.Pairwise (· > ·)
  capacity : scanner.stackSize ≤ maxIndentLevels
  widths : ∀ level ∈ scanner.indentStack, level < 2 ^ 16
  pending : scanner.pendingDedents ≤ maxIndentLevels - 2

theorem formed_create : Formed create where
  grounded := rfl
  increasing := List.pairwise_singleton _ _
  capacity := by decide
  widths := by decide
  pending := by decide

/-- The stack of a well-formed scanner, as the levels of the off-side rule. -/
def Formed.levels {scanner : Scanner} (formed : Formed scanner) : Levels Nat where
  widths := scanner.indentStack
  nested := formed.increasing
  grounded := formed.grounded

theorem Formed.opened {scanner : Scanner} (formed : Formed scanner) : 1 ≤ scanner.stackSize := by
  have whole := formed.levels.length_widths
  change scanner.stackSize = _ at whole
  omega

/-- What a narrower line leaves of the stack is not empty and shorter. -/
theorem Formed.length_kept {scanner : Scanner} (formed : Formed scanner) {indent : Nat}
    (shallower : indent < scanner.currentIndent) :
    1 ≤ (formed.levels.closing indent).widths.length ∧
      (formed.levels.closing indent).widths.length < scanner.stackSize :=
  formed.levels.length_closing shallower

/-- What a narrower line pops: at least one level, which the call closes itself. -/
theorem Formed.popLevels_eq {scanner : Scanner} (formed : Formed scanner) {indent : Nat}
    (shallower : indent < scanner.currentIndent) :
    ∃ others, popLevels indent 0 scanner.indentStack =
        ((formed.levels.closing indent).widths, others + 1) ∧
      scanner.stackSize = (formed.levels.closing indent).widths.length + (others + 1) := by
  have capacity := formed.capacity
  obtain ⟨-, shorter⟩ := formed.length_kept shallower
  obtain ⟨others, size⟩ := Nat.exists_eq_add_of_lt shorter
  have fits : 0 + scanner.indentStack.length ≤ 2 ^ 8 := by
    unfold Scanner.stackSize maxIndentLevels at capacity
    omega
  refine ⟨others, ?_, size⟩
  rw [Grammar.popLevels_eq formed.grounded fits]
  refine Prod.ext rfl ?_
  change 0 + (scanner.stackSize - (formed.levels.closing indent).widths.length) = _
  omega

/-- Every call keeps the scanner well formed. -/
theorem Formed.scans {valid : ValidSymbols} {scanner : Scanner} {input : Text} {scanned : Scanned}
    (formed : Formed scanner) (scans : Scans valid scanner input scanned) : Formed scanned.scanner := by
  obtain ⟨grounded, increasing, capacity, widths, pending⟩ := id formed
  cases scans with
  | nothing rest => exact formed
  | pendingDedent _ usable =>
    exact ⟨grounded, increasing, capacity, widths, Nat.le_trans (Nat.sub_le _ _) pending⟩
  | pendingNewline _ => exact ⟨grounded, increasing, capacity, widths, pending⟩
  | @opened indent rest found deeper room =>
    let pushed := formed.levels.opening indent deeper
    exact ⟨pushed.grounded, pushed.nested, room, List.forall_mem_cons.mpr ⟨indent_lt found, widths⟩,
      pending⟩
  | overflowed _ full => exact formed
  | @closed indent rest popped found shallower settled pops =>
    obtain ⟨others, popping, size⟩ := formed.popLevels_eq shallower
    obtain ⟨nonempty, shorter⟩ := formed.length_kept shallower
    let kept := formed.levels.closing indent
    subst pops
    rw [popping]
    refine ⟨kept.grounded, kept.nested, Nat.le_trans (Nat.le_of_lt shorter) capacity, ?_, ?_⟩
    · exact fun level inside => widths level ((List.dropWhile_sublist _).subset inside)
    · dsimp only
      unfold maxIndentLevels at capacity ⊢
      omega
  | sameLevel _ => exact formed
  | closedAtEof _ open_ settled =>
    refine ⟨Levels.getLast?_tail grounded open_, increasing.tail, ?_, ?_, pending⟩
    · rw [Scanner.stackSize, List.length_tail]
      exact Nat.le_trans (Nat.sub_le _ _) capacity
    · exact fun level inside => widths level (List.mem_of_mem_tail inside)

/-! ## The text that is passed over -/

/-- A token, with the text that the call passed over for it. -/
structure Lexeme where
  symbol : TokenType
  text : Text
deriving DecidableEq, Repr

def newlines (text : Text) : Nat := text.countP isNewline

/-- What stands between the start of an input and the rest of it. -/
def passed (input rest : Text) : Text := input.take (input.length - rest.length)

theorem passed_append {input rest : Text} (suffix : rest <:+ input) : passed input rest ++ rest = input := by
  obtain ⟨front, rfl⟩ := suffix
  simp [passed]

/-- One call, with the text passed over for the token it emits. -/
def Call.lex (scanner : Scanner) (call : Call) : Scanner × List Lexeme :=
  let scanned := scan call.valid scanner call.input
  (scanned.scanner, scanned.symbol.toList.map fun symbol => ⟨symbol, passed call.input scanned.rest⟩)

/-- The tokens of calls, with the text passed over for each. -/
def lexed (calls : List Call) : Scanner × List Lexeme := emit Call.lex create calls

theorem emit_step (scanner : Scanner) (calls : List Call) :
    emit Call.step scanner calls =
      ((emit Call.lex scanner calls).1, (emit Call.lex scanner calls).2.map Lexeme.symbol) := by
  refine emit_map ?_ scanner calls
  intro scanner call
  rw [Call.step, Call.lex, List.map_map]
  exact congrArg (Prod.mk _) (List.map_id _).symm

/-- A call that emits a token leaves a rest of its text. -/
theorem Scans.rest_suffix {valid : ValidSymbols} {scanner : Scanner} {input : Text} {scanned : Scanned}
    (scans : Scans valid scanner input scanned) (emitted : scanned.symbol.isSome = true) :
    scanned.rest <:+ input := by
  have ofLine {indent : Nat} {rest : Text} (found : position input = .line indent rest) :
      rest <:+ input := by
    obtain ⟨newline, text, -, rfl, measured⟩ := position_eq_line found
    have within := skipLines_suffix 0 text
    rw [measured] at within
    exact within.trans (List.suffix_cons newline text)
  cases scans with
  | nothing rest => cases emitted
  | pendingDedent _ _ => exact List.suffix_rfl
  | pendingNewline _ => exact List.suffix_rfl
  | opened found _ _ => exact ofLine found
  | overflowed found _ => exact ofLine found
  | closed found _ _ _ => exact ofLine found
  | sameLevel found => exact ofLine found
  | closedAtEof _ _ _ => exact List.nil_suffix

/-- A line is read past a newline. -/
theorem newlines_of_line {input rest : Text} {indent : Nat} (found : position input = .line indent rest) :
    1 ≤ newlines (passed input rest) := by
  obtain ⟨newline, text, isNewline, rfl, measured⟩ := position_eq_line found
  have within := (skipLines_suffix 0 text).length_le
  rw [measured] at within
  have size : (newline :: text).length - rest.length = (text.length - rest.length) + 1 := by
    rw [List.length_cons]
    exact Nat.succ_sub within
  rw [passed, size, List.take_succ_cons, newlines, List.countP_cons_of_pos isNewline]
  exact Nat.succ_le_succ (Nat.zero_le _)

/-! ## What is paid for -/

/-- The levels to be closed and the tokens pending. -/
def potential (scanner : Scanner) : Nat :=
  scanner.stackSize + scanner.pendingDedents + scanner.pendingNewline.toNat

/-- A token is paid for by the potential, or in advance by a newline. -/
theorem Formed.paid {valid : ValidSymbols} {scanner : Scanner} {input : Text} {scanned : Scanned}
    (formed : Formed scanner) (scans : Scans valid scanner input scanned) {symbol : TokenType}
    (emitted : scanned.symbol = some symbol) :
    1 + potential scanned.scanner ≤ potential scanner + 2 * newlines (passed input scanned.rest) := by
  have capacity := formed.capacity
  unfold potential
  cases scans with
  | nothing rest => cases emitted
  | pendingDedent pending _ =>
    dsimp only [Scanner.stackSize]
    omega
  | pendingNewline pending =>
    simp only [Scanner.stackSize, pending, Bool.toNat_true, Bool.toNat_false]
    omega
  | opened found _ _ =>
    have paid := newlines_of_line found
    simp only [Scanner.stackSize, List.length_cons]
    omega
  | overflowed found _ =>
    have paid := newlines_of_line found
    dsimp only
    omega
  | @closed indent rest popped found shallower settled pops =>
    have paid := newlines_of_line found
    obtain ⟨others, popping, size⟩ := formed.popLevels_eq shallower
    subst pops
    rw [popping]
    -- The pending newline is the second token that the line pays for.
    have queued := Bool.toNat_le (scanner.pendingNewline ||
      decide ((formed.levels.closing indent).widths.headD 0 = indent))
    simp only [Scanner.stackSize] at capacity size ⊢
    unfold maxIndentLevels at capacity
    omega
  | sameLevel found =>
    have paid := newlines_of_line found
    dsimp only
    omega
  | closedAtEof _ open_ _ =>
    simp only [Scanner.stackSize, List.length_tail] at open_ ⊢
    omega

/-! ## Runs -/

theorem Formed.lex {scanner : Scanner} (formed : Formed scanner) (call : Call) :
    Formed (Call.lex scanner call).1 :=
  formed.scans (scan_scans call.valid scanner call.input)

theorem Formed.covered {scanner : Scanner} (formed : Formed scanner) (call : Call) :
    ((Call.lex scanner call).2.map fun _ => 1).sum + potential (Call.lex scanner call).1 ≤
      potential scanner + ((Call.lex scanner call).2.map fun lexeme => 2 * newlines lexeme.text).sum := by
  have scans := scan_scans call.valid scanner call.input
  rw [Call.lex]
  generalize scan call.valid scanner call.input = scanned at scans
  cases emitted : scanned.symbol with
  | none =>
    cases scans with
    | nothing rest => simp
    | _ => cases emitted
  | some symbol =>
    have paid := formed.paid scans emitted
    simpa [emitted] using paid

theorem sum_newlines (lexemes : List Lexeme) :
    (lexemes.map fun lexeme => 2 * newlines lexeme.text).sum =
      2 * newlines (lexemes.flatMap Lexeme.text) := by
  induction lexemes with
  | nil => rfl
  | cons lexeme rest ih =>
    rw [List.map_cons, List.sum_cons, ih, List.flatMap_cons, newlines, newlines, newlines,
      List.countP_append, Nat.mul_add]

/-- The tokens of calls are paid for by newlines and by the potential. -/
theorem Formed.length_lexemes {scanner : Scanner} (formed : Formed scanner) (calls : List Call) :
    (emit Call.lex scanner calls).2.length + potential (emit Call.lex scanner calls).1 ≤
      potential scanner + 2 * newlines ((emit Call.lex scanner calls).2.flatMap Lexeme.text) := by
  have preserved : ∀ before call, Formed before → Formed (Call.lex before call).1 :=
    fun _ call formed => formed.lex call
  have covered := fun before call (_ : call ∈ calls) (formed : Formed before) => formed.covered call
  have amortized := emit_amortized preserved covered scanner formed
  rw [sum_newlines] at amortized
  simpa using amortized

/-- Calls at the end of the input, with nothing left to read. -/
def NothingLeft (calls : List Call) : Prop := ∀ call ∈ calls, call.input = []

theorem NothingLeft.text {calls : List Call} (nothingLeft : NothingLeft calls) (scanner : Scanner) :
    (emit Call.lex scanner calls).2.flatMap Lexeme.text = [] := by
  have each : ∀ lexeme ∈ (emit Call.lex scanner calls).2, lexeme.text = [] := by
    refine emit_outputs fun before call inside lexeme reported => ?_
    obtain ⟨symbol, -, rfl⟩ := List.mem_map.mp reported
    simp [passed, nothingLeft call inside]
  exact List.flatMap_eq_nil_iff.mpr each

def pendingNewlines (scanner : Scanner) : Nat := scanner.pendingNewline.toNat

/-- A NEWLINE at the end of the input is the one that was pending. -/
theorem newline_covered {scanner : Scanner} {call : Call} (ended : call.input = []) :
    ((Call.lex scanner call).2.map fun lexeme => if lexeme.symbol = .newline then 1 else 0).sum +
        pendingNewlines (Call.lex scanner call).1 ≤ pendingNewlines scanner := by
  unfold pendingNewlines
  have scans := scan_scans call.valid scanner call.input
  rw [Call.lex]
  generalize scan call.valid scanner call.input = scanned at scans
  have noLine {indent : Nat} {rest : Text} : position call.input ≠ .line indent rest := by
    rw [ended]
    exact nofun
  cases scans with
  | nothing rest => simp
  | pendingDedent _ _ => simp
  | pendingNewline pending => simp [pending]
  | opened found _ _ => exact absurd found noLine
  | overflowed found _ => exact absurd found noLine
  | closed found _ _ _ => exact absurd found noLine
  | sameLevel found => exact absurd found noLine
  | closedAtEof _ _ _ => simp

theorem sum_newline (lexemes : List Lexeme) :
    (lexemes.map fun lexeme => if lexeme.symbol = .newline then 1 else 0).sum =
      (lexemes.map Lexeme.symbol).count .newline := by
  induction lexemes with
  | nil => rfl
  | cons lexeme rest ih =>
    rw [List.map_cons, List.sum_cons, ih, List.map_cons, List.count_cons, Nat.add_comm]
    simp only [beq_iff_eq]

theorem count_newline_nothingLeft {calls : List Call} (nothingLeft : NothingLeft calls) (scanner : Scanner) :
    ((emit Call.lex scanner calls).2.map Lexeme.symbol).count .newline ≤ 1 := by
  have covered : ∀ before, ∀ call ∈ calls, True →
      ((Call.lex before call).2.map fun lexeme => if lexeme.symbol = .newline then 1 else 0).sum +
          pendingNewlines (Call.lex before call).1 ≤
        pendingNewlines before + ((Call.lex before call).2.map fun _ => 0).sum := by
    intro before call inside _
    exact Nat.le_add_right_of_le (newline_covered (nothingLeft call inside))
  have amortized := emit_amortized (fun _ _ _ => trivial) covered scanner trivial
  have queued : pendingNewlines scanner ≤ 1 := Bool.toNat_le scanner.pendingNewline
  rw [sum_newline] at amortized
  simp at amortized
  omega

/-! ## One input -/

/-- The calls go through one input. Each finds what is left of it, less what the
parser has taken by its own rules; a call that emits nothing leaves the text where
it was. -/
def Through (scanner : Scanner) : Text → List Call → Prop
  | _, [] => True
  | input, call :: rest =>
    let scanned := scan call.valid scanner call.input
    call.input <:+ input ∧
      Through scanned.scanner (if scanned.symbol.isSome then scanned.rest else call.input) rest

/-- What calls pass over for their tokens is text of their input, in its order. -/
theorem Through.text_sublist {scanner : Scanner} {input : Text} {calls : List Call}
    (through : Through scanner input calls) :
    ((emit Call.lex scanner calls).2.flatMap Lexeme.text).Sublist input := by
  induction calls generalizing scanner input with
  | nil => exact List.nil_sublist input
  | cons call rest ih =>
    obtain ⟨within, later⟩ := through
    have scans := scan_scans call.valid scanner call.input
    rw [emit_cons_output, List.flatMap_append]
    refine List.Sublist.trans ?_ within.sublist
    cases emitted : (scan call.valid scanner call.input).symbol with
    | none =>
      rw [emitted] at later
      simpa [Call.lex, emitted] using ih later
    | some symbol =>
      rw [emitted] at later
      have suffix := scans.rest_suffix (by rw [emitted]; rfl)
      have onward := (ih later).append_left (passed call.input (scan call.valid scanner call.input).rest)
      simp only [Option.isSome_some, if_true] at onward
      rw [passed_append suffix] at onward
      simpa [Call.lex, emitted] using onward

/-- The text that calls from a fresh scanner have passed over for their tokens. -/
def consumed (calls : List Call) : Text := (lexed calls).2.flatMap Lexeme.text

theorem Formed.potential_le {scanner : Scanner} (formed : Formed scanner) :
    potential scanner ≤ 2 * maxIndentLevels - 1 := by
  have capacity := formed.capacity
  have pending := formed.pending
  have queued := Bool.toNat_le scanner.pendingNewline
  unfold potential
  unfold maxIndentLevels at capacity pending ⊢
  omega

theorem Formed.le_potential {scanner : Scanner} (formed : Formed scanner) : 1 ≤ potential scanner := by
  have opened := formed.opened
  unfold potential
  omega

theorem Formed.emit {scanner : Scanner} (formed : Formed scanner) (calls : List Call) :
    Formed (emit Call.lex scanner calls).1 :=
  emit_invariant Formed (fun _ call _ formed => formed.lex call) formed

theorem formed_afterCalls (calls : List Call) : Formed (afterCalls calls).1 := by
  rw [afterCalls, emit_step]
  exact formed_create.emit calls

/-- Whatever calls the parser makes, the scanner emits at most two tokens for every
newline it has consumed, and so for every newline of the input the calls go through.
Calls at the end of the input emit no more than what was left open and pending, and
one NEWLINE at most, after any calls. -/
theorem scanner_progress (calls : List Call) :
    (afterCalls calls).2.length ≤ 2 * newlines (consumed calls) ∧
      (∀ input, Through create input calls → newlines (consumed calls) ≤ newlines input) ∧
      (∀ more, NothingLeft more →
        (emit Call.step (afterCalls calls).1 more).2.length ≤ 2 * maxIndentLevels - 2 ∧
          (emit Call.step (afterCalls calls).1 more).2.count .newline ≤ 1) ∧
      (afterCalls calls).1.pendingDedents ≤ maxIndentLevels - 2 := by
  have formed := formed_afterCalls calls
  refine ⟨?_, fun input through => ?_, fun more nothingLeft => ⟨?_, ?_⟩, formed.pending⟩
  · have amortized := formed_create.length_lexemes calls
    have open_ := (formed_create.emit calls).le_potential
    have fresh : potential create = 1 := rfl
    rw [afterCalls, emit_step, List.length_map, consumed, lexed]
    omega
  · exact through.text_sublist.countP_le
  · have amortized := formed.length_lexemes more
    have bounded := formed.potential_le
    have open_ := (formed.emit more).le_potential
    rw [nothingLeft.text] at amortized
    have unread : newlines [] = 0 := rfl
    rw [emit_step, List.length_map]
    omega
  · rw [emit_step]
    exact count_newline_nothingLeft nothingLeft _

/-- A block that the last newline of the input closes: the NEWLINE that is pending
is the only one at its end. -/
theorem scanner_progress_block :
    newlines (consumed [⟨⟨true, true, true⟩, "\n  a\n".toList⟩, ⟨⟨true, true, true⟩, "\n".toList⟩]) ≤
        newlines "\n  a\n".toList ∧
      (emit Call.step (afterCalls [⟨⟨true, true, true⟩, "\n  a\n".toList⟩,
          ⟨⟨true, true, true⟩, "\n".toList⟩]).1
        (List.replicate 3 ⟨⟨true, true, true⟩, []⟩)).2.count .newline ≤ 1 := by
  obtain ⟨-, within, ended, -⟩ := scanner_progress
    [⟨⟨true, true, true⟩, "\n  a\n".toList⟩, ⟨⟨true, true, true⟩, "\n".toList⟩]
  have through : Through create "\n  a\n".toList
      [⟨⟨true, true, true⟩, "\n  a\n".toList⟩, ⟨⟨true, true, true⟩, "\n".toList⟩] :=
    ⟨by decide, by decide, trivial⟩
  have nothingLeft : NothingLeft (List.replicate 3 ⟨⟨true, true, true⟩, []⟩) := by
    intro call inside
    rw [List.eq_of_mem_replicate inside]
  exact ⟨within _ through, (ended _ nothingLeft).2⟩

end Ill.Grammar
