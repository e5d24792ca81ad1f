import Ill.Base.Layout
import Ill.Base.Utf8
import Mathlib.Algebra.GroupWithZero.Nat
import Mathlib.Order.Nat

/-!
# The layout scanner

The external scanner of the grammar measures the indentation of every line
that is not blank and emits NEWLINE, INDENT and DEDENT tokens. One call reads
from where the lexer stands; what it leaves behind is the whole of its effect.
`scan_cases` says once what a call can do, and the results about runs of calls
only use that.
-/

namespace Ill.Grammar

open Ill.Base.Utf8 (Text)

/-- The tokens of the grammar's `externals` are the marks of the off-side rule. -/
abbrev TokenType := Ill.Base.Layout.Mark

def maxIndentLevels : Nat := 64

def tabWidth : Nat := 2

/-- `indentStack` holds the entries below `stack_size`, the last one first. An
entry above is written before it is read. -/
structure Scanner where
  indentStack : List Nat
  pendingDedents : Nat
  pendingNewline : Bool
deriving DecidableEq, Repr

def Scanner.stackSize (scanner : Scanner) : Nat := scanner.indentStack.length

def Scanner.currentIndent (scanner : Scanner) : Nat := scanner.indentStack.headD 0

def create : Scanner := ⟨[0], 0, false⟩

/-- The tokens the parser can use where it calls the scanner. -/
structure ValidSymbols where
  newline : Bool
  indent : Bool
  dedent : Bool
deriving DecidableEq, Repr

/-- What a call leaves: the token if it returned true, the scanner, and the
text the lexer has not advanced over. -/
structure Scanned where
  symbol : Option TokenType
  scanner : Scanner
  rest : Text
deriving DecidableEq, Repr

def isNewline (char : Char) : Bool := char = '\n' || char = '\r'

/-- The loop over newlines, entered after the first of them: the indentation of
the next line that is not blank, in 16 bits, and the text from its end on. -/
def skipLines (indent : Nat) : Text → Nat × Text
  | [] => (indent, [])
  | char :: rest =>
    if char = ' ' then skipLines ((indent + 1) % 2 ^ 16) rest
    else if char = '\t' then skipLines ((indent + tabWidth) % 2 ^ 16) rest
    else if isNewline char then skipLines 0 rest
    else (indent, char :: rest)

/-- The loop that pops the levels above `indent`, never the last one. -/
def popLevels (indent pending : Nat) : List Nat → List Nat × Nat
  | top :: below :: rest =>
    if indent < top then popLevels indent ((pending + 1) % 2 ^ 8) (below :: rest)
    else (top :: below :: rest, pending)
  | stack => (stack, pending)

/-- Popping closes the levels wider than the line, and counts them without
wrapping as long as the counter can hold the whole stack. -/
theorem popLevels_eq {indent pending : Nat} {stack : List Nat} (grounded : stack.getLast? = some 0)
    (fits : pending + stack.length ≤ 2 ^ 8) :
    popLevels indent pending stack =
      (stack.dropWhile fun level => indent < level,
        pending + (stack.length - (stack.dropWhile fun level => indent < level).length)) := by
  induction stack generalizing pending with
  | nil => simp at grounded
  | cons top below ih =>
    cases below with
    | nil =>
      have bottom : top = 0 := by simpa using grounded
      subst bottom
      simp [popLevels]
    | cons next rest =>
      rw [List.getLast?_cons_cons] at grounded
      simp only [List.length_cons] at fits ih ⊢
      by_cases wider : indent < top
      · have small : (pending + 1) % 2 ^ 8 = pending + 1 := Nat.mod_eq_of_lt (by omega)
        have shorter := (List.dropWhile_sublist (l := next :: rest) fun level => indent < level).length_le
        have dropped : (top :: next :: rest).dropWhile (fun level => indent < level) =
            (next :: rest).dropWhile fun level => indent < level :=
          List.dropWhile_cons_of_pos (by simpa using wider)
        rw [popLevels, if_pos wider, small, ih grounded (by omega), dropped]
        rw [List.length_cons] at shorter
        refine Prod.ext rfl ?_
        dsimp only
        omega
      · rw [popLevels, if_neg wider, List.dropWhile_cons_of_neg (by simpa using wider)]
        simp

/-- The comparison of a measured line with the innermost level. -/
def atLine (valid : ValidSymbols) (scanner : Scanner) (indent : Nat) (rest : Text) : Scanned :=
  let cur := scanner.currentIndent
  if indent > cur && valid.indent then
    let pushed := if scanner.stackSize < maxIndentLevels then
      { scanner with indentStack := indent :: scanner.indentStack } else scanner
    ⟨some .indent, pushed, rest⟩
  else if indent < cur && valid.dedent then
    let popped := popLevels indent scanner.pendingDedents scanner.indentStack
    ⟨some .dedent, {
      indentStack := popped.1
      pendingDedents := (popped.2 + (2 ^ 8 - 1)) % 2 ^ 8
      pendingNewline := scanner.pendingNewline || popped.1.headD 0 = indent }, rest⟩
  else if indent = cur && valid.newline then ⟨some .newline, scanner, rest⟩
  else ⟨none, scanner, rest⟩

/-- The end of the input closes one open level. -/
def atEof (valid : ValidSymbols) (scanner : Scanner) : Scanned :=
  if valid.dedent && scanner.stackSize > 1 then
    ⟨some .dedent, { scanner with indentStack := scanner.indentStack.tail }, []⟩
  else ⟨none, scanner, []⟩

/-- Where a call finds itself once it has passed the newlines under the lexer. -/
inductive Position where
  | line (indent : Nat) (rest : Text)
  | eof
  | elsewhere
deriving DecidableEq, Repr

/-- A line is looked for at newlines only. White space alone before the end of
the input is no line. -/
def position : Text → Position
  | [] => .eof
  | char :: rest =>
    if isNewline char then
      let line := skipLines 0 rest
      if line.2.isEmpty && line.1 > 0 then .eof else .line line.1 line.2
    else .elsewhere

def scan (valid : ValidSymbols) (scanner : Scanner) (input : Text) : Scanned :=
  if scanner.pendingDedents > 0 && valid.dedent then
    ⟨some .dedent, { scanner with pendingDedents := scanner.pendingDedents - 1 }, input⟩
  else if scanner.pendingDedents = 0 && scanner.pendingNewline && valid.newline then
    ⟨some .newline, { scanner with pendingNewline := false }, input⟩
  else if !valid.newline && !valid.indent && !valid.dedent then ⟨none, scanner, input⟩
  else
    match position input with
    | .line indent rest => atLine valid scanner indent rest
    | .eof => atEof valid scanner
    | .elsewhere => ⟨none, scanner, input⟩

/-- The call reaches the newline branch: no pending token is due. -/
def nothingDue (valid : ValidSymbols) (scanner : Scanner) : Bool :=
  !(scanner.pendingDedents > 0 && valid.dedent) &&
    !(scanner.pendingDedents = 0 && scanner.pendingNewline && valid.newline)

/-- The call opens a level that the stack has no entry for. -/
def opensPastCapacity (valid : ValidSymbols) (scanner : Scanner) (input : Text) : Bool :=
  nothingDue valid scanner && valid.indent && scanner.stackSize ≥ maxIndentLevels &&
    match position input with
    | .line indent _ => indent > scanner.currentIndent
    | _ => false

/-- What one call can do, one case for every branch that emits a token, and one for
all that emit none. Where nothing is due, the text has been read up to a line or to
its end. -/
inductive Scans (valid : ValidSymbols) (scanner : Scanner) (input : Text) : Scanned → Prop where
  | nothing (rest : Text) : Scans valid scanner input ⟨none, scanner, rest⟩
  | pendingDedent (pending : 0 < scanner.pendingDedents) (usable : valid.dedent = true) :
      Scans valid scanner input
        ⟨some .dedent, { scanner with pendingDedents := scanner.pendingDedents - 1 }, input⟩
  | pendingNewline (pending : scanner.pendingNewline = true) :
      Scans valid scanner input ⟨some .newline, { scanner with pendingNewline := false }, input⟩
  | opened {indent : Nat} {rest : Text} (found : position input = .line indent rest)
      (deeper : scanner.currentIndent < indent) (room : scanner.stackSize < maxIndentLevels) :
      Scans valid scanner input
        ⟨some .indent, { scanner with indentStack := indent :: scanner.indentStack }, rest⟩
  | overflowed {indent : Nat} {rest : Text} (found : position input = .line indent rest)
      (full : opensPastCapacity valid scanner input = true) :
      Scans valid scanner input ⟨some .indent, scanner, rest⟩
  | closed {indent : Nat} {rest : Text} {popped : List Nat × Nat}
      (found : position input = .line indent rest) (shallower : indent < scanner.currentIndent)
      (settled : scanner.pendingDedents = 0) (pops : popLevels indent 0 scanner.indentStack = popped) :
      Scans valid scanner input ⟨some .dedent, {
        indentStack := popped.1
        pendingDedents := (popped.2 + (2 ^ 8 - 1)) % 2 ^ 8
        pendingNewline := scanner.pendingNewline || popped.1.headD 0 = indent }, rest⟩
  | sameLevel {indent : Nat} {rest : Text} (found : position input = .line indent rest) :
      Scans valid scanner input ⟨some .newline, scanner, rest⟩
  | closedAtEof (found : position input = .eof) (open_ : 1 < scanner.stackSize)
      (settled : scanner.pendingDedents = 0) :
      Scans valid scanner input
        ⟨some .dedent, { scanner with indentStack := scanner.indentStack.tail }, []⟩

/-- Every call does one of these. -/
theorem scan_scans (valid : ValidSymbols) (scanner : Scanner) (input : Text) :
    Scans valid scanner input (scan valid scanner input) := by
  unfold scan
  split
  · next due =>
    simp only [Bool.and_eq_true, decide_eq_true_eq] at due
    exact .pendingDedent due.1 due.2
  next noDedent =>
  split
  · next due =>
    simp only [Bool.and_eq_true, decide_eq_true_eq] at due
    exact .pendingNewline due.1.2
  next noNewline =>
  have unpending : valid.dedent = true → scanner.pendingDedents = 0 := by
    intro usable
    simpa [usable] using noDedent
  split
  · exact .nothing input
  split
  · next indent rest line =>
    unfold atLine
    dsimp only
    split
    · next deeper =>
      simp only [Bool.and_eq_true, decide_eq_true_eq] at deeper
      split
      · next room => exact .opened line deeper.1 room
      · next full =>
        have idle : nothingDue valid scanner = true := by
          simp only [nothingDue, noDedent, noNewline, Bool.not_false, Bool.and_self]
        have atCapacity : maxIndentLevels ≤ scanner.stackSize := Nat.le_of_not_lt full
        refine .overflowed line ?_
        simp [opensPastCapacity, idle, line, deeper, atCapacity]
    split
    · next shallower =>
      simp only [Bool.and_eq_true, decide_eq_true_eq] at shallower
      have settled := unpending shallower.2
      rw [settled]
      exact .closed line shallower.1 settled rfl
    split
    · exact .sameLevel line
    · exact .nothing rest
  · next ended =>
    unfold atEof
    split
    · next closes =>
      simp only [Bool.and_eq_true, decide_eq_true_eq] at closes
      exact .closedAtEof ended closes.2 (unpending closes.1)
    · exact .nothing []
  · exact .nothing input

/-- What one call can do to a scanner. Every emitting branch has its case; a
call that emits nothing has one case for all its branches. -/
inductive Emits (valid : ValidSymbols) (scanner : Scanner) (input : Text) :
    Option TokenType → Scanner → Prop where
  | nothing : Emits valid scanner input none scanner
  | pendingDedent (pending : 0 < scanner.pendingDedents) (usable : valid.dedent = true) :
      Emits valid scanner input (some .dedent)
        { scanner with pendingDedents := scanner.pendingDedents - 1 }
  | pendingNewline : Emits valid scanner input (some .newline)
      { scanner with pendingNewline := false }
  | opened {indent : Nat} (deeper : scanner.currentIndent < indent)
      (room : scanner.stackSize < maxIndentLevels) :
      Emits valid scanner input (some .indent)
        { scanner with indentStack := indent :: scanner.indentStack }
  | overflowed (full : opensPastCapacity valid scanner input = true) :
      Emits valid scanner input (some .indent) scanner
  | closed {indent : Nat} {popped : List Nat × Nat}
      (shallower : indent < scanner.currentIndent) (settled : scanner.pendingDedents = 0)
      (pops : popLevels indent 0 scanner.indentStack = popped) :
      Emits valid scanner input (some .dedent) {
        indentStack := popped.1
        pendingDedents := (popped.2 + (2 ^ 8 - 1)) % 2 ^ 8
        pendingNewline := scanner.pendingNewline || popped.1.headD 0 = indent }
  | sameLevel : Emits valid scanner input (some .newline) scanner
  | closedAtEof (open_ : 1 < scanner.stackSize) (settled : scanner.pendingDedents = 0) :
      Emits valid scanner input (some .dedent)
        { scanner with indentStack := scanner.indentStack.tail }

/-- What a call does to the scanner, apart from the text. -/
theorem scan_cases (valid : ValidSymbols) (scanner : Scanner) (input : Text) :
    Emits valid scanner input (scan valid scanner input).symbol (scan valid scanner input).scanner := by
  have scans := scan_scans valid scanner input
  generalize scan valid scanner input = scanned at scans ⊢
  cases scans with
  | nothing rest => exact .nothing
  | pendingDedent pending usable => exact .pendingDedent pending usable
  | pendingNewline _ => exact .pendingNewline
  | opened _ deeper room => exact .opened deeper room
  | overflowed _ full => exact .overflowed full
  | closed _ shallower settled pops => exact .closed shallower settled pops
  | sameLevel _ => exact .sameLevel
  | closedAtEof _ open_ settled => exact .closedAtEof open_ settled

/-- A call that returns false leaves the scanner as it was. -/
theorem scanner_of_silent {valid : ValidSymbols} {scanner : Scanner} {input : Text}
    (silent : (scan valid scanner input).symbol = none) :
    (scan valid scanner input).scanner = scanner := by
  have emits := scan_cases valid scanner input
  rw [silent] at emits
  generalize (scan valid scanner input).scanner = next at emits ⊢
  cases emits
  rfl

/-- The search for a line does not go back. -/
theorem skipLines_suffix (indent : Nat) (input : Text) : (skipLines indent input).2 <:+ input := by
  induction input generalizing indent with
  | nil => exact List.suffix_rfl
  | cons char rest ih =>
    have past : rest <:+ char :: rest := List.suffix_cons char rest
    rw [skipLines]
    split
    · exact (ih _).trans past
    split
    · exact (ih _).trans past
    split
    · exact (ih _).trans past
    · exact List.suffix_rfl

/-- Indentation is measured in 16 bits. -/
theorem skipLines_lt {indent : Nat} (small : indent < 2 ^ 16) (input : Text) :
    (skipLines indent input).1 < 2 ^ 16 := by
  induction input generalizing indent with
  | nil => exact small
  | cons char rest ih =>
    rw [skipLines]
    split
    · exact ih (Nat.mod_lt _ (by decide))
    split
    · exact ih (Nat.mod_lt _ (by decide))
    split
    · exact ih (by decide)
    · exact small

/-- A line is found past a newline. -/
theorem position_eq_line {input rest : Text} {indent : Nat} (found : position input = .line indent rest) :
    ∃ newline text, isNewline newline = true ∧ input = newline :: text ∧
      skipLines 0 text = (indent, rest) := by
  cases input with
  | nil => simp [position] at found
  | cons char text =>
    simp only [position] at found
    split at found
    · next newline =>
      split at found
      · simp at found
      · obtain ⟨rfl, rfl⟩ := Position.line.inj found
        exact ⟨char, text, newline, rfl, rfl⟩
    · simp at found

theorem indent_lt {input rest : Text} {indent : Nat} (found : position input = .line indent rest) :
    indent < 2 ^ 16 := by
  obtain ⟨newline, text, -, -, measured⟩ := position_eq_line found
  have bounded := skipLines_lt (Nat.two_pow_pos 16) text
  rwa [measured] at bounded

theorem length_rest_lt {input rest : Text} {indent : Nat}
    (found : position input = .line indent rest) : rest.length < input.length := by
  obtain ⟨newline, text, -, rfl, measured⟩ := position_eq_line found
  have within := (skipLines_suffix 0 text).length_le
  rw [measured] at within
  exact Nat.lt_succ_of_le within

end Ill.Grammar
