import Ill.Grammar.Scanner
import Mathlib.Algebra.BigOperators.Group.List.Basic

/-!
# The scanner computes the off-side rule

One line break is spread over several calls: the first measures the next line
and emits one token, the others emit what it left pending. With all three
tokens allowed at every call, the tokens between the contents of two lines are
the marks that placing the second line on the levels open gives, and the end of
the input is placed as a line of width 0.
-/

namespace Ill.Grammar

open Ill.Base.Utf8 (Text)
open Ill.Base.Layout

def allValid : ValidSymbols := ⟨true, true, true⟩

/-- A whole input read by the parser: it calls the scanner, and where that emits
nothing takes some text of the line by its own rules. What is listed is the
tokens and the text taken, in order. -/
inductive Lexes : Scanner → Text → List (TokenType ⊕ Char) → Prop where
  | stop {scanner} (silent : (scan allValid scanner []).symbol = none) : Lexes scanner [] []
  | token {scanner input symbol output}
      (emitted : (scan allValid scanner input).symbol = some symbol)
      (later : Lexes (scan allValid scanner input).scanner (scan allValid scanner input).rest output) :
      Lexes scanner input (.inl symbol :: output)
  | content {scanner chunk rest output}
      (silent : (scan allValid scanner (chunk ++ rest)).symbol = none) (taken : chunk ≠ [])
      (inline : ∀ char ∈ chunk, isNewline char = false)
      (later : Lexes (scan allValid scanner (chunk ++ rest)).scanner rest output) :
      Lexes scanner (chunk ++ rest) (chunk.map .inr ++ output)

def isSpace (char : Char) : Bool := char = ' ' || char = '\t'

def spaceWidth (char : Char) : Nat := if char = '\t' then tabWidth else 1

/-- One line of a text: white space, and from its first other character on its
content, empty for a blank line. -/
structure Line where
  indentation : Text
  content : Text
  spaces : ∀ char ∈ indentation, isSpace char = true
  inline : ∀ char ∈ content, isNewline char = false
  starts : ∀ char ∈ content.head?, isSpace char = false

def Line.width (line : Line) : Nat := (line.indentation.map spaceWidth).sum

def Line.text (line : Line) : Text := line.indentation ++ (line.content ++ ['\n'])

/-- The marks and contents of lines under the off-side rule: blank lines are
passed over, and the end of the input is a line of width 0. -/
def layout (levels : Levels Nat) : List Line → List (TokenType ⊕ Char)
  | [] => (levels.place 0).2.map .inl
  | line :: lines =>
    if line.content = [] then layout levels lines
    else (levels.place line.width).2.map .inl ++
      (line.content.map .inr ++ layout (levels.place line.width).1 lines)

/-- The widths fit 16 bits, and the levels open at any line fit the stack. -/
def Fits (levels : Levels Nat) : List Line → Prop
  | [] => True
  | line :: lines =>
    if line.content = [] then Fits levels lines
    else line.width < 2 ^ 16 ∧ (levels.place line.width).1.depth < maxIndentLevels ∧
      Fits (levels.place line.width).1 lines

/-- White space adds its width to the indentation measured so far. -/
theorem skipLines_spaces {spaces : Text} (blank : ∀ char ∈ spaces, isSpace char = true)
    {indent : Nat} (small : indent + (spaces.map spaceWidth).sum < 2 ^ 16) (rest : Text) :
    skipLines indent (spaces ++ rest) = skipLines (indent + (spaces.map spaceWidth).sum) rest := by
  induction spaces generalizing indent with
  | nil => rfl
  | cons char spaces ih =>
    have here := blank char List.mem_cons_self
    have others : ∀ other ∈ spaces, isSpace other = true := fun other member =>
      blank other (List.mem_cons_of_mem _ member)
    simp only [List.map_cons, List.sum_cons] at small ⊢
    rw [List.cons_append, skipLines]
    simp only [isSpace, Bool.or_eq_true, decide_eq_true_eq] at here
    rcases here with rfl | rfl
    · have width : spaceWidth ' ' = 1 := rfl
      rw [if_pos rfl, Nat.mod_eq_of_lt (by omega), ih others (by omega), width, Nat.add_assoc]
    · have width : spaceWidth '\t' = tabWidth := rfl
      rw [if_neg (by decide), if_pos rfl, Nat.mod_eq_of_lt (by omega), ih others (by omega), width,
        Nat.add_assoc]

/-- A blank line is passed over, however wide it is. -/
theorem skipLines_blank {spaces : Text} (blank : ∀ char ∈ spaces, isSpace char = true)
    (indent : Nat) (rest : Text) :
    skipLines indent (spaces ++ '\n' :: rest) = skipLines 0 rest := by
  induction spaces generalizing indent with
  | nil => simp [skipLines, isNewline]
  | cons char spaces ih =>
    have here := blank char List.mem_cons_self
    have others : ∀ other ∈ spaces, isSpace other = true := fun other member =>
      blank other (List.mem_cons_of_mem _ member)
    rw [List.cons_append, skipLines]
    simp only [isSpace, Bool.or_eq_true, decide_eq_true_eq] at here
    rcases here with rfl | rfl
    · rw [if_pos rfl, ih others]
    · rw [if_neg (by decide), if_pos rfl, ih others]

/-- Content ends the search for a line. -/
theorem skipLines_content {content : Text} (nonempty : content ≠ [])
    (inline : ∀ char ∈ content, isNewline char = false)
    (starts : ∀ char ∈ content.head?, isSpace char = false) (indent : Nat) (rest : Text) :
    skipLines indent (content ++ rest) = (indent, content ++ rest) := by
  cases content with
  | nil => exact absurd rfl nonempty
  | cons char content =>
    have visible := starts char rfl
    have sameLine := inline char List.mem_cons_self
    simp only [isSpace, Bool.or_eq_false_iff, decide_eq_false_iff_not] at visible
    rw [List.cons_append, skipLines, if_neg visible.1, if_neg visible.2, if_neg (by simp [sameLine])]

/-- Where the parser stands in a text whose marks so far are all emitted: in the
content of a line, or at the end of the input with every level closed. The last
index is what reading on from there lists. -/
inductive Stands : Text → Levels Nat → List (TokenType ⊕ Char) → Prop where
  | eof : Stands [] Levels.ground []
  | line {content lines levels} (inline : ∀ char ∈ content, isNewline char = false)
      (fits : Fits levels lines) :
      Stands (content ++ '\n' :: lines.flatMap Line.text) levels
        (content.map .inr ++ layout levels lines)

/-- The search for a line finds the line that the layout places next. -/
theorem next_line {levels : Levels Nat} {lines : List Line} (fits : Fits levels lines) :
    ∃ width rest remaining, position ('\n' :: lines.flatMap Line.text) = .line width rest ∧
      layout levels lines = (levels.place width).2.map .inl ++ remaining ∧
      (levels.place width).1.depth < maxIndentLevels ∧
      Stands rest (levels.place width).1 remaining := by
  induction lines with
  | nil =>
    refine ⟨0, [], [], rfl, by simp [layout], ?_, ?_⟩
    · rw [show (0 : Nat) = ⊥ from rfl, levels.place_bot]
      decide
    · rw [show (0 : Nat) = ⊥ from rfl, levels.place_bot]
      exact .eof
  | cons line lines ih =>
    rw [Fits] at fits
    rw [layout]
    by_cases blank : line.content = []
    · rw [if_pos blank] at fits ⊢
      obtain ⟨width, rest, remaining, found, laid⟩ := ih fits
      refine ⟨width, rest, remaining, ?_, laid⟩
      have passed := skipLines_blank line.spaces 0 (lines.flatMap Line.text)
      rw [← found, List.flatMap_cons, Line.text, blank]
      simp only [position, List.nil_append, List.append_assoc, List.singleton_append, passed]
    · rw [if_neg blank] at fits ⊢
      obtain ⟨narrow, shallow, later⟩ := fits
      refine ⟨line.width, line.content ++ '\n' :: lines.flatMap Line.text, _, ?_, rfl, shallow,
        .line line.inline later⟩
      have small : 0 + line.width < 2 ^ 16 := by rwa [Nat.zero_add]
      have measured := skipLines_spaces line.spaces small
        (line.content ++ '\n' :: lines.flatMap Line.text)
      rw [skipLines_content blank line.inline line.starts, Nat.zero_add] at measured
      rw [List.flatMap_cons, Line.text]
      simp only [List.append_assoc, List.singleton_append] at measured ⊢
      simp [position, isNewline, measured, Line.width]

/-- A scanner that holds the levels and still has to emit the marks. -/
structure Due (scanner : Scanner) (levels : Levels Nat) (marks : List TokenType) : Prop where
  stack : scanner.indentStack = levels.widths
  marks_eq : marks = List.replicate scanner.pendingDedents .dedent ++
    if scanner.pendingNewline then [.newline] else []

/-- With marks due, a call emits the first of them and reads nothing. -/
theorem Due.scan_cons {scanner : Scanner} {levels : Levels Nat} {mark : TokenType}
    {marks : List TokenType} (due : Due scanner levels (mark :: marks)) (input : Text) :
    (scan allValid scanner input).symbol = some mark ∧
      (scan allValid scanner input).rest = input ∧
      Due (scan allValid scanner input).scanner levels marks := by
  obtain ⟨stack, marks_eq⟩ := due
  cases pending : scanner.pendingDedents with
  | zero =>
    rw [pending] at marks_eq
    cases newline : scanner.pendingNewline with
    | false => simp [newline] at marks_eq
    | true =>
      simp only [newline, List.replicate_zero, List.nil_append, if_true, List.cons.injEq] at marks_eq
      obtain ⟨rfl, rfl⟩ := marks_eq
      unfold scan
      rw [if_neg (by simp [pending]), if_pos (by simp [pending, newline, allValid])]
      exact ⟨rfl, rfl, stack, by simp [pending]⟩
  | succ count =>
    rw [pending, List.replicate_succ, List.cons_append, List.cons.injEq] at marks_eq
    obtain ⟨rfl, rfl⟩ := marks_eq
    unfold scan
    rw [if_pos (by simp [pending, allValid])]
    exact ⟨rfl, rfl, stack, by simp [pending]⟩

/-- With no mark due, a call looks at the text. -/
theorem Due.scan_nil {scanner : Scanner} {levels : Levels Nat} (due : Due scanner levels [])
    (input : Text) :
    scanner.pendingDedents = 0 ∧ scanner.pendingNewline = false ∧
      scan allValid scanner input = match position input with
        | .line indent rest => atLine allValid scanner indent rest
        | .eof => atEof allValid scanner
        | .elsewhere => ⟨none, scanner, input⟩ := by
  have empty := due.marks_eq
  have settled : scanner.pendingDedents = 0 := by
    by_contra some_
    obtain ⟨count, pending⟩ := Nat.exists_eq_succ_of_ne_zero some_
    simp [pending, List.replicate_succ] at empty
  have noNewline : scanner.pendingNewline = false := by
    by_contra newline
    simp [newline] at empty
  refine ⟨settled, noNewline, ?_⟩
  unfold scan
  rw [if_neg (by simp [settled]), if_neg (by simp [noNewline])]
  exact if_neg (by simp [allValid])

/-- The innermost level of a scanner that holds the levels. -/
theorem Due.currentIndent_eq {scanner : Scanner} {levels : Levels Nat} {marks : List TokenType}
    (due : Due scanner levels marks) : scanner.currentIndent = levels.top := by
  rw [Scanner.currentIndent, due.stack]
  rfl

theorem Due.stackSize_eq {scanner : Scanner} {levels : Levels Nat} {marks : List TokenType}
    (due : Due scanner levels marks) : scanner.stackSize = levels.depth + 1 := by
  rw [Scanner.stackSize, due.stack, levels.length_widths]

/-- With no mark due, a call at a line emits the first mark of placing it, and
leaves the levels after it and the other marks. -/
theorem Due.atLine {scanner : Scanner} {levels : Levels Nat} (due : Due scanner levels [])
    (settled : scanner.pendingDedents = 0) (noNewline : scanner.pendingNewline = false)
    {width : Nat} (rest : Text) (full : levels.depth < maxIndentLevels)
    (shallow : (levels.place width).1.depth < maxIndentLevels) :
    ∃ mark marks, (levels.place width).2 = mark :: marks ∧
      (atLine allValid scanner width rest).symbol = some mark ∧
      (atLine allValid scanner width rest).rest = rest ∧
      Due (atLine allValid scanner width rest).scanner (levels.place width).1 marks := by
  have size := due.stackSize_eq
  unfold Grammar.atLine Levels.place at *
  rw [due.currentIndent_eq]
  by_cases wider : levels.top < width
  · simp only [wider, allValid, dif_pos, decide_true, Bool.and_true, if_true] at shallow ⊢
    have room : scanner.stackSize < maxIndentLevels := by
      have pushed := (levels.opening width wider).length_widths
      change levels.widths.length + 1 = _ at pushed
      have whole := levels.length_widths
      omega
    rw [if_pos room]
    refine ⟨.indent, [], rfl, rfl, trivial, ?_, ?_⟩
    · exact congrArg (width :: ·) due.stack
    · simp [settled, noNewline]
  by_cases same : width = levels.top
  · simp [same, allValid]
    exact ⟨due.stack, due.marks_eq⟩
  · have narrower : width < levels.top := by omega
    have fewer := levels.closing_depth_lt narrower
    have kept := (levels.closing width).length_widths
    have whole := levels.length_widths
    have grounded : scanner.indentStack.getLast? = some 0 := due.stack ▸ levels.grounded
    have bounded : scanner.pendingDedents + scanner.indentStack.length ≤ 2 ^ 8 := by
      unfold maxIndentLevels at full
      unfold Scanner.stackSize at size
      omega
    obtain ⟨others, count⟩ := Nat.exists_eq_add_of_lt fewer
    have closed : levels.depth - (levels.closing width).depth = others + 1 := by omega
    simp only [wider, same, narrower, allValid, dif_neg, not_false_eq_true, decide_false,
      decide_true, Bool.and_true, Bool.false_eq_true, if_false, if_true] at shallow ⊢
    rw [Levels.closingMarks, closed, List.replicate_succ, List.cons_append,
      popLevels_eq grounded bounded, due.stack, settled, noNewline]
    have counted : levels.widths.length - (levels.closing width).widths.length = others + 1 := by
      omega
    change levels.widths.length -
      (levels.widths.dropWhile fun level => width < level).length = others + 1 at counted
    have wrapped : (others + 1 + (2 ^ 8 - 1)) % 2 ^ 8 = others := by
      unfold maxIndentLevels at full
      omega
    refine ⟨.dedent, _, rfl, rfl, trivial, rfl, ?_⟩
    simp only [counted, Nat.zero_add, wrapped, Bool.false_or, decide_eq_true_eq]
    rfl

/-- With no mark due, a call inside the content of a line emits nothing. -/
theorem Due.scan_content {scanner : Scanner} {levels : Levels Nat} (due : Due scanner levels [])
    {char : Char} (inline : isNewline char = false) (rest : Text) :
    scan allValid scanner (char :: rest) = ⟨none, scanner, char :: rest⟩ := by
  rw [(due.scan_nil (char :: rest)).2.2]
  simp [position, inline]

/-- With no mark due and every level closed, a call at the end of the input
emits nothing. -/
theorem Due.scan_eof {scanner : Scanner} (due : Due scanner Levels.ground []) :
    scan allValid scanner [] = ⟨none, scanner, []⟩ := by
  have size : scanner.stackSize = 1 := due.stackSize_eq
  rw [(due.scan_nil []).2.2]
  simp [position, atEof, size]

/-- With no mark due, a call at the end of a line emits the first mark of the
layout of what follows. -/
theorem Due.scan_lineEnd {scanner : Scanner} {levels : Levels Nat} (due : Due scanner levels [])
    (full : levels.depth < maxIndentLevels) {lines : List Line} (fits : Fits levels lines) :
    ∃ mark marks remaining levels', layout levels lines = .inl mark :: marks.map .inl ++ remaining ∧
      (scan allValid scanner ('\n' :: lines.flatMap Line.text)).symbol = some mark ∧
      Due (scan allValid scanner ('\n' :: lines.flatMap Line.text)).scanner levels' marks ∧
      levels'.depth < maxIndentLevels ∧
      (scan allValid scanner ('\n' :: lines.flatMap Line.text)).rest.length <
        ('\n' :: lines.flatMap Line.text).length ∧
      Stands (scan allValid scanner ('\n' :: lines.flatMap Line.text)).rest levels' remaining := by
  obtain ⟨width, rest, remaining, found, laid, shallow, stands⟩ := next_line fits
  obtain ⟨settled, noNewline, scanned⟩ := due.scan_nil ('\n' :: lines.flatMap Line.text)
  rw [found] at scanned
  obtain ⟨mark, marks, placed, symbol, read, after⟩ := due.atLine settled noNewline rest full shallow
  have stopped : (scan allValid scanner ('\n' :: lines.flatMap Line.text)).rest = rest := by
    rw [scanned]
    exact read
  refine ⟨mark, marks, remaining, (levels.place width).1, ?_, ?_, ?_, shallow, ?_, ?_⟩
  · rw [laid, placed]
    rfl
  · rw [scanned]
    exact symbol
  · rw [scanned]
    exact after
  · rw [stopped]
    exact length_rest_lt found
  · rw [stopped]
    exact stands

/-- Text of a line taken from where the parser stands leaves it standing further
on in the line. -/
theorem Stands.take {chunk rest : Text} {levels : Levels Nat} {remaining : List (TokenType ⊕ Char)}
    (stands : Stands (chunk ++ rest) levels remaining) (taken : chunk ≠ [])
    (inline : ∀ char ∈ chunk, isNewline char = false) :
    ∃ further, remaining = chunk.map .inr ++ further ∧ Stands rest levels further := by
  generalize whole : chunk ++ rest = input at stands
  cases stands with
  | eof => exact absurd (List.append_eq_nil_iff.mp whole).1 taken
  | @line content lines _ sameLine fits =>
    rcases List.append_eq_append_iff.mp whole with ⟨left, split, after⟩ | ⟨passed, split, before⟩
    · subst split after
      refine ⟨left.map .inr ++ layout levels lines, by simp, .line ?_ fits⟩
      exact fun char member => sameLine char (List.mem_append_right _ member)
    · -- A chunk past the content would have taken the newline.
      cases passed with
      | nil =>
        rw [List.append_nil] at split
        subst split
        rw [List.nil_append] at before
        subst before
        exact ⟨layout levels lines, rfl, .line (List.forall_mem_nil _) fits⟩
      | cons char passed =>
        rw [List.cons_append, List.cons.injEq] at before
        have newline : isNewline '\n' = false :=
          before.1 ▸ inline char (by simp [split])
        simp [isNewline] at newline

/-- What the parser lists from where it stands: the marks still due, then the
layout of what follows. -/
theorem listed {scanner : Scanner} {input : Text} {output : List (TokenType ⊕ Char)}
    (lexes : Lexes scanner input output) {levels : Levels Nat} {marks : List TokenType}
    {remaining : List (TokenType ⊕ Char)} (due : Due scanner levels marks)
    (full : levels.depth < maxIndentLevels) (stands : Stands input levels remaining) :
    output = marks.map .inl ++ remaining := by
  induction lexes generalizing levels marks remaining with
  | @stop scanner silent =>
    cases marks with
    | nil =>
      generalize whole : ([] : Text) = input at stands
      cases stands with
      | eof => rfl
      | line => simp at whole
    | cons mark marks =>
      rw [(due.scan_cons []).1] at silent
      exact absurd silent (by simp)
  | @token scanner input symbol output emitted later ih =>
    cases marks with
    | nil =>
      cases stands with
      | eof =>
        rw [due.scan_eof] at emitted
        exact absurd emitted (by simp)
      | @line content lines _ sameLine fits =>
        cases content with
        | nil =>
          obtain ⟨mark, marks, further, after, laid, symbol_eq, next, shallow, _, stands⟩ :=
            due.scan_lineEnd full fits
          rw [List.nil_append] at emitted
          rw [symbol_eq, Option.some.injEq] at emitted
          subst emitted
          rw [ih next shallow stands, List.map_nil, List.map_nil, laid]
          rfl
        | cons char content =>
          rw [List.cons_append, due.scan_content (sameLine char List.mem_cons_self)] at emitted
          exact absurd emitted (by simp)
    | cons mark marks =>
      obtain ⟨first, unread, rest⟩ := due.scan_cons input
      rw [first, Option.some.injEq] at emitted
      subst emitted
      rw [ih rest full (unread ▸ stands)]
      rfl
  | @content scanner chunk rest output silent taken inline later ih =>
    cases marks with
    | nil =>
      obtain ⟨further, rfl, onward⟩ := stands.take taken inline
      have unchanged : (scan allValid scanner (chunk ++ rest)).scanner = scanner :=
        scanner_of_silent silent
      rw [ih (unchanged.symm ▸ due) full onward]
      rfl
    | cons mark marks =>
      rw [(due.scan_cons _).1] at silent
      exact absurd silent (by simp)

/-- Marks that are due are listed before anything else. -/
theorem lexes_of_due {scanner : Scanner} {input : Text} {output : List (TokenType ⊕ Char)}
    {levels : Levels Nat} {marks : List TokenType} (due : Due scanner levels marks)
    (continues : ∀ settled, Due settled levels [] → Lexes settled input output) :
    Lexes scanner input (marks.map .inl ++ output) := by
  induction marks generalizing scanner with
  | nil => exact continues scanner due
  | cons mark marks ih =>
    obtain ⟨first, unread, rest⟩ := due.scan_cons input
    have later := ih rest
    refine .token first ?_
    rw [unread]
    exact later

/-- The parser gets to the end from every place it can stand in. -/
theorem lexes_of_stands {input : Text} {levels : Levels Nat}
    {remaining : List (TokenType ⊕ Char)} (stands : Stands input levels remaining)
    (full : levels.depth < maxIndentLevels) {scanner : Scanner} (due : Due scanner levels []) :
    Lexes scanner input remaining := by
  induction size : input.length using Nat.strong_induction_on
    generalizing input levels remaining scanner with
  | _ size ih =>
    subst size
    cases stands with
    | eof =>
      refine .stop ?_
      rw [due.scan_eof]
    | @line content lines _ sameLine fits =>
      cases content with
      | nil =>
        obtain ⟨mark, marks, further, after, laid, symbol, next, shallow, shorter, onward⟩ :=
          due.scan_lineEnd full fits
        rw [List.map_nil, List.nil_append, laid]
        refine .token symbol (lexes_of_due next fun settled settledDue => ?_)
        exact ih _ shorter onward shallow settledDue rfl
      | cons char content =>
        have silent : scan allValid scanner (char :: content ++ '\n' :: lines.flatMap Line.text) =
            ⟨none, scanner, _⟩ := due.scan_content (sameLine char List.mem_cons_self) _
        refine .content (by rw [silent]) (List.cons_ne_nil char content) sameLine ?_
        rw [silent]
        refine ih _ ?_ (.line (List.forall_mem_nil _) fits) full due rfl
        simp only [List.length_append, List.length_cons, List.nil_append]
        omega

/-- A text of lines, each ended by one newline, is read in exactly one way: its
first line as it stands, and between the contents of the lines after it, and at
the end, the marks of the off-side rule. -/
theorem lexes_iff_layout (first : Text) (inline : ∀ char ∈ first, isNewline char = false)
    (lines : List Line) (fits : Fits Levels.ground lines) (output : List (TokenType ⊕ Char)) :
    Lexes create (first ++ '\n' :: lines.flatMap Line.text) output ↔
      output = first.map .inr ++ layout Levels.ground lines := by
  have fresh : Due create Levels.ground [] := ⟨rfl, rfl⟩
  have stands : Stands (first ++ '\n' :: lines.flatMap Line.text) Levels.ground
      (first.map .inr ++ layout Levels.ground lines) := .line inline fits
  constructor
  · intro lexes
    exact listed lexes fresh (by decide) stands
  · rintro rfl
    exact lexes_of_stands stands (by decide) fresh

/-- Two levels opened, a blank line, and a line between the two levels. -/
def nestedLines : List Line :=
  [⟨[' ', ' '], ['b'], by simp [isSpace], by simp [isNewline], by simp [isSpace]⟩,
    ⟨[' ', ' ', '\t'], ['c'], by simp [isSpace], by simp [isNewline], by simp [isSpace]⟩,
    ⟨[' '], [], by simp [isSpace], by simp, by simp⟩,
    ⟨[' ', ' ', ' '], ['d'], by simp [isSpace], by simp [isNewline], by simp [isSpace]⟩]

theorem lexes_nestedLines :
    Lexes create (['a'] ++ '\n' :: nestedLines.flatMap Line.text)
      [.inr 'a', .inl .indent, .inr 'b', .inl .indent, .inr 'c', .inl .dedent, .inr 'd',
        .inl .dedent, .inl .newline] := by
  have fits : Fits Levels.ground nestedLines := by
    simp only [nestedLines, Fits]
    decide
  exact (lexes_iff_layout ['a'] (by simp [isNewline]) nestedLines fits _).mpr (by decide)

end Ill.Grammar
