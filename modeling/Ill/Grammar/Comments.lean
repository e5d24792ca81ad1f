import Ill.Grammar.OffSide

/-!
# Comment lines and block structure

The scanner measures every line that is not blank, and a line that holds only a
comment is not blank. What such a line does to the lines around it is settled on
the widths of lines: `Reads.outlined` says of every input, with levels past the
capacity and widths past 16 bits, what a run lists, and a comment line is one
width more among those.
-/

namespace Ill.Grammar

open Ill.Base.Utf8 (Text)
open Ill.Base.Layout

def breaks (text : Text) : Nat := text.countP isNewline

/-- The text goes on with content of a line. -/
def startsInline : Text → Bool
  | [] => false
  | char :: _ => !isNewline char

/-- A whole input read by the parser, as in `Lexes`. What is listed is the
tokens, and where text of a line is taken, the line, by the number of line
breaks after it, and the indentation stack. -/
inductive Reads : Scanner → Text → List (TokenType ⊕ (Nat × List Nat)) → Prop where
  | stop {scanner input} (ended : position input = .eof)
      (silent : (scan allValid scanner input).symbol = none) : Reads scanner input []
  | token {scanner input symbol output}
      (emitted : (scan allValid scanner input).symbol = some symbol)
      (later : Reads (scan allValid scanner input).scanner (scan allValid scanner input).rest output) :
      Reads scanner input (.inl symbol :: output)
  | content {scanner chunk rest output}
      (silent : (scan allValid scanner (chunk ++ rest)).symbol = none) (taken : chunk ≠ [])
      (inline : ∀ char ∈ chunk, isNewline char = false)
      (later : Reads (scan allValid scanner (chunk ++ rest)).scanner rest output) :
      Reads scanner (chunk ++ rest)
        (.inr (breaks rest, (scan allValid scanner (chunk ++ rest)).scanner.indentStack) :: output)

/-- The INDENTs and DEDENTs among what is listed. -/
def blocksOf (output : List (TokenType ⊕ (Nat × List Nat))) : List TokenType :=
  blocks (output.filterMap Sum.getLeft?)

/-- The lines that start in a text and are not blank: the number of line breaks
after each, and its width in 16 bits. `none` stands in the content of a line,
`some` in an indentation, as wide as measured so far. -/
def linesFrom : Option Nat → Text → List (Nat × Nat)
  | _, [] => []
  | none, char :: rest => if isNewline char then linesFrom (some 0) rest else linesFrom none rest
  | some indent, char :: rest =>
    if char = ' ' then linesFrom (some ((indent + 1) % 2 ^ 16)) rest
    else if char = '\t' then linesFrom (some ((indent + tabWidth) % 2 ^ 16)) rest
    else if isNewline char then linesFrom (some 0) rest
    else (breaks rest, indent) :: linesFrom none rest

/-- The levels open after lines. -/
def levelsAfter (levels : Levels Nat) (lines : List (Nat × Nat)) : Levels Nat :=
  lines.foldl (fun levels line => (levels.placeWithin maxIndentLevels line.2).1) levels

/-- The levels that lines open and close, and the end of the input after them. -/
def structureOf (levels : Levels Nat) : List (Nat × Nat) → List TokenType
  | [] => blocks (levels.placeWithin maxIndentLevels 0).2
  | line :: lines => blocks (levels.placeWithin maxIndentLevels line.2).2 ++
      structureOf (levels.placeWithin maxIndentLevels line.2).1 lines

/-- The levels open at each of the lines. -/
def stacksOf (levels : Levels Nat) : List (Nat × Nat) → List (Nat × List Nat)
  | [] => []
  | line :: lines => (line.1, (levels.placeWithin maxIndentLevels line.2).1.widths) ::
      stacksOf (levels.placeWithin maxIndentLevels line.2).1 lines

theorem breaks_cons_newline {char : Char} (newline : isNewline char = true) (rest : Text) :
    breaks (char :: rest) = breaks rest + 1 :=
  List.countP_cons_of_pos newline

theorem breaks_append (before after : Text) :
    breaks (before ++ after) = breaks before + breaks after :=
  List.countP_append

/-- Text of a line breaks no line. -/
theorem breaks_inline {chunk : Text} (inline : ∀ char ∈ chunk, isNewline char = false)
    (rest : Text) : breaks (chunk ++ rest) = breaks rest := by
  have none_ : breaks chunk = 0 := List.countP_eq_zero.mpr (by simpa using inline)
  rw [breaks_append, none_, Nat.zero_add]

@[simp] theorem linesFrom_nil (state : Option Nat) : linesFrom state [] = [] := by
  cases state <;> rfl

theorem linesFrom_newline {char : Char} (newline : isNewline char = true) (rest : Text) :
    linesFrom none (char :: rest) = linesFrom (some 0) rest := by
  rw [linesFrom, if_pos newline]

/-- No line starts in text of a line. -/
theorem linesFrom_inline {chunk : Text} (inline : ∀ char ∈ chunk, isNewline char = false)
    (rest : Text) : linesFrom none (chunk ++ rest) = linesFrom none rest := by
  induction chunk with
  | nil => rfl
  | cons char chunk ih =>
    have here := inline char List.mem_cons_self
    rw [List.cons_append, linesFrom, if_neg (by simp [here])]
    exact ih fun other member => inline other (List.mem_cons_of_mem _ member)

/-- The search for a line finds the first of the lines, or that there is none. -/
theorem linesFrom_skipLines (indent : Nat) (input : Text) :
    ((skipLines indent input).2 = [] ∧ linesFrom (some indent) input = []) ∨
      (startsInline (skipLines indent input).2 = true ∧
        linesFrom (some indent) input =
          (breaks (skipLines indent input).2, (skipLines indent input).1) ::
            linesFrom none (skipLines indent input).2) := by
  induction input generalizing indent with
  | nil => exact .inl ⟨rfl, linesFrom_nil _⟩
  | cons char rest ih =>
    rw [skipLines, linesFrom]
    split
    · exact ih _
    split
    · exact ih _
    split
    · exact ih _
    · next visible =>
      have inline : ∀ other ∈ [char], isNewline other = false := by simpa using visible
      refine .inr ⟨by simpa [startsInline] using visible, ?_⟩
      have same := breaks_inline inline rest
      have onward := linesFrom_inline inline rest
      rw [List.singleton_append] at same onward
      rw [same, onward]

/-- What a call finds at a text, in terms of the lines that start in it. -/
theorem position_lines (input : Text) :
    match position input with
    | .eof => startsInline input = false ∧ linesFrom none input = []
    | .line width rest => startsInline input = false ∧
        ((rest = [] ∧ width = 0 ∧ linesFrom none input = []) ∨
          (startsInline rest = true ∧
            linesFrom none input = (breaks rest, width) :: linesFrom none rest))
    | .elsewhere => startsInline input = true := by
  cases input with
  | nil => exact ⟨rfl, linesFrom_nil _⟩
  | cons char text =>
    by_cases newline : isNewline char = true
    · rw [position, if_pos newline]
      have ends : startsInline (char :: text) = false := by simp [startsInline, newline]
      rw [linesFrom_newline newline]
      rcases linesFrom_skipLines 0 text with ⟨none_, lines⟩ | ⟨inline, lines⟩
      · simp only [none_, List.isEmpty_nil, Bool.true_and, decide_eq_true_eq]
        by_cases wide : 0 < (skipLines 0 text).1
        · rw [if_pos wide]
          exact ⟨ends, lines⟩
        · rw [if_neg wide]
          exact ⟨ends, .inl ⟨rfl, by omega, lines⟩⟩
      · have nonempty : (skipLines 0 text).2.isEmpty = false := by
          cases whole : (skipLines 0 text).2 with
          | nil => simp [whole, startsInline] at inline
          | cons => rfl
        simp only [nonempty, Bool.false_and, Bool.false_eq_true, if_false]
        exact ⟨ends, .inr ⟨inline, lines⟩⟩
    · rw [position, if_neg newline]
      simpa [startsInline] using newline

/-- With no mark due, a call at a line emits the first mark of placing it where
the stack may be full, and leaves the levels after it and the other marks. -/
theorem Due.atLine_within {scanner : Scanner} {levels : Levels Nat} (due : Due scanner levels [])
    (settled : scanner.pendingDedents = 0) (noNewline : scanner.pendingNewline = false)
    (width : Nat) (rest : Text) (full : levels.depth < maxIndentLevels) :
    ∃ mark marks, (levels.placeWithin maxIndentLevels width).2 = mark :: marks ∧
      (Grammar.atLine allValid scanner width rest).symbol = some mark ∧
      (Grammar.atLine allValid scanner width rest).rest = rest ∧
      Due (Grammar.atLine allValid scanner width rest).scanner
        (levels.placeWithin maxIndentLevels width).1 marks := by
  have shallow : (levels.placeWithin maxIndentLevels width).1.depth < maxIndentLevels :=
    Levels.placeWithin_depth_lt full
  by_cases overflows : levels.top < width ∧ maxIndentLevels ≤ levels.depth + 1
  · have size := due.stackSize_eq
    have noRoom : ¬ scanner.stackSize < maxIndentLevels := by omega
    refine ⟨.indent, [], ?_⟩
    rw [Levels.placeWithin_of_full overflows.1 overflows.2]
    simp only [Grammar.atLine, due.currentIndent_eq, overflows.1, allValid, decide_true,
      Bool.and_true, if_true, if_neg noRoom, true_and]
    exact due
  · have placed : levels.placeWithin maxIndentLevels width = levels.place width := if_neg overflows
    rw [placed] at shallow ⊢
    exact due.atLine settled noNewline rest full shallow

/-- The levels open inside the innermost one are as many as the end of the input
closes. -/
theorem structureOf_nil (levels : Levels Nat) :
    structureOf levels [] = List.replicate levels.depth .dedent := by
  have bottom : levels.closing 0 = Levels.ground :=
    Levels.eq_ground (Nat.le_zero.mp (levels.closing_top_le 0))
  have nothing : (Levels.ground : Levels Nat).depth = 0 := rfl
  rw [structureOf, Levels.placeWithin_of_le (Nat.zero_le _),
    Levels.blocks_place_of_le (Nat.zero_le _), bottom, nothing, Nat.sub_zero]

/-- The end of the input closes one level a call. -/
theorem Due.atEof {scanner : Scanner} {levels : Levels Nat} (due : Due scanner levels [])
    {input : Text} (ended : position input = .eof) :
    (levels.depth = 0 ∧ scan allValid scanner input = ⟨none, scanner, []⟩) ∨
      ∃ outer : Levels Nat, outer.depth + 1 = levels.depth ∧
        scan allValid scanner input =
          ⟨some .dedent, { scanner with indentStack := outer.widths }, []⟩ ∧
        Due { scanner with indentStack := outer.widths } outer [] := by
  have size := due.stackSize_eq
  rw [(due.scan_nil input).2.2, ended]
  dsimp only
  unfold Grammar.atEof
  by_cases open_ : 1 < scanner.stackSize
  · rw [if_pos (by simpa [allValid] using open_), due.stack]
    have whole := levels.widths_eq_cons
    have grounded := levels.grounded
    have nested := levels.nested
    cases below : levels.widths.tail with
    | nil =>
      have entries := levels.length_widths
      rw [whole, below, List.length_singleton] at entries
      omega
    | cons next rest =>
      rw [whole, below] at grounded nested
      rw [List.getLast?_cons_cons] at grounded
      let outer : Levels Nat := ⟨next :: rest, nested.of_cons, grounded⟩
      have entries := levels.length_widths
      rw [whole, below] at entries
      have fewer : rest.length + 1 = outer.depth + 1 := outer.length_widths
      simp only [List.length_cons] at entries
      exact .inr ⟨outer, by omega, rfl, rfl, due.marks_eq⟩
  · rw [if_neg (by simpa [allValid] using open_)]
    exact .inl ⟨by omega, rfl⟩

/-- What a run lists, by levels and lines: the levels opened and closed after
the marks still due, and a stack for every line that text is taken from. -/
structure Outlined (output : List (TokenType ⊕ (Nat × List Nat))) (levels : Levels Nat)
    (marks : List TokenType) (input : Text) : Prop where
  tokens : blocksOf output = blocks marks ++ structureOf levels (linesFrom none input)
  visited : ∀ line stack, .inr (line, stack) ∈ output ↔
    (line, stack) ∈ stacksOf levels (linesFrom none input) ∨
      (line = breaks input ∧ stack = levels.widths ∧ startsInline input = true)

/-- A token listed before, that was the first mark due. -/
theorem Outlined.token {output : List (TokenType ⊕ (Nat × List Nat))} {levels : Levels Nat}
    {marks : List TokenType} {input : Text} (outlined : Outlined output levels marks input)
    (mark : TokenType) : Outlined (.inl mark :: output) levels (mark :: marks) input where
  tokens := by
    have later := outlined.tokens
    unfold blocksOf blocks at *
    have listed : (Sum.inl mark :: output).filterMap Sum.getLeft? =
        mark :: output.filterMap Sum.getLeft? := rfl
    rw [listed, List.filter_cons, List.filter_cons, later]
    split <;> rfl
  visited := by
    intro line stack
    rw [List.mem_cons, ← outlined.visited line stack]
    simp

/-- At the end of the input, and in no line. -/
def AtEnd (input : Text) : Prop := startsInline input = false ∧ linesFrom none input = []

/-- The end of the input with no level left to close. -/
theorem Outlined.stop {levels : Levels Nat} {input : Text} (ended : AtEnd input)
    (closed : levels.depth = 0) : Outlined [] levels [] input where
  tokens := by
    rw [ended.2, structureOf_nil, closed]
    rfl
  visited := by simp [ended.1, ended.2, stacksOf]

/-- A level that the end of the input closes. -/
theorem Outlined.close {output : List (TokenType ⊕ (Nat × List Nat))} {levels outer : Levels Nat}
    {input : Text} (outlined : Outlined output outer [] []) (ended : AtEnd input)
    (fewer : outer.depth + 1 = levels.depth) :
    Outlined (.inl .dedent :: output) levels [] input := by
  obtain ⟨tokens, visited⟩ := outlined.token .dedent
  rw [linesFrom_nil] at tokens visited
  refine ⟨?_, ?_⟩
  · rw [tokens, ended.2, structureOf_nil, structureOf_nil, ← fewer, List.replicate_succ]
    rfl
  · intro line stack
    rw [visited line stack, ended.1, ended.2]
    simp [stacksOf, startsInline]

/-- A line that is placed, of which the first mark is read. -/
theorem Outlined.line {output : List (TokenType ⊕ (Nat × List Nat))} {levels : Levels Nat}
    {mark : TokenType} {marks : List TokenType} {width : Nat} {input rest : Text}
    (placing : (levels.placeWithin maxIndentLevels width).2 = mark :: marks)
    (ends : startsInline input = false)
    (found : (rest = [] ∧ width = 0 ∧ linesFrom none input = []) ∨
      (startsInline rest = true ∧
        linesFrom none input = (breaks rest, width) :: linesFrom none rest))
    (outlined : Outlined output (levels.placeWithin maxIndentLevels width).1 marks rest) :
    Outlined (.inl mark :: output) levels [] input := by
  obtain ⟨tokens, visited⟩ := outlined.token mark
  rw [← placing] at tokens
  obtain ⟨rfl, rfl, lines⟩ | ⟨inline, lines⟩ := found
  · -- The last line break of the input is taken for a line of width 0.
    rw [linesFrom_nil] at tokens visited
    have closed : (levels.placeWithin maxIndentLevels 0).1 = Levels.ground := Levels.placeWithin_bot
    rw [closed, structureOf_nil] at tokens
    refine ⟨?_, ?_⟩
    · rw [tokens, lines, structureOf]
      exact List.append_nil _
    · intro line stack
      rw [visited line stack, lines, ends]
      simp [stacksOf, startsInline]
  · refine ⟨?_, ?_⟩
    · rw [tokens, lines]
      rfl
    · intro line stack
      rw [visited line stack, lines, inline, ends, stacksOf, List.mem_cons, Prod.mk.injEq]
      simp only [and_true, Bool.false_eq_true, and_false, or_false]
      exact or_comm

/-- Text that is taken from a line, with the levels of that line on the stack. -/
theorem Outlined.content {output : List (TokenType ⊕ (Nat × List Nat))} {levels : Levels Nat}
    {chunk rest : Text} (taken : chunk ≠ []) (inline : ∀ char ∈ chunk, isNewline char = false)
    (outlined : Outlined output levels [] rest) :
    Outlined (.inr (breaks rest, levels.widths) :: output) levels [] (chunk ++ rest) := by
  have starts : startsInline (chunk ++ rest) = true := by
    cases chunk with
    | nil => exact absurd rfl taken
    | cons char chunk => simpa [startsInline] using inline char List.mem_cons_self
  obtain ⟨tokens, visited⟩ := outlined
  refine ⟨?_, ?_⟩
  · rw [linesFrom_inline inline]
    exact tokens
  · intro line stack
    rw [List.mem_cons, visited line stack, linesFrom_inline inline, breaks_inline inline, starts,
      Sum.inr.injEq, Prod.mk.injEq]
    tauto

/-- What a run lists is settled by the levels and marks it starts from and by
the lines of the input. -/
theorem Reads.outlined {scanner : Scanner} {input : Text}
    {output : List (TokenType ⊕ (Nat × List Nat))} (reads : Reads scanner input output)
    {levels : Levels Nat} {marks : List TokenType} (due : Due scanner levels marks)
    (full : levels.depth < maxIndentLevels) : Outlined output levels marks input := by
  induction reads generalizing levels marks with
  | @stop scanner input ended silent =>
    cases marks with
    | nil =>
      have found := position_lines input
      rw [ended] at found
      rcases due.atEof ended with ⟨closed, -⟩ | ⟨outer, -, scanned, -⟩
      · exact .stop found closed
      · rw [scanned] at silent
        exact absurd silent (by simp)
    | cons mark marks =>
      rw [(due.scan_cons input).1] at silent
      exact absurd silent (by simp)
  | @token scanner input symbol output emitted later ih =>
    cases marks with
    | cons mark marks =>
      obtain ⟨first, unread, rest⟩ := due.scan_cons input
      rw [first, Option.some.injEq] at emitted
      subst emitted
      have outlined := ih rest full
      rw [unread] at outlined
      exact outlined.token mark
    | nil =>
      obtain ⟨settled, noNewline, scanned⟩ := due.scan_nil input
      have found := position_lines input
      cases placed : position input with
      | elsewhere =>
        rw [placed] at scanned
        rw [scanned] at emitted
        exact absurd emitted (by simp)
      | eof =>
        rw [placed] at found
        rcases due.atEof placed with ⟨-, scanned⟩ | ⟨outer, fewer, scanned, next⟩
        · rw [scanned] at emitted
          exact absurd emitted (by simp)
        · rw [scanned] at emitted
          rw [Option.some.injEq] at emitted
          subst emitted
          rw [scanned] at ih
          exact .close (ih next (by omega)) found fewer
      | line width rest =>
        rw [placed] at scanned found
        dsimp only at scanned found
        obtain ⟨mark, marks, placing, symbol_eq, read, next⟩ :=
          due.atLine_within settled noNewline width rest full
        rw [← scanned] at symbol_eq read next
        rw [symbol_eq, Option.some.injEq] at emitted
        subst emitted
        have outlined := ih next (Levels.placeWithin_depth_lt full)
        rw [read] at outlined
        exact .line placing found.1 found.2 outlined
  | @content scanner chunk rest output silent taken inline later ih =>
    cases marks with
    | nil =>
      have unchanged : (scan allValid scanner (chunk ++ rest)).scanner = scanner :=
        scanner_of_silent silent
      rw [unchanged] at ih ⊢
      rw [due.stack]
      exact .content taken inline (ih due full)
    | cons mark marks =>
      rw [(due.scan_cons _).1] at silent
      exact absurd silent (by simp)

/-- Marks that are due are read before anything else. -/
theorem reads_of_due {scanner : Scanner} {input : Text} {levels : Levels Nat}
    {marks : List TokenType} (due : Due scanner levels marks)
    (continues : ∀ settled, Due settled levels [] → ∃ output, Reads settled input output) :
    ∃ output, Reads scanner input output := by
  induction marks generalizing scanner with
  | nil => exact continues scanner due
  | cons mark marks ih =>
    obtain ⟨first, unread, rest⟩ := due.scan_cons input
    obtain ⟨output, later⟩ := ih rest
    refine ⟨.inl mark :: output, .token first ?_⟩
    rwa [unread]

/-- The end of the input is read, a level a call. -/
theorem reads_eof {input : Text} (ended : position input = .eof) {scanner : Scanner}
    {levels : Levels Nat} (due : Due scanner levels []) : ∃ output, Reads scanner input output := by
  induction depth : levels.depth generalizing levels scanner input with
  | zero =>
    rcases due.atEof ended with ⟨-, scanned⟩ | ⟨outer, fewer, -, -⟩
    · exact ⟨[], .stop ended (by rw [scanned])⟩
    · omega
  | succ depth ih =>
    rcases due.atEof ended with ⟨closed, -⟩ | ⟨outer, fewer, scanned, next⟩
    · omega
    · have nowhere : position [] = .eof := rfl
      obtain ⟨output, later⟩ := ih nowhere next (by omega)
      refine ⟨.inl .dedent :: output, .token (by rw [scanned]) ?_⟩
      rwa [scanned]

/-- Every input can be read. -/
theorem reads_total (input : Text) {scanner : Scanner} {levels : Levels Nat}
    {marks : List TokenType} (due : Due scanner levels marks)
    (full : levels.depth < maxIndentLevels) : ∃ output, Reads scanner input output := by
  induction size : input.length using Nat.strong_induction_on
    generalizing input levels marks scanner with
  | _ size ih =>
    subst size
    refine reads_of_due due fun settled settledDue => ?_
    cases placed : position input with
    | eof => exact reads_eof placed settledDue
    | elsewhere =>
      have found := position_lines input
      rw [placed] at found
      cases input with
      | nil => simp [startsInline] at found
      | cons char rest =>
        have inline : isNewline char = false := by simpa [startsInline] using found
        have silent := settledDue.scan_content inline rest
        obtain ⟨output, later⟩ := ih rest.length (Nat.lt_succ_self _) rest settledDue full rfl
        rw [← List.singleton_append] at silent ⊢
        have onward : Reads (scan allValid settled ([char] ++ rest)).scanner rest output := by
          rwa [silent]
        exact ⟨_, .content (by rw [silent]) (List.cons_ne_nil char []) (by simpa using inline) onward⟩
    | line width rest =>
      obtain ⟨idle, noNewline, scanned⟩ := settledDue.scan_nil input
      rw [placed] at scanned
      dsimp only at scanned
      obtain ⟨mark, marks, -, symbol_eq, read, next⟩ :=
        settledDue.atLine_within idle noNewline width rest full
      rw [← scanned] at symbol_eq read next
      obtain ⟨output, later⟩ := ih rest.length (length_rest_lt placed) rest next
        (Levels.placeWithin_depth_lt full) rfl
      exact ⟨.inl mark :: output, .token symbol_eq (read.symm ▸ later)⟩

theorem due_create : Due create Levels.ground [] := ⟨rfl, rfl⟩

/-- Lines with more line breaks after them. -/
def moved (count : Nat) (lines : List (Nat × Nat)) : List (Nat × Nat) :=
  lines.map fun line => (line.1 + count, line.2)

/-- A line break ends the lines of the text before it. -/
theorem linesFrom_append {state : Option Nat} {char : Char} (newline : isNewline char = true)
    (before after : Text) :
    linesFrom state (before ++ char :: after) =
      moved (breaks after + 1) (linesFrom state before) ++ linesFrom (some 0) after := by
  induction before generalizing state with
  | nil =>
    have visible : char ≠ ' ' ∧ char ≠ '\t' := by
      simp only [isNewline, Bool.or_eq_true, decide_eq_true_eq] at newline
      rcases newline with rfl | rfl <;> decide
    cases state with
    | none => rw [List.nil_append, linesFrom_newline newline, linesFrom_nil]; rfl
    | some indent =>
      rw [linesFrom_nil, List.nil_append, linesFrom, if_neg visible.1, if_neg visible.2,
        if_pos newline]
      rfl
  | cons first before ih =>
    cases state with
    | none =>
      rw [List.cons_append, linesFrom, linesFrom]
      split
      · exact ih
      · exact ih
    | some indent =>
      rw [List.cons_append, linesFrom, linesFrom]
      split
      · exact ih
      split
      · exact ih
      split
      · exact ih
      · have further := breaks_append before (char :: after)
        rw [breaks_cons_newline newline] at further
        rw [ih, further]
        rfl

/-- White space adds its width to the indentation measured so far, in 16 bits. -/
theorem linesFrom_spaces {spaces : Text} (blank : ∀ char ∈ spaces, isSpace char = true)
    {indent : Nat} (small : indent < 2 ^ 16) (rest : Text) :
    linesFrom (some indent) (spaces ++ rest) =
      linesFrom (some ((indent + (spaces.map spaceWidth).sum) % 2 ^ 16)) rest := by
  induction spaces generalizing indent with
  | nil => rw [List.map_nil, List.sum_nil, Nat.add_zero, Nat.mod_eq_of_lt small, List.nil_append]
  | cons char spaces ih =>
    have here := blank char List.mem_cons_self
    have others : ∀ other ∈ spaces, isSpace other = true := fun other member =>
      blank other (List.mem_cons_of_mem _ member)
    rw [List.cons_append, linesFrom, List.map_cons, List.sum_cons]
    simp only [isSpace, Bool.or_eq_true, decide_eq_true_eq] at here
    rcases here with rfl | rfl
    · have width : spaceWidth ' ' = 1 := rfl
      rw [if_pos rfl, ih others (Nat.mod_lt _ (by decide)), width, Nat.mod_add_mod, Nat.add_assoc]
    · have width : spaceWidth '\t' = tabWidth := rfl
      rw [if_neg (by decide), if_pos rfl, ih others (Nat.mod_lt _ (by decide)), width,
        Nat.mod_add_mod, Nat.add_assoc]

/-- A line that starts in a text is followed by line breaks of that text, and by
fewer than all of them where the text starts in a line before. -/
theorem linesFrom_bound (input : Text) :
    (∀ line ∈ linesFrom none input, line.1 < breaks input) ∧
      ∀ indent, ∀ line ∈ linesFrom (some indent) input, line.1 ≤ breaks input := by
  induction input with
  | nil => simp
  | cons char rest ih =>
    obtain ⟨inside, measured⟩ := ih
    have further : breaks rest ≤ breaks (char :: rest) := by
      rw [← List.singleton_append, breaks_append]
      omega
    refine ⟨?_, ?_⟩
    · intro line
      rw [linesFrom]
      split
      · next newline =>
        intro member
        rw [breaks_cons_newline newline]
        exact Nat.lt_succ_of_le (measured 0 line member)
      · exact fun member => Nat.lt_of_lt_of_le (inside line member) further
    · intro indent line
      rw [linesFrom]
      split
      · exact fun member => (measured _ line member).trans further
      split
      · exact fun member => (measured _ line member).trans further
      split
      · exact fun member => (measured _ line member).trans further
      · intro member
        rcases List.mem_cons.mp member with rfl | later
        · exact further
        · exact (Nat.le_of_lt (inside line later)).trans further

/-- Each line is followed by fewer line breaks than the one before. -/
theorem linesFrom_decreasing (state : Option Nat) (input : Text) :
    (linesFrom state input).Pairwise fun line later => later.1 < line.1 := by
  induction input generalizing state with
  | nil => simp
  | cons char rest ih =>
    cases state with
    | none =>
      rw [linesFrom]
      split
      · exact ih _
      · exact ih _
    | some indent =>
      rw [linesFrom]
      split
      · exact ih _
      split
      · exact ih _
      split
      · exact ih _
      · exact List.pairwise_cons.mpr ⟨(linesFrom_bound rest).1, ih none⟩

theorem levelsAfter_moved (count : Nat) (levels : Levels Nat) (lines : List (Nat × Nat)) :
    levelsAfter levels (moved count lines) = levelsAfter levels lines :=
  List.foldl_map

/-- The levels that lines open and close are told by those of the lines after a
common beginning. -/
theorem structureOf_append_inj {levels : Levels Nat} (before left right : List (Nat × Nat)) :
    structureOf levels (before ++ left) = structureOf levels (before ++ right) ↔
      structureOf (levelsAfter levels before) left = structureOf (levelsAfter levels before) right := by
  induction before generalizing levels with
  | nil => rfl
  | cons line before ih =>
    rw [List.cons_append, List.cons_append, structureOf, structureOf, List.append_cancel_left_eq, ih]
    rfl

theorem structureOf_moved (count : Nat) (levels : Levels Nat) (lines rest : List (Nat × Nat)) :
    structureOf levels (moved count lines ++ rest) = structureOf levels (lines ++ rest) := by
  induction lines generalizing levels with
  | nil => rfl
  | cons line lines ih =>
    change _ ++ structureOf _ (moved count lines ++ rest) = _ ++ structureOf _ (lines ++ rest)
    rw [ih]

theorem stacksOf_append (levels : Levels Nat) (before after : List (Nat × Nat)) :
    stacksOf levels (before ++ after) =
      stacksOf levels before ++ stacksOf (levelsAfter levels before) after := by
  induction before generalizing levels with
  | nil => rfl
  | cons line before ih => exact congrArg (_ :: ·) (ih _)

theorem mem_stacksOf_moved {count : Nat} {levels : Levels Nat} {lines : List (Nat × Nat)}
    {number : Nat} {stack : List Nat} : (number, stack) ∈ stacksOf levels (moved count lines) ↔
      ∃ line, (line, stack) ∈ stacksOf levels lines ∧ line + count = number := by
  induction lines generalizing levels with
  | nil => simp [moved, stacksOf]
  | cons line lines ih =>
    change _ ∈ (line.1 + count, _) :: stacksOf _ (moved count lines) ↔ _
    rw [List.mem_cons, ih, stacksOf]
    simp only [List.mem_cons, Prod.mk.injEq, or_and_right, exists_or]
    refine or_congr_left ⟨?_, ?_⟩
    · rintro ⟨rfl, rfl⟩
      exact ⟨_, ⟨rfl, rfl⟩, rfl⟩
    · rintro ⟨_, ⟨rfl, rfl⟩, rfl⟩
      exact ⟨rfl, rfl⟩

/-- The stacks are those of lines. -/
theorem line_of_mem_stacksOf {levels : Levels Nat} {lines : List (Nat × Nat)} {number : Nat}
    {stack : List Nat} (member : (number, stack) ∈ stacksOf levels lines) :
    ∃ line ∈ lines, line.1 = number := by
  induction lines generalizing levels with
  | nil => simp [stacksOf] at member
  | cons line lines ih =>
    rw [stacksOf, List.mem_cons, Prod.mk.injEq] at member
    rcases member with ⟨rfl, -⟩ | later
    · exact ⟨line, List.mem_cons_self, rfl⟩
    · obtain ⟨other, within, same⟩ := ih later
      exact ⟨other, List.mem_cons_of_mem _ within, same⟩

/-- The width of the next line, 0 where there is none. -/
def nextWidth (lines : List (Nat × Nat)) : Nat := (lines.head?.map Prod.snd).getD 0

/-- A line leaves the levels opened and closed, and the stack at each line after
it, as they are without it, exactly when it leaves no trace on the next line. -/
theorem traceless_iff_same (levels : Levels Nat) (width : Nat) {lines : List (Nat × Nat)}
    (decreasing : lines.Pairwise fun line later => later.1 < line.1) :
    (structureOf levels lines = blocks (levels.placeWithin maxIndentLevels width).2 ++
        structureOf (levels.placeWithin maxIndentLevels width).1 lines ∧
      ∀ line stack, (line, stack) ∈ stacksOf levels lines ↔
        (line, stack) ∈ stacksOf (levels.placeWithin maxIndentLevels width).1 lines) ↔
      Levels.Traceless maxIndentLevels levels width (nextWidth lines) := by
  cases lines with
  | nil =>
    have closed (levels : Levels Nat) :
        (levels.placeWithin maxIndentLevels 0).1 = Levels.ground := Levels.placeWithin_bot
    unfold Levels.Traceless
    simp only [stacksOf, structureOf, nextWidth, List.head?_nil, Option.map_none, Option.getD_none,
      closed, true_and, iff_self, implies_true, and_true]
    exact eq_comm
  | cons line lines =>
    obtain ⟨fewer, -⟩ := List.pairwise_cons.mp decreasing
    change _ ↔ Levels.Traceless maxIndentLevels levels width line.2
    unfold Levels.Traceless
    constructor
    · rintro ⟨tokens, visited⟩
      have here := (visited line.1 _).mp List.mem_cons_self
      rw [stacksOf, List.mem_cons, Prod.mk.injEq] at here
      have same : ((levels.placeWithin maxIndentLevels width).1.placeWithin maxIndentLevels line.2).1 =
          (levels.placeWithin maxIndentLevels line.2).1 := by
        rcases here with ⟨-, stack⟩ | later
        · exact Levels.ext stack.symm
        · obtain ⟨other, within, number⟩ := line_of_mem_stacksOf later
          have before := fewer other within
          omega
      rw [structureOf, structureOf, same, ← List.append_assoc, List.append_cancel_right_eq] at tokens
      exact ⟨same, tokens.symm⟩
    · rintro ⟨same, tokens⟩
      refine ⟨?_, ?_⟩
      · rw [structureOf, structureOf, same, ← tokens, List.append_assoc]
      · rw [stacksOf, stacksOf, same]
        exact fun _ _ => Iff.rfl

/-- A line that holds only a comment, with the line break that ends it. -/
structure CommentLine where
  indentation : Text
  comment : Text
  lineBreak : Char
  spaces : ∀ char ∈ indentation, isSpace char = true
  inline : ∀ char ∈ comment, isNewline char = false
  ends : isNewline lineBreak = true

/-- The line before a text. -/
def CommentLine.before (line : CommentLine) (after : Text) : Text :=
  line.indentation ++ ('#' :: line.comment ++ line.lineBreak :: after)

def CommentLine.width (line : CommentLine) : Nat := (line.indentation.map spaceWidth).sum % 2 ^ 16

/-- The number of a line of a text once a line is put before `after`. -/
def renumbered (after : Text) (number : Nat) : Nat :=
  if number ≤ breaks after then number else number + 1

/-- Put after a line break of a text, the line leaves the INDENTs and DEDENTs of
the text, and the stack at each of its lines, as they are. -/
def CommentLine.LeavesBlocks (line : CommentLine) (before : Text) (lineBreak : Char)
    (after : Text) : Prop :=
  ∀ original changed, Reads create (before ++ lineBreak :: after) original →
    Reads create (before ++ lineBreak :: line.before after) changed →
    blocksOf original = blocksOf changed ∧ ∀ number stack,
      .inr (number, stack) ∈ original ↔ .inr (renumbered after number, stack) ∈ changed

/-- The levels open at the end of a text. -/
def openLevels (text : Text) : Levels Nat := levelsAfter Levels.ground (linesFrom none text)

theorem CommentLine.breaks_before (line : CommentLine) (after : Text) :
    breaks (line.before after) = breaks after + 1 := by
  have spaces : ∀ char ∈ line.indentation, isNewline char = false := by
    intro char member
    have blank := line.spaces char member
    simp only [isSpace, Bool.or_eq_true, decide_eq_true_eq] at blank
    rcases blank with rfl | rfl <;> decide
  have content : ∀ char ∈ '#' :: line.comment, isNewline char = false :=
    List.forall_mem_cons.mpr ⟨by decide, line.inline⟩
  rw [CommentLine.before, breaks_inline spaces, breaks_inline content, breaks_cons_newline line.ends]

/-- The line is one more line before those of the text after it. -/
theorem CommentLine.linesFrom_before (line : CommentLine) (after : Text) :
    linesFrom (some 0) (line.before after) =
      (breaks after + 1, line.width) :: linesFrom (some 0) after := by
  have marked : isNewline '#' = false := by decide
  rw [CommentLine.before, linesFrom_spaces line.spaces (by decide), Nat.zero_add, List.cons_append,
    linesFrom, if_neg (by decide), if_neg (by decide), if_neg (by simp [marked]),
    breaks_inline line.inline, breaks_cons_newline line.ends, linesFrom_inline line.inline,
    linesFrom_newline line.ends]
  rfl

/-- Two texts with the same beginning both start in a line, or neither does. -/
theorem startsInline_append {lineBreak : Char} (before left right : Text) :
    startsInline (before ++ lineBreak :: left) = startsInline (before ++ lineBreak :: right) := by
  cases before with
  | nil => rfl
  | cons char before => rfl

/-- The stacks at the lines past a line break. -/
theorem Outlined.visited_after {output : List (TokenType ⊕ (Nat × List Nat))} {before after : Text}
    {lineBreak : Char} (outlined : Outlined output Levels.ground [] (before ++ lineBreak :: after))
    (newline : isNewline lineBreak = true) {number : Nat} (late : number ≤ breaks after)
    (stack : List Nat) : .inr (number, stack) ∈ output ↔
      (number, stack) ∈ stacksOf (openLevels before) (linesFrom (some 0) after) := by
  rw [outlined.visited, linesFrom_append newline, stacksOf_append, levelsAfter_moved,
    List.mem_append, mem_stacksOf_moved, breaks_append, breaks_cons_newline newline]
  constructor
  · rintro ((⟨line, -, number_eq⟩ | later) | ⟨number_eq, -, -⟩)
    · omega
    · exact later
    · omega
  · exact fun later => .inl (.inr later)

/-- The stacks at the lines before a line break. -/
theorem Outlined.visited_before {output : List (TokenType ⊕ (Nat × List Nat))} {before after : Text}
    {lineBreak : Char} (outlined : Outlined output Levels.ground [] (before ++ lineBreak :: after))
    (newline : isNewline lineBreak = true) (number : Nat) (stack : List Nat) :
    .inr (number + (breaks after + 1), stack) ∈ output ↔
      (number, stack) ∈ stacksOf Levels.ground (linesFrom none before) ∨
        (number = breaks before ∧ stack = [0] ∧ startsInline (before ++ [lineBreak]) = true) := by
  have starts := @startsInline_append lineBreak before after []
  rw [outlined.visited, linesFrom_append newline, stacksOf_append, levelsAfter_moved,
    List.mem_append, mem_stacksOf_moved, breaks_append, breaks_cons_newline newline, starts,
    Nat.add_right_cancel_iff]
  simp only [Nat.add_right_cancel_iff, exists_eq_right]
  have nowhere : ¬ (number + (breaks after + 1), stack) ∈
      stacksOf (levelsAfter Levels.ground (linesFrom none before)) (linesFrom (some 0) after) := by
    intro member
    obtain ⟨line, within, number_eq⟩ := line_of_mem_stacksOf member
    have late := (linesFrom_bound after).2 0 line within
    omega
  rw [or_iff_left nowhere]
  rfl

/-- The levels opened and closed with the line and without it. -/
theorem CommentLine.tokens_iff (line : CommentLine) {before after : Text} {lineBreak : Char}
    (newline : isNewline lineBreak = true) {original changed : List (TokenType ⊕ (Nat × List Nat))}
    (plain : Outlined original Levels.ground [] (before ++ lineBreak :: after))
    (commented : Outlined changed Levels.ground [] (before ++ lineBreak :: line.before after)) :
    blocksOf original = blocksOf changed ↔
      structureOf (openLevels before) (linesFrom (some 0) after) =
        blocks ((openLevels before).placeWithin maxIndentLevels line.width).2 ++
          structureOf ((openLevels before).placeWithin maxIndentLevels line.width).1
            (linesFrom (some 0) after) := by
  rw [plain.tokens, commented.tokens, linesFrom_append newline, linesFrom_append newline,
    line.linesFrom_before, structureOf_moved, structureOf_moved, List.append_cancel_left_eq,
    structureOf_append_inj]
  rfl

/-- The stacks at the other lines with the line and without it. -/
theorem CommentLine.visited_iff (line : CommentLine) {before after : Text} {lineBreak : Char}
    (newline : isNewline lineBreak = true) {original changed : List (TokenType ⊕ (Nat × List Nat))}
    (plain : Outlined original Levels.ground [] (before ++ lineBreak :: after))
    (commented : Outlined changed Levels.ground [] (before ++ lineBreak :: line.before after)) :
    (∀ number stack, .inr (number, stack) ∈ original ↔
        .inr (renumbered after number, stack) ∈ changed) ↔
      ∀ number stack, (number, stack) ∈ stacksOf (openLevels before) (linesFrom (some 0) after) ↔
        (number, stack) ∈ stacksOf ((openLevels before).placeWithin maxIndentLevels line.width).1
          (linesFrom (some 0) after) := by
  refine forall_congr' fun number => forall_congr' fun stack => ?_
  unfold renumbered
  rcases Nat.lt_or_ge (breaks after) number with early | late
  · -- Before the line both texts have the same lines, and after it neither list has this one.
    obtain ⟨number, rfl⟩ := Nat.exists_eq_add_of_le' early
    have past (levels : Levels Nat) : ¬ (number + (breaks after + 1), stack) ∈
        stacksOf levels (linesFrom (some 0) after) := by
      intro member
      obtain ⟨other, within, number_eq⟩ := line_of_mem_stacksOf member
      have bounded := (linesFrom_bound after).2 0 other within
      omega
    have shifted : number + (breaks after + 1) + 1 = number + (breaks (line.before after) + 1) := by
      rw [line.breaks_before, Nat.add_assoc]
    rw [if_neg (by omega), shifted, plain.visited_before newline, commented.visited_before newline]
    simp [past]
  · have later : number ≤ breaks (line.before after) := by
      rw [line.breaks_before]
      omega
    have other : number ≠ breaks after + 1 := by omega
    rw [if_pos late, plain.visited_after newline late, commented.visited_after newline later,
      line.linesFrom_before, stacksOf, List.mem_cons, Prod.mk.injEq]
    simp [other]

/-- A comment line leaves the blocks around it as they are exactly when its width
leaves no trace on the width of the next line. -/
theorem CommentLine.leavesBlocks_iff_traceless (line : CommentLine) (before after : Text)
    {lineBreak : Char} (newline : isNewline lineBreak = true) :
    line.LeavesBlocks before lineBreak after ↔
      Levels.Traceless maxIndentLevels (openLevels before) line.width
        (nextWidth (linesFrom (some 0) after)) := by
  have fits : (Levels.ground : Levels Nat).depth < maxIndentLevels := by decide
  rw [← traceless_iff_same _ _ (linesFrom_decreasing (some 0) after)]
  constructor
  · intro leaves
    obtain ⟨original, plain⟩ := reads_total (before ++ lineBreak :: after) due_create fits
    obtain ⟨changed, commented⟩ :=
      reads_total (before ++ lineBreak :: line.before after) due_create fits
    obtain ⟨same, stacked⟩ := leaves original changed plain commented
    have outlined := plain.outlined due_create fits
    have outlined' := commented.outlined due_create fits
    exact ⟨(line.tokens_iff newline outlined outlined').mp same,
      (line.visited_iff newline outlined outlined').mp stacked⟩
  · rintro ⟨same, stacked⟩ original changed plain commented
    have outlined := plain.outlined due_create fits
    have outlined' := commented.outlined due_create fits
    exact ⟨(line.tokens_iff newline outlined outlined').mpr same,
      (line.visited_iff newline outlined outlined').mpr stacked⟩

/-- A comment line leaves the blocks around it as they are exactly when it is as
wide as the innermost level open there, or wider where the next line opens that
level and the stack has an entry for it, or narrower where one of the levels open
lies between the next line and the comment. The end of the input is a line of
width 0. -/
theorem comment_line_unseen_iff (line : CommentLine) (before after : Text) {lineBreak : Char}
    (newline : isNewline lineBreak = true) :
    line.LeavesBlocks before lineBreak after ↔
      line.width = (openLevels before).top ∨
      ((openLevels before).top < line.width ∧ nextWidth (linesFrom (some 0) after) = line.width ∧
        (openLevels before).depth + 1 < maxIndentLevels) ∨
      (line.width < (openLevels before).top ∧ ∃ level ∈ (openLevels before).widths,
        nextWidth (linesFrom (some 0) after) ≤ level ∧ level ≤ line.width) := by
  rw [line.leavesBlocks_iff_traceless before after newline, Levels.traceless_iff,
    Levels.le_closing_top_iff]

/-- A comment at the margin. -/
def marginNote : CommentLine :=
  ⟨[], " note".toList, '\n', by simp, by simp [isNewline], by decide⟩

/-- At the margin between two blocks, past an indented body, a comment is unseen. -/
theorem comment_line_unseen_between :
    marginNote.LeavesBlocks "as a:\n  x".toList '\n' "as b:\n  y\n".toList := by
  refine (comment_line_unseen_iff marginNote _ _ (by decide)).mpr ?_
  decide

/-- Between two statements of one body, it closes the body and opens it again. -/
theorem comment_line_closes_block : ¬ ∀ (line : CommentLine) (before after : Text),
    line.LeavesBlocks before '\n' after := by
  intro unseen
  have traceless := (marginNote.leavesBlocks_iff_traceless "as a:\n  x".toList "  y\n".toList
    (by decide)).mp (unseen _ _ _)
  rw [Levels.traceless_iff] at traceless
  revert traceless
  decide

end Ill.Grammar
