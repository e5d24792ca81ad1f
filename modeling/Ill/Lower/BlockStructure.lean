import Ill.Grammar.Comments
import Ill.Lower.Rewrite

/-!
# Normalisation and block structure

A text is parsed once it is normalised, and an editor parses it as it is
written. Normalisation drops lines' trailing whitespace and writes a tab as two
spaces, which is what a tab measures; so every line keeps its width, and the
scanner finds the same blocks in both texts. The one thing that comes between
them is whitespace the scanner does not measure, alone on a line: it is a line
for the scanner and nothing for normalisation. Nor do the blocks depend on how
far lines are indented, only on which of them are wider.

All of this is about `Reads`: the parser takes each of the three layout tokens
wherever the scanner finds it, and no other token of its reaches over the end of
a line. A string or a comment that does, or a place where the grammar expects no
layout, is outside.
-/

namespace Ill.Lower

open Base.Utf8
open Ill.Base.Layout
open Grammar

/-- No line is blank by whitespace other than spaces and tabs. `indented` says
that the text stands in the indentation of a line. -/
def plainBlanks (indented : Bool) : Text → Bool
  | [] => true
  | char :: rest =>
    if isNewline char then plainBlanks true rest
    else if indented && isSpace char then plainBlanks true rest
    else !(indented && isWhitespace char && lineBlank rest) && plainBlanks false rest

/-- The widths of the lines that start in a text and are not blank. -/
def widthsFrom (state : Option Nat) (text : Text) : List Nat :=
  (linesFrom state text).map Prod.snd

@[simp] theorem widthsFrom_nil (state : Option Nat) : widthsFrom state [] = [] := by
  rw [widthsFrom, linesFrom_nil, List.map_nil]

/-! ## One character -/

/-- A line ending starts a line, wherever it stands. -/
theorem widthsFrom_newline (state : Option Nat) {char : Char} (newline : isNewline char = true)
    (rest : Text) : widthsFrom state (char :: rest) = widthsFrom (some 0) rest := by
  cases state with
  | none => rw [widthsFrom, linesFrom_newline newline, widthsFrom]
  | some indent =>
    have notSpace : char ≠ ' ' := by
      rintro rfl
      exact absurd newline (by decide)
    have notTab : char ≠ '\t' := by
      rintro rfl
      exact absurd newline (by decide)
    rw [widthsFrom, linesFrom, if_neg notSpace, if_neg notTab, if_pos newline, widthsFrom]

/-- White space widens the indentation it stands in. -/
theorem widthsFrom_space (indent : Nat) {char : Char} (space : isSpace char = true) (rest : Text) :
    widthsFrom (some indent) (char :: rest) =
      widthsFrom (some ((indent + spaceWidth char) % 2 ^ 16)) rest := by
  simp only [isSpace, Bool.or_eq_true, decide_eq_true_eq] at space
  rcases space with rfl | rfl
  · rw [widthsFrom, linesFrom, if_pos rfl]
    rfl
  · rw [widthsFrom, linesFrom, if_neg (by decide), if_pos rfl]
    rfl

/-- Anything else ends the indentation, and the line has its width. -/
theorem widthsFrom_content (indent : Nat) {char : Char} (newline : isNewline char = false)
    (space : isSpace char = false) (rest : Text) :
    widthsFrom (some indent) (char :: rest) = indent :: widthsFrom none rest := by
  simp only [isSpace, Bool.or_eq_false_iff, decide_eq_false_iff_not] at space
  rw [widthsFrom, linesFrom, if_neg space.1, if_neg space.2, if_neg (by simp [newline])]
  rfl

/-- Within a line no line starts. -/
theorem widthsFrom_inline {char : Char} (newline : isNewline char = false) (rest : Text) :
    widthsFrom none (char :: rest) = widthsFrom none rest := by
  rw [widthsFrom, linesFrom, if_neg (by simp [newline]), widthsFrom]

theorem plainBlanks_newline {indented : Bool} {char : Char} (newline : isNewline char = true)
    (rest : Text) : plainBlanks indented (char :: rest) = plainBlanks true rest := by
  rw [plainBlanks, if_pos newline]

theorem plainBlanks_space {char : Char} (space : isSpace char = true) (rest : Text) :
    plainBlanks true (char :: rest) = plainBlanks true rest := by
  simp only [isSpace, Bool.or_eq_true, decide_eq_true_eq] at space
  rcases space with rfl | rfl <;> rfl

theorem plainBlanks_inline {char : Char} (newline : isNewline char = false) (rest : Text) :
    plainBlanks false (char :: rest) = plainBlanks false rest := by
  rw [plainBlanks, if_neg (by simp [newline]), Bool.false_and, if_neg (by simp), Bool.false_and,
    Bool.false_and, Bool.not_false, Bool.true_and]

/-- Content of a line that is not blank goes with whatever whitespace it has. -/
theorem plainBlanks_content {char : Char} (newline : isNewline char = false)
    (space : isSpace char = false) {rest : Text} (plain : plainBlanks true (char :: rest) = true) :
    (isWhitespace char && lineBlank rest) = false ∧ plainBlanks false rest = true := by
  rw [plainBlanks, if_neg (by simp [newline]), space, Bool.and_false, if_neg (by simp),
    Bool.true_and, Bool.and_eq_true, Bool.not_eq_true'] at plain
  exact plain

/-! ## Blank lines -/

/-- In a text of whitespace no line starts that is not blank. -/
theorem widthsFrom_blank {text : Text} {state : Option Nat} (blank : text.all isWhitespace = true)
    (plain : plainBlanks state.isSome text = true) : widthsFrom state text = [] := by
  induction text generalizing state with
  | nil => exact widthsFrom_nil state
  | cons char rest ih =>
    rw [List.all_cons, Bool.and_eq_true] at blank
    by_cases newline : isNewline char = true
    · rw [widthsFrom_newline state newline]
      rw [plainBlanks_newline newline] at plain
      exact ih blank.2 plain
    rw [Bool.not_eq_true] at newline
    cases state with
    | none =>
      rw [widthsFrom_inline newline]
      exact ih blank.2 ((plainBlanks_inline newline rest).symm.trans plain)
    | some indent =>
      by_cases space : isSpace char = true
      · rw [widthsFrom_space indent space]
        exact ih blank.2 ((plainBlanks_space space rest).symm.trans plain)
      · rw [Bool.not_eq_true] at space
        have content := (plainBlanks_content newline space plain).1
        rw [blank.1, lineBlank_of_blank blank.2] at content
        exact absurd content (by decide)

theorem lineBlank_cons {char : Char} (newline : isNewline char = false) (rest : Text) :
    lineBlank (char :: rest) = (isWhitespace char && lineBlank rest) := by
  simp only [isNewline, Bool.or_eq_false_iff, decide_eq_false_iff_not] at newline
  rw [lineBlank, List.takeWhile_cons_of_pos (by simp [newline]), List.all_cons, lineBlank]

/-- What is measured of a blank line is forgotten. -/
theorem widthsFrom_lineBlank {text : Text} (blank : lineBlank text = true)
    (plain : plainBlanks true text = true) (left right : Nat) :
    widthsFrom (some left) text = widthsFrom (some right) text := by
  induction text generalizing left right with
  | nil => rw [widthsFrom_nil, widthsFrom_nil]
  | cons char rest ih =>
    by_cases newline : isNewline char = true
    · rw [widthsFrom_newline _ newline, widthsFrom_newline _ newline]
    rw [Bool.not_eq_true] at newline
    rw [lineBlank_cons newline, Bool.and_eq_true] at blank
    by_cases space : isSpace char = true
    · rw [widthsFrom_space left space, widthsFrom_space right space]
      exact ih blank.2 ((plainBlanks_space space rest).symm.trans plain) _ _
    · rw [Bool.not_eq_true] at space
      have content := (plainBlanks_content newline space plain).1
      rw [blank.1, blank.2] at content
      exact absurd content (by decide)

/-! ## Normalised text -/

/-- Dropped whitespace leaves the widths as they are. -/
theorem widthsFrom_dropped {state : Option Nat} {char : Char} {rest : Text}
    (newline : isNewline char = false) (white : isWhitespace char = true)
    (blank : lineBlank rest = true) (plain : plainBlanks state.isSome (char :: rest) = true) :
    plainBlanks state.isSome rest = true ∧
      widthsFrom state (char :: rest) = widthsFrom state rest := by
  cases state with
  | none => exact ⟨(plainBlanks_inline newline rest).symm.trans plain, widthsFrom_inline newline rest⟩
  | some indent =>
    have space : isSpace char = true := by
      by_contra content
      rw [Bool.not_eq_true] at content
      have kept := (plainBlanks_content newline content plain).1
      rw [white, blank] at kept
      exact absurd kept (by decide)
    have onward := (plainBlanks_space space rest).symm.trans plain
    rw [widthsFrom_space indent space]
    exact ⟨onward, widthsFrom_lineBlank blank onward _ _⟩

/-- A tab is as wide as the spaces written for it. -/
theorem widthsFrom_tab (state : Option Nat) (rest : Text) :
    widthsFrom state (' ' :: ' ' :: rest) = widthsFrom state ('\t' :: rest) := by
  cases state with
  | none =>
    rw [widthsFrom_inline (by decide), widthsFrom_inline (by decide), widthsFrom_inline (by decide)]
  | some indent =>
    have space : isSpace ' ' = true := by decide
    rw [widthsFrom_space indent space, widthsFrom_space _ space, widthsFrom_space indent (by decide),
      Nat.mod_add_mod]
    rfl

/-- Equal widths after a character of a line are equal widths from it on. The
state after the character is the same whatever follows. -/
theorem widthsFrom_cons_congr {state : Option Nat} {char : Char} {left right : Text}
    (newline : isNewline char = false) (plain : plainBlanks state.isSome (char :: right) = true)
    (onward : ∀ next : Option Nat, plainBlanks next.isSome right = true →
      widthsFrom next left = widthsFrom next right) :
    widthsFrom state (char :: left) = widthsFrom state (char :: right) := by
  cases state with
  | none =>
    rw [widthsFrom_inline newline, widthsFrom_inline newline]
    exact onward none ((plainBlanks_inline newline right).symm.trans plain)
  | some indent =>
    by_cases space : isSpace char = true
    · rw [widthsFrom_space indent space, widthsFrom_space indent space]
      exact onward (some _) ((plainBlanks_space space right).symm.trans plain)
    · rw [Bool.not_eq_true] at space
      rw [widthsFrom_content indent newline space, widthsFrom_content indent newline space,
        onward none (plainBlanks_content newline space plain).2]

/-- Normalisation keeps the width of every line that is not blank. -/
theorem widthsFrom_rewrite (text : Text) (state : Option Nat)
    (plain : plainBlanks state.isSome text = true) :
    widthsFrom state (rewrite text) = widthsFrom state text := by
  have feed : isNewline '\n' = true := by decide
  induction text generalizing state with
  | nil => rw [rewrite, widthsFrom_newline state feed, widthsFrom_nil, widthsFrom_nil]
  | cons char rest ih =>
    by_cases blank : (char :: rest).all isWhitespace = true
    · rw [rewrite_of_blank blank, widthsFrom_newline state feed, widthsFrom_nil,
        widthsFrom_blank blank plain]
    rw [Bool.not_eq_true] at blank
    rw [rewrite_cons blank]
    by_cases newline : isNewline char = true
    · rw [widthsFrom_newline state newline]
      rw [plainBlanks_newline newline] at plain
      simp only [isNewline, Bool.or_eq_true, decide_eq_true_eq] at newline
      rcases newline with rfl | rfl
      · rw [written, if_neg (by decide), if_pos rfl, List.singleton_append,
          widthsFrom_newline state feed]
        exact ih (some 0) plain
      rw [written, if_pos rfl]
      split
      · next paired =>
        -- the two characters of a line ending end one line
        obtain ⟨rest, rfl⟩ := List.head?_eq_some_iff.mp paired
        rw [plainBlanks_newline feed] at plain
        rw [List.nil_append, ih state (by rwa [plainBlanks_newline feed]),
          widthsFrom_newline state feed, widthsFrom_newline (some 0) feed]
      · rw [List.singleton_append, widthsFrom_newline state feed]
        exact ih (some 0) plain
    rw [Bool.not_eq_true] at newline
    have notReturn : char ≠ '\r' := by
      rintro rfl
      exact absurd newline (by decide)
    have notFeed : char ≠ '\n' := by
      rintro rfl
      exact absurd newline (by decide)
    rw [written, if_neg notReturn, if_neg notFeed]
    split
    · next dropped =>
      rw [Bool.and_eq_true] at dropped
      obtain ⟨onward, same⟩ := widthsFrom_dropped newline dropped.1 dropped.2 plain
      rw [List.nil_append, same]
      exact ih state onward
    split
    · next tab =>
      subst tab
      rw [List.cons_append, List.cons_append, List.nil_append, widthsFrom_tab]
      exact widthsFrom_cons_congr newline plain fun next => ih next
    · exact widthsFrom_cons_congr newline plain fun next => ih next

/-! ## Blocks -/

/-- Which levels lines open and close is settled by their widths. -/
theorem structureOf_congr {levels : Levels Nat} {left right : List (Nat × Nat)}
    (same : left.map Prod.snd = right.map Prod.snd) :
    structureOf levels left = structureOf levels right := by
  induction left generalizing levels right with
  | nil =>
    rw [List.map_nil] at same
    rw [List.map_eq_nil_iff.mp same.symm]
  | cons line lines ih =>
    cases right with
    | nil => exact absurd same (by simp)
    | cons other others =>
      rw [List.map_cons, List.map_cons, List.cons.injEq] at same
      rw [structureOf, structureOf, same.1, ih same.2]

/-- A source and what is parsed of it have the same blocks: the parser can read
both to the end, and every run over the one opens and closes the levels that
every run over the other does, in the same order. -/
theorem normalize_keeps_blocks (src : Text) (plain : plainBlanks false src = true) :
    (∃ output, Reads create src output) ∧
      (∃ output, Reads create (normalize src) output) ∧
      ∀ written parsed, Reads create src written → Reads create (normalize src) parsed →
        blocksOf parsed = blocksOf written := by
  have room : (Levels.ground : Levels Nat).depth < maxIndentLevels := by decide
  refine ⟨reads_total src due_create room, reads_total _ due_create room, ?_⟩
  intro written parsed readsWritten readsParsed
  rw [(readsParsed.outlined due_create room).tokens, (readsWritten.outlined due_create room).tokens,
    normalize_eq_rewrite]
  exact congrArg _ (structureOf_congr (widthsFrom_rewrite src none plain))

/-- A form feed alone on a line closes the block it stands in, and is not parsed. -/
example : widthsFrom none ['a', '\n', ' ', 'b', '\n', Char.ofNat 12, '\n', ' ', 'c'] = [1, 0, 1] ∧
    widthsFrom none (normalize ['a', '\n', ' ', 'b', '\n', Char.ofNat 12, '\n', ' ', 'c']) = [1, 1] := by
  decide

/-- A block written with a tab, a line ending of two characters and trailing
spaces. -/
theorem normalize_keeps_blocks_tab :
    ∃ written parsed, Reads create "a: \r\n\tb\r\n ".toList written ∧
      Reads create (normalize "a: \r\n\tb\r\n ".toList) parsed ∧
      blocksOf parsed = blocksOf written := by
  obtain ⟨⟨written, readsWritten⟩, ⟨parsed, readsParsed⟩, same⟩ :=
    normalize_keeps_blocks "a: \r\n\tb\r\n ".toList (by decide)
  exact ⟨written, parsed, readsWritten, readsParsed, same written parsed readsWritten readsParsed⟩

/-! ## Other indentations -/

/-- Line for line, two texts are indented in the same order: of any two lines, and
of a line and the margin, the one is wider in the one text if it is in the other. -/
structure IndentedAlike (src other : Text) : Prop where
  lines : (widthsFrom none src).length = (widthsFrom none other).length
  order : SameOrder ((0, 0) :: (widthsFrom none src).zip (widthsFrom none other))

/-- Lines whose widths are in the same order open and close the same levels. -/
theorem structureOf_alike {pairs : List (Nat × Nat)} (same : SameOrder pairs)
    (margin : (0, 0) ∈ pairs) {left right : List (Nat × Nat)}
    (paired : List.Forall₂ (fun line other => (line.2, other.2) ∈ pairs) left right)
    {levels others : Levels Nat} (alike : Levels.Alike pairs levels others) :
    structureOf levels left = structureOf others right := by
  induction paired generalizing levels others with
  | nil =>
    rw [structureOf, structureOf]
    exact congrArg blocks (alike.placeWithin same margin maxIndentLevels).1
  | cons here _ ih =>
    have placed := alike.placeWithin same here maxIndentLevels
    rw [structureOf, structureOf]
    exact congrArg₂ _ (congrArg blocks placed.1) (ih placed.2)

/-- Block structure is a matter of which lines are wider: however a text is
indented otherwise, by other steps, with tabs or unevenly, as long as its lines
are in the same order, every run over the one text opens and closes the levels
that every run over the other does, in the same order. -/
theorem indented_alike_keeps_blocks (src other : Text) (alike : IndentedAlike src other) :
    (∃ output, Reads create src output) ∧
      (∃ output, Reads create other output) ∧
      ∀ written indented, Reads create src written → Reads create other indented →
        blocksOf indented = blocksOf written := by
  have room : (Levels.ground : Levels Nat).depth < maxIndentLevels := by decide
  refine ⟨reads_total src due_create room, reads_total other due_create room, ?_⟩
  intro written indented readsWritten readsIndented
  rw [(readsIndented.outlined due_create room).tokens, (readsWritten.outlined due_create room).tokens]
  have margin : (0, 0) ∈ (0, 0) :: (widthsFrom none src).zip (widthsFrom none other) :=
    List.mem_cons_self
  have paired : List.Forall₂ (fun line partner => (line.2, partner.2) ∈
      (0, 0) :: (widthsFrom none src).zip (widthsFrom none other))
      (linesFrom none src) (linesFrom none other) := by
    have zipped := alike.lines
    rw [widthsFrom, widthsFrom, List.length_map, List.length_map] at zipped
    refine List.forall₂_iff_zip.mpr ⟨zipped, fun {line partner} member => ?_⟩
    rw [widthsFrom, widthsFrom, List.zip_map]
    exact List.mem_cons_of_mem _ (List.mem_map_of_mem member)
  exact congrArg _ (structureOf_alike alike.order margin paired (Levels.alike_ground margin)).symm

/-- A nested block by steps of four, and by a tab and then a space. -/
theorem indented_alike_keeps_blocks_tab :
    ∃ written indented, Reads create "a\n    b\n        c\n    d\ne\n".toList written ∧
      Reads create "a\n\tb\n\t c\n\td\ne\n".toList indented ∧
      blocksOf indented = blocksOf written := by
  obtain ⟨⟨written, readsWritten⟩, ⟨indented, readsIndented⟩, same⟩ :=
    indented_alike_keeps_blocks "a\n    b\n        c\n    d\ne\n".toList
      "a\n\tb\n\t c\n\td\ne\n".toList ⟨by decide, by unfold SameOrder; decide⟩
  exact ⟨written, indented, readsWritten, readsIndented,
    same written indented readsWritten readsIndented⟩

end Ill.Lower
