import Mathlib.Data.List.Chain
import Ill.Lower.Rewrite

/-!
# The canonical form

Normalisation is a projection. The texts it leaves alone are those without
carriage returns and tabs whose lines do not end in whitespace and that end in
exactly one line feed; it takes every text to one of these, and it does not
see which line ending a line feed was spelt with.
-/

namespace Ill.Lower

open Base.Utf8

/-- A line that does not end in whitespace. -/
def Trimmed (line : Text) : Prop :=
  ∀ last ∈ line.getLast?, isWhitespace last = false

structure Canonical (text : Text) : Prop where
  noReturn : '\r' ∉ text
  noTab : '\t' ∉ text
  trimmed : ∀ line ∈ text.splitOn '\n', Trimmed line
  oneFeed : ∃ body, text = body ++ ['\n'] ∧ body.getLast? ≠ some '\n'

/-! ## Lines and adjacent characters -/

/-- No line feed follows whitespace other than a line feed. -/
abbrev Tidy (text : Text) : Prop :=
  text.IsChain fun char next => next = '\n' → char = '\n' ∨ isWhitespace char = false

theorem tidy_cons {char : Char} {text : Text} :
    Tidy (char :: text) ↔
      (text.head? = some '\n' → char = '\n' ∨ isWhitespace char = false) ∧ Tidy text := by
  rw [Tidy, List.isChain_cons]
  refine and_congr_left' ⟨fun each head => each '\n' head rfl, ?_⟩
  rintro ends next head rfl
  exact ends head

theorem tidy_feed {text : Text} : Tidy ('\n' :: text) ↔ Tidy text := by
  simp [tidy_cons]

theorem trimmed_cons {char : Char} {line : Text} (some_ : line ≠ []) :
    Trimmed (char :: line) ↔ Trimmed line := by
  cases line with
  | nil => exact absurd rfl some_
  | cons next line => simp [Trimmed]

/-- The lines of a text are trimmed if each line feed ends a trimmed line. -/
theorem trimmed_lines_iff (text : Text) :
    (∀ line ∈ text.splitOn '\n', Trimmed line) ↔ Tidy (text ++ ['\n']) := by
  induction text with
  | nil => simp [Trimmed]
  | cons char text ih =>
    rw [List.cons_append]
    by_cases feed : char = '\n'
    · subst feed
      rw [tidy_feed, ← ih]
      simp [List.splitOn_eq_splitOnP, List.splitOnP_cons_eq_if_modifyHead, Trimmed]
    · obtain ⟨lines, split⟩ := splitOn_feed text
      have longer : (char :: text).splitOn '\n' = (char :: text.takeWhile (· != '\n')) :: lines := by
        rw [List.splitOn_eq_splitOnP] at split ⊢
        rw [List.splitOnP_cons_eq_if_modifyHead, split]
        simp [feed]
      rw [split, List.forall_mem_cons] at ih
      rw [longer, List.forall_mem_cons, tidy_cons, ← ih]
      cases text with
      | nil => simp [Trimmed, feed]
      | cons next text =>
        by_cases ends : next = '\n'
        · simp [ends, Trimmed, feed]
        · rw [trimmed_cons (by simp [ends])]
          simp [ends]

/-- The line after the last line feed is empty. -/
theorem trimmed_lines_of_feed (body : Text) :
    (∀ line ∈ (body ++ ['\n']).splitOn '\n', Trimmed line) ↔ Tidy (body ++ ['\n']) := by
  rw [trimmed_lines_iff, Tidy, List.isChain_append]
  simp

/-! ## What is written -/

/-- Something other than line feeds is written for a text with content. -/
theorem rewrite_of_content {text : Text} (content : text.all isWhitespace = false) :
    ∃ out ∈ rewrite text, out ≠ '\n' := by
  induction text with
  | nil => simp at content
  | cons char rest ih =>
    rw [rewrite_cons content]
    rw [List.all_cons, Bool.and_eq_false_iff] at content
    rcases content with here | later
    · rw [written_of_content rest here]
      refine ⟨char, by simp, ?_⟩
      rintro rfl
      exact absurd here (by decide)
    · obtain ⟨out, inside, other⟩ := ih later
      exact ⟨out, List.mem_append_right _ inside, other⟩

/-- Exactly one line feed ends what is written. -/
theorem rewrite_oneFeed (text : Text) :
    ∃ body, rewrite text = body ++ ['\n'] ∧ body.getLast? ≠ some '\n' := by
  induction text with
  | nil => exact ⟨[], rfl, by simp⟩
  | cons char rest ih =>
    by_cases blank : (char :: rest).all isWhitespace = true
    · exact ⟨[], rewrite_of_blank blank, by simp⟩
    · have content := eq_false_of_ne_true blank
      obtain ⟨body, written_, last⟩ := ih
      refine ⟨written char rest ++ body, ?_, ?_⟩
      · rw [rewrite_cons content, written_, List.append_assoc]
      · by_cases ending : rest.all isWhitespace = true
        · have here : isWhitespace char = false := by simpa [ending] using content
          have empty : body = [] := by
            rw [rewrite_of_blank ending] at written_
            simpa using written_
          rw [written_of_content rest here, empty, List.append_nil, List.getLast?_singleton]
          rintro same
          rw [Option.some.inj same] at here
          exact absurd here (by decide)
        · obtain ⟨out, inside, other⟩ := rewrite_of_content (eq_false_of_ne_true ending)
          have some_ : body ≠ [] := by
            rintro rfl
            rw [written_] at inside
            exact other (List.mem_singleton.mp inside)
          rwa [List.getLast?_append_of_ne_nil _ some_]

/-- If something else follows on the line, no line feed is written next. -/
theorem head?_rewrite_of_content {text : Text} (content : lineBlank text = false) :
    (rewrite text).head? ≠ some '\n' := by
  induction text with
  | nil => simp [lineBlank] at content
  | cons char rest ih =>
    have inside : char ≠ '\n' ∧ char ≠ '\r' := by
      constructor
      · rintro rfl
        simp [lineBlank] at content
      · rintro rfl
        simp [lineBlank] at content
    have later : isWhitespace char = true → lineBlank rest = false := by
      intro white
      simpa [lineBlank, List.takeWhile_cons, inside, white] using content
    have whole : (char :: rest).all isWhitespace = false := by
      by_contra blank
      rw [lineBlank_of_blank ((Bool.not_eq_false _).mp blank)] at content
      simp at content
    rw [rewrite_cons whole, written, if_neg inside.2, if_neg inside.1]
    by_cases white : isWhitespace char = true
    · rw [white, later white, Bool.and_false, if_neg Bool.false_ne_true]
      split <;> simp [inside.1]
    · rw [eq_false_of_ne_true white, Bool.false_and, if_neg Bool.false_ne_true]
      split <;> simp [inside.1]

theorem rewrite_tidy (text : Text) : Tidy (rewrite text) := by
  induction text with
  | nil => simp [rewrite]
  | cons char rest ih =>
    rw [rewrite]
    split
    · simp
    · unfold written
      split
      · split
        · exact ih
        · exact tidy_feed.mpr ih
      · split
        · exact tidy_feed.mpr ih
        · split
          · exact ih
          · next kept =>
            have boundary : isWhitespace char = true → (rewrite rest).head? ≠ some '\n' := by
              intro white
              rw [white, Bool.true_and] at kept
              exact head?_rewrite_of_content (eq_false_of_ne_true kept)
            split
            · next tab =>
              have white : isWhitespace char = true := by
                rw [tab]
                decide
              refine List.isChain_append.mpr ⟨by simp, ih, ?_⟩
              rintro last - next head rfl
              exact absurd head (boundary white)
            · refine tidy_cons.mpr ⟨fun head => .inr ?_, ih⟩
              by_contra white
              exact boundary ((Bool.not_eq_false _).mp white) head

theorem normalize_canonical (text : Text) : Canonical (normalize text) := by
  rw [normalize_eq_rewrite]
  obtain ⟨body, written_, last⟩ := rewrite_oneFeed text
  refine ⟨fun inside => (mem_rewrite inside).1 rfl, fun inside => (mem_rewrite inside).2 rfl, ?_,
    body, written_, last⟩
  rw [written_, trimmed_lines_of_feed, ← written_]
  exact rewrite_tidy text

/-! ## What is left alone -/

/-- Whitespace at the end of a line is untidy. -/
theorem not_tidy_of_lineBlank {char : Char} {rest : Text} (white : isWhitespace char = true)
    (inside : char ≠ '\n') (blank : lineBlank rest = true) (noReturn : '\r' ∉ rest)
    (feed : '\n' ∈ rest) : ¬ Tidy (char :: rest) := by
  induction rest generalizing char with
  | nil => simp at feed
  | cons next rest ih =>
    rw [tidy_cons]
    rintro ⟨here, later⟩
    by_cases ends : next = '\n'
    · rcases here (by rw [ends, List.head?_cons]) with same | content
      · exact inside same
      · simp [white] at content
    · have other : next ≠ '\r' := by
        rintro rfl
        simp at noReturn
      have parts : isWhitespace next = true ∧ lineBlank rest = true := by
        simpa [lineBlank, List.takeWhile_cons, ends, other] using blank
      refine ih parts.1 ends parts.2 (fun found => noReturn (List.mem_cons_of_mem _ found)) ?_ later
      simpa [Ne.symm ends] using feed

/-- A text that ends in content and one line feed has content. -/
theorem content_of_tidy {body : Text} (some_ : body ≠ []) (last : body.getLast? ≠ some '\n')
    (tidy : Tidy (body ++ ['\n'])) : (body ++ ['\n']).all isWhitespace = false := by
  obtain ⟨front, char, rfl⟩ := (List.eq_nil_or_concat' body).resolve_left some_
  have boundary := (List.isChain_append.mp tidy).2.2 char (by simp) '\n' (by simp) rfl
  have other : char ≠ '\n' := by simpa using last
  simp [boundary.resolve_left other]

/-- A canonical text is left alone. -/
theorem normalize_of_canonical {text : Text} (canonical : Canonical text) : normalize text = text := by
  obtain ⟨noReturn, noTab, trimmed, body, rfl, last⟩ := canonical
  rw [trimmed_lines_of_feed] at trimmed
  rw [normalize_eq_rewrite]
  induction body with
  | nil => rfl
  | cons char body ih =>
    have content := content_of_tidy (by simp) last trimmed
    rw [List.cons_append] at noReturn noTab trimmed content ⊢
    obtain ⟨notReturn, laterReturn⟩ := List.ne_and_not_mem_of_not_mem_cons noReturn
    obtain ⟨notTab, laterTab⟩ := List.ne_and_not_mem_of_not_mem_cons noTab
    have later : body.getLast? ≠ some '\n' := by
      cases body with
      | nil => simp
      | cons next body => simpa using last
    have kept : written char (body ++ ['\n']) = [char] := by
      rw [written, if_neg (Ne.symm notReturn)]
      split
      · next feed => rw [feed]
      · next inside =>
        split
        · next dropped =>
          obtain ⟨white, blank⟩ := (Bool.and_eq_true _ _).mp dropped
          exact absurd trimmed (not_tidy_of_lineBlank white inside blank laterReturn (by simp))
        · rw [if_neg (Ne.symm notTab)]
    rw [rewrite_cons content, kept, ih later laterReturn laterTab (tidy_cons.mp trimmed).2]
    rfl

theorem normalize_eq_self_iff (text : Text) : normalize text = text ↔ Canonical text :=
  ⟨fun same => same ▸ normalize_canonical text, normalize_of_canonical⟩

/-! ## Line endings -/

/-- The second text is the first with some of its line feeds spelt as a carriage
return, alone or followed by a line feed. A lone one is not followed by a line
feed that was kept. -/
inductive Reended : Text → Text → Prop where
  | nil : Reended [] []
  | keep (char : Char) {text other : Text} (same : Reended text other) :
    Reended (char :: text) (char :: other)
  | crlf {text other : Text} (same : Reended text other) :
    Reended ('\n' :: text) ('\r' :: '\n' :: other)
  | cr {text other : Text} (same : Reended text other) (boundary : other.head? ≠ some '\n') :
    Reended ('\n' :: text) ('\r' :: other)

theorem unixLines_of_reended {text other : Text} (reended : Reended text other)
    (noReturn : '\r' ∉ text) : unixLines other = unixLines text := by
  induction reended with
  | nil => rfl
  | keep char same ih =>
    obtain ⟨here, later⟩ := List.ne_and_not_mem_of_not_mem_cons noReturn
    rw [unixLines_cons _ (Ne.symm here), unixLines_cons _ (Ne.symm here), ih later]
  | crlf same ih =>
    obtain ⟨-, later⟩ := List.ne_and_not_mem_of_not_mem_cons noReturn
    rw [unixLines_crlf, unixLines_cons _ (by decide), ih later]
  | cr same boundary ih =>
    obtain ⟨-, later⟩ := List.ne_and_not_mem_of_not_mem_cons noReturn
    rw [unixLines_cr boundary, unixLines_cons _ (by decide), ih later]

/-- Normalisation takes every text to a canonical one, which it leaves alone,
and the same one however the line feeds of the text are spelt. -/
theorem normalize_canonical_form (text : Text) :
    normalize (normalize text) = normalize text ∧ Canonical (normalize text) ∧
      ('\r' ∉ text → ∀ other, Reended text other → normalize other = normalize text) := by
  have canonical := normalize_canonical text
  refine ⟨normalize_of_canonical canonical, canonical, fun noReturn other reended => ?_⟩
  exact congrArg (fun lines => collapse (joinLines lines)) (unixLines_of_reended reended noReturn)

end Ill.Lower
