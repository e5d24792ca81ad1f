import Ill.Lower.Normalize

/-!
# Normalisation, character by character

Normalisation is described a second time, from left to right: what it writes
for a character depends on that character and on what follows it. The two
descriptions agree, so the bytes of the normalised text can be traced back to
the source.
-/

namespace Ill.Lower

open Base.Utf8

/-- Whether nothing but whitespace follows on the line. -/
def lineBlank (rest : Text) : Bool :=
  (rest.takeWhile fun char => char != '\n' && char != '\r').all isWhitespace

/-- What is written for a character that `rest` follows, inside a text that does
not end in whitespace only. -/
def written (char : Char) (rest : Text) : Text :=
  if char = '\r' then if rest.head? = some '\n' then [] else ['\n']
  else if char = '\n' then ['\n']
  else if isWhitespace char && lineBlank rest then []
  else if char = '\t' then [' ', ' ']
  else [char]

/-- A text of whitespace only is written as the one final line feed. -/
def rewrite : Text → Text
  | [] => ['\n']
  | char :: rest =>
    if (char :: rest).all isWhitespace then ['\n'] else written char rest ++ rewrite rest

theorem rewrite_of_blank {text : Text} (blank : text.all isWhitespace = true) :
    rewrite text = ['\n'] := by
  cases text with
  | nil => rfl
  | cons char rest => rw [rewrite, if_pos blank]

theorem rewrite_cons {char : Char} {rest : Text}
    (content : (char :: rest).all isWhitespace = false) :
    rewrite (char :: rest) = written char rest ++ rewrite rest := by
  rw [rewrite, content]
  rfl

/-! ## The lines -/

/-- The line feeds that normalisation sees. -/
def unixLines (src : Text) : Text := replaceCr (replaceCrlf src)

@[simp] theorem unixLines_nil : unixLines [] = [] := rfl

theorem unixLines_crlf (rest : Text) :
    unixLines ('\r' :: '\n' :: rest) = '\n' :: unixLines rest := by
  simp [unixLines, replaceCrlf, replaceCr]

theorem unixLines_cr {rest : Text} (lone : rest.head? ≠ some '\n') :
    unixLines ('\r' :: rest) = '\n' :: unixLines rest := by
  cases rest with
  | nil => rfl
  | cons next rest =>
    have other : next ≠ '\n' := by simpa using lone
    simp [unixLines, replaceCrlf, replaceCr, other]

theorem unixLines_cons {char : Char} (rest : Text) (other : char ≠ '\r') :
    unixLines (char :: rest) = char :: unixLines rest := by
  simp [unixLines, replaceCrlf, replaceCr, other]

/-- The induction along which a text is normalised. -/
theorem unixLines_induction {motive : Text → Prop} (nil : motive [])
    (crlf : ∀ rest, motive ('\n' :: rest) → motive rest → motive ('\r' :: '\n' :: rest))
    (cr : ∀ rest, rest.head? ≠ some '\n' → motive rest → motive ('\r' :: rest))
    (cons : ∀ char rest, char ≠ '\r' → motive rest → motive (char :: rest)) :
    ∀ text, motive text
  | [] => nil
  | char :: rest => by
    have ih : motive rest := unixLines_induction nil crlf cr cons rest
    by_cases return_ : char = '\r'
    · subst return_
      cases rest with
      | nil => exact cr [] (by simp) nil
      | cons next rest =>
        by_cases feed : next = '\n'
        · subst feed
          exact crlf rest ih (unixLines_induction nil crlf cr cons rest)
        · exact cr (next :: rest) (by simpa using feed) ih
    · exact cons char rest return_ ih

/-- The first line of the text is the line up to the next line ending. -/
theorem takeWhile_unixLines (text : Text) :
    (unixLines text).takeWhile (· != '\n') =
      text.takeWhile fun char => char != '\n' && char != '\r' := by
  induction text using unixLines_induction with
  | nil => rfl
  | crlf rest => simp [unixLines_crlf]
  | cr rest lone => simp [unixLines_cr lone]
  | cons char rest other ih =>
    rw [unixLines_cons rest other, List.takeWhile_cons, List.takeWhile_cons, ih]
    simp [other]

/-! ## Trimming -/

theorem trimEnd_append (front back : Text) :
    trimEnd (front ++ back) =
      if trimEnd back = [] then trimEnd front else front ++ trimEnd back := by
  unfold trimEnd List.rdropWhile
  rw [List.reverse_append, List.dropWhile_append]
  by_cases blank : back.reverse.dropWhile isWhitespace = []
  · simp [blank]
  · simp [blank]

theorem expandTabs_cons (char : Char) (line : Text) :
    expandTabs (char :: line) = expandTabs [char] ++ expandTabs line := by
  simp [expandTabs]

theorem all_expandTabs (line : Text) :
    (expandTabs line).all isWhitespace = line.all isWhitespace := by
  induction line with
  | nil => rfl
  | cons char line ih =>
    rw [expandTabs_cons, List.all_append, ih, List.all_cons]
    by_cases tab : char = '\t'
    · subst tab
      rfl
    · simp [expandTabs, tab]

theorem trimEnd_expandTabs_eq_nil {line : Text} :
    trimEnd (expandTabs line) = [] ↔ line.all isWhitespace = true := by
  rw [trimEnd, List.rdropWhile_eq_nil_iff, ← all_expandTabs, List.all_eq_true]

theorem trimEnd_expandTabs_singleton (char : Char) :
    trimEnd (expandTabs [char]) = if isWhitespace char then [] else expandTabs [char] := by
  by_cases white : isWhitespace char = true
  · rw [if_pos white, trimEnd_expandTabs_eq_nil]
    simp [white]
  · have other : char ≠ '\t' := by
      rintro rfl
      exact white rfl
    simp [expandTabs, trimEnd, other, white, List.rdropWhile_singleton]

/-! ## The joined lines -/

theorem splitOn_feed (text : Text) :
    ∃ lines, text.splitOn '\n' = text.takeWhile (· != '\n') :: lines := by
  induction text with
  | nil => exact ⟨[], rfl⟩
  | cons char text ih =>
    obtain ⟨lines, split⟩ := ih
    rw [List.splitOn_eq_splitOnP] at split ⊢
    rw [List.splitOnP_cons_eq_if_modifyHead, split]
    by_cases feed : char = '\n'
    · simp [feed]
    · simp [feed]

@[simp] theorem joinLines_nil : joinLines [] = ['\n'] := rfl

theorem joinLines_feed (text : Text) : joinLines ('\n' :: text) = '\n' :: joinLines text := by
  simp [joinLines, List.splitOn_eq_splitOnP, List.splitOnP_cons_eq_if_modifyHead, expandTabs,
    trimEnd]

theorem joinLines_cons {char : Char} (text : Text) (other : char ≠ '\n') :
    joinLines (char :: text) =
      (if isWhitespace char && (text.takeWhile (· != '\n')).all isWhitespace then []
        else expandTabs [char]) ++ joinLines text := by
  obtain ⟨lines, split⟩ := splitOn_feed text
  rw [List.splitOn_eq_splitOnP] at split
  have longer : (char :: text).splitOn '\n' = (char :: text.takeWhile (· != '\n')) :: lines := by
    rw [List.splitOn_eq_splitOnP, List.splitOnP_cons_eq_if_modifyHead, split]
    simp [other]
  rw [joinLines, longer, List.flatMap_cons, expandTabs_cons, trimEnd_append,
    trimEnd_expandTabs_singleton, joinLines, List.splitOn_eq_splitOnP, split, List.flatMap_cons]
  by_cases blank : (text.takeWhile (· != '\n')).all isWhitespace = true
  · have trimmed := trimEnd_expandTabs_eq_nil.mpr blank
    rw [trimmed, if_pos rfl, blank, Bool.and_true, List.nil_append]
    rw [List.append_assoc]
  · have trimmed : trimEnd (expandTabs (text.takeWhile (· != '\n'))) ≠ [] :=
      fun empty => blank (trimEnd_expandTabs_eq_nil.mp empty)
    have content : (text.takeWhile (· != '\n')).all isWhitespace = false :=
      eq_false_of_ne_true blank
    rw [if_neg trimmed, content, Bool.and_false]
    simp

/-- Each character contributes what `written` says. -/
theorem joinLines_unixLines_cons (char : Char) (rest : Text) :
    joinLines (unixLines (char :: rest)) = written char rest ++ joinLines (unixLines rest) := by
  unfold written
  split
  · next carriage =>
    subst carriage
    split
    · next feed =>
      obtain ⟨tail, rfl⟩ : ∃ tail, rest = '\n' :: tail := by
        cases rest with
        | nil => simp at feed
        | cons next tail => exact ⟨tail, by rw [Option.some.inj feed]⟩
      rw [unixLines_crlf, unixLines_cons tail (by decide), List.nil_append]
    · next lone => rw [unixLines_cr lone, joinLines_feed, List.singleton_append]
  · next other =>
    rw [unixLines_cons rest other]
    split
    · next feed => rw [feed, joinLines_feed, List.singleton_append]
    · next inside =>
      rw [joinLines_cons _ inside, takeWhile_unixLines, lineBlank]
      split
      · rfl
      · simp [expandTabs]

theorem written_of_content {char : Char} (rest : Text) (content : isWhitespace char = false) :
    written char rest = [char] := by
  have noReturn : char ≠ '\r' := by
    rintro rfl
    exact absurd content (by decide)
  have noFeed : char ≠ '\n' := by
    rintro rfl
    exact absurd content (by decide)
  have noTab : char ≠ '\t' := by
    rintro rfl
    exact absurd content (by decide)
  simp [written, noReturn, noFeed, noTab, content]

theorem lineBlank_of_blank {rest : Text} (blank : rest.all isWhitespace = true) :
    lineBlank rest = true := by
  rw [lineBlank, List.all_eq_true]
  intro char inside
  exact List.all_eq_true.mp blank char ((List.takeWhile_prefix _).subset inside)

/-- Whitespace in front of whitespace only is dropped, but for the line feeds. -/
theorem written_of_blank {char : Char} {rest : Text} (white : isWhitespace char = true)
    (blank : rest.all isWhitespace = true) : ∀ out ∈ written char rest, out = '\n' := by
  intro out inside
  rw [written, white, lineBlank_of_blank blank] at inside
  split at inside
  · split at inside
    · simp at inside
    · exact List.mem_singleton.mp inside
  · split at inside
    · exact List.mem_singleton.mp inside
    · simp at inside

theorem joinLines_of_blank {text : Text} (blank : text.all isWhitespace = true) :
    joinLines (unixLines text) ≠ [] ∧ ∀ out ∈ joinLines (unixLines text), out = '\n' := by
  induction text with
  | nil => simp
  | cons char rest ih =>
    rw [List.all_cons, Bool.and_eq_true] at blank
    obtain ⟨some_, feeds⟩ := ih blank.2
    rw [joinLines_unixLines_cons]
    constructor
    · simp [some_]
    · intro out inside
      rcases List.mem_append.mp inside with first | later
      · exact written_of_blank blank.1 blank.2 out first
      · exact feeds out later

theorem joinLines_of_content {text : Text} (content : text.all isWhitespace = false) :
    ∃ out ∈ joinLines (unixLines text), out ≠ '\n' := by
  induction text with
  | nil => simp at content
  | cons char rest ih =>
    rw [joinLines_unixLines_cons]
    rw [List.all_cons, Bool.and_eq_false_iff] at content
    rcases content with here | later
    · rw [written_of_content rest here]
      refine ⟨char, by simp, ?_⟩
      rintro rfl
      exact absurd here (by decide)
    · obtain ⟨out, inside, other⟩ := ih later
      exact ⟨out, List.mem_append_right _ inside, other⟩

/-! ## The trailing line feeds -/

theorem popNewlines_append {front : Text} (content : ∃ char ∈ front, char ≠ '\n') (back : Text) :
    popNewlines (front ++ back) = popNewlines front ++ back := by
  fun_induction popNewlines front with
  | case1 rest ih =>
    have later : ∃ char ∈ '\n' :: rest, char ≠ '\n' := by simpa using content
    exact ih later
  | case2 text other =>
    rcases text with _ | ⟨first, _ | ⟨second, rest⟩⟩
    · simp at content
    · have here : first ≠ '\n' := by simpa using content
      rw [List.singleton_append, popNewlines]
      intro rest same
      exact here (List.cons.inj same).1
    · rw [List.cons_append, List.cons_append, popNewlines]
      intro tail same
      obtain ⟨rfl, behind⟩ := List.cons.inj same
      obtain ⟨rfl, -⟩ := List.cons.inj behind
      exact other rest rfl

theorem popNewlines_feeds {feeds back : Text} (some_ : feeds ≠ [])
    (all : ∀ char ∈ feeds, char = '\n') (boundary : back.head? ≠ some '\n') :
    popNewlines (feeds ++ back) = '\n' :: back := by
  induction feeds with
  | nil => exact absurd rfl some_
  | cons first rest ih =>
    obtain rfl : first = '\n' := all first (by simp)
    have others : ∀ char ∈ rest, char = '\n' := fun char inside => all char (by simp [inside])
    rcases rest with _ | ⟨second, rest⟩
    · rw [List.singleton_append, popNewlines]
      intro tail same
      obtain ⟨-, rfl⟩ := List.cons.inj same
      simp at boundary
    · obtain rfl : second = '\n' := others second (by simp)
      exact ih (by simp) others

theorem collapse_append (front : Text) {back : Text} (content : ∃ char ∈ back, char ≠ '\n') :
    collapse (front ++ back) = front ++ collapse back := by
  have reversed : ∃ char ∈ back.reverse, char ≠ '\n' := by simpa using content
  rw [collapse, List.reverse_append, popNewlines_append reversed, List.reverse_append,
    List.reverse_reverse, collapse]

theorem collapse_feeds {front feeds : Text} (boundary : front.getLast? ≠ some '\n')
    (some_ : feeds ≠ []) (all : ∀ char ∈ feeds, char = '\n') :
    collapse (front ++ feeds) = front ++ ['\n'] := by
  have reversed : ∀ char ∈ feeds.reverse, char = '\n' := by simpa using all
  have edge : front.reverse.head? ≠ some '\n' := by rwa [List.head?_reverse]
  rw [collapse, List.reverse_append, popNewlines_feeds (by simpa using some_) reversed edge]
  simp

/-- Normalising a text writes it from left to right. -/
theorem normalize_eq_rewrite (text : Text) : normalize text = rewrite text := by
  change collapse (joinLines (unixLines text)) = rewrite text
  induction text with
  | nil => rfl
  | cons char rest ih =>
    by_cases blank : (char :: rest).all isWhitespace = true
    · obtain ⟨some_, feeds⟩ := joinLines_of_blank blank
      have start : ([] : Text).getLast? ≠ some '\n' := by simp
      rw [rewrite_of_blank blank]
      exact collapse_feeds start some_ feeds
    · have content := eq_false_of_ne_true blank
      rw [rewrite_cons content, joinLines_unixLines_cons]
      by_cases last : rest.all isWhitespace = true
      · obtain ⟨some_, feeds⟩ := joinLines_of_blank last
        have here : isWhitespace char = false := by simpa [last] using content
        have other : char ≠ '\n' := by
          rintro rfl
          exact absurd here (by decide)
        rw [written_of_content rest here, rewrite_of_blank last]
        exact collapse_feeds (by simpa using other) some_ feeds
      · have later := joinLines_of_content (eq_false_of_ne_true last)
        rw [collapse_append _ later, ih]

/-! ## What becomes of a part of the text -/

/-- What is written for `before` when `after` follows. -/
def contribution : Text → Text → Text
  | [], _ => []
  | char :: before, after =>
    (if (char :: (before ++ after)).all isWhitespace then [] else written char (before ++ after)) ++
      contribution before after

theorem rewrite_append (before after : Text) :
    rewrite (before ++ after) = contribution before after ++ rewrite after := by
  induction before with
  | nil => rfl
  | cons char before ih =>
    rw [List.cons_append, contribution]
    by_cases blank : (char :: (before ++ after)).all isWhitespace = true
    · have later : (before ++ after).all isWhitespace = true := by
        rw [List.all_cons, Bool.and_eq_true] at blank
        exact blank.2
      rw [if_pos blank, rewrite_of_blank blank, ← rewrite_of_blank later, ih, List.nil_append]
    · rw [if_neg blank, rewrite_cons (eq_false_of_ne_true blank), ih, List.append_assoc]

/-- A part of a line that ends in content has content. -/
theorem content_of_last {part : Text} {last : Char} (content : isWhitespace last = false)
    (after : Text) : (part ++ last :: after).all isWhitespace = false := by
  simp [content]

theorem lineBlank_of_last {part : Text} {last : Char}
    (inLine : ∀ char ∈ part ++ [last], char ≠ '\r' ∧ char ≠ '\n')
    (content : isWhitespace last = false) (after : Text) :
    lineBlank (part ++ last :: after) = false := by
  have whole : (part ++ last :: after).takeWhile (fun char => char != '\n' && char != '\r') =
      part ++ last :: after.takeWhile fun char => char != '\n' && char != '\r' := by
    have split : part ++ last :: after = (part ++ [last]) ++ after := by simp
    rw [split, List.takeWhile_append_of_pos]
    · simp
    · intro char inside
      simp [inLine char inside]
  rw [lineBlank, whole]
  exact content_of_last content _

/-- Within one line, up to content, only tabs are rewritten. -/
theorem contribution_line {part : Text} {last : Char}
    (inLine : ∀ char ∈ part ++ [last], char ≠ '\r' ∧ char ≠ '\n')
    (content : isWhitespace last = false) (after : Text) :
    contribution (part ++ [last]) after = expandTabs (part ++ [last]) := by
  induction part with
  | nil =>
    have noTab : last ≠ '\t' := by
      rintro rfl
      exact absurd content (by decide)
    simp [contribution, written_of_content, content, expandTabs, noTab]
  | cons char part ih =>
    obtain ⟨here, later⟩ := List.forall_mem_cons.mp inLine
    have rest : part ++ [last] ++ after = part ++ last :: after := by simp
    have kept : (char :: (part ++ last :: after)).all isWhitespace = false := by
      rw [List.all_cons, content_of_last content, Bool.and_false]
    rw [List.cons_append, contribution, expandTabs_cons, ih later, rest, kept,
      if_neg Bool.false_ne_true, written, if_neg here.1, if_neg here.2,
      lineBlank_of_last later content, Bool.and_false, if_neg Bool.false_ne_true]
    simp [expandTabs]

theorem expandTabs_of_noTab {line : Text} (noTab : '\t' ∉ line) : expandTabs line = line := by
  induction line with
  | nil => rfl
  | cons char line ih =>
    obtain ⟨here, later⟩ := List.ne_and_not_mem_of_not_mem_cons noTab
    rw [expandTabs_cons, ih later]
    simp [expandTabs, Ne.symm here]

/-- Whether `part` is written as it is when `after` follows. Of whitespace at
the end of the text only a line feed at its front is. -/
def untouched : Text → Text → Bool
  | [], _ => true
  | char :: part, after =>
    if (char :: (part ++ after)).all isWhitespace then char == '\n' && part.isEmpty
    else written char (part ++ after) == [char] && untouched part after

theorem mem_written {char out : Char} {rest : Text} (inside : out ∈ written char rest) :
    out ≠ '\r' ∧ out ≠ '\t' := by
  unfold written at inside
  split at inside
  · split at inside
    · simp at inside
    · rw [List.mem_singleton.mp inside]
      decide
  · next noReturn =>
    split at inside
    · rw [List.mem_singleton.mp inside]
      decide
    · split at inside
      · simp at inside
      · split at inside
        · simp only [List.mem_cons, List.not_mem_nil, or_false, or_self] at inside
          rw [inside]
          decide
        · next noTab =>
          rw [List.mem_singleton.mp inside]
          exact ⟨noReturn, noTab⟩

/-- No carriage return and no tab is written. -/
theorem mem_rewrite {text : Text} {out : Char} (inside : out ∈ rewrite text) :
    out ≠ '\r' ∧ out ≠ '\t' := by
  induction text with
  | nil =>
    rw [List.mem_singleton.mp inside]
    decide
  | cons char rest ih =>
    rw [rewrite] at inside
    split at inside
    · rw [List.mem_singleton.mp inside]
      decide
    · rcases List.mem_append.mp inside with here | later
      · exact mem_written here
      · exact ih later

/-- If nothing but whitespace follows on the line, a line feed is written next. -/
theorem head?_rewrite {text : Text} (blank : lineBlank text = true) :
    (rewrite text).head? = some '\n' := by
  induction text with
  | nil => rfl
  | cons char rest ih =>
    rw [rewrite]
    split
    · rfl
    · unfold written
      split
      · split
        · next feed =>
          refine ih ?_
          cases rest with
          | nil => rfl
          | cons next tail =>
            rw [Option.some.inj feed]
            simp [lineBlank]
        · rfl
      · next noReturn =>
        split
        · rfl
        · next noFeed =>
          have parts : isWhitespace char = true ∧ lineBlank rest = true := by
            simpa [lineBlank, List.takeWhile_cons, noReturn, noFeed] using blank
          rw [parts.1, parts.2]
          exact ih parts.2

/-- A part of the text stands at the front of what is written for it and what
follows exactly if it is written as it is. -/
theorem prefix_rewrite_iff (part after : Text) :
    part <+: rewrite (part ++ after) ↔ untouched part after = true := by
  induction part with
  | nil => simp [untouched]
  | cons char part ih =>
    rw [List.cons_append, rewrite, untouched]
    split
    · simp [List.cons_prefix_cons, Bool.and_eq_true, List.prefix_nil]
    · rw [Bool.and_eq_true, beq_iff_eq, ← ih]
      by_cases kept : written char (part ++ after) = [char]
      · simp [kept, List.cons_prefix_cons]
      · simp only [kept, false_and, iff_false]
        intro front
        -- The character is not the next one written: it is a carriage return, a tab, or
        -- whitespace dropped at the end of a line.
        have here : char ∈ written char (part ++ after) ++ rewrite (part ++ after) :=
          front.subset (by simp)
        have safe : char ≠ '\r' ∧ char ≠ '\t' :=
          (List.mem_append.mp here).elim mem_written mem_rewrite
        unfold written at front kept
        rw [if_neg safe.1] at front kept
        split at front
        · next feed => simp [feed] at kept
        · next noFeed =>
          rw [if_neg noFeed] at kept
          split at front
          · next dropped =>
            obtain ⟨-, blank⟩ := (Bool.and_eq_true _ _).mp dropped
            have head := head?_rewrite blank
            obtain ⟨tail, same⟩ := front
            rw [List.nil_append] at same
            rw [← same] at head
            exact noFeed (Option.some.inj head)
          · next content => simp [content, safe.2] at kept

end Ill.Lower
