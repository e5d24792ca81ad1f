import Mathlib.Data.List.TakeWhile
import Mathlib.Order.BoundedOrder.Basic
import Mathlib.Order.Lattice

/-!
# The off-side rule

Block structure from the widths that lines start at. The open levels are a
stack of widths, innermost first, strictly decreasing down to the least width;
a line opens a level, continues the current one, or closes every level that is
wider. Nothing is assumed of widths but that they are linearly ordered with a
least one.
-/

namespace Ill.Base.Layout

universe u v

/-- The marks a line is preceded by. -/
inductive Mark where
  | newline
  | indent
  | dedent
deriving DecidableEq, Repr

/-- The open levels, innermost first. -/
structure Levels (Width : Type u) [LinearOrder Width] [OrderBot Width] where
  widths : List Width
  nested : widths.Pairwise (· > ·)
  grounded : widths.getLast? = some ⊥

namespace Levels

variable {Width : Type u} [LinearOrder Width] [OrderBot Width]

/-- Levels are the same when their widths are. -/
@[ext] theorem ext {left right : Levels Width} (widths : left.widths = right.widths) :
    left = right := by
  cases left
  cases right
  cases widths
  rfl

/-- Only the outermost level. -/
def ground : Levels Width where
  widths := [⊥]
  nested := List.pairwise_singleton _ _
  grounded := rfl

/-- The number of levels open above the outermost one. -/
def depth (levels : Levels Width) : Nat := levels.widths.length - 1

/-- The width of the innermost level. -/
def top (levels : Levels Width) : Width := levels.widths.headD ⊥

theorem widths_ne_nil (levels : Levels Width) : levels.widths ≠ [] := by
  intro empty
  have grounded := levels.grounded
  rw [empty] at grounded
  simp at grounded

theorem widths_eq_cons (levels : Levels Width) :
    levels.widths = levels.top :: levels.widths.tail := by
  unfold top
  cases whole : levels.widths with
  | nil => exact absurd whole levels.widths_ne_nil
  | cons width below => rfl

theorem length_widths (levels : Levels Width) : levels.widths.length = levels.depth + 1 := by
  rw [depth, levels.widths_eq_cons]
  simp

/-- The innermost level is the widest. -/
theorem le_top (levels : Levels Width) {width : Width} (member : width ∈ levels.widths) :
    width ≤ levels.top := by
  have nested := levels.nested
  rw [levels.widths_eq_cons] at member nested
  rcases List.mem_cons.mp member with here | below
  · exact le_of_eq here
  · exact le_of_lt (List.rel_of_pairwise_cons nested below)

/-- Open a level for a wider line. -/
def opening (levels : Levels Width) (width : Width) (wider : levels.top < width) :
    Levels Width where
  widths := width :: levels.widths
  nested := List.pairwise_cons.mpr
    ⟨fun _ member => lt_of_le_of_lt (levels.le_top member) wider, levels.nested⟩
  grounded := by
    rw [levels.widths_eq_cons, List.getLast?_cons_cons, ← levels.widths_eq_cons]
    exact levels.grounded

/-- Without the innermost of its levels a stack still has the ground. -/
theorem getLast?_tail {widths : List Width} (grounded : widths.getLast? = some ⊥)
    (more : 1 < widths.length) : widths.tail.getLast? = some ⊥ := by
  rw [List.getLast?_tail, if_neg (Nat.ne_of_gt more), grounded]

/-- Dropping what is wider keeps the outermost level. -/
theorem getLast?_dropWhile {widths : List Width} (grounded : widths.getLast? = some ⊥)
    (width : Width) : (widths.dropWhile fun level => width < level).getLast? = some ⊥ := by
  induction widths with
  | nil => simp at grounded
  | cons level below ih =>
    by_cases wider : width < level
    · rw [List.dropWhile_cons_of_pos (by simpa using wider)]
      refine ih ?_
      cases below with
      | nil =>
        have bottom : level = ⊥ := by simpa using grounded
        exact absurd wider (bottom ▸ not_lt_bot)
      | cons next rest => rwa [List.getLast?_cons_cons] at grounded
    · rw [List.dropWhile_cons_of_neg (by simpa using wider)]
      exact grounded

/-- Close every level that is wider than a line. -/
def closing (levels : Levels Width) (width : Width) : Levels Width where
  widths := levels.widths.dropWhile fun level => width < level
  nested := levels.nested.sublist (List.dropWhile_sublist _)
  grounded := getLast?_dropWhile levels.grounded width

/-- The marks for the levels a line closes, and one more when it continues a
level that was open. -/
def closingMarks (levels : Levels Width) (width : Width) : List Mark :=
  List.replicate (levels.depth - (levels.closing width).depth) .dedent ++
    if (levels.closing width).top = width then [.newline] else []

/-- The levels after a line and the marks before it. -/
def place (levels : Levels Width) (width : Width) : Levels Width × List Mark :=
  if wider : levels.top < width then (levels.opening width wider, [.indent])
  else if width = levels.top then (levels, [.newline])
  else (levels.closing width, levels.closingMarks width)

/-- A line narrower than the innermost level closes at least that one. -/
theorem closing_depth_lt {levels : Levels Width} {width : Width} (narrower : width < levels.top) :
    (levels.closing width).depth < levels.depth := by
  have dropped : (levels.closing width).widths.length ≤ levels.widths.tail.length := by
    change (levels.widths.dropWhile fun level => width < level).length ≤ _
    rw [levels.widths_eq_cons, List.dropWhile_cons_of_pos (by simpa using narrower)]
    exact (List.dropWhile_sublist _).length_le
  have shorter := levels.length_widths
  rw [levels.widths_eq_cons, List.length_cons] at shorter
  have kept := (levels.closing width).length_widths
  omega

/-- A narrower line leaves the outermost level, and fewer levels than there were. -/
theorem length_closing {levels : Levels Width} {width : Width} (narrower : width < levels.top) :
    1 ≤ (levels.closing width).widths.length ∧
      (levels.closing width).widths.length < levels.widths.length := by
  have kept := (levels.closing width).length_widths
  have whole := levels.length_widths
  have fewer := closing_depth_lt narrower
  omega

/-- What stays open is no wider than the line. -/
theorem closing_top_le (levels : Levels Width) (width : Width) :
    (levels.closing width).top ≤ width := by
  have kept := List.head?_dropWhile_not (fun level => decide (width < level)) levels.widths
  have front : (levels.widths.dropWhile fun level => width < level).head? =
      some (levels.closing width).top := by
    change (levels.closing width).widths.head? = _
    rw [(levels.closing width).widths_eq_cons]
    rfl
  rw [front] at kept
  simpa using kept

/-- What stays open goes up to a width when one of the levels does. -/
theorem le_closing_top_iff {levels : Levels Width} {width other : Width} :
    other ≤ (levels.closing width).top ↔ ∃ level ∈ levels.widths, other ≤ level ∧ level ≤ width := by
  constructor
  · intro within
    have kept : (levels.closing width).top ∈ (levels.closing width).widths := by
      rw [(levels.closing width).widths_eq_cons]
      exact List.mem_cons_self
    exact ⟨_, (List.dropWhile_sublist _).subset kept, within, levels.closing_top_le width⟩
  · rintro ⟨level, member, within, open_⟩
    refine within.trans ((levels.closing width).le_top ?_)
    change level ∈ levels.widths.dropWhile fun level => width < level
    have parted := @List.takeWhile_append_dropWhile _ (fun level => width < level) levels.widths
    rw [← parted] at member
    rcases List.mem_append.mp member with closed | kept
    · exact absurd (List.mem_takeWhile_imp closed) (by simpa using open_)
    · exact kept

/-- Levels whose innermost one is the least width are the ground. -/
theorem eq_ground {levels : Levels Width} (bottom : levels.top = ⊥) : levels = ground := by
  have nested := levels.nested
  have whole := levels.widths_eq_cons
  rw [whole, bottom] at nested
  have none_below : levels.widths.tail = [] := by
    refine List.eq_nil_iff_forall_not_mem.mpr fun width member => ?_
    exact not_lt_bot (List.rel_of_pairwise_cons nested member)
  refine Levels.ext ?_
  rw [whole, bottom, none_below]
  rfl

/-- A line of the least width closes every level. -/
theorem place_bot (levels : Levels Width) : (levels.place ⊥).1 = ground := by
  unfold place
  split
  · next wider => exact absurd wider not_lt_bot
  split
  · next same => exact eq_ground same.symm
  · exact eq_ground (le_bot_iff.mp (levels.closing_top_le ⊥))

/-- Closing never opens a level. -/
theorem closing_depth_le (levels : Levels Width) (width : Width) :
    (levels.closing width).depth ≤ levels.depth := by
  have shorter := (@List.dropWhile_sublist _ levels.widths fun level => width < level).length_le
  have kept := (levels.closing width).length_widths
  have whole := levels.length_widths
  change (levels.closing width).widths.length ≤ _ at shorter
  omega

/-- A line at least as wide as the innermost level closes nothing. -/
theorem closing_of_top_le {levels : Levels Width} {width : Width} (wide : levels.top ≤ width) :
    levels.closing width = levels := by
  refine Levels.ext ?_
  change levels.widths.dropWhile (fun level => width < level) = levels.widths
  rw [levels.widths_eq_cons, List.dropWhile_cons_of_neg (by simpa using wide)]

/-- What a line closes, a narrower line closes as well. -/
theorem closing_closing {levels : Levels Width} {width narrow : Width} (narrower : narrow ≤ width) :
    (levels.closing width).closing narrow = levels.closing narrow := by
  refine Levels.ext ?_
  change (levels.widths.dropWhile fun level => width < level).dropWhile (fun level => narrow < level) =
    levels.widths.dropWhile fun level => narrow < level
  induction levels.widths with
  | nil => rfl
  | cons level below ih =>
    by_cases wider : width < level
    · rw [List.dropWhile_cons_of_pos (by simpa using wider), ih,
        List.dropWhile_cons_of_pos (by simpa using lt_of_le_of_lt narrower wider)]
    · rw [List.dropWhile_cons_of_neg (by simpa using wider)]

/-- A level just opened is the first that a narrower line closes. -/
theorem closing_opening {levels : Levels Width} {width narrow : Width} (wider : levels.top < width)
    (narrower : narrow < width) :
    (levels.opening width wider).closing narrow = levels.closing narrow := by
  refine Levels.ext ?_
  change (width :: levels.widths).dropWhile (fun level => narrow < level) = _
  rw [List.dropWhile_cons_of_pos (by simpa using narrower)]
  rfl

/-- A line as wide as the innermost level continues it. -/
theorem place_top (levels : Levels Width) : levels.place levels.top = (levels, [.newline]) := by
  unfold place
  rw [dif_neg (lt_irrefl _), if_pos rfl]

/-- A line no wider than the innermost level closes what is wider than it. -/
theorem place_of_le {levels : Levels Width} {width : Width} (within : width ≤ levels.top) :
    (levels.place width).1 = levels.closing width := by
  unfold place
  rw [dif_neg (not_lt.mpr within)]
  split
  · next same => exact (closing_of_top_le (le_of_eq same.symm)).symm
  · rfl

end Levels

/-- The marks that open or close a level. -/
def blocks (marks : List Mark) : List Mark := marks.filter fun mark => mark ≠ .newline

namespace Levels

variable {Width : Type u} [LinearOrder Width] [OrderBot Width]

/-- The levels that a line no wider than the innermost one closes, as marks. -/
theorem blocks_place_of_le {levels : Levels Width} {width : Width} (within : width ≤ levels.top) :
    blocks (levels.place width).2 =
      List.replicate (levels.depth - (levels.closing width).depth) .dedent := by
  unfold place
  rw [dif_neg (not_lt.mpr within)]
  split
  · next same =>
    rw [closing_of_top_le (le_of_eq same.symm), Nat.sub_self]
    rfl
  · unfold closingMarks blocks
    rw [List.filter_append, List.filter_eq_self.mpr (by simp)]
    split <;> simp

/-- `place` on a stack with room for fewer than `capacity` levels above the
outermost one: a level past that is marked and not recorded. -/
def placeWithin (capacity : Nat) (levels : Levels Width) (width : Width) :
    Levels Width × List Mark :=
  if levels.top < width ∧ capacity ≤ levels.depth + 1 then (levels, [.indent])
  else levels.place width

variable {capacity : Nat} {levels : Levels Width} {width next : Width}

theorem placeWithin_of_le (within : width ≤ levels.top) :
    levels.placeWithin capacity width = levels.place width :=
  if_neg fun overflows => not_lt.mpr within overflows.1

theorem placeWithin_of_room (room : levels.depth + 1 < capacity) :
    levels.placeWithin capacity width = levels.place width :=
  if_neg fun overflows => Nat.not_lt.mpr overflows.2 room

theorem placeWithin_of_full (wider : levels.top < width) (full : capacity ≤ levels.depth + 1) :
    levels.placeWithin capacity width = (levels, [.indent]) :=
  if_pos ⟨wider, full⟩

theorem place_of_wider (wider : levels.top < width) :
    levels.place width = (levels.opening width wider, [.indent]) :=
  dif_pos wider

/-- A wider line is marked as such, recorded or not. -/
theorem placeWithin_marks_of_wider (wider : levels.top < width) :
    (levels.placeWithin capacity width).2 = [.indent] := by
  unfold placeWithin
  split
  · rfl
  · rw [place_of_wider wider]

/-- A line of the least width closes every level, recorded as far as they are. -/
theorem placeWithin_bot : (levels.placeWithin capacity ⊥).1 = ground := by
  rw [placeWithin_of_le bot_le, place_bot]

/-- The stack never holds more than it has room for. -/
theorem placeWithin_depth_lt (fits : levels.depth < capacity) :
    (levels.placeWithin capacity width).1.depth < capacity := by
  rcases lt_or_ge levels.top width with wider | within
  · rcases Nat.lt_or_ge (levels.depth + 1) capacity with room | full
    · rw [placeWithin_of_room room, place_of_wider wider]
      have pushed := (levels.opening width wider).length_widths
      change levels.widths.length + 1 = _ at pushed
      change (levels.opening width wider).depth < capacity
      have whole := levels.length_widths
      omega
    · rwa [placeWithin_of_full wider full]
  · rw [placeWithin_of_le within, place_of_le within]
    exact Nat.lt_of_le_of_lt (levels.closing_depth_le width) fits

/-- A line placed before another leaves no trace: the levels after both, and the
levels opened and closed on the way, are those of the other alone. -/
def Traceless (capacity : Nat) (levels : Levels Width) (width next : Width) : Prop :=
  ((levels.placeWithin capacity width).1.placeWithin capacity next).1 =
      (levels.placeWithin capacity next).1 ∧
    blocks (levels.placeWithin capacity width).2 ++
        blocks ((levels.placeWithin capacity width).1.placeWithin capacity next).2 =
      blocks (levels.placeWithin capacity next).2

/-- A line that closes levels leaves no trace before one that closes as many. -/
theorem traceless_of_le (within : width ≤ levels.top) (nested : next ≤ (levels.closing width).top) :
    Traceless capacity levels width next := by
  have narrower : next ≤ width := nested.trans (levels.closing_top_le width)
  have alone : next ≤ levels.top := narrower.trans within
  unfold Traceless
  rw [placeWithin_of_le within, placeWithin_of_le alone, place_of_le within,
    placeWithin_of_le nested, place_of_le nested, place_of_le alone, closing_closing narrower]
  refine ⟨rfl, ?_⟩
  rw [blocks_place_of_le within, blocks_place_of_le nested, blocks_place_of_le alone,
    closing_closing narrower, List.replicate_append_replicate]
  have outer := levels.closing_depth_le width
  have inner := (levels.closing width).closing_depth_le next
  rw [closing_closing narrower] at inner
  congr 1
  omega

/-- A line that closes levels leaves a trace before one that opens a level on
what is left: no single line closes and opens. -/
theorem not_traceless_of_lt (narrower : width < levels.top)
    (reopens : (levels.closing width).top < next) : ¬ Traceless capacity levels width next := by
  rintro ⟨-, same⟩
  have within := le_of_lt narrower
  rw [placeWithin_of_le within, place_of_le within, blocks_place_of_le within,
    placeWithin_marks_of_wider reopens] at same
  obtain ⟨others, count⟩ := Nat.exists_eq_add_of_lt (levels.closing_depth_lt narrower)
  have closed : levels.depth - (levels.closing width).depth = others + 1 := by omega
  rw [closed, List.replicate_succ] at same
  rcases lt_or_ge levels.top next with wider | alone
  · rw [placeWithin_marks_of_wider wider] at same
    simp [blocks] at same
  · rw [placeWithin_of_le alone, blocks_place_of_le alone] at same
    have member : Mark.indent ∈ List.replicate (levels.depth - (levels.closing next).depth)
        Mark.dedent := by
      rw [← same]
      simp [blocks]
    simp at member

/-- A line that opens a level leaves no trace only before a line of that level,
and only where the level is recorded. -/
theorem traceless_of_wider_iff (wider : levels.top < width) :
    Traceless capacity levels width next ↔ next = width ∧ levels.depth + 1 < capacity := by
  have opens : blocks (levels.placeWithin capacity width).2 = [.indent] := by
    rw [placeWithin_marks_of_wider wider]
    rfl
  constructor
  · rintro ⟨kept, same⟩
    rw [opens] at same
    -- The other line alone opens a level as well.
    have deeper : levels.top < next := by
      refine lt_of_not_ge fun alone => ?_
      rw [placeWithin_of_le alone, blocks_place_of_le alone] at same
      have member : Mark.indent ∈ List.replicate (levels.depth - (levels.closing next).depth)
          Mark.dedent := by
        rw [← same]
        simp
      simp at member
    rw [placeWithin_marks_of_wider deeper] at same
    have nothing : blocks ((levels.placeWithin capacity width).1.placeWithin capacity next).2 = [] := by
      simpa [blocks] using same
    have room : levels.depth + 1 < capacity := by
      refine Nat.lt_of_not_ge fun full => ?_
      rw [placeWithin_of_full wider full, placeWithin_marks_of_wider deeper] at nothing
      simp [blocks] at nothing
    refine ⟨?_, room⟩
    rw [placeWithin_of_room room, place_of_wider wider] at kept nothing
    rw [placeWithin_of_room room, place_of_wider deeper] at kept
    have within : next ≤ width := by
      refine le_of_not_gt fun beyond => ?_
      rw [placeWithin_marks_of_wider beyond] at nothing
      simp [blocks] at nothing
    refine within.eq_or_lt.resolve_right fun narrower => ?_
    rw [placeWithin_of_le within, place_of_le within, closing_opening wider narrower,
      closing_of_top_le (le_of_lt deeper)] at kept
    have entries := congrArg (fun levels => levels.widths.length) kept
    simp [opening] at entries
  · rintro ⟨rfl, room⟩
    have continues : (levels.opening next wider).place next = (levels.opening next wider, [.newline]) :=
      (levels.opening next wider).place_top
    have within : next ≤ (levels.opening next wider).top := le_refl next
    unfold Traceless
    rw [opens, placeWithin_of_room room, place_of_wider wider, placeWithin_of_le within, continues]
    exact ⟨rfl, rfl⟩

/-- A line leaves no trace before another exactly when it continues the innermost
level, or opens the level that the other continues, or closes no level that the
other would not close. -/
theorem traceless_iff : Traceless capacity levels width next ↔
    width = levels.top ∨ (levels.top < width ∧ next = width ∧ levels.depth + 1 < capacity) ∨
      (width < levels.top ∧ next ≤ (levels.closing width).top) := by
  rcases lt_trichotomy levels.top width with wider | same | narrower
  · rw [traceless_of_wider_iff wider]
    simp [wider, wider.ne', wider.not_gt]
  · subst same
    simp only [true_or, iff_true]
    rcases lt_or_ge levels.top next with deeper | within
    · unfold Traceless
      rw [placeWithin_of_le (le_refl levels.top), levels.place_top]
      exact ⟨rfl, rfl⟩
    · refine traceless_of_le (le_refl _) ?_
      rwa [closing_of_top_le (le_refl _)]
  · have different := narrower.ne
    simp only [different, false_or, narrower.not_gt, false_and, narrower, true_and]
    constructor
    · intro traceless
      exact le_of_not_gt fun reopens => not_traceless_of_lt narrower reopens traceless
    · exact traceless_of_le (le_of_lt narrower)

end Levels

/-! ## Widths in the same order -/

section

variable {Width : Type u} {Other : Type v} [LinearOrder Width] [LinearOrder Other]
  {pairs : List (Width × Other)}

/-- Any two of the pairs compare on the left as they do on the right. -/
def SameOrder (pairs : List (Width × Other)) : Prop :=
  ∀ first ∈ pairs, ∀ second ∈ pairs, first.1 < second.1 ↔ first.2 < second.2

theorem SameOrder.eq_iff (same : SameOrder pairs) {first second : Width × Other}
    (here : first ∈ pairs) (there : second ∈ pairs) : first.1 = second.1 ↔ first.2 = second.2 := by
  have below := same first here second there
  have above := same second there first here
  rw [le_antisymm_iff, le_antisymm_iff, ← not_lt, ← not_lt, ← not_lt, ← not_lt, below, above]

variable [OrderBot Width] [OrderBot Other]

namespace Levels

/-- The same pairs opened levels on both sides. -/
def Alike (pairs : List (Width × Other)) (levels : Levels Width) (others : Levels Other) : Prop :=
  ∃ stack, stack ⊆ pairs ∧ levels.widths = stack.map Prod.fst ∧ others.widths = stack.map Prod.snd

variable {levels : Levels Width} {others : Levels Other} {pair : Width × Other}

theorem alike_ground (bottoms : (⊥, ⊥) ∈ pairs) :
    Alike pairs (ground : Levels Width) (ground : Levels Other) :=
  ⟨[(⊥, ⊥)], by simpa using bottoms, rfl, rfl⟩

theorem Alike.depth (alike : Alike pairs levels others) : levels.depth = others.depth := by
  obtain ⟨stack, -, left, right⟩ := alike
  rw [Levels.depth, Levels.depth, left, right, List.length_map, List.length_map]

/-- The innermost levels are the two sides of a pair. -/
theorem Alike.top (alike : Alike pairs levels others) :
    ∃ inner ∈ pairs, inner.1 = levels.top ∧ inner.2 = others.top := by
  obtain ⟨stack, inside, left, right⟩ := alike
  cases stack with
  | nil => exact absurd left levels.widths_ne_nil
  | cons inner below =>
    refine ⟨inner, inside List.mem_cons_self, ?_, ?_⟩
    · rw [Levels.top, left]
      rfl
    · rw [Levels.top, right]
      rfl

theorem Alike.opening (alike : Alike pairs levels others) (here : pair ∈ pairs)
    (wider : levels.top < pair.1) (wider' : others.top < pair.2) :
    Alike pairs (levels.opening pair.1 wider) (others.opening pair.2 wider') := by
  obtain ⟨stack, inside, left, right⟩ := alike
  refine ⟨pair :: stack, List.cons_subset.mpr ⟨here, inside⟩, ?_, ?_⟩
  · exact congrArg (pair.1 :: ·) left
  · exact congrArg (pair.2 :: ·) right

/-- What is wider on the one side is wider on the other, so as much is closed. -/
theorem Alike.closing (same : SameOrder pairs) (alike : Alike pairs levels others)
    (here : pair ∈ pairs) : Alike pairs (levels.closing pair.1) (others.closing pair.2) := by
  obtain ⟨stack, inside, left, right⟩ := alike
  refine ⟨stack.dropWhile fun level => pair.1 < level.1, ?_, ?_, ?_⟩
  · exact fun level member => inside ((List.dropWhile_sublist _).subset member)
  · change levels.widths.dropWhile (fun level => pair.1 < level) = _
    rw [left, List.dropWhile_map]
    rfl
  · change others.widths.dropWhile (fun level => pair.2 < level) = _
    rw [right, List.dropWhile_map]
    congr 1
    clear left right
    induction stack with
    | nil => rfl
    | cons level below ih =>
      obtain ⟨member, rest⟩ := List.cons_subset.mp inside
      have alike := same pair here level member
      by_cases wider : pair.1 < level.1
      · rw [List.dropWhile_cons_of_pos (by simpa using alike.mp wider),
          List.dropWhile_cons_of_pos (by simpa using wider), ih rest]
      · rw [List.dropWhile_cons_of_neg (by simpa using fun other => wider (alike.mpr other)),
          List.dropWhile_cons_of_neg (by simpa using wider)]

/-- Lines of the two sides of a pair are marked alike and leave alike levels. -/
theorem Alike.place (same : SameOrder pairs) (alike : Alike pairs levels others)
    (here : pair ∈ pairs) :
    (levels.place pair.1).2 = (others.place pair.2).2 ∧
      Alike pairs (levels.place pair.1).1 (others.place pair.2).1 := by
  obtain ⟨inner, member, left, right⟩ := alike.top
  have above := same inner member pair here
  have equal := same.eq_iff here member
  rw [left, right] at above equal
  unfold Levels.place
  by_cases wider : levels.top < pair.1
  · rw [dif_pos wider, dif_pos (above.mp wider)]
    exact ⟨rfl, alike.opening here wider (above.mp wider)⟩
  rw [dif_neg wider, dif_neg fun other => wider (above.mpr other)]
  by_cases level : pair.1 = levels.top
  · rw [if_pos level, if_pos (equal.mp level)]
    exact ⟨rfl, alike⟩
  rw [if_neg level, if_neg fun other => level (equal.mpr other)]
  have closed := alike.closing same here
  obtain ⟨outer, outside, left, right⟩ := closed.top
  have continues := same.eq_iff outside here
  rw [left, right] at continues
  refine ⟨?_, closed⟩
  simp only [closingMarks, alike.depth, closed.depth, continues]

theorem Alike.placeWithin (same : SameOrder pairs) (alike : Alike pairs levels others)
    (here : pair ∈ pairs) (capacity : Nat) :
    (levels.placeWithin capacity pair.1).2 = (others.placeWithin capacity pair.2).2 ∧
      Alike pairs (levels.placeWithin capacity pair.1).1 (others.placeWithin capacity pair.2).1 := by
  obtain ⟨inner, member, left, right⟩ := alike.top
  have above := same inner member pair here
  rw [left, right] at above
  unfold Levels.placeWithin
  by_cases overflows : levels.top < pair.1 ∧ capacity ≤ levels.depth + 1
  · rw [if_pos overflows, if_pos (by rwa [← above, ← alike.depth])]
    exact ⟨rfl, alike⟩
  · rw [if_neg overflows, if_neg (by rwa [← above, ← alike.depth])]
    exact alike.place same here

end Levels

end

end Ill.Base.Layout
