import Mathlib.Computability.RegularExpressions

/-!
# Letters in the words of a regular expression

Which letters a word of an expression can have, and which of them it has once
or at most once, is computed from the expression. The results are about
sequences of items that a word labels, as the children of a tree are labelled
by a production.
-/

namespace Ill.Base.Regular

universe u v

variable {Letter : Type u} {Item : Type v}

/-- The letters that the words of an expression are made of. -/
def letters : RegularExpression Letter → List Letter
  | .zero => []
  | .epsilon => []
  | .char letter => [letter]
  | .plus left right => letters left ++ letters right
  | .comp left right => letters left ++ letters right
  | .star inner => letters inner

/-- The letters that a word of an expression can begin with. -/
def firsts : RegularExpression Letter → List Letter
  | .zero => []
  | .epsilon => []
  | .char letter => [letter]
  | .plus left right => firsts left ++ firsts right
  | .comp left right => firsts left ++ if left.matchEpsilon then firsts right else []
  | .star inner => firsts inner

/-- No word has a letter that is picked. -/
def never (picks : Letter → Bool) (expression : RegularExpression Letter) : Bool :=
  (letters expression).all fun letter => !picks letter

/-- No word has two letters that are picked. -/
def atMostOnce (picks : Letter → Bool) : RegularExpression Letter → Bool
  | .zero | .epsilon | .char _ => true
  | .plus left right => atMostOnce picks left && atMostOnce picks right
  | .comp left right =>
    (atMostOnce picks left && never picks right) || (never picks left && atMostOnce picks right)
  | .star inner => never picks inner

/-- Every word has a letter that is picked. -/
def atLeastOnce (picks : Letter → Bool) : RegularExpression Letter → Bool
  | .zero => true
  | .epsilon => false
  | .char letter => picks letter
  | .plus left right => atLeastOnce picks left && atLeastOnce picks right
  | .comp left right => atLeastOnce picks left || atLeastOnce picks right
  | .star _ => false

/-- Every word has exactly one letter that is picked. -/
def once (picks : Letter → Bool) : RegularExpression Letter → Bool
  | .zero => true
  | .epsilon => false
  | .char letter => picks letter
  | .plus left right => once picks left && once picks right
  | .comp left right => (once picks left && never picks right) || (never picks left && once picks right)
  | .star _ => false

theorem mem_letters {expression : RegularExpression Letter} {word : List Letter}
    (matched : word ∈ expression.matches') {letter : Letter} (member : letter ∈ word) :
    letter ∈ letters expression := by
  induction expression generalizing word with
  | zero => exact absurd matched (Language.notMem_zero word)
  | epsilon =>
    obtain rfl := (Language.mem_one word).mp matched
    simp at member
  | char own =>
    obtain rfl := Set.mem_singleton_iff.mp matched
    exact member
  | plus left right ihLeft ihRight =>
    rcases (Language.mem_add _ _ word).mp matched with first | second
    · exact List.mem_append_left _ (ihLeft first member)
    · exact List.mem_append_right _ (ihRight second member)
  | comp left right ihLeft ihRight =>
    obtain ⟨first, begins, second, ends, rfl⟩ := Language.mem_mul.mp matched
    rcases List.mem_append.mp member with here | there
    · exact List.mem_append_left _ (ihLeft begins here)
    · exact List.mem_append_right _ (ihRight ends there)
  | star inner ih =>
    obtain ⟨words, rfl, each⟩ := Language.mem_kstar.mp matched
    obtain ⟨part, within, inside⟩ := List.mem_flatten.mp member
    exact ih (each part within) inside

theorem filter_of_never {picks : Letter → Bool} {expression : RegularExpression Letter}
    (never_ : never picks expression = true) {word : List Letter}
    (matched : word ∈ expression.matches') : word.filter picks = [] := by
  rw [List.filter_eq_nil_iff]
  intro letter member
  have unpicked := List.all_eq_true.mp never_ letter (mem_letters matched member)
  simpa using unpicked

theorem filter_of_atMostOnce {picks : Letter → Bool} {expression : RegularExpression Letter}
    (bounded : atMostOnce picks expression = true) {word : List Letter}
    (matched : word ∈ expression.matches') : (word.filter picks).length ≤ 1 := by
  induction expression generalizing word with
  | zero => exact absurd matched (Language.notMem_zero word)
  | epsilon =>
    obtain rfl := (Language.mem_one word).mp matched
    simp
  | char own =>
    obtain rfl := Set.mem_singleton_iff.mp matched
    exact List.length_filter_le _ _
  | plus left right ihLeft ihRight =>
    rw [atMostOnce, Bool.and_eq_true] at bounded
    rcases (Language.mem_add _ _ word).mp matched with first | second
    · exact ihLeft bounded.1 first
    · exact ihRight bounded.2 second
  | comp left right ihLeft ihRight =>
    rw [atMostOnce, Bool.or_eq_true, Bool.and_eq_true, Bool.and_eq_true] at bounded
    obtain ⟨first, begins, second, ends, rfl⟩ := Language.mem_mul.mp matched
    rw [List.filter_append]
    rcases bounded with ⟨here, none_⟩ | ⟨none_, there⟩
    · rw [filter_of_never none_ ends, List.append_nil]
      exact ihLeft here begins
    · rw [filter_of_never none_ begins, List.nil_append]
      exact ihRight there ends
  | star inner ih =>
    have none_ : word.filter picks = [] := @filter_of_never _ picks inner.star bounded word matched
    rw [none_]
    exact Nat.zero_le 1

theorem filter_of_atLeastOnce {picks : Letter → Bool} {expression : RegularExpression Letter}
    (some_ : atLeastOnce picks expression = true) {word : List Letter}
    (matched : word ∈ expression.matches') : word.filter picks ≠ [] := by
  induction expression generalizing word with
  | zero => exact absurd matched (Language.notMem_zero word)
  | epsilon => simp [atLeastOnce] at some_
  | char own =>
    obtain rfl := Set.mem_singleton_iff.mp matched
    rw [atLeastOnce] at some_
    simp [some_]
  | plus left right ihLeft ihRight =>
    rw [atLeastOnce, Bool.and_eq_true] at some_
    rcases (Language.mem_add _ _ word).mp matched with first | second
    · exact ihLeft some_.1 first
    · exact ihRight some_.2 second
  | comp left right ihLeft ihRight =>
    rw [atLeastOnce, Bool.or_eq_true] at some_
    obtain ⟨first, begins, second, ends, rfl⟩ := Language.mem_mul.mp matched
    rw [List.filter_append]
    rcases some_ with here | there
    · exact List.append_ne_nil_of_left_ne_nil (ihLeft here begins) _
    · exact List.append_ne_nil_of_right_ne_nil _ (ihRight there ends)
  | star inner => simp [atLeastOnce] at some_

theorem filter_of_once {picks : Letter → Bool} {expression : RegularExpression Letter}
    (exact_ : once picks expression = true) {word : List Letter}
    (matched : word ∈ expression.matches') : (word.filter picks).length = 1 := by
  induction expression generalizing word with
  | zero => exact absurd matched (Language.notMem_zero word)
  | epsilon => simp [once] at exact_
  | char own =>
    obtain rfl := Set.mem_singleton_iff.mp matched
    rw [once] at exact_
    rw [List.filter_cons_of_pos exact_]
    rfl
  | plus left right ihLeft ihRight =>
    rw [once, Bool.and_eq_true] at exact_
    rcases (Language.mem_add _ _ word).mp matched with first | second
    · exact ihLeft exact_.1 first
    · exact ihRight exact_.2 second
  | comp left right ihLeft ihRight =>
    rw [once, Bool.or_eq_true, Bool.and_eq_true, Bool.and_eq_true] at exact_
    obtain ⟨first, begins, second, ends, rfl⟩ := Language.mem_mul.mp matched
    rw [List.filter_append]
    rcases exact_ with ⟨here, none_⟩ | ⟨none_, there⟩
    · rw [filter_of_never none_ ends, List.append_nil]
      exact ihLeft here begins
    · rw [filter_of_never none_ begins, List.nil_append]
      exact ihRight there ends
  | star inner => simp [once] at exact_

/-- The labels of the items are a word of the expression. -/
def Labelled (label : Item → Letter) (expression : RegularExpression Letter) (items : List Item) : Prop :=
  items.map label ∈ expression.matches'

namespace Labelled

variable {label : Item → Letter} {expression left right : RegularExpression Letter}
  {items : List Item} {picks other : Letter → Bool}

theorem label_mem (labelled : Labelled label expression items) {item : Item} (member : item ∈ items) :
    label item ∈ letters expression :=
  mem_letters labelled (List.mem_map_of_mem member)

/-- The items of a sequence are those of its two parts, in order. -/
theorem split (labelled : Labelled label (left * right) items) : ∃ first second,
    items = first ++ second ∧ Labelled label left first ∧ Labelled label right second := by
  obtain ⟨before, begins, after, ends, whole⟩ := Language.mem_mul.mp labelled
  obtain ⟨first, second, rfl, rfl, rfl⟩ := List.map_eq_append_iff.mp whole.symm
  exact ⟨first, second, rfl, begins, ends⟩

theorem join {first second : List Item} (begins : Labelled label left first)
    (ends : Labelled label right second) : Labelled label (left * right) (first ++ second) := by
  unfold Labelled at *
  rw [List.map_append]
  exact Language.append_mem_mul begins ends

/-- How a sequence of three is grouped does not matter. -/
theorem assoc {last : RegularExpression Letter}
    (labelled : Labelled label (left * (right * last)) items) :
    Labelled label (left * right * last) items := by
  obtain ⟨first, rest, rfl, begins, ends⟩ := labelled.split
  obtain ⟨second, third, rfl, middle, final⟩ := ends.split
  rw [← List.append_assoc]
  exact (begins.join middle).join final

/-- The items are those of one of two alternatives. -/
theorem choice (labelled : Labelled label (left + right) items) :
    Labelled label left items ∨ Labelled label right items :=
  (Language.mem_add _ _ _).mp labelled

theorem filter_ne_nil (labelled : Labelled label expression items)
    (some_ : atLeastOnce picks expression = true) : items.filter (picks ∘ label) ≠ [] := by
  have found := filter_of_atLeastOnce some_ labelled
  rw [List.filter_map] at found
  exact fun none_ => found (List.map_eq_nil_iff.mpr none_)

theorem filter_eq_nil (labelled : Labelled label expression items)
    (never_ : never picks expression = true) : items.filter (picks ∘ label) = [] := by
  have none_ := filter_of_never never_ labelled
  rw [List.filter_map] at none_
  exact List.map_eq_nil_iff.mp none_

theorem filter_length_le (labelled : Labelled label expression items)
    (bounded : atMostOnce picks expression = true) : (items.filter (picks ∘ label)).length ≤ 1 := by
  have short := filter_of_atMostOnce bounded labelled
  rwa [List.filter_map, List.length_map] at short

theorem filter_eq_singleton (labelled : Labelled label expression items)
    (exact_ : once picks expression = true) : ∃ item, items.filter (picks ∘ label) = [item] := by
  have single := filter_of_once exact_ labelled
  rw [List.filter_map, List.length_map] at single
  exact List.length_eq_one_iff.mp single

/-- Two ways of picking that agree on the letters of the expression pick the same items. -/
theorem filter_congr (labelled : Labelled label expression items)
    (agree : (letters expression).all (fun letter => picks letter == other letter) = true) :
    items.filter (picks ∘ label) = items.filter (other ∘ label) := by
  refine List.filter_congr fun item member => ?_
  simpa using List.all_eq_true.mp agree _ (labelled.label_mem member)

end Labelled

end Ill.Base.Regular
