/-!
# Byte positions in a text

A text is a list of characters, and a position counts the bytes of its UTF-8
encoding. A text is cut only between two characters, so a cut or a slice at a
position inside a character has no result.
-/

namespace Ill.Base.Utf8

abbrev Text := List Char

/-- The number of bytes a text is encoded in. -/
def byteSize : Text → Nat
  | [] => 0
  | char :: text => char.utf8Size + byteSize text

@[simp] theorem byteSize_nil : byteSize [] = 0 := rfl

@[simp] theorem byteSize_cons (char : Char) (text : Text) :
    byteSize (char :: text) = char.utf8Size + byteSize text := rfl

@[simp] theorem byteSize_append (before after : Text) :
    byteSize (before ++ after) = byteSize before + byteSize after := by
  induction before with
  | nil => simp
  | cons char before ih =>
    rw [List.cons_append, byteSize_cons, byteSize_cons, ih]
    omega

/-- Only the empty text has no bytes. -/
theorem byteSize_eq_zero {text : Text} : byteSize text = 0 ↔ text = [] := by
  cases text with
  | nil => simp
  | cons char text =>
    have positive := char.utf8Size_pos
    simp only [byteSize_cons, reduceCtorEq, iff_false]
    omega

/-- The two parts of a text at a position between two characters. -/
def cut? : Text → Nat → Option (Text × Text)
  | text, 0 => some ([], text)
  | [], _ + 1 => none
  | char :: text, position + 1 =>
    if char.utf8Size ≤ position + 1 then
      (cut? text (position + 1 - char.utf8Size)).map fun parts => (char :: parts.1, parts.2)
    else none

/-- A cut splits the text into two parts, the first of which ends at the position. -/
theorem cut?_eq_some_iff {text before after : Text} {position : Nat} :
    cut? text position = some (before, after) ↔
      text = before ++ after ∧ byteSize before = position := by
  fun_induction cut? text position generalizing before with
  | case1 text =>
    constructor
    · intro same
      obtain ⟨rfl, rfl⟩ := Prod.mk.inj (Option.some.inj same)
      exact ⟨rfl, rfl⟩
    · rintro ⟨rfl, empty⟩
      rw [byteSize_eq_zero.mp empty, List.nil_append]
  | case2 position =>
    simp only [reduceCtorEq, false_iff, not_and]
    intro parts
    obtain ⟨rfl, rfl⟩ := List.append_eq_nil_iff.mp parts.symm
    simp
  | case3 char text position fits ih =>
    rw [Option.map_eq_some_iff]
    constructor
    · rintro ⟨⟨front, back⟩, cut, same⟩
      obtain ⟨rfl, rfl⟩ := Prod.mk.inj same
      obtain ⟨rfl, size⟩ := ih.mp cut
      refine ⟨rfl, ?_⟩
      rw [byteSize_cons, size]
      omega
    · rintro ⟨parts, size⟩
      cases before with
      | nil => simp at size
      | cons first front =>
        obtain ⟨rfl, rfl⟩ := List.cons.inj parts
        rw [byteSize_cons] at size
        have left : byteSize front = position + 1 - char.utf8Size := by omega
        exact ⟨(front, after), ih.mpr ⟨rfl, left⟩, rfl⟩
  | case4 char text position narrow =>
    simp only [reduceCtorEq, false_iff, not_and]
    intro parts size
    cases before with
    | nil => simp at size
    | cons first front =>
      obtain ⟨rfl, rfl⟩ := List.cons.inj parts
      rw [byteSize_cons] at size
      omega

/-- A text has at most one cut at a position. -/
theorem append_inj_of_byteSize {before after front back : Text}
    (same : before ++ after = front ++ back) (size : byteSize before = byteSize front) :
    before = front ∧ after = back := by
  have left : cut? (before ++ after) (byteSize before) = some (before, after) :=
    cut?_eq_some_iff.mpr ⟨rfl, rfl⟩
  have right := cut?_eq_some_iff.mpr ⟨same, size.symm⟩
  rw [left] at right
  exact Prod.mk.inj (Option.some.inj right)

/-- The part of a text between two positions. -/
def slice? (text : Text) (start stop : Nat) : Option Text :=
  if start ≤ stop then
    (cut? text start).bind fun outer => (cut? outer.2 (stop - start)).map Prod.fst
  else none

/-- A slice is a part of the text that starts and stops at the positions. -/
theorem slice?_eq_some_iff {text part : Text} {start stop : Nat} :
    slice? text start stop = some part ↔
      start ≤ stop ∧ ∃ before after, text = before ++ (part ++ after) ∧
        byteSize before = start ∧ byteSize part = stop - start := by
  unfold slice?
  split
  · next ordered =>
    simp only [ordered, true_and, Option.bind_eq_some_iff, Option.map_eq_some_iff]
    constructor
    · rintro ⟨⟨before, rest⟩, outer, ⟨part', after⟩, inner, rfl⟩
      obtain ⟨rfl, start⟩ := cut?_eq_some_iff.mp outer
      obtain ⟨same, size⟩ := cut?_eq_some_iff.mp inner
      exact ⟨before, after, congrArg (before ++ ·) same, start, size⟩
    · rintro ⟨before, after, same, start, size⟩
      exact ⟨_, cut?_eq_some_iff.mpr ⟨same, start⟩, _, cut?_eq_some_iff.mpr ⟨rfl, size⟩, rfl⟩
  · next disordered => simp [disordered]

end Ill.Base.Utf8
