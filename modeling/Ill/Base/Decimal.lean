import Ill.Base.Utf8
import Mathlib.Data.List.Induction
import Mathlib.Data.Nat.Digits.Defs

/-!
# Decimal integers

What a text spells in decimal digits, with or without a sign, and parsing it as
an integer of 64 bits.
-/

namespace Ill.Base.Decimal

open Utf8 (Text)

/-- What a list of decimal digits counts. -/
def decimalValue (digits : Text) : Nat :=
  Nat.ofDigits 10 (digits.reverse.map fun digit => digit.toNat - '0'.toNat)

/-- Decimal digits, at least one, with an optional sign. -/
inductive Numeral : Text → Int → Prop where
  | unsigned {digits : Text} (some_ : digits ≠ []) (decimals : ∀ digit ∈ digits, digit.isDigit = true) :
    Numeral digits (decimalValue digits)
  | positive {digits : Text} (some_ : digits ≠ []) (decimals : ∀ digit ∈ digits, digit.isDigit = true) :
    Numeral ('+' :: digits) (decimalValue digits)
  | negative {digits : Text} (some_ : digits ≠ []) (decimals : ∀ digit ∈ digits, digit.isDigit = true) :
    Numeral ('-' :: digits) (-decimalValue digits)

/-- The value of a non-empty run of decimal digits. -/
def parseDigits (digits : Text) : Option Nat :=
  if digits.isEmpty then none
  else digits.foldlM (fun value digit =>
    if '0' ≤ digit ∧ digit ≤ '9' then some (value * 10 + (digit.toNat - '0'.toNat)) else none) 0

/-- The integer of any size that a text spells. -/
def parseSigned : Text → Option Int
  | '-' :: digits => (parseDigits digits).map fun magnitude : Nat => -(magnitude : Int)
  | '+' :: digits => (parseDigits digits).map fun magnitude : Nat => (magnitude : Int)
  | digits => (parseDigits digits).map fun magnitude : Nat => (magnitude : Int)

/-- `parse::<i64>()` -/
def parseI64 (text : Text) : Option Int :=
  (parseSigned text).filter fun value => -2 ^ 63 ≤ value ∧ value < 2 ^ 63

theorem decimalValue_append (digits : Text) (digit : Char) :
    decimalValue (digits ++ [digit]) =
      decimalValue digits * 10 + (digit.toNat - '0'.toNat) := by
  unfold decimalValue
  rw [List.reverse_append, List.reverse_singleton, List.singleton_append, List.map_cons,
    Nat.ofDigits_cons]
  omega

/-- The digits are folded exactly if all are decimal. -/
theorem foldlM_digits {digits : Text} {value : Nat} :
    digits.foldlM (fun value digit =>
        if '0' ≤ digit ∧ digit ≤ '9' then some (value * 10 + (digit.toNat - '0'.toNat)) else none) 0 =
      some value ↔ (∀ digit ∈ digits, digit.isDigit = true) ∧ value = decimalValue digits := by
  induction digits using List.reverseRecOn generalizing value with
  | nil =>
    constructor
    · rintro ⟨⟩
      exact ⟨List.forall_mem_nil _, rfl⟩
    · rintro ⟨-, rfl⟩
      rfl
  | append_singleton digits digit ih =>
    have isDecimal : digit.isDigit = true ↔ '0' ≤ digit ∧ digit ≤ '9' := by
      rw [Char.isDigit, Bool.and_eq_true, decide_eq_true_iff, decide_eq_true_iff]
      rfl
    rw [List.foldlM_append, decimalValue_append]
    simp only [List.foldlM_cons, List.foldlM_nil, List.mem_append, List.mem_singleton, or_imp,
      forall_and, forall_eq, isDecimal]
    constructor
    · intro folded
      obtain ⟨front, before, last⟩ := Option.bind_eq_some_iff.mp folded
      obtain ⟨decimals, rfl⟩ := ih.mp before
      by_cases decimal : '0' ≤ digit ∧ digit ≤ '9'
      · rw [if_pos decimal] at last
        exact ⟨⟨decimals, decimal⟩, (Option.some.inj last).symm⟩
      · rw [if_neg decimal] at last
        cases last
    · rintro ⟨⟨decimals, decimal⟩, rfl⟩
      refine Option.bind_eq_some_iff.mpr ⟨decimalValue digits, ih.mpr ⟨decimals, rfl⟩, ?_⟩
      rw [if_pos decimal]
      rfl

theorem parseDigits_eq_some {digits : Text} {value : Nat} :
    parseDigits digits = some value ↔
      digits ≠ [] ∧ (∀ digit ∈ digits, digit.isDigit = true) ∧ value = decimalValue digits := by
  unfold parseDigits
  by_cases empty : digits = []
  · simp [empty]
  · rw [if_neg (by simpa using empty), foldlM_digits]
    exact (and_iff_right empty).symm

/-- Digits behind a sign. -/
theorem map_parseDigits_eq_some {sign : Nat → Int} {digits : Text} {value : Int} :
    (parseDigits digits).map sign = some value ↔
      digits ≠ [] ∧ (∀ digit ∈ digits, digit.isDigit = true) ∧ value = sign (decimalValue digits) := by
  rw [Option.map_eq_some_iff]
  constructor
  · rintro ⟨magnitude, parsed, rfl⟩
    obtain ⟨some_, decimals, rfl⟩ := parseDigits_eq_some.mp parsed
    exact ⟨some_, decimals, rfl⟩
  · rintro ⟨some_, decimals, rfl⟩
    exact ⟨_, parseDigits_eq_some.mpr ⟨some_, decimals, rfl⟩, rfl⟩

theorem parseSigned_eq_some {text : Text} {value : Int} :
    parseSigned text = some value ↔ Numeral text value := by
  unfold parseSigned
  split
  · next digits =>
    rw [map_parseDigits_eq_some]
    constructor
    · rintro ⟨some_, decimals, rfl⟩
      exact .negative some_ decimals
    · intro numeral
      cases numeral with
      | unsigned _ decimals => simpa using decimals '-' List.mem_cons_self
      | negative some_ decimals => exact ⟨some_, decimals, rfl⟩
  · next digits =>
    rw [map_parseDigits_eq_some]
    constructor
    · rintro ⟨some_, decimals, rfl⟩
      exact .positive some_ decimals
    · intro numeral
      cases numeral with
      | unsigned _ decimals => simpa using decimals '+' List.mem_cons_self
      | positive some_ decimals => exact ⟨some_, decimals, rfl⟩
  · next notMinus notPlus =>
    rw [map_parseDigits_eq_some]
    constructor
    · rintro ⟨some_, decimals, rfl⟩
      exact .unsigned some_ decimals
    · intro numeral
      cases numeral with
      | unsigned some_ decimals => exact ⟨some_, decimals, rfl⟩
      | positive => exact absurd rfl (notPlus _)
      | negative => exact absurd rfl (notMinus _)

/-- A text is parsed exactly if it is a numeral of 64 bits. -/
theorem parseI64_eq_some {text : Text} {value : Int} :
    parseI64 text = some value ↔ Numeral text value ∧ -2 ^ 63 ≤ value ∧ value < 2 ^ 63 := by
  rw [parseI64, Option.filter_eq_some_iff, parseSigned_eq_some, decide_eq_true_iff]

end Ill.Base.Decimal
