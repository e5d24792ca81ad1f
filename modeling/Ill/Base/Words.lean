import Mathlib.Algebra.GroupWithZero.Nat

/-!
# Words as bytes

A word of 16 bits as two bytes of a buffer of signed characters, the low one first,
and a list of words as the bytes of each in turn.
-/

namespace Ill.Base.Words

def low (word : UInt16) : Int8 := (word &&& 0xFF).toUInt8.toInt8

def high (word : UInt16) : Int8 := ((word >>> 8) &&& 0xFF).toUInt8.toInt8

def join (first second : Int8) : UInt16 :=
  first.toUInt8.toUInt16 ||| (second.toUInt8.toUInt16 <<< 8)

theorem toNat_low (word : UInt16) : (low word).toUInt8.toNat = word.toNat % 2 ^ 8 := by
  have mask : UInt16.toNat 0xFF = 2 ^ 8 - 1 := rfl
  rw [low, UInt8.toUInt8_toInt8, UInt16.toNat_toUInt8, UInt16.toNat_and, mask,
    Nat.and_two_pow_sub_one_eq_mod, Nat.mod_mod]

theorem toNat_high (word : UInt16) : (high word).toUInt8.toNat = word.toNat / 2 ^ 8 := by
  have mask : UInt16.toNat 0xFF = 2 ^ 8 - 1 := rfl
  have byte : UInt16.toNat 8 % 16 = 8 := rfl
  have small : word.toNat / 2 ^ 8 < 2 ^ 8 := Nat.div_lt_of_lt_mul word.toNat_lt
  rw [high, UInt8.toUInt8_toInt8, UInt16.toNat_toUInt8, UInt16.toNat_and, UInt16.toNat_shiftRight,
    mask, byte, Nat.and_two_pow_sub_one_eq_mod, Nat.mod_mod, Nat.shiftRight_eq_div_pow,
    Nat.mod_eq_of_lt small]

/-- The sign of a character gets lost on the way, and no bit does. -/
theorem join_low_high (word : UInt16) : join (low word) (high word) = word := by
  apply UInt16.toNat_inj.mp
  have byte : UInt16.toNat 8 % 16 = 8 := rfl
  have first : word.toNat % 2 ^ 8 < 2 ^ 8 := Nat.mod_lt _ (Nat.two_pow_pos 8)
  have whole : (word.toNat / 2 ^ 8) <<< 8 < 2 ^ 16 := by
    rw [Nat.shiftLeft_eq]
    exact Nat.lt_of_le_of_lt (Nat.div_mul_le_self _ _) word.toNat_lt
  rw [join, UInt16.toNat_or, UInt16.toNat_shiftLeft, UInt8.toNat_toUInt16, UInt8.toNat_toUInt16,
    toNat_low, toNat_high, byte, Nat.mod_eq_of_lt whole, Nat.or_comm,
    ← Nat.shiftLeft_add_eq_or_of_lt first, Nat.shiftLeft_eq, Nat.div_add_mod']

/-- The bytes of words, two for each. -/
def bytes (words : List UInt16) : List Int8 := words.flatMap fun word => [low word, high word]

theorem length_bytes (words : List UInt16) : (bytes words).length = 2 * words.length := by
  induction words with
  | nil => rfl
  | cons word rest ih =>
    rw [bytes, List.flatMap_cons, ← bytes, List.length_append, ih]
    simp
    omega

/-- Where the bytes of a word are. -/
theorem getElem?_bytes (words : List UInt16) (index : Nat) :
    (bytes words)[2 * index]? = words[index]?.map low ∧
      (bytes words)[2 * index + 1]? = words[index]?.map high := by
  induction words generalizing index with
  | nil => exact ⟨rfl, rfl⟩
  | cons word rest ih =>
    cases index with
    | zero => exact ⟨rfl, rfl⟩
    | succ index => exact ih index

end Ill.Base.Words
