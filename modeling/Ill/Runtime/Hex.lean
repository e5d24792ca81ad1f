import Ill.Base.Except
import Ill.Runtime.Eval
import Mathlib.Algebra.Group.Nat.Even

/-!
# The format of hex literals

A hex literal is read digit by digit, and a digit waits for its partner. What
is read is the content of the literal, its characters without white space. The
literals that can be read are those whose content spells bytes with two digits
each.
-/

namespace Ill

open Base

/-! ## The format -/

/-- `0-9`, `a-f` and `A-F`. -/
def isHexDigit (char : Char) : Prop :=
  ('0' ≤ char ∧ char ≤ '9') ∨ ('a' ≤ char ∧ char ≤ 'f') ∨ ('A' ≤ char ∧ char ≤ 'F')

/-- The characters of a text without ASCII white space. -/
def hexContent (text : List Char) : List Char :=
  text.filter fun char => !isAsciiWhitespace char

/-- An even number of hexadecimal digits. -/
structure HexFormat (content : List Char) : Prop where
  even : Even content.length
  digits : ∀ char ∈ content, isHexDigit char

/-- The digit of a value below sixteen, in either case. -/
def digitChar (upper : Bool) (value : Nat) : Char :=
  if value < 10 then Char.ofNat ('0'.toNat + value)
  else if upper then Char.ofNat ('A'.toNat + (value - 10))
  else Char.ofNat ('a'.toNat + (value - 10))

/-- Two digits for each byte, each of either case. -/
inductive Spells : List UInt8 → List Char → Prop where
  | nil : Spells [] []
  | cons {bytes : List UInt8} {chars : List Char} (byte : UInt8) (highUpper lowUpper : Bool)
    (rest : Spells bytes chars) :
    Spells (byte :: bytes)
      (digitChar highUpper (byte.toNat / 16) :: digitChar lowUpper (byte.toNat % 16) :: chars)

/-! ## Digits -/

theorem hexDigit_isSome (char : Char) : (hexDigit char).isSome = true ↔ isHexDigit char := by
  unfold hexDigit isHexDigit
  split
  · next decimal => simp [decimal]
  · next decimal =>
    split
    · next lower => simp [lower]
    · next lower =>
      split
      · next upper => simp [upper]
      · next upper => simp [decimal, lower, upper]

/-- A digit is read as its value. -/
theorem hexDigit_digitChar (upper : Bool) {value : Nat} (small : value < 16) :
    hexDigit (digitChar upper value) = some (UInt8.ofNat value) := by
  have all : ∀ upper, ∀ value < 16, hexDigit (digitChar upper value) = some (UInt8.ofNat value) := by
    decide
  exact all upper value small

/-- The two halves of a byte. -/
theorem join_halves (byte : UInt8) :
    UInt8.ofNat (byte.toNat / 16) <<< 4 ||| UInt8.ofNat (byte.toNat % 16) = byte := by
  have bound : byte.toNat < 256 := byte.toNat_lt
  have high : (UInt8.ofNat (byte.toNat / 16)).toNat = byte.toNat / 16 := by
    rw [UInt8.toNat_ofNat']
    omega
  have low : (UInt8.ofNat (byte.toNat % 16)).toNat = byte.toNat % 16 := by
    rw [UInt8.toNat_ofNat']
    omega
  have shifted : (byte.toNat / 16) <<< 4 = 16 * (byte.toNat / 16) := by
    rw [Nat.shiftLeft_eq]
    omega
  apply UInt8.toNat_inj.mp
  rw [UInt8.toNat_or, UInt8.toNat_shiftLeft, high, low]
  have four : (4 : UInt8).toNat % 8 = 4 := rfl
  rw [four, Nat.mod_eq_of_lt (by omega), ← Nat.shiftLeft_add_eq_or_of_lt (by omega), shifted]
  omega

/-! ## What is read -/

/-- The bytes read from a content, with the digit that is waiting. -/
inductive Reads : Option UInt8 → List UInt8 → List Char → Prop where
  | done : Reads none [] []
  | high {bytes : List UInt8} {char : Char} {rest : List Char} {digit : UInt8}
    (isDigit : hexDigit char = some digit) (later : Reads (some digit) bytes rest) :
    Reads none bytes (char :: rest)
  | low {bytes : List UInt8} {char : Char} {rest : List Char} {first digit : UInt8}
    (isDigit : hexDigit char = some digit) (later : Reads none bytes rest) :
    Reads (some first) ((first <<< 4 ||| digit) :: bytes) (char :: rest)

/-- The loop reads the content. -/
theorem decodeHexFrom_eq_ok {high : Option UInt8} {text : List Char} {bytes : List UInt8} :
    decodeHexFrom high text = .ok bytes ↔ Reads high bytes (hexContent text) := by
  fun_induction decodeHexFrom high text generalizing bytes with
  | case1 first =>
    constructor
    · intro read
      exact nomatch read
    · intro read
      exact nomatch read
  | case2 =>
    constructor
    · rintro ⟨⟩
      exact .done
    · rintro ⟨⟩
      rfl
  | case3 high char rest white ih =>
    rw [ih]
    simp [hexContent, white]
  | case4 high char rest content invalid =>
    have kept : hexContent (char :: rest) = char :: hexContent rest := by
      simp [hexContent, content]
    rw [kept]
    constructor
    · intro read
      exact nomatch read
    · intro read
      cases read with
      | high isDigit _ => simp [invalid] at isDigit
      | low isDigit _ => simp [invalid] at isDigit
  | case5 char rest content digit isDigit ih =>
    have kept : hexContent (char :: rest) = char :: hexContent rest := by
      simp [hexContent, content]
    rw [kept, ih]
    constructor
    · exact .high isDigit
    · intro read
      cases read with
      | high other later =>
        obtain rfl := Option.some.inj (isDigit.symm.trans other)
        exact later
  | case6 char rest content digit isDigit first ih =>
    have kept : hexContent (char :: rest) = char :: hexContent rest := by
      simp [hexContent, content]
    rw [kept]
    constructor
    · intro read
      obtain ⟨later, decoded, returned⟩ := bind_eq_ok.mp read
      cases returned
      exact .low isDigit (ih.mp decoded)
    · intro read
      cases read with
      | low other later =>
        obtain rfl := Option.some.inj (isDigit.symm.trans other)
        exact bind_eq_ok.mpr ⟨_, ih.mpr later, rfl⟩

/-- Every two digits read make a byte, the waiting one included. -/
theorem Reads.length_eq {high : Option UInt8} {bytes : List UInt8} {content : List Char}
    (read : Reads high bytes content) :
    content.length + high.toList.length = 2 * bytes.length := by
  induction read with
  | done => rfl
  | high _ _ ih =>
    simp at ih ⊢
    omega
  | low _ _ ih =>
    simp at ih ⊢
    omega

theorem Reads.digits {high : Option UInt8} {bytes : List UInt8} {content : List Char}
    (read : Reads high bytes content) : ∀ char ∈ content, isHexDigit char := by
  induction read with
  | done => simp
  | high isDigit _ ih =>
    rw [List.forall_mem_cons]
    exact ⟨(hexDigit_isSome _).mp (Option.isSome_of_eq_some isDigit), ih⟩
  | low isDigit _ ih =>
    rw [List.forall_mem_cons]
    exact ⟨(hexDigit_isSome _).mp (Option.isSome_of_eq_some isDigit), ih⟩

/-- Digits are read if each has a partner. -/
theorem reads_of_digits {content : List Char} (digits : ∀ char ∈ content, isHexDigit char)
    (high : Option UInt8) (even : Even (content.length + high.toList.length)) :
    ∃ bytes, Reads high bytes content := by
  induction content generalizing high with
  | nil =>
    cases high with
    | none => exact ⟨[], .done⟩
    | some first => simp at even
  | cons char rest ih =>
    obtain ⟨here, later⟩ := List.forall_mem_cons.mp digits
    obtain ⟨digit, isDigit⟩ := Option.isSome_iff_exists.mp ((hexDigit_isSome char).mpr here)
    cases high with
    | none =>
      have partner : Even (rest.length + (some digit).toList.length) := by simpa using even
      obtain ⟨bytes, read⟩ := ih later (some digit) partner
      exact ⟨bytes, .high isDigit read⟩
    | some first =>
      have paired : Even (rest.length + (none : Option UInt8).toList.length) := by
        simpa [Nat.even_add_one] using even
      obtain ⟨bytes, read⟩ := ih later none paired
      exact ⟨_, .low isDigit read⟩

/-- What is spelled is what is read. -/
theorem Spells.reads {bytes : List UInt8} {content : List Char} (spelled : Spells bytes content) :
    Reads none bytes content := by
  induction spelled with
  | nil => exact .done
  | cons byte highUpper lowUpper _ ih =>
    have bound : byte.toNat < 256 := byte.toNat_lt
    have high := hexDigit_digitChar highUpper (show byte.toNat / 16 < 16 by omega)
    have low := hexDigit_digitChar lowUpper (show byte.toNat % 16 < 16 by omega)
    have read := Reads.high high (Reads.low low ih)
    rwa [join_halves] at read

/-! ## Literals -/

/-- A text is decoded exactly if its content has the format, to a byte for every
two digits, and a text whose content spells bytes is decoded to them. -/
theorem decodeHex_exact (text : String) :
    ((∃ bytes, decodeHex text = .ok bytes) ↔ HexFormat (hexContent text.toList)) ∧
      (∀ bytes, decodeHex text = .ok bytes →
        2 * bytes.length = (hexContent text.toList).length) ∧
      ∀ bytes, Spells bytes (hexContent text.toList) → decodeHex text = .ok bytes := by
  unfold decodeHex
  simp only [decodeHexFrom_eq_ok]
  refine ⟨⟨?_, ?_⟩, ?_, ?_⟩
  · rintro ⟨bytes, read⟩
    have paired := read.length_eq
    exact ⟨⟨bytes.length, by simp at paired; omega⟩, read.digits⟩
  · intro format
    apply reads_of_digits format.digits
    simpa using format.even
  · intro bytes read
    have paired := read.length_eq
    simpa using paired.symm
  · intro bytes spelled
    exact spelled.reads

end Ill
