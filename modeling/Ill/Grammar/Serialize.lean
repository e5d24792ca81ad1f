import Ill.Base.Words
import Ill.Grammar.Memory
import Mathlib.Logic.Function.Basic

/-!
# The scanner as bytes

Between calls the parser keeps the scanner as the bytes that `serialize` writes, and
makes it again from them in whatever memory it has at hand. A run that goes through
bytes at every call emits the tokens of a run that never does.
-/

namespace Ill.Grammar.Memory

open Ill.Base
open Ill.Base.Words (low high join)

/-- The characters in memory from the start of a buffer on. -/
abbrev Buffer := Nat → Int8

/-- Write one character at the size, which grows. -/
def put (written : Buffer × Nat) (byte : Int8) : Buffer × Nat :=
  (Function.update written.1 written.2 byte, written.2 + 1)

/-- The buffer after writing, and how many characters were written. -/
def serialize (memory : Memory) (buffer : Buffer) : Buffer × Nat :=
  let fields := put (put (put (buffer, 0) memory.stackSize.toInt8) memory.pendingDedents.toInt8)
    memory.pendingNewline.toInt8
  (List.range memory.stackSize.toNat).foldl
    (fun written index => put (put written (low (memory.entry index))) (high (memory.entry index))) fields

/-- The loop that restores the entries, `left` of them from `index` on, as long as
there are two characters for each. -/
def restoreEntries (buffer : Buffer) (length : Nat) :
    Nat → Nat → Nat → Vector UInt16 maxIndentLevels → Vector UInt16 maxIndentLevels
  | 0, _, _, stack => stack
  | left + 1, index, pos, stack =>
    if pos + 1 < length then
      restoreEntries buffer length left (index + 1) (pos + 2)
        (stack.setIfInBounds index (join (buffer pos) (buffer (pos + 1))))
    else stack

/-- No characters make the scanner a fresh one. The first two fields are read of any
others, the third and the entries as far as the length goes. -/
def deserialize (memory : Memory) (buffer : Buffer) (length : Nat) : Memory :=
  if length = 0 then
    { indentStack := memory.indentStack.setIfInBounds 0 0
      stackSize := 1
      pendingDedents := 0
      pendingNewline := false }
  else
    let stackSize := (buffer 0).toUInt8
    let stackSize := if stackSize.toNat > maxIndentLevels then UInt8.ofNat maxIndentLevels else stackSize
    let pos := if 2 < length then 3 else 2
    { indentStack := restoreEntries buffer length stackSize.toNat 0 pos memory.indentStack
      stackSize
      pendingDedents := (buffer 1).toUInt8
      pendingNewline := if 2 < length then buffer 2 ≠ 0 else memory.pendingNewline }

/-- Two memories are one to the scanner: the entries that are not live do not count. -/
structure Agrees (memory other : Memory) : Prop where
  stackSize : memory.stackSize = other.stackSize
  pendingDedents : memory.pendingDedents = other.pendingDedents
  pendingNewline : memory.pendingNewline = other.pendingNewline
  entries : ∀ index < other.stackSize.toNat, memory.entry index = other.entry index

/-! ## What is written -/

/-- The characters that a memory is written as. -/
def saved (memory : Memory) : List Int8 :=
  [memory.stackSize.toInt8, memory.pendingDedents.toInt8, memory.pendingNewline.toInt8] ++
    Words.bytes ((List.range memory.stackSize.toNat).map memory.entry)

theorem length_saved (memory : Memory) : (saved memory).length = 3 + 2 * memory.stackSize.toNat := by
  simp [saved, Words.length_bytes]
  omega

theorem serialize_eq_foldl (memory : Memory) (buffer : Buffer) :
    serialize memory buffer = (saved memory).foldl put (buffer, 0) := by
  rw [serialize, saved, List.foldl_append, Words.bytes, List.foldl_flatMap, List.foldl_map]
  rfl

/-- Characters are put behind each other, and what is before them stays. -/
theorem foldl_put (bytes : List Int8) (buffer : Buffer) (size : Nat) :
    (bytes.foldl put (buffer, size)).2 = size + bytes.length ∧
      (∀ pos < size, (bytes.foldl put (buffer, size)).1 pos = buffer pos) ∧
      ∀ pos byte, bytes[pos]? = some byte → (bytes.foldl put (buffer, size)).1 (size + pos) = byte := by
  induction bytes generalizing buffer size with
  | nil => exact ⟨rfl, fun _ _ => rfl, nofun⟩
  | cons first rest ih =>
    obtain ⟨length, before, stored⟩ := ih (Function.update buffer size first) (size + 1)
    rw [List.foldl_cons, put]
    dsimp only
    refine ⟨?_, fun pos inside => ?_, fun pos byte found => ?_⟩
    · rw [length, List.length_cons]
      omega
    · rw [before pos (Nat.lt_succ_of_lt inside), Function.update_of_ne (Nat.ne_of_lt inside)]
    · cases pos with
      | zero =>
        obtain rfl := Option.some.inj found
        exact (before size (Nat.lt_succ_self size)).trans (Function.update_self size first buffer)
      | succ pos =>
        have later := stored pos byte found
        rwa [Nat.add_right_comm] at later

/-- The buffer starts with the characters. -/
def Starts (buffer : Buffer) (bytes : List Int8) : Prop :=
  ∀ pos byte, bytes[pos]? = some byte → buffer pos = byte

theorem length_serialize (memory : Memory) (before : Buffer) :
    (memory.serialize before).2 = (saved memory).length := by
  rw [serialize_eq_foldl, (foldl_put (saved memory) before 0).1, Nat.zero_add]

theorem starts_serialize (memory : Memory) (before : Buffer) :
    Starts (memory.serialize before).1 (saved memory) := by
  intro pos byte found
  obtain ⟨-, -, stored⟩ := foldl_put (saved memory) before 0
  rw [serialize_eq_foldl, ← stored pos byte found, Nat.zero_add]

/-- A copy of the characters will do. -/
theorem Starts.copy {buffer copy : Buffer} {bytes : List Int8} (starts : Starts buffer bytes)
    (same : ∀ pos < bytes.length, copy pos = buffer pos) : Starts copy bytes := by
  intro pos byte found
  rw [same pos (List.getElem?_eq_some_iff.mp found).1, starts pos byte found]

/-- Where the characters of an entry are. -/
theorem Starts.entry {memory : Memory} {buffer : Buffer} (starts : Starts buffer (saved memory))
    {index : Nat} (live : index < memory.stackSize.toNat) :
    join (buffer (3 + 2 * index)) (buffer (3 + 2 * index + 1)) = memory.entry index := by
  have word : ((List.range memory.stackSize.toNat).map memory.entry)[index]? =
      some (memory.entry index) := by
    simp [live]
  obtain ⟨even, odd⟩ := Words.getElem?_bytes ((List.range memory.stackSize.toNat).map memory.entry) index
  rw [word] at even odd
  have first := starts (3 + 2 * index) (low (memory.entry index)) (by
    rw [saved, List.getElem?_append_right (Nat.le_add_right 3 _)]
    simpa using even)
  have second := starts (3 + 2 * index + 1) (high (memory.entry index)) (by
    rw [saved, List.getElem?_append_right (Nat.le_add_right_of_le (Nat.le_add_right 3 _))]
    have past : 3 + 2 * index + 1 - 3 = 2 * index + 1 := by omega
    simpa [past] using odd)
  rw [first, second, Words.join_low_high]

/-! ## What is restored -/

theorem restoreEntries_below {buffer : Buffer} {length left index pos entry : Nat}
    {stack : Vector UInt16 maxIndentLevels} (below : entry < index) (within : entry < maxIndentLevels) :
    (restoreEntries buffer length left index pos stack)[entry] = stack[entry] := by
  induction left generalizing index pos stack with
  | zero => rfl
  | succ left ih =>
    rw [restoreEntries]
    split
    · rw [ih (Nat.lt_succ_of_lt below), Vector.getElem_setIfInBounds_ne within (Nat.ne_of_gt below)]
    · rfl

theorem restoreEntries_at {buffer : Buffer} {length left index pos offset entry : Nat}
    {stack : Vector UInt16 maxIndentLevels} (long : pos + 2 * left ≤ length) (inside : offset < left)
    (place : entry = index + offset) (within : entry < maxIndentLevels) :
    (restoreEntries buffer length left index pos stack)[entry] =
      join (buffer (pos + 2 * offset)) (buffer (pos + 2 * offset + 1)) := by
  induction left generalizing index pos offset stack with
  | zero => exact absurd inside (Nat.not_lt_zero offset)
  | succ left ih =>
    rw [restoreEntries, if_pos (by omega)]
    cases offset with
    | zero =>
      subst place
      rw [restoreEntries_below (Nat.lt_succ_self _) within, Vector.getElem_setIfInBounds_self]
      rfl
    | succ offset =>
      have onward : pos + 2 + 2 * offset = pos + 2 * (offset + 1) := by omega
      rw [← onward]
      exact ih (by omega) (Nat.lt_of_succ_lt_succ inside) (by omega)

/-- Whatever memory it is restored in, a scanner is what it was. -/
theorem deserialize_saved {memory : Memory} (capacity : memory.stackSize.toNat ≤ maxIndentLevels)
    (target : Memory) {buffer : Buffer} (starts : Starts buffer (saved memory)) :
    Agrees (target.deserialize buffer (saved memory).length) memory := by
  have size : buffer 0 = memory.stackSize.toInt8 := starts 0 _ rfl
  have pending : buffer 1 = memory.pendingDedents.toInt8 := starts 1 _ rfl
  have newline : buffer 2 = memory.pendingNewline.toInt8 := starts 2 _ rfl
  have written := length_saved memory
  have nonempty : (saved memory).length ≠ 0 := by omega
  have long : 2 < (saved memory).length := by omega
  have restored : target.deserialize buffer (saved memory).length = {
      indentStack := restoreEntries buffer (saved memory).length memory.stackSize.toNat 0 3 target.indentStack
      stackSize := memory.stackSize
      pendingDedents := memory.pendingDedents
      pendingNewline := memory.pendingNewline } := by
    have set : decide (memory.pendingNewline.toInt8 ≠ 0) = memory.pendingNewline := by
      cases memory.pendingNewline <;> decide
    rw [deserialize, if_neg nonempty, if_pos long, if_pos long, size, pending, newline, set,
      UInt8.toUInt8_toInt8, UInt8.toUInt8_toInt8]
    dsimp only
    rw [if_neg (Nat.not_lt_of_le capacity)]
  rw [restored]
  refine ⟨rfl, rfl, rfl, fun index live => ?_⟩
  have within := Nat.lt_of_lt_of_le live capacity
  rw [← starts.entry live, entry_eq _ within]
  exact restoreEntries_at (by omega) live (Nat.zero_add index).symm within

/-- No characters stand for a fresh scanner. -/
theorem deserialize_nothing (target : Memory) (buffer : Buffer) :
    Agrees (target.deserialize buffer 0) create := by
  refine ⟨rfl, rfl, rfl, fun index live => ?_⟩
  obtain rfl := Nat.lt_one_iff.mp live
  rw [entry_eq _ (by decide), entry_eq _ (by decide)]
  exact Vector.getElem_setIfInBounds_self _

/-- What agrees with a memory holds its scanner. -/
theorem Agrees.holds {memory other : Memory} {scanner : Scanner} (agrees : Agrees memory other)
    (holds : Holds other scanner) : Holds memory scanner := by
  obtain ⟨size, pending, newline, entries⟩ := agrees
  obtain ⟨⟨nonempty, capacity⟩, rfl⟩ := holds
  have stack : CellStack.live memory.indentStack other.stackSize.toNat =
      CellStack.live other.indentStack other.stackSize.toNat := by
    refine CellStack.live_congr capacity fun index below => ?_
    have within := Nat.lt_of_lt_of_le below capacity
    rw [← entry_eq memory within, entries index below, entry_eq other within]
  refine ⟨⟨size ▸ nonempty, size ▸ capacity⟩, ?_⟩
  rw [view, view, size, pending, newline, stack]

/-- Restoring a memory from the characters it is written as, or from a copy of them,
gives back all that is live in it. -/
def RoundTrips (memory : Memory) : Prop :=
  ∀ (target : Memory) (before copy : Buffer),
    (∀ pos < (memory.serialize before).2, copy pos = (memory.serialize before).1 pos) →
      Agrees (target.deserialize copy (memory.serialize before).2) memory

theorem roundTrips {memory : Memory} (capacity : memory.stackSize.toNat ≤ maxIndentLevels) :
    RoundTrips memory := by
  intro target before copy same
  have length := length_serialize memory before
  rw [length] at same ⊢
  exact deserialize_saved capacity target ((starts_serialize memory before).copy same)

/-- The scanner survives being written and restored after any calls, and at any widths
and size within the capacity. -/
theorem scanner_round_trip :
    (∀ calls, RoundTrips (afterCalls calls).1 ∧
        ∀ before, ((afterCalls calls).1.serialize before).2 ≤ 3 + 2 * maxIndentLevels) ∧
      (∀ memory : Memory, memory.stackSize.toNat ≤ maxIndentLevels → RoundTrips memory ∧
        ∀ before, (memory.serialize before).2 ≤ 3 + 2 * maxIndentLevels) ∧
      ∀ (target : Memory) (buffer : Buffer), Agrees (target.deserialize buffer 0) create := by
  have general : ∀ memory : Memory, memory.stackSize.toNat ≤ maxIndentLevels →
      RoundTrips memory ∧ ∀ before, (memory.serialize before).2 ≤ 3 + 2 * maxIndentLevels := by
    intro memory capacity
    refine ⟨roundTrips capacity, fun before => ?_⟩
    rw [length_serialize, length_saved]
    exact Nat.add_le_add_left (Nat.mul_le_mul_left 2 capacity) 3
  refine ⟨fun calls => general _ ?_, general, deserialize_nothing⟩
  exact (holds_afterCalls calls).1.sized.capacity

/-- A width of two bytes, both of which are negative as characters. -/
theorem scanner_round_trip_wide :
    RoundTrips ⟨create.indentStack.setIfInBounds 1 0x8180, 2, 1, true⟩ :=
  (scanner_round_trip.2.1 _ (by decide)).1

/-! ## Runs through bytes -/

/-- A call on a scanner that is kept as characters: the memory to restore it in, and
the buffer to write it to afterwards. -/
structure Turn where
  call : Call
  target : Memory
  buffer : Buffer

def Turn.step (kept : Buffer × Nat) (turn : Turn) : (Buffer × Nat) × List TokenType :=
  let called := Memory.step (turn.target.deserialize kept.1 kept.2) turn.call
  (called.1.serialize turn.buffer, called.2)

/-- The characters stand for the scanner, wherever they are restored. -/
def Keeps (kept : Buffer × Nat) (scanner : Scanner) : Prop :=
  ∀ target : Memory, Holds (target.deserialize kept.1 kept.2) scanner

theorem keeps_create (buffer : Buffer) : Keeps (buffer, 0) Grammar.create := fun target =>
  (deserialize_nothing target buffer).holds ⟨sized_create, view_create⟩

theorem Holds.keeps {memory : Memory} {scanner : Scanner} (holds : Holds memory scanner)
    (buffer : Buffer) : Keeps (memory.serialize buffer) scanner := fun target =>
  (roundTrips holds.sized.capacity target buffer _ fun _ _ => rfl).holds holds

theorem Keeps.step {kept : Buffer × Nat} {scanner : Scanner} (keeps : Keeps kept scanner)
    (turn : Turn) : Keeps (turn.step kept).1 (Call.step scanner turn.call).1 ∧
      (turn.step kept).2 = (Call.step scanner turn.call).2 := by
  obtain ⟨holds, same⟩ := (keeps turn.target).step turn.call
  exact ⟨holds.keeps turn.buffer, same⟩

/-- Restoring the scanner before every call changes no token. -/
theorem resumed_run (turns : List Turn) (buffer : Buffer) :
    (emit Turn.step (buffer, 0) turns).2 =
      (Grammar.afterCalls (turns.map Turn.call)).2 := by
  have steps : ∀ kept scanner (turn : Turn) call, turn.call = call → Keeps kept scanner →
      Keeps (turn.step kept).1 (Call.step scanner call).1 ∧
        (turn.step kept).2 = (Call.step scanner call).2 := by
    rintro kept scanner turn _ rfl keeps
    exact keeps.step turn
  have pairwise : List.Forall₂ (fun turn call => turn.call = call) turns (turns.map Turn.call) := by
    rw [List.forall₂_map_right_iff]
    exact List.forall₂_same.mpr fun _ _ => rfl
  exact (emit_simulation _ Keeps steps pairwise (keeps_create buffer)).2

end Ill.Grammar.Memory
