/-
Plain texts of structured values: rows of hex digits, read back in front of
anything that follows them.
-/
import Hq.Bytes

namespace Hq

/-- A writer of ASCII bytes with the reader of what it wrote. -/
structure TextCodec (α : Type) where
  write : α → List UInt8
  read : List UInt8 → Option (α × List UInt8)
  read_write : ∀ value rest, read (write value ++ rest) = some (value, rest)
  ascii : ∀ value, ∀ byte ∈ write value, byte < 128

namespace TextCodec

variable {α β : Type}

def pair (left : TextCodec α) (right : TextCodec β) : TextCodec (α × β) where
  write value := left.write value.1 ++ right.write value.2
  read bytes := do
    let (first, rest) ← left.read bytes
    let (second, rest) ← right.read rest
    some ((first, second), rest)
  read_write value rest := by
    simp [List.append_assoc, left.read_write, right.read_write]
  ascii value byte hmem := by
    obtain hmem | hmem := List.mem_append.1 hmem
    · exact left.ascii _ _ hmem
    · exact right.ascii _ _ hmem

/-- The values that another codec's values stand for. -/
def comap (codec : TextCodec β) (unpack : α → β) (pack : β → Option α)
    (inverse : ∀ value, pack (unpack value) = some value) : TextCodec α where
  write value := codec.write (unpack value)
  read bytes := do
    let (packed, rest) ← codec.read bytes
    let value ← pack packed
    some (value, rest)
  read_write value rest := by simp [codec.read_write, inverse]
  ascii value := codec.ascii (unpack value)

theorem hexDigit_range {n : Nat} (h : n < 16) :
    hexDigit n < 128 ∧ hexDigit n ≠ 10 := by
  interval_cases n <;> decide

theorem encodeHex_range {bytes : List UInt8} {byte : UInt8}
    (hmem : byte ∈ encodeHex bytes) : byte < 128 ∧ byte ≠ 10 := by
  simp only [encodeHex, List.mem_flatMap, List.mem_cons, List.not_mem_nil,
    or_false] at hmem
  obtain ⟨value, -, rfl | rfl⟩ := hmem
  · exact hexDigit_range (by have := value.toNat_lt; omega)
  · exact hexDigit_range (Nat.mod_lt _ (by decide))

/-- A row of bytes: their hex digits and a line feed. -/
def row : TextCodec (List UInt8) where
  write bytes := encodeHex bytes ++ [10]
  read bytes := do
    let value ← decodeHex (bytes.takeWhile (· ≠ 10))
    some (value, (bytes.dropWhile (· ≠ 10)).drop 1)
  read_write bytes rest := by
    have hdigits : ∀ byte ∈ encodeHex bytes, decide (byte ≠ 10) = true :=
      fun byte hmem => decide_eq_true (encodeHex_range hmem).2
    rw [List.append_assoc, List.takeWhile_append_of_pos hdigits,
      List.dropWhile_append_of_pos hdigits]
    simp [decodeHex_encodeHex]
  ascii bytes byte hmem := by
    obtain hmem | hmem := List.mem_append.1 hmem
    · exact (encodeHex_range hmem).1
    · rw [List.mem_singleton.1 hmem]
      decide

theorem length_row_write (bytes : List UInt8) :
    (row.write bytes).length = 2 * bytes.length + 1 := by
  simp [row]

def number : TextCodec Nat :=
  row.comap encodeDecimal (fun digits => some (decodeDecimal digits)) fun n =>
    congrArg some (decodeDecimal_encodeDecimal n)

def text : TextCodec Utf8Text :=
  row.comap Subtype.val (fun bytes =>
    if h : isText bytes = true then some ⟨bytes, h⟩ else none) fun value =>
      dif_pos value.2

def readMany (codec : TextCodec α) :
    Nat → List UInt8 → Option (List α × List UInt8)
  | 0, bytes => some ([], bytes)
  | count + 1, bytes => do
      let (value, rest) ← codec.read bytes
      let (values, rest) ← readMany codec count rest
      some (value :: values, rest)

theorem readMany_write (codec : TextCodec α) (values : List α)
    (rest : List UInt8) :
    codec.readMany values.length (values.flatMap codec.write ++ rest) =
      some (values, rest) := by
  induction values with
  | nil => rfl
  | cons value values ih =>
      simp [readMany, List.append_assoc, codec.read_write, ih]

/-- The values of a list after their number. -/
def list (codec : TextCodec α) : TextCodec (List α) where
  write values := number.write values.length ++ values.flatMap codec.write
  read bytes := do
    let (count, rest) ← number.read bytes
    codec.readMany count rest
  read_write values rest := by
    simp [List.append_assoc, number.read_write, readMany_write]
  ascii values byte hmem := by
    obtain hmem | hmem := List.mem_append.1 hmem
    · exact number.ascii _ _ hmem
    · obtain ⟨value, -, hmem⟩ := List.mem_flatMap.1 hmem
      exact codec.ascii value byte hmem

/-- The whole text of a value. -/
def encode (codec : TextCodec α) (value : α) : Utf8Text :=
  ⟨codec.write value, isText_of_ascii (codec.ascii value)⟩

/-- The value of a whole text, with nothing after it. -/
def decode (codec : TextCodec α) (bytes : List UInt8) : Option α :=
  match codec.read bytes with
  | some (value, []) => some value
  | _ => none

theorem decode_encode (codec : TextCodec α) (value : α) :
    codec.decode (codec.encode value).1 = some value := by
  have hread := codec.read_write value []
  rw [List.append_nil] at hread
  simp [decode, encode, hread]

theorem write_injective (codec : TextCodec α) :
    Function.Injective codec.write := by
  intro left right heq
  have hleft := codec.read_write left []
  rw [heq, codec.read_write] at hleft
  exact (Prod.mk.inj (Option.some.inj hleft)).1.symm

end TextCodec

end Hq
