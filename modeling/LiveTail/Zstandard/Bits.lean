import LiveTail.Number.Whole

/-! Bits within bytes, the least significant first.

A bit stream is read in one of two directions: from its first bit up (`bitsAt`
with a growing position) or, as most of a compressed block is, from its last bit
down (`Backward`). A backward stream ends in a byte whose highest set bit only
marks where the stream begins. -/
namespace LiveTail.Zstandard

/-- Why some bytes are no Zstandard data. -/
inductive Error where
  /-- The bytes end within a frame. -/
  | truncated
  /-- The bytes begin no frame. -/
  | unknownFrame
  /-- A frame asks for something this reader does not offer. -/
  | unsupported
  /-- The content contradicts itself. -/
  | corrupt
  /-- The content is not what its checksum says. -/
  | checksum
deriving DecidableEq, Repr

def Error.message : Error → String
  | truncated => "incomplete frame"
  | unknownFrame => "Unknown frame descriptor"
  | unsupported => "Unsupported frame parameter"
  | corrupt => "Data corruption detected"
  | checksum => "Restored data doesn't match checksum"

/-- A byte of some bytes; past their end, zero. -/
def byteAt (bytes : ByteArray) (i : Nat) : Nat :=
  if h : i < bytes.size then bytes[i].toNat else 0

/-- The number that `count` bytes from byte `i` on make, the least significant first. -/
def wordAt (bytes : ByteArray) (i : Nat) : Nat → Nat
  | 0 => 0
  | count + 1 => byteAt bytes i + 256 * wordAt bytes (i + 1) count

/-- The number that `count` bits from bit `pos` on make; past the end they are zero. -/
def bitsAt (bytes : ByteArray) (pos count : Nat) : Nat :=
  wordAt bytes (pos / 8) ((pos % 8 + count + 7) / 8) / 2 ^ (pos % 8) % 2 ^ count

/-- A stream read from its last bit down. `left` bits have not been read; it is
negative once more has been asked for than there was. -/
structure Backward where
  bytes : ByteArray
  left : Int

namespace Backward

/-- The stream of some bytes, without the mark in the last of them. -/
def ofBytes (bytes : ByteArray) : Except Error Backward :=
  let last := byteAt bytes (bytes.size - 1)
  if bytes.size = 0 ∨ last = 0 then .error .corrupt
  else .ok ⟨bytes, 8 * (bytes.size - 1) + Nat.log2 last⟩

/-- The next `count` bits, not taken; bits before the start are zero. -/
def peek (s : Backward) (count : Nat) : Nat :=
  let pos := s.left - count
  if 0 ≤ pos then bitsAt s.bytes pos.toNat count
  else bitsAt s.bytes 0 s.left.toNat * 2 ^ (count - s.left.toNat)

def drop (s : Backward) (count : Nat) : Backward := { s with left := s.left - count }

def take (s : Backward) (count : Nat) : Nat × Backward := (s.peek count, s.drop count)

end Backward
end LiveTail.Zstandard
