import LiveTail.Zstandard.Checksum
import LiveTail.Zstandard.Sequences

/-! Frames of Zstandard data.

Compressed bytes are frames one after the other, each of them complete; no bytes
at all are incomplete. A frame is a header and blocks, or is skipped whole. The
header tells the window, from which the size of a block is bounded, and may tell
the size of the content and that a checksum follows it. Dictionaries are not
offered.

A frame whose content is known to fit one buffer is read in one piece; any other
is read as a stream. A stream is held to its window, which is at most `2 ^ 27`
bytes. It is also more lenient: a compressed block of no bytes adds nothing, and
after an empty last block the size of the content is not compared. -/
namespace LiveTail.Zstandard

/-- Bytes of a list as an array. -/
def packed (bytes : List UInt8) : ByteArray := ⟨bytes.toArray⟩

/-- The next `count` bytes, and those after them. -/
def take (count : Nat) (bytes : List UInt8) : Except Error (List UInt8 × List UInt8) :=
  let front := bytes.take count
  if front.length = count then .ok (front, bytes.drop count) else .error .truncated

/-- The next `count` bytes as a number, the least significant first. -/
def number (count : Nat) (bytes : List UInt8) : Except Error (Nat × List UInt8) := do
  let (digits, rest) ← take count bytes
  return (Bytes.ofLittle digits, rest)

structure Header where
  window : Nat
  contentSize : Option Nat
  checksum : Bool
deriving DecidableEq, Repr

namespace Header

/-- The size of the buffer for content. -/
def buffer : Nat := 2 ^ 13

/-- The largest window of a stream. -/
def maxWindow : Nat := 2 ^ 27

/-- The largest power of two a window is made of. -/
def maxWindowLog : Nat := 31

def maxBlock : Nat := 2 ^ 17

/-- Whether the content is known to fit one buffer. -/
def isWhole (h : Header) : Bool := h.contentSize.any (· ≤ buffer)

/-- No compressed block is larger, before or after decompression. -/
def blockLimit (h : Header) : Nat := min h.window maxBlock

/-- No other block is larger. -/
def storedLimit (h : Header) : Nat := if h.isWhole then maxBlock else h.blockLimit

/-- The window of a descriptor byte: a power of two and some eighths of it. -/
def windowOf (descriptor : Nat) : Nat :=
  let base := 2 ^ (10 + descriptor / 8)
  base + base / 8 * (descriptor % 8)

/-- The content size in a field of `bytes` bytes; the field of two counts from 256. -/
def sizeOf (bytes value : Nat) : Option Nat :=
  match bytes with
  | 0 => none
  | 2 => some (value + 256)
  | _ => some value

/-- The header after the magic number. -/
def read (bytes : List UInt8) : Except Error (Header × List UInt8) := do
  let (head, bytes) ← number 1 bytes
  if head / 8 % 2 = 1 then throw .unsupported
  let single := head / 32 % 2 = 1
  let (descriptor, bytes) ← number (if single then 0 else 1) bytes
  let (dictionary, bytes) ← number ([0, 1, 2, 4].getD (head % 4) 0) bytes
  let width := [if single then 1 else 0, 2, 4, 8].getD (head / 64) 0
  let (size, bytes) ← number width bytes
  let contentSize := sizeOf width size
  let window := if single then contentSize.getD 0 else windowOf descriptor
  let header : Header := { window, contentSize, checksum := head / 4 % 2 = 1 }
  if maxWindowLog < 10 + descriptor / 8 ∨ dictionary ≠ 0 then throw .unsupported
  if !header.isWhole && maxWindow < window then throw .unsupported
  return (header, bytes)

end Header

/-- What the blocks so far have given. -/
structure Content where
  bytes : ByteArray := ByteArray.empty
  memory : Memory := {}

namespace Content

def size (c : Content) : Nat := c.bytes.size

/-- Adds a compressed block. -/
def addCompressed (c : Content) (block : List UInt8) (limit : Nat) : Except Error Content := do
  let block := packed block
  let literals ← Literals.read block limit c.memory.code
  let memory := { c.memory with code := literals.code }
  let (sequences, memory) ← Sequence.read block literals.stop memory
  let bytes ← Sequence.run literals.bytes 0 c.bytes sequences
  if c.size + limit < bytes.size then throw .corrupt
  return { bytes, memory }

/-- Adds the block of a kind whose header tells `size`, and gives what follows it. -/
def addBlock (c : Content) (h : Header) (kind size : Nat) (bytes : List UInt8) :
    Except Error (Content × List UInt8) := do
  match kind with
  | 0 =>
    if h.storedLimit < size then throw .corrupt
    let (stored, rest) ← take size bytes
    return ({ c with bytes := c.bytes ++ packed stored }, rest)
  | 1 =>
    if h.storedLimit < size then throw .corrupt
    let (value, rest) ← take 1 bytes
    return ({ c with bytes := c.bytes ++ packed (List.replicate size (value.headD 0)) }, rest)
  | 2 =>
    if h.blockLimit < size then throw .corrupt
    let (block, rest) ← take size bytes
    if size = 0 && !h.isWhole then return (c, rest)
    return (← c.addCompressed block h.blockLimit, rest)
  | _ => throw .corrupt

/-- Refuses content that is not as large as the header says. -/
def check (c : Content) (h : Header) : Except Error Unit :=
  match h.contentSize with
  | some size => if size = c.size then .ok () else .error .corrupt
  | none => .ok ()

/-- Whether a block brings no bytes of its own. -/
def isEmptyBlock (kind size : Nat) : Bool := kind != 1 && size == 0

/-- Adds blocks up to the last one. Each has a header of three bytes. -/
def addBlocks (c : Content) (h : Header) (bytes : List UInt8) :
    (fuel : Nat) → Except Error (Content × List UInt8)
  | 0 => .error .truncated
  | fuel + 1 => do
    let (head, rest) ← number 3 bytes
    let kind := head / 2 % 4
    let size := head / 8
    let (c, rest) ← c.addBlock h kind size rest
    if head % 2 = 1 then
      if h.isWhole || !isEmptyBlock kind size then c.check h
      return (c, rest)
    else c.addBlocks h rest fuel

end Content

/-- Reads the checksum of a frame that has one. -/
def checkSum (h : Header) (content : List UInt8) (bytes : List UInt8) :
    Except Error (List UInt8) := do
  if h.checksum then
    let (sum, rest) ← number 4 bytes
    if sum = (Checksum.ofBytes content).toNat % 2 ^ 32 then return rest else throw .checksum
  else return bytes

/-- The content of the frame after its magic number, and what follows the frame. -/
def readContent (bytes : List UInt8) : Except Error (List UInt8 × List UInt8) := do
  let (header, rest) ← Header.read bytes
  let (content, rest) ← ({} : Content).addBlocks header rest rest.length
  let plain := content.bytes.data.toList
  return (plain, ← checkSum header plain rest)

/-- What begins a frame. -/
def magic : Nat := 0xFD2FB528

/-- What begins a frame to skip, but for its last half byte. -/
def skipMagic : Nat := 0x184D2A5

/-- The content of the first frame, and what follows the frame. -/
def readFrame (bytes : List UInt8) : Except Error (List UInt8 × List UInt8) := do
  let (word, rest) ← number 4 bytes
  if word = magic then readContent rest
  else if word / 16 = skipMagic then
    let (size, rest) ← number 4 rest
    let (_, rest) ← take size rest
    return ([], rest)
  else throw .unknownFrame

/-- The content of all frames, one or more. A frame has at least four bytes. -/
def readFrames (bytes : List UInt8) : (fuel : Nat) → Except Error (List UInt8)
  | 0 => .error .truncated
  | fuel + 1 => do
    let (content, rest) ← readFrame bytes
    if rest.isEmpty then return content else return content ++ (← readFrames rest fuel)

/-- Decompresses. -/
def decode (bytes : List UInt8) : Except Error (List UInt8) :=
  readFrames bytes (bytes.length + 1)

end LiveTail.Zstandard
