import LiveTail.Zstandard.Frame

/-! Writing Zstandard data.

The content goes into one frame of stored blocks, as large as blocks may be. It
is a frame that any reader accepts and costs three bytes a block. -/
namespace LiveTail.Zstandard

namespace Writer

/-- The header byte that announces nothing, and a window of `2 ^ 17` bytes. -/
def header : List UInt8 := [0x00, 0x38]

/-- The header of a stored block. -/
def blockHeader (last : Bool) (size : Nat) : List UInt8 :=
  Bytes.little 3 (8 * size + if last then 1 else 0)

/-- Blocks of the largest size, and the last with what is left. -/
def blocks (content : List UInt8) : List UInt8 :=
  if content.length ≤ Header.maxBlock then blockHeader true content.length ++ content
  else
    blockHeader false Header.maxBlock
      ++ (content.take Header.maxBlock ++ blocks (content.drop Header.maxBlock))
termination_by content.length
decreasing_by
  simp only [List.length_drop, Header.maxBlock] at *
  omega

end Writer

/-- Compresses. -/
def encode (content : List UInt8) : List UInt8 :=
  Bytes.little 4 magic ++ (Writer.header ++ Writer.blocks content)

end LiveTail.Zstandard
