import LiveTail.MessagePack.Value

/-! The first byte of a MessagePack value.

It is a small value itself, or it announces what follows: a number of a given
width, or content whose length is in the byte or in the bytes after it. Byte
`0xc1`, which has no meaning of its own, is read as nil. -/
namespace LiveTail.MessagePack

/-- Where the length of some content stands: in the first byte, or in so many
bytes after it. -/
inductive Length where
  | here (n : Nat)
  | next (width : Nat)
deriving DecidableEq, Repr

inductive Head where
  | value (v : Value)
  | unsigned (width : Nat)
  | signed (width : Nat)
  | float32
  | float64
  | str (length : Length)
  | bin (length : Length)
  | array (length : Length)
  | map (length : Length)
  | ext (length : Length)

namespace Head

/-- The heads from `0xc0` to `0xdf`, by their distance from `0xc0`. -/
def table : List Head :=
  [.value .nil, .value .nil, .value (.bool false), .value (.bool true),
    .bin (.next 1), .bin (.next 2), .bin (.next 4),
    .ext (.next 1), .ext (.next 2), .ext (.next 4),
    .float32, .float64,
    .unsigned 1, .unsigned 2, .unsigned 4, .unsigned 8,
    .signed 1, .signed 2, .signed 4, .signed 8,
    .ext (.here 1), .ext (.here 2), .ext (.here 4), .ext (.here 8), .ext (.here 16),
    .str (.next 1), .str (.next 2), .str (.next 4),
    .array (.next 2), .array (.next 4), .map (.next 2), .map (.next 4)]

def ofByte (b : UInt8) : Head :=
  let n := b.toNat
  if n < 0x80 then .value (.int n)
  else if n < 0x90 then .map (.here (n - 0x80))
  else if n < 0xa0 then .array (.here (n - 0x90))
  else if n < 0xc0 then .str (.here (n - 0xa0))
  else if n < 0xe0 then table.getD (n - 0xc0) (.value .nil)
  else .value (.int ((n : Int) - 0x100))

end Head
end LiveTail.MessagePack
