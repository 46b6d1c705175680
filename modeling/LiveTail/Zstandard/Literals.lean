import LiveTail.Zstandard.Prefixes

/-! The literals of a compressed block: bytes that its sequences copy out.

They are stored as they are, as one byte repeated, or coded; a code comes with
them or is the one used last in the frame. -/
namespace LiveTail.Zstandard.Literals

/-- The literals, the byte after their section, and the code now known. -/
structure Section where
  bytes : ByteArray
  stop : Nat
  code : Option CodeTable

/-- Four streams, each of a quarter of the literals, behind a table of the sizes
of the first three. -/
def decodeFour (code : CodeTable) (bytes : ByteArray) (count : Nat) :
    Except Error ByteArray := do
  if bytes.size < 10 ∨ count < 6 then throw .corrupt
  let one := 6 + wordAt bytes 0 2
  let two := one + wordAt bytes 2 2
  let three := two + wordAt bytes 4 2
  if bytes.size < three then throw .corrupt
  let quarter := (count + 3) / 4
  if count < 3 * quarter then throw .corrupt
  let out ← code.decode (bytes.extract 6 one) quarter ByteArray.empty
  let out ← code.decode (bytes.extract one two) quarter out
  let out ← code.decode (bytes.extract two three) quarter out
  code.decode (bytes.extract three bytes.size) (count - 3 * quarter) out

/-- The section at the start of a block of at most `limit` bytes. -/
def read (block : ByteArray) (limit : Nat) (known : Option CodeTable) :
    Except Error Section := do
  if block.size = 0 then throw .corrupt
  let head := byteAt block 0
  let form := head / 4 % 4
  if head % 4 < 2 then
    let (start, count) :=
      if form % 2 = 0 then (1, head / 8)
      else if form = 1 then (2, wordAt block 0 2 / 16)
      else (3, wordAt block 0 3 / 16)
    if block.size < start ∨ limit < count then throw .corrupt
    if head % 4 = 0 then
      if block.size < start + count then throw .corrupt
      return ⟨block.extract start (start + count), start + count, known⟩
    else
      if block.size < start + 1 then throw .corrupt
      let value := UInt8.ofNat (byteAt block start)
      return ⟨⟨Array.replicate count value⟩, start + 1, known⟩
  else
    let (start, bits) := if form < 2 then (3, 10) else if form = 2 then (4, 14) else (5, 18)
    let word := wordAt block 0 start / 16
    let count := word % 2 ^ bits
    let stop := start + word / 2 ^ bits % 2 ^ bits
    if block.size < stop ∨ limit < count then throw .corrupt
    let (code, first) ←
      if head % 4 = 2 then CodeTable.read (block.extract 0 stop) start
      else match known with
        | some code => pure (code, start)
        | none => throw .corrupt
    let streams := block.extract first stop
    let bytes ←
      if form = 0 then code.decode streams count ByteArray.empty
      else decodeFour code streams count
    return ⟨bytes, stop, some code⟩

end LiveTail.Zstandard.Literals
