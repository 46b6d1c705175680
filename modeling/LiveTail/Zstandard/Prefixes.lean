import LiveTail.Zstandard.States

/-! Huffman coding of literals.

A code is told by a weight for each byte value: a value of weight `w` has
`2 ^ (w - 1)` of the `2 ^ log` cells of the table, one of weight zero has none.
The last weight is not written; it fills the table. -/
namespace LiveTail.Zstandard

structure CodeTable where
  log : Nat
  /-- The byte value and the length of the code that begins with these bits. -/
  cells : Array (UInt8 × Nat)
deriving Inhabited

namespace CodeTable

/-- The longest code. -/
def maxLog : Nat := 12

def cellsOf (weight : Nat) : Nat := if weight = 0 then 0 else 2 ^ (weight - 1)

/-- The cells of the byte values with one weight, in their order. -/
def level (log weight : Nat) (weights : List Nat) : List (UInt8 × Nat) :=
  (weights.zipIdx.filter (·.1 == weight)).flatMap fun e =>
    List.replicate (cellsOf weight) (UInt8.ofNat e.2, log + 1 - weight)

/-- The code of the written weights. -/
def ofWeights (written : List Nat) : Except Error CodeTable := do
  if written.any (maxLog < ·) then throw .corrupt
  let used := (written.map cellsOf).sum
  if used = 0 then throw .corrupt
  let log := Nat.log2 used + 1
  if maxLog < log then throw .corrupt
  let rest := 2 ^ log - used
  if rest ≠ 2 ^ Nat.log2 rest then throw .corrupt
  let weights := written ++ [Nat.log2 rest + 1]
  let ones := (weights.filter (· == 1)).length
  if ones < 2 ∨ ones % 2 = 1 then throw .corrupt
  return ⟨log, ((List.range' 1 log).flatMap fun w => level log w weights).toArray⟩

/-- Weights coded by two states that take turns. They end where a state asks for
more bits than there are: then the other state gives the last one. -/
def walkWeights (t : StateTable) (s : Backward) (mine other : Nat) :
    (fuel : Nat) → Except Error (List Nat)
  | 0 => .error .corrupt
  | fuel + 1 => do
    let symbol := (t.cell mine).symbol
    let (mine, s) := t.next mine s
    if s.left < 0 then return [symbol, (t.cell other).symbol]
    return symbol :: (← walkWeights t s other mine fuel)

/-- So many weights of half a byte each from byte `i` on, the high half first. -/
def directWeights (bytes : ByteArray) (i count : Nat) : List Nat :=
  (List.range count).map fun k =>
    let b := byteAt bytes (i + k / 2)
    if k % 2 = 0 then b / 16 else b % 16

/-- A code at byte `i`, and the byte after it. -/
def read (bytes : ByteArray) (i : Nat) : Except Error (CodeTable × Nat) := do
  let head := byteAt bytes i
  if bytes.size ≤ i then throw .corrupt
  if head < 128 then
    let stop := i + 1 + head
    if bytes.size < stop then throw .corrupt
    let block := bytes.extract (i + 1) stop
    let (t, first) ← StateTable.read block 0 256 6
    let s ← Backward.ofBytes (block.extract first block.size)
    let (one, s) := t.start s
    let (two, s) := t.start s
    let weights ← walkWeights t s one two 254
    return (← ofWeights weights, stop)
  else
    let count := head - 127
    let stop := i + 1 + (count + 1) / 2
    if bytes.size < stop then throw .corrupt
    return (← ofWeights (directWeights bytes (i + 1) count), stop)

/-- Decodes so many byte values onto `out`. -/
def walk (t : CodeTable) (s : Backward) (out : ByteArray) : Nat → ByteArray × Backward
  | 0 => (out, s)
  | n + 1 =>
    let (value, size) := t.cells.getD (s.peek t.log) (0, 0)
    walk t (s.drop size) (out.push value) n

/-- The byte values of a stream that holds exactly so many. -/
def decode (t : CodeTable) (bytes : ByteArray) (count : Nat) (out : ByteArray) :
    Except Error ByteArray := do
  let (out, s) := t.walk (← Backward.ofBytes bytes) out count
  if s.left = 0 then return out else throw .corrupt

end CodeTable
end LiveTail.Zstandard
