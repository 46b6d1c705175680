import LiveTail.Zstandard.Bits

/-! Finite-state entropy coding.

A table has a cell for each state: the symbol it stands for, and the number of
bits that, added to a base, give the next state. It is built from a distribution
of `2 ^ log` cells over the symbols; a symbol rarer than one cell has count `-1`
and takes a cell at the end of the table. -/
namespace LiveTail.Zstandard

structure Cell where
  symbol : Nat
  bits : Nat
  base : Nat
deriving Inhabited, Repr

structure StateTable where
  log : Nat
  cells : Array Cell
deriving Inhabited, Repr

namespace StateTable

/-- The table that has one symbol only and reads no bits. -/
def single (symbol : Nat) : StateTable := ⟨0, #[⟨symbol, 0, 0⟩]⟩

def cell (t : StateTable) (state : Nat) : Cell := t.cells.getD state default

/-! ### Building a table -/

/-- Gives the cells from the end of the table to the symbols with count `-1`. -/
def placeRare (cells : Array Nat) (high symbol : Nat) : List Int → Array Nat × Nat
  | [] => (cells, high)
  | count :: rest =>
    if count = -1 then placeRare (cells.setIfInBounds high symbol) (high - 1) (symbol + 1) rest
    else placeRare cells high (symbol + 1) rest

/-- Goes on to the next position that is not above `high`. The step is odd, so
every position comes within `size` steps. -/
def advance (size high pos : Nat) : Nat → Nat
  | 0 => pos
  | fuel + 1 =>
    let next := (pos + size / 2 + size / 8 + 3) % size
    if high < next then advance size high next fuel else next

/-- Gives `count` cells to a symbol. -/
def placeMany (size high symbol : Nat) (cells : Array Nat) (pos : Nat) : Nat → Array Nat × Nat
  | 0 => (cells, pos)
  | count + 1 =>
    placeMany size high symbol (cells.setIfInBounds pos symbol) (advance size high pos size) count

/-- Gives all symbols their cells. -/
def placeAll (size high : Nat) (cells : Array Nat) (pos symbol : Nat) :
    List Int → Array Nat × Nat
  | [] => (cells, pos)
  | count :: rest =>
    let (cells, pos) := placeMany size high symbol cells pos count.toNat
    placeAll size high cells pos (symbol + 1) rest

/-- Numbers the cells of each symbol in order and derives from the number how
many bits lead on. -/
def numberCells (log : Nat) (next : Array Nat) : List Nat → List Cell
  | [] => []
  | symbol :: rest =>
    let n := next.getD symbol 1
    let bits := log - Nat.log2 n
    ⟨symbol, bits, n * 2 ^ bits - 2 ^ log⟩
      :: numberCells log (next.setIfInBounds symbol (n + 1)) rest

/-- The table of a distribution. -/
def ofCounts (log : Nat) (counts : List Int) : Except Error StateTable :=
  let size := 2 ^ log
  let (cells, high) := placeRare (Array.replicate size 0) (size - 1) 0 counts
  let (cells, pos) := placeAll size high cells 0 0 counts
  if pos ≠ 0 then .error .corrupt
  else
    let next := (counts.map fun count => if count = -1 then 1 else count.toNat).toArray
    .ok ⟨log, (numberCells log next cells.toList).toArray⟩

/-! ### Reading a distribution -/

/-- Runs of symbols without cells, in pairs of bits; three means that more follow. -/
def readZeros (bytes : ByteArray) (pos : Nat) : Nat → Nat × Nat
  | 0 => (0, pos)
  | fuel + 1 =>
    let run := bitsAt bytes pos 2
    if run = 3 then
      let (zeros, pos) := readZeros bytes (pos + 2) fuel
      (3 + zeros, pos)
    else (run, pos + 2)

/-- One count, in as few bits as the cells still to give allow. -/
def readCount (bytes : ByteArray) (pos remaining : Nat) : Int × Nat :=
  let bits := Nat.log2 (remaining + 1) + 1
  let short := 2 ^ bits - 1 - (remaining + 1)
  let low := bitsAt bytes pos (bits - 1)
  if low < short then ((low : Int) - 1, pos + bits - 1)
  else
    let all := bitsAt bytes pos bits
    (((if 2 ^ (bits - 1) ≤ all then all - short else all : Nat) : Int) - 1, pos + bits)

/-- The counts until no cell is left, for at most `symbols` symbols. -/
def readCounts (bytes : ByteArray) (pos remaining : Nat) (front : List Int) :
    (symbols : Nat) → Except Error (List Int × Nat)
  | 0 => if remaining = 0 then .ok (front.reverse, pos) else .error .corrupt
  | symbols + 1 =>
    if remaining = 0 then .ok (front.reverse, pos)
    else if 8 * bytes.size < pos then .error .corrupt
    else
      let (count, pos) := readCount bytes pos remaining
      if remaining < count.natAbs then .error .corrupt
      else if count = 0 then
        let (zeros, pos) := readZeros bytes pos bytes.size
        if symbols < zeros then .error .corrupt
        else readCounts bytes pos remaining (List.replicate (zeros + 1) 0 ++ front)
          (symbols - zeros)
      else readCounts bytes pos (remaining - count.natAbs) (count :: front) symbols
termination_by symbols => symbols
decreasing_by
  · exact Nat.lt_succ_of_le (Nat.sub_le ..)
  · exact Nat.lt_succ_self _

/-- A table at byte `i`, for at most `symbols` symbols and `2 ^ maxLog` cells, and
the byte after it. -/
def read (bytes : ByteArray) (i symbols maxLog : Nat) : Except Error (StateTable × Nat) := do
  let log := bitsAt bytes (8 * i) 4 + 5
  if maxLog < log then throw .corrupt
  let (counts, pos) ← readCounts bytes (8 * i + 4) (2 ^ log) [] symbols
  let stop := (pos + 7) / 8
  if bytes.size < stop then throw .corrupt
  return (← ofCounts log counts, stop)

/-! ### Walking a table -/

/-- The first state, from the stream. -/
def start (t : StateTable) (s : Backward) : Nat × Backward := s.take t.log

/-- The state after `state`. -/
def next (t : StateTable) (state : Nat) (s : Backward) : Nat × Backward :=
  let c := t.cell state
  let (low, s) := s.take c.bits
  (c.base + low, s)

end StateTable
end LiveTail.Zstandard
