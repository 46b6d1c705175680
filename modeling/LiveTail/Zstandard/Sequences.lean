import LiveTail.Zstandard.Literals

/-! The sequences of a compressed block: how many literals to copy, then how far
back a match lies and how long it is.

Each of the three numbers is a code with extra bits. The codes come from three
state tables that walk one backward stream. -/
namespace LiveTail.Zstandard

/-- What one block of a frame leaves for the next. -/
structure Memory where
  code : Option CodeTable := none
  literalTable : Option StateTable := none
  offsetTable : Option StateTable := none
  matchTable : Option StateTable := none
  /-- The last three offsets used, the latest first. -/
  recent : Nat × Nat × Nat := (1, 4, 8)

structure Sequence where
  literals : Nat
  offset : Nat
  length : Nat
deriving Repr

namespace Sequence

/-- The least number and the extra bits of each code of a literal count. -/
def literalCodes : Array (Nat × Nat) :=
  ((List.range 16).map (·, 0)
    ++ [(16, 1), (18, 1), (20, 1), (22, 1), (24, 2), (28, 2), (32, 3), (40, 3), (48, 4), (64, 6),
      (128, 7), (256, 8), (512, 9), (1024, 10), (2048, 11), (4096, 12), (8192, 13), (16384, 14),
      (32768, 15), (65536, 16)]).toArray

/-- The least number and the extra bits of each code of a match length. -/
def matchCodes : Array (Nat × Nat) :=
  ((List.range 32).map (fun n => (n + 3, 0))
    ++ [(35, 1), (37, 1), (39, 1), (41, 1), (43, 2), (47, 2), (51, 3), (59, 3), (67, 4), (83, 4),
      (99, 5), (131, 7), (259, 8), (515, 9), (1027, 10), (2051, 11), (4099, 12), (8195, 13),
      (16387, 14), (32771, 15), (65539, 16)]).toArray

/-- The greatest code of an offset. -/
def maxOffsetCode : Nat := 31

def literalDefault : List Int :=
  [4, 3, 2, 2, 2, 2, 2, 2, 2, 2, 2, 2, 2, 1, 1, 1, 2, 2, 2, 2, 2, 2, 2, 2, 2, 3, 2, 1, 1, 1, 1, 1,
    -1, -1, -1, -1]

def matchDefault : List Int :=
  [1, 4, 3, 2, 2, 2, 2, 2, 2, 1, 1, 1, 1, 1, 1, 1, 1, 1, 1, 1, 1, 1, 1, 1, 1, 1, 1, 1, 1, 1, 1, 1,
    1, 1, 1, 1, 1, 1, 1, 1, 1, 1, 1, 1, 1, 1, -1, -1, -1, -1, -1, -1, -1]

def offsetDefault : List Int :=
  [1, 1, 1, 1, 1, 1, 2, 2, 2, 1, 1, 1, 1, 1, 1, 1, 1, 1, 1, 1, 1, 1, 1, 1, -1, -1, -1, -1, -1]

/-- A table as its mode says: the default one, one symbol only, a written one, or
the one used last; and the byte after it. -/
def readTable (mode : Nat) (bytes : ByteArray) (i symbols maxLog defaultLog : Nat)
    (default : List Int) (known : Option StateTable) : Except Error (StateTable × Nat) := do
  match mode with
  | 0 => return (← StateTable.ofCounts defaultLog default, i)
  | 1 =>
    let symbol := byteAt bytes i
    if bytes.size ≤ i ∨ symbols ≤ symbol then throw .corrupt
    return (.single symbol, i + 1)
  | 2 => StateTable.read bytes i symbols maxLog
  | _ =>
    match known with
    | some t => return (t, i)
    | none => throw .corrupt

/-- The three tables. -/
structure Tables where
  literal : StateTable
  offset : StateTable
  length : StateTable

/-- The states of the three tables. -/
structure States where
  literal : Nat
  offset : Nat
  length : Nat

/-- The offset that a written value stands for, and the last three after it. Small
values name one of the last three; without literals they name the next one. -/
def resolve (value : Nat) (noLiterals : Bool) (recent : Nat × Nat × Nat) :
    Nat × Nat × Nat × Nat :=
  let (a, b, c) := recent
  if 3 < value then (value - 3, value - 3, a, b)
  else
    match (if noLiterals then value + 1 else value) with
    | 1 => (a, a, b, c)
    | 2 => (b, b, a, c)
    | 3 => (c, c, a, b)
    | _ => (a - 1, a - 1, a, b)

/-- So many sequences from the stream, after those in `front`, last first. -/
def walk (t : Tables) (states : States) (s : Backward) (recent : Nat × Nat × Nat)
    (front : List Sequence) : Nat → Except Error (List Sequence × Backward × Nat × Nat × Nat)
  | 0 => .ok (front.reverse, s, recent)
  | n + 1 =>
    if s.left < 0 then .error .corrupt
    else
      let offsetCode := (t.offset.cell states.offset).symbol
      let (length, lengthBits) := matchCodes.getD (t.length.cell states.length).symbol (0, 0)
      let (literals, literalBits) := literalCodes.getD (t.literal.cell states.literal).symbol (0, 0)
      let (low, s) := s.take offsetCode
      let (moreLength, s) := s.take lengthBits
      let (moreLiterals, s) := s.take literalBits
      let literals := literals + moreLiterals
      let (offset, recent) := resolve (2 ^ offsetCode + low) (literals == 0) recent
      let front := ⟨literals, offset, length + moreLength⟩ :: front
      if n = 0 then walk t states s recent front n
      else
        let (literal, s) := t.literal.next states.literal s
        let (length, s) := t.length.next states.length s
        let (offset, s) := t.offset.next states.offset s
        walk t ⟨literal, offset, length⟩ s recent front n

/-- The number of sequences at byte `i`, and the byte after it. -/
def readCount (bytes : ByteArray) (i : Nat) : Except Error (Nat × Nat) := do
  let head := byteAt bytes i
  let (count, stop) :=
    if head < 128 then (head, i + 1)
    else if head < 255 then ((head - 128) * 256 + byteAt bytes (i + 1), i + 2)
    else (wordAt bytes (i + 1) 2 + 0x7F00, i + 3)
  if bytes.size < stop then throw .corrupt
  return (count, stop)

/-- The sequences from byte `i` to the end of a block. -/
def read (bytes : ByteArray) (i : Nat) (m : Memory) : Except Error (List Sequence × Memory) := do
  let (count, i) ← readCount bytes i
  if count = 0 then
    if i = bytes.size then return ([], m) else throw .corrupt
  let modes := byteAt bytes i
  if bytes.size ≤ i ∨ modes % 4 ≠ 0 then throw .corrupt
  let (literal, i) ← readTable (modes / 64) bytes (i + 1) literalCodes.size 9 6 literalDefault
    m.literalTable
  let (offset, i) ← readTable (modes / 16 % 4) bytes i (maxOffsetCode + 1) 8 5 offsetDefault
    m.offsetTable
  let (length, i) ← readTable (modes / 4 % 4) bytes i matchCodes.size 9 6 matchDefault
    m.matchTable
  let s ← Backward.ofBytes (bytes.extract i bytes.size)
  let (first, s) := literal.start s
  let (second, s) := offset.start s
  let (third, s) := length.start s
  let (sequences, s, recent) ← walk ⟨literal, offset, length⟩ ⟨first, second, third⟩ s m.recent []
    count
  if s.left ≠ 0 then throw .corrupt
  return (sequences, { m with
    literalTable := some literal, offsetTable := some offset, matchTable := some length, recent })

/-- Copies `count` bytes from `offset` back, one by one, so that a match may run
into what it writes. -/
def copyBack (out : ByteArray) (offset : Nat) : Nat → ByteArray
  | 0 => out
  | count + 1 =>
    copyBack (out.push (UInt8.ofNat (byteAt out (out.size - offset)))) offset count

/-- Follows the sequences: literals, then a match within what is written so far.
The literals that are left end the block. -/
def run (literals : ByteArray) (used : Nat) (out : ByteArray) :
    List Sequence → Except Error ByteArray
  | [] => .ok (out ++ literals.extract used literals.size)
  | q :: rest =>
    let stop := used + q.literals
    if literals.size < stop then .error .corrupt
    else
      let out := out ++ literals.extract used stop
      if q.offset = 0 ∨ out.size < q.offset then .error .corrupt
      else run literals stop (copyBack out q.offset q.length) rest

end Sequence
end LiveTail.Zstandard
