import LiveTail.Number.Whole

/-! The 64-bit checksum of a frame's content.

Four lanes each take eight bytes of every thirty-two; what is left at the end is
mixed in by eights, by fours and by ones. Arithmetic is modulo `2 ^ 64`. -/
namespace LiveTail.Zstandard.Checksum

def prime1 : UInt64 := 0x9E3779B185EBCA87
def prime2 : UInt64 := 0xC2B2AE3D27D4EB4F
def prime3 : UInt64 := 0x165667B19E3779F9
def prime4 : UInt64 := 0x85EBCA77C2B2AE63
def prime5 : UInt64 := 0x27D4EB2F165667C5

def rotate (x : UInt64) (n : UInt64) : UInt64 := (x <<< n) ||| (x >>> (64 - n))

def round (lane word : UInt64) : UInt64 := rotate (lane + word * prime2) 31 * prime1

structure Lanes where
  a : UInt64
  b : UInt64
  c : UInt64
  d : UInt64

def Lanes.initial : Lanes := ⟨prime1 + prime2, prime2, 0, 0 - prime1⟩

def Lanes.mixed (l : Lanes) : UInt64 :=
  let merge (h lane : UInt64) := (h ^^^ round 0 lane) * prime1 + prime4
  let h := rotate l.a 1 + rotate l.b 7 + rotate l.c 12 + rotate l.d 18
  merge (merge (merge (merge h l.a) l.b) l.c) l.d

/-- The number that `count` bytes make, the least significant first, and the rest. -/
def word (count : Nat) (bytes : List UInt8) : UInt64 × List UInt8 :=
  (UInt64.ofNat (Bytes.ofLittle (bytes.take count)), bytes.drop count)

/-- Takes stripes of thirty-two bytes while there are any. -/
def stripes (l : Lanes) (bytes : List UInt8) : Nat → Lanes × List UInt8
  | 0 => (l, bytes)
  | n + 1 =>
    let (a, bytes) := word 8 bytes
    let (b, bytes) := word 8 bytes
    let (c, bytes) := word 8 bytes
    let (d, bytes) := word 8 bytes
    stripes ⟨round l.a a, round l.b b, round l.c c, round l.d d⟩ bytes n

def eights (h : UInt64) (bytes : List UInt8) : Nat → UInt64 × List UInt8
  | 0 => (h, bytes)
  | n + 1 =>
    let (w, bytes) := word 8 bytes
    eights (rotate (h ^^^ round 0 w) 27 * prime1 + prime4) bytes n

def fours (h : UInt64) (bytes : List UInt8) : Nat → UInt64 × List UInt8
  | 0 => (h, bytes)
  | n + 1 =>
    let (w, bytes) := word 4 bytes
    fours (rotate (h ^^^ (w * prime1)) 23 * prime2 + prime3) bytes n

def ones (h : UInt64) : List UInt8 → UInt64
  | [] => h
  | b :: rest => ones (rotate (h ^^^ (b.toUInt64 * prime5)) 11 * prime1) rest

def finish (h : UInt64) : UInt64 :=
  let h := (h ^^^ (h >>> 33)) * prime2
  let h := (h ^^^ (h >>> 29)) * prime3
  h ^^^ (h >>> 32)

/-- The checksum of some bytes. -/
def ofBytes (bytes : List UInt8) : UInt64 :=
  let size := bytes.length
  let (lanes, rest) := stripes Lanes.initial bytes (size / 32)
  let h := (if size < 32 then prime5 else lanes.mixed) + UInt64.ofNat size
  let left := size % 32
  let (h, rest) := eights h rest (left / 8)
  let (h, rest) := fours h rest (left % 8 / 4)
  finish (ones h rest)

end LiveTail.Zstandard.Checksum
