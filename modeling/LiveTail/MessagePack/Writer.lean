import LiveTail.Number.Whole
import LiveTail.MessagePack.Value
import LiveTail.Text.Utf8

/-! Writing MessagePack, each value in the shortest form it has.

Numbers that are not negative are written as unsigned ones, and a string that is no
text as binary data. -/
namespace LiveTail.MessagePack.Writer

/-- A first byte and a number of `width` bytes after it. -/
def wide (head width n : Nat) : List UInt8 := UInt8.ofNat head :: Bytes.big width n

def int (i : Int) : List UInt8 :=
  if 0 ≤ i then
    let n := i.toNat
    if n < 2 ^ 7 then [UInt8.ofNat n]
    else if n < 2 ^ 8 then wide 0xcc 1 n
    else if n < 2 ^ 16 then wide 0xcd 2 n
    else if n < 2 ^ 32 then wide 0xce 4 n
    else wide 0xcf 8 n
  else
    if -2 ^ 5 ≤ i then [UInt8.ofNat (Bytes.unsigned 1 i)]
    else if -2 ^ 7 ≤ i then wide 0xd0 1 (Bytes.unsigned 1 i)
    else if -2 ^ 15 ≤ i then wide 0xd1 2 (Bytes.unsigned 2 i)
    else if -2 ^ 31 ≤ i then wide 0xd2 4 (Bytes.unsigned 4 i)
    else wide 0xd3 8 (Bytes.unsigned 8 i)

def strHead (n : Nat) : List UInt8 :=
  if n < 2 ^ 5 then [UInt8.ofNat (0xa0 + n)]
  else if n < 2 ^ 8 then wide 0xd9 1 n
  else if n < 2 ^ 16 then wide 0xda 2 n
  else wide 0xdb 4 n

def binHead (n : Nat) : List UInt8 :=
  if n < 2 ^ 8 then wide 0xc4 1 n
  else if n < 2 ^ 16 then wide 0xc5 2 n
  else wide 0xc6 4 n

def arrayHead (n : Nat) : List UInt8 :=
  if n < 2 ^ 4 then [UInt8.ofNat (0x90 + n)]
  else if n < 2 ^ 16 then wide 0xdc 2 n
  else wide 0xdd 4 n

def mapHead (n : Nat) : List UInt8 :=
  if n < 2 ^ 4 then [UInt8.ofNat (0x80 + n)]
  else if n < 2 ^ 16 then wide 0xde 2 n
  else wide 0xdf 4 n

def extHead (n : Nat) : List UInt8 :=
  if n = 1 then [0xd4]
  else if n = 2 then [0xd5]
  else if n = 4 then [0xd6]
  else if n = 8 then [0xd7]
  else if n = 16 then [0xd8]
  else if n < 2 ^ 8 then wide 0xc7 1 n
  else if n < 2 ^ 16 then wide 0xc8 2 n
  else wide 0xc9 4 n

def string (bytes : List UInt8) : List UInt8 := strHead bytes.length ++ bytes

mutual
def value : Value → List UInt8
  | .nil => [0xc0]
  | .bool b => [if b then 0xc3 else 0xc2]
  | .int n => int n
  | .float32 bits => wide 0xca 4 bits.toNat
  | .float64 bits => wide 0xcb 8 bits.toNat
  | .str text => string (Text.Utf8.encode text)
  | .rawStr bytes => binHead bytes.length ++ bytes
  | .bin bytes => binHead bytes.length ++ bytes
  | .array items => arrayHead items.length ++ values items
  | .map entries => mapHead entries.length ++ pairs entries
  | .ext type bytes =>
    extHead bytes.length ++ UInt8.ofNat (Bytes.unsigned 1 type) :: bytes

def values : List Value → List UInt8
  | [] => []
  | v :: rest => value v ++ values rest

def pairs : List (Value × Value) → List UInt8
  | [] => []
  | (k, v) :: rest => value k ++ (value v ++ pairs rest)
end

end Writer

/-- The bytes of one value. -/
def write (v : Value) : List UInt8 := Writer.value v

end LiveTail.MessagePack
