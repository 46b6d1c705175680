import LiveTail.Json.Value
import LiveTail.Number.Numeral
import LiveTail.Number.Shortest

/-! Writing JSON, without space between its parts.

Quotes, backslashes and control characters are escaped, in the short form where
there is one; all other characters stand for themselves. -/
namespace LiveTail.Json
namespace Writer
open Number

def hexChar (n : Nat) : Char := if n < 10 then Char.ofNat (48 + n) else Char.ofNat (87 + n)

/-- One character within a string. -/
def escape (c : Char) : List Char :=
  if c = '"' then ['\\', '"']
  else if c = '\\' then ['\\', '\\']
  else if 0x20 ≤ c.toNat then [c]
  else if c = '\x08' then ['\\', 'b']
  else if c = '\t' then ['\\', 't']
  else if c = '\n' then ['\\', 'n']
  else if c = '\x0c' then ['\\', 'f']
  else if c = '\r' then ['\\', 'r']
  else ['\\', 'u', '0', '0', hexChar (c.toNat / 16), hexChar (c.toNat % 16)]

def string (s : String) : List Char := '"' :: s.toList.flatMap escape ++ ['"']

def int (n : Int) : List Char :=
  if n < 0 then '-' :: Numeral.digits n.natAbs else Numeral.digits n.toNat

/-- The text of a float: a point or an exponent is always there, the exponent for
magnitudes from `10 ^ 16` and below `10 ^ -4`. -/
def float (bits : UInt64) : String :=
  match Binary.ofBits bits with
  | .finite negative 0 _ => Shortest.sign negative ++ "0.0"
  | .finite negative m e =>
    let d := Shortest.ofFloat m e
    let power := d.exponent + (toString d.digits).length - 1
    let text :=
      if power < -4 ∨ 16 ≤ power then d.scientific
      else if 0 ≤ d.exponent then d.positional ++ ".0"
      else d.positional
    Shortest.sign negative ++ text
  | _ => "null"

/-- Pieces with commas between them. -/
def commas : List (List Char) → List Char
  | [] => []
  | [piece] => piece
  | piece :: rest => piece ++ ',' :: commas rest

mutual
def value : Json → List Char
  | .null => ['n', 'u', 'l', 'l']
  | .bool true => ['t', 'r', 'u', 'e']
  | .bool false => ['f', 'a', 'l', 's', 'e']
  | .int n => int n
  | .float bits => (float bits).toList
  | .str s => string s
  | .array items => '[' :: commas (values items) ++ [']']
  | .object entries => '\x7b' :: commas (members entries) ++ ['\x7d']

def values : List Json → List (List Char)
  | [] => []
  | v :: rest => value v :: values rest

def members : List (String × Json) → List (List Char)
  | [] => []
  | (key, v) :: rest => (string key ++ ':' :: value v) :: members rest
end

end Writer

/-- The text of a value. -/
def write (v : Json) : String := String.ofList (Writer.value v)

end LiveTail.Json
