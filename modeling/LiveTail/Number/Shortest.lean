import LiveTail.Number.Binary

/-! The fewest decimal digits that read back as a given float.

A finite float is the nearest float to every real of an interval around it
(`Interval`), ends included when its mantissa is even. On the grid of decimals
with a given number of digits only the two neighbours of the value can lie in
it; the first grid on which one does gives the digits, the nearer of two. -/
namespace LiveTail.Number.Shortest

/-- A decimal `digits · 10 ^ exponent`. -/
structure Decimal where
  digits : Nat
  exponent : Int
deriving DecidableEq, Repr

/-- The reals nearest to a float, between `low / den` and `high / den`, with the
float itself at `value / den`. -/
structure Interval where
  low : Nat
  value : Nat
  high : Nat
  den : Nat
  closed : Bool

/-- Neighbouring floats are `2 ^ exponent` apart, but below a power of two half
as far. All is counted in quarters of that distance. -/
def Interval.ofFloat (mantissa : Nat) (exponent : Int) : Interval :=
  let (unit, den) := Binary.fraction 1 (exponent - 2)
  let below := if mantissa = 2 ^ 52 ∧ Binary.least < exponent then 1 else 2
  { low := (4 * mantissa - below) * unit
    value := 4 * mantissa * unit
    high := (4 * mantissa + 2) * unit
    den
    closed := mantissa % 2 == 0 }

/-- Whether `num / den` lies in the interval. -/
def Interval.holds (i : Interval) (num den : Nat) : Bool :=
  if i.closed then i.low * den ≤ num * i.den && num * i.den ≤ i.high * den
  else i.low * den < num * i.den && num * i.den < i.high * den

/-- `digits · 10 ^ exponent` as a fraction. -/
def Decimal.fraction (d : Decimal) : Nat × Nat :=
  if 0 ≤ d.exponent then (d.digits * 10 ^ d.exponent.toNat, 1)
  else (d.digits, 10 ^ (-d.exponent).toNat)

def Decimal.inside (d : Decimal) (i : Interval) : Bool :=
  let (n, m) := d.fraction
  i.holds n m

/-- The neighbour of the value on the grid `10 ^ exponent` that reads back, the
nearer one when both do. -/
def onGrid (i : Interval) (exponent : Int) : Option Decimal :=
  let (num, den) :=
    if 0 ≤ exponent then (i.value, i.den * 10 ^ exponent.toNat)
    else (i.value * 10 ^ (-exponent).toNat, i.den)
  let lower : Decimal := ⟨num / den, exponent⟩
  let upper : Decimal := ⟨num / den + 1, exponent⟩
  match lower.inside i, upper.inside i with
  | true, true => some (if 2 * (num % den) ≤ den then lower else upper)
  | true, false => some lower
  | false, true => some upper
  | false, false => none

/-- Tries the grids from `exponent` downwards. -/
def search (i : Interval) (exponent : Int) : Nat → Option Decimal
  | 0 => none
  | n + 1 => onGrid i exponent <|> search i (exponent - 1) n

/-- Moves zeros at the end of the digits into the exponent. -/
def trim (d : Decimal) : Nat → Decimal
  | 0 => d
  | n + 1 => if d.digits % 10 = 0 then trim ⟨d.digits / 10, d.exponent + 1⟩ n else d

/-- The number of decimal digits before the point of a fraction, at most one too
many. -/
def magnitude (num den : Nat) : Int :=
  if den ≤ num then (toString (num / den)).length
  else 1 - ((toString (den / num)).length : Int)

/-- The shortest decimal of a positive float. Twenty grids are enough, for
seventeen digits always do. -/
def ofFloat (mantissa : Nat) (exponent : Int) : Decimal :=
  let i := Interval.ofFloat mantissa exponent
  match search i (magnitude i.value i.den) 20 with
  | some d => trim d 20
  | none => ⟨0, 0⟩

/-! ### Written forms -/

def zeros (n : Nat) : String := String.ofList (List.replicate n '0')

/-- A decimal without exponent, and without a point when it is whole. -/
def Decimal.positional (d : Decimal) : String :=
  let text := toString d.digits
  if 0 ≤ d.exponent then text ++ zeros d.exponent.toNat
  else
    let places := (-d.exponent).toNat
    let padded := zeros (places + 1 - text.length) ++ text
    let whole := padded.length - places
    (padded.take whole).copy ++ "." ++ (padded.drop whole).copy

/-- One digit before the point, and an exponent with a sign and two digits at least. -/
def Decimal.scientific (d : Decimal) : String :=
  let text := toString d.digits
  let power := d.exponent + text.length - 1
  let size := toString power.natAbs
  (text.take 1).copy ++ (if text.length = 1 then "" else "." ++ (text.drop 1).copy) ++ "e"
    ++ (if power < 0 then "-" else "+") ++ zeros (2 - size.length) ++ size

def sign (negative : Bool) : String := if negative then "-" else ""

/-- The plain text of a float: every digit before the point, no exponent. -/
def plain (bits : UInt64) : String :=
  match Binary.ofBits bits with
  | .nan => "NaN"
  | .infinite negative => sign negative ++ "inf"
  | .finite negative 0 _ => sign negative ++ "0"
  | .finite negative m e => sign negative ++ (ofFloat m e).positional

end LiveTail.Number.Shortest
