import LiveTail.Number.Whole

/-! Binary floating point on its bits.

A 64-bit or 32-bit pattern is read as an exact number `± mantissa · 2 ^ exponent`
(`Datum`), arithmetic on such numbers is exact, and `nearest` goes back: it is the
pattern of the 64-bit number nearest to a fraction, the even one of two equally
near. Every float operation of the library is an exact one followed by `nearest`. -/
namespace LiveTail.Number

/-- What a float pattern stands for. -/
inductive Datum where
  | nan
  | infinite (negative : Bool)
  | finite (negative : Bool) (mantissa : Nat) (exponent : Int)
deriving DecidableEq, Repr

namespace Binary

/-- The exponent of the least bit a 64-bit number can hold. -/
def least : Int := -1074

/-- The pattern of positive infinity. -/
def infinity : UInt64 := 0x7FF0000000000000

def signBit (negative : Bool) : UInt64 := if negative then 0x8000000000000000 else 0

/-- Reads a pattern with `width` mantissa bits and the given exponent bias. -/
def decode (width bias negative field mantissa : Nat) (top : Nat) : Datum :=
  let sign := negative == 1
  if field = top then (if mantissa = 0 then .infinite sign else .nan)
  else if field = 0 then .finite sign mantissa (1 - (bias : Int) - width)
  else .finite sign (2 ^ width + mantissa) ((field : Int) - bias - width)

def ofBits (bits : UInt64) : Datum :=
  let n := bits.toNat
  decode 52 1023 (n / 2 ^ 63) (n / 2 ^ 52 % 2 ^ 11) (n % 2 ^ 52) (2 ^ 11 - 1)

def ofBits32 (bits : UInt32) : Datum :=
  let n := bits.toNat
  decode 23 127 (n / 2 ^ 31) (n / 2 ^ 23 % 2 ^ 8) (n % 2 ^ 23) (2 ^ 8 - 1)

/-- `num / den` over `2 ^ exponent`, as a fraction. -/
def scaled (num den : Nat) (exponent : Int) : Nat × Nat :=
  if 0 ≤ exponent then (num, den * 2 ^ exponent.toNat) else (num * 2 ^ (-exponent).toNat, den)

/-- The whole number nearest to a fraction, the even one of two equally near. -/
def roundEven (num den : Nat) : Nat :=
  let q := num / den
  let r := num % den
  if 2 * r < den || (2 * r == den && q % 2 == 0) then q else q + 1

/-- The whole number nearest to a fraction, the greater of two equally near. -/
def roundUp (num den : Nat) : Nat := (2 * num + den) / (2 * den)

/-- The exponent at which a positive fraction has 53 bits before the point, or
`least` when it is too small for that. -/
def exponentOf (num den : Nat) : Int :=
  let size : Int := (Nat.log2 num : Int) - Nat.log2 den
  let (n, d) := scaled num den size
  max least (if d ≤ n then size - 52 else size - 53)

/-- The magnitude of the 64-bit number nearest to a fraction. A mantissa that
rounds up to 54 bits carries into the exponent field. -/
def nearestMagnitude (num den : Nat) : UInt64 :=
  if num = 0 then 0
  else
    let exponent := exponentOf num den
    let (n, d) := scaled num den exponent
    let bits := (exponent - least).toNat * 2 ^ 52 + roundEven n d
    if infinity.toNat ≤ bits then infinity else UInt64.ofNat bits

/-- The 64-bit number nearest to `± num / den`. -/
def nearest (negative : Bool) (num den : Nat) : UInt64 :=
  nearestMagnitude num den ||| signBit negative

def ofNat (n : Nat) : UInt64 := nearest false n 1

def ofInt (n : Int) : UInt64 := nearest (n < 0) n.natAbs 1

/-- The magnitude of a finite number as a fraction. -/
def fraction (mantissa : Nat) (exponent : Int) : Nat × Nat :=
  if 0 ≤ exponent then (mantissa * 2 ^ exponent.toNat, 1) else (mantissa, 2 ^ (-exponent).toNat)

/-- Widens a 32-bit pattern; the payload of a NaN moves to the top. -/
def widen (bits : UInt32) : UInt64 :=
  match ofBits32 bits with
  | .finite negative mantissa exponent =>
    let (n, d) := fraction mantissa exponent
    nearest negative n d
  | .infinite negative => infinity ||| signBit negative
  | .nan => 0x7FF8000000000000

end Binary
end LiveTail.Number
