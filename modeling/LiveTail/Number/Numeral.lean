import LiveTail.Number.Binary

/-! Numbers written in digits.

Whole numbers are read with a limit, floats to the nearest 64-bit number. Digits
are the ASCII ones. -/
namespace LiveTail.Number.Numeral

def value (digits : List Char) : Nat :=
  digits.foldl (fun n c => 10 * n + (c.toNat - '0'.toNat)) 0

/-- The digits at the front of a text, and what follows them. -/
def span (text : List Char) : List Char × List Char :=
  (text.takeWhile Char.isDigit, text.dropWhile Char.isDigit)

theorem span_digits (text : List Char) : ∀ c ∈ (span text).1, c.isDigit :=
  List.all_eq_true.mp List.all_takeWhile

def digitChar (n : Nat) : Char := Char.ofNat ('0'.toNat + n)

/-- The decimal digits of a number. -/
def digits (n : Nat) : List Char :=
  if n < 10 then [digitChar n] else digits (n / 10) ++ [digitChar (n % 10)]

/-- The digits of a number with zeros in front, `width` in all or more. -/
def padded (width n : Nat) : List Char :=
  List.replicate (width - (digits n).length) '0' ++ digits n

/-- Digits with at most one plus sign in front, not above `limit`. -/
def unsigned? (limit : Nat) (text : List Char) : Option Nat :=
  let digits := match text with
    | '+' :: rest => rest
    | _ => text
  if digits.isEmpty || !digits.all Char.isDigit then none
  else if value digits ≤ limit then some (value digits) else none

/-- The 64-bit number nearest to `± digits · 10 ^ exponent`. Past the bounds on
the decimal exponent the answer is infinity or zero. -/
def nearestDecimal (negative : Bool) (digits : Nat) (exponent : Int) : UInt64 :=
  let magnitude := exponent + (toString digits).length
  if digits = 0 ∨ magnitude < -330 then Binary.signBit negative
  else if 320 < magnitude then Binary.infinity ||| Binary.signBit negative
  else if 0 ≤ exponent then Binary.nearest negative (digits * 10 ^ exponent.toNat) 1
  else Binary.nearest negative digits (10 ^ (-exponent).toNat)

/-- A sign at the front of a text, and what follows it. -/
def signed : List Char → Bool × List Char
  | '-' :: rest => (true, rest)
  | '+' :: rest => (false, rest)
  | text => (false, text)

/-- The exponent that ends a float: nothing, or `e` and a signed whole number. -/
def exponent? : List Char → Option Int
  | [] => some 0
  | c :: rest =>
    let (negative, digits) := signed rest
    if (c == 'e' || c == 'E') && !digits.isEmpty && digits.all Char.isDigit then
      some (if negative then -(value digits : Int) else value digits)
    else none

/-- A float without its sign. A digit must stand before or after the point. -/
def magnitude? (negative : Bool) (text : List Char) : Option UInt64 :=
  let (whole, rest) := span text
  let (places, rest) := match rest with
    | '.' :: rest => span rest
    | _ => ([], rest)
  if whole.isEmpty && places.isEmpty then none
  else (exponent? rest).map fun e =>
    nearestDecimal negative (value (whole ++ places)) (e - places.length)

/-- A float: a signed decimal number, or `inf`, `infinity` or `nan` in any case. -/
def float? (text : List Char) : Option UInt64 :=
  let (negative, rest) := signed text
  let word := String.ofList (rest.map Char.toLower)
  if word = "inf" ∨ word = "infinity" then some (Binary.infinity ||| Binary.signBit negative)
  else if word = "nan" then some (0x7FF8000000000000 ||| Binary.signBit negative)
  else magnitude? negative rest

end LiveTail.Number.Numeral
