import LiveTail.Number.Numeral
import LiveTail.Number.Shortest
import LiveTail.Time.Calendar

/-! Instants of universal time, to the nanosecond.

An instant is a whole second and nanoseconds within it. A leap second shares the
whole second before it and counts its nanoseconds from one second on, so that it
reads as second 60. -/
namespace LiveTail.Time
open Number

structure Instant where
  /-- Seconds since 1970, rounded down. -/
  seconds : Int
  nanos : Nat
deriving DecidableEq, Repr

/-- The hand positions of a clock. -/
structure Clock where
  hour : Nat
  minute : Nat
  second : Nat
  nanos : Nat
deriving DecidableEq, Repr

namespace Instant

def second : Nat := 1000000000

/-- The years an instant can lie in. -/
def firstYear : Int := -262143
def lastYear : Int := 262142

def inRange (date : Date) : Bool := firstYear ≤ date.year && date.year ≤ lastYear

instance : Inhabited Instant := ⟨⟨0, 0⟩⟩

def date (t : Instant) : Date := Date.ofDayNumber (t.seconds / 86400)

/-- A leap second shows as second 60. -/
def clock (t : Instant) : Clock :=
  let s := (t.seconds % 86400).toNat
  { hour := s / 3600
    minute := s / 60 % 60
    second := s % 60 + t.nanos / second
    nanos := t.nanos % second }

/-- The instant of a day and a clock that is `east` seconds ahead of universal
time. Second 60 is a leap second. There is none for a day or a clock that does
not exist. -/
def of? (date : Date) (clock : Clock) (east : Int) : Option Instant :=
  if inRange date && date.valid && clock.hour < 24 && clock.minute < 60 && clock.second ≤ 60 then
    let leap := clock.second / 60
    let seconds := 3600 * clock.hour + 60 * clock.minute + (clock.second - leap)
    some ⟨86400 * date.dayNumber + seconds - east, clock.nanos + leap * second⟩
  else none

/-- The instant so many seconds after the start of 1970, unless it is too far off. -/
def ofSeconds? (seconds : Int) (nanos : Nat) : Option Instant :=
  let t : Instant := ⟨seconds, nanos⟩
  if inRange t.date then some t else none

/-! ### Seconds as a float -/

/-- The floor of a finite float, and the nearest float to what is above it. -/
def splitFloat (negative : Bool) (mantissa : Nat) (exponent : Int) : Int × UInt64 :=
  let (n, d) := Binary.fraction mantissa exponent
  let value : Int := if negative then -(n : Int) else n
  let whole := value / d
  (whole, Binary.nearest false (value - whole * d).toNat d)

/-- A part of a second as nanoseconds: the float product, rounded halves up, and
less than a second. -/
def nanosOf (part : UInt64) : Nat :=
  match Binary.ofBits part with
  | .finite _ mantissa exponent =>
    let (n, d) := Binary.fraction mantissa exponent
    match Binary.ofBits (Binary.nearest false (n * second) d) with
    | .finite _ mantissa exponent =>
      let (n, d) := Binary.fraction mantissa exponent
      min (Binary.roundUp n d) (second - 1)
    | _ => 0
  | _ => 0

/-- The instant of a float number of seconds since 1970. -/
def ofFloat? (bits : UInt64) : Option Instant :=
  match Binary.ofBits bits with
  | .finite negative mantissa exponent =>
    let (whole, part) := splitFloat negative mantissa exponent
    ofSeconds? whole (nanosOf part)
  | _ => none

/-! ### Text -/

/-- Four digits; years before 0 and after 9999 have a sign. -/
def yearText (year : Int) : List Char :=
  if 0 ≤ year ∧ year ≤ 9999 then Numeral.padded 4 year.toNat
  else (if year < 0 then '-' else '+') :: Numeral.padded 4 year.natAbs

/-- The fraction of a second in 0, 3, 6 or 9 digits, the fewest that lose nothing. -/
def fractionText (nanos : Nat) : List Char :=
  if nanos = 0 then []
  else if nanos % 1000000 = 0 then '.' :: Numeral.padded 3 (nanos / 1000000)
  else if nanos % 1000 = 0 then '.' :: Numeral.padded 6 (nanos / 1000)
  else '.' :: Numeral.padded 9 nanos

def dateText (d : Date) : List Char :=
  yearText d.year ++ '-' :: Numeral.padded 2 d.month ++ '-' :: Numeral.padded 2 d.day

def clockText (c : Clock) : List Char :=
  Numeral.padded 2 c.hour ++ ':' :: Numeral.padded 2 c.minute ++ ':' :: Numeral.padded 2 c.second

/-- Day and time of universal time, such as `2025-01-01T00:00:00.250Z`. -/
def text (t : Instant) : List Char :=
  dateText t.date ++ 'T' :: clockText t.clock ++ fractionText t.clock.nanos ++ ['Z']

/-- The time of day to the millisecond, the rest cut off. -/
def timeText (t : Instant) : List Char :=
  clockText t.clock ++ '.' :: Numeral.padded 3 (t.clock.nanos / 1000000)

end Instant
end LiveTail.Time
