import LiveTail.Number.Whole

/-! The Gregorian calendar, in both directions of time.

Days are numbered from the first day of 1970. Year zero is the year before year
one, and leap years follow the same rule on both sides of it. -/
namespace LiveTail.Time

structure Date where
  year : Int
  month : Nat
  day : Nat
deriving DecidableEq, Repr

namespace Calendar

def isLeap (year : Int) : Bool := year % 4 == 0 && (year % 100 != 0 || year % 400 == 0)

/-- The lengths of the months of a year. -/
def months (year : Int) : List Nat :=
  [31, if isLeap year then 29 else 28, 31, 30, 31, 30, 31, 31, 30, 31, 30, 31]

/-- The days from the first day of year zero to the first day of `year`. The
divisions count the leap years between. -/
def yearStart (year : Int) : Int :=
  365 * year + (year + 3) / 4 - (year + 99) / 100 + (year + 399) / 400

/-- The days from the first day of year zero to the first day of 1970. -/
def epoch : Int := 719528

/-- The year of a day counted from the first day of year zero. Four hundred years
have 146097 days, so the quotient is at most one year off. -/
def yearOf (day : Int) : Int :=
  let guess := 400 * day / 146097
  if yearStart (guess + 1) ≤ day then guess + 1
  else if day < yearStart guess then guess - 1
  else guess

/-- The month, counted from zero, and the day in it, of a day of the year. -/
def split (day : Nat) : List Nat → Nat × Nat
  | [] => (0, day)
  | size :: rest =>
    if day < size then (0, day)
    else
      let (month, day) := split (day - size) rest
      (month + 1, day)

end Calendar

namespace Date

/-- Whether there is such a day. -/
def valid (d : Date) : Bool :=
  1 ≤ d.month && 1 ≤ d.day && d.day ≤ (Calendar.months d.year).getD (d.month - 1) 0

def dayNumber (d : Date) : Int :=
  Calendar.yearStart d.year + ((Calendar.months d.year).take (d.month - 1)).sum + d.day - 1
    - Calendar.epoch

def ofDayNumber (day : Int) : Date :=
  let day := day + Calendar.epoch
  let year := Calendar.yearOf day
  let (month, day) := Calendar.split (day - Calendar.yearStart year).toNat (Calendar.months year)
  ⟨year, month + 1, day + 1⟩

end Date
end LiveTail.Time
