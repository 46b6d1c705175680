import LiveTail.Text.Classes
import LiveTail.Time.Instant

/-! Reading instants from text.

Two forms are read. A zoned time has fields of fixed width and a zone
(`2025-03-01T12:00:00.5+02:00`); a naive time has no zone, its fields may be
short or stand behind white space, and its year may have a sign. A naive time is
universal time. -/
namespace LiveTail.Time.Reader
open Number

/-- A piece at the front of a text, and what follows it. -/
abbrev Scan (α : Type) := List Char → Option (α × List Char)

/-- As many digits as there are, from `least` to `most`. -/
def number (least most : Nat) : Scan Nat := fun text =>
  let digits := (text.take most).takeWhile Char.isDigit
  if digits.length < least then none
  else some (Numeral.value digits, text.drop digits.length)

def mark (c : Char) : Scan Unit
  | d :: rest => if c = d then some ((), rest) else none
  | [] => none

/-- A fraction of a second in nanoseconds: nothing, or a point and digits. Digits
after the ninth are dropped. -/
def fraction : Scan Nat
  | '.' :: rest =>
    let (digits, rest) := Numeral.span rest
    if digits.isEmpty then none
    else
      let nine := digits.take 9
      some (Numeral.value nine * 10 ^ (9 - nine.length), rest)
  | text => some (0, text)

/-- A zone as seconds east: `z`, or a sign, two digits of hours and two of minutes. -/
def zone : Scan Int
  | 'Z' :: rest | 'z' :: rest => some (0, rest)
  | c :: rest => do
    let sign ← if c = '+' then some 1 else if c = '-' ∨ c = '−' then some (-1) else none
    let (hours, rest) ← number 2 2 rest
    let ((), rest) ← mark ':' rest
    let (minutes, rest) ← number 2 2 rest
    if hours < 24 ∧ minutes < 60 then some (sign * (3600 * hours + 60 * minutes : Int), rest)
    else none
  | [] => none

def separator : Scan Unit
  | c :: rest => if c = 'T' ∨ c = 't' ∨ c = ' ' then some ((), rest) else none
  | [] => none

/-- A day and a clock with a zone. -/
def zoned? (text : List Char) : Option Instant := do
  let (year, text) ← number 4 4 text
  let ((), text) ← mark '-' text
  let (month, text) ← number 2 2 text
  let ((), text) ← mark '-' text
  let (day, text) ← number 2 2 text
  let ((), text) ← separator text
  let (hour, text) ← number 2 2 text
  let ((), text) ← mark ':' text
  let (minute, text) ← number 2 2 text
  let ((), text) ← mark ':' text
  let (second, text) ← number 2 2 text
  let (nanos, text) ← fraction text
  let (east, text) ← zone text
  if text.isEmpty then Instant.of? ⟨year, month, day⟩ ⟨hour, minute, second, nanos⟩ east else none

/-- One or two digits behind white space. -/
def loose : Scan Nat := fun text => number 1 2 (Text.trimStart text)

/-- Up to four digits, or a sign and any number of them, behind white space. -/
def looseYear : Scan Int := fun text =>
  match Text.trimStart text with
  | '-' :: rest => (number 1 rest.length rest).map fun (n, rest) => (-(n : Int), rest)
  | '+' :: rest => (number 1 rest.length rest).map fun (n, rest) => ((n : Int), rest)
  | text => (number 1 4 text).map fun (n, rest) => ((n : Int), rest)

/-- A day and a clock of universal time. -/
def naive? (text : List Char) : Option Instant := do
  let (year, text) ← looseYear text
  let ((), text) ← mark '-' text
  let (month, text) ← loose text
  let ((), text) ← mark '-' text
  let (day, text) ← loose text
  let ((), text) ← mark 'T' text
  let (hour, text) ← loose text
  let ((), text) ← mark ':' text
  let (minute, text) ← loose text
  let ((), text) ← mark ':' text
  let (second, text) ← loose text
  let (nanos, text) ← fraction text
  if text.isEmpty then Instant.of? ⟨year, month, day⟩ ⟨hour, minute, second, nanos⟩ 0 else none

/-- A zoned time, or else a naive one. -/
def read? (text : List Char) : Option Instant := zoned? text <|> naive? text

end LiveTail.Time.Reader
