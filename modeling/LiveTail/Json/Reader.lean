import LiveTail.Json.Value
import LiveTail.Number.Numeral

/-! Reading JSON.

A reader takes text and gives a value with the text after it, or nothing when the
text breaks the grammar. Arrays and objects may be nested to a bound. Where a
value is not wanted, `skip` goes past it and checks the grammar only: it is not
bounded, and it asks neither that an escape names a character nor that a number
has a float. -/
namespace LiveTail.Json.Reader
open Number

/-- A piece at the front of a text, and what follows it. -/
abbrev Scan (α : Type) := List Char → Option (α × List Char)

def isBlank (c : Char) : Bool := c == ' ' || c == '\t' || c == '\n' || c == '\r'

def skipBlank (text : List Char) : List Char := text.dropWhile isBlank

/-! ### Strings -/

def hexDigit? (c : Char) : Option Nat :=
  if '0' ≤ c && c ≤ '9' then some (c.toNat - '0'.toNat)
  else if 'a' ≤ c && c ≤ 'f' then some (c.toNat - 'a'.toNat + 10)
  else if 'A' ≤ c && c ≤ 'F' then some (c.toNat - 'A'.toNat + 10)
  else none

/-- The unit that four hexadecimal digits write. -/
def unit? (a b c d : Char) : Option Nat := do
  return 4096 * (← hexDigit? a) + 256 * (← hexDigit? b) + 16 * (← hexDigit? c) + (← hexDigit? d)

/-- What a backslash and one character stand for. -/
def escape? (c : Char) : Option Char :=
  match c with
  | '"' => some '"'
  | '\\' => some '\\'
  | '/' => some '/'
  | 'b' => some '\x08'
  | 'f' => some '\x0c'
  | 'n' => some '\n'
  | 'r' => some '\r'
  | 't' => some '\t'
  | _ => none

def isHigh (unit : Nat) : Bool := 0xD800 ≤ unit && unit < 0xDC00

def isLow (unit : Nat) : Bool := 0xDC00 ≤ unit && unit < 0xE000

/-- The character of two surrogate units. -/
def joined (high low : Nat) : Char :=
  Char.ofNat (0x10000 + 0x400 * (high - 0xD800) + (low - 0xDC00))

/-- The characters up to the closing quote, after those in `front`, last first. -/
def stringFrom (front : List Char) : Scan (List Char)
  | [] => none
  | '"' :: rest => some (front.reverse, rest)
  | '\\' :: 'u' :: a :: b :: c :: d :: '\\' :: 'u' :: e :: f :: g :: h :: rest =>
    match unit? a b c d with
    | none => none
    | some unit =>
      if isHigh unit then
        match unit? e f g h with
        | none => none
        | some low => if isLow low then stringFrom (joined unit low :: front) rest else none
      else if isLow unit then none
      else stringFrom (Char.ofNat unit :: front) ('\\' :: 'u' :: e :: f :: g :: h :: rest)
  | '\\' :: 'u' :: a :: b :: c :: d :: rest =>
    match unit? a b c d with
    | none => none
    | some unit =>
      if isHigh unit || isLow unit then none else stringFrom (Char.ofNat unit :: front) rest
  | '\\' :: c :: rest =>
    match escape? c with
    | none => none
    | some c => stringFrom (c :: front) rest
  | c :: rest => if c.toNat < 0x20 then none else stringFrom (c :: front) rest

/-- A quoted string. -/
def string : Scan String
  | '"' :: rest => (stringFrom [] rest).map fun (s, rest) => (String.ofList s, rest)
  | _ => none

/-- Goes past the rest of a string. -/
def skipString : List Char → Option (List Char)
  | [] => none
  | '"' :: rest => some rest
  | '\\' :: 'u' :: a :: b :: c :: d :: rest =>
    if (unit? a b c d).isSome then skipString rest else none
  | '\\' :: c :: rest => if (escape? c).isSome then skipString rest else none
  | c :: rest => if c.toNat < 0x20 then none else skipString rest

/-! ### Numbers -/

/-- The parts of a number: its sign, its digits before and after the point, and
its exponent. -/
structure Parts where
  negative : Bool
  whole : List Char
  places : List Char
  exponent : Option Int

/-- Digits without a zero in front, unless zero is all. -/
def whole : Scan (List Char) := fun text =>
  match Numeral.span text with
  | ([], _) => none
  | ('0' :: _ :: _, _) => none
  | (digits, rest) => some (digits, rest)

/-- Digits after a point, at least one; nothing without a point. -/
def places : Scan (List Char)
  | '.' :: rest =>
    let (digits, rest) := Numeral.span rest
    if digits.isEmpty then none else some (digits, rest)
  | text => some ([], text)

/-- An exponent after `e`; nothing without it. -/
def exponent : Scan (Option Int)
  | [] => some (none, [])
  | c :: rest =>
    if c = 'e' ∨ c = 'E' then
      let (negative, rest) := Numeral.signed rest
      let (digits, rest) := Numeral.span rest
      if digits.isEmpty then none
      else
        let n : Int := Numeral.value digits
        some (some (if negative then -n else n), rest)
    else some (none, c :: rest)

def parts : Scan Parts := fun text => do
  let (negative, text) := match text with
    | '-' :: rest => (true, rest)
    | _ => (false, text)
  let (whole, text) ← whole text
  let (places, text) ← places text
  let (exponent, text) ← exponent text
  return (⟨negative, whole, places, exponent⟩, text)

/-- The value of a number, unless it is too large for a float. Zero with a minus
sign is a float. -/
def Parts.value? (p : Parts) : Option Json :=
  let n := Numeral.value p.whole
  let fits := if p.negative then n ≠ 0 ∧ n ≤ 2 ^ 63 else n < 2 ^ 64
  if p.places.isEmpty ∧ p.exponent.isNone ∧ fits then
    some (.int (if p.negative then -(n : Int) else n))
  else
    let bits := Numeral.nearestDecimal p.negative (Numeral.value (p.whole ++ p.places))
      (p.exponent.getD 0 - p.places.length)
    match Binary.ofBits bits with
    | .finite .. => some (.float bits)
    | _ => none

def number : Scan Json := fun text => do
  let (p, rest) ← parts text
  return (← p.value?, rest)

/-! ### Collections -/

/-- Items between commas up to the closing character, at least one. -/
def elements {α : Type} (item : Scan α) (close : Char) : Nat → Scan (List α)
  | 0, _ => none
  | fuel + 1, text =>
    match item (skipBlank text) with
    | none => none
    | some (a, rest) =>
      match skipBlank rest with
      | ',' :: rest => (elements item close fuel rest).map fun (as, rest) => (a :: as, rest)
      | c :: rest => if c = close then some ([a], rest) else none
      | [] => none

/-- Items between commas up to the closing character. There are fewer of them
than characters. -/
def sequence {α : Type} (item : Scan α) (close : Char) : Scan (List α) := fun text =>
  match skipBlank text with
  | [] => none
  | c :: rest => if c = close then some ([], rest) else elements item close text.length text

/-- A key, a colon and what the key calls for. -/
def member {α : Type} (value : String → Scan α) : Scan α := fun text => do
  let (key, rest) ← string text
  match skipBlank rest with
  | ':' :: rest => value key (skipBlank rest)
  | _ => none

/-- One of the three names. -/
def literal : Scan Json
  | 'n' :: 'u' :: 'l' :: 'l' :: rest => some (.null, rest)
  | 't' :: 'r' :: 'u' :: 'e' :: rest => some (.bool true, rest)
  | 'f' :: 'a' :: 'l' :: 's' :: 'e' :: rest => some (.bool false, rest)
  | _ => none

/-- What is neither array nor object. -/
def scalar : Scan Json := fun text =>
  match text with
  | '"' :: _ => (string text).map fun (s, rest) => (.str s, rest)
  | c :: _ => if c = '-' ∨ c.isDigit then number text else literal text
  | [] => none

/-- A value with arrays and objects nested within a budget. -/
def value (budget : Nat) : Scan Json := fun text =>
  match text, budget with
  | '[' :: rest, inner + 1 =>
    (sequence (value inner) ']' rest).map fun (items, rest) => (.array items, rest)
  | '\x7b' :: rest, inner + 1 =>
    (sequence (member fun key text => (value inner text).map fun (v, rest) => ((key, v), rest))
      '\x7d' rest).map fun (entries, rest) => (.ofEntries entries, rest)
  | _, _ => scalar text

/-- Goes past a value. A text nests no deeper than it is long. -/
def skip (budget : Nat) : Scan Unit := fun text =>
  match text, budget with
  | '[' :: rest, inner + 1 =>
    (sequence (skip inner) ']' rest).map fun (_, rest) => ((), rest)
  | '\x7b' :: rest, inner + 1 =>
    (sequence (member' (skip inner)) '\x7d' rest).map fun (_, rest) => ((), rest)
  | '"' :: rest, _ => (skipString rest).map fun rest => ((), rest)
  | c :: _, _ =>
    if c = '-' ∨ c.isDigit then (parts text).map fun (_, rest) => ((), rest)
    else (literal text).map fun (_, rest) => ((), rest)
  | [], _ => none
where
  /-- A key, a colon and a value, all skipped. -/
  member' (value : Scan Unit) : Scan Unit
    | '"' :: rest => do
      match skipBlank (← skipString rest) with
      | ':' :: rest => value (skipBlank rest)
      | _ => none
    | _ => none

end LiveTail.Json.Reader
