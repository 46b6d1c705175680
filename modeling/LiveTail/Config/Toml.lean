import LiveTail.Number.Numeral
import LiveTail.Json.Reader

/-! Reading flat TOML documents: lines that give a key a text or a whole number.

Keys may be quoted, texts may be written in all four ways, and numbers in decimal
or with a prefix for hexadecimal, octal and binary. Tables, arrays, dates, floats and
truth values are not read: no document that has them is flat. -/
namespace LiveTail.Config.Toml
open Number
open Json.Reader (hexDigit?)

inductive Scalar where
  | text (s : String)
  | whole (n : Int)
deriving DecidableEq, Repr

/-- A piece at the front of a text, and what follows it. -/
abbrev Scan (α : Type) := List Char → Option (α × List Char)

def isBlank (c : Char) : Bool := c == ' ' || c == '\t'

def skipBlank (text : List Char) : List Char := text.dropWhile isBlank

/-- Characters that may stand in a comment, and in a text unless they end or escape. -/
def isPlain (c : Char) : Bool := c == '\t' || (0x20 ≤ c.toNat && c.toNat != 0x7F)

/-- What follows a newline. -/
def newline? : List Char → Option (List Char)
  | '\n' :: rest => some rest
  | '\r' :: '\n' :: rest => some rest
  | _ => none

/-- What follows the end of a line, perhaps with a comment. -/
def lineEnd? (text : List Char) : Option (List Char) :=
  let text := match skipBlank text with
    | '#' :: rest => rest.dropWhile isPlain
    | rest => rest
  if text.isEmpty then some [] else newline? text

/-! ### Texts -/

/-- What a backslash and one character stand for. -/
def escape? (c : Char) : Option Char :=
  match c with
  | '"' => some '"'
  | '\\' => some '\\'
  | 'b' => some '\x08'
  | 'f' => some '\x0c'
  | 'n' => some '\n'
  | 'r' => some '\r'
  | 't' => some '\t'
  | _ => none

/-- The character that hexadecimal digits name. -/
def named? (digits : List Char) : Option Char := do
  let ns ← digits.mapM hexDigit?
  let n := ns.foldl (fun n d => 16 * n + d) 0
  if n < 0xD800 ∨ (0xE000 ≤ n ∧ n ≤ 0x10FFFF) then some (Char.ofNat n) else none

/-- The characters up to the quote that ends a text on one line, after those in `front`,
last first. -/
def basicFrom (front : List Char) : Scan (List Char)
  | [] => none
  | '"' :: rest => some (front.reverse, rest)
  | '\\' :: 'u' :: a :: b :: c :: d :: rest =>
    match named? [a, b, c, d] with
    | some x => basicFrom (x :: front) rest
    | none => none
  | '\\' :: 'U' :: a :: b :: c :: d :: e :: f :: g :: h :: rest =>
    match named? [a, b, c, d, e, f, g, h] with
    | some x => basicFrom (x :: front) rest
    | none => none
  | '\\' :: c :: rest =>
    match escape? c with
    | some x => basicFrom (x :: front) rest
    | none => none
  | c :: rest => if isPlain c then basicFrom (c :: front) rest else none

/-- The characters up to the apostrophe that ends a text without escapes. -/
def literalFrom (front : List Char) : Scan (List Char)
  | [] => none
  | '\'' :: rest => some (front.reverse, rest)
  | c :: rest => if isPlain c then literalFrom (c :: front) rest else none

/-- How the next character of a text on many lines is taken. -/
inductive Mode where
  | text
  /-- A backslash asks for a newline here. -/
  | seek
  /-- Blanks and newlines are dropped, up to the next other character. -/
  | trim
deriving DecidableEq, Repr

/-- The characters up to the three quotes that end a text on many lines. Two more
quotes before them belong to the text, and newlines are all alike. -/
def basicLinesFrom (front : List Char) (mode : Mode) : Scan (List Char)
  | [] => none
  | '"' :: '"' :: '"' :: '"' :: '"' :: rest =>
    if mode = .seek then none else some (('"' :: '"' :: front).reverse, rest)
  | '"' :: '"' :: '"' :: '"' :: rest =>
    if mode = .seek then none else some (('"' :: front).reverse, rest)
  | '"' :: '"' :: '"' :: rest => if mode = .seek then none else some (front.reverse, rest)
  | '\\' :: 'u' :: a :: b :: c :: d :: rest =>
    match if mode = .seek then none else named? [a, b, c, d] with
    | some x => basicLinesFrom (x :: front) .text rest
    | none => none
  | '\\' :: 'U' :: a :: b :: c :: d :: e :: f :: g :: h :: rest =>
    match if mode = .seek then none else named? [a, b, c, d, e, f, g, h] with
    | some x => basicLinesFrom (x :: front) .text rest
    | none => none
  | '\\' :: c :: rest =>
    if mode = .seek then none
    else
      match escape? c with
      | some x => basicLinesFrom (x :: front) .text rest
      | none =>
        if c = '\n' then basicLinesFrom front .trim rest
        else if isBlank c ∨ (c = '\r' ∧ rest.head? = some '\n') then
          basicLinesFrom front .seek rest
        else none
  | c :: rest =>
    if c = '\r' ∧ rest.head? = some '\n' then basicLinesFrom front mode rest
    else
      match mode with
      | .seek =>
        if c = '\n' then basicLinesFrom front .trim rest
        else if isBlank c then basicLinesFrom front .seek rest
        else none
      | .trim =>
        if c = '\n' ∨ isBlank c then basicLinesFrom front .trim rest
        else if isPlain c then basicLinesFrom (c :: front) .text rest
        else none
      | .text =>
        if c = '\n' ∨ isPlain c then basicLinesFrom (c :: front) .text rest else none

/-- The characters up to the three apostrophes that end a text on many lines without
escapes. -/
def literalLinesFrom (front : List Char) : Scan (List Char)
  | [] => none
  | '\'' :: '\'' :: '\'' :: '\'' :: '\'' :: rest => some (('\'' :: '\'' :: front).reverse, rest)
  | '\'' :: '\'' :: '\'' :: '\'' :: rest => some (('\'' :: front).reverse, rest)
  | '\'' :: '\'' :: '\'' :: rest => some (front.reverse, rest)
  | c :: rest =>
    if c = '\r' ∧ rest.head? = some '\n' then literalLinesFrom front rest
    else if c = '\n' ∨ isPlain c then literalLinesFrom (c :: front) rest
    else none

/-- A text on many lines starts after a newline that follows its quotes. -/
def dropNewline (text : List Char) : List Char := (newline? text).getD text

/-- A text on one line. -/
def line : Scan (List Char)
  | '"' :: rest => basicFrom [] rest
  | '\'' :: rest => literalFrom [] rest
  | _ => none

def text : Scan (List Char)
  | '"' :: '"' :: '"' :: rest => basicLinesFrom [] .text (dropNewline rest)
  | '\'' :: '\'' :: '\'' :: rest => literalLinesFrom [] (dropNewline rest)
  | rest => line rest

/-! ### Whole numbers -/

/-- Digits, without the underscores between them. -/
def digits? (isDigit : Char → Bool) : List Char → Option (List Char)
  | [] => none
  | [c] => if isDigit c then some [c] else none
  | c :: '_' :: rest => if isDigit c then (digits? isDigit rest).map (c :: ·) else none
  | c :: rest => if isDigit c then (digits? isDigit rest).map (c :: ·) else none

/-- A number in a base up to sixteen. -/
def based? (base : Nat) (text : List Char) : Option Int := do
  let digits ← digits? (fun c => (hexDigit? c).any (· < base)) text
  return digits.foldl (fun n c => base * n + ((hexDigit? c).getD 0)) 0

/-- A decimal number; a zero in front must be all. -/
def decimal? (text : List Char) : Option Int := do
  let digits ← digits? Char.isDigit text
  if digits.head? = some '0' ∧ 1 < digits.length then none
  return Numeral.value digits

/-- A whole number of 64 bits with a sign. -/
def whole? (text : List Char) : Option Int := do
  let n ← match text with
    | '0' :: 'x' :: digits => based? 16 digits
    | '0' :: 'o' :: digits => based? 8 digits
    | '0' :: 'b' :: digits => based? 2 digits
    | '-' :: digits => (decimal? digits).map (- ·)
    | '+' :: digits => decimal? digits
    | digits => decimal? digits
  if -2 ^ 63 ≤ n ∧ n < 2 ^ 63 then some n else none

/-- Characters of numbers and of keys without quotes. -/
def isBare (c : Char) : Bool := c.isAlphanum || c == '_' || c == '-'

/-! ### Documents -/

def scalar : Scan Scalar := fun front =>
  match text front with
  | some (s, rest) => some (.text (String.ofList s), rest)
  | none => do
    let isNumeral (c : Char) : Bool := isBare c || c == '+'
    let n ← whole? (front.takeWhile isNumeral)
    return (.whole n, front.dropWhile isNumeral)

def key : Scan String := fun front =>
  match line front with
  | some (s, rest) => some (String.ofList s, rest)
  | none =>
    match front.takeWhile isBare with
    | [] => none
    | name => some (String.ofList name, front.dropWhile isBare)

/-- A key with its value, up to the end of the line. -/
def entry : Scan (String × Scalar) := fun front => do
  let (k, rest) ← key front
  match skipBlank rest with
  | '=' :: rest =>
    let (v, rest) ← scalar (skipBlank rest)
    return ((k, v), ← lineEnd? rest)
  | _ => none

/-- The entries of up to `n` lines, which are all lines. -/
def entries : Nat → List Char → Option (List (String × Scalar))
  | 0, _ => none
  | n + 1, front =>
    match skipBlank front with
    | [] => some []
    | front =>
      match lineEnd? front with
      | some rest => entries n rest
      | none => do
        let (e, rest) ← entry front
        return e :: (← entries n rest)

/-- The entries of a document, which may start with a byte order mark. No key occurs
twice. -/
def read? (document : String) : Option (List (String × Scalar)) := do
  let front := match document.toList with
    | '\uFEFF' :: rest => rest
    | front => front
  let es ← entries (front.length + 1) front
  if (es.map Prod.fst).Nodup then some es else none

end LiveTail.Config.Toml
