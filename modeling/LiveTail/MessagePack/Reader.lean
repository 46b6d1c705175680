import LiveTail.Number.Whole
import LiveTail.MessagePack.Head
import LiveTail.Text.Utf8

/-! Reading MessagePack.

A reader takes bytes and gives a value with the bytes after it. Nesting is
bounded by a budget: a value costs one, its content one more, and the body of a
string one more again; the items of a collection share what is left. Items are
read one by one, so a collection that announces more than there is ends at the
end of the bytes. -/
namespace LiveTail.MessagePack

inductive ReadError where
  /-- The bytes end where a value should begin. -/
  | head
  /-- The bytes end within a number or a length. -/
  | number
  /-- The bytes end within content of `expected` bytes. -/
  | body (expected read : Nat)
  | depth
deriving DecidableEq, Repr

namespace ReadError

def unfilled : String := "failed to fill whole buffer"

def message : ReadError → String
  | head => "I/O error while reading marker byte: " ++ unfilled
  | number => "I/O error while reading non-marker bytes: " ++ unfilled
  | body expected read =>
    "I/O error while reading non-marker bytes: Expected " ++ toString expected ++ " bytes, read "
      ++ toString read ++ " bytes"
  | depth => "depth limit exceeded"

end ReadError

/-- What is read from some bytes, and the bytes after it. -/
abbrev Read (α : Type) := Except ReadError (α × List UInt8)

namespace Read

def map {α β : Type} (f : α → β) : Read α → Read β
  | .ok (a, rest) => .ok (f a, rest)
  | .error e => .error e

def andThen {α β : Type} (r : Read α) (f : α → List UInt8 → Read β) : Read β :=
  match r with
  | .ok (a, rest) => f a rest
  | .error e => .error e

end Read

namespace Reader

/-- A number of `width` bytes. -/
def number (width : Nat) (bytes : List UInt8) : Read Nat :=
  let digits := bytes.take width
  if digits.length = width then .ok (Bytes.ofBig digits, bytes.drop width) else .error .number

def length (l : Length) (bytes : List UInt8) : Read Nat :=
  match l with
  | .here n => .ok (n, bytes)
  | .next width => number width bytes

/-- Content of `n` bytes. -/
def body (n : Nat) (bytes : List UInt8) : Read (List UInt8) :=
  let content := bytes.take n
  if content.length = n then .ok (content, bytes.drop n)
  else .error (.body n content.length)

/-- A step that costs one of the budget. -/
def costing {α : Type} (budget : Nat) (f : Nat → Read α) : Read α :=
  match budget with
  | 0 => .error .depth
  | left + 1 => f left

/-- So many items, one after the other. -/
def items {α : Type} (item : List UInt8 → Read α) : Nat → List UInt8 → Read (List α)
  | 0, bytes => .ok ([], bytes)
  | n + 1, bytes =>
    (item bytes).andThen fun a rest => (items item n rest).map (a :: ·)

def pair {α : Type} (item : List UInt8 → Read α) (bytes : List UInt8) : Read (α × α) :=
  (item bytes).andThen fun key rest => (item rest).map (key, ·)

def string (bytes : List UInt8) : Value :=
  match Text.Utf8.decode? bytes with
  | some text => .str text
  | none => .rawStr bytes

/-- The content of a string, after its length. -/
def text (budget n : Nat) (bytes : List UInt8) : Read Value :=
  costing budget fun left => costing left fun _ => (body n bytes).map string

/-- The content of an extension, after its length: its type and its bytes. -/
def extension (budget n : Nat) (bytes : List UInt8) : Read Value :=
  costing budget fun left =>
    (number 1 bytes).andThen fun type rest =>
      costing left fun _ => (body n rest).map (.ext (Bytes.signed 1 type))

/-- What follows a head. `child` reads an item of a collection; there is none
when the budget is spent. -/
def content (budget : Nat) (child : Option (List UInt8 → Read Value)) (head : Head)
    (bytes : List UInt8) : Read Value :=
  match head with
  | .value v => .ok (v, bytes)
  | .unsigned width => (number width bytes).map fun (n : Nat) => .int n
  | .signed width => (number width bytes).map fun (n : Nat) => .int (Bytes.signed width n)
  | .float32 => (number 4 bytes).map fun n => .float32 (UInt32.ofNat n)
  | .float64 => (number 8 bytes).map fun n => .float64 (UInt64.ofNat n)
  | .str l => (length l bytes).andThen fun n rest => text budget n rest
  | .bin l => (length l bytes).andThen fun n rest =>
      costing budget fun _ => (body n rest).map .bin
  | .ext l => (length l bytes).andThen fun n rest => extension budget n rest
  | .array l => (length l bytes).andThen fun n rest =>
      match child with
      | none => .error .depth
      | some item => (items item n rest).map .array
  | .map l => (length l bytes).andThen fun n rest =>
      match child with
      | none => .error .depth
      | some item => (items (pair item) n rest).map .map

/-- One value within a budget. -/
def value (budget : Nat) (bytes : List UInt8) : Read Value :=
  match budget with
  | 0 => .error .depth
  | left + 1 =>
    match bytes with
    | [] => .error .head
    | b :: rest =>
      let child := match left with
        | 0 => none
        | inner + 1 => some (value inner)
      content left child (Head.ofByte b) rest

/-- The nesting allowed. -/
def budget : Nat := 1024

end Reader

/-- Reads one value from the front of some bytes. -/
def read (bytes : List UInt8) : Read Value := Reader.value Reader.budget bytes

end LiveTail.MessagePack
