import LiveTail.Number.Binary
import LiveTail.Number.Whole

/-! Where a scroll asks to go.

A position keeps the intent until it is resolved against the heights of the
moment. Every position resolves to an offset that leaves no blank line below the
content (`resolve_le`). -/
namespace LiveTail.Rows
open Number

inductive Position where
  | top
  | bottom
  | line (offset : Nat)
  /-- A line within a record, counted from its first. -/
  | record (sequence line : Nat)
  /-- A share of the scrollable range, as the bits of a 64-bit float. -/
  | fraction (bits : UInt64)
deriving DecidableEq, Repr

namespace Position

instance : Inhabited Position := ⟨top⟩

/-- The first line of a record. -/
def startOf (sequence : Nat) : Position := record sequence 0

/-- A float pattern clamped to zero and one, as a fraction. NaN counts as zero. -/
def clamped (bits : UInt64) : Nat × Nat :=
  match Binary.ofBits bits with
  | .infinite false => (1, 1)
  | .finite false mantissa exponent =>
    let (n, d) := Binary.fraction mantissa exponent
    if d ≤ n then (1, 1) else (n, d)
  | _ => (0, 1)

/-- The magnitude of a finite float pattern as a fraction. -/
def magnitude (bits : UInt64) : Nat × Nat :=
  match Binary.ofBits bits with
  | .finite _ mantissa exponent => Binary.fraction mantissa exponent
  | _ => (0, 1)

/-- The share `bits` of a range: the range and then the product are rounded to
floats, and the product to a whole number, halves up. -/
def share (bits : UInt64) (range : Nat) : Nat :=
  let (n, d) := clamped bits
  let (m, e) := magnitude (Binary.ofNat range)
  let (p, q) := magnitude (Binary.nearest false (n * m) (d * e))
  Binary.roundUp p q

/-- The offset a position stands for. `startOf?` gives the line on which a record
starts while it is held; a record that is gone resolves to the top. -/
def resolve (p : Position) (total viewport : Nat) (startOf? : Nat → Option Nat) : Nat :=
  let bottom := total - viewport
  let wanted := match p with
    | .top => 0
    | .bottom => bottom
    | .line offset => offset
    | .record sequence within => ((startOf? sequence).map (Word.add · within)).getD 0
    | .fraction bits => share bits bottom
  min wanted bottom

theorem resolve_le (p : Position) (total viewport : Nat) (startOf? : Nat → Option Nat) :
    p.resolve total viewport startOf? ≤ total - viewport := Nat.min_le_right ..

end Position
end LiveTail.Rows
