import LiveTail.Rows.HeightIndex
import LiveTail.Rows.Position
import LiveTail.Rows.Window
import Std.Data.TreeMap.Basic

/-! The viewport over a growing list of rows.

Each row belongs to a sequence number, and the numbers are consecutive from
`first?`. A row has the estimated height until it is measured. The view is either
pinned to the last row or paused at an offset; scrolling pauses it, `follow` pins
it, and nothing else does either. While pinned, the offset is computed from the
bottom at each use, so that appended rows are followed. -/
namespace LiveTail.Rows

structure Viewport where
  heights : HeightIndex
  /-- The sequence number of row zero. -/
  first? : Option Nat
  /-- The heights measured, by sequence number. -/
  measured : Std.TreeMap Nat Nat
  settings : Settings
  /-- The offset of a paused view, as last stored. -/
  stored : Nat
  /-- The height of the screen at the last window. -/
  height : Nat
  pinned : Bool

namespace Viewport

/-- No rows, pinned. -/
def new (settings : Settings) : Viewport :=
  { heights := HeightIndex.ofCapacity 64
    first? := none
    measured := ∅
    settings
    stored := 0
    height := 0
    pinned := true }

def size (v : Viewport) : Nat := v.heights.size

def isEmpty (v : Viewport) : Bool := v.heights.isEmpty

def total (v : Viewport) : Nat := v.heights.total

/-- The row of a sequence number. -/
def rowOf? (v : Viewport) (sequence : Nat) : Option Nat :=
  match v.first? with
  | none => none
  | some first =>
    if first ≤ sequence ∧ sequence - first < v.size then some (sequence - first) else none

def rowHeight? (v : Viewport) (sequence : Nat) : Option Nat :=
  (v.rowOf? sequence).map v.heights.height

/-- The line on which a record's row starts. -/
def startOf? (v : Viewport) (sequence : Nat) : Option Nat :=
  (v.rowOf? sequence).map v.heights.start

/-- The offset that shows the last line at the bottom of the screen. -/
def lowest (v : Viewport) : Nat := v.total - v.height

/-- The line at the top of the screen. -/
def offset (v : Viewport) : Nat := if v.pinned then v.lowest else min v.stored v.lowest

/-! ### Rows come, change and go -/

/-- Appends a row for the next sequence number, at the estimated height. -/
def push (v : Viewport) (sequence : Nat) : Viewport :=
  { v with
    first? := some (v.first?.getD sequence)
    heights := v.heights.push v.settings.estimate.lines }

/-- Stores a measured height. A paused view moves with the change when the row
starts above its top line. -/
def remeasure (v : Viewport) (row sequence : Nat) (height : RowHeight) : Viewport :=
  let heights := v.heights.set row height.lines
  let shifted := v.stored + height.lines - v.heights.height row
  { v with
    heights
    measured := v.measured.insert sequence height.lines
    stored := if !v.pinned && heights.start row < v.stored then shifted else v.stored }

/-- Takes the height a record was drawn at. The answer tells whether the record
has a row. -/
def measure (v : Viewport) (sequence height : Nat) : Except SettingsError (Bool × Viewport) := do
  let height ← RowHeight.of? height
  match v.rowOf? sequence with
  | none => return (false, v)
  | some row => return (true, v.remeasure row sequence height)

/-- Puts one record's row back to the estimated height. -/
def estimateRow (v : Viewport) (heights : HeightIndex) (sequence : Nat) : HeightIndex :=
  match v.rowOf? sequence with
  | none => heights
  | some row => heights.set row v.settings.estimate.lines

/-- Forgets all measured heights. -/
def resetMeasured (v : Viewport) : Viewport :=
  { v with
    heights := v.measured.keys.foldl v.estimateRow v.heights
    measured := ∅ }

/-- Drops the rows of the oldest records; a paused view keeps its place in what
is left. -/
def evict (v : Viewport) (count : Nat) : Viewport :=
  let count := min count v.size
  match v.first? with
  | none => v
  | some first =>
    if count = 0 then v
    else
      let dropped := v.heights.dropFront count
      let next := first + count
      { v with
        heights := dropped.2
        measured := v.measured.filter fun sequence _ => next ≤ sequence
        first? := if dropped.2.isEmpty then none else some next
        stored := v.stored - dropped.1 }

/-- Drops all rows. Whether the view is pinned stays. -/
def clear (v : Viewport) : Viewport :=
  { v with heights := v.heights.clear, first? := none, measured := ∅, stored := 0 }

/-! ### The view moves -/

def follow (v : Viewport) : Viewport := { v with pinned := true }

def scrollTo (v : Viewport) (p : Position) : Viewport :=
  { v with stored := p.resolve v.total v.height v.startOf?, pinned := false }

def scrollBy (v : Viewport) (delta : Int) : Viewport :=
  { v with stored := min (Word.move v.offset delta) v.lowest, pinned := false }

/-! ### The window -/

/-- The rows that meet the screen, or the last one at the very end. -/
def visible (v : Viewport) (offset : Nat) : Span :=
  let last := v.size - 1
  { first := (v.heights.rowAt? offset).getD last
    last := (v.heights.rowAt? (offset + max v.height 1 - 1)).getD last }

/-- Remembers the height of the screen, and settles the offset of a paused view. -/
def resize (v : Viewport) (height : Nat) : Viewport :=
  let v := { v with height }
  if v.pinned || v.isEmpty then v else { v with stored := v.offset }

/-- The window a view of settled size shows. -/
def window? (v : Viewport) : Option Window :=
  if v.isEmpty then none
  else
    let offset := v.offset
    let span := (v.visible offset).widen v.settings.overscan v.size
    let heights := (List.range' span.first span.size).map v.heights.height
    some
      { first := span.first
        last := span.last
        starts := startsFrom (v.heights.start span.first) heights
        total := v.total
        scroll := offset
        viewport := v.height }

/-- The window for a screen of the given height. -/
def window (v : Viewport) (height : Nat) : Option Window × Viewport :=
  let v := v.resize height
  (v.window?, v)

end Viewport
end LiveTail.Rows
