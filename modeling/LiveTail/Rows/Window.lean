import LiveTail.Rows.Settings
import LiveTail.Number.Whole

/-! The window: which rows are laid out, and where each of them starts.

`Window.ofHeights` computes it by one scan over the heights. It is the reference
for the indexed computation in `Viewport`. -/
namespace LiveTail.Rows

structure Window where
  /-- The first and the last row laid out. -/
  first : Nat
  last : Nat
  /-- The line on which each row laid out starts. -/
  starts : List Nat
  total : Nat
  scroll : Nat
  viewport : Nat
deriving DecidableEq, Repr

namespace Window

def size (w : Window) : Nat := w.last - w.first + 1

/-- The rows laid out, in order. -/
def rows (w : Window) : List Nat := List.range' w.first w.size

def contains (w : Window) (row : Nat) : Bool := w.first ≤ row && row ≤ w.last

/-- The line on which a row laid out starts. -/
def start? (w : Window) (row : Nat) : Option Nat :=
  if w.first ≤ row then w.starts[row - w.first]? else none

/-- Where a row laid out starts on the screen; negative above its top. -/
def screenRow? (w : Window) (row : Nat) : Option Int :=
  (w.start? row).map fun (line : Nat) => (line : Int) - w.scroll

end Window

/-- A run of rows, both ends included. -/
structure Span where
  first : Nat
  last : Nat
deriving DecidableEq, Repr

namespace Span

/-- Widens a span by `rows` on each side, within the first `size` rows. -/
def widen (s : Span) (rows size : Nat) : Span :=
  ⟨s.first - rows, min (Word.add s.last rows) (size - 1)⟩

def size (s : Span) : Nat := s.last + 1 - s.first

end Span

/-- The line on which each row starts, the first of them on `line`. -/
def startsFrom (line : Nat) : List Nat → List Nat
  | [] => []
  | h :: rest => line :: startsFrom (line + h) rest

/-- The last row that starts on `line` or before it. -/
def rowContaining (starts : List Nat) (line : Nat) : Nat :=
  (starts.takeWhile (· ≤ line)).length - 1

namespace Window

/-- The window over the given heights: no rows have none, and a row without
height is refused. -/
def ofHeights (viewport scroll : Nat) (heights : List Nat) (overscan : Nat) :
    Except SettingsError (Option Window) :=
  if heights.isEmpty then .ok none
  else if heights.any (· == 0) then .error .zeroRowHeight
  else
    let starts := startsFrom 0 heights
    let total := heights.sum
    let offset := min scroll (total - viewport)
    let visible : Span :=
      ⟨rowContaining starts offset, rowContaining starts (offset + max viewport 1 - 1)⟩
    let span := visible.widen overscan heights.length
    .ok (some
      { first := span.first
        last := span.last
        starts := (starts.drop span.first).take span.size
        total
        scroll := offset
        viewport })

end Window
end LiveTail.Rows
