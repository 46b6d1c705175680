import LiveTail.Screen.Scrollbar
import LiveTail.Tail
import LiveTail.View.Line

/-! The log pane: the records in the window, wrapped, with a scrollbar beside them.

The heights of rows are known only once their records are wrapped. So the window is
asked for, the records in it are wrapped and their heights reported, and this is
done again as long as a height was new, though only so many times. When the width
changes, all heights are forgotten. What is painted stands where a last window puts
it. -/
namespace LiveTail.View
open Screen Rows

/-- How often heights are measured for one picture. -/
def measuringPasses : Nat := 3

/-- What is shown while there are no records. -/
def placeholder : String := "waiting for log records..."

structure Pane where
  /-- The columns to which the heights belong. -/
  wrapWidth : Option Nat := none
  height : Nat := 0
  /-- The window of the last picture. -/
  window : Option Window := none
deriving DecidableEq, Repr, Inhabited

/-- A record with its row and its lines. -/
structure Block where
  row : Nat
  record : LogRecord
  lines : List (List Char)

/-- A line on the screen. -/
structure Placed where
  y : Nat
  record : LogRecord
  /-- Which of its record's lines it is. -/
  index : Nat
  text : List Char

/-- The columns left for text beside the scrollbar. -/
def textWidth (width : Nat) : Nat := max (width - 1) 1

/-- The greatest height that is reported. -/
def mostLines : Nat := 65535

variable {ε : Type}

/-- Wraps the records in a window. -/
def blocks (t : Tail ε) (w : Window) (width : Nat) : List Block :=
  w.rows.filterMap fun row =>
    (t.backlog.at? row).map fun e => ⟨row, e.record, recordLines e.record width⟩

/-- The heights of blocks that differ from what is known, with the numbers of the
records. -/
def news (t : Tail ε) (bs : List Block) : List (Nat × Nat) :=
  bs.filterMap fun b => do
    let sequence := (← t.backlog.at? b.row).sequence
    let height := min b.lines.length mostLines
    if t.viewport.rowHeight? sequence = some height then none else some (sequence, height)

/-- Reports heights; one that is refused changes nothing. -/
def report (t : Tail ε) (heights : List (Nat × Nat)) : Tail ε :=
  heights.foldl (fun t (sequence, height) =>
    match t.measure sequence height with
    | .ok (_, t) => t
    | .error _ => t) t

/-- Measures up to `n` times more; gives the blocks of the last time. -/
def settle (t : Tail ε) (width height : Nat) (last : Option (Window × List Block)) :
    Nat → Option (Window × List Block) × Tail ε
  | 0 => (last, t)
  | n + 1 =>
    match t.window height with
    | (none, t) => (last, t)
    | (some w, t) =>
      let bs := blocks t w width
      match news t bs with
      | [] => (some (w, bs), t)
      | heights => settle (report t heights) width height (some (w, bs)) n

/-- Puts the lines of blocks where a window has them. -/
def place (w : Window) (bs : List Block) (height : Nat) : List Placed :=
  bs.flatMap fun b =>
    match w.screenRow? b.row with
    | some top =>
      b.lines.zipIdx.filterMap fun (text, k) =>
        let y := top + k
        if 0 ≤ y ∧ y < height then some ⟨y.toNat, b.record, k, text⟩ else none
    | none => []

/-- A picture of the pane: lines and the window that put them there. -/
structure Picture where
  window : Window
  lines : List Placed

namespace Pane

/-- Lays out a picture for an area that is not empty; there is none without records. -/
def layout (p : Pane) (t : Tail ε) (width height : Nat) : Option Picture × Pane × Tail ε :=
  let columns := textWidth width
  let t := if p.wrapWidth = some columns then t else t.resetMeasured
  let p := { p with wrapWidth := some columns, height }
  match settle t columns height none measuringPasses with
  | (none, t) => (none, { p with window := none }, t)
  | (some (w, bs), t) =>
    let (fresh, t) := t.window height
    let w := fresh.getD w
    (some ⟨w, place w bs height⟩, { p with window := some w }, t)

/-- Draws the lines of a picture, each over what is there. -/
def paintLines (colors : Palette) (ls : List Placed) (a : Area) (c : Canvas) : Canvas :=
  ls.foldl (fun c l =>
    c.writeLine a.x (a.y + l.y) (textWidth a.width)
      (styledLine colors l.record (l.index == 0) l.text)) c

/-- Draws the pane into an area. -/
def draw (p : Pane) (t : Tail ε) (colors : Palette) (a : Area) (c : Canvas) :
    Canvas × Pane × Tail ε :=
  if a.isEmpty then (c, p, t)
  else
    match p.layout t a.width a.height with
    | (none, p, t) =>
      ((c.write a.x a.y c.width
        ⟨placeholder.toList, { color := some .darkGray }⟩).2, p, t)
    | (some picture, p, t) =>
      let bar : Scrollbar :=
        { length := picture.window.total - a.height
          position := picture.window.scroll
          viewport := a.height }
      (bar.draw a (paintLines colors picture.lines a c), p, t)

end Pane
end LiveTail.View
