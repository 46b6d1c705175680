import LiveTail.Screen.Style
import LiveTail.Text.Grapheme

/-! The canvas: rows of cells, each of which shows a grapheme.

A grapheme of two columns is held by the first of its two cells and hides the
second. Text is written grapheme by grapheme; those that show nothing are left out,
and writing stops before the first that does not fit. Cells that nothing is written
to keep what they show. -/
namespace LiveTail.Screen
open Text

structure Cell where
  symbol : List Char := [' ']
  style : Style := {}
deriving DecidableEq, Repr, Inhabited

/-- Shows a grapheme in a style; where the style leaves the colour alone, it stays, and
weight is only added. -/
def Cell.put (c : Cell) (symbol : List Char) (style : Style) : Cell :=
  { symbol, style := ⟨style.color <|> c.style.color, style.bold || c.style.bold⟩ }

abbrev Row := List Cell

structure Canvas where
  width : Nat
  rows : List Row

namespace Row

/-- Shows a grapheme from a column on, and blanks the cells it hides. -/
def put (r : Row) (x : Nat) (symbol : List Char) (style : Style) : Row :=
  (List.range' (x + 1) (Grapheme.width symbol - 1)).foldl (fun r x => r.set x {})
    (r.modify x fun c => c.put symbol style)

/-- Writes graphemes from column `x` on, within `room` columns. Gives the column after
them. -/
def write (r : Row) (x room : Nat) (style : Style) : List (List Char) → Nat × Row
  | [] => (x, r)
  | g :: rest =>
    let w := Grapheme.width g
    if w ≤ room then (r.put x g style).write (x + w) (room - w) style rest else (x, r)

end Row

/-- Controls, which are never shown. -/
def isControl (c : Char) : Bool := c.toNat < 0x20 || (0x7F ≤ c.toNat && c.toNat < 0xA0)

/-- The graphemes of a text that show something. -/
def shown (text : List Char) : List (List Char) :=
  (Grapheme.split text).filter fun g => !g.any isControl && 0 < Grapheme.width g

namespace Canvas

/-- An empty canvas. -/
def blank (width height : Nat) : Canvas :=
  ⟨width, List.replicate height (List.replicate width {})⟩

/-- Writes text from a cell on, within `room` columns and the canvas. Gives the column
after it. -/
def write (c : Canvas) (x y room : Nat) (s : Styled) : Nat × Canvas :=
  match c.rows[y]? with
  | some row =>
    let (x, row) := row.write x (min (c.width - x) room) s.style (shown s.text)
    (x, { c with rows := c.rows.set y row })
  | none => (x, c)

/-- Writes a styled line from a cell on, within `room` columns. -/
def writeLine (c : Canvas) (x y room : Nat) : List Styled → Canvas
  | [] => c
  | s :: rest =>
    if room = 0 then c
    else
      let (next, c) := c.write x y room s
      c.writeLine next y (room - (next - x)) rest

/-- Writes a styled line like `writeLine`, but nothing after what does not fit. -/
def writeCut (c : Canvas) (x y room : Nat) : List Styled → Canvas
  | [] => c
  | s :: rest =>
    let (next, c) := c.write x y room s
    if ((shown s.text).map Grapheme.width).sum ≤ room then c.writeCut next y (room - (next - x)) rest
    else c

end Canvas

/-! ### Looking at a canvas -/

namespace Row

/-- The cells that can be seen, with their columns; `hidden` more are hidden first. -/
def visible (x hidden : Nat) : Row → List (Nat × Cell)
  | [] => []
  | c :: rest =>
    if 0 < hidden then visible (x + 1) (hidden - 1) rest
    else (x, c) :: visible (x + 1) (Grapheme.width c.symbol - 1) rest

/-- What a row shows. -/
def text (r : Row) : String :=
  String.ofList ((visible 0 0 r).flatMap fun e => e.2.symbol)

end Row

/-- Neighbouring cells of one style in a row, both ends included. -/
structure Run where
  row : Nat
  first : Nat
  last : Nat
  style : Style
deriving DecidableEq, Repr

/-- Joins a cell to the runs before it in its row, the latest first. -/
def joinRun (y : Nat) (runs : List Run) (e : Nat × Cell) : List Run :=
  if e.2.style = {} then runs
  else
    match runs with
    | r :: rest =>
      if r.last + 1 = e.1 ∧ r.style = e.2.style then { r with last := e.1 } :: rest
      else ⟨y, e.1, e.1, e.2.style⟩ :: runs
    | [] => [⟨y, e.1, e.1, e.2.style⟩]

namespace Canvas

/-- The longest runs of visible cells that have a style, from top to bottom and left to
right. -/
def runs (c : Canvas) : List Run :=
  c.rows.zipIdx.flatMap fun (row, y) => ((row.visible 0 0).foldl (joinRun y) []).reverse

end Canvas
end LiveTail.Screen
