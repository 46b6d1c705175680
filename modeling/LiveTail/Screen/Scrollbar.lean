import LiveTail.Screen.Canvas

/-! The scrollbar: a column with a head, a track with a thumb on it, and a foot.

The thumb is as long against the track as the viewport against what there is to see,
and stands where the viewport does, both rounded to whole cells. -/
namespace LiveTail.Screen

/-- A quotient rounded to the nearest whole number, halves up. -/
def nearest (num den : Nat) : Nat := (2 * num + den) / (2 * den)

/-- A rectangle of cells. -/
structure Area where
  x : Nat
  y : Nat
  width : Nat
  height : Nat
deriving DecidableEq, Repr

def Area.isEmpty (a : Area) : Bool := a.width == 0 || a.height == 0

structure Scrollbar where
  /-- How far there is to scroll. -/
  length : Nat
  position : Nat
  viewport : Nat
deriving DecidableEq, Repr

namespace Scrollbar

/-- Where the thumb starts on a track, and how long it is. -/
def thumb (s : Scrollbar) (track : Nat) : Nat × Nat :=
  let position := min s.position (s.length - 1)
  let all := s.length - 1 + s.viewport
  let first := min (nearest (position * track) all) (track - 1)
  let last := min (nearest ((position + s.viewport) * track) all) track
  (first, max (last - first) 1)

/-- The symbols from head to foot, for a column of some height. -/
def symbols (s : Scrollbar) (height : Nat) : List Char :=
  let track := height - 2
  let (first, size) := s.thumb track
  '▲' :: List.replicate first '║' ++ List.replicate size '█'
    ++ List.replicate (track - first - size) '║' ++ ['▼']

/-- Draws the scrollbar into the last column of an area that has room for it. -/
def draw (s : Scrollbar) (a : Area) (c : Canvas) : Canvas :=
  if s.length = 0 ∨ a.height < 3 then c
  else
    (s.symbols a.height).zipIdx.foldl (fun c (symbol, k) =>
      (c.write (a.x + a.width - 1) (a.y + k) 1 { text := [symbol] }).2) c

end Scrollbar
end LiveTail.Screen
