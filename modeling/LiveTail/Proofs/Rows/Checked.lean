import LiveTail.Proofs.Rows.Viewport

/-! The window in arithmetic that may fail.

Here the window is computed once more, operation by operation, and an operation
whose result is no word gives nothing: an addition past the largest word, a
subtraction below zero, a sum of tree nodes past the signed words. Steps that stop
at a bound by themselves (`Word.add`, the lowest offset) stay as they are.
`Checked.window_eq`: while the heights add up to a signed word and the screen's
height is a word, every operation succeeds. -/
namespace LiveTail.Word

/-- Addition, if the sum is a word. -/
def add? (a b : Nat) : Option Nat := if a + b ≤ limit then some (a + b) else none

/-- Subtraction, if it does not go below zero. -/
def sub? (a b : Nat) : Option Nat := if b ≤ a then some (a - b) else none

/-- Addition of signed words, if the sum is one. -/
def signedAdd? (a b : Int64) : Option Int64 :=
  if -2 ^ 63 ≤ a.toInt + b.toInt ∧ a.toInt + b.toInt < 2 ^ 63 then some (a + b) else none

theorem add?_eq {a b : Nat} (h : a + b ≤ limit) : add? a b = some (a + b) := if_pos h

theorem sub?_eq {a b : Nat} (h : b ≤ a) : sub? a b = some (a - b) := if_pos h

theorem signedAdd?_eq {a b : Nat} (h : a + b < 2 ^ 63) :
    signedAdd? (Int64.ofNat a) (Int64.ofNat b) = some (Int64.ofNat (a + b)) := by
  rw [signedAdd?, Int64.toInt_ofNat_of_lt (by omega), Int64.toInt_ofNat_of_lt (by omega),
    if_pos (by omega), Int64.ofNat_add]

end LiveTail.Word

namespace LiveTail.Rows.Checked
open HeightIndex PrefixTree Viewport

/-! ### The operations -/

/-- Adds the nodes of the first `n` slots to `sum`, the last node first. -/
def walk (tree : Array Int64) (sum : Int64) : Nat → Option Int64
  | 0 => some sum
  | n + 1 => (Word.signedAdd? sum (tree.getD n 0)).bind fun sum => walk tree sum (n &&& (n + 1))
termination_by n => n
decreasing_by exact Nat.lt_succ_of_le Nat.and_le_left

def size (t : HeightIndex) : Option Nat := Word.sub? t.slots.size t.base

def height (t : HeightIndex) (row : Nat) : Option Nat := do
  return t.slots.getD (← Word.add? t.base row) 0

def sumThrough (t : HeightIndex) (row : Nat) : Option Nat := do
  let slot ← Word.add? t.base row
  return (← walk t.tree 0 (slot + 1)).toInt.toNat

def start (t : HeightIndex) (row : Nat) : Option Nat := do
  Word.sub? (← sumThrough t row) (← height t row)

def total (t : HeightIndex) : Option Nat := do
  let size ← size t
  if size = 0 then return 0 else sumThrough t (← Word.sub? size 1)

def bisect (t : HeightIndex) (value left right : Nat) : Option Nat :=
  if left < right then
    let mid := left + (right - left) / 2
    -- Also the row after `mid` must be a word.
    if Word.limit ≤ mid then none
    else (sumThrough t mid).bind fun sum =>
      if value < sum then bisect t value left mid else bisect t value (mid + 1) right
  else some left
termination_by right - left

def rowAt (t : HeightIndex) (value : Nat) : Option (Option Nat) := do
  let size ← size t
  let row ← bisect t value 0 size
  return if row < size then some row else none

/-- The starts of so many rows from `row` on, the first of them on `line`. -/
def starts (t : HeightIndex) (line row : Nat) : Nat → Option (List Nat)
  | 0 => some []
  | n + 1 => do
    let next ← Word.add? line (← height t row)
    return line :: (← starts t next (row + 1) n)

/-- The window a view of settled size shows. -/
def window (v : Viewport) : Option (Option Window) := do
  let size ← size v.heights
  if size = 0 then return none
  let total ← total v.heights
  let lowest := total - v.height
  let offset := if v.pinned then lowest else min v.stored lowest
  let stop ← Word.add? offset (max v.height 1)
  let last ← Word.sub? size 1
  let top ← rowAt v.heights offset
  let bottom ← rowAt v.heights (← Word.sub? stop 1)
  let span := (Span.mk (top.getD last) (bottom.getD last)).widen v.settings.overscan size
  let starts ← starts v.heights (← start v.heights span.first) span.first span.size
  return some
    { first := span.first, last := span.last, starts, total, scroll := offset, viewport := v.height }

/-! ### Every operation succeeds -/

theorem walk_eq {tree : Array Int64} {slots : List Nat} (h : Holds tree (wordSum slots))
    {n : Nat} (hn : n ≤ tree.size) {a : Nat} (hfit : a + (slots.take n).sum < 2 ^ 63) :
    walk tree (Int64.ofNat a) n = some (Int64.ofNat (a + (slots.take n).sum)) := by
  induction n using Nat.strongRecOn generalizing a with
  | ind n ih =>
    match n with
    | 0 => simp [walk]
    | n + 1 =>
      have hfirst := first_le n
      have hmono := sum_take_mono slots (m := first n) (n := n + 1) (by omega)
      rw [walk, node_eq h (by omega), Word.signedAdd?_eq (by omega), Option.bind_some]
      change walk tree _ (first n) = _
      rw [ih (first n) (by omega) (by omega) (by omega)]
      congr 2
      omega

section Index
variable {t : HeightIndex} (h : t.Valid) (hfit : t.toList.sum < 2 ^ 63)
  (hslots : t.slots.size ≤ Word.limit)
include h

theorem size_eq : size t = some t.size := by
  have := h.slots_size
  rw [size, Word.sub?_eq (by omega)]
  rfl

include hslots

theorem height_eq {row : Nat} (hrow : row < t.size) : height t row = some (t.height row) := by
  have := h.slots_size
  rw [height, Word.add?_eq (by omega)]
  rfl

theorem starts_eq {line row n : Nat} (hrow : row + n ≤ t.size)
    (hline : line + ((List.range' row n).map t.height).sum ≤ Word.limit) :
    starts t line row n = some (startsFrom line ((List.range' row n).map t.height)) := by
  induction n generalizing line row with
  | zero => rfl
  | succ n ih =>
    simp only [List.range'_succ, List.map_cons, List.sum_cons] at hline ⊢
    rw [starts, height_eq h hslots (by omega)]
    show (Word.add? line (t.height row)).bind _ = _
    rw [Word.add?_eq (by omega), Option.bind_some]
    show (starts t (line + t.height row) (row + 1) n).bind _ = _
    rw [ih (by omega) (by omega)]
    rfl

include hfit

theorem sumThrough_eq {row : Nat} (hrow : row < t.size) :
    sumThrough t row = some (t.sumThrough row) := by
  have hsize := h.slots_size
  have hfits := h.fits
  have htotal := sum_slots h
  have hle := sum_take_le t.slots.toList (t.base + row + 1)
  have hwalk := walk_eq h.sums (n := t.base + row + 1) (by omega) (a := 0) (by omega)
  have hbelow := below_eq h.sums (n := t.base + row + 1) (by omega)
  have hzero : wordSum t.slots.toList 0 = 0 := rfl
  have hsum : below t.tree (t.base + row + 1) =
      Int64.ofNat (t.slots.toList.take (t.base + row + 1)).sum := by
    rw [hbelow, hzero, wordSum]
    grind
  rw [Nat.zero_add, ← hsum] at hwalk
  rw [sumThrough, Word.add?_eq (by omega)]
  show (walk t.tree 0 (t.base + row + 1)).bind _ = _
  rw [show (0 : Int64) = Int64.ofNat 0 from rfl, hwalk]
  rfl

theorem start_eq {row : Nat} (hrow : row < t.size) : start t row = some (t.start row) := by
  have hle := (agrees h hfit).height_le row (by rwa [← t.size_eq])
  rw [start, sumThrough_eq h hfit hslots hrow, height_eq h hslots hrow]
  exact Word.sub?_eq hle

theorem total_eq : total t = some t.total := by
  rw [total, size_eq h, HeightIndex.total]
  show (if t.size = 0 then some 0 else (Word.sub? t.size 1).bind (sumThrough t)) = _
  split
  · rfl
  · rw [Word.sub?_eq (by omega)]
    exact sumThrough_eq h hfit hslots (by omega)

theorem bisect_eq (value : Nat) {left right : Nat} (hright : right ≤ t.size) :
    bisect t value left right = some (t.bisect value left right) := by
  have hsize := h.slots_size
  fun_induction HeightIndex.bisect t value left right with
  | case1 left right hlt mid hsum ih =>
    rw [bisect, if_pos hlt, if_neg (by omega), sumThrough_eq h hfit hslots (by omega),
      Option.bind_some, if_pos hsum]
    exact ih (by omega)
  | case2 left right hlt mid hsum ih =>
    rw [bisect, if_pos hlt, if_neg (by omega), sumThrough_eq h hfit hslots (by omega),
      Option.bind_some, if_neg hsum]
    exact ih hright
  | case3 left right hge => rw [bisect, if_neg hge]

theorem rowAt_eq (value : Nat) : rowAt t value = some (t.rowAt? value) := by
  rw [rowAt, size_eq h]
  show (bisect t value 0 t.size).bind _ = _
  rw [bisect_eq h hfit hslots value (Nat.le_refl _)]
  rfl

end Index

/-- The last line on the screen, and the one behind it, are words. -/
theorem offset_add_le {v : Viewport} (htotal : v.total < 2 ^ 63) (hheight : v.height ≤ Word.limit) :
    v.offset + max v.height 1 ≤ Word.limit := by
  have hlimit : Word.limit = 2 ^ 64 - 1 := rfl
  have hoffset : v.offset ≤ v.lowest := by
    unfold offset
    split <;> omega
  rw [lowest] at hoffset
  omega

/-- **No operation of the window leaves its range.** -/
theorem window_eq {v : Viewport} (h : v.Valid) (hfit : v.rows.sum < 2 ^ 63)
    (hheight : v.height ≤ Word.limit) : window v = some v.window? := by
  have hlimit : Word.limit = 2 ^ 64 - 1 := rfl
  have hslots : v.heights.slots.size ≤ Word.limit := by
    have hsize := h.heights.slots_size
    have hdead := h.compacted
    have hsum : v.heights.size ≤ v.rows.sum := h.length_le_sum
    omega
  have htotal : v.total = v.rows.sum := h.total_eq hfit
  have hstop := offset_add_le (v := v) (by omega) hheight
  simp only [window, window?, size_eq h.heights, Option.bind_eq_bind, Option.bind_some,
    total_eq h.heights hfit hslots]
  by_cases hempty : v.heights.size = 0
  · rw [if_pos hempty, if_pos ((isEmpty_iff v).mpr hempty)]
    rfl
  · rw [if_neg hempty, if_neg (fun he => hempty ((isEmpty_iff v).mp he))]
    have hoffset : (if v.pinned = true then v.heights.total - v.height
        else min v.stored (v.heights.total - v.height)) = v.offset := rfl
    rw [hoffset, Word.add?_eq hstop, Word.sub?_eq (by omega)]
    simp only [Option.bind_some, rowAt_eq h.heights hfit hslots]
    rw [Word.sub?_eq (by omega), Option.bind_some]
    have hspan : (Span.mk ((v.heights.rowAt? v.offset).getD (v.heights.size - 1))
        ((v.heights.rowAt? (v.offset + max v.height 1 - 1)).getD (v.heights.size - 1))) =
          v.visible v.offset := rfl
    have hsize : v.size = v.heights.size := rfl
    obtain ⟨hfirst, hlast⟩ := span_bounds v v.offset (by omega)
    rw [hspan]
    rw [hsize] at hfirst hlast ⊢
    generalize (v.visible v.offset).widen v.settings.overscan v.heights.size = span at *
    have hline : v.heights.start span.first +
        ((List.range' span.first span.size).map v.heights.height).sum ≤ Word.limit := by
      rw [HeightIndex.start_eq h.heights hfit hfirst, v.heights.map_height_range' hlast,
        ← List.sum_append, ← List.take_add]
      have := sum_take_le v.heights.toList (span.first + span.size)
      have hrows : v.heights.toList.sum < 2 ^ 63 := hfit
      omega
    rw [start_eq h.heights hfit hslots hfirst, Option.bind_some,
      starts_eq h.heights hslots hlast hline]
    rfl

end LiveTail.Rows.Checked
