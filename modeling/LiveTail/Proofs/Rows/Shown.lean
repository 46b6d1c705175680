import LiveTail.Proofs.Rows.Scan
import Mathlib.Algebra.Order.BigOperators.Group.List
import Mathlib.Algebra.Order.Group.Nat

/-! What a window shows, without a search.

A row is on the screen when one of its lines is (`OnScreen`); at the very end, where no
line is left, the last row is taken for it. As every row has a line, the rows on the screen
are those from the row of its first line to that of its last (`onScreen_iff`). `Shows` says
what a window has to be: these rows and the overscan around them, each at the sum of the
heights in front of it. -/
namespace LiveTail.Rows
open PrefixTree

/-- The lines in front of a row. -/
def linesAbove (heights : List Nat) (row : Nat) : Nat := (heights.take row).sum

/-- Whether a line is one of those of a row. -/
def HasLine (heights : List Nat) (row line : Nat) : Prop :=
  linesAbove heights row ≤ line ∧ line < linesAbove heights (row + 1)

/-- Whether a row is on a screen that shows `height` lines from `top` on, or one line if it
has no height. Behind the last line the last row is. -/
def OnScreen (heights : List Nat) (top height row : Nat) : Prop :=
  row < heights.length ∧
    ((∃ line, HasLine heights row line ∧ top ≤ line ∧ line < top + max height 1) ∨
      top = heights.sum ∧ row + 1 = heights.length)

/-- What a window over some heights has to be. -/
structure Shows (heights : List Nat) (height scroll overscan : Nat) (w : Window) : Prop where
  total : w.total = heights.sum
  scroll : w.scroll = min scroll (heights.sum - height)
  viewport : w.viewport = height
  /-- The rows on the screen are one run, which the overscan widens. -/
  rows : ∃ first last, first ≤ last ∧ last < heights.length ∧
    (∀ row, OnScreen heights w.scroll height row ↔ first ≤ row ∧ row ≤ last) ∧
    w.first = first - overscan ∧ w.last = min (last + overscan) (heights.length - 1)
  /-- A screen that is not taller than the content is full. -/
  full : 1 ≤ height → height ≤ heights.sum →
    ∀ line, w.scroll ≤ line → line < w.scroll + height →
      ∃ row, OnScreen heights w.scroll height row ∧ HasLine heights row line
  starts : w.starts = w.rows.map (linesAbove heights)

section Lines
variable (heights : List Nat)

theorem linesAbove_mono {m n : Nat} (h : m ≤ n) : linesAbove heights m ≤ linesAbove heights n :=
  sum_take_mono heights h

theorem linesAbove_le (row : Nat) : linesAbove heights row ≤ heights.sum := sum_take_le heights row

theorem linesAbove_of_last {row : Nat} (h : row + 1 = heights.length) :
    linesAbove heights (row + 1) = heights.sum := by
  rw [linesAbove, h, List.take_length]

theorem linesAbove_lt_succ (hpositive : 0 ∉ heights) {row : Nat} (hrow : row < heights.length) :
    linesAbove heights row < linesAbove heights (row + 1) := by
  have hne : heights[row] ≠ 0 := fun hzero => hpositive (hzero ▸ List.getElem_mem hrow)
  have hnext : linesAbove heights (row + 1) = linesAbove heights row + heights[row] :=
    sum_take_succ heights hrow
  omega

theorem startsFrom_eq (line : Nat) :
    startsFrom line heights = (List.range heights.length).map (line + linesAbove heights ·) := by
  induction heights generalizing line with
  | nil => rfl
  | cons x rest ih =>
    rw [startsFrom, ih, List.length_cons, List.range_succ_eq_map, List.map_cons, List.map_map]
    congr 1
    refine List.map_congr_left fun row _ => ?_
    simp [linesAbove, Nat.add_assoc]

/-- The starts of a span of rows. -/
theorem starts_span {first last : Nat} (hle : first ≤ last) (hlast : last < heights.length) :
    ((startsFrom 0 heights).drop first).take (Span.mk first last).size =
      (List.range' first (last - first + 1)).map (linesAbove heights) := by
  have hsize : (Span.mk first last).size = last - first + 1 := by
    show last + 1 - first = last - first + 1
    omega
  rw [startsFrom_eq, ← List.map_drop, ← List.map_take, List.range_eq_range', List.drop_range', hsize,
    List.take_range'_of_length_ge (by omega)]
  simp

end Lines

section Rows
variable {heights : List Nat} (hne : heights ≠ [])
include hne

/-! ### The row of a line -/

theorem rowContaining_spec (line : Nat) :
    rowContaining (startsFrom 0 heights) line < heights.length ∧
      linesAbove heights (rowContaining (startsFrom 0 heights) line) ≤ line ∧
      (rowContaining (startsFrom 0 heights) line + 1 < heights.length →
        line < linesAbove heights (rowContaining (startsFrom 0 heights) line + 1)) := by
  obtain ⟨hle, hfront, hbehind⟩ := takeWhile_startsFrom 0 heights line
  have hlength := List.length_pos_iff.mpr hne
  simp only [Nat.zero_add] at hfront hbehind
  rw [rowContaining]
  generalize ((startsFrom 0 heights).takeWhile (· ≤ line)).length = k at *
  have hpos : 0 < k := by
    rw [Nat.pos_iff_ne_zero]
    rintro rfl
    exact absurd (hbehind hlength) (Nat.not_lt_zero line)
  have hback : k - 1 + 1 = k := Nat.sub_add_cancel hpos
  refine ⟨by omega, hfront (k - 1) (by omega), fun hlt => ?_⟩
  rw [hback] at hlt ⊢
  exact hbehind hlt

theorem hasLine_rowContaining {line : Nat} (hline : line < heights.sum) :
    HasLine heights (rowContaining (startsFrom 0 heights) line) line := by
  obtain ⟨hrow, hfront, hbehind⟩ := rowContaining_spec hne line
  refine ⟨hfront, ?_⟩
  rcases Nat.lt_or_ge (rowContaining (startsFrom 0 heights) line + 1) heights.length with hlt | hge
  · exact hbehind hlt
  · rwa [linesAbove_of_last heights (by omega)]

/-- A later line is on no earlier row. -/
theorem rowContaining_mono {line line' : Nat} (h : line ≤ line') :
    rowContaining (startsFrom 0 heights) line ≤ rowContaining (startsFrom 0 heights) line' := by
  obtain ⟨hrow, hfront, -⟩ := rowContaining_spec hne line
  obtain ⟨-, -, hbehind⟩ := rowContaining_spec hne line'
  rw [← Nat.not_lt]
  intro hlt
  have hline := hbehind (by omega)
  have hmono := linesAbove_mono heights (Nat.succ_le_of_lt hlt)
  simp only [Nat.succ_eq_add_one] at hmono
  omega

/-- The rows on the screen are those from the row of its first line to that of its last. -/
theorem onScreen_iff (hpositive : 0 ∉ heights) {top : Nat} (htop : top ≤ heights.sum)
    (height row : Nat) : OnScreen heights top height row ↔
      rowContaining (startsFrom 0 heights) top ≤ row ∧
        row ≤ rowContaining (startsFrom 0 heights) (top + max height 1 - 1) := by
  obtain ⟨hfirst, hfront, hbehind⟩ := rowContaining_spec hne top
  obtain ⟨hlast, hfront', hbehind'⟩ := rowContaining_spec hne (top + max height 1 - 1)
  generalize rowContaining (startsFrom 0 heights) top = first at *
  generalize rowContaining (startsFrom 0 heights) (top + max height 1 - 1) = last at *
  constructor
  · rintro ⟨hrow, ⟨line, ⟨hstart, hend⟩, hge, hlt⟩ | ⟨hbottom, hfinal⟩⟩
    · constructor
      · rw [← Nat.not_lt]
        intro habove
        have := linesAbove_mono heights (m := row + 1) (n := first) habove
        omega
      · rw [← Nat.not_lt]
        intro hbelow
        have := linesAbove_mono heights (m := last + 1) (n := row) hbelow
        have := hbehind' (by omega)
        omega
    · refine ⟨by omega, ?_⟩
      rw [← Nat.not_lt]
      intro hbelow
      have := linesAbove_le heights (last + 1)
      have := hbehind' (by omega)
      omega
  · rintro ⟨hge, hle⟩
    have hrow : row < heights.length := by omega
    refine ⟨hrow, ?_⟩
    rcases Nat.lt_or_ge top heights.sum with hinside | hbottom
    · -- The first of its lines that is not above the screen.
      have htall := linesAbove_lt_succ heights hpositive hrow
      have hstart := linesAbove_mono heights (m := row) (n := last) hle
      have hend : top < linesAbove heights (row + 1) := by
        rcases Nat.lt_or_ge (first + 1) heights.length with hlt | hfinal
        · exact Nat.lt_of_lt_of_le (hbehind hlt) (linesAbove_mono heights (by omega))
        · rwa [linesAbove_of_last heights (by omega)]
      exact .inl ⟨max (linesAbove heights row) top, ⟨by omega, by omega⟩, by omega, by omega⟩
    · have hfinal : ¬first + 1 < heights.length := fun hlt => by
        have := linesAbove_le heights (first + 1)
        have := hbehind hlt
        omega
      exact .inr ⟨by omega, by omega⟩

/-! ### The window -/

theorem shows_ofHeights (hpositive : 0 ∉ heights) (hfit : heights.sum < 2 ^ 63)
    (height scroll overscan : Nat) :
    ∃ w, Window.ofHeights height scroll heights overscan = .ok (some w) ∧
      Shows heights height scroll overscan w := by
  have hlive : heights.isEmpty = false := by simpa using hne
  have hnone : heights.any (· == 0) = false := by
    rw [← Bool.not_eq_true]
    simpa using hpositive
  have hlimit : heights.length ≤ Word.limit := by
    have := List.length_le_sum_of_one_le heights fun x hx =>
      Nat.one_le_iff_ne_zero.mpr fun hzero => hpositive (hzero ▸ hx)
    simp only [Word.limit]
    omega
  rw [Window.ofHeights, hlive, hnone, if_neg Bool.false_ne_true, if_neg Bool.false_ne_true]
  refine ⟨_, rfl, ?_⟩
  have htop : min scroll (heights.sum - height) ≤ heights.sum := by omega
  have hscreen : min scroll (heights.sum - height) ≤
      min scroll (heights.sum - height) + max height 1 - 1 := by omega
  have hmono := rowContaining_mono hne hscreen
  have hlast := (rowContaining_spec hne (min scroll (heights.sum - height) + max height 1 - 1)).1
  have hrows := onScreen_iff hne hpositive htop height
  constructor
  case total => rfl
  case scroll => rfl
  case viewport => rfl
  case rows =>
    refine ⟨_, _, hmono, hlast, hrows, rfl, ?_⟩
    simp only [Span.widen, Word.add]
    omega
  case full =>
    intro hheight hcontent line hge hlt
    dsimp only at hge hlt
    refine ⟨rowContaining (startsFrom 0 heights) line, (hrows _).mpr ⟨?_, ?_⟩,
      hasLine_rowContaining hne (by omega)⟩
    · exact rowContaining_mono hne hge
    · exact rowContaining_mono hne (by omega)
  case starts =>
    refine starts_span heights ?_ ?_
    · simp only [Word.add]
      omega
    · omega

end Rows

/-- **A window shows the rows that meet the screen, and the overscan around them**, wherever it
is scrolled to. Only a row without height is refused. -/
theorem ofHeights_shows {heights : List Nat} (hne : heights ≠ []) (hfit : heights.sum < 2 ^ 63)
    (height scroll overscan : Nat) :
    (Window.ofHeights height scroll heights overscan = .error .zeroRowHeight ↔ 0 ∈ heights) ∧
      (0 ∉ heights → ∃ w, Window.ofHeights height scroll heights overscan = .ok (some w) ∧
        Shows heights height scroll overscan w) := by
  have hshows := fun hpositive => shows_ofHeights hne hpositive hfit height scroll overscan
  refine ⟨⟨fun herror => ?_, fun hzero => ?_⟩, hshows⟩
  · by_contra hpositive
    obtain ⟨w, hw, -⟩ := hshows hpositive
    rw [herror] at hw
    cases hw
  · have hlive : heights.isEmpty = false := by simpa using hne
    have hsome : heights.any (· == 0) = true := by simpa using hzero
    rw [Window.ofHeights, hlive, hsome, if_neg Bool.false_ne_true, if_pos rfl]

/-- A screen of three lines that begins on the last line of one row and ends within another. -/
theorem ofHeights_shows_partial :
    let heights : List Nat := [3, 1, 6, 2]
    (heights ≠ [] ∧ heights.sum < 2 ^ 63 ∧ 0 ∉ heights) ∧
      Shows heights 3 2 0 ⟨0, 2, [0, 3, 4], 12, 2, 3⟩ := by
  intro heights
  have hne : heights ≠ [] := by decide
  have hfit : heights.sum < 2 ^ 63 := by decide
  have hpositive : 0 ∉ heights := by decide
  obtain ⟨-, hshows⟩ := ofHeights_shows hne hfit 3 2 0
  obtain ⟨w, hw, hshown⟩ := hshows hpositive
  have hwindow : Window.ofHeights 3 2 heights 0 =
      .ok (some ⟨0, 2, [0, 3, 4], 12, 2, 3⟩) := by decide
  obtain rfl := Option.some.inj (Except.ok.inj (hw.symm.trans hwindow))
  exact ⟨⟨hne, hfit, hpositive⟩, hshown⟩

end LiveTail.Rows
