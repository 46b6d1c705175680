import LiveTail.Proofs.Rows.Window

/-! Which row a line of the screen belongs to.

A window tells where the rows it lays out start, so a line belongs to the last row that
starts on it or before it (`Covers`). Every line of the screen that is not below the last
row belongs to a row that the window lays out, and lies within the height of that row
(`covered_window`). -/
namespace LiveTail.Rows
open HeightIndex PrefixTree

/-- The row of a line, by the starts of a window. -/
structure Window.Covers (w : Window) (row start line : Nat) : Prop where
  starts : w.start? row = some start
  start_le : start ≤ line
  later : ∀ next nextStart, row < next → w.start? next = some nextStart → line < nextStart

theorem getElem?_startsFrom (line : Nat) (rows : List Nat) (i : Nat) :
    (startsFrom line rows)[i]? =
      if i < rows.length then some (line + (rows.take i).sum) else none := by
  induction rows generalizing line i with
  | nil => rfl
  | cons x rest ih =>
    cases i with
    | zero => simp [startsFrom]
    | succ i => simp [startsFrom, ih, Nat.add_assoc]

/-- A later line is on no earlier row. -/
theorem HeightIndex.rowAt?_mono {t : HeightIndex} (h : t.Valid) (hfit : t.toList.sum < 2 ^ 63)
    {line line' row row' : Nat} (hle : line ≤ line') (hrow : t.rowAt? line = some row)
    (hrow' : t.rowAt? line' = some row') : row ≤ row' := by
  obtain ⟨-, -, hleast⟩ := (rowAt?_eq_some_iff h hfit line row).mp hrow
  obtain ⟨-, hup, -⟩ := (rowAt?_eq_some_iff h hfit line' row').mp hrow'
  rcases Nat.lt_or_ge row' row with hlt | hge
  · have := hleast row' hlt
    omega
  · exact hge

namespace Viewport

/-- The lines in front of a row. -/
def linesBefore (v : Viewport) (row : Nat) : Nat := (v.rows.take row).sum

theorem linesBefore_mono (v : Viewport) {m n : Nat} (h : m ≤ n) :
    v.linesBefore m ≤ v.linesBefore n := sum_take_mono v.rows h

/-- A row ends where the next one starts. -/
theorem linesBefore_succ (v : Viewport) {row : Nat} (hrow : row < v.size) :
    v.linesBefore (row + 1) = v.linesBefore row + v.heights.height row := by
  have hlength : row < v.heights.toList.length := by rwa [← HeightIndex.size_eq]
  rw [linesBefore, rows, sum_take_succ _ hlength, HeightIndex.height_eq,
    List.getD_eq_getElem?_getD, List.getElem?_eq_getElem hlength]
  rfl

theorem Valid.start_eq {v : Viewport} (h : Valid v) (hfit : v.rows.sum < 2 ^ 63) {row : Nat}
    (hrow : row < v.size) : v.heights.start row = v.linesBefore row :=
  HeightIndex.start_eq h.heights hfit hrow

/-- The span that a window lays out. -/
def laidOut (v : Viewport) : Span := (v.visible v.offset).widen v.settings.overscan v.size

/-- Of the rows that the screen meets none is left out. -/
theorem laidOut_bounds {v : Viewport} (h : Valid v) (hfit : v.rows.sum < 2 ^ 63)
    (hsize : 0 < v.size) :
    v.laidOut.first ≤ (v.visible v.offset).first ∧
      (v.visible v.offset).first ≤ (v.visible v.offset).last ∧
      (v.visible v.offset).last ≤ v.laidOut.last ∧ v.laidOut.last < v.size := by
  have hfirst := rowAt_getD_lt v v.offset hsize
  have hlast := rowAt_getD_lt v (v.offset + max v.height 1 - 1) hsize
  have hmono : (v.visible v.offset).first ≤ (v.visible v.offset).last := by
    simp only [visible]
    cases hend : v.heights.rowAt? (v.offset + max v.height 1 - 1) with
    | none =>
      rw [Option.getD_none]
      omega
    | some row' =>
      cases hstart : v.heights.rowAt? v.offset with
      | none =>
        -- Behind the end there is no row on any later line either.
        rw [rowAt?_eq_none_iff h.heights hfit] at hstart
        have hnone := (rowAt?_eq_none_iff h.heights hfit (v.offset + max v.height 1 - 1)).mpr
          (by omega)
        rw [hend] at hnone
        cases hnone
      | some row => exact rowAt?_mono h.heights hfit (by omega) hstart hend
  have hlimit : v.size ≤ Word.limit := by
    have := h.length_le_sum
    simp only [Word.limit]
    omega
  refine ⟨Nat.sub_le .., hmono, ?_, ?_⟩
  · simp only [laidOut, Span.widen, Word.add]
    simp only [visible] at hlast ⊢
    omega
  · simp only [laidOut, Span.widen]
    omega

theorem window?_eq {v : Viewport} {w : Window} (hw : v.window? = some w) :
    0 < v.size ∧ w.first = v.laidOut.first ∧ w.last = v.laidOut.last ∧ w.total = v.total ∧
      w.scroll = v.offset ∧
      w.starts = startsFrom (v.heights.start w.first)
        ((List.range' w.first v.laidOut.size).map v.heights.height) := by
  unfold window? at hw
  split at hw
  · cases hw
  next hempty =>
    rw [isEmpty_iff] at hempty
    obtain rfl := Option.some.inj hw
    exact ⟨Nat.pos_of_ne_zero hempty, rfl, rfl, rfl, rfl, rfl⟩

/-- A window lays out rows that are there. -/
theorem lt_of_mem_rows {v : Viewport} {w : Window} (hw : v.window? = some w) {row : Nat}
    (hrow : row ∈ w.rows) : row < v.size := by
  obtain ⟨hsize, hfirst, hlast, -⟩ := window?_eq hw
  have hspan := span_bounds v v.offset hsize
  have hmem := List.mem_range'_1.mp hrow
  simp only [Window.size, hfirst, hlast, laidOut] at hmem
  simp only [Span.size] at hspan
  omega

/-- A window tells the starts of the rows it lays out. -/
theorem start?_eq {v : Viewport} (h : Valid v) (hfit : v.rows.sum < 2 ^ 63) {w : Window}
    (hw : v.window? = some w) (row : Nat) :
    w.start? row = if row ∈ w.rows then some (v.linesBefore row) else none := by
  obtain ⟨hsize, hfirst, hlast, -, -, hstarts⟩ := window?_eq hw
  obtain ⟨hle, hmono, hge, hlt⟩ := laidOut_bounds h hfit hsize
  have hspan : v.laidOut.size = w.size := by
    rw [Span.size, Window.size, hfirst, hlast]
    omega
  have hrows : w.first + w.size ≤ v.size := by
    rw [Window.size, hfirst, hlast]
    omega
  have hlength : ((v.heights.toList.drop w.first).take w.size).length = w.size := by
    rw [List.length_take, List.length_drop, ← HeightIndex.size_eq]
    simp only [size] at hrows
    omega
  have hmem : row ∈ w.rows ↔ w.first ≤ row ∧ row < w.first + w.size := List.mem_range'_1
  have hstart : w.first < v.heights.size := by
    simp only [size] at hlt
    omega
  rw [hspan, start_eq h.heights hfit hstart, map_height_range' _ hrows] at hstarts
  simp only [hmem, Window.start?, hstarts, getElem?_startsFrom, hlength]
  by_cases hin : w.first ≤ row
  · have hiff : row - w.first < w.size ↔ row < w.first + w.size := by omega
    simp only [hin, hiff, true_and, if_true]
    split
    next hend =>
      -- The rows in front of the window, and then those in it.
      have hsplit : v.rows.take row =
          v.rows.take w.first ++ (v.rows.drop w.first).take (row - w.first) := by
        rw [← List.take_add, Nat.add_sub_cancel' hin]
      rw [linesBefore, hsplit, List.sum_append, List.take_take, Nat.min_eq_left (by omega)]
      rfl
    next => rfl
  · simp [hin]

/-- A line of the screen that is not below the last row is one of the lines of a row that is
laid out. -/
theorem covered {v : Viewport} (h : Valid v) (hfit : v.rows.sum < 2 ^ 63) {w : Window}
    (hw : v.window? = some w) {y : Nat} (hy : y < v.height) (hline : w.scroll + y < w.total) :
    ∃ row < v.size, row ∈ w.rows ∧ w.Covers row (v.linesBefore row) (w.scroll + y) ∧
      w.scroll + y < v.linesBefore row + v.heights.height row := by
  obtain ⟨hsize, hfirst, hlast, htotal, hscroll, -⟩ := window?_eq hw
  obtain ⟨hle, hmono, hge, hlt⟩ := laidOut_bounds h hfit hsize
  have hsum : v.total = v.rows.sum := h.total_eq hfit
  rw [htotal, hsum, hscroll] at hline
  rw [hscroll]
  cases hrow : v.heights.rowAt? (v.offset + y) with
  | none =>
    rw [rowAt?_eq_none_iff h.heights hfit] at hrow
    exact absurd hline (Nat.not_lt_of_le hrow)
  | some row =>
    obtain ⟨hlive, hup, hleast⟩ := (rowAt?_eq_some_iff h.heights hfit (v.offset + y) row).mp hrow
    have hmem : row ∈ w.rows := by
      have hfront : (v.visible v.offset).first ≤ row := by
        simp only [visible]
        cases htop : v.heights.rowAt? v.offset with
        | none =>
          rw [rowAt?_eq_none_iff h.heights hfit] at htop
          simp only [rows] at hline
          omega
        | some top => exact rowAt?_mono h.heights hfit (by omega) htop hrow
      have hback : row ≤ (v.visible v.offset).last := by
        simp only [visible]
        cases hend : v.heights.rowAt? (v.offset + max v.height 1 - 1) with
        | none =>
          show row ≤ v.size - 1
          simp only [size]
          omega
        | some bottom => exact rowAt?_mono h.heights hfit (by omega) hrow hend
      rw [Window.rows, List.mem_range'_1, Window.size, hfirst, hlast]
      omega
    refine ⟨row, hlive, hmem, ⟨by rw [start?_eq h hfit hw, if_pos hmem], ?_, ?_⟩, ?_⟩
    · cases row with
      | zero => exact Nat.zero_le _
      | succ row => exact hleast row (Nat.lt_succ_self row)
    · intro next nextStart hnext hstart
      rw [start?_eq h hfit hw, Option.ite_none_right_eq_some, Option.some.injEq] at hstart
      rw [← hstart.2]
      exact Nat.lt_of_lt_of_le hup (v.linesBefore_mono hnext)
    · rw [← linesBefore_succ v hlive]
      exact hup

/-! ### The window for a screen -/

variable {v : Viewport} {w : Window} {height : Nat}

theorem start?_window (h : Valid v) (hfit : v.rows.sum < 2 ^ 63)
    (hw : (v.window height).1 = some w) (row : Nat) :
    w.start? row = if row ∈ w.rows then some (v.linesBefore row) else none := by
  rw [linesBefore, ← rows_resize v height]
  exact start?_eq (h.of_heights (heights_resize v height)) (by rwa [rows_resize]) hw row

/-- **A line of the screen that is not below the last row belongs to a row that is laid out**,
and is one of the lines of that row. -/
theorem covered_window (h : Valid v) (hfit : v.rows.sum < 2 ^ 63)
    (hw : (v.window height).1 = some w) {y : Nat} (hy : y < height)
    (hline : w.scroll + y < w.total) :
    ∃ row < v.size, row ∈ w.rows ∧ w.Covers row (v.linesBefore row) (w.scroll + y) ∧
      w.scroll + y < v.linesBefore row + v.heights.height row := by
  simp only [size, linesBefore, ← rows_resize v height, ← heights_resize v height]
  exact covered (h.of_heights (heights_resize v height)) (by rwa [rows_resize]) hw
    (by rwa [height_resize]) hline

end Viewport
end LiveTail.Rows
