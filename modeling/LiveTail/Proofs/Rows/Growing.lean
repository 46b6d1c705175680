import LiveTail.Proofs.Rows.Covered
import LiveTail.Proofs.Rows.Measured

/-! Rows that grow push others off the screen, and bring none onto it.

A pinned view stands at the bottom and a paused one keeps its place under the rows above
it, so when a row turns out higher than it was taken for, the rows on the screen after it
are among those that were there before (`narrowed_remeasure`). -/
namespace LiveTail.Rows.Viewport
open HeightIndex PrefixTree

/-- Every row has a line. -/
theorem linesBefore_lt {v : Viewport} (h : Valid v) {m n : Nat} (hlt : m < n) (hn : n ≤ v.size) :
    v.linesBefore m < v.linesBefore n := by
  have hrow : m < v.rows.length := by
    rw [← size_eq]
    omega
  have hnext : v.linesBefore (m + 1) = v.linesBefore m + v.rows[m] := sum_take_succ v.rows hrow
  have hpositive := h.positive v.rows[m] (List.getElem_mem hrow)
  have hmono := v.linesBefore_mono (m := m + 1) (n := n) hlt
  omega

theorem linesBefore_size (v : Viewport) : v.linesBefore v.size = v.rows.sum := by
  rw [linesBefore, size_eq, List.take_length]

/-- The row that the search gives for a line, or the last one behind the end. -/
def rowAt (v : Viewport) (line : Nat) : Nat := (v.heights.rowAt? line).getD (v.size - 1)

theorem rowAt_spec {v : Viewport} (h : Valid v) (hfit : v.rows.sum < 2 ^ 63) (hsize : 0 < v.size)
    (line : Nat) :
    v.rowAt line < v.size ∧ (v.rowAt line = 0 ∨ v.linesBefore (v.rowAt line) ≤ line) ∧
      (v.rowAt line = v.size - 1 ∨ line < v.linesBefore (v.rowAt line + 1)) := by
  refine ⟨rowAt_getD_lt v line hsize, ?_⟩
  rw [rowAt]
  cases hrow : v.heights.rowAt? line with
  | none =>
    rw [rowAt?_eq_none_iff h.heights hfit] at hrow
    exact ⟨.inr (Nat.le_trans (sum_take_le v.rows _) hrow), .inl rfl⟩
  | some row =>
    obtain ⟨-, hup, hleast⟩ := (rowAt?_eq_some_iff h.heights hfit line row).mp hrow
    refine ⟨?_, .inr hup⟩
    cases row with
    | zero => exact .inl rfl
    | succ row => exact .inr (hleast row (Nat.lt_succ_self row))

/-- A row that starts in front of a line is not behind the row of that line. -/
theorem le_rowAt {v : Viewport} (h : Valid v) (hfit : v.rows.sum < 2 ^ 63) (hsize : 0 < v.size)
    {line row : Nat} (hrow : row < v.size) (hle : v.linesBefore row ≤ line) :
    row ≤ v.rowAt line := by
  obtain ⟨-, -, hlast | hup⟩ := rowAt_spec h hfit hsize line
  · omega
  · rcases Nat.lt_or_ge (v.rowAt line) row with hlt | hge
    · have := v.linesBefore_mono (m := v.rowAt line + 1) (n := row) hlt
      omega
    · exact hge

/-- A row that ends behind a line is not in front of the row of that line. -/
theorem rowAt_le {v : Viewport} (h : Valid v) (hfit : v.rows.sum < 2 ^ 63) (hsize : 0 < v.size)
    {line row : Nat} (hlt : line < v.linesBefore (row + 1)) : v.rowAt line ≤ row := by
  obtain ⟨-, hzero | hle, -⟩ := rowAt_spec h hfit hsize line
  · omega
  · rcases Nat.lt_or_ge row (v.rowAt line) with hgt | hge
    · have := v.linesBefore_mono (m := row + 1) (n := v.rowAt line) hgt
      omega
    · exact hge

/-! ### One row -/

theorem sum_take_set (rows : List Nat) {i : Nat} (hi : i < rows.length) (x n : Nat) :
    ((rows.set i x).take n).sum + (if i < n then rows[i] else 0) =
      (rows.take n).sum + (if i < n then x else 0) := by
  induction rows generalizing i n with
  | nil => cases hi
  | cons y rest ih =>
    cases n with
    | zero => simp
    | succ n =>
      cases i with
      | zero =>
        simp only [List.set_cons_zero, List.take_succ_cons, List.sum_cons, Nat.zero_lt_succ,
          if_true, List.getElem_cons_zero]
        omega
      | succ i =>
        have hrest := ih (i := i) (by simpa using hi) n
        simp only [List.set_cons_succ, List.take_succ_cons, List.sum_cons, Nat.succ_lt_succ_iff,
          List.getElem_cons_succ]
        omega

/-- The lines in front of a row after another was set to a height. -/
theorem linesBefore_set {v w : Viewport} (h : Valid v) {row x : Nat} (hrow : row < v.size)
    (hw : w.heights = v.heights.set row x) (n : Nat) :
    w.linesBefore n + (if row < n then v.heights.height row else 0) =
      v.linesBefore n + (if row < n then x else 0) := by
  have hlength : row < v.heights.toList.length := by rwa [← HeightIndex.size_eq]
  have hset := sum_take_set v.heights.toList hlength x n
  rw [← (valid_set h.heights hrow x).2, ← hw] at hset
  rw [height_eq, List.getD_eq_getElem?_getD, List.getElem?_eq_getElem hlength]
  exact hset

/-- The rows up to the one that is set do not move. -/
theorem linesBefore_set_le {v w : Viewport} (h : Valid v) {row x : Nat} (hrow : row < v.size)
    (hw : w.heights = v.heights.set row x) {n : Nat} (hn : n ≤ row) :
    w.linesBefore n = v.linesBefore n := by
  have hset := linesBefore_set h hrow hw n
  rwa [if_neg (by omega), if_neg (by omega), Nat.add_zero, Nat.add_zero] at hset

theorem sum_set {v w : Viewport} (h : Valid v) {row x : Nat} (hrow : row < v.size)
    (hw : w.heights = v.heights.set row x) :
    w.rows.sum + v.heights.height row = v.rows.sum + x := by
  have hsize : w.size = v.size := by
    rw [size_eq, rows, hw, (valid_set h.heights hrow x).2, List.length_set]
    exact (size_eq v).symm
  have hset := linesBefore_set h hrow hw v.size
  rwa [if_pos hrow, if_pos hrow, ← hsize, linesBefore_size, hsize, linesBefore_size] at hset

/-- What is stored for a paused view can be shown. -/
def Steady (v : Viewport) : Prop := v.pinned = false → v.stored ≤ v.lowest

theorem Steady.offset_eq {v : Viewport} (h : v.Steady) (hpaused : v.pinned = false) :
    v.offset = v.stored := by
  rw [offset, if_neg (by simp [hpaused]), Nat.min_eq_left (h hpaused)]

/-- The rows on the screen of `w` are among those on the screen of `v`. -/
structure Narrowed (v w : Viewport) : Prop where
  first : (v.visible v.offset).first ≤ (w.visible w.offset).first
  last : (w.visible w.offset).last ≤ (v.visible v.offset).last

namespace Narrowed

theorem refl (v : Viewport) : Narrowed v v := ⟨Nat.le_refl _, Nat.le_refl _⟩

theorem trans {u v w : Viewport} (h : Narrowed u v) (h' : Narrowed v w) : Narrowed u w :=
  ⟨Nat.le_trans h.first h'.first, Nat.le_trans h'.last h.last⟩

end Narrowed

/-- How a view moves when one of its rows grows by `growth` lines. -/
structure Moved (v w : Viewport) (row growth : Nat) : Prop where
  size : w.size = v.size
  /-- Only rows behind the one that grew start later. -/
  before : ∀ n, w.linesBefore n = v.linesBefore n + if row < n then growth else 0
  pinned : v.pinned = true →
    v.offset = v.rows.sum - v.height ∧ w.offset = v.rows.sum + growth - v.height
  /-- A paused view moves with the rows above its top line. -/
  paused : v.pinned = false →
    w.offset = v.offset + if v.linesBefore row < v.offset then growth else 0
  height : w.height = v.height

/-- The top line never moves up. -/
theorem Moved.offset_le {v w : Viewport} {row growth : Nat} (h : Moved v w row growth) :
    v.offset ≤ w.offset := by
  cases hpinned : v.pinned with
  | true =>
    obtain ⟨hoffset, hoffset'⟩ := h.pinned hpinned
    omega
  | false =>
    rw [h.paused hpinned]
    exact Nat.le_add_right ..

section Moved
variable {v w : Viewport} (h : Valid v) (hw : Valid w) (hfit : v.rows.sum < 2 ^ 63)
  (hfit' : w.rows.sum < 2 ^ 63) {row growth : Nat} (hrow : row < v.size)
  (hmoved : Moved v w row growth)
include h hw hfit hfit' hrow hmoved

theorem first_le_of_moved : (v.visible v.offset).first ≤ (w.visible w.offset).first := by
  have hsize : 0 < v.size := Nat.zero_lt_of_lt hrow
  obtain ⟨hlt, hstart, -⟩ := rowAt_spec h hfit hsize v.offset
  show v.rowAt v.offset ≤ w.rowAt w.offset
  generalize v.rowAt v.offset = top at *
  have hstart : v.linesBefore top ≤ v.offset := by
    rcases hstart with rfl | hstart
    · exact Nat.zero_le _
    · exact hstart
  refine le_rowAt hw hfit' (by rwa [hmoved.size]) (by rwa [hmoved.size]) ?_
  rw [hmoved.before]
  split
  next habove =>
    -- The row that grew starts above the top line, so the top line moves as well.
    have hlines := linesBefore_lt h habove (Nat.le_of_lt hlt)
    cases hpinned : v.pinned with
    | true =>
      obtain ⟨hoffset, hoffset'⟩ := hmoved.pinned hpinned
      omega
    | false =>
      have hoffset := hmoved.paused hpinned
      rw [if_pos (by omega)] at hoffset
      omega
  next => exact Nat.le_trans hstart hmoved.offset_le

theorem last_le_of_moved : (w.visible w.offset).last ≤ (v.visible v.offset).last := by
  have hsize : 0 < v.size := Nat.zero_lt_of_lt hrow
  have hsize' : 0 < w.size := by rwa [hmoved.size]
  obtain ⟨hlt, -, hend⟩ := rowAt_spec h hfit hsize (v.offset + max v.height 1 - 1)
  have hwithin := (rowAt_spec hw hfit' hsize' (w.offset + max w.height 1 - 1)).1
  show w.rowAt (w.offset + max w.height 1 - 1) ≤ v.rowAt (v.offset + max v.height 1 - 1)
  rw [hmoved.size, hmoved.height] at hwithin
  rw [hmoved.height]
  generalize v.rowAt (v.offset + max v.height 1 - 1) = bottom at *
  rcases hend with hend | hend
  · omega
  · cases hpinned : v.pinned with
    | true =>
      -- The last row is at the bottom of a pinned view.
      obtain ⟨hoffset, -⟩ := hmoved.pinned hpinned
      rcases Nat.lt_or_ge (bottom + 1) v.size with hlast | hlast
      · have := linesBefore_lt h hlast (Nat.le_refl _)
        rw [linesBefore_size] at this
        omega
      · omega
    | false =>
      have hoffset := hmoved.paused hpinned
      refine rowAt_le hw hfit' hsize' ?_
      rw [hmoved.before]
      by_cases hfront : row < bottom + 1
      · rw [if_pos hfront]
        split at hoffset <;> omega
      · have := v.linesBefore_mono (m := bottom + 1) (n := row) (by omega)
        rw [if_neg (by omega)] at hoffset
        omega

theorem narrowed_of_moved : Narrowed v w :=
  ⟨first_le_of_moved h hw hfit hfit' hrow hmoved, last_le_of_moved h hw hfit hfit' hrow hmoved⟩

end Moved

section Remeasure
variable {v : Viewport} (h : Valid v) {row : Nat} (hrow : row < v.size) {height : RowHeight}
  (sequence : Nat)
include h hrow

/-- A paused view moves when the row starts above its top line, whether this is looked up
before or after. -/
theorem stored_remeasure (hfit : (v.remeasure row sequence height).rows.sum < 2 ^ 63) :
    (v.remeasure row sequence height).stored =
      if !v.pinned && v.linesBefore row < v.stored then
        v.stored + height.lines - v.heights.height row
      else v.stored := by
  obtain ⟨hvalid, hsame⟩ := valid_setHeight h hrow height.positive
    (w := v.remeasure row sequence height) rfl
  have hstart : (v.remeasure row sequence height).heights.start row = v.linesBefore row := by
    rw [hvalid.start_eq hfit (by rwa [hsame])]
    exact linesBefore_set_le h hrow rfl (Nat.le_refl row)
  rw [← hstart]
  rfl

variable (hgrow : v.heights.height row ≤ height.lines)
include hgrow

theorem linesBefore_remeasure (n : Nat) : (v.remeasure row sequence height).linesBefore n =
    v.linesBefore n + if row < n then height.lines - v.heights.height row else 0 := by
  have hset := linesBefore_set h hrow (w := v.remeasure row sequence height) rfl n
  by_cases hn : row < n
  · simp only [hn, if_true] at hset ⊢
    omega
  · simpa [hn] using hset

theorem moved_remeasure (hsteady : v.Steady)
    (hfit : (v.remeasure row sequence height).rows.sum < 2 ^ 63) :
    Moved v (v.remeasure row sequence height) row (height.lines - v.heights.height row) ∧
      (v.remeasure row sequence height).Steady := by
  obtain ⟨hvalid, hsame⟩ := valid_setHeight h hrow height.positive
    (w := v.remeasure row sequence height) rfl
  have hbefore := linesBefore_remeasure h hrow sequence hgrow
  have hstored := stored_remeasure h hrow sequence hfit
  have hsum : (v.remeasure row sequence height).rows.sum =
      v.rows.sum + (height.lines - v.heights.height row) := by
    have hset := sum_set h hrow (w := v.remeasure row sequence height) rfl
    omega
  have hfitBefore : v.rows.sum < 2 ^ 63 := by omega
  have htotal : v.total = v.rows.sum := h.total_eq hfitBefore
  have htotal' : (v.remeasure row sequence height).total = _ :=
    (total_eq hvalid.heights hfit).trans hsum
  have hpinned : (v.remeasure row sequence height).pinned = v.pinned := rfl
  have hheight : (v.remeasure row sequence height).height = v.height := rfl
  generalize v.remeasure row sequence height = w at *
  have hlowest : w.lowest = v.rows.sum + (height.lines - v.heights.height row) - v.height := by
    rw [lowest, htotal', hheight]
  -- A view that moves down by the growth does not pass the new end.
  have hsteady' : w.Steady := by
    intro hpaused
    rw [hpinned] at hpaused
    have hlow := hsteady hpaused
    rw [lowest, htotal] at hlow
    rw [hlowest, hstored]
    split
    next hshift =>
      simp only [hpaused, Bool.not_false, Bool.true_and, decide_eq_true_eq] at hshift
      omega
    next => omega
  refine ⟨⟨hsame, hbefore, fun hp => ?_, fun hp => ?_, hheight⟩, hsteady'⟩
  · rw [offset, offset, hpinned, hp, hlowest, lowest, htotal]
    exact ⟨rfl, rfl⟩
  · rw [hsteady'.offset_eq (hpinned.trans hp), hsteady.offset_eq hp, hstored]
    simp only [hp, Bool.not_false, Bool.true_and, decide_eq_true_eq]
    split <;> omega

theorem narrowed_remeasure (hsteady : v.Steady)
    (hfit : (v.remeasure row sequence height).rows.sum < 2 ^ 63) :
    (v.remeasure row sequence height).Steady ∧ Narrowed v (v.remeasure row sequence height) := by
  obtain ⟨hmoved, hsteady'⟩ := moved_remeasure h hrow sequence hgrow hsteady hfit
  have hvalid := (valid_setHeight h hrow height.positive
    (w := v.remeasure row sequence height) rfl).1
  have hgrown := linesBefore_size (v.remeasure row sequence height)
  rw [hmoved.size, hmoved.before, linesBefore_size] at hgrown
  exact ⟨hsteady', narrowed_of_moved h hvalid (by omega) hfit hrow hmoved⟩

end Remeasure

/-! ### The same screen again -/

theorem steady_resize {v : Viewport} (hsize : 0 < v.size) (height : Nat) :
    (v.resize height).Steady := by
  have hlive : v.isEmpty = false := by
    rw [← Bool.not_eq_true, isEmpty_iff]
    omega
  cases hpinned : v.pinned with
  | true =>
    have hsame : v.resize height = { v with height } := by
      rw [resize]
      exact if_pos (by simp [hpinned])
    intro hpaused
    rw [hsame] at hpaused
    exact Bool.noConfusion (hpaused.symm.trans hpinned)
  | false =>
    have hmoved : v.resize height =
        { v with height, stored := ({ v with height } : Viewport).offset } := by
      rw [resize]
      exact if_neg (by simpa [hpinned, isEmpty] using hlive)
    intro _
    rw [hmoved]
    simp only [offset, hpinned, Bool.false_eq_true, if_false]
    exact Nat.min_le_right ..

/-- A steady view that is asked for the same screen does not move. -/
theorem resize_steady {v : Viewport} (h : v.Steady) : v.resize v.height = v := by
  rw [resize]
  dsimp only
  split
  · rfl
  next hstay =>
    have hpaused : v.pinned = false := by
      rw [← Bool.not_eq_true]
      exact fun hpinned => hstay (by simp [hpinned])
    show { v with stored := v.offset } = v
    rw [h.offset_eq hpaused]

/-- A window over fewer rows lays out no others. -/
theorem Narrowed.rows_subset {u v : Viewport} (h : Narrowed u v) (hu : Valid u) (hv : Valid v)
    (hfit : u.rows.sum < 2 ^ 63) (hfit' : v.rows.sum < 2 ^ 63) (hsize : v.size = u.size)
    (hsettings : v.settings = u.settings) {w x : Window} (hw : u.window? = some w)
    (hx : v.window? = some x) {row : Nat} (hrow : row ∈ x.rows) : row ∈ w.rows := by
  obtain ⟨hlive, hfirst, hlast, -⟩ := window?_eq hw
  obtain ⟨hlive', hfirst', hlast', -⟩ := window?_eq hx
  obtain ⟨hfront, hmiddle, hback, -⟩ := laidOut_bounds hu hfit hlive
  obtain ⟨hfront', hmiddle', hback', -⟩ := laidOut_bounds hv hfit' hlive'
  have hnarrow := h.first
  have hnarrow' := h.last
  simp only [Window.rows, Window.size, List.mem_range'_1, hfirst, hlast, hfirst', hlast'] at hrow ⊢
  simp only [laidOut, Span.widen, hsettings, hsize, Word.add] at *
  omega

end LiveTail.Rows.Viewport
