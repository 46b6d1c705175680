import LiveTail.Proofs.Rows.Growing

/-! Where a paused view stands after rows are measured.

A row above the top line that changes its height takes the top line along. The line that is
stored decides what is above, and it may lie past the end of the rows until the next window
settles it (`offset_remeasure`).

In a pass the rows are measured from the first to the last. What was measured then lies in front
of what is still to come, so the stored line and the rows to come move by the same number of
lines, and no row changes sides (`Passing.split_tell`). The stored line cannot reach zero on the
way either, for the next row above it starts in front of it (`Passing.height_le`). -/
namespace LiveTail.Rows.Viewport

/-! ### One row -/

section Remeasure
variable {v : Viewport} (h : Valid v) {row : Nat} (hrow : row < v.size) (height : RowHeight)
  (sequence : Nat)
include h hrow

/-- The lowest top line moves with the height of the row, down to the first line. -/
theorem lowest_remeasure (hfit : v.rows.sum < 2 ^ 63)
    (hfit' : (v.remeasure row sequence height).rows.sum < 2 ^ 63) :
    ((v.remeasure row sequence height).lowest : Int) =
      max 0 (v.total + height.lines - v.heights.height row - v.height) := by
  have hset := sum_set h hrow (w := v.remeasure row sequence height) rfl
  have hvalid := (valid_setHeight h hrow height.positive
    (w := v.remeasure row sequence height) rfl).1
  have hheight : (v.remeasure row sequence height).height = v.height := rfl
  rw [lowest, hvalid.total_eq hfit', hheight, h.total_eq hfit]
  omega

theorem offset_remeasure (hpaused : v.pinned = false) (hfit : v.rows.sum < 2 ^ 63)
    (hfit' : (v.remeasure row sequence height).rows.sum < 2 ^ 63) :
    let w := v.remeasure row sequence height
    (v.linesBefore row < v.offset → (w.offset : Int) =
      max 0 (min ((v.offset : Int) + height.lines - v.heights.height row) w.lowest)) ∧
    (v.offset ≤ v.linesBefore row → (w.offset = min v.offset w.lowest ↔
      ¬(v.lowest < v.stored ∧ v.lowest < w.lowest))) := by
  intro w
  have hlowest : (w.lowest : Int) = _ := lowest_remeasure h hrow height sequence hfit hfit'
  have hstored : w.stored = _ := stored_remeasure h hrow sequence hfit'
  have hoffset : w.offset = min w.stored w.lowest := by
    rw [offset, if_neg (by simp [show w.pinned = false from hpaused])]
  have hbefore : v.offset = min v.stored v.lowest := by
    rw [offset, if_neg (by simp [hpaused])]
  have hend : v.lowest = v.total - v.height := rfl
  simp only [hpaused, Bool.not_false, Bool.true_and, decide_eq_true_eq] at hstored
  rw [hoffset, hbefore]
  constructor
  · intro habove
    rw [if_pos (by omega)] at hstored
    omega
  · intro hbelow
    split at hstored <;> omega

end Remeasure

/-- **A measurement moves a paused view only for what is above it**, after any run. A row that
starts above the top line takes the line along, within what can be shown. Otherwise the top line
stays unless the end comes above it, with one exception: the view stands at the end only because
what is stored for it lies past the end, and the end moves away. -/
theorem offset_measure_run (settings : Settings) (actions : List Action)
    {sequence row height : Nat} (hpaused : ((new settings).run actions).pinned = false)
    (hrow : ((new settings).run actions).rowOf? sequence = some row) (hheight : 0 < height)
    (hfit : ((new settings).run actions).rows.sum < 2 ^ 63)
    (hfit' : (((new settings).run actions).act (.measure sequence height)).rows.sum < 2 ^ 63) :
    let v := (new settings).run actions
    let w := v.act (.measure sequence height)
    v.measure sequence height = .ok (true, w) ∧ w.lowest = w.total - v.height ∧
      (v.heights.start row < v.offset → (w.offset : Int) =
        max 0 (min ((v.offset : Int) + height - v.heights.height row) w.lowest)) ∧
      (v.offset ≤ v.heights.start row →
        (w.offset = min v.offset w.lowest ↔ ¬(v.lowest < v.stored ∧ v.lowest < w.lowest))) := by
  intro v w
  have hvalid : Valid v := valid_run (valid_new settings) actions
  have hlive : row < v.size := rowOf?_lt hrow
  have hmeasured := measure_some hrow ⟨height, hheight⟩
  have hact : w = v.remeasure row sequence ⟨height, hheight⟩ := by
    show v.act (.measure sequence height) = _
    rw [act, hmeasured]
  have hfitAfter : (v.remeasure row sequence ⟨height, hheight⟩).rows.sum < 2 ^ 63 := by
    rwa [← hact]
  rw [hact, hvalid.start_eq hfit hlive]
  exact ⟨hmeasured, rfl,
    offset_remeasure hvalid hlive ⟨height, hheight⟩ sequence hpaused hfit hfitAfter⟩

/-- The first of four rows shrinks above a view that stands at the end. -/
theorem offset_measure_run_above :
    let v := (new {}).run
      [.push 0, .push 1, .push 2, .push 3, .measure 0 5, .window 2, .scrollTo .bottom]
    (v.pinned = false ∧ v.rowOf? 0 = some 0 ∧ v.heights.start 0 < v.offset) ∧
      v.offset = 6 ∧ (v.act (.measure 0 2)).offset = 3 := by
  intro v
  have hpaused : v.pinned = false := by decide +kernel
  have hrow : v.rowOf? 0 = some 0 := by decide +kernel
  have habove : v.heights.start 0 < v.offset := by decide +kernel
  obtain ⟨-, -, hmoved, -⟩ := offset_measure_run {} _ hpaused hrow (show 0 < 2 by decide)
    (by decide +kernel) (by decide +kernel)
  refine ⟨⟨hpaused, hrow, habove⟩, by decide +kernel, Int.ofNat.inj ((hmoved habove).trans ?_)⟩
  decide +kernel

/-- The rows have shrunk under a view at the end; then the last one grows, and the view, which
stands above it, jumps to the new end. -/
theorem offset_measure_stale :
    let v := (new {}).run
      [.push 0, .push 1, .push 2, .push 3, .measure 0 5, .window 2, .scrollTo .bottom,
        .resetMeasured]
    v.pinned = false ∧ v.rowOf? 3 = some 3 ∧ v.offset ≤ v.heights.start 3 ∧
      (v.act (.measure 3 9)).offset ≠ min v.offset (v.act (.measure 3 9)).lowest := by
  decide +kernel

/-! ### A pass over the rows -/

theorem offset_le_lowest (v : Viewport) : v.offset ≤ v.lowest := by
  unfold offset
  split
  · exact Nat.le_refl _
  · exact Nat.min_le_right ..

/-- The height at which a row was drawn. -/
structure Report where
  row : Nat
  height : RowHeight
deriving DecidableEq, Repr

/-- The measurements that tell heights, when the first row has the number `first`. -/
def measurements (first : Nat) (reports : List Report) : List Action :=
  reports.map fun r => .measure (first + r.row) r.height.lines

/-- By how many lines reports move the row `n`. -/
def shift (v : Viewport) (reports : List Report) (n : Nat) : Int :=
  ((reports.filter fun r => r.row < n).map fun r =>
    (r.height.lines : Int) - v.heights.height r.row).sum

/-- The first row that does not start above the top line; the number of rows if all do. -/
def anchor (v : Viewport) : Nat :=
  (List.range v.size).findIdx fun row => v.offset ≤ v.heights.start row

theorem lt_anchor_iff {v : Viewport} (h : Valid v) (hfit : v.rows.sum < 2 ^ 63) {row : Nat}
    (hrow : row < v.size) : row < v.anchor ↔ v.linesBefore row < v.offset := by
  constructor
  · intro hlt
    have hnot := List.not_of_lt_findIdx hlt
    rw [List.getElem_range, h.start_eq hfit hrow] at hnot
    simpa using hnot
  · intro hlt
    by_contra hge
    have hanchor : v.anchor < v.size := by omega
    have hfound : v.offset ≤ v.heights.start v.anchor := by
      have hindex := List.findIdx_getElem
        (w := Nat.lt_of_lt_of_eq hanchor List.length_range.symm)
      rw [decide_eq_true_eq, List.getElem_range] at hindex
      exact hindex
    rw [h.start_eq hfit hanchor] at hfound
    have hmono := v.linesBefore_mono (m := v.anchor) (n := row) (by omega)
    omega

section Shift
variable (v : Viewport) {reports : List Report}

theorem shift_cons (r : Report) (reports : List Report) (n : Nat) :
    v.shift (r :: reports) n =
      (if r.row < n then (r.height.lines : Int) - v.heights.height r.row else 0) +
        v.shift reports n := by
  by_cases h : r.row < n <;> simp [shift, h]

theorem shift_congr {w : Viewport}
    (h : ∀ r ∈ reports, w.heights.height r.row = v.heights.height r.row) (n : Nat) :
    w.shift reports n = v.shift reports n := by
  have hmap := List.map_congr_left (l := reports.filter fun r => r.row < n)
    (f := fun r => (r.height.lines : Int) - w.heights.height r.row)
    (g := fun r => (r.height.lines : Int) - v.heights.height r.row)
    fun r hr => by rw [h r (List.mem_of_mem_filter hr)]
  exact congrArg List.sum hmap

/-- Reports of what is known move no row. -/
theorem shift_eq {m n : Nat} (hle : m ≤ n) (h : ∀ r ∈ reports, m ≤ r.row → r.row < n →
    r.height.lines = v.heights.height r.row) : v.shift reports n = v.shift reports m := by
  induction reports with
  | nil => rfl
  | cons r rest ih =>
    have hrest := ih fun other hmem => h other (List.mem_cons_of_mem r hmem)
    have hhead := h r (List.mem_cons_self ..)
    rw [shift_cons, shift_cons, hrest]
    by_cases hfront : r.row < m
    · rw [if_pos hfront, if_pos (by omega)]
    · rw [if_neg hfront]
      split
      next hlt =>
        have hsame := hhead (by omega) hlt
        omega
      next => rfl

end Shift

/-- The viewport after one report. -/
def tell (first : Nat) (v : Viewport) (r : Report) : Viewport :=
  v.remeasure r.row (first + r.row) r.height

/-- Reports for rows that are held, in their order, with sums that are words all along. -/
structure Passing (first : Nat) (v : Viewport) (reports : List Report) : Prop where
  valid : Valid v
  held : ∀ r ∈ reports, v.rowOf? (first + r.row) = some r.row
  ordered : reports.Pairwise (·.row < ·.row)
  fits : ∀ n ≤ reports.length, (v.run (measurements first (reports.take n))).rows.sum < 2 ^ 63

theorem run_cons {first : Nat} {v : Viewport} {r : Report}
    (h : v.rowOf? (first + r.row) = some r.row) (rest : List Report) :
    v.run (measurements first (r :: rest)) = (v.tell first r).run (measurements first rest) := by
  have hact : v.act (.measure (first + r.row) r.height.lines) = v.tell first r := by
    rw [act, measure_some h]
    rfl
  rw [← hact]
  rfl

namespace Passing

section One
variable {first : Nat} {v : Viewport} {r : Report} {rest : List Report}
  (h : Passing first v (r :: rest))
include h

theorem live : r.row < v.size := rowOf?_lt (h.held r (List.mem_cons_self ..))

theorem size_tell : (v.tell first r).size = v.size :=
  (valid_setHeight h.valid h.live r.height.positive (w := v.tell first r) rfl).2

theorem run_eq : v.run (measurements first (r :: rest)) =
    (v.tell first r).run (measurements first rest) :=
  run_cons (h.held r (List.mem_cons_self ..)) rest

theorem tell : Passing first (v.tell first r) rest := by
  constructor
  case valid =>
    exact (valid_setHeight h.valid h.live r.height.positive (w := v.tell first r) rfl).1
  case held =>
    intro other hmem
    rw [rowOf?_congr h.size_tell rfl]
    exact h.held other (List.mem_cons_of_mem r hmem)
  case ordered => exact h.ordered.of_cons
  case fits =>
    intro n hn
    have hfits := h.fits (n + 1) (Nat.succ_le_succ hn)
    rwa [List.take_succ_cons, run_cons (h.held r (List.mem_cons_self ..))] at hfits

theorem height_tell (n : Nat) : (v.tell first r).heights.height n =
    if r.row = n then r.height.lines else v.heights.height n :=
  HeightIndex.height_set h.valid.heights h.live r.height.lines n

theorem linesBefore_tell (n : Nat) : ((v.tell first r).linesBefore n : Int) =
    v.linesBefore n +
      if r.row < n then (r.height.lines : Int) - v.heights.height r.row else 0 := by
  have hset := linesBefore_set h.valid h.live (w := v.tell first r) rfl n
  split at hset <;> omega

theorem lt_of_mem {other : Report} (hmem : other ∈ rest) : r.row < other.row :=
  List.rel_of_pairwise_cons h.ordered hmem

theorem shift_tell (n : Nat) : (v.tell first r).shift rest n = v.shift rest n := by
  refine shift_congr v (fun other hmem => ?_) n
  rw [h.height_tell, if_neg (Nat.ne_of_lt (h.lt_of_mem hmem))]

section Split
variable {anchor : Nat} (hpaused : v.pinned = false)
  (hsplit : ∀ other ∈ r :: rest, other.row < anchor ↔ v.linesBefore other.row < v.stored)
include hsplit

/-- The stored line is not moved past the first one: while a row above it is still to come, it
stays behind that row. -/
theorem height_le (hfront : r.row < anchor)
    (hroom : 0 ≤ (v.stored : Int) + v.shift (r :: rest) anchor) :
    v.heights.height r.row ≤ v.stored + r.height.lines := by
  rw [shift_cons, if_pos hfront] at hroom
  by_cases hmore : ∃ other ∈ rest, other.row < anchor
  · obtain ⟨other, hmem, hlt⟩ := hmore
    have habove := (hsplit other (List.mem_cons_of_mem r hmem)).mp hlt
    have hbefore := h.linesBefore_tell other.row
    rw [if_pos (h.lt_of_mem hmem)] at hbefore
    omega
  · have hnone : v.shift rest anchor = 0 := by
      rw [shift, List.filter_eq_nil_iff.mpr (by simpa using hmore)]
      rfl
    omega

include hpaused

theorem stored_tell (hroom : 0 ≤ (v.stored : Int) + v.shift (r :: rest) anchor) :
    ((v.tell first r).stored : Int) = v.stored +
      if r.row < anchor then (r.height.lines : Int) - v.heights.height r.row else 0 := by
  have hstored : (v.tell first r).stored = _ :=
    stored_remeasure h.valid h.live (first + r.row) (h.tell.fits 0 (Nat.zero_le _))
  have hhead := hsplit r (List.mem_cons_self ..)
  simp only [hpaused, Bool.not_false, Bool.true_and, decide_eq_true_eq, ← hhead] at hstored
  rw [hstored]
  split
  next hfront =>
    have hle := h.height_le hsplit hfront hroom
    omega
  next => rw [Int.add_zero]

/-- The rows still to come stay on their side of the stored line. -/
theorem split_tell (hroom : 0 ≤ (v.stored : Int) + v.shift (r :: rest) anchor) :
    ∀ other ∈ rest,
      other.row < anchor ↔ (v.tell first r).linesBefore other.row < (v.tell first r).stored := by
  intro other hmem
  have hstored := h.stored_tell hpaused hsplit hroom
  have hbefore := h.linesBefore_tell other.row
  have hhead := hsplit r (List.mem_cons_self ..)
  have hother := hsplit other (List.mem_cons_of_mem r hmem)
  have hlt := h.lt_of_mem hmem
  rw [if_pos hlt] at hbefore
  by_cases hfront : r.row < anchor
  · rw [if_pos hfront] at hstored
    omega
  · -- The row that changes is not above the line, so the rows behind it cannot get there.
    have hmono := (v.tell first r).linesBefore_mono (Nat.le_of_lt hlt)
    have hsame := h.linesBefore_tell r.row
    rw [if_neg (Nat.lt_irrefl _)] at hsame
    rw [if_neg hfront] at hstored
    omega

end Split
end One

variable {first : Nat} {v : Viewport} {reports : List Report} (h : Passing first v reports)
include h

theorem size_run : (v.run (measurements first reports)).size = v.size := by
  induction reports generalizing v with
  | nil => rfl
  | cons r rest ih => rw [h.run_eq, ih h.tell, h.size_tell]

theorem height_unreported {row : Nat} (hrow : ∀ r ∈ reports, r.row ≠ row) :
    (v.run (measurements first reports)).heights.height row = v.heights.height row := by
  induction reports generalizing v with
  | nil => rfl
  | cons r rest ih =>
    rw [h.run_eq, ih h.tell fun other hmem => hrow other (List.mem_cons_of_mem r hmem),
      h.height_tell, if_neg (hrow r (List.mem_cons_self ..))]

theorem height_reported {r : Report} (hmem : r ∈ reports) :
    (v.run (measurements first reports)).heights.height r.row = r.height.lines := by
  induction reports generalizing v with
  | nil => cases hmem
  | cons head rest ih =>
    rw [h.run_eq]
    rcases List.mem_cons.mp hmem with rfl | hmem
    · rw [h.tell.height_unreported fun other hlater => Nat.ne_of_gt (h.lt_of_mem hlater),
        h.height_tell, if_pos rfl]
    · exact ih h.tell hmem

theorem linesBefore_run (n : Nat) : ((v.run (measurements first reports)).linesBefore n : Int) =
    v.linesBefore n + v.shift reports n := by
  induction reports generalizing v with
  | nil => exact (Int.add_zero _).symm
  | cons r rest ih =>
    rw [h.run_eq, ih h.tell, h.linesBefore_tell, h.shift_tell, shift_cons, Int.add_assoc]

/-- A paused view moves with the rows in front of `anchor`, as long as these start above it. -/
theorem stored_run {anchor : Nat} (hpaused : v.pinned = false)
    (hsplit : ∀ r ∈ reports, r.row < anchor ↔ v.linesBefore r.row < v.stored)
    (hroom : 0 ≤ (v.stored : Int) + v.shift reports anchor) :
    (v.run (measurements first reports)).pinned = false ∧
      ((v.run (measurements first reports)).stored : Int) =
        v.stored + v.shift reports anchor := by
  induction reports generalizing v with
  | nil => exact ⟨hpaused, (Int.add_zero _).symm⟩
  | cons r rest ih =>
    have hstored := h.stored_tell hpaused hsplit hroom
    have hlater := h.split_tell hpaused hsplit hroom
    rw [shift_cons, ← Int.add_assoc, ← hstored, ← h.shift_tell] at hroom ⊢
    rw [h.run_eq]
    exact ih h.tell hpaused hlater hroom

theorem fits_run : (v.run (measurements first reports)).rows.sum < 2 ^ 63 := by
  have hall := h.fits reports.length (Nat.le_refl _)
  rwa [List.take_length] at hall

/-- The top line moves with the rows above it, unless the new end comes first. -/
theorem offset_run (hsteady : 0 < v.size → v.Steady) (hpaused : v.pinned = false)
    (hroom : 0 ≤ (v.offset : Int) + v.shift reports v.anchor) :
    ((v.run (measurements first reports)).offset : Int) =
      min (v.offset + v.shift reports v.anchor) (v.run (measurements first reports)).lowest := by
  cases reports with
  | nil =>
    have hlowest := v.offset_le_lowest
    show (v.offset : Int) = min ((v.offset : Int) + 0) v.lowest
    omega
  | cons r rest =>
    have hoffset := (hsteady (Nat.zero_lt_of_lt h.live)).offset_eq hpaused
    have hsplit : ∀ other ∈ r :: rest,
        other.row < v.anchor ↔ v.linesBefore other.row < v.stored := by
      intro other hmem
      rw [← hoffset]
      exact lt_anchor_iff h.valid (h.fits 0 (Nat.zero_le _)) (rowOf?_lt (h.held other hmem))
    rw [hoffset] at hroom ⊢
    obtain ⟨hpaused', hstored⟩ := h.stored_run hpaused hsplit hroom
    rw [← hstored, offset, if_neg (by simp [hpaused'])]
    omega

/-- So do the rows from there on, up to the first that has changed. -/
theorem start_run {row : Nat} (hrow : row < v.size) (hanchor : v.anchor ≤ row)
    (hsame : ∀ other, v.anchor ≤ other → other < row →
      (v.run (measurements first reports)).heights.height other = v.heights.height other) :
    ((v.run (measurements first reports)).heights.start row : Int) =
      v.heights.start row + v.shift reports v.anchor := by
  have hshift : v.shift reports row = v.shift reports v.anchor := by
    refine shift_eq v hanchor fun r hmem hbehind hfront => ?_
    rw [← hsame r.row hbehind hfront, h.height_reported hmem]
  have hvalid := valid_run h.valid (measurements first reports)
  rw [hvalid.start_eq h.fits_run (by rwa [h.size_run]),
    h.valid.start_eq (h.fits 0 (Nat.zero_le _)) hrow, h.linesBefore_run, hshift]

end Passing

/-- **A pass of measurements leaves a paused view where it is**, for any run that ends with a
window, and reports in the order of the rows. The top line moves with the rows above it, or to
the new end if that comes first. If it moves with them, the first row that does not start above
it stays on its line of the screen, and so does every row behind it as long as the rows between
have kept their heights. -/
theorem anchored_run (settings : Settings) (actions : List Action) (screen first : Nat)
    (reports : List Report) {v w : Viewport}
    (hv : v = (((new settings).run actions).window screen).2)
    (hw : w = v.run (measurements first reports)) (hpaused : v.pinned = false)
    (hheld : ∀ r ∈ reports, v.rowOf? (first + r.row) = some r.row)
    (hordered : reports.Pairwise (·.row < ·.row))
    (hfits : ∀ n ≤ reports.length,
      (v.run (measurements first (reports.take n))).rows.sum < 2 ^ 63)
    (hroom : 0 ≤ (v.offset : Int) + v.shift reports v.anchor) :
    (w.offset : Int) = min (v.offset + v.shift reports v.anchor) w.lowest ∧
      ((w.offset : Int) = v.offset + v.shift reports v.anchor →
        ∀ row, v.anchor ≤ row → row < v.size →
          (∀ other, v.anchor ≤ other → other < row →
            w.heights.height other = v.heights.height other) →
          (w.heights.start row : Int) - w.offset = v.heights.start row - v.offset) := by
  have hvalid : Valid v := by
    rw [hv]
    exact valid_act (valid_run (valid_new settings) actions) (.window screen)
  have hpass : Passing first v reports := ⟨hvalid, hheld, hordered, hfits⟩
  have hsteady : 0 < v.size → v.Steady := by
    rw [hv, size, window, heights_resize]
    exact fun hlive => steady_resize hlive screen
  subst hw
  constructor
  · exact hpass.offset_run hsteady hpaused hroom
  · intro hmoved row hanchor hrow hsame
    rw [hmoved, hpass.start_run hrow hanchor hsame]
    omega

/-- Two rows above the top line grow, and one on the screen. -/
theorem anchored_run_scrolled :
    let v := (((new {}).run [.push 0, .push 1, .push 2, .push 3, .push 4, .window 2,
      .scrollTo (.line 2)]).window 2).2
    let reports : List Report := [⟨0, ⟨3, by decide⟩⟩, ⟨1, ⟨2, by decide⟩⟩, ⟨3, ⟨4, by decide⟩⟩]
    let w := v.run (measurements 0 reports)
    (v.pinned = false ∧ v.anchor = 2 ∧ v.shift reports v.anchor = 3) ∧
      (w.offset : Int) = min ((v.offset : Int) + 3) w.lowest ∧
      (w.heights.start 3 : Int) - w.offset = v.heights.start 3 - v.offset := by
  intro v reports w
  have hpaused : v.pinned = false := by decide +kernel
  have hanchor : v.anchor = 2 := by decide +kernel
  have hshift : v.shift reports v.anchor = 3 := by decide +kernel
  have hheld : ∀ r ∈ reports, v.rowOf? (0 + r.row) = some r.row := by decide +kernel
  have hfits : ∀ n ≤ reports.length,
      (v.run (measurements 0 (reports.take n))).rows.sum < 2 ^ 63 := by decide +kernel
  have hroom : 0 ≤ (v.offset : Int) + v.shift reports v.anchor := by decide +kernel
  obtain ⟨hoffset, hstay⟩ := anchored_run {} _ 2 0 reports (v := v) (w := w) rfl rfl hpaused hheld
    (by decide) hfits hroom
  rw [hshift] at hoffset
  refine ⟨⟨hpaused, hanchor, hshift⟩, hoffset, ?_⟩
  exact hstay (by decide +kernel) 3 (by decide +kernel) (by decide +kernel) (by decide +kernel)

/-- When the first row on the screen grows itself, the rows behind it move with it, though none
between them has changed. -/
theorem anchored_moved :
    let v := (((new {}).run [.push 0, .push 1, .push 2, .window 2, .scrollTo .top]).window 2).2
    let reports : List Report := [⟨0, ⟨3, by decide⟩⟩, ⟨1, ⟨2, by decide⟩⟩]
    let w := v.run (measurements 0 reports)
    (v.pinned = false ∧ v.anchor = 0 ∧ v.shift reports 0 = 0 ∧ w.offset = v.offset) ∧
      w.heights.height 1 ≠ v.heights.height 1 ∧
      (w.heights.start 1 : Int) - w.offset ≠ v.heights.start 1 - v.offset := by
  decide +kernel

end LiveTail.Rows.Viewport
