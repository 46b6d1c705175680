import LiveTail.Proofs.Rows.Viewport
import Mathlib.Algebra.Group.Action.Defs
import Mathlib.Algebra.Order.BigOperators.Group.List
import Mathlib.Algebra.Order.Group.Nat

/-! What the rows measure.

A measurement sets the height of one row and leaves the others alone (`height_measure`).
As long as neither the estimate nor a measurement is higher than some bound, no row ever
is (`within_act`). -/
namespace LiveTail.Rows

theorem RowHeight.lines_of? {height : Nat} {lines : RowHeight}
    (h : RowHeight.of? height = .ok lines) : lines.lines = height := by
  unfold RowHeight.of? at h
  split at h
  · obtain rfl := Except.ok.inj h
    rfl
  · cases h

theorem HeightIndex.height_set {t : HeightIndex} (h : Valid t) {row : Nat} (hrow : row < t.size)
    (height other : Nat) :
    (t.set row height).height other = if row = other then height else t.height other := by
  have hlist := (valid_set h hrow height).2
  rw [size_eq] at hrow
  rw [height_eq, hlist, height_eq, List.getD_eq_getElem?_getD, List.getElem?_set]
  split
  next => rfl
  next => rw [← List.getD_eq_getElem?_getD]

namespace Viewport

theorem rowOf?_congr {v w : Viewport} (hsize : w.size = v.size) (hfirst : w.first? = v.first?)
    (sequence : Nat) : w.rowOf? sequence = v.rowOf? sequence := by
  rw [rowOf?, rowOf?, hsize, hfirst]

theorem height_measure {v w : Viewport} (h : Valid v) {sequence height : Nat} {known : Bool}
    (hw : v.measure sequence height = .ok (known, w)) (row : Nat) :
    w.heights.height row =
      if v.rowOf? sequence = some row then height else v.heights.height row := by
  obtain ⟨hnone, -, rfl⟩ | ⟨measured, lines, hsome, hlines, -, rfl⟩ := measure_cases hw
  · simp [hnone]
  · have hset := HeightIndex.height_set h.heights (rowOf?_lt hsome) lines.lines row
    rw [RowHeight.lines_of? hlines] at hset
    simp only [hsome, Option.some.injEq, ← hset]
    rw [← RowHeight.lines_of? hlines]
    rfl

/-! ### How high rows can be -/

/-- No row, and no row to come, is higher than a bound. -/
structure Within (limit : Nat) (v : Viewport) : Prop where
  estimate : v.settings.estimate.lines ≤ limit
  rows : ∀ x ∈ v.rows, x ≤ limit

namespace Within
variable {limit : Nat} {v w : Viewport}

theorem of_heights (h : Within limit v) (hheights : w.heights = v.heights)
    (hsettings : w.settings = v.settings) : Within limit w := by
  constructor
  · rw [hsettings]
    exact h.estimate
  · rw [Viewport.rows, hheights]
    exact h.rows

theorem height_le (h : Within limit v) {row : Nat} (hrow : row < v.size) :
    v.heights.height row ≤ limit := by
  have hlength : row < v.heights.toList.length := by rwa [← HeightIndex.size_eq]
  rw [HeightIndex.height_eq, List.getD_eq_getElem?_getD, List.getElem?_eq_getElem hlength]
  exact h.rows _ (List.getElem_mem hlength)

theorem sum_le (h : Within limit v) : v.rows.sum ≤ v.size * limit := by
  rw [size_eq, ← smul_eq_mul]
  exact List.sum_le_card_nsmul v.rows limit h.rows

theorem new {settings : Settings} (h : settings.estimate.lines ≤ limit) :
    Within limit (Viewport.new settings) := by
  refine ⟨h, fun x hx => ?_⟩
  rw [Viewport.rows, Viewport.new, (HeightIndex.valid_ofCapacity 64).2] at hx
  cases hx

theorem push (h : Within limit v) (hvalid : Valid v) (sequence : Nat) :
    Within limit (v.push sequence) := by
  refine ⟨h.estimate, fun x hx => ?_⟩
  rw [Viewport.rows, Viewport.push, (HeightIndex.valid_push hvalid.heights _).2] at hx
  rcases List.mem_append.mp hx with hx | hx
  · exact h.rows x hx
  · obtain rfl := List.mem_singleton.mp hx
    exact h.estimate

/-- One row set to a height within the bound. -/
theorem setRow (h : Within limit v) (hvalid : Valid v) {row x : Nat} (hrow : row < v.size)
    (hx : x ≤ limit) (hheights : w.heights = v.heights.set row x)
    (hsettings : w.settings = v.settings) : Within limit w := by
  refine ⟨by rw [hsettings]; exact h.estimate, fun y hy => ?_⟩
  rw [Viewport.rows, hheights, (HeightIndex.valid_set hvalid.heights hrow x).2] at hy
  rcases List.mem_or_eq_of_mem_set hy with hy | rfl
  · exact h.rows y hy
  · exact hx

theorem measure (h : Within limit v) (hvalid : Valid v) {sequence height : Nat} {known : Bool}
    (hheight : height ≤ limit) (hw : v.measure sequence height = .ok (known, w)) :
    Within limit w := by
  obtain ⟨-, -, rfl⟩ | ⟨row, lines, hrow, hlines, -, rfl⟩ := measure_cases hw
  · exact h
  · have hle : lines.lines ≤ limit := by rwa [RowHeight.lines_of? hlines]
    exact h.setRow hvalid (rowOf?_lt hrow) hle rfl rfl

theorem resetMeasured (h : Within limit v) (hvalid : Valid v) : Within limit v.resetMeasured := by
  have hrows := estimateRows_induction (v := v)
    (P := fun heights => Valid { v with heights } ∧ heights.size = v.size ∧
      Within limit { v with heights }) ⟨hvalid, rfl, h⟩ ?_ v.measured.keys
  · exact hrows.2.2.of_heights rfl rfl
  · rintro heights row ⟨hvalid, hsize, hwithin⟩ hrow
    have hlt : row < heights.size := Nat.lt_of_lt_of_eq hrow hsize.symm
    obtain ⟨hset, hsame⟩ := valid_setHeight (v := { v with heights })
      (w := { v with heights := heights.set row v.settings.estimate.lines }) hvalid hlt
      v.settings.estimate.positive rfl
    exact ⟨hset, hsame.trans hsize, hwithin.setRow hvalid hlt h.estimate rfl rfl⟩

theorem evict (h : Within limit v) (hvalid : Valid v) (count : Nat) :
    Within limit (v.evict count) := by
  unfold Viewport.evict
  split
  · exact h
  · dsimp only
    split
    · exact h
    · refine ⟨h.estimate, fun x hx => ?_⟩
      rw [Viewport.rows, (HeightIndex.valid_dropFront hvalid.heights _).2.2] at hx
      exact h.rows x (List.mem_of_mem_drop hx)

theorem clear (h : Within limit v) : Within limit v.clear := by
  refine ⟨h.estimate, fun x hx => ?_⟩
  rw [Viewport.rows, Viewport.clear, (HeightIndex.valid_clear v.heights).2] at hx
  cases hx

end Within
end Viewport
end LiveTail.Rows
