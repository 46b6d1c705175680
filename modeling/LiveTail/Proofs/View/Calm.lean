import Mathlib.Algebra.Order.BigOperators.Group.List
import LiveTail.Proofs.Rows.Growing
import LiveTail.Proofs.View.Measuring

/-! One pass is enough when rows only grow.

As long as no row is higher than its record has lines (`Low`), reporting the heights of a
window brings no row into it that was not there (`grown_report`). So the pass after finds
nothing that is new (`found_measured`). -/
namespace LiveTail.View
open Rows
variable {ε : Type} {columns : Nat} {t u : Tail ε}

/-- No row is higher than its record has lines. -/
def Low (columns : Nat) (t : Tail ε) : Prop :=
  ∀ row e, t.backlog.at? row = some e →
    t.viewport.heights.height row ≤ (recordLines e.record columns).length

/-- The lines that can be reported of all records add up to a signed word. -/
def Fits (columns : Nat) (t : Tail ε) : Prop :=
  (t.backlog.records.map (reported · columns)).sum < 2 ^ 63

theorem fits_of_size (h : t.size ≤ Tail.mostRecords) (columns : Nat) : Fits columns t := by
  have hsum : (t.backlog.records.map (reported · columns)).sum ≤ t.size * mostLines := by
    have hmost : ∀ x ∈ t.backlog.records.map (reported · columns), x ≤ mostLines := by
      intro x hx
      obtain ⟨r, -, rfl⟩ := List.mem_map.mp hx
      exact Nat.min_le_right ..
    have hlength := List.sum_le_card_nsmul _ _ hmost
    rwa [List.length_map, Backlog.records, List.length_map, ← Backlog.size_eq, smul_eq_mul]
      at hlength
  have hmul := Nat.mul_le_mul_right mostLines h
  simp only [Fits, Tail.mostRecords, mostLines] at *
  omega

/-- Then so do the heights of their rows. -/
theorem Fits.sum_lt (h : Fits columns t) (hbounded : t.Bounded) (hlow : Low columns t) :
    t.viewport.rows.sum < 2 ^ 63 := by
  have hlength : t.viewport.rows.length = t.backlog.records.length := by
    rw [← Viewport.size_eq, hbounded.valid.size, Backlog.size_eq, Backlog.records, List.length_map]
  refine Nat.lt_of_le_of_lt (List.Forall₂.sum_le_sum ?_) h
  refine List.forall₂_iff_get.mpr ⟨by rw [hlength, List.length_map], fun row hrow hrow' => ?_⟩
  have hrecord : row < t.backlog.toList.length := by
    rwa [List.length_map, Backlog.records, List.length_map] at hrow'
  have hat : t.backlog.at? row = some t.backlog.toList[row] := by
    rw [Backlog.at?_eq, List.getElem?_eq_getElem hrecord]
  have hlive : row < t.viewport.size := by rwa [Viewport.size_eq]
  have hheight : t.viewport.heights.height row = t.viewport.rows[row] := by
    rw [HeightIndex.height_eq, List.getD_eq_getElem?_getD]
    exact congrArg (·.getD 0) (List.getElem?_eq_getElem hrow)
  have hleast : t.viewport.heights.height row ≤ reported t.backlog.toList[row].record columns :=
    Nat.le_min.mpr ⟨hlow row _ hat, hbounded.within.height_le hlive⟩
  rw [hheight] at hleast
  simpa [Backlog.records] using hleast

/-- A tail whose rows may grow, between the reports of a pass. -/
structure Growing (columns : Nat) (t : Tail ε) : Prop where
  bounded : t.Bounded
  fits : Fits columns t
  steady : t.viewport.Steady
  low : Low columns t

theorem Growing.sum_lt (h : Growing columns t) : t.viewport.rows.sum < 2 ^ 63 :=
  h.fits.sum_lt h.bounded h.low

/-- Rows have grown, and no other has come onto the screen. -/
structure Grown (t u : Tail ε) : Prop where
  backlog : u.backlog = t.backlog
  size : u.viewport.size = t.viewport.size
  settings : u.viewport.settings = t.viewport.settings
  height : u.viewport.height = t.viewport.height
  narrowed : t.viewport.Narrowed u.viewport

namespace Grown

theorem refl (t : Tail ε) : Grown t t := ⟨rfl, rfl, rfl, rfl, .refl _⟩

theorem trans {s t u : Tail ε} (h : Grown s t) (h' : Grown t u) : Grown s u :=
  ⟨h'.backlog.trans h.backlog, h'.size.trans h.size, h'.settings.trans h.settings,
    h'.height.trans h.height, h.narrowed.trans h'.narrowed⟩

end Grown

/-- A row that is reported as high as its record has lines is not higher. -/
theorem low_measure (h : t.Valid) (hlow : Low columns t) {row : Nat} {e : Numbered}
    (hat : t.backlog.at? row = some e) {known : Bool} {w : Viewport}
    (hw : t.viewport.measure e.sequence (reported e.record columns) = .ok (known, w)) :
    Low columns { t with viewport := w } := by
  intro row' e' hat'
  rw [Viewport.height_measure h.viewport hw, h.rowOf?_at hat]
  split
  next heq =>
    obtain rfl := Option.some.inj heq
    obtain rfl : e = e' := Option.some.inj (hat.symm.trans hat')
    exact Nat.min_le_left ..
  next => exact hlow row' e' hat'

theorem grown_measure (h : Growing columns t) {row : Nat} {e : Numbered}
    (hat : t.backlog.at? row = some e) :
    ∃ known u, t.measure e.sequence (reported e.record columns) = .ok (known, u) ∧
      Growing columns u ∧ Grown t u := by
  have hvalid := h.bounded.valid.viewport
  have hrow := h.bounded.valid.rowOf?_at hat
  have hlt := Viewport.rowOf?_lt hrow
  obtain ⟨w, hw, hmeasure⟩ := t.measure_eq e.sequence (reported_pos e.record columns)
  have hbounded : ({ t with viewport := w } : Tail ε).Bounded :=
    ⟨Tail.valid_measure h.bounded.valid hmeasure,
      h.bounded.within.measure hvalid (Nat.min_le_right ..) hw⟩
  have hsize := (Viewport.rows_measure hvalid hw).1
  have hlow := low_measure h.bounded.valid h.low hat hw
  refine ⟨_, _, hmeasure, ?_⟩
  obtain ⟨hnone, -⟩ | ⟨row', lines, hsome, hlines, -, rfl⟩ := Viewport.measure_cases hw
  · rw [hrow] at hnone
    cases hnone
  · obtain rfl : row = row' := Option.some.inj (hrow.symm.trans hsome)
    have hgrow : t.viewport.heights.height row ≤ lines.lines := by
      rw [RowHeight.lines_of? hlines]
      exact Nat.le_min.mpr ⟨h.low row e hat, h.bounded.within.height_le hlt⟩
    have hfits : Fits columns { t with viewport := t.viewport.remeasure row e.sequence lines } :=
      h.fits
    obtain ⟨hsteady, hnarrowed⟩ := Viewport.narrowed_remeasure hvalid hlt e.sequence hgrow h.steady
      (hfits.sum_lt hbounded hlow)
    exact ⟨⟨hbounded, hfits, hsteady, hlow⟩, ⟨rfl, hsize, rfl, rfl, hnarrowed⟩⟩

theorem grown_report (h : Growing columns t) {heights : List (Nat × Nat)}
    (hheld : ∀ x ∈ heights, ∃ row e, t.backlog.at? row = some e ∧
      x = (e.sequence, reported e.record columns)) :
    Growing columns (report t heights) ∧ Grown t (report t heights) := by
  induction heights generalizing t with
  | nil => exact ⟨h, .refl t⟩
  | cons x rest ih =>
    obtain ⟨row, e, hat, rfl⟩ := hheld x (List.mem_cons_self ..)
    obtain ⟨known, u, hmeasure, hgrowing, hgrown⟩ := grown_measure h hat
    rw [report_cons hmeasure]
    obtain ⟨hgrowing', hgrown'⟩ := ih hgrowing fun x hx => by
      rw [hgrown.backlog]
      exact hheld x (List.mem_cons_of_mem _ hx)
    exact ⟨hgrowing', hgrown.trans hgrown'⟩

/-- The first report of a pass meets a tail at rest. -/
theorem growing_window (h : t.Bounded) (hfit : Fits columns t) (hlow : Low columns t)
    (hsize : 0 < t.size) (height : Nat) : Growing columns (t.act (.window height)) := by
  refine ⟨Tail.bounded_act h trivial, hfit, Viewport.steady_resize ?_ height, fun row e hat => ?_⟩
  · rwa [h.valid.size]
  · show (t.viewport.resize height).heights.height row ≤ _
    rw [Viewport.heights_resize]
    exact hlow row e hat

theorem reported_of_news {w : Window} {x : Nat × Nat} (h : x ∈ news t (blocks t w columns)) :
    ∃ row e, t.backlog.at? row = some e ∧ x = (e.sequence, reported e.record columns) := by
  obtain ⟨sequence, height⟩ := x
  obtain ⟨b, hb, e, hat, -, rfl, rfl⟩ := mem_news.mp h
  exact ⟨b.row, e, hat, by rw [Block.height_eq hb hat]⟩

/-- **After one pass nothing is new** when no row was higher than its record has lines. -/
theorem found_measured (h : t.Bounded) (hfit : Fits columns t) (hlow : Low columns t)
    (hsize : 0 < t.size) (height : Nat) :
    found columns height (measured columns height t) = [] := by
  obtain ⟨w, hw⟩ := window_isSome h.valid hsize height
  have hgrowing := growing_window h hfit hlow hsize height
  have hsettled : Settled columns (measured columns height t) w (blocks t w columns) :=
    settled_pass h hw
  obtain ⟨hgrowing', hgrown⟩ : Growing columns (measured columns height t) ∧
      Grown (t.act (.window height)) (measured columns height t) := by
    rw [measured, found_eq hw]
    exact grown_report hgrowing fun x hx => reported_of_news hx
  generalize measured columns height t = u at *
  -- The tail is asked for the same screen again, and stays as it is.
  have hagain : u.viewport.resize height = u.viewport := by
    have hsame := Viewport.resize_steady hgrowing'.steady
    rwa [hgrown.height.trans (Viewport.height_resize ..)] at hsame
  obtain ⟨x, hx⟩ := window_isSome hgrowing'.bounded.valid
    (by rwa [Tail.size, hgrown.backlog]) height
  have hact : u.act (.window height) = u := by
    simp only [Tail.act, Tail.window, Viewport.window, hagain]
  rw [found_eq hx, hact, List.eq_nil_iff_forall_not_mem]
  rintro ⟨sequence, reported⟩ hnew
  obtain ⟨b, hb, e, hat, hunknown, -⟩ := mem_news.mp hnew
  obtain ⟨hmem, hblock⟩ := mem_blocks.mp hb
  have hfirst : b.row ∈ w.rows := by
    refine hgrown.narrowed.rows_subset hgrowing.bounded.valid.viewport
      hgrowing'.bounded.valid.viewport hgrowing.sum_lt hgrowing'.sum_lt hgrown.size
      hgrown.settings hw ?_ hmem
    rw [← hagain]
    exact hx
  refine hunknown ?_
  rw [Viewport.rowHeight?, hgrowing'.bounded.valid.rowOf?_at hat, Option.map_some,
    hsettled.measured b ?_]
  rw [hsettled.wrapped]
  exact mem_blocks.mpr ⟨hfirst, hblock⟩

/-- Then the passes do not run out. -/
theorem not_restless (h : t.Bounded) (hfit : Fits columns t) (hlow : Low columns t)
    (hsize : 0 < t.size) (height n : Nat) : ¬Restless columns height (n + 2) t :=
  fun hrestless => hrestless.2.1 (found_measured h hfit hlow hsize height)

end LiveTail.View
