import LiveTail.Proofs.Rows.Covered
import LiveTail.Proofs.Rows.Measured
import LiveTail.Proofs.Tail
import LiveTail.View.Pane

/-! Measuring the rows of a picture.

Each pass lays out a window, wraps its records, and reports the heights that were not
known. After the last one every record that was wrapped has a row as high as it has lines
(`Settled.measured`). If a pass found no new height, its window is also the one that a
picture is put together with; otherwise every pass did (`Restless`). -/
namespace LiveTail
open Rows

namespace Tail
variable {ε : Type}

/-- The height of a measurement is one that can be reported. -/
def Action.Modest : Action ε → Prop
  | .measure _ height => height ≤ View.mostLines
  | _ => True

/-- A tail whose rows are in order and not higher than can be reported. -/
structure Bounded (t : Tail ε) : Prop where
  valid : Valid t
  within : t.viewport.Within View.mostLines

theorem bounded_append {t : Tail ε} (h : Bounded t) (r : LogRecord) : Bounded (t.append r).2 := by
  refine ⟨valid_append h.valid r, ?_⟩
  have hpush := h.within.push h.valid.viewport t.backlog.next
  rw [viewport_append]
  split
  · exact hpush.evict (Viewport.valid_push h.valid.viewport _) _
  · exact hpush

theorem bounded_ingest {t : Tail ε} (h : Bounded t) (d : Decoded) : Bounded (t.ingest d).2 := by
  cases d with
  | ok r => exact bounded_append h r
  | error e => exact ⟨valid_ingest h.valid (.error e), h.within⟩

theorem bounded_act {t : Tail ε} (h : Bounded t) {a : Action ε} (ha : a.Modest) :
    Bounded (t.act a) := by
  refine ⟨valid_act h.valid a, ?_⟩
  cases a with
  | append r => exact (bounded_append h r).within
  | ingestText text => exact (bounded_ingest h _).within
  | ingestMessage m => exact (bounded_ingest h _).within
  | ingest d => exact (bounded_ingest h d).within
  | window height =>
    exact h.within.of_heights (Viewport.heights_resize ..) (Viewport.settings_resize ..)
  | measure sequence height =>
    simp only [act, measure]
    cases hw : t.viewport.measure sequence height with
    | error e => exact h.within
    | ok answer => exact h.within.measure h.valid.viewport ha hw
  | resetMeasured => exact h.within.resetMeasured h.valid.viewport
  | clear => exact h.within.clear
  | scrollTo p => exact h.within.of_heights rfl rfl
  | scrollBy delta => exact h.within.of_heights rfl rfl
  | follow => exact h.within.of_heights rfl rfl
  | observe observer => exact h.within

theorem bounded_run {t : Tail ε} (h : Bounded t) {actions : List (Action ε)}
    (hmodest : ∀ a ∈ actions, a.Modest) : Bounded (t.run actions) := by
  induction actions generalizing t with
  | nil => exact h
  | cons a rest ih =>
    exact ih (bounded_act h (hmodest a (List.mem_cons_self ..)))
      fun b hb => hmodest b (List.mem_cons_of_mem a hb)

theorem bounded_of? {s : TailSettings} (h : s.rows.estimate.lines ≤ View.mostLines) {t : Tail ε}
    (ht : of? s = .ok t) : Bounded t := by
  obtain ⟨limit, rfl⟩ := new_of? ht
  exact ⟨⟨Backlog.valid_new limit, Viewport.valid_new s.rows, rfl, rfl⟩, .new h⟩

/-- A record that is held has the row of its place. -/
theorem Valid.rowOf?_at {t : Tail ε} (h : Valid t) {row : Nat} {e : Numbered}
    (hat : t.backlog.at? row = some e) : t.viewport.rowOf? e.sequence = some row := by
  rw [h.inStep.place]
  exact (Backlog.placeOf?_eq_some_iff h.backlog _ _).mpr (Backlog.sequence_at? h.backlog hat)

/-- Few enough records that the heights of their rows add up to a signed word. -/
def mostRecords : Nat := 2 ^ 47

theorem Bounded.fits {t : Tail ε} (h : Bounded t) (hsize : t.size ≤ mostRecords) :
    t.viewport.rows.sum < 2 ^ 63 := by
  have hsum := h.within.sum_le
  rw [h.valid.size] at hsum
  have hmul := Nat.mul_le_mul_right View.mostLines hsize
  simp only [mostRecords, View.mostLines, size] at hsum hmul
  omega

/-- A height that is reported reaches the rows. -/
theorem measure_eq (t : Tail ε) (sequence : Nat) {height : Nat} (hheight : 0 < height) :
    ∃ w, t.viewport.measure sequence height = .ok ((t.viewport.rowOf? sequence).isSome, w) ∧
      t.measure sequence height =
        .ok ((t.viewport.rowOf? sequence).isSome, { t with viewport := w }) := by
  obtain ⟨w, hw⟩ := Viewport.measure_eq t.viewport sequence hheight
  refine ⟨w, hw, ?_⟩
  rw [measure, hw]
  rfl

/-- Asking again for the same screen changes nothing. -/
theorem window_again (t : Tail ε) (height : Nat) :
    (t.act (.window height)).window height = t.window height := by
  simp only [act, window, Viewport.window_window]

end Tail

namespace View
variable {ε : Type}

/-! ### One pass -/

theorem mem_blocks {t : Tail ε} {w : Window} {columns : Nat} {b : Block} :
    b ∈ blocks t w columns ↔
      b.row ∈ w.rows ∧ ∃ e, t.backlog.at? b.row = some e ∧ b.record = e.record ∧
        b.lines = recordLines e.record columns := by
  simp only [blocks, List.mem_filterMap, Option.map_eq_some_iff]
  constructor
  · rintro ⟨row, hrow, e, hat, rfl⟩
    exact ⟨hrow, e, hat, rfl, rfl⟩
  · rintro ⟨hrow, e, hat, hrecord, hlines⟩
    exact ⟨b.row, hrow, e, hat, by rw [← hlines, ← hrecord]⟩

/-- Rows are wrapped from the first to the last. -/
theorem ordered_blocks (t : Tail ε) (w : Window) (columns : Nat) :
    (blocks t w columns).Pairwise (·.row < ·.row) := by
  refine List.pairwise_filterMap.mpr ((List.pairwise_lt_range' 1).imp ?_)
  intro row row' hlt b hb b' hb'
  obtain ⟨e, -, rfl⟩ := Option.map_eq_some_iff.mp hb
  obtain ⟨e', -, rfl⟩ := Option.map_eq_some_iff.mp hb'
  exact hlt

/-- Each row is wrapped once. -/
theorem nodup_blocks (t : Tail ε) (w : Window) (columns : Nat) :
    ((blocks t w columns).map (·.row)).Nodup :=
  List.pairwise_map.mpr ((ordered_blocks t w columns).imp Nat.ne_of_lt)

theorem recordLines_ne_nil (r : LogRecord) (columns : Nat) : recordLines r columns ≠ [] := by
  have hsegments : ∀ s, Text.segments s ≠ [] := by
    intro s
    cases s with
    | nil => nofun
    | cons c rest =>
      rw [Text.segments]
      split
      · nofun
      · split <;> nofun
  rw [recordLines, Text.wrap, Text.wrapBy, Ne, List.flatMap_eq_nil_iff]
  intro hall
  obtain ⟨s, rest, hs⟩ := List.exists_cons_of_ne_nil (hsegments (recordText r))
  exact Text.fill_ne_nil _ _ _ _ _ (hall s (by simp [hs]))

/-- What is reported of a block. -/
def Block.height (b : Block) : Nat := min b.lines.length mostLines

/-- The height of a record, as it is reported. -/
def reported (r : LogRecord) (columns : Nat) : Nat := min (recordLines r columns).length mostLines

theorem reported_pos (r : LogRecord) (columns : Nat) : 0 < reported r columns := by
  have hsome := List.length_pos_of_ne_nil (recordLines_ne_nil r columns)
  rw [reported, mostLines]
  omega

theorem Block.height_eq {t : Tail ε} {w : Window} {columns : Nat} {b : Block} {e : Numbered}
    (h : b ∈ blocks t w columns) (hat : t.backlog.at? b.row = some e) :
    b.height = reported e.record columns := by
  obtain ⟨-, e', hat', -, hlines⟩ := mem_blocks.mp h
  obtain rfl : e = e' := Option.some.inj (hat.symm.trans hat')
  rw [height, hlines, reported]

theorem mem_news {t : Tail ε} {bs : List Block} {sequence height : Nat} :
    (sequence, height) ∈ news t bs ↔ ∃ b ∈ bs, ∃ e, t.backlog.at? b.row = some e ∧
      t.viewport.rowHeight? e.sequence ≠ some b.height ∧ sequence = e.sequence ∧
      height = b.height := by
  simp only [news, List.mem_filterMap]
  refine exists_congr fun b => and_congr_right fun _ => ?_
  cases hat : t.backlog.at? b.row with
  | none => simp
  | some e =>
    simp only [bind, Option.bind, Option.ite_none_left_eq_some, Option.some.injEq, Prod.mk.injEq]
    constructor
    · rintro ⟨hnew, rfl, rfl⟩
      exact ⟨e, rfl, hnew, rfl, rfl⟩
    · rintro ⟨_, rfl, hnew, rfl, rfl⟩
      exact ⟨hnew, rfl, rfl⟩

/-- Reports are measurements. -/
theorem report_eq (t : Tail ε) (heights : List (Nat × Nat)) :
    report t heights = t.run (heights.map fun e => .measure e.1 e.2) := by
  induction heights generalizing t with
  | nil => rfl
  | cons e rest ih => exact ih _

theorem report_cons {t u : Tail ε} {sequence height : Nat} {known : Bool}
    (h : t.measure sequence height = .ok (known, u)) (rest : List (Nat × Nat)) :
    report t ((sequence, height) :: rest) = report u rest := by
  rw [report, List.foldl_cons]
  simp only [h]
  rfl

theorem bounded_report {t : Tail ε} (h : t.Bounded) {heights : List (Nat × Nat)}
    (hmost : ∀ e ∈ heights, e.2 ≤ mostLines) : (report t heights).Bounded := by
  rw [report_eq]
  refine Tail.bounded_run h fun a ha => ?_
  obtain ⟨e, he, rfl⟩ := List.mem_map.mp ha
  exact hmost e he

theorem backlog_report (t : Tail ε) (heights : List (Nat × Nat)) :
    (report t heights).backlog = t.backlog := by
  induction heights generalizing t with
  | nil => rfl
  | cons e rest ih =>
    refine (ih _).trans ?_
    simp only [Tail.measure]
    cases t.viewport.measure e.1 e.2 <;> rfl

/-- The last height that is reported for a row is the one it has. -/
theorem height_report {t : Tail ε} (h : t.Valid) {row height : Nat} {heights : List (Nat × Nat)}
    (hpositive : ∀ e ∈ heights, 0 < e.2)
    (hall : ∀ e ∈ heights, t.viewport.rowOf? e.1 = some row → e.2 = height)
    (hone : t.viewport.heights.height row = height ∨
      ∃ e ∈ heights, t.viewport.rowOf? e.1 = some row) :
    (report t heights).viewport.heights.height row = height := by
  induction heights generalizing t with
  | nil =>
    rcases hone with hheight | ⟨e, he, -⟩
    · exact hheight
    · cases he
  | cons e rest ih =>
    obtain ⟨w, hw, hmeasure⟩ := t.measure_eq e.1 (hpositive e (List.mem_cons_self ..))
    obtain ⟨hsize, hfirst⟩ := Viewport.rows_measure h.viewport hw
    have hrowOf := Viewport.rowOf?_congr hsize hfirst
    have hheight := Viewport.height_measure h.viewport hw row
    rw [report_cons hmeasure]
    refine ih (Tail.valid_measure h hmeasure)
      (fun e' he' => hpositive e' (List.mem_cons_of_mem _ he'))
      (fun e' he' hrow => hall e' (List.mem_cons_of_mem _ he') (by rwa [← hrowOf])) ?_
    simp only [hrowOf]
    by_cases hrow : t.viewport.rowOf? e.1 = some row
    · left
      rw [hheight, if_pos hrow]
      exact hall e (List.mem_cons_self ..) hrow
    · rw [hheight, if_neg hrow]
      refine hone.imp_right fun ⟨e', he', hrow'⟩ => ⟨e', ?_, hrow'⟩
      rcases List.mem_cons.mp he' with rfl | he'
      · exact absurd hrow' hrow
      · exact he'

/-! ### Pass after pass -/

/-- The heights that one pass finds. -/
def found (columns height : Nat) (t : Tail ε) : List (Nat × Nat) :=
  match t.window height with
  | (some w, t) => news t (blocks t w columns)
  | (none, _) => []

/-- The tail after one pass. -/
def measured (columns height : Nat) (t : Tail ε) : Tail ε :=
  report (t.act (.window height)) (found columns height t)

/-- Each of `n` passes finds heights. -/
def Restless (columns height : Nat) : Nat → Tail ε → Prop
  | 0, _ => True
  | n + 1, t => found columns height t ≠ [] ∧ Restless columns height n (measured columns height t)

/-- The records in a window are wrapped and their rows as high as they came out. -/
structure Settled (columns : Nat) (t : Tail ε) (w : Window) (bs : List Block) : Prop where
  bounded : t.Bounded
  wrapped : bs = blocks t w columns
  measured : ∀ b ∈ bs, t.viewport.heights.height b.row = b.height

theorem window_some {t : Tail ε} {height : Nat} {w : Window} (hw : (t.window height).1 = some w) :
    t.window height = (some w, t.act (.window height)) := by
  rw [← hw]
  rfl

theorem window_none {t : Tail ε} {height : Nat} (hw : (t.window height).1 = none) :
    t.window height = (none, t.act (.window height)) := by
  rw [← hw]
  rfl

theorem found_eq {t : Tail ε} {height : Nat} {w : Window} (hw : (t.window height).1 = some w)
    (columns : Nat) : found columns height t =
      news (t.act (.window height)) (blocks (t.act (.window height)) w columns) := by
  rw [found, window_some hw]

/-- A pass without a window finds nothing. -/
theorem found_of_none {t : Tail ε} {height : Nat} (hw : (t.window height).1 = none)
    (columns : Nat) : found columns height t = [] := by
  rw [found, window_none hw]

theorem settled_pass {t : Tail ε} (h : t.Bounded) {columns height : Nat} {w : Window}
    (hw : (t.window height).1 = some w) :
    Settled columns (measured columns height t) w (blocks t w columns) := by
  have hwindow : (t.act (.window height)).Bounded := Tail.bounded_act h trivial
  have hfound := found_eq hw columns
  constructor
  case bounded =>
    refine bounded_report hwindow fun ⟨sequence, reported⟩ he => ?_
    rw [hfound] at he
    obtain ⟨b, -, e, -, -, -, rfl⟩ := mem_news.mp he
    exact Nat.min_le_right ..
  case wrapped =>
    rw [blocks, blocks, measured, backlog_report]
    rfl
  case measured =>
    intro b hb
    have hb : b ∈ blocks (t.act (.window height)) w columns := hb
    obtain ⟨-, e, hat, -⟩ := mem_blocks.mp hb
    have hrow := hwindow.valid.rowOf?_at hat
    rw [measured, hfound]
    apply height_report hwindow.valid
    · rintro ⟨sequence, reported⟩ hnew
      obtain ⟨b', hb', e', hat', -, -, rfl⟩ := mem_news.mp hnew
      show 0 < b'.height
      rw [Block.height_eq hb' hat']
      exact reported_pos ..
    · -- What is reported for this row is the height of this block: no other has the row.
      rintro ⟨sequence, reported⟩ hnew hsame
      obtain ⟨b', hb', e', hat', -, rfl, rfl⟩ := mem_news.mp hnew
      rw [hwindow.valid.rowOf?_at hat', Option.some.injEq] at hsame
      show b'.height = b.height
      rw [Block.height_eq hb' hat', Block.height_eq hb hat]
      rw [hsame, hat, Option.some.injEq] at hat'
      rw [hat']
    · by_cases hknown : (t.act (.window height)).viewport.rowHeight? e.sequence = some b.height
      · left
        rw [Viewport.rowHeight?, hrow] at hknown
        exact Option.some.inj hknown
      · exact .inr ⟨(e.sequence, b.height), mem_news.mpr ⟨b, hb, e, hat, hknown, rfl, rfl⟩, hrow⟩

theorem measured_eq {t : Tail ε} {columns height : Nat} (h : found columns height t = []) :
    measured columns height t = t.act (.window height) := by
  rw [measured, h]
  rfl

theorem settle_succ {t : Tail ε} {columns height : Nat} {w : Window}
    (hw : (t.window height).1 = some w) (last : Option (Window × List Block)) (n : Nat) :
    settle t columns height last (n + 1) =
      if found columns height t = [] then
        (some (w, blocks t w columns), measured columns height t)
      else settle (measured columns height t) columns height (some (w, blocks t w columns)) n := by
  have hfound := found_eq hw columns
  rw [settle, window_some hw, measured]
  dsimp only
  rw [← hfound]
  cases found columns height t <;> rfl

theorem window_isSome {t : Tail ε} (h : t.Valid) (hsize : 0 < t.size) (height : Nat) :
    ∃ w, (t.window height).1 = some w :=
  Viewport.exists_window (by rwa [h.size]) height

@[simp] theorem backlog_measured (columns height : Nat) (t : Tail ε) :
    (measured columns height t).backlog = t.backlog := backlog_report _ _

/-- After at least one pass the last records wrapped have the rows that they need. Either the
window in which they are is the one that comes next, or every pass found heights. -/
theorem settled {t : Tail ε} (h : t.Bounded) (hsize : 0 < t.size) (columns height : Nat)
    (last : Option (Window × List Block)) (n : Nat) :
    ∃ w bs u, settle t columns height last (n + 1) = (some (w, bs), u) ∧ Settled columns u w bs ∧
      u.backlog = t.backlog ∧
      (u.window height = (some w, u) ∨ Restless columns height (n + 1) t) := by
  induction n generalizing t last with
  | zero =>
    obtain ⟨w, hw⟩ := window_isSome h.valid hsize height
    refine ⟨w, _, _, ?_, settled_pass h hw, backlog_measured .., ?_⟩
    · rw [settle_succ hw]
      split <;> rfl
    · by_cases hfound : found columns height t = []
      · left
        rw [measured_eq hfound, Tail.window_again, window_some hw]
      · exact .inr ⟨hfound, trivial⟩
  | succ n ih =>
    obtain ⟨w, hw⟩ := window_isSome h.valid hsize height
    have hpass : Settled columns _ w _ := settled_pass h hw
    rw [settle_succ hw]
    by_cases hfound : found columns height t = []
    · refine ⟨w, _, _, if_pos hfound, hpass, backlog_measured .., .inl ?_⟩
      rw [measured_eq hfound, Tail.window_again, window_some hw]
    · have hlater : 0 < (measured columns height t).size := by
        rwa [Tail.size, backlog_measured]
      obtain ⟨w', bs, u, hsettle, hsettled, hbacklog, hend⟩ := ih hpass.bounded hlater (some _)
      rw [if_neg hfound, hsettle]
      refine ⟨w', bs, u, rfl, hsettled, hbacklog.trans (backlog_measured ..), ?_⟩
      exact hend.imp_right fun hrestless => ⟨hfound, hrestless⟩

end View
end LiveTail
