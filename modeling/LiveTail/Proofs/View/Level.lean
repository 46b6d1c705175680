import LiveTail.Proofs.Following
import LiveTail.Proofs.Rows.Truthful
import LiveTail.Proofs.View.Pane

/-! Two passes are enough when rows come one line high.

Such a row is never taken for too high: it has one line, or as many as its record had when
it was wrapped for the width that the pane still has; when the width changes all rows go
back to one line. So whatever is done with a tail, as long as its heights come from one pane
alone, no row is higher than its record has lines at that width (`Level`). Then the first pass
finds all there is to be found (`found_measured`), and the rows of the last window have the
heights of their records (`brief_run`). -/
namespace LiveTail.View
open Screen Rows
variable {ε : Type} {columns : Nat} {t : Tail ε}

/-! ### What is always known of the heights -/

/-- What a pass finds are heights of records that are held. -/
theorem reported_of_found {height : Nat} {x : Nat × Nat} (h : x ∈ found columns height t) :
    ∃ row e, t.backlog.at? row = some e ∧ x = (e.sequence, reported e.record columns) := by
  cases hw : (t.window height).1 with
  | none =>
    rw [found_of_none hw] at h
    cases h
  | some w =>
    rw [found_eq hw] at h
    exact reported_of_news (t := t.act (.window height)) h

/-- Rows come one line high, and what is remembered of heights is true. -/
structure Kept (t : Tail ε) : Prop where
  bounded : t.Bounded
  remembers : ∃ es, t.viewport.Remembers es
  estimate : t.viewport.settings.estimate.lines = 1

namespace Kept

theorem act (h : Kept t) {a : Tail.Action ε} (ha : a.Modest) : Kept (t.act a) := by
  obtain ⟨es, hremembers⟩ := h.remembers
  have hviewport := Tail.viewport_act t a
  refine ⟨Tail.bounded_act h.bounded ha, ?_, ?_⟩
  · rw [hviewport]
    exact ⟨_, hremembers.run _⟩
  · rw [hviewport, Viewport.settings_run]
    exact h.estimate

theorem run (h : Kept t) {actions : List (Tail.Action ε)} (hmodest : ∀ a ∈ actions, a.Modest) :
    Kept (t.run actions) := by
  induction actions generalizing t with
  | nil => exact h
  | cons a rest ih =>
    exact ih (h.act (hmodest a (List.mem_cons_self ..)))
      fun b hb => hmodest b (List.mem_cons_of_mem a hb)

theorem measured (h : Kept t) (columns height : Nat) : Kept (measured columns height t) := by
  have hwindow : Kept (t.act (.window height)) := h.act (a := .window height) trivial
  rw [View.measured, report_eq]
  refine hwindow.run fun a ha => ?_
  obtain ⟨x, hx, rfl⟩ := List.mem_map.mp ha
  obtain ⟨row, e, -, rfl⟩ := reported_of_found hx
  exact Nat.min_le_right ..

theorem prepared (h : Kept t) (p : Pane) (width : Nat) : Kept (p.prepared t width) := by
  unfold Pane.prepared
  split
  · exact h
  · exact h.act (a := .resetMeasured) trivial

end Kept

theorem kept_of? {s : TailSettings} (h : s.rows.estimate.lines = 1) (ht : Tail.of? s = .ok t) :
    Kept t := by
  have hmost : s.rows.estimate.lines ≤ mostLines := by
    rw [h]
    decide
  refine ⟨Tail.bounded_of? hmost ht, ?_, ?_⟩ <;> obtain ⟨limit, rfl⟩ := Tail.new_of? ht
  · exact ⟨[], Viewport.remembers_new s.rows⟩
  · exact h

/-! ### No row is too high -/

theorem one_le_length (r : LogRecord) (columns : Nat) : 1 ≤ (recordLines r columns).length :=
  List.length_pos_of_ne_nil (recordLines_ne_nil r columns)

/-- The rows of a tail that has forgotten all heights have one line. -/
theorem low_reset (h : Kept t) (columns : Nat) : Low columns t.resetMeasured := by
  obtain ⟨es, hremembers⟩ := h.remembers
  intro row e hat
  have hrow : row < t.viewport.size := by
    rw [h.bounded.valid.size]
    exact (Backlog.mem_records hat).1
  have hrows := hremembers.rows_resetMeasured
  rw [h.estimate] at hrows
  have hheight : t.viewport.resetMeasured.heights.height row = 1 := by
    rw [Viewport.height_eq, hrows, List.getD_eq_getElem?_getD, List.getElem?_replicate, if_pos hrow]
    rfl
  show t.viewport.resetMeasured.heights.height row ≤ _
  rw [hheight]
  exact one_le_length e.record columns

/-- A record that comes has a row of one line, and takes the rows of those that go along. -/
theorem low_append (h : Kept t) (hlow : Low columns t) (r : LogRecord) :
    Low columns (t.append r).2 := by
  have hvalid := h.bounded.valid
  have hrows := Tail.rows_append hvalid r
  have hheld := (Backlog.toList_append hvalid.backlog r).1
  generalize (t.backlog.append r).1.dropped = count at hrows hheld
  have hlength : t.viewport.rows.length = t.backlog.toList.length := by
    rw [← Viewport.size_eq, hvalid.size, Backlog.size_eq]
  intro row e hat
  have hat : (t.backlog.append r).2.at? row = some e := hat
  rw [Backlog.at?_eq, hheld, List.getElem?_drop] at hat
  rw [Viewport.height_eq, hrows, List.getD_eq_getElem?_getD, List.getElem?_drop, h.estimate]
  rcases Nat.lt_or_ge (count + row) t.backlog.toList.length with hold | hnew
  · rw [List.getElem?_append_left hold] at hat
    have hheight := hlow (count + row) e (by rw [Backlog.at?_eq, hat])
    rw [Viewport.height_eq, List.getD_eq_getElem?_getD] at hheight
    rwa [List.getElem?_append_left (by rwa [hlength])]
  · rw [List.getElem?_append_right (by rwa [hlength]), List.getElem?_singleton]
    have hone := one_le_length e.record columns
    split
    · exact hone
    · exact Nat.zero_le _

theorem low_clear (t : Tail ε) (columns : Nat) : Low columns t.clear := by
  intro row e hat
  rw [Backlog.at?_eq] at hat
  cases hat

theorem low_window (hlow : Low columns t) (height : Nat) :
    Low columns (t.act (.window height)) := by
  intro row e hat
  have hheights := Viewport.heights_resize t.viewport height
  show (t.viewport.resize height).heights.height row ≤ _
  rw [hheights]
  exact hlow row e hat

/-- Only a height that is measured can make a row too high. -/
theorem low_act (h : Kept t) (hlow : Low columns t) {a : Tail.Action ε}
    (ha : ∀ sequence height, a ≠ .measure sequence height) : Low columns (t.act a) := by
  cases t.effect a with
  | record r houtcome hact =>
    rw [hact]
    exact low_append h hlow r
  | failure e houtcome hact =>
    rw [hact]
    exact hlow
  | clear ha =>
    rw [ha]
    exact low_clear t columns
  | view houtcome =>
    cases a with
    | window height => exact low_window hlow height
    | measure sequence height => exact absurd rfl (ha sequence height)
    | resetMeasured => exact low_reset h columns
    | append r => cases houtcome
    | ingestText text => cases houtcome
    | ingestMessage m => cases houtcome
    | ingest d => cases houtcome
    | clear => exact low_clear t columns
    | _ => exact hlow

/-- Heights of records that are held are not too high for their rows. -/
theorem low_report (h : t.Valid) (hlow : Low columns t) {heights : List (Nat × Nat)}
    (hheld : ∀ x ∈ heights, ∃ row e, t.backlog.at? row = some e ∧
      x = (e.sequence, reported e.record columns)) : Low columns (report t heights) := by
  induction heights generalizing t with
  | nil => exact hlow
  | cons x rest ih =>
    obtain ⟨row, e, hat, rfl⟩ := hheld x (List.mem_cons_self ..)
    obtain ⟨w, hw, hmeasure⟩ := t.measure_eq e.sequence (reported_pos e.record columns)
    rw [report_cons hmeasure]
    exact ih (Tail.valid_measure h hmeasure) (low_measure h hlow hat hw)
      fun x hx => hheld x (List.mem_cons_of_mem _ hx)

theorem low_measured (h : Kept t) (hlow : Low columns t) (height : Nat) :
    Low columns (measured columns height t) := by
  have hwindow : Kept (t.act (.window height)) := h.act (a := .window height) trivial
  exact low_report hwindow.bounded.valid (low_window hlow height)
    fun x hx => reported_of_found (t := t) hx

/-! ### A pane that alone reports heights -/

/-- Heights are measured nowhere but in a picture. -/
def Board.Event.Unmeasured : Board.Event ε → Prop
  | .act (.measure ..) => False
  | _ => True

/-- The rows of a board are not higher than its records have lines at the width of the pane. -/
structure Level (b : Board ε) : Prop where
  kept : Kept b.tail
  low : ∀ columns, b.pane.wrapWidth = some columns → Low columns b.tail

theorem Level.prepared {b : Board ε} (h : Level b) (width : Nat) :
    Low (textWidth width) (b.pane.prepared b.tail width) := by
  unfold Pane.prepared
  split
  next hsame => exact h.low _ hsame
  next => exact low_reset h.kept _

theorem wrapWidth_draw (p : Pane) (t : Tail ε) (colors : Palette) {a : Area} (c : Canvas)
    (ha : a.isEmpty = false) :
    (p.draw t colors a c).2.1.wrapWidth = some (textWidth a.width) := by
  have hlayout : (p.layout t a.width a.height).2.1.wrapWidth = some (textWidth a.width) := by
    unfold Pane.layout
    dsimp only
    split <;> rfl
  rw [Pane.draw, ha]
  simp only [Bool.false_eq_true, if_false]
  split
  next pane tail hpicture => rwa [hpicture] at hlayout
  next picture pane tail hpicture => rwa [hpicture] at hlayout

theorem Level.draw {b : Board ε} (h : Level b) (colors : Palette) (a : Area) (c : Canvas) :
    Level (b.step (.draw colors a c)) := by
  cases ha : a.isEmpty with
  | true =>
    have hsame : b.step (.draw colors a c) = b := by
      rw [Board.step, Pane.draw, if_pos ha]
    rw [hsame]
    exact h
  | false =>
    obtain ⟨hkept, hlow⟩ : Kept (b.pane.draw b.tail colors a c).2.2 ∧
        Low (textWidth a.width) (b.pane.draw b.tail colors a c).2.2 :=
      draw_keeps (P := fun u => Kept u ∧ Low (textWidth a.width) u)
        (fun u hu => ⟨hu.1.act (a := .window a.height) trivial, low_window hu.2 a.height⟩)
        (fun u hu => ⟨hu.1.measured _ _, low_measured hu.1 hu.2 _⟩)
        ⟨h.kept.prepared b.pane a.width, h.prepared a.width⟩ ha colors c
    refine ⟨hkept, fun columns hcolumns => ?_⟩
    have hwidth := wrapWidth_draw b.pane b.tail colors c ha
    obtain rfl : columns = textWidth a.width := Option.some.inj (hcolumns.symm.trans hwidth)
    exact hlow

theorem level_step {b : Board ε} (h : Level b) {e : Board.Event ε} (he : e.Unmeasured) :
    Level (b.step e) := by
  cases e with
  | draw colors a c => exact h.draw colors a c
  | act a =>
    have hmeasure : ∀ sequence height, a ≠ .measure sequence height := by
      rintro sequence height rfl
      exact he
    have hmodest : a.Modest := by
      cases a with
      | measure sequence height => exact absurd rfl (hmeasure sequence height)
      | _ => exact trivial
    exact ⟨h.kept.act hmodest, fun columns hcolumns => low_act h.kept (h.low columns hcolumns) hmeasure⟩

theorem level_run {b : Board ε} (h : Level b) {events : List (Board.Event ε)}
    (hunmeasured : ∀ e ∈ events, e.Unmeasured) : Level (b.run events) := by
  induction events generalizing b with
  | nil => exact h
  | cons e rest ih =>
    exact ih (level_step h (hunmeasured e (List.mem_cons_self ..)))
      fun e' he' => hunmeasured e' (List.mem_cons_of_mem _ he')

/-! ### Two passes -/

/-- What measuring comes to in one picture. -/
structure Brief (p : Pane) (t : Tail ε) (colors : Palette) (a : Area) (c : Canvas) : Prop where
  /-- A second pass finds no height that differs. -/
  second : found (textWidth a.width) a.height
    (measured (textWidth a.width) a.height (p.prepared t a.width)) = []
  /-- So it does not matter how many are allowed, as long as two are. -/
  allowed : ∀ n, settle (p.prepared t a.width) (textWidth a.width) a.height none (n + 2) =
    settle (p.prepared t a.width) (textWidth a.width) a.height none measuringPasses
  /-- Every row of the window that is kept has a record, and the height that is reported of it. -/
  window : ∃ w, (p.draw t colors a c).2.1.window = some w ∧ ∀ row ∈ w.rows,
    ∃ e, (p.draw t colors a c).2.2.backlog.at? row = some e ∧
      (p.draw t colors a c).2.2.viewport.rowHeight? e.sequence =
        some (reported e.record (textWidth a.width))

/-- When the second pass finds nothing, more are not made. -/
theorem settle_two (h : t.Bounded) (hsize : 0 < t.size) {height : Nat}
    (hfound : found columns height (measured columns height t) = [])
    (last : Option (Window × List Block)) (n : Nat) :
    settle t columns height last (n + 2) = settle t columns height last 2 := by
  obtain ⟨w, hw⟩ := window_isSome h.valid hsize height
  have hmeasured : (measured columns height t).Bounded := (settled_pass h hw).bounded
  obtain ⟨x, hx⟩ := window_isSome hmeasured.valid (by rwa [Tail.size, backlog_measured]) height
  rw [settle_succ hw, settle_succ hw, settle_succ hx, settle_succ hx, if_pos hfound, if_pos hfound]

theorem brief {b : Board ε} (h : Level b) (hsize : 0 < b.tail.size) (colors : Palette) {a : Area}
    (c : Canvas) (ha : a.isEmpty = false) (hfits : Fits (textWidth a.width) b.tail) :
    Brief b.pane b.tail colors a c := by
  have hkept := h.kept.prepared b.pane a.width
  have hlow := h.prepared a.width
  have hbacklog := b.pane.backlog_prepared b.tail a.width
  have hprepared : 0 < (b.pane.prepared b.tail a.width).size := by
    rwa [Tail.size, hbacklog]
  have hfits : Fits (textWidth a.width) (b.pane.prepared b.tail a.width) := by
    rwa [Fits, hbacklog]
  have hsecond := found_measured hkept.bounded hfits hlow hprepared a.height
  refine ⟨hsecond, fun n => ?_, ?_⟩
  · have hpasses := settle_two hkept.bounded hprepared hsecond none
    exact (hpasses n).trans (hpasses 1).symm
  · obtain ⟨w, bs, u, hsettle, hsettled, hsame, hend⟩ :=
      settled hkept.bounded hprepared (textWidth a.width) a.height none 2
    have hagain := hend.resolve_right fun hrestless => hrestless.2.1 hsecond
    have hfresh : (u.window a.height).1 = some w := by rw [hagain]
    have hact : u.act (.window a.height) = u := congrArg Prod.snd hagain
    have hdraw := Pane.draw_eq ha (Pane.layout_eq hsettle hfresh) colors c
    rw [hdraw, hact]
    refine ⟨w, rfl, fun row hrow => ?_⟩
    have hlive : row < u.backlog.toList.length := by
      have hlt := Viewport.lt_of_mem_rows hfresh hrow
      rw [Viewport.size, Viewport.heights_resize] at hlt
      rw [← Backlog.size_eq, ← hsettled.bounded.valid.size]
      exact hlt
    have hat : u.backlog.at? row = some u.backlog.toList[row] := by
      rw [Backlog.at?_eq, List.getElem?_eq_getElem hlive]
    have hblock : Block.mk row u.backlog.toList[row].record
        (recordLines u.backlog.toList[row].record (textWidth a.width)) ∈ bs := by
      rw [hsettled.wrapped]
      exact mem_blocks.mpr ⟨hrow, _, hat, rfl, rfl⟩
    refine ⟨_, hat, ?_⟩
    rw [Viewport.rowHeight?, hsettled.bounded.valid.rowOf?_at hat, Option.map_some]
    exact congrArg some (hsettled.measured _ hblock)

/-- **Two passes are enough when rows come one line high.** Whatever was done with a tail and
drawn before, at whatever widths, as long as heights come from one pane alone: in a picture of
records whose lines can be counted a second pass, if there is one, finds nothing that differs,
so the passes never run out, and every row of the window that the pane keeps is as high as its
record has lines at this width, as far as heights go. -/
theorem brief_run (s : TailSettings) (hcapacity : s.capacity ≠ some 0)
    (hestimate : s.rows.estimate.lines = 1) :
    ∃ t : Tail ε, Tail.of? s = .ok t ∧
      ∀ (events : List (Board.Event ε)), (∀ e ∈ events, e.Unmeasured) →
        let b := (Board.mk {} t).run events
        0 < b.tail.size → ∀ (colors : Palette) (a : Area) (c : Canvas), a.isEmpty = false →
          Fits (textWidth a.width) b.tail → Brief b.pane b.tail colors a c := by
  obtain ⟨t, ht, -⟩ := Tail.of?_eq (ε := ε) hcapacity
  refine ⟨t, ht, ?_⟩
  intro events hunmeasured b hsize colors a c ha hfits
  have hlevel : Level (Board.mk {} t) := ⟨kept_of? hestimate ht, nofun⟩
  exact brief (level_run hlevel hunmeasured) hsize colors c ha hfits

/-- A picture between records, and no height but what it measures. -/
def drawnBetween : List (Board.Event Unit) :=
  [.act (.append default), .act (.append default), .draw ⟨false⟩ ⟨0, 0, 40, 4⟩ (.blank 40 4),
    .act (.append default), .act (.scrollTo .top)]

/-- In a picture that is narrower than the last one every record takes two lines. -/
theorem brief_run_narrower :
    let s : TailSettings := ⟨⟨⟨1, by decide⟩, 1⟩, none⟩
    ∃ t : Tail Unit, Tail.of? s = .ok t ∧
      let b := (Board.mk {} t).run drawnBetween
      (s.capacity ≠ some 0 ∧ s.rows.estimate.lines = 1) ∧ (∀ e ∈ drawnBetween, e.Unmeasured) ∧
        0 < b.tail.size ∧ (Area.mk 0 0 12 4).isEmpty = false ∧ Fits (textWidth 12) b.tail ∧
        b.tail.backlog.records.map (reported · (textWidth 12)) = [2, 2, 2] ∧
        Brief b.pane b.tail ⟨false⟩ ⟨0, 0, 12, 4⟩ (.blank 12 4) := by
  intro s
  have hcapacity : s.capacity ≠ some 0 := by decide
  have hestimate : s.rows.estimate.lines = 1 := rfl
  have hunmeasured : ∀ e ∈ drawnBetween, e.Unmeasured := by
    simp [drawnBetween, Board.Event.Unmeasured]
  obtain ⟨t, ht, hrun⟩ := brief_run (ε := Unit) s hcapacity hestimate
  obtain rfl : t = ⟨.new none, .new s.rows, none, #[], {}⟩ := Except.ok.inj (ht.symm.trans rfl)
  let b := (Board.mk {} (⟨.new none, .new s.rows, none, #[], {}⟩ : Tail Unit)).run drawnBetween
  have hsize : 0 < b.tail.size := by decide +kernel
  have hfits : Fits (textWidth 12) b.tail := fits_of_size (by decide +kernel) _
  exact ⟨_, ht, ⟨hcapacity, hestimate⟩, hunmeasured, hsize, rfl, hfits, by decide +kernel,
    hrun drawnBetween hunmeasured hsize ⟨false⟩ ⟨0, 0, 12, 4⟩ (.blank 12 4) rfl hfits⟩

end LiveTail.View
