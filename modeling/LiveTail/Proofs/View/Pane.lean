import LiveTail.Proofs.View.Calm
import LiveTail.Proofs.View.Placing

/-! The pane shows what its window says.

On every row of the screen that is not below the last record, the window puts one line of
one record. If the record was wrapped in the last pass, that line is drawn there, and no
other; else nothing is (`painted_run`). A record that was not wrapped can come into the
window only when the passes run out: each of them found heights that it did not know,
rows turned out lower than they were taken for, and more of them fit on the screen. -/
namespace LiveTail.View
open Screen Rows
variable {ε : Type}

/-! ### Laying out -/

/-- The tail as it is measured: without heights that belong to another width. -/
def Pane.prepared (p : Pane) (t : Tail ε) (width : Nat) : Tail ε :=
  if p.wrapWidth = some (textWidth width) then t else t.resetMeasured

/-- The rows of the records wrapped in the last pass. -/
def Pane.wrapped (p : Pane) (t : Tail ε) (width height : Nat) : List Nat :=
  match (settle (p.prepared t width) (textWidth width) height none measuringPasses).1 with
  | some (_, bs) => bs.map (·.row)
  | none => []

theorem Pane.bounded_prepared (p : Pane) {t : Tail ε} (h : t.Bounded) (width : Nat) :
    (p.prepared t width).Bounded := by
  unfold prepared
  split
  · exact h
  · exact Tail.bounded_act h (a := .resetMeasured) trivial

theorem Pane.backlog_prepared (p : Pane) (t : Tail ε) (width : Nat) :
    (p.prepared t width).backlog = t.backlog := by
  unfold prepared
  split <;> rfl

theorem Pane.layout_eq {p : Pane} {t u : Tail ε} {width height : Nat} {w fresh : Window}
    {bs : List Block}
    (hsettle : settle (p.prepared t width) (textWidth width) height none measuringPasses =
      (some (w, bs), u))
    (hfresh : (u.window height).1 = some fresh) :
    p.layout t width height =
      (some ⟨fresh, place fresh bs height⟩,
        { p with wrapWidth := some (textWidth width), height, window := some fresh },
        u.act (.window height)) := by
  rw [prepared] at hsettle
  simp only [layout, hsettle, window_some hfresh, Option.getD_some]

theorem Pane.draw_eq {p q : Pane} {t u : Tail ε} {a : Area} {picture : Picture}
    (ha : a.isEmpty = false) (hlayout : p.layout t a.width a.height = (some picture, q, u))
    (colors : Palette) (c : Canvas) : p.draw t colors a c =
      (Scrollbar.draw ⟨picture.window.total - a.height, picture.window.scroll, a.height⟩ a
        (paintLines colors picture.lines a c), q, u) := by
  rw [draw, ha, hlayout]
  rfl

/-! ### What is drawn -/

/-- What a picture has on a row of the screen. -/
inductive Drawn (picture : Picture) (held : Backlog) (columns y : Nat) (wrapped : List Nat) : Prop
  /-- The line of the record there, and nothing else. -/
  | line (row start : Nat) (e : Numbered) (text : List Char)
      (covers : picture.window.Covers row start (picture.window.scroll + y))
      (hheld : held.at? row = some e) (hwrapped : row ∈ wrapped)
      (htext : (recordLines e.record columns)[picture.window.scroll + y - start]? = some text)
      (drawn : picture.linesAt y = [⟨y, e.record, picture.window.scroll + y - start, text⟩])
  /-- Nothing, where the record was not wrapped. -/
  | blank (row start : Nat) (e : Numbered)
      (covers : picture.window.Covers row start (picture.window.scroll + y))
      (hheld : held.at? row = some e) (hunwrapped : row ∉ wrapped)
      (drawn : picture.linesAt y = [])

/-- No record held takes more lines than can be reported. -/
def Wraps (held : Backlog) (columns : Nat) : Prop :=
  ∀ r ∈ held.records, (recordLines r columns).length ≤ mostLines

/-- A record that was wrapped takes as many lines as its row is high. -/
theorem Settled.length_lines {u : Tail ε} {columns : Nat} {w : Window} {bs : List Block}
    (h : Settled columns u w bs) (hwraps : Wraps u.backlog columns) {b : Block} (hb : b ∈ bs) :
    b.row < u.viewport.size ∧ b.lines.length = u.viewport.heights.height b.row ∧
      ∃ e, u.backlog.at? b.row = some e ∧ b.record = e.record ∧
        b.lines = recordLines e.record columns := by
  have hheight := h.measured b hb
  rw [h.wrapped] at hb
  obtain ⟨-, e, hat, hrecord, hlines⟩ := mem_blocks.mp hb
  obtain ⟨hlt, hrecords⟩ := Backlog.mem_records hat
  have hmost := hwraps e.record hrecords
  rw [← hlines] at hmost
  refine ⟨by rwa [h.bounded.valid.size], ?_, e, hat, hrecord, hlines⟩
  rw [hheight, Block.height, Nat.min_eq_left hmost]

section Drawing
variable {u : Tail ε} (hfit : u.size ≤ Tail.mostRecords) {columns height : Nat} {w fresh : Window}
  {bs : List Block} (h : Settled columns u w bs) (hwraps : Wraps u.backlog columns)
  (hfresh : (u.window height).1 = some fresh) {y : Nat} (hy : y < height)
include hfit h hwraps hfresh hy

/-- A block of another row than that of a line has none of its own there: its lines end in
front of it, or start behind it. -/
theorem filter_place_other {row : Nat}
    (hcovers : fresh.Covers row (u.viewport.linesBefore row) (fresh.scroll + y)) {b : Block}
    (hb : b ∈ bs) (hne : b.row ≠ row) : (place fresh [b] height).filter (·.y == y) = [] := by
  obtain ⟨hblock, hlength, -⟩ := h.length_lines hwraps hb
  have hnext := u.viewport.linesBefore_succ hblock
  have hstart := Viewport.start?_window h.bounded.valid.viewport (h.bounded.fits hfit) hfresh
  rw [place_one hy]
  cases hplaced : fresh.start? b.row with
  | none => rfl
  | some start =>
    have hlater := hcovers.later b.row start
    rw [hstart, Option.ite_none_right_eq_some, Option.some.injEq] at hplaced
    obtain ⟨hlaid, rfl⟩ := hplaced
    dsimp only
    split
    next hle =>
      have hlt : b.row < row := by
        rcases Nat.lt_or_gt_of_ne hne with hlt | hgt
        · exact hlt
        · have := hlater hgt (by rw [hstart, if_pos hlaid])
          omega
      have hmono := u.viewport.linesBefore_mono (m := b.row + 1) (n := row) hlt
      have hstarts := hcovers.start_le
      rw [List.getElem?_eq_none (by omega)]
      rfl
    next => rfl

theorem drawn_place (hline : fresh.scroll + y < fresh.total) :
    Drawn ⟨fresh, place fresh bs height⟩ u.backlog columns y (bs.map (·.row)) := by
  have hvalid := h.bounded.valid.viewport
  have hsum := h.bounded.fits hfit
  obtain ⟨row, hlive, hmem, hcovers, hend⟩ :=
    Viewport.covered_window hvalid hsum hfresh hy hline
  have hstart := Viewport.start?_window hvalid hsum hfresh
  obtain ⟨e, hat⟩ : ∃ e, u.backlog.at? row = some e := by
    rw [h.bounded.valid.size, Backlog.size_eq] at hlive
    exact ⟨_, by rw [Backlog.at?_eq, List.getElem?_eq_getElem hlive]⟩
  have hothers : ∀ b ∈ bs, b.row ≠ row → (place fresh [b] height).filter (·.y == y) = [] :=
    fun b hb hne => filter_place_other hfit h hwraps hfresh hy hcovers hb hne
  by_cases hrow : row ∈ bs.map (·.row)
  · obtain ⟨b, hb, rfl⟩ := List.mem_map.mp hrow
    obtain ⟨-, hlength, e', hat', hrecord, hlines⟩ := h.length_lines hwraps hb
    rw [hat, Option.some.injEq] at hat'
    subst hat'
    have hnodup : (bs.map (·.row)).Nodup := by
      rw [h.wrapped]
      exact nodup_blocks u w columns
    have hle := hcovers.start_le
    have hindex : fresh.scroll + y - u.viewport.linesBefore b.row < b.lines.length := by omega
    have htext := List.getElem?_eq_getElem hindex
    refine .line b.row _ e _ hcovers hat hrow (by rw [← hlines]; exact htext) ?_
    rw [Picture.linesAt, filter_place, flatMap_one hb hnodup hothers, place_one hy, hstart,
      if_pos hmem, hrecord]
    dsimp only
    rw [if_pos hle, htext]
    rfl
  · refine .blank row _ e hcovers hat hrow ?_
    rw [Picture.linesAt, filter_place, List.flatMap_eq_nil_iff]
    exact fun b hb => hothers b hb fun heq => hrow (heq ▸ List.mem_map_of_mem hb)

end Drawing

/-- If the window is the one in which records were wrapped, nothing stays blank. -/
theorem linesAt_ne_nil {u : Tail ε} (hfit : u.size ≤ Tail.mostRecords) {columns height : Nat}
    {w : Window} {bs : List Block} (h : Settled columns u w bs) (hwraps : Wraps u.backlog columns)
    (hw : (u.window height).1 = some w) {y : Nat} (hy : y < height)
    (hline : w.scroll + y < w.total) : (Picture.mk w (place w bs height)).linesAt y ≠ [] := by
  cases drawn_place hfit h hwraps hw hy hline with
  | line row start e text _ _ _ _ drawn =>
    rw [drawn]
    nofun
  | blank row start e hcovers hheld hunwrapped _ =>
    have hlaid := hcovers.starts
    rw [Viewport.start?_window h.bounded.valid.viewport (h.bounded.fits hfit) hw,
      Option.ite_none_right_eq_some] at hlaid
    have hblock : Block.mk row e.record (recordLines e.record columns) ∈ bs := by
      rw [h.wrapped]
      exact mem_blocks.mpr ⟨hlaid.1, e, hheld, rfl, rfl⟩
    exact absurd (List.mem_map_of_mem hblock) hunwrapped

/-! ### A pane and its tail -/

/-- A pane and the tail that it shows. -/
structure Board (ε : Type) where
  pane : Pane := {}
  tail : Tail ε

namespace Board

/-- Between two pictures anything may be done with the tail. -/
inductive Event (ε : Type) where
  | act (a : Tail.Action ε)
  | draw (colors : Palette) (a : Area) (c : Canvas)

/-- Heights that are measured elsewhere are ones that can be reported. -/
def Event.Modest : Event ε → Prop
  | .act a => a.Modest
  | .draw .. => True

def step (b : Board ε) : Event ε → Board ε
  | .act a => { b with tail := b.tail.act a }
  | .draw colors a c =>
    let (_, pane, tail) := b.pane.draw b.tail colors a c
    { pane, tail }

def run (b : Board ε) : List (Event ε) → Board ε
  | [] => b
  | e :: rest => (b.step e).run rest

end Board

/-- What every pass keeps holds when the passes are over. -/
theorem settle_keeps {P : Tail ε → Prop} {columns height : Nat}
    (hwindow : ∀ u, P u → P (u.act (.window height)))
    (hpass : ∀ u, P u → P (measured columns height u)) {t : Tail ε} (h : P t)
    (last : Option (Window × List Block)) (n : Nat) : P (settle t columns height last n).2 := by
  induction n generalizing t last with
  | zero => exact h
  | succ n ih =>
    cases hw : (t.window height).1 with
    | none =>
      rw [settle, window_none hw]
      exact hwindow t h
    | some w =>
      rw [settle_succ hw]
      split
      · exact hpass t h
      · exact ih (hpass t h) _

theorem draw_keeps {P : Tail ε → Prop} {a : Area}
    (hwindow : ∀ u, P u → P (u.act (.window a.height)))
    (hpass : ∀ u, P u → P (measured (textWidth a.width) a.height u)) {p : Pane} {t : Tail ε}
    (h : P (p.prepared t a.width)) (ha : a.isEmpty = false) (colors : Palette) (c : Canvas) :
    P (p.draw t colors a c).2.2 := by
  have hsettled := settle_keeps hwindow hpass h none measuringPasses
  have hlayout : P (p.layout t a.width a.height).2.2 := by
    rw [Pane.prepared] at hsettled
    unfold Pane.layout
    dsimp only
    split
    next last hsettle =>
      rw [hsettle] at hsettled
      exact hsettled
    next w bs u hsettle =>
      rw [hsettle] at hsettled
      exact hwindow u hsettled
  rw [Pane.draw, ha]
  simp only [Bool.false_eq_true, if_false]
  split
  next pane tail hpicture =>
    rw [hpicture] at hlayout
    exact hlayout
  next picture pane tail hpicture =>
    rw [hpicture] at hlayout
    exact hlayout

theorem bounded_measured {t : Tail ε} (h : t.Bounded) (columns height : Nat) :
    (measured columns height t).Bounded := by
  cases hw : (t.window height).1 with
  | none =>
    rw [measured_eq (found_of_none hw columns)]
    exact Tail.bounded_act h (a := .window height) trivial
  | some w => exact (settled_pass h hw).bounded

theorem bounded_draw (p : Pane) {t : Tail ε} (h : t.Bounded) (colors : Palette) (a : Area)
    (c : Canvas) : (p.draw t colors a c).2.2.Bounded := by
  cases ha : a.isEmpty with
  | true =>
    rw [Pane.draw, if_pos ha]
    exact h
  | false =>
    exact draw_keeps (P := Tail.Bounded)
      (fun u hu => Tail.bounded_act hu (a := .window a.height) trivial)
      (fun u hu => bounded_measured hu (textWidth a.width) a.height)
      (p.bounded_prepared h a.width) ha colors c

theorem Board.bounded_run {b : Board ε} (h : b.tail.Bounded) {events : List (Event ε)}
    (hmodest : ∀ e ∈ events, e.Modest) : (b.run events).tail.Bounded := by
  induction events generalizing b with
  | nil => exact h
  | cons e rest ih =>
    refine ih ?_ fun e' he' => hmodest e' (List.mem_cons_of_mem _ he')
    have he := hmodest e (List.mem_cons_self ..)
    cases e with
    | act a => exact Tail.bounded_act h he
    | draw colors a c => exact bounded_draw b.pane h colors a c

/-- What drawing a pane puts on the screen. -/
structure Painted (p : Pane) (t : Tail ε) (colors : Palette) (a : Area) (c : Canvas)
    (picture : Picture) : Prop where
  /-- The lines of the picture are painted, and a scrollbar over them. -/
  canvas : ∃ bar : Scrollbar,
    (p.draw t colors a c).1 = bar.draw a (Pane.paintLines colors picture.lines a c)
  window : (p.draw t colors a c).2.1.window = some picture.window
  /-- What is painted on a row are the lines placed there. -/
  alone : ∀ y, (Pane.paintLines colors picture.lines a c).rows[a.y + y]? =
    (Pane.paintLines colors (picture.linesAt y) a c).rows[a.y + y]?
  drawn : ∀ y < a.height, picture.window.scroll + y < picture.window.total →
    Drawn picture t.backlog (textWidth a.width) y (p.wrapped t a.width a.height)
  /-- Only when every pass finds heights does anything stay blank. -/
  restless : ∀ y < a.height, picture.window.scroll + y < picture.window.total →
    picture.linesAt y = [] →
    Restless (textWidth a.width) a.height measuringPasses (p.prepared t a.width)
  /-- Nothing stays blank when no row was taken for higher than it is. -/
  full : Low (textWidth a.width) (p.prepared t a.width) →
    ∀ y < a.height, picture.window.scroll + y < picture.window.total → picture.linesAt y ≠ []

theorem painted {t : Tail ε} (h : t.Bounded) (hsize : 0 < t.size)
    (hfit : t.size ≤ Tail.mostRecords) (p : Pane) (colors : Palette) {a : Area} (c : Canvas)
    (ha : a.isEmpty = false) (hwraps : Wraps t.backlog (textWidth a.width)) :
    ∃ picture, Painted p t colors a c picture := by
  have hbacklog := p.backlog_prepared t a.width
  have hprepared := p.bounded_prepared h a.width
  have hsizes : (p.prepared t a.width).size = t.size := by rw [Tail.size, hbacklog, Tail.size]
  have hcalm := fun hlow : Low (textWidth a.width) (p.prepared t a.width) =>
    not_restless hprepared (fits_of_size (by rwa [hsizes]) _) hlow (by rwa [hsizes]) a.height 1
  obtain ⟨w, bs, u, hsettle, hsettled, hsame, hend⟩ := settled hprepared
    (by rwa [hsizes]) (textWidth a.width) a.height none 2
  rw [hbacklog] at hsame
  rw [Tail.size, ← hsame] at hsize hfit
  rw [← hsame] at hwraps
  obtain ⟨fresh, hfresh⟩ := window_isSome hsettled.bounded.valid hsize a.height
  have hdraw := Pane.draw_eq ha (Pane.layout_eq hsettle hfresh) colors c
  have hwrapped : p.wrapped t a.width a.height = bs.map (·.row) := by
    rw [Pane.wrapped, measuringPasses, hsettle]
  have hblank : ∀ y < a.height, fresh.scroll + y < fresh.total →
      (Picture.mk fresh (place fresh bs a.height)).linesAt y = [] →
      Restless (textWidth a.width) a.height measuringPasses (p.prepared t a.width) := by
    intro y hy hline hnone
    refine hend.resolve_left fun hagain => ?_
    obtain rfl : w = fresh := by
      rw [hagain] at hfresh
      exact Option.some.inj hfresh
    exact linesAt_ne_nil hfit hsettled hwraps hfresh hy hline hnone
  refine ⟨⟨fresh, place fresh bs a.height⟩, ?_⟩
  constructor
  case canvas => exact ⟨_, by rw [hdraw]⟩
  case window => rw [hdraw]
  case alone => exact Pane.row_paintLines colors _ a c
  case drawn =>
    intro y hy hline
    rw [hwrapped, ← hsame]
    exact drawn_place hfit hsettled hwraps hfresh hy hline
  case restless => exact hblank
  case full =>
    intro hlow y hy hline hnone
    exact hcalm hlow (hblank y hy hline hnone)

/-- **The pane shows what its window says**, whatever was done with the tail and drawn before:
on each row of the screen that is not below the last record, the line that the window puts
there if its record was wrapped in the last pass, and nothing else; and all of them were,
unless every pass found heights that were not known and a row was taken for too high. -/
theorem painted_run (s : TailSettings) (hcapacity : s.capacity ≠ some 0)
    (hestimate : s.rows.estimate.lines ≤ RowHeight.limit) :
    ∃ t : Tail ε, Tail.of? s = .ok t ∧
      ∀ (events : List (Board.Event ε)), (∀ e ∈ events, e.Modest) →
        let b := (Board.mk {} t).run events
        0 < b.tail.size → b.tail.size ≤ Tail.mostRecords →
        ∀ (colors : Palette) (a : Area) (c : Canvas), a.isEmpty = false →
          Wraps b.tail.backlog (textWidth a.width) →
          ∃ picture, Painted b.pane b.tail colors a c picture := by
  obtain ⟨t, ht, -⟩ := Tail.of?_eq (ε := ε) hcapacity
  refine ⟨t, ht, fun events hmodest hsize hfit colors a c ha hwraps => ?_⟩
  have hbounded := Tail.bounded_of? hestimate ht
  exact painted (Board.bounded_run hbounded hmodest) hsize hfit _ colors c ha hwraps

/-! ### Rows taken for too high -/

/-- A tail whose rows are taken for four lines high. -/
def tall : Tail Unit := ⟨.new none, .new ⟨⟨4, by decide⟩, 0⟩, none, #[], {}⟩

/-- Four records, from the top. -/
def fourRecords : List (Board.Event Unit) :=
  [.act (.append default), .act (.append default), .act (.append default), .act (.append default),
    .act (.scrollTo .top)]

/-- Each of three passes finds one row lower than it was taken for. After them the window has
a fourth, and its line is left blank. -/
theorem blank_tall :
    let b := (Board.mk {} tall).run fourRecords
    let drawn := b.pane.draw b.tail ⟨false⟩ ⟨0, 0, 40, 4⟩ (.blank 40 4)
    drawn.2.1.window = some ⟨0, 3, [0, 1, 2, 3], 7, 0, 4⟩ ∧
      (b.tail.backlog.at? 3).map (fun e => recordLines e.record (textWidth 40)) =
        some ["00:00:00.000 INFO     ".toList] ∧
      drawn.1.rows[3]?.map (·.take 39) = some (List.replicate 39 ({} : Cell)) := by
  decide +kernel

theorem painted_run_tall :
    let s : TailSettings := ⟨⟨⟨4, by decide⟩, 0⟩, none⟩
    let b := (Board.mk {} tall).run fourRecords
    (s.capacity ≠ some 0 ∧ s.rows.estimate.lines ≤ RowHeight.limit) ∧ Tail.of? s = .ok tall ∧
      (∀ e ∈ fourRecords, e.Modest) ∧ (0 < b.tail.size ∧ b.tail.size ≤ Tail.mostRecords) ∧
      (Area.mk 0 0 40 4).isEmpty = false ∧ Wraps b.tail.backlog (textWidth 40) ∧
      ∃ picture, Painted b.pane b.tail ⟨false⟩ ⟨0, 0, 40, 4⟩ (.blank 40 4) picture := by
  intro s b
  have hcapacity : s.capacity ≠ some 0 := by decide
  have hestimate : s.rows.estimate.lines ≤ RowHeight.limit := by decide
  have hmodest : ∀ e ∈ fourRecords, e.Modest := by
    simp [fourRecords, Board.Event.Modest, Tail.Action.Modest]
  have hsize : 0 < b.tail.size := by decide +kernel
  have hfit : b.tail.size ≤ Tail.mostRecords := by decide +kernel
  have hwraps : Wraps b.tail.backlog (textWidth 40) := by
    unfold Wraps
    decide +kernel
  obtain ⟨t, ht, hrun⟩ := painted_run (ε := Unit) s hcapacity hestimate
  have htall : Tail.of? s = .ok tall := rfl
  obtain rfl : t = tall := Except.ok.inj (ht.symm.trans htall)
  exact ⟨⟨hcapacity, hestimate⟩, ht, hmodest, ⟨hsize, hfit⟩, rfl, hwraps,
    hrun fourRecords hmodest hsize hfit ⟨false⟩ ⟨0, 0, 40, 4⟩ (.blank 40 4) rfl hwraps⟩

end LiveTail.View
