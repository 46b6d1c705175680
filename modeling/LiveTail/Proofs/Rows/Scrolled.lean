import LiveTail.Proofs.Rows.Covered

/-! A line that is scrolled to comes onto the screen.

A scroll goes to the line it asks for, or stops short of it at the lowest offset. There the
screen ends with the last line, so the line asked for is still above its end
(`reveals_scrollTo`). Only a window gives a view the height of its screen (`height_run`), so
this is so for any run of actions after the last window of a height. -/
namespace LiveTail.Rows.Viewport
open PrefixTree

/-! ### The height of the screen -/

/-- A window is what sets the height of the screen. -/
def Action.Resizes : Action → Prop
  | .window _ => True
  | _ => False

theorem height_act (v : Viewport) {a : Action} (h : ¬a.Resizes) :
    (v.act a).height = v.height := by
  cases a with
  | window height => exact absurd trivial h
  | measure sequence height =>
    rw [act]
    split
    next known w hw =>
      obtain ⟨-, -, rfl⟩ | ⟨row, lines, -, -, -, rfl⟩ := measure_cases hw <;> rfl
    next => rfl
  | evict count => exact height_evict v count
  | _ => rfl

/-- A view keeps the height of its screen until the next window. -/
theorem height_run (v : Viewport) {actions : List Action} (h : ∀ a ∈ actions, ¬a.Resizes) :
    (v.run actions).height = v.height := by
  induction actions generalizing v with
  | nil => rfl
  | cons a rest ih =>
    rw [run, ih (v.act a) fun b hb => h b (List.mem_cons_of_mem a hb),
      height_act v (h a (List.mem_cons_self ..))]

/-! ### The line that is asked for -/

/-- A position asks for a line that is there. -/
inductive Asks (v : Viewport) : Position → Nat → Prop where
  | line {n : Nat} (hline : n < v.total) : Asks v (.line n) n
  | record {sequence within start height : Nat} (hstart : v.startOf? sequence = some start)
      (hheight : v.rowHeight? sequence = some height) (hwithin : within < height) :
      Asks v (.record sequence within) (start + within)

/-- What a window that shows a line has to be. -/
structure Reveals (v : Viewport) (height line : Nat) (w : Window) : Prop where
  above : w.scroll ≤ line
  below : line < w.scroll + height
  /-- The row of the line is laid out. -/
  row : ∃ row < v.size, w.contains row = true ∧
    v.heights.start row ≤ line ∧ line < v.heights.start row + v.heights.height row
  /-- The line is at the top of the screen unless the lines end first. -/
  top : w.scroll = line ↔ line ≤ v.total - height

/-- Where scrolls take a view whose screen has some height. -/
structure Reaches (v : Viewport) (height : Nat) : Prop where
  /-- As long as the lines are counted without overflow. -/
  reveals : v.rows.sum < 2 ^ 63 → ∀ p line, v.Asks p line →
    ∃ w, ((v.scrollTo p).window height).1 = some w ∧ v.Reveals height line w
  /-- A record that is gone takes the view to the top. -/
  gone : ∀ sequence within, v.rowOf? sequence = none →
    (v.scrollTo (.record sequence within)).offset = 0
  scrollTo_le : ∀ p, (v.scrollTo p).offset ≤ v.total - height
  scrollBy_le : ∀ delta, (v.scrollBy delta).offset ≤ v.total - height

section Scroll
variable {v : Viewport} {p : Position} {line : Nat}

theorem offset_scrollTo (v : Viewport) (p : Position) :
    (v.scrollTo p).offset = p.resolve v.total v.height v.startOf? :=
  Nat.min_eq_left (p.resolve_le v.total v.height v.startOf?)

/-- A line that is asked for is in front of the end. -/
theorem Asks.lt (h : v.Asks p line) (hvalid : Valid v) (hfit : v.rows.sum < 2 ^ 63) :
    line < v.total := by
  cases h with
  | line hline => exact hline
  | @record sequence within start height hstart hheight hwithin =>
    obtain ⟨row, hrow, rfl⟩ := Option.map_eq_some_iff.mp hstart
    rw [rowHeight?, hrow, Option.map_some] at hheight
    have hlive := rowOf?_lt hrow
    have hend : v.linesBefore (row + 1) ≤ v.rows.sum := sum_take_le v.rows (row + 1)
    rw [linesBefore_succ v hlive, Option.some.inj hheight] at hend
    rw [hvalid.start_eq hfit hlive, hvalid.total_eq hfit]
    omega

/-- A scroll stops at the line it asks for, or at the lowest offset. -/
theorem Asks.offset_eq (h : v.Asks p line) (hvalid : Valid v) (hfit : v.rows.sum < 2 ^ 63) :
    (v.scrollTo p).offset = min line v.lowest := by
  have hlt := h.lt hvalid hfit
  rw [offset_scrollTo]
  cases h with
  | line hline => rfl
  | @record sequence within start height hstart hheight hwithin =>
    have hword : start + within ≤ Word.limit := by
      rw [hvalid.total_eq hfit] at hlt
      simp only [Word.limit]
      omega
    rw [Position.resolve, hstart, Option.map_some, Option.getD_some, Word.add_eq hword]
    rfl

/-- A row that a window lays out is among those it tells to contain. -/
theorem contains_of_mem_rows {w : Window} (hle : w.first ≤ w.last) {row : Nat}
    (h : row ∈ w.rows) : w.contains row = true := by
  rw [Window.rows, List.mem_range'_1, Window.size] at h
  rw [Window.contains, Bool.and_eq_true, decide_eq_true_eq, decide_eq_true_eq]
  omega

theorem window_bounds {w : Window} {height : Nat} (hvalid : Valid v) (hfit : v.rows.sum < 2 ^ 63)
    (hw : (v.window height).1 = some w) :
    w.scroll = min v.wanted (v.total - height) ∧ w.total = v.total ∧ w.first ≤ w.last := by
  have hresized := hvalid.of_heights (heights_resize v height)
  obtain ⟨hsize, hfirst, hlast, htotal, hscroll, -⟩ := window?_eq hw
  obtain ⟨hfront, hmiddle, hback, -⟩ :=
    laidOut_bounds hresized (by rwa [rows_resize]) hsize
  rw [offset_resize] at hscroll
  rw [total_resize] at htotal
  exact ⟨hscroll, htotal, by omega⟩

/-- **A line that is scrolled to is on the screen.** -/
theorem reveals_scrollTo (hvalid : Valid v) (hfit : v.rows.sum < 2 ^ 63) (hheight : 1 ≤ v.height)
    (h : v.Asks p line) :
    ∃ w, ((v.scrollTo p).window v.height).1 = some w ∧ v.Reveals v.height line w := by
  have hlt := h.lt hvalid hfit
  have hoffset := h.offset_eq hvalid hfit
  rw [lowest] at hoffset
  have hscrolled : Valid (v.scrollTo p) := hvalid.of_heights rfl
  have hsize : 0 < v.size := by
    rw [Nat.pos_iff_ne_zero]
    intro hzero
    rw [show v.total = 0 from if_pos hzero] at hlt
    cases hlt
  obtain ⟨w, hw⟩ := exists_window (v := v.scrollTo p) hsize v.height
  obtain ⟨hscroll, htotal, hle⟩ := window_bounds hscrolled hfit hw
  have hstop : w.scroll = min line (v.total - v.height) := by
    rw [hscroll, ← hoffset, Viewport.offset_eq]
    rfl
  have htotals : w.total = v.total := htotal
  obtain ⟨row, hlive, hmem, hcovers, hend⟩ :=
    covered_window hscrolled hfit hw (y := line - w.scroll) (by omega) (by omega)
  rw [Nat.add_sub_cancel' (by omega)] at hcovers hend
  have hstart : v.heights.start row = v.linesBefore row := hvalid.start_eq hfit hlive
  refine ⟨w, hw, by omega, by omega, ⟨row, hlive, contains_of_mem_rows hle hmem, ?_⟩, by omega⟩
  rw [hstart]
  exact ⟨hcovers.start_le, hend⟩

theorem reaches (hvalid : Valid v) (hheight : 1 ≤ v.height) : v.Reaches v.height := by
  constructor
  case reveals => exact fun hfit p line h => reveals_scrollTo hvalid hfit hheight h
  case gone =>
    intro sequence within hrow
    rw [offset_scrollTo, Position.resolve, startOf?, hrow]
    exact Nat.zero_min _
  case scrollTo_le =>
    intro p
    rw [offset_scrollTo]
    exact p.resolve_le v.total v.height v.startOf?
  case scrollBy_le => exact fun delta => Nat.min_le_right _ _

end Scroll

/-- **A line that is scrolled to is on the screen**, after any run whose last window had a screen
of that height: rows may have come, been measured and gone since. It is at the top, unless the
lines end before the screen is full. No scroll goes beyond that point, and one to a record that
is gone goes to the top. -/
theorem reaches_run (settings : Settings) (before after : List Action) {height : Nat}
    (hheight : 1 ≤ height) (hlast : ∀ a ∈ after, ¬a.Resizes) :
    ((new settings).run (before ++ .window height :: after)).Reaches height := by
  have hvalid := valid_run (valid_new settings) (before ++ .window height :: after)
  have hscreen : ((new settings).run (before ++ .window height :: after)).height = height := by
    rw [run_append, run, height_run _ hlast]
    exact height_resize _ height
  have hreaches := reaches hvalid (by rwa [hscreen])
  rwa [hscreen] at hreaches

/-- The second line of a record, of which the screen shows less than the whole. -/
theorem reaches_run_within :
    let before : List Action := [.push 4, .push 5, .push 6]
    let after : List Action := [.measure 5 7, .evict 1]
    let v := (new {}).run (before ++ .window 3 :: after)
    (1 ≤ 3 ∧ (∀ a ∈ after, ¬a.Resizes) ∧ v.rows.sum < 2 ^ 63) ∧
      v.Asks (.record 5 1) 1 ∧
      ∃ w, ((v.scrollTo (.record 5 1)).window 3).1 = some w ∧ w.scroll = 1 := by
  intro before after v
  have hlast : ∀ a ∈ after, ¬a.Resizes := by simp [after, Action.Resizes]
  have hfit : v.rows.sum < 2 ^ 63 := by decide +kernel
  have hstart : v.startOf? 5 = some 0 := by decide +kernel
  have hlines : v.rowHeight? 5 = some 7 := by decide +kernel
  have hasks : v.Asks (.record 5 1) (0 + 1) := .record hstart hlines (by decide)
  have hheight : 1 ≤ 3 := by decide
  have hreaches : v.Reaches 3 := reaches_run {} before after hheight hlast
  obtain ⟨w, hw, hreveals⟩ := hreaches.reveals hfit (.record 5 1) 1 hasks
  have hroom : 1 ≤ v.total - 3 := by decide +kernel
  exact ⟨⟨hheight, hlast, hfit⟩, hasks, w, hw, hreveals.top.mpr hroom⟩

end LiveTail.Rows.Viewport
