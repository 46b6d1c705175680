import LiveTail.Proofs.Following

/-! A paused view does not move when records arrive.

An append puts a row behind the others and may drop rows in front (`Slid`). What is dropped
takes its lines off the start of every other row, and the offset of a paused view gives up as
many; so as long as no more lines are dropped than lie above the view, nothing on the screen
moves (`still`). The end of the lines does not get in the way of the offset: a row appended
moves it down, and rows dropped move it up with the offset (`steady_slid`). -/
namespace LiveTail

namespace Rows.Viewport
open PrefixTree

/-- No offset is kept without rows. -/
def Rooted (v : Viewport) : Prop := v.size = 0 → v.stored = 0

theorem lowest_of_empty {v : Viewport} (h : v.size = 0) : v.lowest = 0 := by
  have htotal : v.total = 0 := if_pos h
  rw [lowest, htotal, Nat.zero_sub]

theorem resize_of_empty {v : Viewport} (h : v.size = 0) (height : Nat) :
    v.resize height = { v with height } := by
  have hempty : v.isEmpty = true := v.isEmpty_iff.mpr h
  rw [resize]
  exact if_pos (Bool.or_eq_true_iff.mpr (.inr hempty))

theorem rooted_resize {v : Viewport} (h : Rooted v) (height : Nat) : Rooted (v.resize height) := by
  intro hempty
  have hsize : v.size = 0 := by rwa [size, heights_resize] at hempty
  rw [resize_of_empty hsize]
  exact h hsize

/-- Only a clear takes the last row, as long as no row is dropped without another coming. -/
theorem rooted_act {v : Viewport} (hvalid : Valid v) (h : Rooted v) {a : Action}
    (hpush : ∀ sequence, a ≠ .push sequence) (hevict : ∀ count, a ≠ .evict count) :
    Rooted (v.act a) := by
  cases a with
  | push sequence => exact absurd rfl (hpush sequence)
  | evict count => exact absurd rfl (hevict count)
  | follow => exact h
  | clear => exact fun _ => rfl
  | resetMeasured =>
    intro hempty
    exact h ((valid_estimateRows hvalid v.measured.keys).2.symm.trans hempty)
  | scrollTo p =>
    intro hempty
    have hle : p.resolve v.total v.height v.startOf? ≤ v.lowest := p.resolve_le ..
    exact Nat.le_zero.mp (Nat.le_trans hle (Nat.le_of_eq (lowest_of_empty hempty)))
  | scrollBy delta =>
    intro hempty
    have hle : min (Word.move v.offset delta) v.lowest ≤ v.lowest := Nat.min_le_right ..
    exact Nat.le_zero.mp (Nat.le_trans hle (Nat.le_of_eq (lowest_of_empty hempty)))
  | measure sequence height =>
    simp only [act]
    split
    next known w hw =>
      obtain ⟨-, -, rfl⟩ | ⟨row, lines, hrow, -, -, rfl⟩ := measure_cases hw
      · exact h
      · intro hempty
        have hsize := (rows_measure hvalid hw).1
        have hlive := rowOf?_lt hrow
        omega
    next => exact h
  | window height => exact rooted_resize h height

/-- After a window a paused view stands where it can be shown. -/
theorem steady_window {v : Viewport} (h : Rooted v) (height : Nat) :
    (v.window height).2.Steady := by
  rcases Nat.eq_zero_or_pos v.size with hempty | hpos
  · intro _
    rw [window, rooted_resize h height (by rwa [size, heights_resize])]
    exact Nat.zero_le _
  · exact steady_resize hpos height

/-! ### The record on the top line -/

/-- The record whose row has the top line of the screen. -/
def OnTop (v : Viewport) (sequence : Nat) : Prop :=
  ∃ start lines, v.startOf? sequence = some start ∧ v.rowHeight? sequence = some lines ∧
    start ≤ v.offset ∧ v.offset < start + lines

theorem onTop_iff {v : Viewport} (h : Valid v) (hfit : v.rows.sum < 2 ^ 63) (sequence : Nat) :
    v.OnTop sequence ↔ ∃ row, v.rowOf? sequence = some row ∧ v.linesBefore row ≤ v.offset ∧
      v.offset < v.linesBefore (row + 1) := by
  constructor
  · rintro ⟨start, lines, hstart, hlines, hle, hlt⟩
    obtain ⟨row, hrow, rfl⟩ := Option.map_eq_some_iff.mp hstart
    obtain ⟨other, hother, rfl⟩ := Option.map_eq_some_iff.mp hlines
    obtain rfl : row = other := Option.some.inj (hrow.symm.trans hother)
    have hlive := rowOf?_lt hrow
    rw [HeightIndex.start_eq h.heights hfit hlive] at hle hlt
    exact ⟨row, hrow, hle, by rwa [linesBefore_succ v hlive]⟩
  · rintro ⟨row, hrow, hle, hlt⟩
    have hlive := rowOf?_lt hrow
    rw [linesBefore_succ v hlive] at hlt
    refine ⟨v.linesBefore row, v.heights.height row, ?_, ?_, hle, hlt⟩
    · rw [startOf?, hrow, Option.map_some, HeightIndex.start_eq h.heights hfit hlive]
      rfl
    · rw [rowHeight?, hrow, Option.map_some]

/-- One row has the top line. -/
theorem top_unique (v : Viewport) {line row other : Nat} (hle : v.linesBefore row ≤ line)
    (hlt : line < v.linesBefore (row + 1)) (hle' : v.linesBefore other ≤ line)
    (hlt' : line < v.linesBefore (other + 1)) : row = other := by
  rcases Nat.lt_trichotomy row other with hrow | rfl | hrow
  · have := v.linesBefore_mono (m := row + 1) (n := other) hrow
    omega
  · rfl
  · have := v.linesBefore_mono (m := other + 1) (n := row) hrow
    omega

/-- Some row has any line in front of the end. -/
theorem exists_row {v : Viewport} (h : Valid v) (hfit : v.rows.sum < 2 ^ 63) {line : Nat}
    (hline : line < v.rows.sum) :
    ∃ row < v.size, v.linesBefore row ≤ line ∧ line < v.linesBefore (row + 1) := by
  have hsize : 0 < v.size := by
    rcases Nat.eq_zero_or_pos v.size with hzero | hpos
    · rw [← linesBefore_size, hzero] at hline
      cases hline
    · exact hpos
  obtain ⟨hlive, hle, hlt⟩ := rowAt_spec h hfit hsize line
  refine ⟨v.rowAt line, hlive, ?_, ?_⟩
  · rcases hle with hfirst | hle
    · rw [hfirst]
      exact Nat.zero_le line
    · exact hle
  · rcases hlt with hlast | hlt
    · rwa [hlast, Nat.sub_add_cancel hsize, linesBefore_size]
    · exact hlt

end Rows.Viewport

namespace Tail
open Rows
variable {ε : Type}

/-! ### Rows come and go -/

/-- The number of the oldest record held, or else of the next. -/
def oldest (t : Tail ε) : Nat := t.backlog.next - t.backlog.size

/-- The row of a record is its place among those held. -/
theorem rowOf?_eq_some_iff {t : Tail ε} (h : Valid t) (sequence row : Nat) :
    t.viewport.rowOf? sequence = some row ↔
      row < t.viewport.size ∧ sequence = t.oldest + row := by
  rw [h.inStep.place, h.size]
  exact Backlog.placeOf?_eq_some_iff h.backlog sequence row

/-- Rows were appended, and then `count` of `lines` lines dropped in front. -/
structure Slid (t u : Tail ε) (count lines : Nat) : Prop where
  rows : ∃ new, count ≤ (t.viewport.rows ++ new).length ∧
    u.viewport.rows = (t.viewport.rows ++ new).drop count ∧
    lines = ((t.viewport.rows ++ new).take count).sum
  oldest : u.oldest = t.oldest + count
  stored : u.viewport.stored = t.viewport.stored - lines
  pinned : u.viewport.pinned = t.viewport.pinned
  height : u.viewport.height = t.viewport.height

namespace Slid

/-- The rows stay as they are. -/
theorem of_same {t u : Tail ε} (hbacklog : u.backlog = t.backlog)
    (hviewport : u.viewport = t.viewport) : Slid t u 0 0 := by
  refine ⟨⟨[], ?_⟩, ?_, ?_, ?_, ?_⟩ <;> simp [Tail.oldest, hbacklog, hviewport]

theorem trans {t u w : Tail ε} {count lines later more : Nat} (h : Slid t u count lines)
    (h' : Slid u w later more) : Slid t w (count + later) (lines + more) := by
  obtain ⟨new, hcount, hrows, hlines⟩ := h.rows
  obtain ⟨newer, hcount', hrows', hlines'⟩ := h'.rows
  -- All rows that were ever there, in order; those of `u` are what the first drop leaves.
  have hall : u.viewport.rows ++ newer = (t.viewport.rows ++ (new ++ newer)).drop count := by
    rw [hrows, ← List.append_assoc, List.drop_append_of_le_length hcount]
  have hfront : (t.viewport.rows ++ (new ++ newer)).take count =
      (t.viewport.rows ++ new).take count := by
    rw [← List.append_assoc, List.take_append_of_le_length hcount]
  rw [hall] at hcount' hrows' hlines'
  refine ⟨⟨new ++ newer, ?_, ?_, ?_⟩, ?_, ?_, ?_, ?_⟩
  · rw [List.length_drop] at hcount'
    simp only [List.length_append] at hcount hcount' ⊢
    omega
  · rw [hrows', List.drop_drop]
  · rw [List.take_add, List.sum_append, hfront, ← hlines, ← hlines']
  · rw [h'.oldest, h.oldest, Nat.add_assoc]
  · rw [h'.stored, h.stored, Nat.sub_sub]
  · rw [h'.pinned, h.pinned]
  · rw [h'.height, h.height]

end Slid

/-- The lines of the rows that an action drops to make room for a record. -/
def droppedLines (t : Tail ε) (a : Action ε) : Nat :=
  match a.outcome? with
  | some (.ok r) =>
    ((t.viewport.push t.backlog.next).rows.take (t.backlog.append r).1.dropped).sum
  | _ => 0

/-- The lines of all rows that actions drop to make room. -/
def allDroppedLines (t : Tail ε) : List (Action ε) → Nat
  | [] => 0
  | a :: rest => t.droppedLines a + (t.act a).allDroppedLines rest

theorem slid_append {t : Tail ε} (h : Valid t) (r : LogRecord) :
    Slid t (t.append r).2 (t.backlog.append r).1.dropped
      ((t.viewport.push t.backlog.next).rows.take (t.backlog.append r).1.dropped).sum := by
  have hpushed := Viewport.valid_push h.viewport t.backlog.next
  have hrows := Viewport.rows_push h.viewport t.backlog.next
  have hkept := Backlog.size_append h.backlog r
  have hle := h.backlog.size_le
  have hdropped := Backlog.excess_grow_le h.backlog r
  rw [← Backlog.dropped_append] at hdropped
  have hstored := (Viewport.rows_evict hpushed (by rw [h.first_push]; rfl)
    (t.backlog.append r).1.dropped).2
  -- Without a drop there is no eviction, and evicting nothing would change nothing.
  have hviewport : (t.append r).2.viewport =
      (t.viewport.push t.backlog.next).evict (t.backlog.append r).1.dropped :=
    viewport_act t (.append r)
  constructor
  case rows =>
    refine ⟨[t.viewport.settings.estimate.lines], ?_, ?_, by rw [hrows]⟩
    · rw [List.length_append, ← Viewport.size_eq, h.size]
      exact Nat.le_succ_of_le hdropped
    · exact rows_append h r
  case oldest =>
    show (t.backlog.append r).2.next - (t.backlog.append r).2.size = t.oldest + _
    rw [Backlog.next_append, hkept, oldest]
    omega
  case stored => rw [hviewport, hstored]; rfl
  case pinned => rw [hviewport, Viewport.pinned_evict]; rfl
  case height => rw [hviewport, Viewport.height_evict]; rfl

/-- A record or a failure arrives; nothing else happens. -/
def Action.Arrives (a : Action ε) : Prop := a.outcome?.isSome

theorem slid_act {t : Tail ε} (h : Valid t) {a : Action ε} (ha : a.Arrives) :
    ∃ count, Slid t (t.act a) count (t.droppedLines a) := by
  obtain ⟨d, houtcome⟩ := Option.isSome_iff_exists.mp ha
  rw [droppedLines, houtcome]
  cases d with
  | ok r =>
    rw [(act_of_ok t houtcome).1]
    exact ⟨_, slid_append h r⟩
  | error e =>
    rw [(act_of_error t houtcome).1]
    exact ⟨0, .of_same rfl rfl⟩

theorem slid_run {t : Tail ε} (h : Valid t) {actions : List (Action ε)}
    (harrive : ∀ a ∈ actions, a.Arrives) :
    ∃ count, Slid t (t.run actions) count (t.allDroppedLines actions) := by
  induction actions generalizing t with
  | nil => exact ⟨0, .of_same rfl rfl⟩
  | cons a rest ih =>
    obtain ⟨count, hfirst⟩ := slid_act h (harrive a (List.mem_cons_self ..))
    obtain ⟨more, hlater⟩ := ih (valid_act h a) fun b hb => harrive b (List.mem_cons_of_mem a hb)
    exact ⟨count + more, hfirst.trans hlater⟩

/-! ### The offset -/

section Slid
variable {t u : Tail ε} {count lines : Nat} (h : Slid t u count lines)
include h

/-- The end of the lines moves up by no more than what is dropped. -/
theorem sum_slid : t.viewport.rows.sum ≤ u.viewport.rows.sum + lines := by
  obtain ⟨new, -, hrows, hlines⟩ := h.rows
  have hall := congrArg List.sum (List.take_append_drop count (t.viewport.rows ++ new))
  rw [List.sum_append, List.sum_append, ← hrows, ← hlines] at hall
  omega

/-- A row that stays starts earlier by the lines dropped. -/
theorem linesBefore_slid {row : Nat} (hcount : count ≤ row) (hrow : row ≤ t.viewport.size) :
    u.viewport.linesBefore (row - count) + lines = t.viewport.linesBefore row := by
  obtain ⟨new, -, hrows, hlines⟩ := h.rows
  rw [Viewport.size_eq] at hrow
  have hsplit : (t.viewport.rows ++ new).take row =
      (t.viewport.rows ++ new).take count ++ u.viewport.rows.take (row - count) := by
    rw [hrows, ← List.take_add, Nat.add_sub_cancel' hcount]
  have hfront := congrArg List.sum hsplit
  rw [List.take_append_of_le_length hrow, List.sum_append, ← hlines] at hfront
  simp only [Viewport.linesBefore]
  omega

/-- The rows that stay keep their order behind the ones dropped. -/
theorem size_slid {row : Nat} (hcount : count ≤ row) (hrow : row < t.viewport.size) :
    row - count < u.viewport.size := by
  obtain ⟨new, -, hrows, -⟩ := h.rows
  rw [Viewport.size_eq] at hrow ⊢
  rw [hrows, List.length_drop, List.length_append]
  omega

/-- The top line is not among the lines dropped. -/
theorem count_le_top (hlines : lines ≤ t.viewport.offset) {row : Nat}
    (hrow : row < t.viewport.size) (htop : t.viewport.offset < t.viewport.linesBefore (row + 1)) :
    count ≤ row := by
  obtain ⟨new, -, -, hdropped⟩ := h.rows
  rcases Nat.lt_or_ge row count with hlt | hge
  · have hmono := PrefixTree.sum_take_mono (t.viewport.rows ++ new) (m := row + 1) (n := count) hlt
    have hlength : row + 1 ≤ t.viewport.rows.length := by rwa [← Viewport.size_eq]
    rw [List.take_append_of_le_length hlength, ← hdropped] at hmono
    simp only [Viewport.linesBefore] at htop
    omega
  · exact hge

/-- What is stored for a paused view stays one that can be shown. -/
theorem steady_slid (hvalid : Valid t) (hvalid' : Valid u) (hfit : t.viewport.rows.sum < 2 ^ 63)
    (hfit' : u.viewport.rows.sum < 2 ^ 63) (hsteady : t.viewport.Steady) : u.viewport.Steady := by
  intro hpaused
  have htotal : t.viewport.total = t.viewport.rows.sum :=
    hvalid.viewport.total_eq hfit
  have htotal' : u.viewport.total = u.viewport.rows.sum :=
    hvalid'.viewport.total_eq hfit'
  have hstored := hsteady (h.pinned.symm.trans hpaused)
  have hsum := sum_slid h
  rw [Viewport.lowest, htotal] at hstored
  rw [Viewport.lowest, htotal', h.stored, h.height]
  omega

end Slid

/-- The view of `u` is that of `t`, in which `lines` lines were dropped in front. -/
structure Still (t u : Tail ε) (lines : Nat) : Prop where
  offset : u.viewport.offset = t.viewport.offset - lines
  /-- A record that stays is drawn where it was. -/
  place : lines ≤ t.viewport.offset → ∀ sequence,
    (t.backlog.get? sequence).isSome → (u.backlog.get? sequence).isSome →
      ∃ start start' : Nat, t.viewport.startOf? sequence = some start ∧
        u.viewport.startOf? sequence = some start' ∧
        (start' : Int) - u.viewport.offset = start - t.viewport.offset
  /-- The top line belongs to the same record. -/
  top : lines ≤ t.viewport.offset → 0 < t.size →
    ∃ sequence, ∀ other, (t.viewport.OnTop other ↔ other = sequence) ∧
      (u.viewport.OnTop other ↔ other = sequence)

/-- A record that is held has a row, which starts behind those in front of it. -/
theorem startOf?_of_held {t : Tail ε} (h : Valid t) (hfit : t.viewport.rows.sum < 2 ^ 63)
    {sequence : Nat} (hheld : (t.backlog.get? sequence).isSome) :
    ∃ row < t.viewport.size, sequence = t.oldest + row ∧
      t.viewport.startOf? sequence = some (t.viewport.linesBefore row) := by
  rw [Backlog.isSome_get?, ← h.inStep.place, Option.isSome_iff_exists] at hheld
  obtain ⟨row, hrow⟩ := hheld
  obtain ⟨hlive, hsequence⟩ := (rowOf?_eq_some_iff h sequence row).mp hrow
  refine ⟨row, hlive, hsequence, ?_⟩
  rw [Viewport.startOf?, hrow, Option.map_some,
    HeightIndex.start_eq h.viewport.heights hfit hlive]
  rfl

/-- The row that has the top line is that of the record on top. -/
theorem onTop_iff {t : Tail ε} (h : Valid t) (hfit : t.viewport.rows.sum < 2 ^ 63) {row : Nat}
    (hrow : row < t.viewport.size) (hle : t.viewport.linesBefore row ≤ t.viewport.offset)
    (hlt : t.viewport.offset < t.viewport.linesBefore (row + 1)) (other : Nat) :
    t.viewport.OnTop other ↔ other = t.oldest + row := by
  rw [Viewport.onTop_iff h.viewport hfit]
  constructor
  · rintro ⟨row', hrow', hle', hlt'⟩
    obtain rfl := Viewport.top_unique t.viewport hle hlt hle' hlt'
    exact ((rowOf?_eq_some_iff h other row).mp hrow').2
  · rintro rfl
    exact ⟨row, (rowOf?_eq_some_iff h _ row).mpr ⟨hrow, rfl⟩, hle, hlt⟩

theorem still {t u : Tail ε} {count lines : Nat} (h : Slid t u count lines) (hvalid : Valid t)
    (hvalid' : Valid u) (hfit : t.viewport.rows.sum < 2 ^ 63)
    (hfit' : u.viewport.rows.sum < 2 ^ 63) (hpaused : t.viewport.pinned = false)
    (hsteady : t.viewport.Steady) (hheight : 0 < t.viewport.height) : Still t u lines := by
  have hpaused' : u.viewport.pinned = false := h.pinned.trans hpaused
  have hsteady' := steady_slid h hvalid hvalid' hfit hfit' hsteady
  have hoffset : u.viewport.offset = t.viewport.offset - lines := by
    rw [hsteady'.offset_eq hpaused', hsteady.offset_eq hpaused, h.stored]
  refine ⟨hoffset, fun hlines sequence hheld hheld' => ?_, fun hlines hsize => ?_⟩
  · obtain ⟨row, hlive, hsequence, hstart⟩ := startOf?_of_held hvalid hfit hheld
    obtain ⟨row', hlive', hsequence', hstart'⟩ := startOf?_of_held hvalid' hfit' hheld'
    refine ⟨_, _, hstart, hstart', ?_⟩
    have holdest := h.oldest
    obtain rfl : row' = row - count := by omega
    have hbefore := linesBefore_slid h (show count ≤ row by omega) (Nat.le_of_lt hlive)
    omega
  · -- The top line is in front of the end, for there is a line below it on the screen.
    have htotal : t.viewport.total = t.viewport.rows.sum :=
      hvalid.viewport.total_eq hfit
    have hpositive := hvalid.viewport.length_le_sum
    have hstored := hsteady hpaused
    rw [hvalid.size] at hpositive
    have hline : t.viewport.offset < t.viewport.rows.sum := by
      rw [hsteady.offset_eq hpaused]
      rw [Viewport.lowest, htotal] at hstored
      simp only [size] at hsize
      omega
    obtain ⟨row, hlive, hle, hlt⟩ := Viewport.exists_row hvalid.viewport hfit hline
    have hcount := count_le_top h hlines hlive hlt
    have hle' := linesBefore_slid h hcount (Nat.le_of_lt hlive)
    have hlt' := linesBefore_slid h (show count ≤ row + 1 by omega) hlive
    rw [Nat.sub_add_comm hcount] at hlt'
    refine ⟨t.oldest + row, fun other => ⟨onTop_iff hvalid hfit hlive hle hlt other, ?_⟩⟩
    have hsame : t.oldest + row = u.oldest + (row - count) := by
      rw [h.oldest]
      omega
    rw [hsame]
    exact onTop_iff hvalid' hfit' (size_slid h hcount hlive) (by omega) (by omega) other

/-! ### Any run -/

/-- The moves of an action that brings no record neither push nor drop a row. -/
theorem move?_keeps {a : Action ε} {move : Viewport.Action} (h : a.move? = some move) :
    (∀ sequence, move ≠ .push sequence) ∧ ∀ count, move ≠ .evict count := by
  cases a <;> cases h <;> exact ⟨nofun, nofun⟩

theorem rooted_tail_act {t : Tail ε} (hvalid : Valid t) (h : t.viewport.Rooted) (a : Action ε) :
    (t.act a).viewport.Rooted := by
  cases t.effect a with
  | record r _ hact =>
    intro hempty
    have hsize := Backlog.size_append hvalid.backlog r
    have hdropped := Backlog.excess_grow_le hvalid.backlog r
    rw [← Backlog.dropped_append] at hdropped
    rw [hact, (valid_append hvalid r).size] at hempty
    have hkept : (t.append r).2.backlog.size = (t.backlog.append r).2.size := rfl
    omega
  | failure e _ hact =>
    rw [hact]
    exact h
  | clear ha =>
    rw [ha]
    exact fun _ => rfl
  | view houtcome =>
    rw [viewport_act, moves, houtcome]
    cases hmove : a.move? with
    | none => exact h
    | some move =>
      obtain ⟨hpush, hevict⟩ := move?_keeps hmove
      exact Viewport.rooted_act hvalid.viewport h hpush hevict

theorem rooted_run {t : Tail ε} (hvalid : Valid t) (h : t.viewport.Rooted)
    (actions : List (Action ε)) : (t.run actions).viewport.Rooted := by
  induction actions generalizing t with
  | nil => exact h
  | cons a rest ih => exact ih (valid_act hvalid a) (rooted_tail_act hvalid h a)

/-- **A paused view does not move when records arrive.** After a window, the offset gives up
the lines of the rows dropped, down to zero and no further; as long as they all lie above the
view, every record that is still held is drawn where it was, and the same one is on top. -/
theorem still_run (s : TailSettings) (h : s.capacity ≠ some 0) :
    ∃ t : Tail ε, of? s = .ok t ∧
      ∀ (before : List (Action ε)) (height : Nat) (later : List (Action ε)),
        let u := ((t.run before).window height).2
        0 < height → u.viewport.pinned = false → (∀ a ∈ later, a.Arrives) →
          u.viewport.rows.sum < 2 ^ 63 → (u.run later).viewport.rows.sum < 2 ^ 63 →
            Still u (u.run later) (u.allDroppedLines later) := by
  obtain ⟨t, ht, hvalid⟩ := of?_eq (ε := ε) h
  refine ⟨t, ht, ?_⟩
  intro before height later u hheight hpaused harrive hfit hfit'
  have hmade : t.viewport.Rooted := by
    obtain ⟨limit, rfl⟩ := new_of? ht
    exact fun _ => rfl
  have hu : Valid u := valid_act (valid_run hvalid before) (.window height)
  have hsteady : u.viewport.Steady :=
    Viewport.steady_window (rooted_run hvalid hmade before) height
  have hscreen : u.viewport.height = height := Viewport.height_resize ..
  obtain ⟨count, hslid⟩ := slid_run hu harrive
  exact still hslid hu (valid_run hu later) hfit hfit' hpaused hsteady (by rwa [hscreen])

/-- The top line is one of the second record, and the first one is dropped for a fourth; a
failure in between changes nothing. -/
theorem still_run_second :
    let before : List (Action DecodeError) :=
      [.append default, .append default, .append default, .measure 0 2, .measure 1 3, .window 2,
        .scrollTo (.line 3)]
    let later : List (Action DecodeError) :=
      [.ingest (.error (.envelope .unreadable)), .append default]
    let made : Tail DecodeError := ⟨.new (some ⟨3, by decide⟩), .new {}, none, #[], {}⟩
    let u := ((made.run before).window 2).2
    ((TailSettings.mk {} (some 3)).capacity ≠ some 0 ∧ of? ⟨{}, some 3⟩ = .ok made ∧ 0 < 2 ∧
      u.viewport.pinned = false ∧ (∀ a ∈ later, a.Arrives) ∧ u.viewport.rows.sum < 2 ^ 63 ∧
      (u.run later).viewport.rows.sum < 2 ^ 63) ∧
      u.viewport.offset = 3 ∧ u.allDroppedLines later = 2 ∧ Still u (u.run later) 2 := by
  intro before later made u
  have hpaused : u.viewport.pinned = false := by decide +kernel
  have harrive : ∀ a ∈ later, a.Arrives := by simp [later, Action.Arrives, Action.outcome?]
  have hfit : u.viewport.rows.sum < 2 ^ 63 := by decide +kernel
  have hfit' : (u.run later).viewport.rows.sum < 2 ^ 63 := by decide +kernel
  have hoffset : u.viewport.offset = 3 := by decide +kernel
  have hlines : u.allDroppedLines later = 2 := by decide +kernel
  obtain ⟨t, ht, hstill⟩ := still_run (ε := DecodeError) ⟨{}, some 3⟩ (by decide)
  obtain rfl : made = t := Except.ok.inj ht
  have hsame := hstill before 2 later (by decide) hpaused harrive hfit hfit'
  rw [hlines] at hsame
  exact ⟨⟨by decide, ht, by decide, hpaused, harrive, hfit, hfit'⟩, hoffset, hlines, hsame⟩

end Tail
end LiveTail
