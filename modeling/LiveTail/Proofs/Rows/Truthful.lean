import LiveTail.Proofs.Rows.Growing
import LiveTail.Proofs.Rows.Remembered

/-! The heights of rows are those that were taken.

What the map holds and what the index holds is fixed by what happened since a row came
(`Remembers`). A host that pushes rows for numbers that only grow never brings a row for a
number that it had a row for; then nothing was taken for the number before the row came
(`Ordered`), and the height of a row is the last one that was taken for its number at all. -/
namespace LiveTail.Rows.Viewport

/-! ### Numbers that only grow -/

/-- The numbers that rows were pushed for. -/
def pushed (actions : List Action) : List Nat :=
  actions.filterMap fun
    | .push sequence => some sequence
    | _ => none

/-- The first number that may come after an action. -/
def Action.after (next : Nat) : Action → Nat
  | .push sequence => sequence + 1
  | _ => next

/-- The number after those of the rows. -/
def next? (v : Viewport) : Option Nat := v.first?.map (· + v.size)

theorem numberOf_eq {v : Viewport} (h : v.Started) (sequence : Nat) :
    v.numberOf sequence = v.next?.getD sequence := by
  cases hfirst : v.first? with
  | none => simp [numberOf, next?, hfirst, h hfirst]
  | some first => simp [numberOf, next?, hfirst]

theorem next?_push {v : Viewport} (h : Valid v) (sequence : Nat) :
    (v.push sequence).next? = some (v.numberOf sequence + 1) := by
  rw [next?, size_push h]
  rfl

theorem next?_evict {v : Viewport} (h : Valid v) (count : Nat) :
    (v.evict count).next? = v.next? ∨ (v.evict count).next? = none := by
  cases hfirst : v.first? with
  | none => exact .inl (by rw [evict, hfirst])
  | some first =>
    rcases Nat.lt_or_ge count v.size with hlt | hge
    · obtain ⟨hsize, hmoved⟩ := evict_some h hfirst hlt
      left
      rw [next?, next?, hfirst, hmoved, hsize, Option.map_some, Option.map_some]
      congr 1
      omega
    · have hmin : min count v.size = v.size := Nat.min_eq_right hge
      obtain ⟨-, -, hlist⟩ := HeightIndex.valid_dropFront h.heights v.size
      have hempty : (v.heights.dropFront v.size).2.isEmpty = true := by
        rw [HeightIndex.isEmpty_iff, hlist, List.drop_eq_nil_iff]
        exact Nat.le_of_eq (size_eq v).symm
      rw [evict, hfirst]
      simp only [hmin]
      split
      next => exact .inl rfl
      next => exact .inr rfl

/-- Rows came for numbers that only grow. The next row to be pushed is for `next` or a later
number. -/
structure Ordered (next : Nat) (es : List Event) (v : Viewport) : Prop where
  le_next : ∀ n, v.next? = some n → n ≤ next
  lt_next : ∀ sequence ∈ comings es, sequence < v.next?.getD next
  came : ∀ sequence, (v.rowOf? sequence).isSome → sequence ∈ comings es
  known : ∀ sequence, (latest sequence es).isSome → sequence ∈ comings es
  once : ∀ sequence, latest sequence (sinceRow sequence es) = latest sequence es

theorem ordered_new (settings : Settings) : Ordered 0 [] (new settings) := by
  refine ⟨nofun, nofun, fun sequence hrow => ?_, nofun, fun _ => rfl⟩
  rw [rowOf?_of_none rfl] at hrow
  cases hrow

namespace Ordered
variable {next : Nat} {es : List Event} {v : Viewport} (h : Ordered next es v)
include h

theorem of_rows {w : Viewport} (hnext : w.next? = v.next? ∨ w.next? = none)
    (hrows : ∀ sequence, (w.rowOf? sequence).isSome → (v.rowOf? sequence).isSome) :
    Ordered next es w := by
  refine ⟨fun n hn => ?_, fun sequence hcame => ?_, fun sequence hrow => ?_, h.known, h.once⟩
  · rcases hnext with hsame | hnone
    · exact h.le_next n (hsame.symm.trans hn)
    · rw [hnone] at hn
      cases hn
  · have hlt := h.lt_next sequence hcame
    rcases hnext with hsame | hnone
    · rwa [hsame]
    · rw [hnone, Option.getD_none]
      cases hn : v.next? with
      | none => rwa [hn] at hlt
      | some n =>
        rw [hn] at hlt
        exact Nat.lt_of_lt_of_le hlt (h.le_next n hn)
  · exact h.came sequence (hrows sequence hrow)

/-- The number that comes has not come before. -/
theorem push (hvalid : Valid v) (hstarted : v.Started) {sequence : Nat} (hlate : next ≤ sequence) :
    Ordered (sequence + 1) (es ++ [.came (v.numberOf sequence)]) (v.push sequence) := by
  have hnumber := numberOf_eq hstarted sequence
  have hle : v.numberOf sequence ≤ sequence := by
    rw [hnumber]
    cases hn : v.next? with
    | none => exact Nat.le_refl _
    | some n => exact Nat.le_trans (h.le_next n hn) hlate
  have hearlier : ∀ other ∈ comings es, other < v.numberOf sequence := by
    intro other hcame
    have hlt := h.lt_next other hcame
    rw [hnumber]
    cases hn : v.next? with
    | none =>
      rw [hn] at hlt
      exact Nat.lt_of_lt_of_le hlt hlate
    | some n => rwa [hn] at hlt
  have hfresh : latest (v.numberOf sequence) es = none := by
    rw [← Option.not_isSome_iff_eq_none]
    exact fun hknown => Nat.lt_irrefl _ (hearlier _ (h.known _ hknown))
  constructor
  case le_next =>
    intro n hn
    rw [next?_push hvalid, Option.some.injEq] at hn
    omega
  case lt_next =>
    intro other hcame
    rw [comings_came, List.mem_append, List.mem_singleton] at hcame
    rw [next?_push hvalid, Option.getD_some]
    rcases hcame with hcame | rfl
    · exact Nat.lt_succ_of_lt (hearlier other hcame)
    · exact Nat.lt_succ_self _
  case came =>
    intro other hrow
    rw [rowOf?_push hvalid hstarted] at hrow
    rw [comings_came, List.mem_append, List.mem_singleton]
    split at hrow
    next heq => exact .inr heq
    next => exact .inl (h.came other hrow)
  case known =>
    intro other hknown
    rw [latest_came] at hknown
    rw [comings_came]
    exact List.mem_append_left _ (h.known other hknown)
  case once =>
    intro other
    rw [sinceRow_came, latest_came]
    split
    next heq =>
      rw [← heq, hfresh]
      rfl
    next => rw [latest_came, h.once]

theorem took {sequence : Nat} (hrow : (v.rowOf? sequence).isSome) (height : Nat) :
    Ordered next (es ++ [.took sequence height]) v := by
  refine ⟨h.le_next, ?_, ?_, fun other hknown => ?_, fun other => ?_⟩
  · rw [comings_took]
    exact h.lt_next
  · rw [comings_took]
    exact h.came
  · rw [comings_took]
    rw [latest_took] at hknown
    split at hknown
    next heq => exact heq ▸ h.came sequence hrow
    next => exact h.known other hknown
  · rw [sinceRow_took, latest_took, latest_took, h.once]

theorem reset : Ordered next (es ++ [.reset]) v := by
  refine ⟨h.le_next, ?_, ?_, fun other hknown => ?_, fun other => ?_⟩
  · rw [comings_reset]
    exact h.lt_next
  · rw [comings_reset]
    exact h.came
  · rw [latest_reset] at hknown
    cases hknown
  · rw [sinceRow_reset, latest_reset, latest_reset]

/-- Actions that bring and drop no rows. -/
theorem of_same {w : Viewport} (hsize : w.size = v.size) (hfirst : w.first? = v.first?) :
    Ordered next es w := by
  refine h.of_rows (.inl (by rw [next?, next?, hfirst, hsize])) fun sequence hrow => ?_
  rwa [rowOf?_congr hsize hfirst] at hrow

theorem act (hremembers : Remembers es v) (a : Action) (hlate : ∀ sequence ∈ pushed [a],
    next ≤ sequence) : Ordered (a.after next) (es ++ v.events a) (v.act a) := by
  have hquiet : v.events a = [] → Ordered (a.after next) es (v.act a) →
      Ordered (a.after next) (es ++ v.events a) (v.act a) := by
    intro hnone hact
    rwa [hnone, List.append_nil]
  cases a with
  | push sequence =>
    exact h.push hremembers.valid hremembers.started (hlate sequence (List.mem_singleton_self _))
  | measure sequence height =>
    obtain ⟨hnone, hsame⟩ | ⟨row, lines, hrow, hevent, hact⟩ := v.events_measure sequence height
    · refine hquiet hnone ?_
      rw [hsame]
      exact h
    · rw [hevent, hact]
      obtain ⟨-, hsize⟩ := valid_setHeight hremembers.valid (rowOf?_lt hrow) lines.positive
        (w := v.remeasure row sequence lines) rfl
      exact (h.took (by rw [hrow]; rfl) lines.lines).of_same hsize rfl
  | resetMeasured =>
    exact h.reset.of_same (valid_estimateRows hremembers.valid v.measured.keys).2 rfl
  | window height => exact hquiet rfl (h.of_same
    (congrArg HeightIndex.size (heights_resize ..)) (first?_resize ..))
  | scrollTo p => exact hquiet rfl (h.of_same rfl rfl)
  | scrollBy delta => exact hquiet rfl (h.of_same rfl rfl)
  | follow => exact hquiet rfl (h.of_same rfl rfl)
  | evict count =>
    exact hquiet rfl (h.of_rows (next?_evict hremembers.valid count)
      fun sequence => isSome_rowOf?_evict hremembers.valid)
  | clear =>
    refine hquiet rfl (h.of_rows (.inr rfl) fun sequence hrow => ?_)
    have hnone : v.clear.rowOf? sequence = none := rowOf?_of_none rfl _
    rw [Viewport.act, hnone] at hrow
    cases hrow

theorem run (hremembers : Remembers es v) (actions : List Action)
    (hlate : ∀ sequence ∈ pushed actions, next ≤ sequence)
    (hgrow : (pushed actions).Pairwise (· < ·)) :
    ∃ next, Ordered next (es ++ v.history actions) (v.run actions) := by
  induction actions generalizing next es v with
  | nil =>
    rw [history, List.append_nil]
    exact ⟨next, h⟩
  | cons a rest ih =>
    have hsplit : pushed ([a] ++ rest) = pushed [a] ++ pushed rest := List.filterMap_append ..
    rw [List.singleton_append] at hsplit
    rw [hsplit] at hlate hgrow
    obtain ⟨-, hgrow, hbefore⟩ := List.pairwise_append.mp hgrow
    have hact := h.act hremembers a fun sequence hmem =>
      hlate sequence (List.mem_append_left _ hmem)
    have hlater : ∀ sequence ∈ pushed rest, a.after next ≤ sequence := by
      intro sequence hmem
      cases a with
      | push earlier => exact hbefore earlier (List.mem_singleton_self _) sequence hmem
      | _ => exact hlate sequence (List.mem_append_right _ hmem)
    have hrest := ih hact (hremembers.act a) hlater hgrow
    rwa [List.append_assoc] at hrest

end Ordered

/-! ### The law -/

theorem rows_eq (v : Viewport) : v.rows = (List.range v.size).map v.heights.height := by
  rw [List.range_eq_range', HeightIndex.map_height_range' _ (by rw [Nat.zero_add]; rfl)]
  exact (List.take_of_length_le (Nat.le_of_eq (size_eq v).symm)).symm

/-- Every row has a number. -/
theorem exists_number {v : Viewport} (h : v.Started) {row : Nat} (hrow : row < v.size) :
    ∃ sequence, v.rowOf? sequence = some row := by
  cases hfirst : v.first? with
  | none =>
    rw [h hfirst] at hrow
    cases hrow
  | some first => exact ⟨first + row, (rowOf?_eq_some_iff hfirst ..).mpr ⟨hrow, rfl⟩⟩

theorem Remembers.rows_resetMeasured {es : List Event} {v : Viewport} (h : Remembers es v) :
    v.resetMeasured.rows = List.replicate v.size v.settings.estimate.lines := by
  have hsize : v.resetMeasured.size = v.size := (valid_estimateRows h.valid v.measured.keys).2
  rw [rows_eq, hsize, List.eq_replicate_iff, List.length_map, List.length_range]
  refine ⟨rfl, fun x hx => ?_⟩
  obtain ⟨row, hrow, rfl⟩ := List.mem_map.mp hx
  obtain ⟨sequence, hsequence⟩ := exists_number h.started (List.mem_range.mp hrow)
  exact h.height_resetMeasured hsequence

/-- What heights say after the events `es`, when rows come at `estimate`. What is said of sums
holds as long as they are words. -/
structure Truthful (estimate : RowHeight) (es : List Event) (v : Viewport) : Prop where
  numbered : ∀ row < v.size, ∃ sequence, v.rowOf? sequence = some row
  /-- A row is as high as was last taken for its number since it came, or since the last
  reset. -/
  height : ∀ sequence row, v.rowOf? sequence = some row →
    v.heights.height row = (latest sequence (sinceRow sequence es)).getD estimate.lines
  /-- The map has these heights, for these rows, and no other. -/
  measured : ∀ sequence height, v.measured[sequence]? = some height ↔
    (v.rowOf? sequence).isSome ∧ latest sequence (sinceRow sequence es) = some height
  positive : ∀ row < v.size, 0 < v.heights.height row
  total : v.rows.sum < 2 ^ 63 → v.total = ((List.range v.size).map v.heights.height).sum
  /-- A height that is taken changes one row, and the total by the difference. -/
  taken : ∀ sequence row height, v.rowOf? sequence = some row → 0 < height →
    ∃ w, v.measure sequence height = .ok (true, w) ∧
      (∀ other, w.rowOf? other = v.rowOf? other) ∧
      (∀ other, w.heights.height other =
        if other = row then height else v.heights.height other) ∧
      (v.rows.sum < 2 ^ 63 → w.rows.sum < 2 ^ 63 →
        w.total + v.heights.height row = v.total + height)
  /-- Without a height, or without a row for it, nothing changes. -/
  refused : ∀ sequence, v.measure sequence 0 = .error .zeroRowHeight ∧
    v.act (.measure sequence 0) = v
  untracked : ∀ sequence height, v.rowOf? sequence = none → 0 < height →
    v.measure sequence height = .ok (false, v)
  reset : v.size * estimate.lines < 2 ^ 63 →
    v.resetMeasured.size = v.size ∧ v.resetMeasured.total = v.size * estimate.lines

theorem Remembers.truthful {es : List Event} {v : Viewport} (h : Remembers es v) :
    Truthful v.settings.estimate es v := by
  constructor
  case numbered => exact fun row => exists_number h.started
  case height =>
    intro sequence row hrow
    rw [h.height sequence row hrow, h.measured, hrow]
    rfl
  case measured =>
    intro sequence height
    rw [h.measured]
    split
    next hsome => simp [hsome]
    next hnone => simp [hnone]
  case positive =>
    intro row hrow
    have hmem : v.heights.height row ∈ v.rows := by
      rw [rows_eq]
      exact List.mem_map_of_mem (List.mem_range.mpr hrow)
    exact h.valid.positive _ hmem
  case total =>
    intro hfit
    rw [← rows_eq]
    exact h.valid.total_eq hfit
  case taken =>
    intro sequence row height hrow hheight
    have hlive := rowOf?_lt hrow
    have hheights : (v.remeasure row sequence ⟨height, hheight⟩).heights =
        v.heights.set row height := rfl
    obtain ⟨hvalid, hsize⟩ := valid_setHeight h.valid hlive hheight hheights
    refine ⟨v.remeasure row sequence ⟨height, hheight⟩, measure_some hrow ⟨height, hheight⟩,
      rowOf?_congr hsize rfl, fun other => ?_, fun hfit hfit' => ?_⟩
    · rw [hheights, HeightIndex.height_set h.valid.heights hlive]
      simp only [eq_comm]
    · rw [hvalid.total_eq hfit', h.valid.total_eq hfit]
      exact sum_set h.valid hlive hheights
  case refused => exact fun sequence => ⟨rfl, rfl⟩
  case untracked =>
    intro sequence height hrow hheight
    rw [measure, RowHeight.of?, dif_pos hheight, hrow]
    rfl
  case reset =>
    intro hfit
    have hsum : v.resetMeasured.rows.sum = v.size * v.settings.estimate.lines := by
      rw [h.rows_resetMeasured, List.sum_replicate, smul_eq_mul]
    have htotal := (valid_resetMeasured h.valid).total_eq (by rwa [hsum])
    exact ⟨(valid_estimateRows h.valid v.measured.keys).2, htotal.trans hsum⟩

/-- **Heights are those that were taken**, after any run: rows may come, be measured, be reset
and go in any order, and the view may scroll in between. Where rows are pushed for numbers that
only grow, the height of a row is the last one taken for its number since the last reset,
whenever that was. -/
theorem truthful_run (settings : Settings) (actions : List Action) :
    Truthful settings.estimate ((new settings).history actions) ((new settings).run actions) ∧
      ((pushed actions).Pairwise (· < ·) → ∀ sequence,
        latest sequence (sinceRow sequence ((new settings).history actions)) =
          latest sequence ((new settings).history actions)) := by
  constructor
  · have hremembers := (remembers_new settings).run actions
    have htruthful := hremembers.truthful
    rwa [settings_run] at htruthful
  · intro hgrow
    obtain ⟨next, hordered⟩ := (ordered_new settings).run (remembers_new settings) actions
      (fun sequence _ => Nat.zero_le sequence) hgrow
    exact hordered.once

/-- The second of two rows is measured, and then the first one goes. -/
theorem truthful_run_evicted :
    let actions := [.push 0, .push 1, .measure 1 5, .evict 1]
    (pushed actions).Pairwise (· < ·) ∧ ((new {}).run actions).rowOf? 1 = some 0 ∧
      ((new {}).run actions).heights.height 0 = 5 := by
  intro actions
  have hgrow : (pushed actions).Pairwise (· < ·) := by decide
  have hrow : ((new {}).run actions).rowOf? 1 = some 0 := by decide +kernel
  obtain ⟨htruthful, honce⟩ := truthful_run {} actions
  refine ⟨hgrow, hrow, ?_⟩
  rw [htruthful.height 1 0 hrow, honce hgrow]
  decide +kernel

end LiveTail.Rows.Viewport
