import LiveTail.Proofs.Rows.Measured
import LiveTail.Proofs.Rows.Room
import LiveTail.Proofs.Rows.Window
import Mathlib.Data.List.DropRight

/-! What is remembered of heights is true.

A height that was taken stands in two places: in the index, under the place of the row, and
in the map, under the number of its record. What was taken for a number is read off the
events alone (`latest`). `Remembers` says that the map holds just this for the rows that are
there, and that every row without an entry is at the estimate; so a reset, which visits the
rows that the map names, leaves no other height behind. Every action keeps it
(`Remembers.act`). -/
namespace LiveTail.Rows.Viewport

/-! ### What happened -/

/-- What an action means for the heights of rows. -/
inductive Event where
  /-- A row came for a number. -/
  | came (sequence : Nat)
  /-- A height was taken for a number. -/
  | took (sequence height : Nat)
  | reset
deriving DecidableEq, Repr

/-- The number that the next row belongs to, when it is pushed for `sequence`. -/
def numberOf (v : Viewport) (sequence : Nat) : Nat := v.first?.getD sequence + v.size

def events (v : Viewport) : Action → List Event
  | .push sequence => [.came (v.numberOf sequence)]
  | .measure sequence height =>
    match v.measure sequence height with
    | .ok (true, _) => [.took sequence height]
    | _ => []
  | .resetMeasured => [.reset]
  | _ => []

/-- The events of actions, in order. -/
def history (v : Viewport) : List Action → List Event
  | [] => []
  | a :: rest => v.events a ++ (v.act a).history rest

/-- The height last taken for a number since the last reset. -/
def latest (sequence : Nat) (es : List Event) : Option Nat :=
  es.foldl (fun known e =>
    match e with
    | .came _ => known
    | .took other height => if other = sequence then some height else known
    | .reset => none) none

/-- What happened since a row last came for a number, or since the beginning. -/
def sinceRow (sequence : Nat) (es : List Event) : List Event :=
  es.rtakeWhile (· ≠ .came sequence)

/-- The numbers for which rows came. -/
def comings (es : List Event) : List Nat :=
  es.filterMap fun
    | .came sequence => some sequence
    | _ => none

section Events
variable (es : List Event) (sequence other height : Nat)

@[simp] theorem latest_came : latest sequence (es ++ [.came other]) = latest sequence es := by
  simp [latest]

@[simp] theorem latest_took : latest sequence (es ++ [.took other height]) =
    if other = sequence then some height else latest sequence es := by
  simp [latest]

@[simp] theorem latest_reset : latest sequence (es ++ [.reset]) = none := by
  simp [latest]

@[simp] theorem sinceRow_came : sinceRow sequence (es ++ [.came other]) =
    if other = sequence then [] else sinceRow sequence es ++ [.came other] := by
  by_cases h : other = sequence <;> simp [sinceRow, h]

@[simp] theorem sinceRow_took : sinceRow sequence (es ++ [.took other height]) =
    sinceRow sequence es ++ [.took other height] := by
  simp [sinceRow]

@[simp] theorem sinceRow_reset :
    sinceRow sequence (es ++ [.reset]) = sinceRow sequence es ++ [.reset] := by
  simp [sinceRow]

@[simp] theorem comings_came : comings (es ++ [.came other]) = comings es ++ [other] := by
  simp [comings]

@[simp] theorem comings_took : comings (es ++ [.took other height]) = comings es := by
  simp [comings]

@[simp] theorem comings_reset : comings (es ++ [.reset]) = comings es := by
  simp [comings]

end Events

/-- A measurement that is heard of has set a row. -/
theorem events_measure (v : Viewport) (sequence height : Nat) :
    (v.events (.measure sequence height) = [] ∧ v.act (.measure sequence height) = v) ∨
      ∃ row lines, v.rowOf? sequence = some row ∧
        v.events (.measure sequence height) = [.took sequence lines.lines] ∧
        v.act (.measure sequence height) = v.remeasure row sequence lines := by
  simp only [events, act]
  cases hw : v.measure sequence height with
  | error e => exact .inl ⟨rfl, rfl⟩
  | ok answer =>
    obtain ⟨known, w⟩ := answer
    obtain ⟨-, rfl, rfl⟩ | ⟨row, lines, hrow, hlines, rfl, rfl⟩ := measure_cases hw
    · exact .inl ⟨rfl, rfl⟩
    · exact .inr ⟨row, lines, hrow, by rw [RowHeight.lines_of? hlines], rfl⟩

/-! ### Which numbers have rows -/

/-- There are no rows without a first number. -/
def Started (v : Viewport) : Prop := v.first? = none → v.size = 0

/-- A push brings a row behind the others. -/
theorem rowOf?_push {v : Viewport} (h : Valid v) (hstarted : v.Started) (sequence other : Nat) :
    (v.push sequence).rowOf? other =
      if other = v.numberOf sequence then some v.size else v.rowOf? other := by
  obtain ⟨first, hfirst, hnumber, hrows⟩ : ∃ first, (v.push sequence).first? = some first ∧
      v.numberOf sequence = first + v.size ∧
      ∀ row, v.rowOf? other = some row ↔ row < v.size ∧ other = first + row := by
    cases hfirst : v.first? with
    | none =>
      have hempty := hstarted hfirst
      refine ⟨sequence, by simp [push, hfirst], by simp [numberOf, hfirst], fun row => ?_⟩
      simp [rowOf?_of_none hfirst, hempty]
    | some first =>
      exact ⟨first, by simp [push, hfirst], by simp [numberOf, hfirst],
        rowOf?_eq_some_iff hfirst other⟩
  ext row
  rw [rowOf?_eq_some_iff hfirst, size_push h, hnumber]
  split
  next => simp only [Option.some.injEq]; omega
  next => rw [hrows]; omega

theorem size_evict {v : Viewport} (h : Valid v) (hfirst : v.first?.isSome) (count : Nat) :
    (v.evict count).size = v.size - count := by
  rw [size_eq, (rows_evict h hfirst count).1, List.length_drop, ← size_eq]

/-- Rows that are dropped make the places of the others smaller. -/
theorem rowOf?_evict {v : Viewport} (h : Valid v) (count sequence row : Nat) :
    (v.evict count).rowOf? sequence = some row ↔
      v.rowOf? sequence = some (min count v.size + row) := by
  cases hfirst : v.first? with
  | none => simp [evict, hfirst, rowOf?_of_none hfirst]
  | some first =>
    have hsize := size_evict h (by rw [hfirst]; rfl) count
    rw [rowOf?_eq_some_iff hfirst]
    rcases Nat.lt_or_ge count v.size with hlt | hge
    · obtain ⟨-, hmoved⟩ := evict_some h hfirst hlt
      rw [rowOf?_eq_some_iff hmoved, hsize]
      omega
    · constructor
      · intro hrow
        have hlive := rowOf?_lt hrow
        omega
      · rintro ⟨hlive, -⟩
        omega

theorem isSome_rowOf?_evict {v : Viewport} (h : Valid v) {count sequence : Nat}
    (hrow : ((v.evict count).rowOf? sequence).isSome) : (v.rowOf? sequence).isSome := by
  obtain ⟨row, hrow⟩ := Option.isSome_iff_exists.mp hrow
  rw [(rowOf?_evict h count sequence row).mp hrow]
  rfl

theorem started_evict {v : Viewport} (h : v.Started) (count : Nat) : (v.evict count).Started := by
  unfold evict
  split
  · exact h
  · dsimp only
    split
    · exact h
    · intro hnone
      simp only [ite_eq_left_iff, reduceCtorEq, imp_false, not_not] at hnone
      exact beq_iff_eq.mp hnone

/-! ### Heights, action by action -/

theorem height_eq (v : Viewport) (row : Nat) : v.heights.height row = v.rows.getD row 0 :=
  v.heights.height_eq row

theorem height_push {v : Viewport} (h : Valid v) (sequence : Nat) {row : Nat}
    (hrow : row ≤ v.size) : (v.push sequence).heights.height row =
      if row = v.size then v.settings.estimate.lines else v.heights.height row := by
  rw [size_eq] at hrow ⊢
  rw [height_eq, rows_push h, height_eq, List.getD_eq_getElem?_getD, List.getD_eq_getElem?_getD]
  split
  next heq => simp [heq]
  next hne => rw [List.getElem?_append_left (by omega)]

theorem height_evict_row {v : Viewport} (h : Valid v) (hfirst : v.first?.isSome) (count row : Nat) :
    (v.evict count).heights.height row = v.heights.height (min count v.size + row) := by
  rw [height_eq, (rows_evict h hfirst count).1, height_eq, List.drop_eq_drop_min, ← size_eq,
    List.getD_eq_getElem?_getD, List.getElem?_drop, List.getD_eq_getElem?_getD]

theorem settings_evict (v : Viewport) (count : Nat) : (v.evict count).settings = v.settings :=
  settings_act v (.evict count)

/-- Putting rows back to the estimate reaches those that the numbers name. -/
theorem height_estimateRows {v : Viewport} (sequences : List Nat) {heights : HeightIndex}
    (h : heights.Valid) (hsize : heights.size = v.size) (row : Nat) :
    (sequences.foldl v.estimateRow heights).height row =
      if ∃ sequence ∈ sequences, v.rowOf? sequence = some row then v.settings.estimate.lines
      else heights.height row := by
  induction sequences generalizing heights with
  | nil => simp
  | cons sequence rest ih =>
    rw [List.foldl_cons]
    cases hrow : v.rowOf? sequence with
    | none =>
      have hsame : v.estimateRow heights sequence = heights := by rw [estimateRow, hrow]
      rw [hsame, ih h hsize]
      simp [hrow]
    | some other =>
      have hset : v.estimateRow heights sequence =
          heights.set other v.settings.estimate.lines := by rw [estimateRow, hrow]
      have hlt : other < heights.size := Nat.lt_of_lt_of_eq (rowOf?_lt hrow) hsize.symm
      obtain ⟨hvalid, hlist⟩ := HeightIndex.valid_set h hlt v.settings.estimate.lines
      have hsize' : (heights.set other v.settings.estimate.lines).size = v.size := by
        rw [HeightIndex.size_eq, hlist, List.length_set, ← HeightIndex.size_eq, hsize]
      rw [hset, ih hvalid hsize', HeightIndex.height_set h hlt]
      simp only [List.mem_cons, exists_eq_or_imp, hrow, Option.some.injEq]
      by_cases hlater : ∃ later ∈ rest, v.rowOf? later = some row
      · simp only [hlater, or_true, if_true]
      · simp only [hlater, or_false, if_false]

theorem measured_evict {v : Viewport} (hvalid : Valid v) (h : Tracked v) (count sequence : Nat) :
    (v.evict count).measured[sequence]? =
      if ((v.evict count).rowOf? sequence).isSome then v.measured[sequence]? else none := by
  split
  next hsome =>
    obtain ⟨row, hrow⟩ := Option.isSome_iff_exists.mp hsome
    rw [rowOf?_evict hvalid] at hrow
    cases hfirst : v.first? with
    | none => rw [evict, hfirst]
    | some first =>
      rw [rowOf?_eq_some_iff hfirst] at hrow
      simp only [evict, hfirst]
      split
      · rfl
      · rw [Std.TreeMap.getElem?_filter']
        have hlate : first + min count v.size ≤ sequence := by omega
        cases v.measured[sequence]? <;> simp [hlate]
  next hnone =>
    exact Std.TreeMap.getElem?_eq_none fun hmem => hnone (tracked_evict hvalid h count _ hmem)

/-! ### What is remembered -/

/-- The map has the heights that were taken for the rows that are there, and rows without an
entry are at the estimate. -/
structure Remembers (es : List Event) (v : Viewport) : Prop where
  valid : Valid v
  started : v.Started
  measured : ∀ sequence, v.measured[sequence]? =
    if (v.rowOf? sequence).isSome then latest sequence (sinceRow sequence es) else none
  height : ∀ sequence row, v.rowOf? sequence = some row →
    v.heights.height row = v.measured[sequence]?.getD v.settings.estimate.lines

theorem remembers_new (settings : Settings) : Remembers [] (new settings) := by
  refine ⟨valid_new settings, fun _ => rfl, fun sequence => rfl, fun sequence row hrow => ?_⟩
  rw [rowOf?_of_none rfl] at hrow
  cases hrow

namespace Remembers
variable {es : List Event} {v : Viewport} (h : Remembers es v)
include h

theorem tracked : Tracked v := by
  intro sequence hmem
  have hentry := h.measured sequence
  rw [Std.TreeMap.mem_iff_isSome_getElem?, hentry] at hmem
  split at hmem
  · assumption
  · cases hmem

/-- Actions that change no height and no row. -/
theorem of_same {w : Viewport} (hheights : w.heights = v.heights) (hfirst : w.first? = v.first?)
    (hmeasured : w.measured = v.measured) (hsettings : w.settings = v.settings) :
    Remembers es w := by
  have hsize : w.size = v.size := congrArg HeightIndex.size hheights
  have hrow := rowOf?_congr hsize hfirst
  refine ⟨h.valid.of_heights hheights, fun hnone => ?_, fun sequence => ?_,
    fun sequence row hsome => ?_⟩
  · rw [hsize]
    exact h.started (hfirst.symm.trans hnone)
  · rw [hmeasured, hrow]
    exact h.measured sequence
  · rw [hheights, hmeasured, hsettings]
    exact h.height sequence row (by rwa [← hrow])

/-- The row that comes has no entry yet. -/
theorem push (sequence : Nat) :
    Remembers (es ++ [.came (v.numberOf sequence)]) (v.push sequence) := by
  have hrowOf := rowOf?_push h.valid h.started sequence
  have hnew : v.rowOf? (v.numberOf sequence) = none := by
    cases hfirst : v.first? with
    | none => exact rowOf?_of_none hfirst _
    | some first => simp [rowOf?, numberOf, hfirst]
  refine ⟨valid_push h.valid sequence, fun hnone => ?_, fun other => ?_,
    fun other row hrow => ?_⟩
  · cases hnone
  · show v.measured[other]? = _
    rw [h.measured, hrowOf, sinceRow_came]
    by_cases heq : other = v.numberOf sequence
    · subst heq
      simp [hnew, latest]
    · simp [heq, Ne.symm heq]
  · show _ = v.measured[other]?.getD v.settings.estimate.lines
    rw [hrowOf] at hrow
    split at hrow
    next heq =>
      obtain rfl := Option.some.inj hrow
      rw [height_push h.valid _ (Nat.le_refl _), if_pos rfl, h.measured, heq, hnew]
      rfl
    next =>
      have hlive := rowOf?_lt hrow
      rw [height_push h.valid _ (Nat.le_of_lt hlive), if_neg (Nat.ne_of_lt hlive)]
      exact h.height other row hrow

/-- A height that is taken goes into both places. -/
theorem remeasure {sequence row : Nat} (hrow : v.rowOf? sequence = some row)
    (height : RowHeight) :
    Remembers (es ++ [.took sequence height.lines]) (v.remeasure row sequence height) := by
  obtain ⟨hvalid, hsize⟩ := valid_setHeight h.valid (rowOf?_lt hrow) height.positive
    (w := v.remeasure row sequence height) rfl
  have hrowOf := rowOf?_congr (v := v) (w := v.remeasure row sequence height) hsize rfl
  have hentry : ∀ other, (v.remeasure row sequence height).measured[other]? =
      if sequence = other then some height.lines else v.measured[other]? := by
    intro other
    simp [Viewport.remeasure, Std.TreeMap.getElem?_insert]
  refine ⟨hvalid, fun hnone => ?_, fun other => ?_, fun other otherRow hother => ?_⟩
  · rw [hsize]
    exact h.started hnone
  · rw [hentry, hrowOf, h.measured, sinceRow_took, latest_took]
    split
    next heq =>
      subst heq
      rw [hrow]
      rfl
    next => rfl
  · rw [hrowOf] at hother
    have hset := HeightIndex.height_set h.valid.heights (rowOf?_lt hrow) height.lines otherRow
    refine hset.trans ?_
    rw [hentry]
    by_cases heq : sequence = other
    · subst heq
      obtain rfl : row = otherRow := Option.some.inj (hrow.symm.trans hother)
      rw [if_pos rfl, if_pos rfl, Option.getD_some]
    · have hne : row ≠ otherRow := fun hsame => heq (rowOf?_inj (hsame ▸ hrow) hother)
      rw [if_neg hne, if_neg heq]
      exact h.height other otherRow hother

/-- The rows that the map names are all that could stand at another height than the estimate. -/
theorem height_resetMeasured {sequence row : Nat} (hrow : v.rowOf? sequence = some row) :
    v.resetMeasured.heights.height row = v.settings.estimate.lines := by
  have hreset := height_estimateRows (v := v) v.measured.keys h.valid.heights rfl row
  refine hreset.trans ?_
  split
  next => rfl
  next hunnamed =>
    have hentry : v.measured[sequence]? = none :=
      Std.TreeMap.getElem?_eq_none fun hmem =>
        hunnamed ⟨sequence, Std.TreeMap.mem_keys.mpr hmem, hrow⟩
    rw [h.height sequence row hrow, hentry, Option.getD_none]

theorem resetMeasured : Remembers (es ++ [.reset]) v.resetMeasured := by
  have hsize : v.resetMeasured.size = v.size := (valid_estimateRows h.valid v.measured.keys).2
  have hrowOf := rowOf?_congr (v := v) (w := v.resetMeasured) hsize rfl
  refine ⟨valid_resetMeasured h.valid, fun hnone => ?_, fun sequence => ?_,
    fun sequence row hrow => ?_⟩
  · rw [hsize]
    exact h.started hnone
  · rw [sinceRow_reset, latest_reset, ite_self]
    rfl
  · rw [hrowOf] at hrow
    exact h.height_resetMeasured hrow

/-- Rows that go take their entries along. -/
theorem evict (count : Nat) : Remembers es (v.evict count) := by
  have hrowOf := rowOf?_evict h.valid count
  have hentry := measured_evict h.valid h.tracked count
  refine ⟨valid_evict h.valid count, fun hnone => ?_, fun sequence => ?_,
    fun sequence row hrow => ?_⟩
  · exact started_evict h.started count hnone
  · rw [hentry, h.measured]
    split
    next hsome => rw [if_pos (isSome_rowOf?_evict h.valid hsome)]
    next => rfl
  · have hbefore := (hrowOf sequence row).mp hrow
    have hfirst : v.first?.isSome := by
      rw [Option.isSome_iff_ne_none]
      intro hnone
      rw [rowOf?_of_none hnone] at hbefore
      cases hbefore
    rw [height_evict_row h.valid hfirst, hentry, hrow, settings_evict]
    exact h.height sequence _ hbefore

omit h in
theorem clear : Remembers es v.clear := by
  refine ⟨valid_clear, fun _ => ?_, fun sequence => ?_, fun sequence row hrow => ?_⟩
  · rw [size, HeightIndex.size_eq, Viewport.clear, (HeightIndex.valid_clear v.heights).2]
    rfl
  · rw [rowOf?_of_none rfl]
    rfl
  · rw [rowOf?_of_none rfl] at hrow
    cases hrow

theorem act (a : Action) : Remembers (es ++ v.events a) (v.act a) := by
  have hquiet : v.events a = [] → Remembers es (v.act a) →
      Remembers (es ++ v.events a) (v.act a) := by
    intro hnone hact
    rwa [hnone, List.append_nil]
  cases a with
  | push sequence => exact h.push sequence
  | measure sequence height =>
    obtain ⟨hnone, hsame⟩ | ⟨row, lines, hrow, hevent, hact⟩ := v.events_measure sequence height
    · refine hquiet hnone ?_
      rw [hsame]
      exact h
    · rw [hevent, hact]
      exact h.remeasure hrow lines
  | resetMeasured => exact h.resetMeasured
  | window height =>
    exact hquiet rfl
      (h.of_same (heights_resize ..) (first?_resize ..) (measured_resize ..) (settings_resize ..))
  | scrollTo p => exact hquiet rfl (h.of_same rfl rfl rfl rfl)
  | scrollBy delta => exact hquiet rfl (h.of_same rfl rfl rfl rfl)
  | follow => exact hquiet rfl (h.of_same rfl rfl rfl rfl)
  | evict count => exact hquiet rfl (h.evict count)
  | clear => exact hquiet rfl clear

theorem run (actions : List Action) : Remembers (es ++ v.history actions) (v.run actions) := by
  induction actions generalizing es v with
  | nil =>
    rw [history, List.append_nil]
    exact h
  | cons a rest ih =>
    have hlater := ih (h.act a)
    rwa [List.append_assoc] at hlater

end Remembers

end LiveTail.Rows.Viewport
