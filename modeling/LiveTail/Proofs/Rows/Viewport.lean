import Mathlib.Algebra.Order.BigOperators.Group.List
import Mathlib.Algebra.Order.Group.Nat
import LiveTail.Proofs.Rows.HeightIndex
import LiveTail.Rows.Viewport

/-! What holds of a viewport after any run of actions.

A viewport is created empty and then moved by the host: rows come, are measured
and go, and the view scrolls. `Valid` says that the height index keeps its
invariant, that no row is without height, and that dead slots never outnumber
live ones between two actions. Every action keeps it (`valid_act`). -/
namespace LiveTail.Rows.Viewport

/-- The heights of the rows, oldest first. -/
def rows (v : Viewport) : List Nat := v.heights.toList

structure Valid (v : Viewport) : Prop where
  heights : v.heights.Valid
  positive : ∀ x ∈ v.rows, 0 < x
  compacted : v.heights.base ≤ v.heights.size

theorem size_eq (v : Viewport) : v.size = v.rows.length := v.heights.size_eq

theorem isEmpty_iff (v : Viewport) : v.isEmpty = true ↔ v.size = 0 := beq_iff_eq

theorem Valid.total_eq {v : Viewport} (h : Valid v) (hfit : v.rows.sum < 2 ^ 63) :
    v.total = v.rows.sum := HeightIndex.total_eq h.heights hfit

theorem Valid.length_le_sum {v : Viewport} (h : Valid v) : v.size ≤ v.rows.sum := by
  rw [size_eq]
  exact List.length_le_sum_of_one_le v.rows h.positive

theorem rowOf?_lt {v : Viewport} {sequence row : Nat} (h : v.rowOf? sequence = some row) :
    row < v.size := by
  unfold rowOf? at h
  split at h
  · cases h
  · simp only [Option.ite_none_right_eq_some, Option.some.injEq] at h
    omega

/-! ### The rows laid out -/

theorem rowAt_getD_lt (v : Viewport) (line : Nat) (h : 0 < v.size) :
    (v.heights.rowAt? line).getD (v.size - 1) < v.size := by
  cases hrow : v.heights.rowAt? line with
  | none =>
    rw [Option.getD_none]
    omega
  | some row => exact HeightIndex.rowAt?_lt hrow

/-- The span of a window, overscan included, lies within the rows. -/
theorem span_bounds (v : Viewport) (offset : Nat) (h : 0 < v.size) :
    let span := (v.visible offset).widen v.settings.overscan v.size
    span.first < v.size ∧ span.first + span.size ≤ v.size := by
  have hfirst := rowAt_getD_lt v offset h
  simp only [visible, Span.widen, Span.size]
  omega

/-! ### Actions -/

/-- What a host does with a viewport. -/
inductive Action where
  | push (sequence : Nat)
  | measure (sequence height : Nat)
  | resetMeasured
  | window (height : Nat)
  | scrollTo (p : Position)
  | scrollBy (delta : Int)
  | follow
  | evict (count : Nat)
  | clear
deriving DecidableEq, Repr

/-- The viewport after an action. A refused measurement changes nothing. -/
def act (v : Viewport) : Action → Viewport
  | .push sequence => v.push sequence
  | .measure sequence height =>
    match v.measure sequence height with
    | .ok (_, v) => v
    | .error _ => v
  | .resetMeasured => v.resetMeasured
  | .window height => (v.window height).2
  | .scrollTo p => v.scrollTo p
  | .scrollBy delta => v.scrollBy delta
  | .follow => v.follow
  | .evict count => v.evict count
  | .clear => v.clear

def run (v : Viewport) : List Action → Viewport
  | [] => v
  | a :: rest => run (v.act a) rest

theorem run_append (v : Viewport) (a b : List Action) : v.run (a ++ b) = (v.run a).run b := by
  induction a generalizing v with
  | nil => rfl
  | cons x rest ih => exact ih (v.act x)

/-! ### What an action keeps -/

/-- Actions that leave the heights alone keep everything. -/
theorem Valid.of_heights {v w : Viewport} (h : Valid v) (hw : w.heights = v.heights) : Valid w := by
  constructor
  · rw [hw]
    exact h.heights
  · rw [rows, hw]
    exact h.positive
  · rw [hw]
    exact h.compacted

@[simp] theorem heights_resize (v : Viewport) (height : Nat) :
    (v.resize height).heights = v.heights := by
  unfold resize
  dsimp only
  split <;> rfl

theorem valid_new (settings : Settings) : Valid (new settings) := by
  obtain ⟨hvalid, hempty⟩ := HeightIndex.valid_ofCapacity 64
  refine ⟨hvalid, fun x hx => ?_, Nat.zero_le _⟩
  rw [rows, new, hempty] at hx
  cases hx

/-- One row changed to a height of at least one. -/
theorem valid_setHeight {v w : Viewport} (h : Valid v) {row : Nat} (hrow : row < v.size)
    {x : Nat} (hx : 0 < x) (hw : w.heights = v.heights.set row x) :
    Valid w ∧ w.size = v.size := by
  obtain ⟨hvalid, hlist⟩ := HeightIndex.valid_set h.heights hrow x
  have hsize : (v.heights.set row x).size = v.heights.size := by
    rw [HeightIndex.size_eq, hlist, List.length_set, ← HeightIndex.size_eq]
  refine ⟨⟨by rw [hw]; exact hvalid, fun y hy => ?_, ?_⟩, by rw [size, hw, hsize, size]⟩
  · rw [rows, hw, hlist] at hy
    rcases List.mem_or_eq_of_mem_set hy with hy | rfl
    · exact h.positive y hy
    · exact hx
  · rw [hw, hsize]
    exact h.compacted

theorem valid_push {v : Viewport} (h : Valid v) (sequence : Nat) : Valid (v.push sequence) := by
  obtain ⟨hvalid, hlist⟩ := HeightIndex.valid_push h.heights v.settings.estimate.lines
  refine ⟨hvalid, fun x hx => ?_, ?_⟩
  · simp only [rows, push, hlist, List.mem_append, List.mem_singleton] at hx
    rcases hx with hx | rfl
    · exact h.positive x hx
    · exact v.settings.estimate.positive
  · have hbase : (v.heights.push v.settings.estimate.lines).base = v.heights.base := by
      unfold HeightIndex.push
      dsimp only
      split <;> rfl
    have hsize : (v.heights.push v.settings.estimate.lines).size = v.heights.size + 1 := by
      rw [HeightIndex.size_eq, hlist, List.length_append, ← HeightIndex.size_eq]
      rfl
    have := h.compacted
    show (v.heights.push _).base ≤ (v.heights.push _).size
    omega

/-- Putting rows back to the estimate, one after the other. They are looked up in `v`, so the
heights vary while `v` stays. -/
theorem estimateRows_induction {v : Viewport} {P : HeightIndex → Prop} (hstart : P v.heights)
    (hstep : ∀ heights row, P heights → row < v.size →
      P (heights.set row v.settings.estimate.lines))
    (sequences : List Nat) : P (sequences.foldl v.estimateRow v.heights) := by
  have key : ∀ heights, P heights → P (sequences.foldl v.estimateRow heights) := by
    induction sequences with
    | nil => exact fun _ h => h
    | cons sequence rest ih =>
      intro heights h
      rw [List.foldl_cons]
      refine ih _ ?_
      unfold estimateRow
      split
      · exact h
      next row hrow => exact hstep heights row h (rowOf?_lt hrow)
  exact key v.heights hstart

/-- Putting rows back to the estimate changes heights only. -/
theorem valid_estimateRows {v : Viewport} (h : Valid v) (sequences : List Nat) :
    Valid { v with heights := sequences.foldl v.estimateRow v.heights } ∧
      (sequences.foldl v.estimateRow v.heights).size = v.size := by
  refine estimateRows_induction
    (P := fun heights => Valid { v with heights } ∧ heights.size = v.size) ⟨h, rfl⟩ ?_ sequences
  rintro heights row ⟨hvalid, hsize⟩ hrow
  have hlt : row < heights.size := Nat.lt_of_lt_of_eq hrow hsize.symm
  obtain ⟨hset, hsame⟩ := valid_setHeight (v := { v with heights })
    (w := { v with heights := heights.set row v.settings.estimate.lines }) hvalid hlt
    v.settings.estimate.positive rfl
  exact ⟨hset, hsame.trans hsize⟩

theorem valid_resetMeasured {v : Viewport} (h : Valid v) : Valid v.resetMeasured :=
  (valid_estimateRows h v.measured.keys).1.of_heights rfl

/-- A measurement that is taken changes nothing or one row. -/
theorem measure_cases {v w : Viewport} {sequence height : Nat} {known : Bool}
    (hw : v.measure sequence height = .ok (known, w)) :
    (v.rowOf? sequence = none ∧ known = false ∧ w = v) ∨
      ∃ row lines, v.rowOf? sequence = some row ∧ RowHeight.of? height = .ok lines ∧
        known = true ∧ w = v.remeasure row sequence lines := by
  unfold measure at hw
  cases hheight : RowHeight.of? height with
  | error e =>
    rw [hheight] at hw
    cases hw
  | ok lines =>
    rw [hheight] at hw
    cases hrow : v.rowOf? sequence with
    | none =>
      rw [hrow] at hw
      cases hw
      exact .inl ⟨rfl, rfl, rfl⟩
    | some row =>
      rw [hrow] at hw
      cases hw
      exact .inr ⟨row, lines, rfl, rfl, rfl, rfl⟩

theorem valid_measure {v : Viewport} (h : Valid v) {sequence height : Nat} {known : Bool}
    {w : Viewport} (hw : v.measure sequence height = .ok (known, w)) : Valid w := by
  obtain ⟨-, -, rfl⟩ | ⟨row, lines, hrow, -, -, rfl⟩ := measure_cases hw
  · exact h
  · exact (valid_setHeight h (rowOf?_lt hrow) lines.positive rfl).1

theorem compacted_dropFront (t : HeightIndex) (count : Nat) :
    (t.dropFront count).2.base ≤ (t.dropFront count).2.size := by
  simp only [HeightIndex.dropFront, HeightIndex.compact]
  split
  · exact Nat.zero_le _
  · omega

theorem valid_evict {v : Viewport} (h : Valid v) (count : Nat) : Valid (v.evict count) := by
  unfold evict
  split
  · exact h
  · dsimp only
    split
    · exact h
    · obtain ⟨-, hvalid, hlist⟩ := HeightIndex.valid_dropFront h.heights (min count v.size)
      refine ⟨hvalid, fun x hx => ?_, compacted_dropFront _ _⟩
      rw [rows, hlist] at hx
      exact h.positive x (List.mem_of_mem_drop hx)

theorem valid_clear {v : Viewport} : Valid v.clear := by
  obtain ⟨hvalid, hempty⟩ := HeightIndex.valid_clear v.heights
  refine ⟨hvalid, fun x hx => ?_, Nat.zero_le _⟩
  rw [rows, clear, hempty] at hx
  cases hx

theorem valid_act {v : Viewport} (h : Valid v) (a : Action) : Valid (v.act a) := by
  cases a with
  | push sequence => exact valid_push h sequence
  | measure sequence height =>
    simp only [act]
    split
    next known w hw => exact valid_measure h hw
    next => exact h
  | resetMeasured => exact valid_resetMeasured h
  | window height => exact h.of_heights (heights_resize v height)
  | scrollTo p => exact h.of_heights rfl
  | scrollBy delta => exact h.of_heights rfl
  | follow => exact h.of_heights rfl
  | evict count => exact valid_evict h count
  | clear => exact valid_clear

theorem valid_run {v : Viewport} (h : Valid v) (actions : List Action) : Valid (v.run actions) := by
  induction actions generalizing v with
  | nil => exact h
  | cons a rest ih => exact ih (valid_act h a)

/-! ### Which records have rows -/

theorem rowOf?_eq_some_iff {v : Viewport} {first : Nat} (hfirst : v.first? = some first)
    (sequence row : Nat) :
    v.rowOf? sequence = some row ↔ row < v.size ∧ sequence = first + row := by
  simp only [rowOf?, hfirst, Option.ite_none_right_eq_some, Option.some.injEq]
  omega

theorem rowOf?_of_none {v : Viewport} (hfirst : v.first? = none) (sequence : Nat) :
    v.rowOf? sequence = none := by
  rw [rowOf?, hfirst]

theorem rowOf?_inj {v : Viewport} {sequence other row : Nat} (h : v.rowOf? sequence = some row)
    (h' : v.rowOf? other = some row) : sequence = other := by
  cases hfirst : v.first? with
  | none =>
    rw [rowOf?_of_none hfirst] at h
    cases h
  | some first =>
    rw [rowOf?_eq_some_iff hfirst] at h h'
    omega

theorem size_push {v : Viewport} (h : Valid v) (sequence : Nat) :
    (v.push sequence).size = v.size + 1 := by
  obtain ⟨-, hlist⟩ := HeightIndex.valid_push h.heights v.settings.estimate.lines
  rw [size_eq, rows, push, hlist, List.length_append, ← rows, ← size_eq]
  rfl

/-- As long as a row stays, the first number moves by the number of rows dropped. -/
theorem evict_some {v : Viewport} (h : Valid v) {first count : Nat} (hfirst : v.first? = some first)
    (hcount : count < v.size) :
    (v.evict count).size = v.size - count ∧ (v.evict count).first? = some (first + count) := by
  have hmin : min count v.size = count := by omega
  obtain ⟨-, -, hlist⟩ := HeightIndex.valid_dropFront h.heights count
  have hsize : (v.heights.dropFront count).2.size = v.size - count := by
    rw [HeightIndex.size_eq, hlist, List.length_drop, ← HeightIndex.size_eq, ← size]
  rw [evict, hfirst]
  simp only [hmin]
  split
  next hzero => simp [hzero, hfirst]
  next =>
    have hlive : (v.heights.dropFront count).2.isEmpty = false := by
      rw [HeightIndex.isEmpty, hsize, beq_eq_false_iff_ne]
      omega
    exact ⟨hsize, by simp [hlive]⟩

theorem rows_push {v : Viewport} (h : Valid v) (sequence : Nat) :
    (v.push sequence).rows = v.rows ++ [v.settings.estimate.lines] :=
  (HeightIndex.valid_push h.heights _).2

/-- Rows that are dropped give up their lines. -/
theorem rows_evict {v : Viewport} (h : Valid v) (hfirst : v.first?.isSome) (count : Nat) :
    (v.evict count).rows = v.rows.drop count ∧
      (v.evict count).stored = v.stored - (v.rows.take count).sum := by
  obtain ⟨first, hfirst⟩ := Option.isSome_iff_exists.mp hfirst
  rw [List.take_eq_take_min, List.drop_eq_drop_min, ← size_eq, evict, hfirst]
  dsimp only
  split
  next hzero => simp [hzero]
  next =>
    obtain ⟨hsum, -, hlist⟩ := HeightIndex.valid_dropFront h.heights (min count v.size)
    exact ⟨hlist, congrArg (v.stored - ·) hsum⟩

/-- A record with a row is measured by setting the row. -/
theorem measure_some {v : Viewport} {sequence row : Nat} (hrow : v.rowOf? sequence = some row)
    (height : RowHeight) :
    v.measure sequence height.lines = .ok (true, v.remeasure row sequence height) := by
  rw [measure, RowHeight.of?_lines, hrow]
  rfl

theorem measure_eq (v : Viewport) (sequence : Nat) {height : Nat} (hheight : 0 < height) :
    ∃ w, v.measure sequence height = .ok ((v.rowOf? sequence).isSome, w) := by
  unfold measure RowHeight.of?
  rw [dif_pos hheight]
  cases hrow : v.rowOf? sequence with
  | none => exact ⟨v, rfl⟩
  | some row => exact ⟨_, rfl⟩

/-- A measurement changes the height of a row, not which records have rows. -/
theorem rows_measure {v w : Viewport} (h : Valid v) {sequence height : Nat} {known : Bool}
    (hw : v.measure sequence height = .ok (known, w)) :
    w.size = v.size ∧ w.first? = v.first? := by
  obtain ⟨-, -, rfl⟩ | ⟨row, lines, hrow, -, -, rfl⟩ := measure_cases hw
  · exact ⟨rfl, rfl⟩
  · exact ⟨(valid_setHeight h (rowOf?_lt hrow) lines.positive rfl).2, rfl⟩

@[simp] theorem first?_resize (v : Viewport) (height : Nat) :
    (v.resize height).first? = v.first? := by
  unfold resize
  dsimp only
  split <;> rfl

@[simp] theorem measured_resize (v : Viewport) (height : Nat) :
    (v.resize height).measured = v.measured := by
  unfold resize
  dsimp only
  split <;> rfl

end LiveTail.Rows.Viewport
