import LiveTail.Proofs.Backlog
import LiveTail.Proofs.Rows.Viewport
import LiveTail.Tail

/-! The backlog and the viewport of a tail stay in step.

Each keeps its own account of which records there are: the backlog has the numbers
in its slots, the viewport has the number of its first row and a count. `Valid`
says that the two accounts agree. Appending changes both, in two moves when a
record is dropped; clearing empties both; everything else leaves both accounts
alone. -/
namespace LiveTail.Tail
open Rows
variable {ε : Type}

structure Valid (t : Tail ε) : Prop where
  backlog : t.backlog.Valid
  viewport : t.viewport.Valid
  size : t.viewport.size = t.backlog.size
  first : t.viewport.first? = t.backlog.first?

/-! ### Actions -/

/-- What a host does with a tail. -/
inductive Action (ε : Type) where
  | observe (observer : DecodeError → ε)
  | append (r : LogRecord)
  | ingestText (text : String)
  | ingestMessage (m : Message)
  | ingest (d : Decoded)
  | window (height : Nat)
  | measure (sequence height : Nat)
  | resetMeasured
  | scrollTo (p : Position)
  | scrollBy (delta : Int)
  | follow
  | clear

/-- The tail after an action. A refused measurement changes nothing. -/
def act (t : Tail ε) : Action ε → Tail ε
  | .observe observer => t.observe observer
  | .append r => (t.append r).2
  | .ingestText text => (t.ingestText text).2
  | .ingestMessage m => (t.ingestMessage m).2
  | .ingest d => (t.ingest d).2
  | .window height => (t.window height).2
  | .measure sequence height =>
    match t.measure sequence height with
    | .ok (_, t) => t
    | .error _ => t
  | .resetMeasured => t.resetMeasured
  | .scrollTo p => t.scrollTo p
  | .scrollBy delta => t.scrollBy delta
  | .follow => t.follow
  | .clear => t.clear

def run (t : Tail ε) : List (Action ε) → Tail ε
  | [] => t
  | a :: rest => run (t.act a) rest

/-! ### Actions on both -/

/-- The viewport after an append: a row is pushed, then those of dropped records go. -/
theorem viewport_append (t : Tail ε) (r : LogRecord) :
    (t.append r).2.viewport =
      if 0 < (t.backlog.append r).1.dropped then
        (t.viewport.push t.backlog.next).evict (t.backlog.append r).1.dropped
      else t.viewport.push t.backlog.next := rfl

/-- The first row after a push, before any record is dropped. -/
theorem Valid.first_push {t : Tail ε} (h : Valid t) :
    (t.viewport.push t.backlog.next).first? = some (t.backlog.next - t.backlog.size) := by
  show some (t.viewport.first?.getD t.backlog.next) = _
  rw [h.first]
  rcases Nat.eq_zero_or_pos t.backlog.size with hzero | hpos
  · rw [t.backlog.first?_eq_none_iff.mpr hzero, hzero]
    rfl
  · rw [Backlog.first?_eq h.backlog hpos]
    rfl

theorem valid_append {t : Tail ε} (h : Valid t) (r : LogRecord) : Valid (t.append r).2 := by
  have hbacklog := Backlog.valid_append h.backlog r
  have hpush := Viewport.valid_push h.viewport t.backlog.next
  have hsize := Viewport.size_push h.viewport t.backlog.next
  have hkept := Backlog.size_append h.backlog r
  have hdropped := Backlog.excess_grow_le h.backlog r
  rw [← Backlog.dropped_append] at hdropped
  have hviewport := viewport_append t r
  have hle := h.backlog.size_le
  -- The record just appended stays, so neither account is empty.
  have hfirst : (t.backlog.append r).2.first? =
      some (t.backlog.next - t.backlog.size + (t.backlog.append r).1.dropped) := by
    rw [Backlog.first?_eq hbacklog (by omega), Backlog.next_append, hkept]
    congr 1
    omega
  rw [h.size] at hsize
  have hstays : (t.backlog.append r).1.dropped < (t.viewport.push t.backlog.next).size := by
    omega
  split at hviewport
  next =>
    obtain ⟨hcount, hmoved⟩ := Viewport.evict_some hpush h.first_push hstays
    refine ⟨hbacklog, ?_, ?_, ?_⟩
    · rw [hviewport]
      exact Viewport.valid_evict hpush _
    · rw [hviewport, hcount, hsize]
      exact hkept.symm
    · rw [hviewport, hmoved]
      exact hfirst.symm
  next hnone =>
    have hzero : (t.backlog.append r).1.dropped = 0 := by omega
    rw [hzero] at hkept hfirst
    refine ⟨hbacklog, ?_, ?_, ?_⟩
    · rw [hviewport]
      exact hpush
    · rw [hviewport, hsize]
      exact hkept.symm
    · rw [hviewport, h.first_push]
      exact hfirst.symm

theorem valid_clear (t : Tail ε) : Valid t.clear := by
  have hempty := (HeightIndex.valid_clear t.viewport.heights).2
  refine ⟨Backlog.valid_clear t.backlog, Viewport.valid_clear, ?_, rfl⟩
  show t.viewport.heights.clear.size = 0
  rw [HeightIndex.size_eq, hempty]
  rfl

/-! ### Actions on one -/

/-- Actions that keep the rows of the viewport and the backlog keep them in step. -/
theorem Valid.of_rows {t u : Tail ε} (h : Valid t) (hbacklog : u.backlog = t.backlog)
    (hviewport : u.viewport.Valid) (hsize : u.viewport.size = t.viewport.size)
    (hfirst : u.viewport.first? = t.viewport.first?) : Valid u := by
  constructor
  · rw [hbacklog]
    exact h.backlog
  · exact hviewport
  · rw [hsize, hbacklog, h.size]
  · rw [hfirst, hbacklog, h.first]

theorem valid_ingest {t : Tail ε} (h : Valid t) (d : Decoded) : Valid (t.ingest d).2 := by
  cases d with
  | ok r => exact valid_append h r
  | error e => exact h.of_rows rfl h.viewport rfl rfl

theorem valid_measure {t u : Tail ε} (h : Valid t) {sequence height : Nat} {known : Bool}
    (hu : t.measure sequence height = .ok (known, u)) : Valid u := by
  unfold measure at hu
  cases hw : t.viewport.measure sequence height with
  | error e =>
    rw [hw] at hu
    cases hu
  | ok answer =>
    rw [hw] at hu
    cases hu
    obtain ⟨hsize, hfirst⟩ := Viewport.rows_measure h.viewport hw
    exact h.of_rows rfl (Viewport.valid_measure h.viewport hw) hsize hfirst

theorem valid_act {t : Tail ε} (h : Valid t) (a : Action ε) : Valid (t.act a) := by
  cases a with
  | observe observer => exact h.of_rows rfl h.viewport rfl rfl
  | append r => exact valid_append h r
  | ingestText text => exact valid_ingest h _
  | ingestMessage m => exact valid_ingest h _
  | ingest d => exact valid_ingest h d
  | window height =>
    have hheights := Viewport.heights_resize t.viewport height
    refine h.of_rows rfl (h.viewport.of_heights hheights) ?_ (Viewport.first?_resize ..)
    exact congrArg HeightIndex.size hheights
  | measure sequence height =>
    simp only [act]
    split
    next known u hu => exact valid_measure h hu
    next => exact h
  | resetMeasured =>
    refine h.of_rows rfl (Viewport.valid_resetMeasured h.viewport) ?_ rfl
    exact (Viewport.valid_estimateRows h.viewport _).2
  | scrollTo p => exact h.of_rows rfl (h.viewport.of_heights rfl) rfl rfl
  | scrollBy delta => exact h.of_rows rfl (h.viewport.of_heights rfl) rfl rfl
  | follow => exact h.of_rows rfl (h.viewport.of_heights rfl) rfl rfl
  | clear => exact valid_clear t

theorem valid_run {t : Tail ε} (h : Valid t) (actions : List (Action ε)) :
    Valid (t.run actions) := by
  induction actions generalizing t with
  | nil => exact h
  | cons a rest ih => exact ih (valid_act h a)

/-- A tail starts with nothing. -/
theorem new_of? {s : TailSettings} {t : Tail ε} (h : of? s = .ok t) :
    ∃ limit, t = ⟨.new limit, .new s.rows, none, #[], {}⟩ := by
  unfold of? at h
  cases hcapacity : s.capacity with
  | none =>
    rw [hcapacity] at h
    cases h
    exact ⟨none, rfl⟩
  | some n =>
    rw [hcapacity] at h
    cases hlimit : Capacity.of? n with
    | error e =>
      simp only [hlimit] at h
      cases h
    | ok limit =>
      simp only [hlimit] at h
      cases h
      exact ⟨some limit, rfl⟩

/-- A capacity of zero is the only one refused. -/
theorem of?_eq {s : TailSettings} (h : s.capacity ≠ some 0) :
    ∃ t : Tail ε, of? s = .ok t ∧ Valid t := by
  have hvalid : ∀ limit, Valid (ε := ε) ⟨.new limit, .new s.rows, none, #[], {}⟩ :=
    fun limit => ⟨Backlog.valid_new limit, Viewport.valid_new s.rows, rfl, rfl⟩
  unfold of?
  cases hcapacity : s.capacity with
  | none => exact ⟨_, rfl, hvalid none⟩
  | some n =>
    have hpos : 0 < n := Nat.pos_of_ne_zero fun hzero => h (by rw [hcapacity, hzero])
    simp only [Capacity.of?, dif_pos hpos]
    exact ⟨_, rfl, hvalid _⟩

/-! ### What the two say of a record -/

/-- The backlog and the viewport tell the same of every record. -/
structure InStep (t : Tail ε) : Prop where
  size : t.viewport.size = t.backlog.size
  first : t.viewport.first? = t.backlog.first?
  /-- A record has a row exactly when it is held, at the same place. -/
  place : ∀ sequence, t.viewport.rowOf? sequence = t.backlog.placeOf? sequence
  /-- The next row pushed is for the number after those of the rows. -/
  next : ∀ r first, t.viewport.first? = some first →
    (t.backlog.append r).1.sequence = first + t.viewport.size
  /-- A height is taken exactly when the record is held. -/
  measure : ∀ sequence height, 0 < height →
    ∃ u, t.measure sequence height = .ok ((t.backlog.get? sequence).isSome, u)

theorem Valid.inStep {t : Tail ε} (h : Valid t) : InStep t := by
  have hplace : ∀ sequence, t.viewport.rowOf? sequence = t.backlog.placeOf? sequence := by
    intro sequence
    cases hfirst : t.backlog.first? with
    | none => simp only [Viewport.rowOf?, Backlog.placeOf?, h.first, hfirst]
    | some first => simp only [Viewport.rowOf?, Backlog.placeOf?, h.first, h.size, hfirst]
  refine ⟨h.size, h.first, hplace, fun r first hfirst => ?_, fun sequence height hheight => ?_⟩
  · have hle := h.backlog.size_le
    have hpos : 0 < t.backlog.size := by
      rcases Nat.eq_zero_or_pos t.backlog.size with hzero | hpos
      · rw [h.first, t.backlog.first?_eq_none_iff.mpr hzero] at hfirst
        cases hfirst
      · exact hpos
    rw [h.first, Backlog.first?_eq h.backlog hpos, Option.some.injEq] at hfirst
    rw [Backlog.sequence_append, h.size]
    omega
  · obtain ⟨w, hw⟩ := Viewport.measure_eq t.viewport sequence hheight
    refine ⟨{ t with viewport := w }, ?_⟩
    rw [Tail.measure, hw, hplace, ← Backlog.isSome_get?]
    rfl

/-- **In step.** Whatever is done with a tail, its backlog and its viewport agree on
which records there are and where. -/
theorem inStep_run (s : TailSettings) (h : s.capacity ≠ some 0) :
    ∃ t : Tail ε, of? s = .ok t ∧ ∀ actions, InStep (t.run actions) := by
  obtain ⟨t, ht, hvalid⟩ := of?_eq (ε := ε) h
  exact ⟨t, ht, fun actions => (valid_run hvalid actions).inStep⟩

/-- A tail of one record is refilled after a clear. -/
theorem inStep_run_refilled :
    (TailSettings.mk {} (some 1)).capacity ≠ some 0 ∧
      ∃ t : Tail DecodeError, of? ⟨{}, some 1⟩ = .ok t ∧
        InStep (t.run [.append default, .append default, .clear, .append default]) := by
  refine ⟨by decide, ?_⟩
  obtain ⟨t, ht, hrun⟩ := inStep_run (ε := DecodeError) ⟨{}, some 1⟩ (by decide)
  exact ⟨t, ht, hrun _⟩

end LiveTail.Tail
