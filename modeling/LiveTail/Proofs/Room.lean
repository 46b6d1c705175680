import LiveTail.Proofs.Rows.Room
import LiveTail.Proofs.Tail

/-! How much room a tail with a limit takes.

However many records come, what a tail keeps is bounded by its limit: the records, the
heights remembered for them, the slots of both with those still to be given up, and the
nodes of the tree. Each bound is carried by an invariant of its own, and an append is the
only action that takes room (`roomy_act`). -/
namespace LiveTail

namespace Backlog

/-- Dropped records never outnumber those held. -/
def Compacted (b : Backlog) : Prop := b.dead ≤ b.size

theorem compacted_append (b : Backlog) (r : LogRecord) : Compacted (b.append r).2 := by
  simp only [Compacted, append, compact]
  split
  · exact Nat.zero_le _
  next hfew => exact Nat.not_lt.mp hfew

theorem Compacted.slots_le {b : Backlog} (h : Compacted b) (hvalid : Valid b) :
    b.slots.size ≤ 2 * b.size := by
  have hdead := hvalid.dead_le
  simp only [Compacted, size] at h ⊢
  omega

end Backlog

namespace Tail
open Rows
variable {ε : Type}

/-- What an action comes to, for the room that is taken. -/
inductive Change (t : Tail ε) (a : Action ε) : Prop
  | append (r : LogRecord) (hact : t.act a = (t.append r).2)
  | clear (hact : t.act a = t.clear)
  /-- The same records, with the same rows. -/
  | view (hbacklog : (t.act a).backlog = t.backlog) (move : Viewport.Action)
      (hmove : ∀ sequence, move ≠ .push sequence)
      (hviewport : (t.act a).viewport = t.viewport.act move)
  | nothing (hbacklog : (t.act a).backlog = t.backlog)
      (hviewport : (t.act a).viewport = t.viewport)

theorem change_ingest (t : Tail ε) {a : Action ε} {d : Decoded} (hact : t.act a = (t.ingest d).2) :
    Change t a := by
  cases d with
  | ok r => exact .append r hact
  | error e => exact .nothing (by rw [hact]; rfl) (by rw [hact]; rfl)

theorem parts_measure (t : Tail ε) (sequence height : Nat) :
    (t.act (.measure sequence height)).backlog = t.backlog ∧
      (t.act (.measure sequence height)).viewport =
        t.viewport.act (.measure sequence height) := by
  simp only [act, measure, Viewport.act]
  cases t.viewport.measure sequence height with
  | ok answer => exact ⟨rfl, rfl⟩
  | error e => exact ⟨rfl, rfl⟩

theorem change (t : Tail ε) (a : Action ε) : Change t a := by
  cases a with
  | observe observer => exact .nothing rfl rfl
  | append r => exact .append r rfl
  | ingestText text => exact change_ingest t rfl
  | ingestMessage m => exact change_ingest t rfl
  | ingest d => exact change_ingest t rfl
  | window height => exact .view rfl (.window height) nofun rfl
  | measure sequence height =>
    obtain ⟨hbacklog, hviewport⟩ := parts_measure t sequence height
    exact .view hbacklog (.measure sequence height) nofun hviewport
  | resetMeasured => exact .view rfl .resetMeasured nofun rfl
  | scrollTo p => exact .view rfl (.scrollTo p) nofun rfl
  | scrollBy delta => exact .view rfl (.scrollBy delta) nofun rfl
  | follow => exact .view rfl .follow nofun rfl
  | clear => exact .clear rfl

/-- A tail in which what is kept beside the records is bounded by their number. -/
structure Roomy (limit : Capacity) (t : Tail ε) : Prop where
  valid : Valid t
  limited : t.backlog.limit = some limit
  compacted : t.backlog.Compacted
  tracked : t.viewport.Tracked
  nodes : t.viewport.heights.tree.size ≤ max 64 (4 * limit.records)

theorem Roomy.size_le {limit : Capacity} {t : Tail ε} (h : Roomy limit t) :
    t.backlog.size ≤ limit.records := h.valid.backlog.within limit h.limited

/-- The tree grows before a record is dropped, when there is one row more than records. -/
theorem nodes_append {t : Tail ε} (h : Valid t) (r : LogRecord) :
    (t.append r).2.viewport.heights.tree.size ≤
      max t.viewport.heights.tree.size (max 2 (4 * t.backlog.size)) := by
  have hpush := Viewport.nodes_push_le h.viewport t.backlog.next
  rw [h.size] at hpush
  rw [viewport_append]
  split
  · rwa [Viewport.nodes_evict (Viewport.valid_push h.viewport _)]
  · exact hpush

theorem roomy_append {limit : Capacity} {t : Tail ε} (h : Roomy limit t) (r : LogRecord) :
    Roomy limit (t.append r).2 := by
  have hpushed := Viewport.valid_push h.valid.viewport t.backlog.next
  have htracked := Viewport.tracked_push h.valid.viewport h.tracked t.backlog.next
  refine ⟨valid_append h.valid r, (Backlog.limit_append t.backlog r).trans h.limited,
    Backlog.compacted_append t.backlog r, ?_, ?_⟩
  · rw [viewport_append]
    split
    · exact Viewport.tracked_evict hpushed htracked _
    · exact htracked
  · have hgrown := nodes_append h.valid r
    have hsize := h.size_le
    have hnodes := h.nodes
    omega

theorem roomy_act {limit : Capacity} {t : Tail ε} (h : Roomy limit t) (a : Action ε) :
    Roomy limit (t.act a) := by
  have hvalid := valid_act h.valid a
  cases t.change a with
  | append r hact =>
    rw [hact]
    exact roomy_append h r
  | clear hact =>
    rw [hact] at hvalid ⊢
    refine ⟨hvalid, h.limited, Nat.zero_le _, nofun, ?_⟩
    exact Nat.le_trans (Nat.le_of_eq (HeightIndex.nodes_clear t.viewport.heights)) h.nodes
  | view hbacklog move hmove hviewport =>
    refine ⟨hvalid, ?_, ?_, ?_, ?_⟩
    · rw [hbacklog, h.limited]
    · rw [hbacklog]
      exact h.compacted
    · rw [hviewport]
      exact Viewport.tracked_act h.valid.viewport h.tracked move
    · rw [hviewport, Viewport.nodes_act h.valid.viewport hmove]
      exact h.nodes
  | nothing hbacklog hviewport =>
    refine ⟨hvalid, ?_, ?_, ?_, ?_⟩
    · rw [hbacklog, h.limited]
    · rw [hbacklog]
      exact h.compacted
    · rw [hviewport]
      exact h.tracked
    · rw [hviewport]
      exact h.nodes

theorem roomy_run {limit : Capacity} {t : Tail ε} (h : Roomy limit t)
    (actions : List (Action ε)) : Roomy limit (t.run actions) := by
  induction actions generalizing t with
  | nil => exact h
  | cons a rest ih => exact ih (roomy_act h a)

/-! ### What is kept -/

/-- All that a tail keeps, within bounds that only its limit decides. -/
structure Contained (limit : Nat) (t : Tail ε) : Prop where
  records : t.backlog.size ≤ limit
  /-- Records, with those dropped and not yet given up. -/
  kept : t.backlog.slots.size ≤ 2 * limit
  measured : t.viewport.measured.size ≤ limit
  /-- Heights are remembered for records that are held. -/
  held : ∀ sequence ∈ t.viewport.measured, (t.backlog.get? sequence).isSome
  slots : t.viewport.heights.slots.size ≤ 2 * limit
  /-- No more slots are dead than live. -/
  dead : t.viewport.heights.base ≤ t.viewport.heights.size
  nodes : t.viewport.heights.tree.size ≤ max 64 (4 * limit)
  /-- Every slot has its node. -/
  covered : t.viewport.heights.slots.size ≤ t.viewport.heights.tree.size

theorem Roomy.contained {limit : Capacity} {t : Tail ε} (h : Roomy limit t) :
    Contained limit.records t := by
  have hrecords := h.size_le
  have hrows := h.valid.size
  have hkept := h.compacted.slots_le h.valid.backlog
  have hmeasured := h.tracked.size_le
  have hslots := Viewport.slots_le h.valid.viewport
  refine ⟨hrecords, by omega, by omega, fun sequence hmem => ?_, by omega,
    h.valid.viewport.compacted, h.nodes, h.valid.viewport.heights.fits⟩
  rw [Backlog.isSome_get?, ← h.valid.inStep.place]
  exact h.tracked sequence hmem

/-- **A tail with a limit stays within bounds**, whatever is done with it and for however
long. -/
theorem contained_run (s : TailSettings) {limit : Nat} (hcapacity : s.capacity = some limit)
    (hpos : 0 < limit) :
    ∃ t : Tail ε, of? s = .ok t ∧ ∀ actions, Contained limit (t.run actions) := by
  have hlimit : Capacity.of? limit = .ok ⟨limit, hpos⟩ := dif_pos hpos
  obtain ⟨t, ht, hvalid⟩ := of?_eq (ε := ε) (s := s) (by simp [hcapacity]; omega)
  refine ⟨t, ht, fun actions => ?_⟩
  obtain rfl : t = ⟨.new (some ⟨limit, hpos⟩), .new s.rows, none, #[], {}⟩ := by
    unfold of? at ht
    simp only [hcapacity, hlimit] at ht
    exact (Except.ok.inj ht).symm
  have hroomy : Roomy (ε := ε) ⟨limit, hpos⟩
      ⟨.new (some ⟨limit, hpos⟩), .new s.rows, none, #[], {}⟩ := by
    refine ⟨hvalid, rfl, Nat.le_refl _, Viewport.tracked_new s.rows, ?_⟩
    exact Nat.le_trans (Nat.le_of_eq Array.size_replicate) (Nat.le_max_left _ _)
  exact (roomy_run hroomy actions).contained

/-- One record is measured and then dropped for another one, which is measured too. -/
theorem contained_run_remeasured :
    (TailSettings.mk {} (some 1)).capacity = some 1 ∧ 0 < 1 ∧
      ∃ t : Tail DecodeError, of? ⟨{}, some 1⟩ = .ok t ∧
        Contained 1 (t.run [.append default, .measure 0 3, .append default, .measure 1 2]) := by
  refine ⟨rfl, by decide, ?_⟩
  obtain ⟨t, ht, hrun⟩ := contained_run (ε := DecodeError) ⟨{}, some 1⟩ rfl (by decide)
  exact ⟨t, ht, hrun _⟩

end Tail
end LiveTail
