import LiveTail.Proofs.Rows.Viewport
import Mathlib.Data.List.Perm.Subperm
import Std.Data.TreeMap.Lemmas

/-! How much room rows take.

A tree grows only when the slots have outgrown it, to twice its size, and dead slots never
outnumber live ones; so the tree is at most four times as large as there were ever rows at
once (`nodes_push_le`, `nodes_act`). Heights are remembered only for rows that are there,
since rows that go take theirs along (`tracked_act`). -/
namespace LiveTail.Rows

namespace HeightIndex

theorem nodes_push_le {t : HeightIndex} (h : Valid t) (x : Nat) :
    (t.push x).tree.size ≤ max t.tree.size (max 2 (2 * t.slots.size)) := by
  have hfits := h.fits
  simp only [push]
  split
  next =>
    rw [PrefixTree.size_add]
    exact Nat.le_max_left _ _
  next hfull =>
    simp only [PrefixTree.size_ofSlots, Array.size_push]
    omega

@[simp] theorem nodes_set (t : HeightIndex) (row x : Nat) :
    (t.set row x).tree.size = t.tree.size := by
  simp [set]

theorem nodes_buryMany (t : HeightIndex) (removed n : Nat) :
    (t.buryMany removed n).2.tree.size = t.tree.size := by
  induction n generalizing t removed with
  | zero => rfl
  | succ n ih => rw [buryMany, ih, bury_eq, nodes_set]

/-- The live slots fit into the tree that is there. -/
theorem nodes_dropFront {t : HeightIndex} (h : Valid t) (count : Nat) :
    (t.dropFront count).2.tree.size = t.tree.size := by
  have hfits := (valid_buryMany h 0 (Nat.min_le_right count t.size)).2.1.fits
  have hnodes := nodes_buryMany t 0 (min count t.size)
  simp only [dropFront, compact]
  split
  · simp only [PrefixTree.size_ofSlots, Array.size_extract]
    omega
  · exact hnodes

theorem nodes_clear (t : HeightIndex) : t.clear.tree.size = t.tree.size :=
  Array.size_replicate

end HeightIndex

namespace Viewport

theorem slots_le {v : Viewport} (h : Valid v) : v.heights.slots.size ≤ 2 * v.size := by
  have hslots := h.heights.slots_size
  have hdead := h.compacted
  rw [size]
  omega

/-! ### The tree -/

theorem nodes_push_le {v : Viewport} (h : Valid v) (sequence : Nat) :
    (v.push sequence).heights.tree.size ≤ max v.heights.tree.size (max 2 (4 * v.size)) := by
  have hpush := HeightIndex.nodes_push_le h.heights v.settings.estimate.lines
  have hslots := slots_le h
  show (v.heights.push _).tree.size ≤ _
  omega

theorem nodes_evict {v : Viewport} (h : Valid v) (count : Nat) :
    (v.evict count).heights.tree.size = v.heights.tree.size := by
  unfold evict
  split
  · rfl
  · dsimp only
    split
    · rfl
    · exact HeightIndex.nodes_dropFront h.heights _

theorem nodes_resetMeasured (v : Viewport) :
    v.resetMeasured.heights.tree.size = v.heights.tree.size :=
  estimateRows_induction (v := v) (P := fun heights => heights.tree.size = v.heights.tree.size) rfl
    (fun heights row hsize _ => by rw [HeightIndex.nodes_set, hsize]) v.measured.keys

/-- Only a push makes the tree grow. -/
theorem nodes_act {v : Viewport} (h : Valid v) {a : Action} (ha : ∀ sequence, a ≠ .push sequence) :
    (v.act a).heights.tree.size = v.heights.tree.size := by
  cases a with
  | push sequence => exact absurd rfl (ha sequence)
  | measure sequence height =>
    simp only [act]
    split
    next known w hw =>
      obtain ⟨-, -, rfl⟩ | ⟨row, lines, -, -, -, rfl⟩ := measure_cases hw
      · rfl
      · exact HeightIndex.nodes_set ..
    next => rfl
  | resetMeasured => exact nodes_resetMeasured v
  | window height => rw [act, window, heights_resize]
  | evict count => exact nodes_evict h count
  | clear => exact HeightIndex.nodes_clear v.heights
  | _ => rfl

/-! ### The measured heights -/

/-- Every height that is remembered belongs to a row. -/
def Tracked (v : Viewport) : Prop := ∀ sequence ∈ v.measured, (v.rowOf? sequence).isSome

theorem isSome_rowOf?_iff {v : Viewport} {first : Nat} (hfirst : v.first? = some first)
    (sequence : Nat) :
    (v.rowOf? sequence).isSome ↔ first ≤ sequence ∧ sequence < first + v.size := by
  simp only [rowOf?, hfirst, Option.isSome_ite]
  omega

/-- There are no more remembered heights than rows. -/
theorem Tracked.size_le {v : Viewport} (h : Tracked v) : v.measured.size ≤ v.size := by
  cases hfirst : v.first? with
  | none =>
    have hempty : v.measured.keys = [] := by
      rw [List.eq_nil_iff_forall_not_mem]
      intro sequence hmem
      have := h sequence (Std.TreeMap.mem_keys.mp hmem)
      simp [rowOf?, hfirst] at this
    rw [← Std.TreeMap.length_keys, hempty]
    exact Nat.zero_le _
  | some first =>
    have hsubset : v.measured.keys ⊆ List.range' first v.size := by
      intro sequence hmem
      have hrow := h sequence (Std.TreeMap.mem_keys.mp hmem)
      rw [isSome_rowOf?_iff hfirst] at hrow
      simpa using hrow
    have hlength := (Std.TreeMap.nodup_keys.subperm hsubset).length_le
    rwa [Std.TreeMap.length_keys, List.length_range'] at hlength

/-- Rows may be added behind those that have remembered heights. -/
theorem Tracked.of_rows {v w : Viewport} (h : Tracked v) (hmeasured : w.measured = v.measured)
    (hsize : v.size ≤ w.size) (hfirst : ∀ first, v.first? = some first → w.first? = some first) :
    Tracked w := by
  intro sequence hmem
  rw [hmeasured] at hmem
  have hrow := h sequence hmem
  cases hv : v.first? with
  | none => simp [rowOf?, hv] at hrow
  | some first =>
    rw [isSome_rowOf?_iff hv] at hrow
    rw [isSome_rowOf?_iff (hfirst first hv)]
    omega

theorem tracked_new (settings : Settings) : Tracked (new settings) := nofun

theorem tracked_resetMeasured (v : Viewport) : Tracked v.resetMeasured := nofun

theorem tracked_clear (v : Viewport) : Tracked v.clear := nofun

theorem tracked_push {v : Viewport} (hvalid : Valid v) (h : Tracked v) (sequence : Nat) :
    Tracked (v.push sequence) := by
  refine h.of_rows rfl (by rw [size_push hvalid]; omega) fun first hfirst => ?_
  rw [push, hfirst, Option.getD_some]

theorem tracked_measure {v w : Viewport} (hvalid : Valid v) (h : Tracked v) {sequence height : Nat}
    {known : Bool} (hw : v.measure sequence height = .ok (known, w)) : Tracked w := by
  obtain ⟨hsize, hfirst⟩ := rows_measure hvalid hw
  obtain ⟨-, -, rfl⟩ | ⟨row, lines, hrow, -, -, rfl⟩ := measure_cases hw
  · exact h
  · have hsame : ∀ other, (v.remeasure row sequence lines).rowOf? other = v.rowOf? other := by
      intro other
      rw [rowOf?, rowOf?, hsize, hfirst]
    intro other hmem
    rw [hsame]
    simp only [remeasure, Std.TreeMap.mem_insert, Nat.compare_eq_eq] at hmem
    rcases hmem with rfl | hmem
    · simp [hrow]
    · exact h other hmem

/-- Rows that go take their heights along. -/
theorem tracked_evict {v : Viewport} (hvalid : Valid v) (h : Tracked v) (count : Nat) :
    Tracked (v.evict count) := by
  cases hfirst : v.first? with
  | none => simpa [evict, hfirst] using h
  | some first =>
    by_cases hsome : min count v.size = 0
    · simpa [evict, hfirst, hsome] using h
    · intro sequence hmem
      simp only [evict, hfirst, if_neg hsome, Std.TreeMap.mem_filter, Std.TreeMap.getKey_eq,
        decide_eq_true_eq] at hmem
      obtain ⟨hmem, hlate⟩ := hmem
      have hrow := h sequence hmem
      rw [isSome_rowOf?_iff hfirst] at hrow
      -- A height that stays has its row among those that stay.
      have hstays : min count v.size < v.size := by omega
      obtain ⟨hsize, hmoved⟩ := evict_some hvalid hfirst hstays
      have hcount : v.evict count = v.evict (min count v.size) := by
        simp only [evict, hfirst, Nat.min_assoc, Nat.min_self]
      rw [hcount, isSome_rowOf?_iff hmoved, hsize]
      omega

theorem tracked_act {v : Viewport} (hvalid : Valid v) (h : Tracked v) (a : Action) :
    Tracked (v.act a) := by
  cases a with
  | push sequence => exact tracked_push hvalid h sequence
  | measure sequence height =>
    simp only [act]
    split
    next known w hw => exact tracked_measure hvalid h hw
    next => exact h
  | resetMeasured => exact tracked_resetMeasured v
  | window height =>
    have hsize : (v.resize height).size = v.size := congrArg HeightIndex.size (heights_resize ..)
    refine h.of_rows (measured_resize v height) (Nat.le_of_eq hsize.symm) fun first hfirst => ?_
    rw [act, window, first?_resize, hfirst]
  | evict count => exact tracked_evict hvalid h count
  | clear => exact tracked_clear v
  | scrollTo p => exact h
  | scrollBy delta => exact h
  | follow => exact h

end Viewport
end LiveTail.Rows
