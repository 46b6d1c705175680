import LiveTail.Link.Registry
import Mathlib.Data.List.Nodup

/-! Handlers keep their numbers.

The numbers of the handlers registered are distinct and below the next one, whatever
is registered and removed. So a handler is due for a message at most once, and exactly
when it is registered for the kind of the message (`mem_due_iff`). They also ascend, so
handlers are due in the order in which they were registered (`ascending_due`). -/
namespace LiveTail.Link.Registry

structure Valid (r : Registry) : Prop where
  distinct : (r.entries.map (·.id)).Nodup
  below : ∀ e ∈ r.entries, e.id < r.next

theorem valid_new : Valid {} := ⟨.nil, fun _ h => nomatch h⟩

theorem valid_subscribe {r : Registry} (h : Valid r) (kind : Kind) :
    Valid (r.subscribe kind).2 := by
  constructor
  · simp only [subscribe, List.map_append, List.map_singleton]
    refine List.nodup_append.mpr ⟨h.distinct, List.nodup_singleton _, ?_⟩
    intro id hid other hother
    obtain ⟨e, he, rfl⟩ := List.mem_map.mp hid
    obtain rfl := List.mem_singleton.mp hother
    exact Nat.ne_of_lt (h.below e he)
  · intro e he
    simp only [subscribe, List.mem_append, List.mem_singleton] at he ⊢
    rcases he with he | rfl
    · exact Nat.lt_succ_of_lt (h.below e he)
    · exact Nat.lt_succ_self _

theorem valid_remove {r : Registry} (h : Valid r) (id : Nat) : Valid (r.remove id).2 :=
  ⟨h.distinct.sublist (List.filter_sublist.map _),
    fun e he => h.below e ((List.mem_filter.mp he).1)⟩

theorem mem_subscribe {r : Registry} {e : Entry} (h : e ∈ r.entries) (kind : Kind) :
    e ∈ (r.subscribe kind).2.entries := List.mem_append_left _ h

/-- The new entry of a subscription. -/
theorem mem_subscribe_self (r : Registry) (kind : Kind) :
    ⟨(r.subscribe kind).1, kind⟩ ∈ (r.subscribe kind).2.entries :=
  List.mem_append_right _ (List.mem_singleton_self _)

theorem mem_remove {r : Registry} {e : Entry} (h : e ∈ r.entries) {id : Nat} (hne : e.id ≠ id) :
    e ∈ (r.remove id).2.entries := List.mem_filter.mpr ⟨h, by simpa using hne⟩

/-- A number belongs to one entry. -/
theorem Valid.eq_of_id {r : Registry} (h : Valid r) {e f : Entry} (he : e ∈ r.entries)
    (hf : f ∈ r.entries) (hid : e.id = f.id) : e = f :=
  List.inj_on_of_nodup_map h.distinct he hf hid

theorem nodup_due {r : Registry} (h : Valid r) (kind : String) : (r.due kind).Nodup :=
  h.distinct.sublist (List.filter_sublist.map _)

theorem mem_due_iff {r : Registry} (h : Valid r) {e : Entry} (he : e ∈ r.entries)
    (kind : String) : e.id ∈ r.due kind ↔ e.kind.text = kind := by
  simp only [due, List.mem_map, List.mem_filter, beq_iff_eq]
  constructor
  · rintro ⟨f, ⟨hf, hkind⟩, hid⟩
    rwa [← h.eq_of_id hf he hid]
  · exact fun hkind => ⟨e, ⟨he, hkind⟩, rfl⟩

theorem mem_due {r : Registry} {kind : String} {id : Nat} :
    id ∈ r.due kind ↔ ∃ e ∈ r.entries, e.id = id ∧ e.kind.text = kind := by
  simp only [due, List.mem_map, List.mem_filter, beq_iff_eq]
  constructor
  · rintro ⟨e, ⟨he, hkind⟩, hid⟩
    exact ⟨e, he, hid, hkind⟩
  · rintro ⟨e, he, hid, hkind⟩
    exact ⟨e, ⟨he, hkind⟩, hid⟩

/-! ### The order of registration -/

/-- Handlers stand in the order of their numbers. -/
def Ascending (r : Registry) : Prop := (r.entries.map (·.id)).Pairwise (· < ·)

theorem ascending_subscribe {r : Registry} (hvalid : Valid r) (h : Ascending r) (kind : Kind) :
    Ascending (r.subscribe kind).2 := by
  simp only [Ascending, subscribe, List.map_append, List.map_singleton]
  refine List.pairwise_append.mpr ⟨h, List.pairwise_singleton .., ?_⟩
  intro id hid other hother
  obtain ⟨e, he, rfl⟩ := List.mem_map.mp hid
  obtain rfl := List.mem_singleton.mp hother
  exact hvalid.below e he

theorem ascending_remove {r : Registry} (h : Ascending r) (id : Nat) :
    Ascending (r.remove id).2 := h.sublist (List.filter_sublist.map _)

theorem ascending_due {r : Registry} (h : Ascending r) (kind : String) :
    (r.due kind).Pairwise (· < ·) := h.sublist (List.filter_sublist.map _)

end LiveTail.Link.Registry
