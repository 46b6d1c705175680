import LiveTail.Proofs.Dictionary
import LiveTail.Proofs.Link.Registry

/-! The table holds the handlers of the registry.

What a table holds of one kind is what the list of all handlers holds of it, in the same
order, whatever is registered and removed (`holds_subscribe`, `holds_remove`). So the same
handlers are due for a message (`due_eq`), and no kind without handlers stays in the table. -/
namespace LiveTail.Link.Table

/-! ### The handlers of each kind -/

theorem handlers_eq {t : Table} {kind : String} {handlers : List Entry}
    (h : t.byKind.get? kind = some handlers) : t.handlers kind = handlers := by
  rw [Table.handlers, h, Option.getD_some]

theorem handlers_of_none {t : Table} {kind : String} (h : t.byKind.get? kind = none) :
    t.handlers kind = [] := by
  rw [Table.handlers, h, Option.getD_none]

theorem handlers_subscribe (t : Table) (kind : Kind) (other : String) :
    (t.subscribe kind).2.handlers other =
      if kind.text = other then t.handlers other ++ [⟨t.next, kind⟩] else t.handlers other := by
  simp only [subscribe, handlers, Dictionary.get?_put]
  by_cases hkind : other = kind.text
  · simp [hkind]
  · rw [if_neg hkind, if_neg (Ne.symm hkind)]

/-- The handler that is removed, if it is there, is missing from its kind alone. -/
theorem handlers_remove (t : Table) (kind : Kind) (id : Nat) (other : String) :
    (t.remove kind id).2.handlers other =
      if kind.text = other then (t.handlers other).filter (·.id != id) else t.handlers other := by
  rw [remove]
  split
  next hnone =>
    split
    next hkind =>
      obtain rfl := hkind
      rw [handlers_of_none hnone]
      rfl
    next => rfl
  next handlers hsome =>
    dsimp only
    split
    next hempty =>
      simp only [Table.handlers, Dictionary.get?_filter]
      by_cases hkind : kind.text = other
      · obtain rfl := hkind
        simp [hsome, List.isEmpty_iff.mp hempty]
      · simp [hkind, Ne.symm hkind]
    next =>
      simp only [Table.handlers, Dictionary.get?_put]
      by_cases hkind : kind.text = other
      · obtain rfl := hkind
        simp [hsome]
      · simp [hkind, Ne.symm hkind]

/-- A handler is removed if it is one of its kind. -/
theorem removed_eq (t : Table) (kind : Kind) (id : Nat) :
    (t.remove kind id).1 = (t.handlers kind.text).any (·.id == id) := by
  rw [remove]
  split
  next hnone =>
    rw [handlers_of_none hnone]
    rfl
  next handlers hsome =>
    rw [handlers_eq hsome, Bool.eq_iff_iff, decide_eq_true_iff, List.any_eq_true]
    rw [List.length_filter_lt_length_iff_exists]
    simp

/-! ### The same handlers -/

/-- A table with the handlers of a registry. -/
structure Holds (t : Table) (r : Registry) : Prop where
  next : t.next = r.next
  handlers : ∀ kind, t.handlers kind = r.entries.filter (·.kind.text == kind)
  /-- No kind is kept without handlers. -/
  inhabited : ∀ kind, t.byKind.get? kind ≠ some []

theorem holds_new : Holds {} {} := ⟨rfl, fun _ => rfl, fun _ => nofun⟩

theorem holds_subscribe {t : Table} {r : Registry} (h : Holds t r) (kind : Kind) :
    (t.subscribe kind).1 = (r.subscribe kind).1 ∧
      Holds (t.subscribe kind).2 (r.subscribe kind).2 := by
  refine ⟨h.next, congrArg (· + 1) h.next, fun other => ?_, fun other => ?_⟩
  · rw [handlers_subscribe, h.handlers, h.next, Registry.subscribe, List.filter_append]
    by_cases hkind : kind.text = other <;> simp [hkind]
  · rw [subscribe, Dictionary.get?_put]
    split
    next => simp
    next => exact h.inhabited other

section Remove
variable {t : Table} {r : Registry} (h : Holds t r) {kind : Kind} {id : Nat}
  (hkind : ∀ e ∈ r.entries, e.id = id → e.kind = kind)
include h hkind

theorem removed_same : (t.remove kind id).1 = (r.remove id).1 := by
  rw [removed_eq, h.handlers, Registry.remove, Bool.eq_iff_iff]
  simp only [List.any_eq_true, List.mem_filter, beq_iff_eq]
  constructor
  · rintro ⟨e, ⟨he, -⟩, hid⟩
    exact ⟨e, he, hid⟩
  · rintro ⟨e, he, hid⟩
    exact ⟨e, ⟨he, congrArg Kind.text (hkind e he hid)⟩, hid⟩

theorem holds_remove : Holds (t.remove kind id).2 (r.remove id).2 := by
  refine ⟨?_, fun other => ?_, fun other => ?_⟩
  · rw [remove]
    split <;> exact h.next
  · have hkept : (r.remove id).2.entries = r.entries.filter (·.id != id) := rfl
    rw [handlers_remove, h.handlers, hkept]
    split
    next =>
      rw [List.filter_filter, List.filter_filter]
      exact List.filter_congr fun e _ => Bool.and_comm ..
    next hother =>
      -- A handler of another kind has another number.
      rw [List.filter_filter]
      refine List.filter_congr fun e he => ?_
      by_cases hid : e.id = id
      · simp [hkind e he hid, hother]
      · simp [hid]
  · rw [remove]
    split
    next => exact h.inhabited other
    next handlers hsome =>
      dsimp only
      split
      next =>
        rw [Dictionary.get?_filter]
        split
        next => exact h.inhabited other
        next => nofun
      next hempty =>
        rw [Dictionary.get?_put]
        split
        next => simpa using hempty
        next => exact h.inhabited other

end Remove

section Held
variable {t : Table} {r : Registry} (h : Holds t r)
include h

theorem due_eq (kind : String) : t.due kind = r.due kind := by
  rw [due, h.handlers, Registry.due]

theorem count_eq (kind : String) : t.count kind = r.count kind := by
  rw [count, h.handlers, Registry.count, Registry.due, List.length_map]

end Held

end LiveTail.Link.Table
