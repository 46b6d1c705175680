import LiveTail.Backlog

/-! What holds of a backlog after any appends.

`Valid` says that dead slots are within the slots, that the records held are
numbered one after the other up to `next`, and that a limit is kept. An append
puts the record behind the others and drops as many in front as the limit asks;
the record just appended always stays. -/
namespace LiveTail.Backlog

structure Valid (b : Backlog) : Prop where
  dead_le : b.dead ≤ b.slots.size
  size_le : b.size ≤ b.next
  numbered : b.toList.map (·.sequence) = List.range' (b.next - b.size) b.size
  within : ∀ limit, b.limit = some limit → b.size ≤ limit.records

theorem size_eq (b : Backlog) : b.size = b.toList.length := by simp [size, toList]

theorem at?_eq (b : Backlog) (place : Nat) : b.at? place = b.toList[place]? := by
  simp [at?, toList]

theorem first?_eq_none_iff (b : Backlog) : b.first? = none ↔ b.size = 0 := by
  rw [first?, Option.map_eq_none_iff, at?_eq, List.getElem?_eq_none_iff, size_eq]
  omega

theorem first?_eq {b : Backlog} (h : Valid b) (hsize : 0 < b.size) :
    b.first? = some (b.next - b.size) := by
  have hmap := List.getElem?_map (f := (·.sequence)) (l := b.toList) (i := 0)
  rw [first?, at?_eq, ← hmap, h.numbered, List.getElem?_range' hsize]
  rfl

theorem valid_new (limit : Option Capacity) : Valid (new limit) := by
  constructor
  · exact Nat.le_refl _
  · exact Nat.le_refl _
  · rfl
  · exact fun l _ => Nat.zero_le _

/-! ### Appending -/

theorem toList_compact {b : Backlog} (h : b.dead ≤ b.slots.size) :
    b.compact.toList = b.toList ∧ b.compact.dead ≤ b.compact.slots.size := by
  unfold compact
  split
  · simp [toList, List.take_of_length_le]
  · exact ⟨rfl, h⟩

/-- The backlog before it is cut to its limit. -/
def grow (b : Backlog) (r : LogRecord) : Backlog :=
  { b with slots := b.slots.push ⟨b.next, r⟩, next := b.next + 1 }

theorem toList_grow {b : Backlog} (h : Valid b) (r : LogRecord) :
    (b.grow r).toList = b.toList ++ [⟨b.next, r⟩] := by
  have hdead : b.dead ≤ b.slots.toList.length := h.dead_le
  simp only [grow, toList, Array.toList_push]
  exact List.drop_append_of_le_length hdead

theorem size_grow {b : Backlog} (h : Valid b) (r : LogRecord) : (b.grow r).size = b.size + 1 := by
  rw [size_eq, toList_grow h, List.length_append, ← size_eq]
  rfl

/-- At least the record just appended stays. -/
theorem excess_grow_le {b : Backlog} (h : Valid b) (r : LogRecord) :
    (b.grow r).excess ≤ b.size := by
  rw [excess, size_grow h r]
  split
  next limit _ =>
    have := limit.positive
    omega
  next => exact Nat.zero_le _

theorem sequence_append (b : Backlog) (r : LogRecord) : (b.append r).1.sequence = b.next := rfl

theorem dropped_append (b : Backlog) (r : LogRecord) :
    (b.append r).1.dropped = (b.grow r).excess := rfl

theorem next_append (b : Backlog) (r : LogRecord) : (b.append r).2.next = b.next + 1 := by
  simp only [append, compact]
  split <;> rfl

theorem limit_append (b : Backlog) (r : LogRecord) : (b.append r).2.limit = b.limit := by
  simp only [append, compact]
  split <;> rfl

theorem toList_append {b : Backlog} (h : Valid b) (r : LogRecord) :
    (b.append r).2.toList = (b.toList ++ [Numbered.mk b.next r]).drop (b.append r).1.dropped ∧
      (b.append r).2.dead ≤ (b.append r).2.slots.size := by
  have hsize := size_grow h r
  have hexcess := excess_grow_le h r
  have hcut : (b.grow r).dead + (b.grow r).excess ≤ (b.grow r).slots.size := by
    simp only [size] at hsize hexcess
    omega
  obtain ⟨hlist, hdead⟩ :=
    toList_compact (b := { b.grow r with dead := (b.grow r).dead + (b.grow r).excess }) hcut
  refine ⟨?_, hdead⟩
  rw [dropped_append, ← toList_grow h]
  refine hlist.trans ?_
  simp only [toList, List.drop_drop]

theorem size_append {b : Backlog} (h : Valid b) (r : LogRecord) :
    (b.append r).2.size = b.size + 1 - (b.append r).1.dropped := by
  rw [size_eq, (toList_append h r).1, List.length_drop, List.length_append, ← size_eq]
  rfl

theorem valid_append {b : Backlog} (h : Valid b) (r : LogRecord) : Valid (b.append r).2 := by
  have hle := h.size_le
  have hsize := size_append h r
  have hexcess := excess_grow_le h r
  rw [← dropped_append] at hexcess
  obtain ⟨hlist, hdead⟩ := toList_append h r
  refine ⟨hdead, ?_, ?_, fun limit hlimit => ?_⟩
  · rw [next_append]
    omega
  · have hgrown : List.range' (b.next - b.size) b.size ++ [b.next] =
        List.range' (b.next - b.size) (b.size + 1) := by
      rw [List.range'_1_concat]
      congr 2
      omega
    rw [hlist, List.map_drop, List.map_append, h.numbered, List.map_singleton, hgrown,
      List.drop_range', hsize, next_append]
    congr 1
    omega
  · rw [limit_append] at hlimit
    have hcut : (b.append r).1.dropped = b.size + 1 - limit.records := by
      rw [dropped_append, excess, ← size_grow h r]
      have : (b.grow r).limit = some limit := hlimit
      rw [this]
    rw [hsize, hcut]
    omega

theorem valid_clear (b : Backlog) : Valid b.clear := by
  constructor
  · exact Nat.le_refl _
  · exact Nat.zero_le _
  · rfl
  · exact fun l _ => Nat.zero_le _

/-! ### Looking up -/

theorem placeOf?_lt {b : Backlog} {sequence place : Nat} (h : b.placeOf? sequence = some place) :
    place < b.size := by
  unfold placeOf? at h
  split at h
  · cases h
  · simp only [Option.ite_none_right_eq_some, Option.some.injEq] at h
    omega

/-- A number with a place has a record. -/
theorem isSome_get? (b : Backlog) (sequence : Nat) :
    (b.get? sequence).isSome = (b.placeOf? sequence).isSome := by
  rw [get?]
  cases hplace : b.placeOf? sequence with
  | none => rfl
  | some place =>
    have hlt := placeOf?_lt hplace
    rw [size_eq] at hlt
    simp [at?_eq, hlt]

theorem placeOf?_of_place {b : Backlog} (h : Valid b) (place : Nat) (hplace : place < b.size) :
    b.placeOf? (b.next - b.size + place) = some place := by
  rw [placeOf?, first?_eq h (by omega)]
  simp [hplace]

theorem placeOf?_eq_some_iff {b : Backlog} (h : Valid b) (sequence place : Nat) :
    b.placeOf? sequence = some place ↔ place < b.size ∧ sequence = b.next - b.size + place := by
  constructor
  · intro hplace
    have hlt := placeOf?_lt hplace
    rw [placeOf?, first?_eq h (by omega)] at hplace
    simp only [Option.ite_none_right_eq_some, Option.some.injEq] at hplace
    omega
  · rintro ⟨hlt, rfl⟩
    exact placeOf?_of_place h place hlt

/-- What a place has is held. -/
theorem mem_records {b : Backlog} {place : Nat} {e : Numbered} (h : b.at? place = some e) :
    place < b.size ∧ e.record ∈ b.records := by
  rw [at?_eq] at h
  rw [size_eq]
  exact ⟨(List.getElem?_eq_some_iff.mp h).1, List.mem_map_of_mem (List.mem_of_getElem? h)⟩

theorem sequence_at? {b : Backlog} (h : Valid b) {place : Nat} {e : Numbered}
    (hat : b.at? place = some e) : place < b.size ∧ e.sequence = b.next - b.size + place := by
  have hlt := (mem_records hat).1
  have hnumber := congrArg (·[place]?) h.numbered
  rw [at?_eq] at hat
  simp only [List.getElem?_map, hat, List.getElem?_range' hlt, Option.map_some,
    Option.some.injEq] at hnumber
  omega

/-- The record just appended is the last one held. -/
theorem get?_append {b : Backlog} (h : Valid b) (r : LogRecord) :
    (b.append r).2.get? b.next = some r := by
  have hvalid := valid_append h r
  have hsize := size_append h r
  have hexcess := excess_grow_le h r
  have hle := h.size_le
  rw [← dropped_append] at hexcess
  have hplace := placeOf?_of_place hvalid (b.size - (b.append r).1.dropped) (by omega)
  have hsequence : (b.append r).2.next - (b.append r).2.size +
      (b.size - (b.append r).1.dropped) = b.next := by
    rw [next_append]
    omega
  have hlast : (b.append r).2.at? (b.size - (b.append r).1.dropped) = some ⟨b.next, r⟩ := by
    rw [size_eq] at hexcess
    rw [at?_eq, (toList_append h r).1, List.getElem?_drop, size_eq, Nat.add_sub_cancel' hexcess]
    simp
  rw [hsequence] at hplace
  simp [get?, hplace, hlast]

end LiveTail.Backlog
