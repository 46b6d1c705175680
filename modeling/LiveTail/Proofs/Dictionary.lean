import LiveTail.Dictionary

/-! What a dictionary holds under a key.

Dictionaries are told apart by `get?` alone (`ext`). Of several values put under
one key the last is found, and a filter keeps or drops whole keys. -/
namespace LiveTail

namespace Entries
variable {α : Type}

theorem lookup_cons (key k : String) (v : α) (rest : List (String × α)) :
    List.lookup key ((k, v) :: rest) = if key = k then some v else rest.lookup key := by
  by_cases h : key = k
  · subst h
    simp
  · have hne : (key == k) = false := beq_false_of_ne h
    rw [List.lookup_cons, hne, if_neg h]

theorem lookup_put (key other : String) (value : α) (entries : List (String × α)) :
    (put key value entries).lookup other =
      if other = key then some value else entries.lookup other := by
  induction entries with
  | nil => rw [put, lookup_cons]
  | cons head rest ih =>
    obtain ⟨k, v⟩ := head
    rw [put, lookup_cons]
    split
    · rw [lookup_cons, lookup_cons]
    · split
      next heq =>
        subst heq
        rw [lookup_cons]
        split <;> rfl
      next hne =>
        rw [lookup_cons, ih]
        by_cases hother : other = k
        · subst hother
          rw [if_pos rfl, if_pos rfl, if_neg fun h => hne h.symm]
        · rw [if_neg hother, if_neg hother]

/-- A key before the first one has no value. -/
theorem lookup_eq_none_of_lt {key : String} {entries : List (String × α)}
    (h : ∀ e ∈ entries, key < e.1) : entries.lookup key = none := by
  rw [List.lookup_eq_none_iff]
  intro e he
  have hlt := h e he
  rw [bne_iff_ne]
  rintro rfl
  exact String.lt_irrefl _ hlt

theorem lookup_tail_head {key : String} {value : α} {rest : List (String × α)}
    (h : Ordered ((key, value) :: rest)) : rest.lookup key = none :=
  lookup_eq_none_of_lt (List.pairwise_cons.mp h).1

/-- The first key of ordered entries is not after any key that has a value. -/
theorem not_lt_head {k l : String} {v w : α} {rest others : List (String × α)}
    (hl : Ordered ((l, w) :: others))
    (heq : ∀ key, List.lookup key ((k, v) :: rest) = List.lookup key ((l, w) :: others)) :
    ¬k < l := by
  intro hlt
  have hnone : List.lookup k ((l, w) :: others) = none := by
    apply lookup_eq_none_of_lt
    intro e he
    rcases List.mem_cons.mp he with rfl | he
    · exact hlt
    · exact String.lt_trans hlt ((List.pairwise_cons.mp hl).1 e he)
  rw [← heq k] at hnone
  simp at hnone

/-- Ordered entries with the same look-ups are the same. -/
theorem eq_of_lookup {entries others : List (String × α)} (he : Ordered entries)
    (ho : Ordered others) (h : ∀ key, entries.lookup key = others.lookup key) :
    entries = others := by
  induction entries generalizing others with
  | nil =>
    cases others with
    | nil => rfl
    | cons head rest =>
      obtain ⟨k, v⟩ := head
      have hk := h k
      rw [lookup_cons, if_pos rfl] at hk
      cases hk
  | cons head rest ih =>
    obtain ⟨k, v⟩ := head
    cases others with
    | nil => simpa using h k
    | cons other others =>
      obtain ⟨l, w⟩ := other
      have hkl : k = l := String.le_antisymm
        (String.not_lt.mp (not_lt_head he fun key => (h key).symm))
        (String.not_lt.mp (not_lt_head ho h))
      subst hkl
      have hvw : v = w := by simpa using h k
      subst hvw
      have htail : ∀ key, rest.lookup key = others.lookup key := by
        intro key
        by_cases hkey : key = k
        · rw [hkey, lookup_tail_head he, lookup_tail_head ho]
        · have := h key
          rwa [lookup_cons, lookup_cons, if_neg hkey, if_neg hkey] at this
      rw [ih (List.pairwise_cons.mp he).2 (List.pairwise_cons.mp ho).2 htail]

theorem lookup_filter (wanted : String → Bool) (key : String) (entries : List (String × α)) :
    (entries.filter (wanted ·.1)).lookup key =
      if wanted key then entries.lookup key else none := by
  induction entries with
  | nil => simp
  | cons head rest ih =>
    obtain ⟨k, v⟩ := head
    by_cases hkey : key = k
    · subst hkey
      by_cases hw : wanted key <;> simp [hw, ih]
    · by_cases hw : wanted k <;> simp [hw, lookup_cons, hkey, ih]

end Entries

namespace Dictionary
variable {α : Type}

theorem get?_put (d : Dictionary α) (key other : String) (value : α) :
    (d.put key value).get? other = if other = key then some value else d.get? other :=
  Entries.lookup_put key other value d.entries

theorem get?_filter (d : Dictionary α) (wanted : String → Bool) (key : String) :
    (d.filter wanted).get? key = if wanted key then d.get? key else none :=
  Entries.lookup_filter wanted key d.entries

theorem mem_of_get? {d : Dictionary α} {key : String} {value : α}
    (h : d.get? key = some value) : (key, value) ∈ d.entries := by
  rw [get?] at h
  obtain ⟨before, after, hentries, -⟩ := List.lookup_eq_some_iff.mp h
  rw [hentries]
  exact List.mem_append_right _ (List.mem_cons_self ..)

theorem ext {d e : Dictionary α} (h : ∀ key, d.get? key = e.get? key) : d = e := by
  obtain ⟨entries, hd⟩ := d
  obtain ⟨others, he⟩ := e
  have heq : entries = others := Entries.eq_of_lookup hd he h
  subst heq
  rfl

/-- The last value put under a key stays, over what was there before. -/
theorem get?_foldl_put (entries : List (String × α)) (d : Dictionary α) (key : String) :
    (entries.foldl (fun d e => d.put e.1 e.2) d).get? key =
      (entries.reverse.lookup key).or (d.get? key) := by
  induction entries generalizing d with
  | nil => rfl
  | cons head rest ih =>
    obtain ⟨k, v⟩ := head
    rw [List.foldl_cons, ih, get?_put, List.reverse_cons, List.lookup_append, Option.or_assoc]
    rw [Entries.lookup_cons]
    split <;> rfl

theorem get?_ofList (entries : List (String × α)) (key : String) :
    (ofList entries).get? key = entries.reverse.lookup key := by
  rw [ofList, get?_foldl_put]
  exact Option.or_none

/-- Ordered entries put one after the other are the dictionary they come from. -/
theorem lookup_reverse (d : Dictionary α) (key : String) :
    d.entries.reverse.lookup key = d.get? key := by
  obtain ⟨entries, hd⟩ := d
  rw [get?]
  induction entries with
  | nil => rfl
  | cons head rest ih =>
    obtain ⟨k, v⟩ := head
    have htail := ih (List.pairwise_cons.mp hd).2
    rw [List.reverse_cons, List.lookup_append, htail, Entries.lookup_cons, Entries.lookup_cons]
    by_cases hkey : key = k
    · subst hkey
      rw [if_pos rfl, if_pos rfl, Entries.lookup_tail_head hd]
      rfl
    · rw [if_neg hkey, if_neg hkey]
      exact Option.or_none

theorem ofList_entries (d : Dictionary α) : ofList d.entries = d := by
  apply ext
  intro key
  rw [get?_ofList, lookup_reverse]

theorem entries_foldl_put (entries : List (String × α)) (d : Dictionary α) :
    (entries.foldl (fun d e => d.put e.1 e.2) d).entries =
      entries.foldl (fun sorted e => Entries.put e.1 e.2 sorted) d.entries := by
  induction entries generalizing d with
  | nil => rfl
  | cons e rest ih => exact ih (d.put e.1 e.2)

end Dictionary

/-- Ordered entries put one after the other stay as they are. -/
theorem Entries.ofList_of_ordered {α : Type} {entries : List (String × α)}
    (h : Entries.Ordered entries) : Entries.ofList entries = entries := by
  have hentries := congrArg Dictionary.entries (Dictionary.ofList_entries ⟨entries, h⟩)
  rwa [Dictionary.ofList, Dictionary.entries_foldl_put] at hentries

end LiveTail
