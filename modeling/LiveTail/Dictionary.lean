/-! Dictionaries: texts to values, in the order of the texts.

The entries are strictly ordered by their keys, so two dictionaries are equal
exactly when they hold the same values under the same keys. Putting a key again
replaces its value. -/
namespace LiveTail

namespace Entries
variable {α : Type}

/-- Strictly ordered by key. -/
def Ordered (entries : List (String × α)) : Prop := entries.Pairwise (·.1 < ·.1)

/-- Puts a value under a key, in its place or over the one that is there. -/
def put (key : String) (value : α) : List (String × α) → List (String × α)
  | [] => [(key, value)]
  | (k, v) :: rest =>
    if key < k then (key, value) :: (k, v) :: rest
    else if key = k then (key, value) :: rest
    else (k, v) :: put key value rest

/-- Puts entries one after the other. -/
def ofList (entries : List (String × α)) : List (String × α) :=
  entries.foldl (fun sorted e => put e.1 e.2 sorted) []

theorem mem_put {key : String} {value : α} {entries : List (String × α)} {e : String × α}
    (h : e ∈ put key value entries) : e = (key, value) ∨ e ∈ entries := by
  induction entries with
  | nil => simpa [put] using h
  | cons head rest ih =>
    obtain ⟨k, v⟩ := head
    simp only [put] at h
    grind

theorem ordered_put (key : String) (value : α) {entries : List (String × α)}
    (h : Ordered entries) : Ordered (put key value entries) := by
  induction entries with
  | nil => simp [put, Ordered]
  | cons head rest ih =>
    obtain ⟨k, v⟩ := head
    obtain ⟨hk, hr⟩ := List.pairwise_cons.mp h
    simp only [put]
    split
    next hlt =>
      refine List.pairwise_cons.mpr ⟨fun e he => ?_, h⟩
      rcases List.mem_cons.mp he with rfl | he
      · exact hlt
      · exact String.lt_trans hlt (hk e he)
    next hlt =>
      split
      next heq =>
        subst heq
        exact List.pairwise_cons.mpr ⟨hk, hr⟩
      next hne =>
        refine List.pairwise_cons.mpr ⟨fun e he => ?_, ih hr⟩
        rcases mem_put he with rfl | he
        · have hle := String.not_lt.mp hlt
          apply String.not_le.mp
          intro hge
          exact hne (String.le_antisymm hge hle)
        · exact hk e he

end Entries

structure Dictionary (α : Type) where
  entries : List (String × α)
  ordered : Entries.Ordered entries

namespace Dictionary
variable {α : Type}

def empty : Dictionary α := ⟨[], .nil⟩

instance : Inhabited (Dictionary α) := ⟨empty⟩

def put (d : Dictionary α) (key : String) (value : α) : Dictionary α :=
  ⟨Entries.put key value d.entries, Entries.ordered_put key value d.ordered⟩

/-- The last of several values under one key stays. -/
def ofList (entries : List (String × α)) : Dictionary α :=
  entries.foldl (fun d e => d.put e.1 e.2) empty

def get? (d : Dictionary α) (key : String) : Option α := d.entries.lookup key

/-- The entries whose keys are wanted. -/
def filter (d : Dictionary α) (wanted : String → Bool) : Dictionary α :=
  ⟨d.entries.filter (wanted ·.1), d.ordered.sublist List.filter_sublist⟩

def size (d : Dictionary α) : Nat := d.entries.length

end Dictionary
end LiveTail
