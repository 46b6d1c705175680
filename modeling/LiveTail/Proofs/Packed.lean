import LiveTail.Proofs.MessagePack
import LiveTail.Proofs.Number.Numeral

/-! What is read can be written again.

A value that is read fits the format, but for strings that are no text; with binary data in
their place (`packed`) it is `Valid`, and it costs no more than the budget it was read with
(`read_fits`). Since that is also how such strings are written, what comes back is the packed
value (`read_write_packed`). -/
namespace LiveTail.MessagePack

namespace Value

mutual
/-- A value with binary data in place of strings that are no text. -/
def packed : Value → Value
  | .rawStr bytes => .bin bytes
  | .array items => .array (packedItems items)
  | .map entries => .map (packedEntries entries)
  | v => v

def packedItems : List Value → List Value
  | [] => []
  | v :: rest => v.packed :: packedItems rest

def packedEntries : List (Value × Value) → List (Value × Value)
  | [] => []
  | (k, v) :: rest => (k.packed, v.packed) :: packedEntries rest
end

theorem packedItems_eq (items : List Value) : packedItems items = items.map packed := by
  induction items with
  | nil => rfl
  | cons v rest ih => rw [packedItems, ih, List.map_cons]

theorem packedEntries_eq (entries : List (Value × Value)) :
    packedEntries entries = entries.map fun e => (e.1.packed, e.2.packed) := by
  induction entries with
  | nil => rfl
  | cons e rest ih => rw [packedEntries, ih, List.map_cons]

mutual
theorem write_packed (v : Value) : Writer.value v.packed = Writer.value v := by
  cases v with
  | array items =>
    rw [packed, Writer.value, Writer.value, values_packed, packedItems_eq, List.length_map]
  | map entries =>
    rw [packed, Writer.value, Writer.value, pairs_packed, packedEntries_eq, List.length_map]
  | _ => rfl

theorem values_packed (items : List Value) :
    Writer.values (packedItems items) = Writer.values items := by
  cases items with
  | nil => rfl
  | cons v rest =>
    rw [packedItems, Writer.values, Writer.values, write_packed v, values_packed rest]

theorem pairs_packed (entries : List (Value × Value)) :
    Writer.pairs (packedEntries entries) = Writer.pairs entries := by
  cases entries with
  | nil => rfl
  | cons e rest =>
    obtain ⟨k, v⟩ := e
    rw [packedEntries, Writer.pairs, Writer.pairs, write_packed k, write_packed v,
      pairs_packed rest]
end

mutual
theorem cost_packed (v : Value) : v.packed.cost ≤ v.cost := by
  cases v with
  | array items => exact Nat.add_le_add_right (costItems_packed items) 2
  | map entries => exact Nat.add_le_add_right (costEntries_packed entries) 2
  | rawStr bytes => exact Nat.le_succ 2
  | _ => exact Nat.le_refl _

theorem costItems_packed (items : List Value) :
    costItems (packedItems items) ≤ costItems items := by
  cases items with
  | nil => exact Nat.le_refl _
  | cons v rest =>
    have hv := cost_packed v
    have hrest := costItems_packed rest
    simp only [packedItems, costItems]
    omega

theorem costEntries_packed (entries : List (Value × Value)) :
    costEntries (packedEntries entries) ≤ costEntries entries := by
  cases entries with
  | nil => exact Nat.le_refl _
  | cons e rest =>
    obtain ⟨k, v⟩ := e
    have hk := cost_packed k
    have hv := cost_packed v
    have hrest := costEntries_packed rest
    simp only [packedEntries, costEntries]
    omega
end

/-- It fits the format once it is packed, and costs at most so much. -/
structure Fits (budget : Nat) (v : Value) : Prop where
  valid : v.packed.Valid
  cost : v.cost ≤ budget

theorem Fits.mono {v : Value} {budget more : Nat} (h : v.Fits budget) (hle : budget ≤ more) :
    v.Fits more := ⟨h.valid, Nat.le_trans h.cost hle⟩

theorem fits_items {items : List Value} {budget : Nat} (h : ∀ v ∈ items, v.Fits budget) :
    ValidItems (packedItems items) ∧ costItems items ≤ budget := by
  induction items with
  | nil => exact ⟨trivial, Nat.zero_le _⟩
  | cons v rest ih =>
    have hv := h v (List.mem_cons_self ..)
    obtain ⟨hvalid, hcost⟩ := ih fun w hw => h w (List.mem_cons_of_mem v hw)
    exact ⟨⟨hv.valid, hvalid⟩, Nat.max_le.mpr ⟨hv.cost, hcost⟩⟩

theorem fits_entries {entries : List (Value × Value)} {budget : Nat}
    (h : ∀ e ∈ entries, e.1.Fits budget ∧ e.2.Fits budget) :
    ValidEntries (packedEntries entries) ∧ costEntries entries ≤ budget := by
  induction entries with
  | nil => exact ⟨trivial, Nat.zero_le _⟩
  | cons e rest ih =>
    obtain ⟨hk, hv⟩ := h e (List.mem_cons_self ..)
    obtain ⟨hvalid, hcost⟩ := ih fun w hw => h w (List.mem_cons_of_mem e hw)
    exact ⟨⟨hk.valid, hv.valid, hvalid⟩,
      Nat.max_le.mpr ⟨hk.cost, Nat.max_le.mpr ⟨hv.cost, hcost⟩⟩⟩

theorem fits_array {items : List Value} {budget : Nat} (hlength : items.length < 2 ^ 32)
    (h : ∀ v ∈ items, v.Fits budget) : (array items).Fits (budget + 2) := by
  obtain ⟨hvalid, hcost⟩ := fits_items h
  refine ⟨⟨?_, hvalid⟩, Nat.add_le_add_right hcost 2⟩
  rwa [packedItems_eq, List.length_map]

theorem fits_map {entries : List (Value × Value)} {budget : Nat}
    (hlength : entries.length < 2 ^ 32)
    (h : ∀ e ∈ entries, e.1.Fits budget ∧ e.2.Fits budget) :
    (map entries).Fits (budget + 2) := by
  obtain ⟨hvalid, hcost⟩ := fits_entries h
  refine ⟨⟨?_, hvalid⟩, Nat.add_le_add_right hcost 2⟩
  rwa [packedEntries_eq, List.length_map]

theorem entries_of_valid {entries : List (Value × Value)} {budget : Nat}
    (hvalid : ValidEntries (packedEntries entries)) (hcost : costEntries entries ≤ budget) :
    ∀ e ∈ entries, e.1.Fits budget ∧ e.2.Fits budget := by
  induction entries with
  | nil => exact nofun
  | cons entry rest ih =>
    obtain ⟨k, v⟩ := entry
    obtain ⟨hk, hv, hvalid⟩ := hvalid
    simp only [costEntries, Nat.max_le] at hcost
    intro e he
    rcases List.mem_cons.mp he with rfl | he
    · exact ⟨⟨hk, hcost.1⟩, hv, hcost.2.1⟩
    · exact ih hvalid hcost.2.2 e he

/-- The entries of a map that fits. -/
theorem entries_of_fits {entries : List (Value × Value)} {budget : Nat}
    (h : (map entries).Fits (budget + 2)) :
    entries.length < 2 ^ 32 ∧ ∀ e ∈ entries, e.1.Fits budget ∧ e.2.Fits budget := by
  obtain ⟨⟨hlength, hvalid⟩, hcost⟩ := h
  rw [packedEntries_eq, List.length_map] at hlength
  exact ⟨hlength, entries_of_valid hvalid (Nat.le_of_add_le_add_right hcost)⟩

end Value

/-! ### Heads -/

/-- A length that 32 bits hold. -/
def Length.Narrow : Length → Prop
  | .here n => n < 2 ^ 32
  | .next width => width ≤ 4

/-- What follows a head fits the format. -/
def Head.Narrow : Head → Prop
  | .value v => v.Fits 1
  | .unsigned width | .signed width => width ≤ 8
  | .float32 | .float64 => True
  | .str l | .bin l | .array l | .map l | .ext l => l.Narrow

theorem fits_int {n : Int} (hlow : -2 ^ 63 ≤ n) (hhigh : n < 2 ^ 64) : (Value.int n).Fits 1 :=
  ⟨⟨hlow, hhigh⟩, Nat.le_refl 1⟩

theorem fits_nil : Value.nil.Fits 1 := ⟨trivial, Nat.le_refl 1⟩

theorem fits_bool (b : Bool) : (Value.bool b).Fits 1 := ⟨trivial, Nat.le_refl 1⟩

theorem Head.narrow_table (place : Nat) : (table.getD place (.value .nil)).Narrow := by
  have hall : ∀ head ∈ table, head.Narrow := by
    simp [table, Narrow, Length.Narrow, fits_nil, fits_bool]
  rw [List.getD_eq_getElem?_getD]
  cases hplace : table[place]? with
  | none => exact fits_nil
  | some head => exact hall head (List.mem_of_getElem? hplace)

theorem Head.narrow_ofByte (b : UInt8) : (ofByte b).Narrow := by
  have hlt := b.toNat_lt
  unfold ofByte
  dsimp only
  repeat' split
  · exact fits_int (by omega) (by omega)
  · exact (by omega : b.toNat - 0x80 < 2 ^ 32)
  · exact (by omega : b.toNat - 0x90 < 2 ^ 32)
  · exact (by omega : b.toNat - 0xa0 < 2 ^ 32)
  · exact narrow_table _
  · exact fits_int (by omega) (by omega)

/-! ### Reading -/

theorem Read.of_map {α β : Type} {f : α → β} {r : Read α} {b : β} {rest : List UInt8}
    (h : r.map f = .ok (b, rest)) : ∃ a, r = .ok (a, rest) ∧ f a = b := by
  cases r with
  | error e => cases h
  | ok answer =>
    cases h
    exact ⟨answer.1, rfl, rfl⟩

theorem Read.of_andThen {α β : Type} {r : Read α} {f : α → List UInt8 → Read β}
    {x : β × List UInt8} (h : r.andThen f = .ok x) :
    ∃ a rest, r = .ok (a, rest) ∧ f a rest = .ok x := by
  cases r with
  | error e => cases h
  | ok answer => exact ⟨answer.1, answer.2, rfl, h⟩

namespace Reader

theorem of_costing {α : Type} {budget : Nat} {f : Nat → Read α} {x : α × List UInt8}
    (h : costing budget f = .ok x) : ∃ left, budget = left + 1 ∧ f left = .ok x := by
  cases budget with
  | zero => cases h
  | succ left => exact ⟨left, rfl, h⟩

theorem pow_le {width most : Nat} (h : width ≤ most) : (256 : Nat) ^ width ≤ 256 ^ most :=
  Nat.pow_le_pow_right (by decide) h

theorem number_lt {width n : Nat} {bytes rest : List UInt8}
    (h : number width bytes = .ok (n, rest)) : n < 256 ^ width := by
  unfold number at h
  dsimp only at h
  split at h
  next hlength =>
    cases h
    have hbyte : ∀ b ∈ bytes.take width, b.toNat < 256 := fun b _ => b.toNat_lt
    have hlt := Number.Numeral.foldl_base_lt hbyte 0
    rwa [hlength, Nat.zero_add, Nat.one_mul] at hlt
  next => cases h

theorem length_lt {l : Length} (hl : l.Narrow) {n : Nat} {bytes rest : List UInt8}
    (h : length l bytes = .ok (n, rest)) : n < 2 ^ 32 := by
  cases l with
  | here m =>
    cases h
    exact hl
  | next width =>
    exact Nat.lt_of_lt_of_le (number_lt h) (pow_le hl)

theorem length_body {n : Nat} {bytes content rest : List UInt8}
    (h : body n bytes = .ok (content, rest)) : content.length = n := by
  unfold body at h
  dsimp only at h
  split at h
  next hlength =>
    cases h
    exact hlength
  next => cases h

theorem signed_bounds {width n : Nat} (h : n < 256 ^ width) :
    -256 ^ width ≤ 2 * Bytes.signed width n ∧ 2 * Bytes.signed width n < 256 ^ width := by
  have hcast : ((256 ^ width : Nat) : Int) = 256 ^ width := Int.natCast_pow 256 width
  unfold Bytes.signed
  split <;> omega

theorem fits_string {bytes : List UInt8} (h : bytes.length < 2 ^ 32) :
    (string bytes).Fits 3 := by
  unfold string
  split
  next text htext =>
    refine ⟨?_, Nat.le_refl 3⟩
    show (Text.Utf8.encode text).length < 2 ^ 32
    rwa [Text.Utf8.encode_decode? htext]
  next => exact ⟨h, Nat.le_refl 3⟩

theorem fits_text {budget n : Nat} (hn : n < 2 ^ 32) {bytes rest : List UInt8} {v : Value}
    (h : text budget n bytes = .ok (v, rest)) : v.Fits (budget + 1) := by
  obtain ⟨left, hbudget, houter⟩ := of_costing h
  obtain ⟨inner, hleft, hinner⟩ := of_costing houter
  obtain ⟨content, hbody, rfl⟩ := Read.of_map hinner
  exact (fits_string (length_body hbody ▸ hn)).mono (by omega)

theorem fits_extension {budget n : Nat} (hn : n < 2 ^ 32) {bytes rest : List UInt8} {v : Value}
    (h : extension budget n bytes = .ok (v, rest)) : v.Fits (budget + 1) := by
  obtain ⟨left, hbudget, houter⟩ := of_costing h
  obtain ⟨type, after, htype, hafter⟩ := Read.of_andThen houter
  obtain ⟨inner, hleft, hinner⟩ := of_costing hafter
  obtain ⟨content, hbody, rfl⟩ := Read.of_map hinner
  have hbounds := signed_bounds (number_lt htype)
  refine ⟨⟨?_, ?_, length_body hbody ▸ hn⟩, ?_⟩
  · omega
  · omega
  · show 3 ≤ budget + 1
    omega

/-- So many items were read, each of them from some bytes. -/
theorem of_items {α : Type} {item : List UInt8 → Read α} {n : Nat} {bytes rest : List UInt8}
    {xs : List α} (h : items item n bytes = .ok (xs, rest)) :
    xs.length = n ∧ ∀ x ∈ xs, ∃ front after, item front = .ok (x, after) := by
  induction n generalizing bytes xs with
  | zero =>
    cases h
    exact ⟨rfl, nofun⟩
  | succ n ih =>
    obtain ⟨x, after, hx, h⟩ := Read.of_andThen h
    obtain ⟨more, hmore, rfl⟩ := Read.of_map h
    obtain ⟨hlength, hread⟩ := ih hmore
    refine ⟨by rw [List.length_cons, hlength], fun y hy => ?_⟩
    rcases List.mem_cons.mp hy with rfl | hy
    · exact ⟨bytes, after, hx⟩
    · exact hread y hy

theorem of_pair {item : List UInt8 → Read Value} {bytes rest : List UInt8} {e : Value × Value}
    (h : pair item bytes = .ok (e, rest)) :
    (∃ front after, item front = .ok (e.1, after)) ∧
      ∃ front after, item front = .ok (e.2, after) := by
  obtain ⟨k, after, hk, h⟩ := Read.of_andThen h
  obtain ⟨v, hv, rfl⟩ := Read.of_map h
  exact ⟨⟨bytes, after, hk⟩, after, rest, hv⟩

/-- What is read after a head fits, if the items of a collection do. -/
theorem fits_content {left : Nat} (hitem : ∀ inner, left = inner + 1 →
      ∀ bytes v rest, value inner bytes = .ok (v, rest) → v.Fits inner)
    {head : Head} (hhead : head.Narrow) {bytes rest : List UInt8} {v : Value}
    (h : content left (child left) head bytes = .ok (v, rest)) : v.Fits (left + 1) := by
  cases head with
  | value w =>
    cases h
    exact hhead.mono (by omega)
  | unsigned width =>
    obtain ⟨n, hn, rfl⟩ := Read.of_map h
    have hlt := Nat.lt_of_lt_of_le (number_lt hn) (pow_le hhead)
    exact (fits_int (by omega) (by omega)).mono (by omega)
  | signed width =>
    obtain ⟨n, hn, rfl⟩ := Read.of_map h
    have hpow := pow_le hhead
    have hcast : ((256 ^ width : Nat) : Int) = 256 ^ width := Int.natCast_pow 256 width
    have hbounds := signed_bounds (number_lt hn)
    exact (fits_int (by omega) (by omega)).mono (by omega)
  | float32 =>
    obtain ⟨n, -, rfl⟩ := Read.of_map h
    exact ⟨trivial, Nat.le_add_left 1 left⟩
  | float64 =>
    obtain ⟨n, -, rfl⟩ := Read.of_map h
    exact ⟨trivial, Nat.le_add_left 1 left⟩
  | str l =>
    obtain ⟨n, after, hn, h⟩ := Read.of_andThen h
    exact fits_text (length_lt hhead hn) h
  | bin l =>
    obtain ⟨n, after, hn, h⟩ := Read.of_andThen h
    obtain ⟨inner, rfl, h⟩ := of_costing h
    obtain ⟨bytes, hbody, rfl⟩ := Read.of_map h
    refine ⟨?_, Nat.le_add_left 2 inner⟩
    show bytes.length < 2 ^ 32
    rw [length_body hbody]
    exact length_lt hhead hn
  | ext l =>
    obtain ⟨n, after, hn, h⟩ := Read.of_andThen h
    exact fits_extension (length_lt hhead hn) h
  | array l =>
    obtain ⟨n, after, hn, h⟩ := Read.of_andThen h
    cases left with
    | zero => cases h
    | succ inner =>
      obtain ⟨vs, hvs, rfl⟩ := Read.of_map h
      obtain ⟨hlength, hread⟩ := of_items hvs
      refine Value.fits_array (hlength ▸ length_lt hhead hn) fun v hv => ?_
      obtain ⟨front, after, hread⟩ := hread v hv
      exact hitem inner rfl front v after hread
  | map l =>
    obtain ⟨n, after, hn, h⟩ := Read.of_andThen h
    cases left with
    | zero => cases h
    | succ inner =>
      obtain ⟨es, hes, rfl⟩ := Read.of_map h
      obtain ⟨hlength, hread⟩ := of_items hes
      refine Value.fits_map (hlength ▸ length_lt hhead hn) fun e he => ?_
      obtain ⟨front, after, hread⟩ := hread e he
      obtain ⟨⟨kfront, kafter, hk⟩, vfront, vafter, hv⟩ := of_pair hread
      exact ⟨hitem inner rfl kfront e.1 kafter hk, hitem inner rfl vfront e.2 vafter hv⟩

theorem value_fits {budget : Nat} {bytes rest : List UInt8} {v : Value}
    (h : value budget bytes = .ok (v, rest)) : v.Fits budget := by
  induction budget using Nat.strongRecOn generalizing bytes v rest with
  | ind budget ih =>
    cases budget with
    | zero => cases h
    | succ left =>
      cases bytes with
      | nil => cases h
      | cons b after =>
        rw [value_cons] at h
        refine fits_content (fun inner hinner front w last hread => ?_) (Head.narrow_ofByte b) h
        exact ih inner (by omega) hread

end Reader

/-- **A value that is read fits the format**, once it is packed, and the nesting allowed. -/
theorem read_fits {bytes rest : List UInt8} {v : Value} (h : read bytes = .ok (v, rest)) :
    v.Fits Reader.budget := Reader.value_fits h

/-- A value that fits comes back packed. -/
theorem read_write_packed {v : Value} (h : v.Fits Reader.budget) (rest : List UInt8) :
    read (write v ++ rest) = .ok (v.packed, rest) := by
  rw [write, ← Value.write_packed]
  exact read_write h.valid (Nat.le_trans (Value.cost_packed v) h.cost) rest

end LiveTail.MessagePack
