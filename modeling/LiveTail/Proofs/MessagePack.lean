import LiveTail.MessagePack.Reader
import LiveTail.MessagePack.Writer

/-! MessagePack values are read back as they were written.

`Valid` says that a value fits the format: numbers in 64 bits, lengths in 32, text
in strings. `cost` is the least budget that reads a value; a collection costs two
more than its dearest item. Each head is read back first, then values by recursion
on their structure. -/
namespace LiveTail.MessagePack

namespace Value

mutual
/-- Whether the format has the value. A string that is no text only ever comes from
reading, and is written as binary data (`read_rawStr`). -/
def Valid : Value → Prop
  | .nil | .bool _ | .float32 _ | .float64 _ => True
  | .int n => -2 ^ 63 ≤ n ∧ n < 2 ^ 64
  | .str text => (Text.Utf8.encode text).length < 2 ^ 32
  | .rawStr _ => False
  | .bin bytes => bytes.length < 2 ^ 32
  | .array items => items.length < 2 ^ 32 ∧ ValidItems items
  | .map entries => entries.length < 2 ^ 32 ∧ ValidEntries entries
  | .ext type bytes => -2 ^ 7 ≤ type ∧ type < 2 ^ 7 ∧ bytes.length < 2 ^ 32

def ValidItems : List Value → Prop
  | [] => True
  | v :: rest => v.Valid ∧ ValidItems rest

def ValidEntries : List (Value × Value) → Prop
  | [] => True
  | (k, v) :: rest => k.Valid ∧ v.Valid ∧ ValidEntries rest
end

mutual
/-- The least budget that reads a value. -/
def cost : Value → Nat
  | .nil | .bool _ | .float32 _ | .float64 _ | .int _ => 1
  | .str _ | .rawStr _ | .ext _ _ => 3
  | .bin _ => 2
  | .array items => costItems items + 2
  | .map entries => costEntries entries + 2

def costItems : List Value → Nat
  | [] => 0
  | v :: rest => max v.cost (costItems rest)

def costEntries : List (Value × Value) → Nat
  | [] => 0
  | (k, v) :: rest => max k.cost (max v.cost (costEntries rest))
end

mutual
/-- How many collections are nested in one another. -/
def depth : Value → Nat
  | .array items => depthItems items + 1
  | .map entries => depthEntries entries + 1
  | _ => 0

def depthItems : List Value → Nat
  | [] => 0
  | v :: rest => max v.depth (depthItems rest)

def depthEntries : List (Value × Value) → Nat
  | [] => 0
  | (k, v) :: rest => max k.depth (max v.depth (depthEntries rest))
end

mutual
theorem cost_le (v : Value) : v.cost ≤ 2 * v.depth + 3 := by
  cases v with
  | array items =>
    have := costItems_le items
    simp only [cost, depth]
    omega
  | map entries =>
    have := costEntries_le entries
    simp only [cost, depth]
    omega
  | _ => simp only [cost, depth]; omega

theorem costItems_le (items : List Value) : costItems items ≤ 2 * depthItems items + 3 := by
  cases items with
  | nil => exact Nat.zero_le _
  | cons v rest =>
    have hv := cost_le v
    have hrest := costItems_le rest
    simp only [costItems, depthItems]
    omega

theorem costEntries_le (entries : List (Value × Value)) :
    costEntries entries ≤ 2 * depthEntries entries + 3 := by
  cases entries with
  | nil => exact Nat.zero_le _
  | cons entry rest =>
    obtain ⟨k, v⟩ := entry
    have hk := cost_le k
    have hv := cost_le v
    have hrest := costEntries_le rest
    simp only [costEntries, depthEntries]
    omega
end

end Value
namespace Reader
open Writer

/-! ### Numbers and content -/

theorem number_big {width n : Nat} (h : n < 256 ^ width) (rest : List UInt8) :
    number width (Bytes.big width n ++ rest) = .ok (n, rest) := by
  have hlength := Bytes.length_big width n
  rw [number, List.take_left' hlength, List.drop_left' hlength]
  simp only [hlength, if_true, Bytes.ofBig_big h]

theorem body_append (bytes rest : List UInt8) :
    body bytes.length (bytes ++ rest) = .ok (bytes, rest) := by
  rw [body, List.take_left, List.drop_left]
  exact if_pos rfl

theorem signed_unsigned {width : Nat} {i : Int} (hlow : -256 ^ width ≤ 2 * i)
    (hhigh : 2 * i < 256 ^ width) : Bytes.signed width (Bytes.unsigned width i) = i := by
  have hpos : (0 : Int) < 256 ^ width := Int.pow_pos (by decide)
  have hmod : i % 256 ^ width = if 0 ≤ i then i else i + 256 ^ width := by
    split
    · exact Int.emod_eq_of_lt (by omega) (by omega)
    · rw [← Int.add_emod_right]
      exact Int.emod_eq_of_lt (by omega) (by omega)
  have hcast : ((256 ^ width : Nat) : Int) = 256 ^ width := Int.natCast_pow 256 width
  rw [Bytes.unsigned, Bytes.signed]
  split at hmod
  · rw [if_pos (by omega)]
    omega
  · rw [if_neg (by omega)]
    omega

theorem unsigned_lt (width : Nat) (i : Int) : Bytes.unsigned width i < 256 ^ width := by
  have hpos : (0 : Int) < 256 ^ width := Int.pow_pos (by decide)
  have hlt := Int.emod_lt_of_pos i hpos
  have hnonneg := Int.emod_nonneg i (Int.ne_of_gt hpos)
  have hcast : ((256 ^ width : Nat) : Int) = 256 ^ width := Int.natCast_pow 256 width
  rw [Bytes.unsigned]
  omega

/-! ### Heads -/

/-- The items of a collection are read with what is left of the budget. -/
def child : Nat → Option (List UInt8 → Read Value)
  | 0 => none
  | inner + 1 => some (value inner)

theorem value_cons (left : Nat) (b : UInt8) (rest : List UInt8) :
    value (left + 1) (b :: rest) = content left (child left) (Head.ofByte b) rest := by
  cases left <;> rfl

theorem toNat_byte {n : Nat} (h : n < 256) : (UInt8.ofNat n).toNat = n :=
  UInt8.toNat_ofNat_of_lt' h

theorem ofByte_value {n : Nat} (h : n < 0x80) :
    Head.ofByte (UInt8.ofNat n) = .value (.int n) := by
  have hn : (UInt8.ofNat n).toNat = n := toNat_byte (by omega)
  rw [Head.ofByte, hn, if_pos h]

theorem ofByte_map {n : Nat} (h : n < 2 ^ 4) :
    Head.ofByte (UInt8.ofNat (0x80 + n)) = .map (.here n) := by
  have hn : (UInt8.ofNat (0x80 + n)).toNat = 0x80 + n := toNat_byte (by omega)
  rw [Head.ofByte, hn, if_neg (by omega), if_pos (by omega), Nat.add_sub_cancel_left]

theorem ofByte_array {n : Nat} (h : n < 2 ^ 4) :
    Head.ofByte (UInt8.ofNat (0x90 + n)) = .array (.here n) := by
  have hn : (UInt8.ofNat (0x90 + n)).toNat = 0x90 + n := toNat_byte (by omega)
  rw [Head.ofByte, hn, if_neg (by omega), if_neg (by omega), if_pos (by omega),
    Nat.add_sub_cancel_left]

theorem ofByte_str {n : Nat} (h : n < 2 ^ 5) :
    Head.ofByte (UInt8.ofNat (0xa0 + n)) = .str (.here n) := by
  have hn : (UInt8.ofNat (0xa0 + n)).toNat = 0xa0 + n := toNat_byte (by omega)
  rw [Head.ofByte, hn, if_neg (by omega), if_neg (by omega), if_neg (by omega),
    if_pos (by omega), Nat.add_sub_cancel_left]

theorem ofByte_table {n : Nat} (h : 0xc0 ≤ n ∧ n < 0xe0) :
    Head.ofByte (UInt8.ofNat n) = Head.table.getD (n - 0xc0) (.value .nil) := by
  obtain ⟨hlow, hhigh⟩ := h
  rw [Head.ofByte, toNat_byte (by omega), if_neg (by omega), if_neg (by omega),
    if_neg (by omega), if_neg (by omega), if_pos hhigh]

theorem ofByte_negative {i : Int} (hlow : -2 ^ 5 ≤ i) (hhigh : i < 0) :
    Head.ofByte (UInt8.ofNat (Bytes.unsigned 1 i)) = .value (.int i) := by
  have hi : (Bytes.unsigned 1 i : Int) = i + 256 := by
    rw [Bytes.unsigned]
    omega
  have hn : (UInt8.ofNat (Bytes.unsigned 1 i)).toNat = Bytes.unsigned 1 i :=
    toNat_byte (by omega)
  rw [Head.ofByte, hn, if_neg (by omega), if_neg (by omega), if_neg (by omega), if_neg (by omega),
    if_neg (by omega), hi]
  congr 2
  omega

/-- A head of the table with a number of `width` bytes after it. -/
theorem value_wide {head : Nat} (h : 0xc0 ≤ head ∧ head < 0xe0) (width n left : Nat)
    (rest : List UInt8) :
    value (left + 1) (wide head width n ++ rest) =
      content left (child left) (Head.table.getD (head - 0xc0) (.value .nil))
        (Bytes.big width n ++ rest) := by
  rw [← ofByte_table h]
  exact value_cons left (UInt8.ofNat head) (Bytes.big width n ++ rest)

theorem value_unsigned {head width n : Nat} {i : Int} (hrange : 0xc0 ≤ head ∧ head < 0xe0)
    (hhead : Head.table.getD (head - 0xc0) (.value .nil) = .unsigned width)
    (h : n < 256 ^ width) (hi : (n : Int) = i) (left : Nat) (rest : List UInt8) :
    value (left + 1) (wide head width n ++ rest) = .ok (.int i, rest) := by
  rw [value_wide hrange, hhead, content, number_big h, ← hi]
  rfl

theorem value_signed {head width : Nat} {i : Int} (hrange : 0xc0 ≤ head ∧ head < 0xe0)
    (hhead : Head.table.getD (head - 0xc0) (.value .nil) = .signed width)
    (hlow : -256 ^ width ≤ 2 * i) (hhigh : 2 * i < 256 ^ width) (left : Nat)
    (rest : List UInt8) :
    value (left + 1) (wide head width (Bytes.unsigned width i) ++ rest) = .ok (.int i, rest) := by
  rw [value_wide hrange, hhead, content, number_big (unsigned_lt width i)]
  simp only [Read.map, signed_unsigned hlow hhigh]

theorem value_int {i : Int} (h : (Value.int i).Valid) (left : Nat) (rest : List UInt8) :
    value (left + 1) (int i ++ rest) = .ok (.int i, rest) := by
  obtain ⟨hlow, hhigh⟩ := h
  fun_cases int i
  case case1 hsign n h7 =>
    have hi : (n : Int) = i := Int.toNat_of_nonneg hsign
    rw [List.cons_append, value_cons, ofByte_value h7, hi]
    rfl
  case case2 hsign n _ _ | case3 hsign n _ _ _ | case4 hsign n _ _ _ _ | case5 hsign n _ _ _ _ =>
    have hi : (n : Int) = i := Int.toNat_of_nonneg hsign
    exact value_unsigned (by decide) (by rfl) (by omega) hi left rest
  case case6 hsign h5 =>
    rw [List.cons_append, value_cons, ofByte_negative h5 (by omega)]
    rfl
  all_goals exact value_signed (by decide) (by rfl) (by omega) (by omega) left rest

/-! ### Lengths

The heads of strings, binary data, extensions and collections differ in what
becomes of the length, which is `f` here. -/

section Lengths
variable {kind : Length → Head} {left : Nat} {f : Nat → List UInt8 → Read Value}

theorem value_here (hkind : ∀ l bytes,
      content left (child left) (kind l) bytes = (length l bytes).andThen f)
    {b : UInt8} {n : Nat} (hhead : Head.ofByte b = kind (.here n)) (rest : List UInt8) :
    value (left + 1) (b :: rest) = f n rest := by
  rw [value_cons, hhead, hkind]
  rfl

theorem value_next (hkind : ∀ l bytes,
      content left (child left) (kind l) bytes = (length l bytes).andThen f)
    {head width n : Nat} (hrange : 0xc0 ≤ head ∧ head < 0xe0)
    (hhead : Head.table.getD (head - 0xc0) (.value .nil) = kind (.next width))
    (h : n < 256 ^ width) (rest : List UInt8) :
    value (left + 1) (wide head width n ++ rest) = f n rest := by
  rw [value_wide hrange, hhead, hkind, length, number_big h]
  rfl

end Lengths

theorem value_strHead {n : Nat} (h : n < 2 ^ 32) (left : Nat) (rest : List UInt8) :
    value (left + 1) (strHead n ++ rest) = text left n rest := by
  have hkind : ∀ l bytes, content left (child left) (.str l) bytes =
      (length l bytes).andThen (text left) := fun _ _ => rfl
  fun_cases strHead n
  case case1 h5 => exact value_here hkind (ofByte_str h5) rest
  all_goals exact value_next hkind (by decide) (by rfl) (by omega) rest

theorem value_binHead {n : Nat} (h : n < 2 ^ 32) (left : Nat) (rest : List UInt8) :
    value (left + 1) (binHead n ++ rest) =
      costing left fun _ => (body n rest).map .bin := by
  have hkind : ∀ l bytes, content left (child left) (.bin l) bytes =
      (length l bytes).andThen fun n rest => costing left fun _ => (body n rest).map .bin :=
    fun _ _ => rfl
  fun_cases binHead n
  all_goals exact value_next hkind (by decide) (by rfl) (by omega) rest

theorem value_arrayHead {n : Nat} (h : n < 2 ^ 32) (inner : Nat) (rest : List UInt8) :
    value (inner + 2) (arrayHead n ++ rest) = (items (value inner) n rest).map .array := by
  have hkind : ∀ l bytes, content (inner + 1) (child (inner + 1)) (.array l) bytes =
      (length l bytes).andThen fun n rest => (items (value inner) n rest).map .array :=
    fun _ _ => rfl
  fun_cases arrayHead n
  case case1 h4 => exact value_here hkind (ofByte_array h4) rest
  all_goals exact value_next hkind (by decide) (by rfl) (by omega) rest

theorem value_mapHead {n : Nat} (h : n < 2 ^ 32) (inner : Nat) (rest : List UInt8) :
    value (inner + 2) (mapHead n ++ rest) = (items (pair (value inner)) n rest).map .map := by
  have hkind : ∀ l bytes, content (inner + 1) (child (inner + 1)) (.map l) bytes =
      (length l bytes).andThen fun n rest => (items (pair (value inner)) n rest).map .map :=
    fun _ _ => rfl
  fun_cases mapHead n
  case case1 h4 => exact value_here hkind (ofByte_map h4) rest
  all_goals exact value_next hkind (by decide) (by rfl) (by omega) rest

theorem value_extHead {n : Nat} (h : n < 2 ^ 32) (left : Nat) (rest : List UInt8) :
    value (left + 1) (extHead n ++ rest) = extension left n rest := by
  have hkind : ∀ l bytes, content left (child left) (.ext l) bytes =
      (length l bytes).andThen (extension left) := fun _ _ => rfl
  have hfixed : ∀ size : Nat, size < 5 →
      value (left + 1) (UInt8.ofNat (0xd4 + size) :: rest) = extension left (2 ^ size) rest := by
    intro size hsize
    have hhead : Head.ofByte (UInt8.ofNat (0xd4 + size)) = .ext (.here (2 ^ size)) := by
      rw [ofByte_table (by omega)]
      match size, hsize with
      | 0, _ | 1, _ | 2, _ | 3, _ | 4, _ => rfl
    exact value_here hkind hhead rest
  fun_cases extHead n
  case case1 =>
    subst n
    exact hfixed 0 (by decide)
  case case2 =>
    subst n
    exact hfixed 1 (by decide)
  case case3 =>
    subst n
    exact hfixed 2 (by decide)
  case case4 =>
    subst n
    exact hfixed 3 (by decide)
  case case5 =>
    subst n
    exact hfixed 4 (by decide)
  all_goals exact value_next hkind (by decide) (by rfl) (by omega) rest

/-! ### Values -/

theorem value_str {text : String} (h : (Value.str text).Valid) (left : Nat) (rest : List UInt8) :
    value (left + 3) (Writer.string (Text.Utf8.encode text) ++ rest) = .ok (.str text, rest) := by
  have hread : Reader.string (Text.Utf8.encode text) = .str text := by
    rw [Reader.string, Text.Utf8.decode?_encode]
  rw [Writer.string, List.append_assoc, value_strHead h]
  simp only [Reader.text, costing, body_append, Read.map, hread]

theorem value_bin {bytes : List UInt8} (h : bytes.length < 2 ^ 32) (left : Nat)
    (rest : List UInt8) :
    value (left + 2) (binHead bytes.length ++ bytes ++ rest) = .ok (.bin bytes, rest) := by
  rw [List.append_assoc, value_binHead h]
  simp only [costing, body_append, Read.map]

theorem value_ext {type : Int} {bytes : List UInt8} (h : (Value.ext type bytes).Valid)
    (left : Nat) (rest : List UInt8) :
    value (left + 3) (extHead bytes.length ++ UInt8.ofNat (Bytes.unsigned 1 type) :: bytes ++ rest) =
      .ok (.ext type bytes, rest) := by
  obtain ⟨hlow, hhigh, hlength⟩ := h
  have htype := number_big (unsigned_lt 1 type) (bytes ++ rest)
  have hbyte : Bytes.big 1 (Bytes.unsigned 1 type) = [UInt8.ofNat (Bytes.unsigned 1 type)] := by
    simp [Bytes.big]
  rw [hbyte, List.singleton_append] at htype
  rw [List.append_assoc, value_extHead hlength, List.cons_append]
  simp only [extension, costing, htype, Read.andThen, body_append, Read.map]
  rw [signed_unsigned (by omega) (by omega)]

theorem value_float32 (bits : UInt32) (left : Nat) (rest : List UInt8) :
    value (left + 1) (wide 0xca 4 bits.toNat ++ rest) = .ok (.float32 bits, rest) := by
  have hlt : bits.toNat < 256 ^ 4 := bits.toNat_lt
  have hhead : Head.table.getD (0xca - 0xc0) (.value .nil) = .float32 := rfl
  rw [value_wide (by decide), hhead, content, number_big hlt]
  simp [Read.map]

theorem value_float64 (bits : UInt64) (left : Nat) (rest : List UInt8) :
    value (left + 1) (wide 0xcb 8 bits.toNat ++ rest) = .ok (.float64 bits, rest) := by
  have hlt : bits.toNat < 256 ^ 8 := bits.toNat_lt
  have hhead : Head.table.getD (0xcb - 0xc0) (.value .nil) = .float64 := rfl
  rw [value_wide (by decide), hhead, content, number_big hlt]
  simp [Read.map]

mutual
/-- **A value reads back as written**, whatever follows it. -/
theorem value_write {v : Value} (h : v.Valid) {budget : Nat} (hbudget : v.cost ≤ budget)
    (rest : List UInt8) : value budget (Writer.value v ++ rest) = .ok (v, rest) := by
  obtain ⟨extra, rfl⟩ := Nat.exists_eq_add_of_le' hbudget
  cases v with
  | nil => exact value_cons extra 0xc0 rest
  | bool b => cases b <;> exact value_cons extra _ rest
  | int i => exact value_int h extra rest
  | float32 bits => exact value_float32 bits extra rest
  | float64 bits => exact value_float64 bits extra rest
  | str text => exact value_str h extra rest
  | rawStr bytes => exact h.elim
  | bin bytes => exact value_bin h extra rest
  | ext type bytes => exact value_ext h extra rest
  | array vs =>
    have hvs := items_write h.2 (Nat.le_add_left (Value.costItems vs) extra) rest
    rw [Writer.value, List.append_assoc]
    refine (value_arrayHead h.1 (extra + Value.costItems vs) _).trans ?_
    rw [hvs]
    rfl
  | map entries =>
    have hes := pairs_write h.2 (Nat.le_add_left (Value.costEntries entries) extra) rest
    rw [Writer.value, List.append_assoc]
    refine (value_mapHead h.1 (extra + Value.costEntries entries) _).trans ?_
    rw [hes]
    rfl

theorem items_write {vs : List Value} (h : Value.ValidItems vs) {budget : Nat}
    (hbudget : Value.costItems vs ≤ budget) (rest : List UInt8) :
    items (value budget) vs.length (Writer.values vs ++ rest) = .ok (vs, rest) := by
  cases vs with
  | nil => rfl
  | cons v vs =>
    simp only [Value.costItems] at hbudget
    have hv := value_write h.1 (show v.cost ≤ budget by omega) (Writer.values vs ++ rest)
    have hvs := items_write h.2 (show Value.costItems vs ≤ budget by omega) rest
    rw [Writer.values, List.append_assoc, List.length_cons, items, hv]
    simp only [Read.andThen, hvs, Read.map]

theorem pairs_write {es : List (Value × Value)} (h : Value.ValidEntries es) {budget : Nat}
    (hbudget : Value.costEntries es ≤ budget) (rest : List UInt8) :
    items (pair (value budget)) es.length (Writer.pairs es ++ rest) = .ok (es, rest) := by
  cases es with
  | nil => rfl
  | cons e es =>
    obtain ⟨k, v⟩ := e
    simp only [Value.costEntries] at hbudget
    have hes := pairs_write h.2.2 (show Value.costEntries es ≤ budget by omega) rest
    have hv := value_write h.2.1 (show v.cost ≤ budget by omega) (Writer.pairs es ++ rest)
    have hk := value_write h.1 (show k.cost ≤ budget by omega)
      (Writer.value v ++ (Writer.pairs es ++ rest))
    rw [Writer.pairs, List.append_assoc, List.append_assoc, List.length_cons, items, pair, hk]
    simp only [Read.andThen, hv, hes, Read.map]
end

end Reader

/-- A valid value is read back from its bytes within the nesting allowed. -/
theorem read_write {v : Value} (h : v.Valid) (hcost : v.cost ≤ Reader.budget)
    (rest : List UInt8) : read (write v ++ rest) = .ok (v, rest) :=
  Reader.value_write h hcost rest

/-- A string that is no text comes back as binary data. -/
theorem read_rawStr {bytes : List UInt8} (h : bytes.length < 2 ^ 32) (rest : List UInt8) :
    read (write (.rawStr bytes) ++ rest) = .ok (.bin bytes, rest) :=
  Reader.value_bin h 1022 rest

end LiveTail.MessagePack
