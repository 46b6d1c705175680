import LiveTail.Rows.PrefixTree

/-! What a binary indexed tree holds.

Let `f n` be the sum of the first `n` slots. A tree holds `f` when every node is
the difference of `f` over the range of its slots (`Holds`). A tree that holds `f`
gives it back (`below_eq`), and a change of slot `i` changes `f` past `i`
(`holds_add`). Both rest on the numbering of the nodes: those that a change of
slot `i` visits are the ones whose range holds `i` (`first_le_iff`). -/
namespace LiveTail.Rows.PrefixTree

/-! ### The numbering -/

/-- The first slot in the range of node `i`; the last is `i` itself. -/
def first (i : Nat) : Nat := i &&& (i + 1)

/-- The node above node `i`. -/
def above (i : Nat) : Nat := i ||| (i + 1)

theorem first_le (i : Nat) : first i ≤ i := Nat.and_le_left

theorem lt_above (i : Nat) : i < above i := lt_or_succ i

theorem first_even (a : Nat) : first (2 * a) = 2 * a := by
  have hd := Nat.and_div_two (a := 2 * a) (b := 2 * a + 1)
  have hm := Nat.and_mod_two_eq_one (a := 2 * a) (b := 2 * a + 1)
  rw [show (2 * a + 1) / 2 = a by omega, show 2 * a / 2 = a by omega, Nat.and_self] at hd
  simp only [first]
  omega

theorem first_odd (a : Nat) : first (2 * a + 1) = 2 * first a := by
  have hd := Nat.and_div_two (a := 2 * a + 1) (b := 2 * a + 1 + 1)
  have hm := Nat.and_mod_two_eq_one (a := 2 * a + 1) (b := 2 * a + 1 + 1)
  rw [show (2 * a + 1) / 2 = a by omega, show (2 * a + 1 + 1) / 2 = a + 1 by omega] at hd
  simp only [first]
  omega

theorem above_even (a : Nat) : above (2 * a) = 2 * a + 1 := by
  have hd := Nat.or_div_two (a := 2 * a) (b := 2 * a + 1)
  have hm := Nat.or_mod_two_eq_one (a := 2 * a) (b := 2 * a + 1)
  rw [show (2 * a + 1) / 2 = a by omega, show 2 * a / 2 = a by omega, Nat.or_self] at hd
  simp only [above]
  omega

theorem above_odd (a : Nat) : above (2 * a + 1) = 2 * above a + 1 := by
  have hd := Nat.or_div_two (a := 2 * a + 1) (b := 2 * a + 1 + 1)
  have hm := Nat.or_mod_two_eq_one (a := 2 * a + 1) (b := 2 * a + 1 + 1)
  rw [show (2 * a + 1) / 2 = a by omega, show (2 * a + 1 + 1) / 2 = a + 1 by omega] at hd
  simp only [above]
  omega

/-- Behind slot `i`, the ranges that hold `i` are those that hold the node above it. -/
theorem first_le_iff {i j : Nat} (h : i < j) :
    first j ≤ i ↔ first j ≤ above i ∧ above i ≤ j := by
  -- Halving both numbers keeps the question, until the lower one is even.
  induction i using Nat.strongRecOn generalizing j with
  | ind i ih =>
    rcases Nat.mod_two_eq_zero_or_one i with hi | hi
    · obtain ⟨a, rfl⟩ : ∃ a, i = 2 * a := ⟨i / 2, by omega⟩
      have heven : first j % 2 = 0 := by
        rcases Nat.mod_two_eq_zero_or_one j with hj | hj
        · rw [show j = 2 * (j / 2) by omega, first_even]
          omega
        · rw [show j = 2 * (j / 2) + 1 by omega, first_odd]
          omega
      rw [above_even]
      omega
    · obtain ⟨a, rfl⟩ : ∃ a, i = 2 * a + 1 := ⟨i / 2, by omega⟩
      rw [above_odd]
      rcases Nat.mod_two_eq_zero_or_one j with hj | hj
      · obtain ⟨b, rfl⟩ : ∃ b, j = 2 * b := ⟨j / 2, by omega⟩
        rw [first_even]
        omega
      · obtain ⟨b, rfl⟩ : ∃ b, j = 2 * b + 1 := ⟨j / 2, by omega⟩
        have hhalf := ih a (by omega) (j := b) (by omega)
        rw [first_odd]
        omega

/-! ### Sums -/

/-- Every node is the difference of `f` over its range. -/
def Holds (tree : Array Int64) (f : Nat → Int64) : Prop :=
  ∀ i < tree.size, tree.getD i 0 = f (i + 1) - f (first i)

/-- A change of slot `i` reaches exactly the nodes whose range holds `i`. -/
theorem getD_add (tree : Array Int64) (i : Nat) (delta : Int64) {j : Nat} (hj : j < tree.size) :
    (add tree i delta).getD j 0 =
      tree.getD j 0 + if first j ≤ i ∧ i ≤ j then delta else 0 := by
  fun_induction add tree i delta with
  | case1 tree i hi ih =>
    rw [ih (by simpa using hj)]
    have hup := lt_above i
    change _ + (if first j ≤ above i ∧ above i ≤ j then delta else 0) = _
    rcases Nat.lt_trichotomy i j with hij | rfl | hij
    · have hiff := first_le_iff hij
      have hle := Nat.le_of_lt hij
      simp only [← hiff, hle, and_true]
      simp [Array.getD_eq_getD_getElem?, Nat.ne_of_lt hij]
    · have hfirst := first_le i
      rw [if_neg (by omega), if_pos (by omega)]
      simp [Array.getD_eq_getD_getElem?, hi]
    · rw [if_neg (by omega), if_neg (by omega)]
      simp [Array.getD_eq_getD_getElem?, Nat.ne_of_gt hij]
  | case2 tree i hi =>
    rw [if_neg (by omega)]
    simp

theorem holds_add {tree : Array Int64} {f : Nat → Int64} (h : Holds tree f) (i : Nat)
    (delta : Int64) : Holds (add tree i delta) fun n => f n + if i < n then delta else 0 := by
  intro j hj
  rw [size_add] at hj
  rw [getD_add tree i delta hj, h j hj]
  dsimp only
  by_cases hij : i ≤ j
  · by_cases hf : first j ≤ i
    · rw [if_pos ⟨hf, hij⟩, if_pos (by omega), if_neg (by omega)]
      grind
    · rw [if_neg (by omega), if_pos (by omega), if_pos (by omega)]
      grind
  · have hf := first_le j
    rw [if_neg (by omega), if_neg (by omega), if_neg (by omega)]
    grind

/-- A tree gives back what it holds. -/
theorem below_eq {tree : Array Int64} {f : Nat → Int64} (h : Holds tree f) {n : Nat}
    (hn : n ≤ tree.size) : below tree n = f n - f 0 := by
  induction n using Nat.strongRecOn with
  | ind n ih =>
    match n with
    | 0 => simp [below]
    | n + 1 =>
      have hlt : first n < n + 1 := Nat.lt_succ_of_le (first_le n)
      have hrest : below tree (n &&& (n + 1)) = f (first n) - f 0 := ih (first n) hlt (by omega)
      rw [below, hrest, h n (by omega)]
      grind

/-! ### Slots -/

/-- The sum of the first `n` of some slots, as a word. -/
def wordSum (slots : List Nat) (n : Nat) : Int64 := Int64.ofNat (slots.take n).sum

theorem sum_take_mono (slots : List Nat) {m n : Nat} (h : m ≤ n) :
    (slots.take m).sum ≤ (slots.take n).sum := by
  have hsplit := congrArg List.sum (List.take_append_drop m (slots.take n))
  rw [List.take_take, Nat.min_eq_left h, List.sum_append] at hsplit
  omega

theorem sum_take_le (slots : List Nat) (n : Nat) : (slots.take n).sum ≤ slots.sum := by
  have hsplit := congrArg List.sum (List.take_append_drop n slots)
  rw [List.sum_append] at hsplit
  omega

theorem sum_take_succ (slots : List Nat) {i : Nat} (h : i < slots.length) :
    (slots.take (i + 1)).sum = (slots.take i).sum + slots[i] := by
  rw [List.take_succ_eq_append_getElem h, List.sum_append]
  simp

theorem wordSum_append_one (slots : List Nat) (h n : Nat) :
    wordSum (slots ++ [h]) n =
      wordSum slots n + if slots.length < n then Int64.ofNat h else 0 := by
  simp only [wordSum, List.take_append, List.sum_append, Int64.ofNat_add]
  by_cases hn : slots.length < n
  · rw [if_pos hn, List.take_of_length_le (l := [h]) (by simp; omega)]
    simp
  · rw [if_neg hn, show n - slots.length = 0 by omega]
    simp

theorem holds_replicate (capacity : Nat) :
    Holds (Array.replicate capacity 0) (wordSum []) := by
  intro i hi
  have hi : i < capacity := by simpa using hi
  simp [wordSum, Array.getD_eq_getD_getElem?, hi]

theorem holds_fill {tree : Array Int64} {front : List Nat} (h : Holds tree (wordSum front))
    (slots : List Nat) : Holds (fill tree front.length slots) (wordSum (front ++ slots)) := by
  induction slots generalizing tree front with
  | nil => simpa [fill] using h
  | cons x rest ih =>
    have hx : Holds (add tree front.length (Int64.ofNat x)) (wordSum (front ++ [x])) := by
      have := holds_add h front.length (Int64.ofNat x)
      simpa only [← wordSum_append_one] using this
    have := ih hx
    simpa [fill] using this

theorem holds_ofSlots (capacity : Nat) (slots : List Nat) :
    Holds (ofSlots capacity slots) (wordSum slots) := by
  have h : Holds (Array.replicate capacity 0) (wordSum []) := holds_replicate capacity
  exact holds_fill h slots

/-- A node is the sum of the slots in its range. -/
theorem node_eq {tree : Array Int64} {slots : List Nat} (h : Holds tree (wordSum slots)) {i : Nat}
    (hi : i < tree.size) :
    tree.getD i 0 = Int64.ofNat ((slots.take (i + 1)).sum - (slots.take (first i)).sum) := by
  have hmono := sum_take_mono slots (Nat.le_succ_of_le (first_le i))
  have hsplit := Int64.ofNat_add ((slots.take (i + 1)).sum - (slots.take (first i)).sum)
    (slots.take (first i)).sum
  rw [Nat.sub_add_cancel hmono] at hsplit
  rw [h i hi, wordSum, wordSum, hsplit]
  grind

end LiveTail.Rows.PrefixTree
