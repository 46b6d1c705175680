import LiveTail.Number.Whole

/-! A binary indexed tree over slots numbered from zero.

Node `i` holds the sum of the slots from `i &&& (i + 1)` to `i`, so a change of
one slot touches one node per level (`add`) and a sum from the front reads one
node per level (`below`). A tree of `n` nodes covers slots `0` to `n - 1`;
changes past its end are not recorded. Sums are signed words and wrap around. -/
namespace LiveTail.Rows.PrefixTree

theorem lt_or_succ (i : Nat) : i < i ||| (i + 1) := Nat.right_le_or

/-- Adds `delta` to every node whose range holds slot `i`. -/
def add (tree : Array Int64) (i : Nat) (delta : Int64) : Array Int64 :=
  if h : i < tree.size then add (tree.set i (tree[i] + delta)) (i ||| (i + 1)) delta else tree
termination_by tree.size - i
decreasing_by
  have := lt_or_succ i
  simp only [Array.size_set]
  omega

/-- The sum of the first `n` slots. -/
def below (tree : Array Int64) : Nat → Int64
  | 0 => 0
  | n + 1 => tree.getD n 0 + below tree (n &&& (n + 1))
termination_by n => n
decreasing_by exact Nat.lt_succ_of_le Nat.and_le_left

/-- Adds the heights of consecutive slots, the first of them slot `i`. -/
def fill (tree : Array Int64) (i : Nat) : List Nat → Array Int64
  | [] => tree
  | h :: rest => fill (add tree i (Int64.ofNat h)) (i + 1) rest

/-- The tree of `capacity` nodes over the given slots. -/
def ofSlots (capacity : Nat) (slots : List Nat) : Array Int64 :=
  fill (Array.replicate capacity 0) 0 slots

@[simp] theorem size_add (tree : Array Int64) (i : Nat) (delta : Int64) :
    (add tree i delta).size = tree.size := by
  fun_induction add tree i delta with
  | case1 tree i h ih => simpa using ih
  | case2 => rfl

@[simp] theorem size_fill (tree : Array Int64) (i : Nat) (slots : List Nat) :
    (fill tree i slots).size = tree.size := by
  induction slots generalizing tree i with
  | nil => rfl
  | cons h rest ih => simp [fill, ih]

@[simp] theorem size_ofSlots (capacity : Nat) (slots : List Nat) :
    (ofSlots capacity slots).size = capacity := by
  simp [ofSlots]

end LiveTail.Rows.PrefixTree
