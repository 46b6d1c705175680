import LiveTail.Rows.PrefixTree

/-! Row heights with logarithmic sums and search.

Rows are numbered from the oldest one still held. Rows are appended at the back
(`push`), changed in place (`set`) and dropped from the front (`dropFront`). A
dropped row keeps its slot at height zero until dead slots outnumber live ones;
then the slots are compacted and the tree is rebuilt. Sums are therefore sums
over slots from the front, and dead slots add nothing to them. -/
namespace LiveTail.Rows

structure HeightIndex where
  tree : Array Int64
  /-- The height of every slot; dropped slots hold zero. -/
  slots : Array Nat
  /-- The slot of row zero. -/
  base : Nat
deriving Repr

/-- A row number that is not held. -/
structure OutOfBounds where
  row : Nat
  size : Nat
deriving DecidableEq, Repr

def OutOfBounds.message (e : OutOfBounds) : String :=
  "index " ++ toString e.row ++ " out of bounds (len: " ++ toString e.size ++ ")"

namespace HeightIndex

def ofCapacity (capacity : Nat) : HeightIndex := ⟨Array.replicate capacity 0, #[], 0⟩

instance : Inhabited HeightIndex := ⟨ofCapacity 0⟩

/-- The number of live rows. -/
def size (t : HeightIndex) : Nat := t.slots.size - t.base

def isEmpty (t : HeightIndex) : Bool := t.size == 0

/-- The heights of the live rows, oldest first. -/
def toList (t : HeightIndex) : List Nat := t.slots.toList.drop t.base

def height (t : HeightIndex) (row : Nat) : Nat := t.slots.getD (t.base + row) 0

/-- The sum of the heights up to and including `row`. -/
def sumThrough (t : HeightIndex) (row : Nat) : Nat :=
  (PrefixTree.below t.tree (t.base + row + 1)).toInt.toNat

/-- The line on which `row` starts. -/
def start (t : HeightIndex) (row : Nat) : Nat := t.sumThrough row - t.height row

def total (t : HeightIndex) : Nat := if t.size = 0 then 0 else t.sumThrough (t.size - 1)

/-- Changes the height of a live row. -/
def set (t : HeightIndex) (row height : Nat) : HeightIndex :=
  let delta := Int64.ofNat height - Int64.ofNat (t.height row)
  let ⟨tree, slots, base⟩ := t
  ⟨PrefixTree.add tree (base + row) delta, slots.setIfInBounds (base + row) height, base⟩

/-- The tree doubles when the slots outgrow it, and is then built afresh: a node
past the old end covers slots in front of it. -/
def push (t : HeightIndex) (height : Nat) : HeightIndex :=
  let ⟨tree, slots, base⟩ := t
  let slot := slots.size
  let slots := slots.push height
  if slot < tree.size then ⟨PrefixTree.add tree slot (Int64.ofNat height), slots, base⟩
  else ⟨PrefixTree.ofSlots (max (max tree.size 1 * 2) slots.size) slots.toList, slots, base⟩

/-- Zeroes the front row's slot. -/
def bury (t : HeightIndex) : HeightIndex :=
  let delta := -Int64.ofNat (t.height 0)
  let ⟨tree, slots, base⟩ := t
  ⟨PrefixTree.add tree base delta, slots.setIfInBounds base 0, base + 1⟩

/-- Buries rows from the front, and adds their heights to `removed`. -/
def buryMany (t : HeightIndex) (removed : Nat) : Nat → Nat × HeightIndex
  | 0 => (removed, t)
  | n + 1 =>
    let removed := removed + t.height 0
    t.bury.buryMany removed n

/-- Gives up the dead slots once they outnumber the live ones. -/
def compact (t : HeightIndex) : HeightIndex :=
  if t.size < t.base then
    let slots := t.slots.extract t.base t.slots.size
    ⟨PrefixTree.ofSlots (max t.tree.size slots.size) slots.toList, slots, 0⟩
  else t

/-- Drops the oldest `count` rows, or all when there are fewer, and gives the sum
of their heights. -/
def dropFront (t : HeightIndex) (count : Nat) : Nat × HeightIndex :=
  let buried := t.buryMany 0 (min count t.size)
  (buried.1, buried.2.compact)

/-- Forgets all rows and keeps the tree's size. -/
def clear (t : HeightIndex) : HeightIndex := ofCapacity t.tree.size

/-- Bisects for the first row of `left ..< right` whose sum exceeds `value`. -/
def bisect (t : HeightIndex) (value left right : Nat) : Nat :=
  if left < right then
    let mid := left + (right - left) / 2
    if value < t.sumThrough mid then t.bisect value left mid
    else t.bisect value (mid + 1) right
  else left
termination_by right - left

/-- The row that holds line `value`: the first whose sum exceeds it. -/
def rowAt? (t : HeightIndex) (value : Nat) : Option Nat :=
  let row := t.bisect value 0 t.size
  if row < t.size then some row else none

/-! ### Checked access -/

/-- Refuses a row number that is not held. -/
def check (t : HeightIndex) (row : Nat) : Except OutOfBounds Unit :=
  if row < t.size then .ok () else .error ⟨row, t.size⟩

def height? (t : HeightIndex) (row : Nat) : Except OutOfBounds Nat := do
  t.check row
  return t.height row

def sumThrough? (t : HeightIndex) (row : Nat) : Except OutOfBounds Nat := do
  t.check row
  return t.sumThrough row

def start? (t : HeightIndex) (row : Nat) : Except OutOfBounds Nat := do
  t.check row
  return t.start row

/-- Changes a height and gives the one it replaces. -/
def set? (t : HeightIndex) (row height : Nat) : Except OutOfBounds (Nat × HeightIndex) := do
  t.check row
  return (t.height row, t.set row height)

end HeightIndex
end LiveTail.Rows
