import LiveTail.Proofs.Rows.PrefixTree
import LiveTail.Rows.HeightIndex

/-! The height index is a list of heights.

Whatever slots are dead and however the tree has grown, what an index answers is
what the list of its live heights (`toList`) says. `Valid` is the invariant: dead
slots hold zero, and the tree holds the sums of all slots. Every operation keeps it
and has its equation on `toList`; the answers follow from it alone (`agrees`), as
long as the heights add up to a signed word. -/
namespace LiveTail.Rows.HeightIndex
open PrefixTree

/-- Dead slots of height zero in front of the live ones, and a tree over them all. -/
structure Valid (t : HeightIndex) : Prop where
  slots : t.slots.toList = List.replicate t.base 0 ++ t.toList
  fits : t.slots.size ≤ t.tree.size
  sums : Holds t.tree (wordSum t.slots.toList)

/-! ### The list behind an index -/

theorem size_eq (t : HeightIndex) : t.size = t.toList.length := by
  simp [size, toList]

theorem isEmpty_iff (t : HeightIndex) : t.isEmpty = true ↔ t.toList = [] := by
  rw [isEmpty, size_eq, beq_iff_eq, List.length_eq_zero_iff]

theorem height_eq (t : HeightIndex) (row : Nat) : t.height row = t.toList.getD row 0 := by
  simp [height, toList, Array.getD_eq_getD_getElem?]

/-- The heights of consecutive rows, asked for one by one. -/
theorem map_height_range' (t : HeightIndex) {row n : Nat} (h : row + n ≤ t.size) :
    (List.range' row n).map t.height = (t.toList.drop row).take n := by
  rw [size_eq] at h
  apply List.ext_getElem
  · simp
    omega
  · intro i hi hi'
    have hlt : row + i < t.toList.length := by
      simp at hi
      omega
    simp [height_eq, hlt]

theorem rowAt?_lt {t : HeightIndex} {value row : Nat} (h : t.rowAt? value = some row) :
    row < t.size := by
  simp only [rowAt?, Option.ite_none_right_eq_some, Option.some.injEq] at h
  omega

theorem Valid.slots_size {t : HeightIndex} (h : Valid t) : t.slots.size = t.base + t.size := by
  have := congrArg List.length h.slots
  rw [size_eq]
  simpa using this

/-- The slots from a list of heights behind dead ones. -/
theorem valid_of_slots {t : HeightIndex} {rows : List Nat}
    (hslots : t.slots.toList = List.replicate t.base 0 ++ rows) (hfits : t.slots.size ≤ t.tree.size)
    (hsums : Holds t.tree (wordSum t.slots.toList)) : Valid t ∧ t.toList = rows := by
  have hrows : t.toList = rows := by
    rw [toList, hslots, List.drop_left' (by simp)]
  exact ⟨⟨by rw [hrows, hslots], hfits, hsums⟩, hrows⟩

/-! ### Operations -/

theorem valid_ofCapacity (capacity : Nat) :
    Valid (ofCapacity capacity) ∧ (ofCapacity capacity).toList = [] := by
  have hslots : (ofCapacity capacity).slots.toList = List.replicate 0 0 ++ [] := rfl
  exact valid_of_slots hslots (Nat.zero_le _) (holds_replicate capacity)

theorem valid_clear (t : HeightIndex) : Valid t.clear ∧ t.clear.toList = [] :=
  valid_ofCapacity t.tree.size

theorem valid_push {t : HeightIndex} (h : Valid t) (x : Nat) :
    Valid (t.push x) ∧ (t.push x).toList = t.toList ++ [x] := by
  have hfits := h.fits
  have hslots : (t.slots.push x).toList = List.replicate t.base 0 ++ (t.toList ++ [x]) := by
    rw [Array.toList_push, h.slots, List.append_assoc]
  simp only [push]
  split
  next hlt =>
    refine valid_of_slots hslots (by simpa using Nat.succ_le_of_lt hlt) ?_
    have hadd := holds_add h.sums t.slots.size (Int64.ofNat x)
    simp only [← Array.length_toList, ← wordSum_append_one] at hadd
    simpa using hadd
  next hge =>
    refine valid_of_slots hslots ?_ (holds_ofSlots _ _)
    simp only [size_ofSlots]
    omega

/-- A change of one slot changes the sums behind it. -/
theorem wordSum_set (slots : List Nat) {i : Nat} (hi : i < slots.length) (x n : Nat) :
    wordSum (slots.set i x) n =
      wordSum slots n + if i < n then Int64.ofNat x - Int64.ofNat slots[i] else 0 := by
  simp only [wordSum]
  induction slots generalizing i n with
  | nil => simp at hi
  | cons y rest ih =>
    cases n with
    | zero => simp
    | succ n =>
      cases i with
      | zero =>
        simp only [List.set_cons_zero, List.take_succ_cons, List.sum_cons, Int64.ofNat_add,
          List.getElem_cons_zero, Nat.zero_lt_succ, if_true]
        grind
      | succ i =>
        have := ih (i := i) (by simpa using hi) n
        simp only [List.set_cons_succ, List.take_succ_cons, List.sum_cons, Int64.ofNat_add,
          List.getElem_cons_succ, this, Nat.succ_lt_succ_iff]
        grind

theorem valid_set {t : HeightIndex} (h : Valid t) {row : Nat} (hrow : row < t.size) (x : Nat) :
    Valid (t.set row x) ∧ (t.set row x).toList = t.toList.set row x := by
  have hsize := h.slots_size
  have hslot : t.base + row < t.slots.toList.length := by
    rw [Array.length_toList]
    omega
  have hold : t.slots.toList[t.base + row] = t.height row := by
    simp only [height, Array.getD_eq_getD_getElem?]
    rw [Array.getElem?_eq_getElem (by simpa using hslot)]
    simp
  simp only [set]
  refine valid_of_slots ?_ (by simpa using h.fits) ?_
  · rw [Array.toList_setIfInBounds, h.slots, List.set_append_right _ _ (by simp)]
    simp
  · have hadd := holds_add h.sums (t.base + row) (Int64.ofNat x - Int64.ofNat (t.height row))
    rw [← hold] at hadd ⊢
    simp only [← wordSum_set _ hslot] at hadd
    simpa using hadd

/-- The front row's slot is set to zero and left behind. -/
theorem bury_eq (t : HeightIndex) : t.bury = { t.set 0 0 with base := t.base + 1 } := by
  simp [bury, set]

theorem valid_bury {t : HeightIndex} (h : Valid t) (hne : 0 < t.size) :
    Valid t.bury ∧ t.bury.toList = t.toList.tail := by
  obtain ⟨hset, hlist⟩ := valid_set h hne 0
  have hrows : t.toList = t.height 0 :: t.toList.tail := by
    rw [size_eq] at hne
    obtain ⟨x, rest, hx⟩ := List.exists_cons_of_length_pos hne
    simp [height_eq, hx]
  rw [bury_eq]
  refine valid_of_slots ?_ hset.fits hset.sums
  have hbase : (t.set 0 0).base = t.base := rfl
  rw [hset.slots, hlist, hbase, hrows, List.set_cons_zero, List.tail_cons,
    List.replicate_succ', List.append_assoc]
  rfl

theorem valid_buryMany {t : HeightIndex} (h : Valid t) (removed : Nat) {n : Nat}
    (hn : n ≤ t.size) :
    (t.buryMany removed n).1 = removed + (t.toList.take n).sum ∧
      Valid (t.buryMany removed n).2 ∧ (t.buryMany removed n).2.toList = t.toList.drop n := by
  induction n generalizing t removed with
  | zero => simp [buryMany, h]
  | succ n ih =>
    obtain ⟨hbury, hlist⟩ := valid_bury h (by omega)
    have hle : n ≤ t.bury.size := by
      rw [size_eq, hlist, List.length_tail, ← size_eq]
      omega
    obtain ⟨hsum, hvalid, hdrop⟩ := ih hbury (removed + t.height 0) hle
    have hne : t.toList ≠ [] := by
      intro hnil
      rw [size_eq, hnil] at hn
      simp at hn
    obtain ⟨x, rest, hx⟩ := List.exists_cons_of_ne_nil hne
    refine ⟨?_, hvalid, ?_⟩
    · rw [buryMany, hsum, hlist, height_eq, hx]
      simp [Nat.add_assoc]
    · rw [buryMany, hdrop, hlist, List.drop_tail]

theorem valid_compact {t : HeightIndex} (h : Valid t) :
    Valid t.compact ∧ t.compact.toList = t.toList := by
  unfold compact
  split
  next =>
    have hlive : (t.slots.extract t.base t.slots.size).toList = t.toList := by
      rw [Array.toList_extract, List.extract_eq_take_drop, toList, List.take_of_length_le]
      simp
    refine valid_of_slots ?_ ?_ (holds_ofSlots _ _)
    · rw [hlive]
      rfl
    · simp only [size_ofSlots]
      omega
  next => exact ⟨h, rfl⟩

theorem valid_dropFront {t : HeightIndex} (h : Valid t) (count : Nat) :
    (t.dropFront count).1 = (t.toList.take count).sum ∧
      Valid (t.dropFront count).2 ∧ (t.dropFront count).2.toList = t.toList.drop count := by
  obtain ⟨hsum, hvalid, hlist⟩ := valid_buryMany h 0 (Nat.min_le_right count t.size)
  obtain ⟨hcompact, hsame⟩ := valid_compact hvalid
  refine ⟨?_, hcompact, ?_⟩
  · rw [dropFront, hsum, size_eq, ← List.take_eq_take_min, Nat.zero_add]
  · rw [dropFront, hsame, hlist, size_eq]
    exact (List.drop_eq_drop_min ..).symm

/-! ### Answers -/

/-- Dead slots add nothing to the sums over live ones. -/
theorem below_live {t : HeightIndex} (h : Valid t) {n : Nat} (hn : n ≤ t.size) :
    below t.tree (t.base + n) = Int64.ofNat (t.toList.take n).sum := by
  have hsize := h.slots_size
  have hfits := h.fits
  have hzero : wordSum t.slots.toList 0 = 0 := rfl
  have hlive : wordSum t.slots.toList (t.base + n) = Int64.ofNat (t.toList.take n).sum := by
    rw [wordSum, h.slots, List.take_append, List.sum_append]
    simp [List.take_replicate]
  rw [below_eq h.sums (by omega), hlive, hzero]
  grind

theorem sumThrough_eq {t : HeightIndex} (h : Valid t) (hfit : t.toList.sum < 2 ^ 63) {row : Nat}
    (hrow : row < t.size) : t.sumThrough row = (t.toList.take (row + 1)).sum := by
  have hle := sum_take_le t.toList (row + 1)
  rw [sumThrough, Nat.add_assoc, below_live h (n := row + 1) hrow,
    Int64.toInt_ofNat_of_lt (by omega)]
  rfl

theorem start_eq {t : HeightIndex} (h : Valid t) (hfit : t.toList.sum < 2 ^ 63) {row : Nat}
    (hrow : row < t.size) : t.start row = (t.toList.take row).sum := by
  have hlen : row < t.toList.length := by rwa [← size_eq]
  rw [start, sumThrough_eq h hfit hrow, height_eq, sum_take_succ _ hlen]
  simp [hlen]

theorem total_eq {t : HeightIndex} (h : Valid t) (hfit : t.toList.sum < 2 ^ 63) :
    t.total = t.toList.sum := by
  unfold total
  split
  next hnone =>
    rw [size_eq, List.length_eq_zero_iff] at hnone
    simp [hnone]
  next hsome =>
    rw [sumThrough_eq h hfit (by omega), size_eq, List.take_of_length_le (by omega)]

/-- The bisection ends at the first row whose sum exceeds `value`. -/
theorem bisect_spec {t : HeightIndex} (h : Valid t) (hfit : t.toList.sum < 2 ^ 63)
    (value left right : Nat) (hle : left ≤ right) (hright : right ≤ t.size)
    (hbefore : ∀ row < left, (t.toList.take (row + 1)).sum ≤ value)
    (hbehind : ∀ row, right ≤ row → row < t.size → value < (t.toList.take (row + 1)).sum) :
    t.bisect value left right ≤ right ∧
      (∀ row < t.bisect value left right, (t.toList.take (row + 1)).sum ≤ value) ∧
      ∀ row, t.bisect value left right ≤ row → row < t.size →
        value < (t.toList.take (row + 1)).sum := by
  fun_induction bisect t value left right with
  | case1 left right hlt mid hsum ih =>
    rw [sumThrough_eq h hfit (by omega)] at hsum
    obtain ⟨hend, hspec⟩ := ih (by omega) (by omega) hbefore fun row hrow _ =>
      Nat.lt_of_lt_of_le hsum (sum_take_mono _ (by omega))
    exact ⟨by omega, hspec⟩
  | case2 left right hlt mid hsum ih =>
    rw [sumThrough_eq h hfit (by omega)] at hsum
    exact ih (by omega) hright
      (fun row hrow => Nat.le_trans (sum_take_mono _ (by omega)) (Nat.le_of_not_lt hsum)) hbehind
  | case3 left right hge =>
    exact ⟨hle, hbefore, fun row hrow => hbehind row (by omega)⟩

theorem rowAt?_eq_some_iff {t : HeightIndex} (h : Valid t) (hfit : t.toList.sum < 2 ^ 63)
    (value row : Nat) :
    t.rowAt? value = some row ↔ row < t.size ∧ value < (t.toList.take (row + 1)).sum ∧
      ∀ r < row, (t.toList.take (r + 1)).sum ≤ value := by
  obtain ⟨-, hbefore, hbehind⟩ := bisect_spec h hfit value 0 t.size (Nat.zero_le _)
    (Nat.le_refl _) (fun r hr => absurd hr (Nat.not_lt_zero r))
    (fun r hr hlt => absurd hr (Nat.not_le_of_lt hlt))
  simp only [rowAt?, Option.ite_none_right_eq_some, Option.some.injEq]
  constructor
  · rintro ⟨hlt, rfl⟩
    exact ⟨hlt, hbehind _ (Nat.le_refl _) hlt, hbefore⟩
  · rintro ⟨hlt, hrow, hleast⟩
    have heq : t.bisect value 0 t.size = row := by
      rcases Nat.lt_trichotomy (t.bisect value 0 t.size) row with hc | hc | hc
      · have hup := hbehind _ (Nat.le_refl _) (Nat.lt_trans hc hlt)
        have hdown := hleast _ hc
        omega
      · exact hc
      · have hdown := hbefore _ hc
        omega
    rw [heq]
    exact ⟨hlt, rfl⟩

theorem rowAt?_eq_none_iff {t : HeightIndex} (h : Valid t) (hfit : t.toList.sum < 2 ^ 63)
    (value : Nat) : t.rowAt? value = none ↔ t.toList.sum ≤ value := by
  obtain ⟨hend, hbefore, hbehind⟩ := bisect_spec h hfit value 0 t.size (Nat.zero_le _)
    (Nat.le_refl _) (fun r hr => absurd hr (Nat.not_lt_zero r))
    (fun r hr hlt => absurd hr (Nat.not_le_of_lt hlt))
  simp only [rowAt?, ite_eq_right_iff, reduceCtorEq, imp_false, Nat.not_lt]
  have hlen := size_eq t
  constructor
  · intro hge
    rcases Nat.eq_zero_or_pos t.size with hnone | hpos
    · rw [hlen, List.length_eq_zero_iff] at hnone
      simp [hnone]
    · have hlast := hbefore (t.size - 1) (by omega)
      rwa [List.take_of_length_le (by omega)] at hlast
  · intro htotal
    rcases Nat.lt_or_ge (t.bisect value 0 t.size) t.size with hlt | hge
    · have hrow := hbehind _ (Nat.le_refl _) hlt
      have hle := sum_take_le t.toList (t.bisect value 0 t.size + 1)
      omega
    · exact hge

/-- What the index tells about its rows is what their heights tell. -/
structure Agrees (t : HeightIndex) (rows : List Nat) : Prop where
  size : t.size = rows.length
  height : ∀ row (h : row < rows.length), t.height? row = .ok rows[row]
  sumThrough : ∀ row < rows.length, t.sumThrough? row = .ok (rows.take (row + 1)).sum
  start : ∀ row < rows.length, t.start? row = .ok (rows.take row).sum
  /-- The difference that gives the start of a row is not cut off at zero. -/
  height_le : ∀ row < rows.length, t.height row ≤ t.sumThrough row
  total : t.total = rows.sum
  rowAt : ∀ value row, t.rowAt? value = some row ↔ row < rows.length ∧
    value < (rows.take (row + 1)).sum ∧ ∀ r < row, (rows.take (r + 1)).sum ≤ value
  rowAt_none : ∀ value, t.rowAt? value = none ↔ rows.sum ≤ value
  /-- A row that is not held is refused. -/
  refused : ∀ row, rows.length ≤ row →
    t.height? row = .error ⟨row, rows.length⟩ ∧ t.sumThrough? row = .error ⟨row, rows.length⟩ ∧
      t.start? row = .error ⟨row, rows.length⟩ ∧
      ∀ height, t.set? row height = .error ⟨row, rows.length⟩
  /-- No sum in the tree leaves the range of a signed word. -/
  nodes : ∀ i < t.tree.size, 0 ≤ (t.tree.getD i 0).toInt ∧ (t.tree.getD i 0).toInt ≤ rows.sum

theorem check_live {t : HeightIndex} {row : Nat} (h : row < t.size) : t.check row = .ok () :=
  if_pos h

theorem check_dead {t : HeightIndex} {row : Nat} (h : t.size ≤ row) :
    t.check row = .error ⟨row, t.size⟩ := if_neg (Nat.not_lt_of_le h)

theorem sum_slots {t : HeightIndex} (h : Valid t) : t.slots.toList.sum = t.toList.sum := by
  rw [h.slots, List.sum_append]
  simp

theorem node_range {t : HeightIndex} (h : Valid t) (hfit : t.toList.sum < 2 ^ 63) {i : Nat}
    (hi : i < t.tree.size) :
    0 ≤ (t.tree.getD i 0).toInt ∧ (t.tree.getD i 0).toInt ≤ t.toList.sum := by
  have htotal := sum_slots h
  have hle := sum_take_le t.slots.toList (i + 1)
  rw [node_eq h.sums hi, Int64.toInt_ofNat_of_lt (by omega)]
  omega

theorem agrees {t : HeightIndex} (h : Valid t) (hfit : t.toList.sum < 2 ^ 63) :
    Agrees t t.toList := by
  have hlen := size_eq t
  constructor
  case size => exact hlen
  case height =>
    intro row hrow
    have hheight : t.height row = t.toList[row] := by
      rw [height_eq, List.getD_eq_getElem?_getD, List.getElem?_eq_getElem hrow, Option.getD_some]
    rw [height?, check_live (by omega), hheight]
    rfl
  case sumThrough =>
    intro row hrow
    rw [sumThrough?, check_live (by omega), sumThrough_eq h hfit (by omega)]
    rfl
  case start =>
    intro row hrow
    rw [start?, check_live (by omega), start_eq h hfit (by omega)]
    rfl
  case height_le =>
    intro row hrow
    rw [sumThrough_eq h hfit (by omega), sum_take_succ _ hrow, height_eq]
    simp [hrow]
  case total => exact total_eq h hfit
  case rowAt =>
    intro value row
    rw [rowAt?_eq_some_iff h hfit, hlen]
  case rowAt_none => exact rowAt?_eq_none_iff h hfit
  case refused =>
    intro row hrow
    have hdead : t.size ≤ row := by omega
    simp only [height?, sumThrough?, start?, set?, check_dead hdead, hlen]
    exact ⟨rfl, rfl, rfl, fun _ => rfl⟩
  case nodes => exact fun i hi => node_range h hfit hi

/-! ### Edits -/

/-- A call that may change an index. -/
inductive Edit where
  | push (height : Nat)
  | set (row height : Nat)
  | dropFront (count : Nat)
  | clear
deriving DecidableEq, Repr

/-- What a call gives back, unless it is refused: a height, a sum or nothing. -/
abbrev Answer := Except OutOfBounds (Option Nat)

def edit (t : HeightIndex) : Edit → Answer × HeightIndex
  | .push x => (.ok none, t.push x)
  | .set row x =>
    match t.set? row x with
    | .ok (old, t) => (.ok (some old), t)
    | .error e => (.error e, t)
  | .dropFront count => (.ok (some (t.dropFront count).1), (t.dropFront count).2)
  | .clear => (.ok none, t.clear)

/-- The same call on a list of heights. -/
def editList (rows : List Nat) : Edit → Answer × List Nat
  | .push x => (.ok none, rows ++ [x])
  | .set row x =>
    if h : row < rows.length then (.ok (some rows[row]), rows.set row x)
    else (.error ⟨row, rows.length⟩, rows)
  | .dropFront count =>
    let count := min count rows.length
    (.ok (some (rows.take count).sum), rows.drop count)
  | .clear => (.ok none, [])

/-- The answers to calls made one after the other, and the last state. -/
def runEdits {σ : Type} (step : σ → Edit → Answer × σ) (s : σ) : List Edit → List Answer × σ
  | [] => ([], s)
  | e :: rest =>
    let later := runEdits step (step s e).2 rest
    ((step s e).1 :: later.1, later.2)

theorem edit_eq {t : HeightIndex} (h : Valid t) (e : Edit) :
    (t.edit e).1 = (editList t.toList e).1 ∧
      Valid (t.edit e).2 ∧ (t.edit e).2.toList = (editList t.toList e).2 := by
  cases e with
  | push x => exact ⟨rfl, valid_push h x⟩
  | set row x =>
    have hlen := size_eq t
    simp only [edit, editList, set?]
    by_cases hrow : row < t.size
    · rw [check_live hrow, dif_pos (by omega)]
      refine ⟨?_, valid_set h hrow x⟩
      show Except.ok (some (t.height row)) = _
      rw [height_eq]
      simp [← hlen, hrow]
    · rw [check_dead (Nat.le_of_not_lt hrow), dif_neg (by omega)]
      exact ⟨by rw [hlen]; rfl, h, rfl⟩
  | dropFront count =>
    obtain ⟨hsum, hvalid, hlist⟩ := valid_dropFront h count
    simp only [edit, editList, hsum, hlist, ← List.take_eq_take_min, ← List.drop_eq_drop_min]
    exact ⟨trivial, hvalid, trivial⟩
  | clear => exact ⟨rfl, valid_clear t⟩

theorem runEdits_eq {t : HeightIndex} (h : Valid t) (edits : List Edit) :
    (runEdits edit t edits).1 = (runEdits editList t.toList edits).1 ∧
      Valid (runEdits edit t edits).2 ∧
      (runEdits edit t edits).2.toList = (runEdits editList t.toList edits).2 := by
  induction edits generalizing t with
  | nil => exact ⟨rfl, h, rfl⟩
  | cons e rest ih =>
    obtain ⟨hanswer, hvalid, hlist⟩ := edit_eq h e
    obtain ⟨hlater, hend⟩ := ih hvalid
    simp only [runEdits]
    rw [hanswer, hlater, ← hlist]
    exact ⟨rfl, hend⟩

/-- **An index is a list of heights**: from any capacity and through any calls, it
gives back what the list gives back, and tells about its rows what the list tells
as long as the heights add up to a signed word. -/
theorem runEdits_agrees (capacity : Nat) (edits : List Edit)
    (hfit : (runEdits editList [] edits).2.sum < 2 ^ 63) :
    (runEdits edit (ofCapacity capacity) edits).1 = (runEdits editList [] edits).1 ∧
      Agrees (runEdits edit (ofCapacity capacity) edits).2 (runEdits editList [] edits).2 := by
  obtain ⟨hvalid, hempty⟩ := valid_ofCapacity capacity
  obtain ⟨hanswers, hend, hlist⟩ := runEdits_eq hvalid edits
  rw [hempty] at hanswers hlist
  rw [← hlist] at hfit ⊢
  exact ⟨hanswers, agrees hend hfit⟩

/-- Growth from no nodes at all, a row without height, a refusal, eviction with
compaction, and a row after it. -/
theorem runEdits_agrees_grown :
    let edits : List Edit :=
      [.push 3, .push 0, .push 5, .set 1 4, .set 7 1, .dropFront 2, .push 2]
    (runEdits editList [] edits).2.sum < 2 ^ 63 ∧
      (runEdits edit (ofCapacity 0) edits).1 = (runEdits editList [] edits).1 ∧
      Agrees (runEdits edit (ofCapacity 0) edits).2 (runEdits editList [] edits).2 :=
  ⟨by decide, runEdits_agrees 0 _ (by decide)⟩

end LiveTail.Rows.HeightIndex
