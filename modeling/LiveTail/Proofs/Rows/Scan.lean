import LiveTail.Proofs.Rows.HeightIndex
import LiveTail.Rows.Window

/-! The scan over all heights finds the rows that the index finds.

A row starts where the rows before it end. So the starts are the sums that the
index searches, and the last start on or before a line belongs to the first row
whose sum exceeds that line (`rowContaining_eq`). -/
namespace LiveTail.Rows
open HeightIndex PrefixTree

@[simp] theorem length_startsFrom (line : Nat) (rows : List Nat) :
    (startsFrom line rows).length = rows.length := by
  induction rows generalizing line with
  | nil => rfl
  | cons x rest ih => simp [startsFrom, ih]

theorem take_startsFrom (line : Nat) (rows : List Nat) (n : Nat) :
    (startsFrom line rows).take n = startsFrom line (rows.take n) := by
  induction rows generalizing line n with
  | nil => simp [startsFrom]
  | cons x rest ih =>
    cases n with
    | zero => rfl
    | succ n => simp [startsFrom, ih]

theorem drop_startsFrom (line : Nat) (rows : List Nat) (n : Nat) :
    (startsFrom line rows).drop n = startsFrom (line + (rows.take n).sum) (rows.drop n) := by
  induction rows generalizing line n with
  | nil => simp [startsFrom]
  | cons x rest ih =>
    cases n with
    | zero => simp [startsFrom]
    | succ n => simp [startsFrom, ih, Nat.add_assoc]

/-- The starts on or before a line are those of the first rows. -/
theorem takeWhile_startsFrom (first : Nat) (rows : List Nat) (line : Nat) :
    let k := ((startsFrom first rows).takeWhile (· ≤ line)).length
    k ≤ rows.length ∧ (∀ i < k, first + (rows.take i).sum ≤ line) ∧
      (k < rows.length → line < first + (rows.take k).sum) := by
  induction rows generalizing first with
  | nil => simp [startsFrom]
  | cons x rest ih =>
    simp only [startsFrom]
    by_cases hx : first ≤ line
    · obtain ⟨hle, hbefore, hbehind⟩ := ih (first + x)
      rw [List.takeWhile_cons_of_pos (by simpa using hx)]
      refine ⟨by simpa using hle, ?_, ?_⟩
      · intro i hi
        cases i with
        | zero => simpa using hx
        | succ i =>
          have := hbefore i (by simpa using hi)
          simpa [Nat.add_assoc] using this
      · intro hk
        have := hbehind (by simpa using hk)
        simpa [Nat.add_assoc] using this
    · rw [List.takeWhile_cons_of_neg (by simpa using hx)]
      simp
      omega

/-- The scan and the index agree on the row that holds a line; behind the end both
give the last row. -/
theorem rowContaining_eq {t : HeightIndex} (h : Valid t) (hfit : t.toList.sum < 2 ^ 63)
    (line : Nat) :
    rowContaining (startsFrom 0 t.toList) line = (t.rowAt? line).getD (t.size - 1) := by
  obtain ⟨hle, hbefore, hbehind⟩ := takeWhile_startsFrom 0 t.toList line
  simp only [Nat.zero_add] at hbefore hbehind
  rw [rowContaining]
  have hlen := size_eq t
  generalize ((startsFrom 0 t.toList).takeWhile (· ≤ line)).length = k at *
  cases hrow : t.rowAt? line with
  | none =>
    rw [rowAt?_eq_none_iff h hfit] at hrow
    have hk : k = t.size := by
      rcases Nat.lt_or_ge k t.toList.length with hlt | hge
      · have hup := hbehind hlt
        have hall := sum_take_le t.toList k
        omega
      · omega
    rw [hk, Option.getD_none]
  | some row =>
    obtain ⟨hlt, hup, hleast⟩ := (rowAt?_eq_some_iff h hfit line row).mp hrow
    have hk : k = row + 1 := by
      rcases Nat.lt_trichotomy k (row + 1) with hc | hc | hc
      · have hover := hbehind (by omega)
        cases row with
        | zero =>
          have hmono := sum_take_mono t.toList (m := k) (n := 0) (by omega)
          simp only [List.take_zero, List.sum_nil] at hmono
          have hzero := hbefore 0
          omega
        | succ row =>
          have hunder := hleast row (Nat.lt_succ_self row)
          have hmono := sum_take_mono t.toList (m := k) (n := row + 1) (by omega)
          omega
      · exact hc
      · have hunder := hbefore (row + 1) hc
        omega
    rw [hk, Option.getD_some, Nat.add_sub_cancel]

end LiveTail.Rows
