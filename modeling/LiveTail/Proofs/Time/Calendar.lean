import LiveTail.Time.Calendar

/-! Days and dates correspond.

A day number lies in exactly one year (`yearOf_spec`) and in one month of it
(`split_spec`), so the date of a day exists and has that day as its number. -/
namespace LiveTail.Time

namespace Calendar

theorem sum_months (year : Int) :
    ((months year).sum : Int) = yearStart (year + 1) - yearStart year := by
  have hsum : (months year).sum = 365 + if isLeap year then 1 else 0 := by
    rw [months]
    split <;> rfl
  rw [hsum, yearStart, yearStart]
  by_cases h : isLeap year = true
  · have hleap := h
    simp only [isLeap, Bool.and_eq_true, Bool.or_eq_true, beq_iff_eq, bne_iff_ne] at hleap
    rw [if_pos h]
    omega
  · have hleap := h
    simp only [isLeap, Bool.and_eq_true, Bool.or_eq_true, beq_iff_eq, bne_iff_ne] at hleap
    rw [if_neg h]
    omega

theorem yearStart_mono {a b : Int} (h : a ≤ b) : yearStart a ≤ yearStart b := by
  rcases Int.lt_or_eq_of_le h with hlt | rfl
  · simp only [yearStart]
    omega
  · exact Int.le_refl _

/-- The year of a day begins on or before it and ends after it. -/
theorem yearOf_spec (day : Int) :
    yearStart (yearOf day) ≤ day ∧ day < yearStart (yearOf day + 1) := by
  -- The quotient leaves the two years beside it; the comparisons decide.
  have hbelow : yearStart (400 * day / 146097 - 1) ≤ day := by
    simp only [yearStart]
    omega
  have habove : day < yearStart (400 * day / 146097 + 1 + 1) := by
    simp only [yearStart]
    omega
  rw [yearOf]
  split
  next h => exact ⟨h, habove⟩
  next h =>
    split
    next hlt => exact ⟨hbelow, by rwa [Int.sub_add_cancel]⟩
    next hle => exact ⟨Int.not_lt.mp hle, Int.not_le.mp h⟩

theorem getD_months_le (year : Int) (month : Nat) : (months year).getD month 0 ≤ 31 := by
  rcases Nat.lt_or_ge month 12 with hlt | hge
  · have key : ∀ (leap : Bool) (month : Fin 12),
        [31, if leap then 29 else 28, 31, 30, 31, 30, 31, 31, 30, 31, 30, 31].getD month.1 0 ≤ 31 := by
      decide
    exact key (isLeap year) ⟨month, hlt⟩
  · have hnone : (months year)[month]? = none := List.getElem?_eq_none hge
    simp [List.getD_eq_getElem?_getD, hnone]

/-- A day of the year falls into one of the months. -/
theorem split_spec {sizes : List Nat} {day : Nat} (h : day < sizes.sum) :
    (split day sizes).1 < sizes.length ∧
      (split day sizes).2 < sizes.getD (split day sizes).1 0 ∧
      (sizes.take (split day sizes).1).sum + (split day sizes).2 = day := by
  induction sizes generalizing day with
  | nil => simp at h
  | cons size rest ih =>
    rw [split]
    split
    next hday => simpa using hday
    next hday =>
      rw [List.sum_cons] at h
      obtain ⟨hmonth, hsize, hsum⟩ := ih (show day - size < rest.sum by omega)
      simp only [List.length_cons, List.getD_cons_succ, List.take_succ_cons, List.sum_cons]
      omega

end Calendar

namespace Date
open Calendar

/-- The date of a day exists, and the day is its number. -/
theorem ofDayNumber_spec (day : Int) :
    (ofDayNumber day).valid = true ∧ (ofDayNumber day).dayNumber = day ∧
      (ofDayNumber day).month ≤ 12 ∧ (ofDayNumber day).day ≤ 31 := by
  obtain ⟨hstart, hstop⟩ := yearOf_spec (day + epoch)
  have hsum := sum_months (yearOf (day + epoch))
  have hday : (day + epoch - yearStart (yearOf (day + epoch))).toNat <
      (months (yearOf (day + epoch))).sum := by omega
  obtain ⟨hmonth, hsize, htake⟩ := split_spec hday
  have hmost := getD_months_le (yearOf (day + epoch))
    (split (day + epoch - yearStart (yearOf (day + epoch))).toNat
      (months (yearOf (day + epoch)))).1
  rw [show (months (yearOf (day + epoch))).length = 12 from rfl] at hmonth
  refine ⟨?_, ?_, hmonth, Nat.lt_of_lt_of_le hsize hmost⟩
  · simp only [valid, ofDayNumber, Nat.add_sub_cancel, Bool.and_eq_true, decide_eq_true_eq]
    exact ⟨⟨by simp, by simp⟩, hsize⟩
  · simp only [dayNumber, ofDayNumber, Nat.add_sub_cancel]
    omega

end Date
end LiveTail.Time
