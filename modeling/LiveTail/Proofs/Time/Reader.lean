import LiveTail.Proofs.Number.Numeral
import LiveTail.Proofs.Time.Calendar
import LiveTail.Time.Reader
import Mathlib.Data.List.TakeWhile

/-! An instant is read back from its text.

The text of an instant has fields of fixed width and a zone as long as the year
needs no sign. Each field is written with padding, so it is read whatever follows
it; the fraction ends at the zone. -/
namespace LiveTail.Time
open Number

/-- The nanoseconds of a second, or of the leap second that ends a minute. -/
def Instant.Valid (t : Instant) : Prop :=
  t.nanos < second ∨ (t.seconds % 60 = 59 ∧ t.nanos < 2 * second)

/-- The year is written without a sign. -/
def Instant.Unsigned (t : Instant) : Prop := 0 ≤ t.date.year ∧ t.date.year ≤ 9999

/-- The instant that the text of an instant stands for: a leap second that ends no minute
reads as the second after it. -/
def Instant.settled (t : Instant) : Instant :=
  if t.seconds % 60 = 59 ∨ t.nanos < second then t else ⟨t.seconds + 1, t.nanos - second⟩

namespace Reader

/-- Digits are read to their end, which is where no digit follows or no more are wanted. -/
theorem number_digits {least most : Nat} {digits rest : List Char}
    (hdigits : ∀ c ∈ digits, c.isDigit) (hleast : least ≤ digits.length)
    (hmost : digits.length ≤ most) (hend : Numeral.NoDigit rest ∨ digits.length = most) :
    number least most (digits ++ rest) = some (Numeral.value digits, rest) := by
  have hstop : (rest.take (most - digits.length)).takeWhile Char.isDigit = [] := by
    rcases hend with hrest | hlength
    · cases rest with
      | nil => simp
      | cons c rest => cases most - digits.length <;> simp [hrest c rfl]
    · rw [hlength, Nat.sub_self, List.take_zero, List.takeWhile_nil]
  have hfront : ((digits ++ rest).take most).takeWhile Char.isDigit = digits := by
    rw [List.take_append, List.take_of_length_le hmost, List.takeWhile_append_of_pos hdigits, hstop,
      List.append_nil]
  rw [number, hfront]
  simp only [Nat.not_lt.mpr hleast, if_false, List.drop_left]

theorem number_padded {width n : Nat} (hwidth : 0 < width) (h : n < 10 ^ width)
    (rest : List Char) : number width width (Numeral.padded width n ++ rest) = some (n, rest) := by
  have hlength := Numeral.length_padded hwidth h
  rw [number_digits (fun _ => Numeral.isDigit_of_mem_padded) (Nat.le_of_eq hlength.symm)
    (Nat.le_of_eq hlength) (.inr hlength), Numeral.value_padded]

theorem number_two {n : Nat} (h : n < 100) (rest : List Char) :
    number 2 2 (Numeral.padded 2 n ++ rest) = some (n, rest) :=
  number_padded (by decide) h rest

@[simp] theorem mark_cons (c : Char) (rest : List Char) : mark c (c :: rest) = some ((), rest) :=
  if_pos rfl

@[simp] theorem separator_cons (rest : List Char) : separator ('T' :: rest) = some ((), rest) := by
  simp [separator]

theorem fraction_padded {width n : Nat} (hwidth : 0 < width) (hmost : width ≤ 9)
    (h : n < 10 ^ width) {rest : List Char} (hrest : Numeral.NoDigit rest) :
    fraction ('.' :: (Numeral.padded width n ++ rest)) = some (n * 10 ^ (9 - width), rest) := by
  have hlength := Numeral.length_padded hwidth h
  have hnine : (Numeral.padded width n).take 9 = Numeral.padded width n :=
    List.take_of_length_le (by omega)
  have hsome : (Numeral.padded width n).isEmpty = false := by
    rw [List.isEmpty_eq_false_iff_exists_mem]
    exact List.exists_mem_of_length_pos (by omega)
  rw [fraction, Numeral.span_of_digits (fun c hc => Numeral.isDigit_of_mem_padded hc) hrest]
  simp only [hsome, hnine, hlength, Numeral.value_padded]
  rfl

/-- The digits left out of a fraction are zeros. -/
theorem fraction_fractionText {nanos : Nat} (h : nanos < Instant.second) :
    fraction (Instant.fractionText nanos ++ ['Z']) = some (nanos, ['Z']) := by
  have hstop : Numeral.NoDigit ['Z'] := Numeral.noDigit_cons rfl []
  rw [Instant.second] at h
  fun_cases Instant.fractionText nanos
  case case1 hzero =>
    rw [hzero]
    rfl
  -- Three, six or nine digits are written; only zeros are left out.
  all_goals
    rw [List.cons_append, fraction_padded (by decide) (by decide) (by omega) hstop]
    congr 2
    omega

end Reader

namespace Instant

/-! ### Leap seconds that end no minute -/

theorem Valid.nanos_lt {t : Instant} (h : t.Valid) : t.nanos < 2 * second := by
  rw [Valid] at h
  omega

theorem settled_eq_iff {t : Instant} (h : t.nanos < 2 * second) : t.settled = t ↔ t.Valid := by
  have hvalid : t.Valid ↔ t.seconds % 60 = 59 ∨ t.nanos < second := by
    rw [Valid]
    omega
  rw [hvalid, settled]
  split
  next hsettled => exact iff_of_true rfl hsettled
  next hopen =>
    refine iff_of_false (fun heq => ?_) hopen
    have hseconds := congrArg Instant.seconds heq
    dsimp only at hseconds
    omega

theorem valid_settled {t : Instant} (h : t.nanos < 2 * second) : t.settled.Valid := by
  unfold settled
  split
  next hsettled => exact hsettled.elim (fun hends => .inr ⟨hends, h⟩) .inl
  next =>
    refine .inl ?_
    dsimp only
    omega

theorem date_settled (t : Instant) : t.settled.date = t.date := by
  unfold settled
  split
  next => rfl
  next hopen =>
    rw [date, date]
    congr 1
    dsimp only
    omega

theorem clock_settled {t : Instant} (h : t.nanos < 2 * second) : t.settled.clock = t.clock := by
  unfold settled
  split
  next => rfl
  next hopen =>
    rw [second] at *
    simp only [clock, second, Clock.mk.injEq]
    omega

/-- Both are written the same. -/
theorem text_settled {t : Instant} (h : t.nanos < 2 * second) : t.settled.text = t.text := by
  rw [text, text, date_settled, clock_settled h]

/-! ### Days and clocks -/

/-- The clock of an instant exists, and its leap second, if it is one, is the one
it shows. -/
theorem clock_spec {t : Instant} (h : t.Valid) :
    t.clock.hour < 24 ∧ t.clock.minute < 60 ∧ t.clock.second ≤ 60 ∧
      t.clock.nanos < second ∧
      3600 * t.clock.hour + 60 * t.clock.minute + (t.clock.second - t.clock.second / 60) =
        (t.seconds % 86400).toNat ∧
      t.clock.nanos + t.clock.second / 60 * second = t.nanos := by
  simp only [Valid, second] at h
  simp only [clock, second]
  omega

/-- Day and clock give back the instant they show. -/
theorem of?_date_clock {t : Instant} (h : t.Valid) (hrange : inRange t.date = true) :
    of? t.date t.clock 0 = some t := by
  obtain ⟨hdate, hday, -, -⟩ := Date.ofDayNumber_spec (t.seconds / 86400)
  obtain ⟨hhour, hminute, hsecond, -, hseconds, hnanos⟩ := clock_spec h
  have hchecks : (inRange t.date && t.date.valid && t.clock.hour < 24 && t.clock.minute < 60 &&
      t.clock.second ≤ 60) = true := by
    rw [hrange, date, hdate]
    simp [hhour, hminute, hsecond]
  have htotal : 86400 * t.date.dayNumber + (3600 * t.clock.hour + 60 * t.clock.minute +
      (t.clock.second - t.clock.second / 60) : Nat) - 0 = t.seconds := by
    rw [hseconds, date, hday]
    omega
  rw [of?, if_pos hchecks]
  show some (Instant.mk (86400 * t.date.dayNumber + (3600 * t.clock.hour + 60 * t.clock.minute +
    (t.clock.second - t.clock.second / 60) : Nat) - 0) (t.clock.nanos + t.clock.second / 60 * second))
      = some t
  rw [htotal, hnanos]

end Instant

namespace Reader

/-- **Printing and reading.** An instant in a year without a sign is read back from
its text. -/
theorem read?_text {t : Instant} (h : t.Valid) (hyear : t.Unsigned) : read? t.text = some t := by
  obtain ⟨hlow, hhigh⟩ := hyear
  obtain ⟨-, -, hmonth, hday⟩ := Date.ofDayNumber_spec (t.seconds / 86400)
  obtain ⟨hhour, hminute, hsecond, hnanos, -, -⟩ := Instant.clock_spec h
  have hrange : Instant.inRange t.date = true := by
    rw [Instant.inRange, Bool.and_eq_true, decide_eq_true_eq, decide_eq_true_eq,
      Instant.firstYear, Instant.lastYear]
    omega
  have hyears : ((t.date.year.toNat : Nat) : Int) = t.date.year := Int.toNat_of_nonneg hlow
  have hzoned : zoned? t.text = some t := by
    have hnumber : ∀ rest, number 4 4 (Numeral.padded 4 t.date.year.toNat ++ rest) =
        some (t.date.year.toNat, rest) := number_padded (by decide) (by omega)
    have hmonths := number_two (n := t.date.month) (Nat.lt_of_le_of_lt hmonth (by decide))
    have hdays := number_two (n := t.date.day) (Nat.lt_of_le_of_lt hday (by decide))
    have hhours := number_two (n := t.clock.hour) (by omega)
    have hminutes := number_two (n := t.clock.minute) (by omega)
    have hseconds := number_two (n := t.clock.second) (by omega)
    rw [zoned?, Instant.text, Instant.dateText, Instant.clockText, Instant.yearText,
      if_pos ⟨hlow, hhigh⟩]
    simp only [List.append_assoc, List.cons_append, hnumber, hmonths, hdays, hhours, hminutes,
      hseconds, mark_cons, separator_cons, fraction_fractionText hnanos, Option.bind_eq_bind,
      Option.bind_some, zone, List.isEmpty_nil, if_true, hyears]
    exact Instant.of?_date_clock h hrange
  rw [read?, hzoned]
  rfl

/-- An instant in a year without a sign is read as the one that its text stands for. -/
theorem read?_text_settled {t : Instant} (h : t.nanos < 2 * Instant.second)
    (hyear : t.Unsigned) : read? t.text = some t.settled := by
  rw [← Instant.text_settled h]
  refine read?_text (Instant.valid_settled h) ?_
  rwa [Instant.Unsigned, Instant.date_settled]

end Reader
end LiveTail.Time
