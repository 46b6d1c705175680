import LiveTail.Proofs.Text.Blank
import LiveTail.Proofs.Time.Reader

/-! Instants that are read, and those whose text is not.

Every instant that is read, or that a number of seconds gives, is `Valid` and lies in a year
of at most six digits (`spec_read?`, `spec_ofFloat?`). But a year outside 0 to 9999 is
written with a sign. A zoned time has none, and a naive time has no zone, so the text of such
an instant is not read back (`read?_signed`). -/
namespace LiveTail.Time
open Number

namespace Instant

/-- The year has at most six digits. -/
def Near (t : Instant) : Prop := t.date.year.natAbs < 10 ^ 6

instance (t : Instant) : Decidable t.Unsigned := inferInstanceAs (Decidable (_ ∧ _))

/-! ### Days -/

theorem near_of_day {t : Instant} (hlow : -10 ^ 8 ≤ t.seconds / 86400)
    (hhigh : t.seconds / 86400 ≤ 10 ^ 8) : t.Near := by
  obtain ⟨hstart, hstop⟩ := Calendar.yearOf_spec (t.seconds / 86400 + Calendar.epoch)
  show (Calendar.yearOf (t.seconds / 86400 + Calendar.epoch)).natAbs < 10 ^ 6
  simp only [Calendar.yearStart, Calendar.epoch] at hstart hstop ⊢
  omega

theorem year_of_inRange {date : Date} (h : inRange date = true) :
    -262143 ≤ date.year ∧ date.year ≤ 262142 := by
  rwa [inRange, Bool.and_eq_true, decide_eq_true_eq, decide_eq_true_eq, firstYear, lastYear] at h

theorem near_of_inRange {t : Instant} (h : inRange t.date = true) : t.Near := by
  have hyear := year_of_inRange h
  unfold Near
  omega

/-- The days of the years that there are. -/
theorem dayNumber_bounds {date : Date} (hrange : inRange date = true)
    (hvalid : date.valid = true) :
    -97000000 ≤ date.dayNumber ∧ date.dayNumber ≤ 97000000 := by
  have hsum := Calendar.sum_months date.year
  have htake : ((Calendar.months date.year).take (date.month - 1)).sum ≤
      (Calendar.months date.year).sum := by
    have hparts := congrArg List.sum
      (List.take_append_drop (date.month - 1) (Calendar.months date.year))
    rw [List.sum_append] at hparts
    omega
  have hday := Calendar.getD_months_le date.year (date.month - 1)
  have hyear := year_of_inRange hrange
  have hstart := Calendar.yearStart_mono hyear.1
  have hstop := Calendar.yearStart_mono (Int.add_le_add_right hyear.2 1)
  have hfirst : Calendar.yearStart (-262143) = -95745764 := by decide
  have hlast : Calendar.yearStart (262142 + 1) = 95745765 := by decide
  simp only [Date.valid, Bool.and_eq_true, decide_eq_true_eq] at hvalid
  simp only [Date.dayNumber, Calendar.epoch]
  omega

/-- A day and a clock that exist show an instant, which may be a leap second. -/
theorem spec_of? {date : Date} {clock : Clock} {east : Int} {t : Instant}
    (h : of? date clock east = some t) (hnanos : clock.nanos < second)
    (hminutes : east % 60 = 0) (heast : -86400 < east ∧ east < 86400) : t.Valid ∧ t.Near := by
  unfold of? at h
  split at h
  next hchecks =>
    simp only [Bool.and_eq_true, decide_eq_true_eq] at hchecks
    obtain ⟨⟨⟨⟨hrange, hvalid⟩, hhour⟩, hminute⟩, hsecond⟩ := hchecks
    have hday := dayNumber_bounds hrange hvalid
    obtain rfl := Option.some.inj h
    constructor
    · simp only [Valid, second] at hnanos ⊢
      rcases Nat.lt_or_ge clock.second 60 with hless | hleap
      · rw [Nat.div_eq_of_lt hless]
        omega
      · obtain hleap : clock.second = 60 := by omega
        rw [hleap]
        omega
    · refine near_of_day ?_ ?_
      · dsimp only
        omega
      · dsimp only
        omega
  next => cases h

theorem second_pos : 0 < second := by decide

theorem nanosOf_lt (part : UInt64) : nanosOf part < second := by
  fun_cases nanosOf part with
  | case1 =>
    exact Nat.lt_of_le_of_lt (Nat.min_le_right ..) (Nat.sub_lt second_pos Nat.one_pos)
  | case2 => exact second_pos
  | case3 => exact second_pos

theorem spec_ofFloat? {bits : UInt64} {t : Instant} (h : ofFloat? bits = some t) :
    t.Valid ∧ t.Near := by
  unfold ofFloat? at h
  split at h
  next negative mantissa exponent _ =>
    simp only [ofSeconds?] at h
    split at h
    next hrange =>
      obtain rfl := Option.some.inj h
      exact ⟨.inl (nanosOf_lt _), near_of_inRange hrange⟩
    next => cases h
  next => cases h

end Instant

/-! ### Reading -/

namespace Reader

theorem fraction_lt {text rest : List Char} {nanos : Nat} (h : fraction text = some (nanos, rest)) :
    nanos < Instant.second := by
  unfold fraction at h
  split at h
  next after =>
    dsimp only at h
    split at h
    next => cases h
    next =>
      simp only [Option.some.injEq, Prod.mk.injEq] at h
      obtain ⟨rfl, -⟩ := h
      have hdigits : ∀ c ∈ (Numeral.span after).1.take 9, c.isDigit :=
        fun c hc => Numeral.span_digits after c (List.mem_of_mem_take hc)
      have hvalue := Numeral.value_lt hdigits
      have hlength : ((Numeral.span after).1.take 9).length ≤ 9 := List.length_take_le ..
      calc Numeral.value ((Numeral.span after).1.take 9) *
            10 ^ (9 - ((Numeral.span after).1.take 9).length)
          < 10 ^ ((Numeral.span after).1.take 9).length *
            10 ^ (9 - ((Numeral.span after).1.take 9).length) :=
            Nat.mul_lt_mul_of_pos_right hvalue (Nat.pow_pos (by decide))
        _ = 10 ^ 9 := by rw [← Nat.pow_add, Nat.add_sub_cancel' hlength]
  next =>
    cases h
    decide

theorem zone_spec {text rest : List Char} {east : Int} (h : zone text = some (east, rest)) :
    east % 60 = 0 ∧ -86400 < east ∧ east < 86400 := by
  unfold zone at h
  split at h
  · cases h
    decide
  · cases h
    decide
  next c after _ _ =>
    have key : ∀ sign : Int, sign = 1 ∨ sign = -1 →
        ((number 2 2 after).bind fun hours => (mark ':' hours.2).bind fun colon =>
          (number 2 2 colon.2).bind fun minutes =>
            if hours.1 < 24 ∧ minutes.1 < 60 then
              some (sign * (3600 * hours.1 + 60 * minutes.1 : Int), minutes.2)
            else none) = some (east, rest) →
        east % 60 = 0 ∧ -86400 < east ∧ east < 86400 := by
      intro sign hsign h
      simp only [Option.bind_eq_some_iff, Prod.exists] at h
      obtain ⟨hours, _, -, _, _, -, minutes, _, -, h⟩ := h
      split at h
      next hbounds =>
        simp only [Option.some.injEq, Prod.mk.injEq] at h
        obtain ⟨rfl, -⟩ := h
        rcases hsign with rfl | rfl <;> omega
      next => cases h
    split at h
    · exact key 1 (.inl rfl) h
    · split at h
      · exact key (-1) (.inr rfl) h
      · cases h
  next => cases h

theorem spec_zoned? {text : List Char} {t : Instant} (h : zoned? text = some t) :
    t.Valid ∧ t.Near := by
  simp only [zoned?, Option.bind_eq_bind, Option.bind_eq_some_iff, Prod.exists] at h
  obtain ⟨_, _, -, _, _, -, _, _, -, _, _, -, _, _, -, _, _, -, _, _, -, _, _, -, _, _, -, _, _, -,
    _, _, -, nanos, _, hfraction, east, _, hzone, h⟩ := h
  obtain ⟨hminutes, heast⟩ := zone_spec hzone
  split at h
  · exact Instant.spec_of? h (fraction_lt hfraction) hminutes heast
  · cases h

theorem spec_naive? {text : List Char} {t : Instant} (h : naive? text = some t) :
    t.Valid ∧ t.Near := by
  simp only [naive?, Option.bind_eq_bind, Option.bind_eq_some_iff, Prod.exists] at h
  obtain ⟨_, _, -, _, _, -, _, _, -, _, _, -, _, _, -, _, _, -, _, _, -, _, _, -, _, _, -, _, _, -,
    _, _, -, nanos, _, hfraction, h⟩ := h
  split at h
  · exact Instant.spec_of? h (fraction_lt hfraction) rfl (by decide)
  · cases h

/-- An instant that is read is one that there is. -/
theorem spec_read? {text : List Char} {t : Instant} (h : read? text = some t) :
    t.Valid ∧ t.Near := by
  rw [read?, Option.orElse_eq_orElse] at h
  cases hzoned : zoned? text with
  | none =>
    rw [hzoned] at h
    exact spec_naive? h
  | some u =>
    rw [hzoned] at h
    obtain rfl := Option.some.inj h
    exact spec_zoned? hzoned

/-! ### Text with a sign -/

/-- Digits do not stand behind white space. -/
theorem trimStart_padded {width n : Nat} (rest : List Char) :
    Text.trimStart (Numeral.padded width n ++ rest) = Numeral.padded width n ++ rest := by
  cases hpadded : Numeral.padded width n with
  | nil => exact absurd (List.append_eq_nil_iff.mp hpadded).2 (Numeral.digits_ne_nil n)
  | cons c digits =>
    have hdigit : c.isDigit := Numeral.isDigit_of_mem_padded (hpadded ▸ List.mem_cons_self ..)
    rw [List.cons_append, Text.trimStart, List.dropWhile_cons,
      if_neg (by simp [Text.isBlank_of_isDigit hdigit])]

theorem loose_two {n : Nat} (h : n < 100) (rest : List Char) :
    loose (Numeral.padded 2 n ++ rest) = some (n, rest) := by
  have hlength : (Numeral.padded 2 n).length = 2 := Numeral.length_padded (by decide) h
  rw [loose, trimStart_padded, number_digits (fun _ => Numeral.isDigit_of_mem_padded) (by omega)
    (Nat.le_of_eq hlength) (.inr hlength), Numeral.value_padded]

/-- A year with a sign is read to the end of its digits. -/
theorem looseYear_signed {sign : Char} (hsign : sign = '-' ∨ sign = '+') (n : Nat)
    {rest : List Char} (hrest : Numeral.NoDigit rest) :
    ∃ year, looseYear (sign :: (Numeral.padded 4 n ++ rest)) = some (year, rest) := by
  have hsome : 1 ≤ (Numeral.padded 4 n).length := by
    rw [Numeral.padded, List.length_append, List.length_replicate]
    have := List.length_pos_iff.mpr (Numeral.digits_ne_nil n)
    omega
  have hmost : (Numeral.padded 4 n).length ≤ (Numeral.padded 4 n ++ rest).length := by
    rw [List.length_append]
    exact Nat.le_add_right _ _
  have hnumber := number_digits (fun _ => Numeral.isDigit_of_mem_padded) hsome hmost (.inl hrest)
  rcases hsign with rfl | rfl
  · have htrim : ∀ text, Text.trimStart ('-' :: text) = '-' :: text := fun _ => rfl
    exact ⟨-(Numeral.value (Numeral.padded 4 n) : Int), by
      simp only [looseYear, htrim, hnumber, Option.map_some]⟩
  · have htrim : ∀ text, Text.trimStart ('+' :: text) = '+' :: text := fun _ => rfl
    exact ⟨(Numeral.value (Numeral.padded 4 n) : Int), by
      simp only [looseYear, htrim, hnumber, Option.map_some]⟩

/-- A zoned time begins with a digit. -/
theorem zoned?_sign {c : Char} (h : c.isDigit = false) (rest : List Char) :
    zoned? (c :: rest) = none := by
  have hnumber : number 4 4 (c :: rest) = none := by
    rw [number]
    simp [h]
  rw [zoned?, hnumber]
  rfl

/-- A naive time does not end with a zone. -/
theorem naive?_signed {t : Instant} (h : t.Valid) {sign : Char} (hsign : sign = '-' ∨ sign = '+')
    (hyear : Instant.yearText t.date.year = sign :: Numeral.padded 4 t.date.year.natAbs) :
    naive? t.text = none := by
  obtain ⟨-, -, hmonth, hday⟩ := Date.ofDayNumber_spec (t.seconds / 86400)
  obtain ⟨hhour, hminute, hsecond, hnanos, -, -⟩ := Instant.clock_spec h
  have hmonths := loose_two (n := t.date.month) (Nat.lt_of_le_of_lt hmonth (by decide))
  have hdays := loose_two (n := t.date.day) (Nat.lt_of_le_of_lt hday (by decide))
  have hhours := loose_two (n := t.clock.hour) (by omega)
  have hminutes := loose_two (n := t.clock.minute) (by omega)
  have hseconds := loose_two (n := t.clock.second) (by omega)
  have hmark : ∀ rest, Numeral.NoDigit ('-' :: rest) := Numeral.noDigit_cons rfl
  rw [naive?, Instant.text, Instant.dateText, Instant.clockText, hyear]
  simp only [List.append_assoc, List.cons_append]
  obtain ⟨year, hyears⟩ := looseYear_signed hsign t.date.year.natAbs (hmark _)
  rw [hyears]
  simp only [hmonths, hdays, hhours, hminutes, hseconds, mark_cons, fraction_fractionText hnanos,
    Option.bind_eq_bind, Option.bind_some]
  rfl

/-- **The text of an instant in a year with a sign is not read back.** -/
theorem read?_signed {t : Instant} (h : t.Valid) (hyear : ¬ t.Unsigned) : read? t.text = none := by
  obtain ⟨sign, hsign, htext⟩ : ∃ sign, (sign = '-' ∨ sign = '+') ∧
      Instant.yearText t.date.year = sign :: Numeral.padded 4 t.date.year.natAbs := by
    have hsigned : ¬ (0 ≤ t.date.year ∧ t.date.year ≤ 9999) := hyear
    rw [Instant.yearText, if_neg hsigned]
    split
    · exact ⟨'-', .inl rfl, rfl⟩
    · exact ⟨'+', .inr rfl, rfl⟩
  have hdigit : sign.isDigit = false := by rcases hsign with rfl | rfl <;> rfl
  have hzoned : zoned? t.text = none := by
    rw [Instant.text, Instant.dateText, htext]
    exact zoned?_sign hdigit _
  rw [read?, hzoned, naive?_signed h hsign htext]
  rfl

end Reader

/-! ### The length of text -/

namespace Instant

theorem length_padded_le {width most n : Nat} (hmost : 0 < most) (hwidth : width ≤ most)
    (h : n < 10 ^ most) : (Numeral.padded width n).length ≤ most := by
  have hdigits := Numeral.length_digits_le hmost h
  rw [Numeral.padded, List.length_append, List.length_replicate]
  omega

theorem length_yearText_le {t : Instant} (h : t.Near) : (yearText t.date.year).length ≤ 7 := by
  unfold yearText
  split
  · exact length_padded_le (by decide) (by decide) (by omega)
  · exact Nat.succ_le_succ (length_padded_le (by decide) (by decide) h)

theorem length_fractionText_le {nanos : Nat} (h : nanos < second) :
    (fractionText nanos).length ≤ 10 := by
  rw [second] at h
  fun_cases fractionText nanos
  · exact Nat.zero_le _
  all_goals exact Nat.succ_le_succ (length_padded_le (by decide) (by decide) (by omega))

/-- The text of an instant that there is has few characters. -/
theorem length_text_le {t : Instant} (h : t.Valid) (hnear : t.Near) : t.text.length ≤ 40 := by
  obtain ⟨-, -, hmonth, hday⟩ := Date.ofDayNumber_spec (t.seconds / 86400)
  obtain ⟨hhour, hminute, hsecond, hnanos, -, -⟩ := clock_spec h
  have htwo : ∀ n, n < 100 → (Numeral.padded 2 n).length = 2 :=
    fun n hn => Numeral.length_padded (by decide) hn
  have hyears := length_yearText_le hnear
  have hmonths := htwo t.date.month (Nat.lt_of_le_of_lt hmonth (by decide))
  have hdays := htwo t.date.day (Nat.lt_of_le_of_lt hday (by decide))
  have hhours := htwo t.clock.hour (by omega)
  have hminutes := htwo t.clock.minute (by omega)
  have hseconds := htwo t.clock.second (by omega)
  have hfraction := length_fractionText_le hnanos
  simp only [text, dateText, clockText, List.length_append, List.length_cons, List.length_nil]
  omega

end Instant
end LiveTail.Time
