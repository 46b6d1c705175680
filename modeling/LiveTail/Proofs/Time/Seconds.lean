import LiveTail.Proofs.Number.Binary
import LiveTail.Proofs.Time.Calendar
import LiveTail.Time.Instant

/-! Instants of whole seconds.

The years that an instant can lie in are a range of seconds (`inRange_iff`). It ends long before
whole numbers stop being floats, so a whole number of seconds gives exactly its instant or none
(`ofFloat?_ofInt`). -/
namespace LiveTail.Time.Instant
open Number

/-- The first second of the first year. -/
def firstSecond : Int := -8334601228800

/-- The last second of the last year. -/
def lastSecond : Int := 8210266876799

theorem inRange_iff (t : Instant) :
    inRange t.date = true ↔ firstSecond ≤ t.seconds ∧ t.seconds ≤ lastSecond := by
  obtain ⟨hstart, hstop⟩ := Calendar.yearOf_spec (t.seconds / 86400 + Calendar.epoch)
  have hyear : t.date.year = Calendar.yearOf (t.seconds / 86400 + Calendar.epoch) := rfl
  rw [← hyear] at hstart hstop
  have hfirst : Calendar.yearStart firstYear = -95745764 := by decide
  have hlast : Calendar.yearStart (lastYear + 1) = 95745765 := by decide
  rw [inRange, Bool.and_eq_true, decide_eq_true_eq, decide_eq_true_eq]
  simp only [Calendar.epoch] at hstart hstop
  simp only [firstSecond, lastSecond]
  constructor
  · rintro ⟨hlow, hhigh⟩
    have hafter := Calendar.yearStart_mono hlow
    have hbefore := Calendar.yearStart_mono (Int.add_le_add_right hhigh 1)
    omega
  · rintro ⟨hlow, hhigh⟩
    constructor
    · refine Int.not_lt.mp fun hbelow => ?_
      have := Calendar.yearStart_mono (Int.add_one_le_of_lt hbelow)
      omega
    · refine Int.not_lt.mp fun habove => ?_
      have := Calendar.yearStart_mono (Int.add_one_le_of_lt habove)
      omega

theorem ofSeconds?_eq (seconds : Int) (nanos : Nat) :
    ofSeconds? seconds nanos =
      if firstSecond ≤ seconds ∧ seconds ≤ lastSecond then some ⟨seconds, nanos⟩ else none := by
  simp only [ofSeconds?, inRange_iff]

/-! ### Floats that are whole -/

theorem nanosOf_nothing (den : Nat) : nanosOf (Binary.nearest false 0 den) = 0 := by
  have hzero : Binary.nearest false 0 den = 0 := by
    rw [Binary.nearest, Binary.nearestMagnitude, if_pos rfl]
    decide
  rw [hzero]
  decide +kernel

/-- The float, with its sign. -/
theorem splitFloat_whole {negative : Bool} {mantissa : Nat} {exponent whole : Int}
    (h : (if negative then -((Binary.fraction mantissa exponent).1 : Int)
        else (Binary.fraction mantissa exponent).1) =
      whole * (Binary.fraction mantissa exponent).2) :
    splitFloat negative mantissa exponent =
      (whole, Binary.nearest false 0 (Binary.fraction mantissa exponent).2) := by
  have hne : ((Binary.fraction mantissa exponent).2 : Int) ≠ 0 :=
    Int.natCast_ne_zero_iff_pos.mpr (Binary.fraction_pos mantissa exponent)
  simp only [splitFloat, h, Int.mul_ediv_cancel whole hne, Int.sub_self]
  rfl

theorem ofFloat?_whole {bits : UInt64} {negative : Bool} {mantissa : Nat} {exponent whole : Int}
    (hbits : Binary.ofBits bits = .finite negative mantissa exponent)
    (h : (if negative then -((Binary.fraction mantissa exponent).1 : Int)
        else (Binary.fraction mantissa exponent).1) =
      whole * (Binary.fraction mantissa exponent).2) :
    ofFloat? bits =
      if firstSecond ≤ whole ∧ whole ≤ lastSecond then some ⟨whole, 0⟩ else none := by
  rw [ofFloat?, hbits]
  dsimp only
  rw [splitFloat_whole h]
  dsimp only
  rw [nanosOf_nothing, ofSeconds?_eq]

/-- **A whole number of seconds gives its instant, unless there is none.** -/
theorem ofFloat?_ofInt {n : Int} (h : n.natAbs < 2 ^ 64) :
    ofFloat? (Binary.ofInt n) =
      if firstSecond ≤ n ∧ n ≤ lastSecond then some ⟨n, 0⟩ else none := by
  obtain ⟨mantissa, exponent, hbits, hstands⟩ := Binary.stands_ofInt h
  rcases Nat.lt_or_ge n.natAbs (2 ^ 53) with hless | hlarge
  · refine ofFloat?_whole hbits ?_
    rw [hstands.exact hless]
    by_cases hneg : n < 0
    · rw [decide_eq_true hneg, if_pos rfl, Int.natCast_mul, ← Int.neg_mul]
      congr 1
      omega
    · rw [decide_eq_false hneg, if_neg Bool.false_ne_true, Int.natCast_mul]
      congr 1
      omega
  · -- The float may be another number, but no instant is as far off as either.
    obtain ⟨hden, hnum⟩ := hstands.large hlarge
    have hfloat := ofFloat?_whole hbits (by rw [hden]; exact (Int.mul_one _).symm)
    have hfar : ∀ seconds : Int, 2 ^ 53 ≤ seconds.natAbs →
        ¬ (firstSecond ≤ seconds ∧ seconds ≤ lastSecond) := by
      intro seconds hseconds
      simp only [firstSecond, lastSecond]
      omega
    rw [hfloat, if_neg (hfar n hlarge), if_neg]
    apply hfar
    split <;> omega

end LiveTail.Time.Instant
