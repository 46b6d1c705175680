import LiveTail.Number.Binary

/-! Whole numbers as floats.

A pattern is a field and a mantissa in one number, and a mantissa that was rounded up carries
into the field (`ofBits_pattern`). A whole number has its leading bit 52 places above the lowest
bit that a float of its size can hold. So below `2 ^ 53` nothing is rounded, and no greater one
is rounded to below it (`stands_ofInt`). -/
namespace LiveTail.Number.Binary

/-! ### Patterns -/

theorem toNat_signed {bits : Nat} (h : bits < 2 ^ 63) (negative : Bool) :
    (UInt64.ofNat bits ||| signBit negative).toNat = (if negative then 2 ^ 63 else 0) + bits := by
  have hsign : (signBit negative).toNat = if negative then 2 ^ 63 else 0 := by
    cases negative <;> decide
  rw [UInt64.toNat_or, UInt64.toNat_ofNat', hsign, Nat.mod_eq_of_lt (by omega), Nat.or_comm]
  cases negative with
  | false => rw [if_neg Bool.false_ne_true, Nat.zero_or, Nat.zero_add]
  | true => exact (Nat.two_pow_add_eq_or_of_lt h 1).symm

/-- The sign is read apart from the rest. -/
theorem ofBits_signed {bits : Nat} (h : bits < 2 ^ 63) (negative : Bool) :
    ofBits (UInt64.ofNat bits ||| signBit negative) =
      decode 52 1023 negative.toNat (bits / 2 ^ 52) (bits % 2 ^ 52) (2 ^ 11 - 1) := by
  rw [ofBits, toNat_signed h]
  cases negative with
  | false =>
    have hsign : bits / 2 ^ 63 = 0 := by omega
    have hfield : bits / 2 ^ 52 % 2 ^ 11 = bits / 2 ^ 52 := by omega
    simp only [Bool.false_eq_true, if_false, hsign, hfield, Nat.zero_add, Bool.toNat_false]
  | true =>
    have hsign : (2 ^ 63 + bits) / 2 ^ 63 = 1 := by omega
    have hfield : (2 ^ 63 + bits) / 2 ^ 52 % 2 ^ 11 = bits / 2 ^ 52 := by omega
    have hrest : (2 ^ 63 + bits) % 2 ^ 52 = bits % 2 ^ 52 := by omega
    simp only [if_true, hsign, hfield, hrest, Bool.toNat_true]

/-- A mantissa of 54 bits has carried into the field. -/
theorem ofBits_pattern {field mantissa : Nat} (hfield : field < 2044) (hlow : 2 ^ 52 ≤ mantissa)
    (hhigh : mantissa ≤ 2 ^ 53) (negative : Bool) :
    ∃ m e, ofBits (UInt64.ofNat (field * 2 ^ 52 + mantissa) ||| signBit negative) =
        .finite negative m e ∧
      (m = mantissa ∧ e = (field : Int) - 1074 ∨
        mantissa = 2 ^ 53 ∧ m = 2 ^ 52 ∧ e = (field : Int) - 1073) := by
  have hsign : (negative.toNat == 1) = negative := by cases negative <;> rfl
  rw [ofBits_signed (by omega), decode, hsign]
  rcases Nat.lt_or_ge mantissa (2 ^ 53) with hless | hcarry
  · have hquotient : (field * 2 ^ 52 + mantissa) / 2 ^ 52 = field + 1 := by omega
    have hrest : (field * 2 ^ 52 + mantissa) % 2 ^ 52 = mantissa - 2 ^ 52 := by omega
    rw [hquotient, hrest, if_neg (by omega), if_neg (Nat.succ_ne_zero field)]
    exact ⟨_, _, rfl, .inl ⟨by omega, by omega⟩⟩
  · obtain rfl : mantissa = 2 ^ 53 := by omega
    have hquotient : (field * 2 ^ 52 + 2 ^ 53) / 2 ^ 52 = field + 2 := by omega
    have hrest : (field * 2 ^ 52 + 2 ^ 53) % 2 ^ 52 = 0 := by omega
    rw [hquotient, hrest, if_neg (by omega), if_neg (Nat.succ_ne_zero (field + 1))]
    exact ⟨_, _, rfl, .inr ⟨rfl, by omega, by omega⟩⟩

/-! ### Rounding -/

theorem roundEven_cases (num den : Nat) :
    roundEven num den = num / den ∨ roundEven num den = num / den + 1 := by
  unfold roundEven
  dsimp only
  split
  · exact .inl rfl
  · exact .inr rfl

theorem roundEven_one (num : Nat) : roundEven num 1 = num := by
  simp [roundEven, Nat.mod_one]

theorem exponentOf_whole {n : Nat} (hpos : 0 < n) : exponentOf n 1 = (n.log2 : Int) - 52 := by
  have hlow : 2 ^ n.log2 ≤ n := Nat.log2_self_le (by omega)
  have hsize : (n.log2 : Int) - Nat.log2 1 = n.log2 := by
    rw [show Nat.log2 1 = 0 by decide]
    exact Int.sub_zero _
  have hscaled : scaled n 1 n.log2 = (n, 2 ^ n.log2) := by
    rw [scaled, if_pos (Int.natCast_nonneg _), Int.toNat_natCast, Nat.one_mul]
  rw [exponentOf, hsize, hscaled]
  simp only [if_pos hlow, least]
  omega

/-- The 53 bits of a whole number from its leading one on, as the rest rounds them. -/
def leading (n : Nat) : Nat :=
  let (num, den) := scaled n 1 ((n.log2 : Int) - 52)
  roundEven num den

/-- A number of that many bits has no rest. -/
theorem leading_short {n : Nat} (h : n.log2 ≤ 52) : leading n = n * 2 ^ (52 - n.log2) := by
  have hscaled : scaled n 1 ((n.log2 : Int) - 52) = (n * 2 ^ (52 - n.log2), 1) := by
    unfold scaled
    split
    next hfull =>
      obtain hsize : n.log2 = 52 := by omega
      rw [hsize, Nat.sub_self, Nat.pow_zero, Nat.mul_one]
      rfl
    next =>
      congr 3
      omega
  rw [leading, hscaled]
  exact roundEven_one _

theorem leading_long {n places : Nat} (h : n.log2 = 52 + places) :
    leading n = n / 2 ^ places ∨ leading n = n / 2 ^ places + 1 := by
  have hscaled : scaled n 1 ((n.log2 : Int) - 52) = (n, 2 ^ places) := by
    rw [scaled, if_pos (by omega), Nat.one_mul]
    congr 2
    omega
  rw [leading, hscaled]
  exact roundEven_cases n (2 ^ places)

theorem leading_short_bounds {n : Nat} (hpos : 0 < n) (h : n.log2 ≤ 52) :
    2 ^ 52 ≤ leading n ∧ leading n < 2 ^ 53 := by
  have hlow : 2 ^ n.log2 * 2 ^ (52 - n.log2) ≤ n * 2 ^ (52 - n.log2) :=
    Nat.mul_le_mul_right _ (Nat.log2_self_le (by omega))
  have hhigh : n * 2 ^ (52 - n.log2) < 2 ^ (n.log2 + 1) * 2 ^ (52 - n.log2) :=
    Nat.mul_lt_mul_of_pos_right Nat.lt_log2_self (Nat.two_pow_pos _)
  rw [← Nat.pow_add, Nat.add_sub_cancel' h] at hlow
  rw [← Nat.pow_add, show n.log2 + 1 + (52 - n.log2) = 53 by omega] at hhigh
  rw [leading_short h]
  exact ⟨hlow, hhigh⟩

/-- Rounding carries to one bit more at most. -/
theorem leading_bounds {n : Nat} (hpos : 0 < n) : 2 ^ 52 ≤ leading n ∧ leading n ≤ 2 ^ 53 := by
  rcases Nat.le_total n.log2 52 with hshort | hlong
  · obtain ⟨hlow, hhigh⟩ := leading_short_bounds hpos hshort
    exact ⟨hlow, Nat.le_of_lt hhigh⟩
  · obtain ⟨places, hplaces⟩ := Nat.exists_eq_add_of_le hlong
    have hlow : 2 ^ n.log2 ≤ n := Nat.log2_self_le (by omega)
    have hhigh : n < 2 ^ (n.log2 + 1) := Nat.lt_log2_self
    rw [hplaces, Nat.pow_add] at hlow
    rw [hplaces, show 52 + places + 1 = 53 + places by omega, Nat.pow_add] at hhigh
    have hle : 2 ^ 52 ≤ n / 2 ^ places := (Nat.le_div_iff_mul_le (Nat.two_pow_pos _)).mpr hlow
    have hlt : n / 2 ^ places < 2 ^ 53 := (Nat.div_lt_iff_lt_mul (Nat.two_pow_pos _)).mpr hhigh
    have hcases := leading_long hplaces
    omega

theorem nearest_whole {n : Nat} (hpos : 0 < n) (h : n < 2 ^ 64) (negative : Bool) :
    nearest negative n 1 =
      UInt64.ofNat ((n.log2 + 1022) * 2 ^ 52 + leading n) ||| signBit negative := by
  have hsize : n.log2 < 64 := (Nat.log2_lt (by omega)).mpr h
  have hhigh := (leading_bounds hpos).2
  have hfield : ((n.log2 : Int) - 52 - least).toNat = n.log2 + 1022 := by
    rw [least]
    omega
  have hinfinity : infinity.toNat = 2047 * 2 ^ 52 := by decide
  rw [nearest, nearestMagnitude, if_neg (by omega), exponentOf_whole hpos]
  dsimp only
  rw [hfield, hinfinity, if_neg]
  · rfl
  · show ¬ 2047 * 2 ^ 52 ≤ (n.log2 + 1022) * 2 ^ 52 + leading n
    omega

/-! ### Whole numbers -/

theorem fraction_pos (mantissa : Nat) (exponent : Int) : 0 < (fraction mantissa exponent).2 := by
  unfold fraction
  split
  · exact Nat.one_pos
  · exact Nat.two_pow_pos _

/-- What a float says of the whole number that it stands for. -/
structure Stands (mantissa : Nat) (exponent : Int) (n : Nat) : Prop where
  exact : n < 2 ^ 53 → (fraction mantissa exponent).1 = n * (fraction mantissa exponent).2
  /-- What is too large to be exact is still a whole number, and as large. -/
  large : 2 ^ 53 ≤ n →
    (fraction mantissa exponent).2 = 1 ∧ 2 ^ 53 ≤ (fraction mantissa exponent).1

/-- With the exponent of its leading bit, a number below `2 ^ 53` is the fraction. -/
theorem fraction_short {n : Nat} (h : n.log2 ≤ 52) :
    (fraction (leading n) ((n.log2 : Int) - 52)).1 =
      n * (fraction (leading n) ((n.log2 : Int) - 52)).2 := by
  rw [leading_short h]
  unfold fraction
  split
  next hfull =>
    obtain hsize : n.log2 = 52 := by omega
    rw [hsize]
    exact Nat.mul_one _
  next =>
    dsimp only
    congr 2
    omega

theorem stands_nearest {n : Nat} (h : n < 2 ^ 64) (negative : Bool) :
    ∃ mantissa exponent, ofBits (nearest negative n 1) = .finite negative mantissa exponent ∧
      Stands mantissa exponent n := by
  rcases Nat.eq_zero_or_pos n with rfl | hpos
  · have hbits : ofBits (nearest negative 0 1) = .finite negative 0 least := by
      cases negative <;> decide
    exact ⟨0, least, hbits, fun _ => by decide +kernel, fun h => by omega⟩
  · obtain ⟨hlow, hhigh⟩ := leading_bounds hpos
    have hsize : n.log2 < 64 := (Nat.log2_lt (by omega)).mpr h
    have hsmall : n.log2 < 53 ↔ n < 2 ^ 53 := Nat.log2_lt (Nat.ne_of_gt hpos)
    have hfield : n.log2 + 1022 < 2044 := by omega
    obtain ⟨m, e, hbits, hcases⟩ := ofBits_pattern hfield hlow hhigh negative
    refine ⟨m, e, by rw [nearest_whole hpos h, hbits], fun hless => ?_, fun hlarge => ?_⟩
    · have hshort : n.log2 ≤ 52 := Nat.le_of_lt_succ (hsmall.mpr hless)
      have hlt := (leading_short_bounds hpos hshort).2
      obtain ⟨rfl, rfl⟩ : m = leading n ∧ e = (n.log2 : Int) - 52 := by omega
      exact fraction_short hshort
    · have hlong : ¬ n.log2 < 53 := fun hshort => Nat.not_lt_of_le hlarge (hsmall.mp hshort)
      have hm : 2 ^ 52 ≤ m := by omega
      have he : 1 ≤ e.toNat := by omega
      rw [fraction, if_pos (by omega)]
      exact ⟨rfl, Nat.mul_le_mul hm (Nat.pow_le_pow_right Nat.two_pos he)⟩

/-- **A whole number below `2 ^ 53` is a float, and a greater one is rounded to none below it.** -/
theorem stands_ofInt {n : Int} (h : n.natAbs < 2 ^ 64) :
    ∃ mantissa exponent, ofBits (ofInt n) = .finite (n < 0) mantissa exponent ∧
      Stands mantissa exponent n.natAbs :=
  stands_nearest h (n < 0)

end LiveTail.Number.Binary
