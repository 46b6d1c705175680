import LiveTail.Proofs.Number.Numeral

/-! Whole numbers in decimal.

The text of a whole number is its digits, with a minus in front when it is below zero. Both
readers of numbers take it for what it says: one within its limit (`unsigned?_toString`), the
other as the nearest float (`float?_toString`). -/
namespace LiveTail.Number.Numeral

theorem digitChar_eq {n : Nat} (h : n < 10) : n.digitChar = digitChar n := by
  have key : ∀ n : Fin 10, n.1.digitChar = digitChar n := by decide
  exact key ⟨n, h⟩

theorem toDigits_eq (n : Nat) : Nat.toDigits 10 n = digits n := by
  fun_induction digits n with
  | case1 n h => rw [Nat.toDigits_of_lt_base h, digitChar_eq h]
  | case2 n h ih =>
    rw [Nat.toDigits_of_base_le (by decide) (Nat.not_lt.mp h), ih,
      digitChar_eq (Nat.mod_lt n (by decide))]

theorem toList_toString_nat (n : Nat) : (toString n).toList = digits n := by
  rw [Nat.toString_eq_repr, Nat.toList_repr, toDigits_eq]

theorem toList_toString (n : Int) :
    (toString n).toList = if n < 0 then '-' :: digits n.natAbs else digits n.natAbs := by
  cases n with
  | ofNat n => exact toList_toString_nat n
  | negSucc n =>
    rw [if_pos (Int.negSucc_lt_zero n), Int.toString_eq_repr, Int.repr, String.toList_append,
      Nat.toList_repr, toDigits_eq]
    rfl

/-- Digits begin with a digit. -/
theorem digits_ne_cons {c : Char} (h : c.isDigit = false) (n : Nat) (rest : List Char) :
    digits n ≠ c :: rest := by
  intro hdigits
  have hc : c.isDigit := isDigit_of_mem_digits (hdigits ▸ List.mem_cons_self ..)
  rw [h] at hc
  cases hc

/-! ### With a limit -/

theorem unsigned?_of_digits {text : List Char} (hne : text ≠ []) (h : ∀ c ∈ text, c.isDigit)
    (limit : Nat) :
    unsigned? limit text = if value text ≤ limit then some (value text) else none := by
  have hempty : text.isEmpty = false := List.isEmpty_eq_false_iff.mpr hne
  have hall : text.all Char.isDigit = true := List.all_eq_true.mpr h
  rw [unsigned?.eq_2, hempty, hall]
  · rfl
  · rintro rest rfl
    exact absurd (h '+' (List.mem_cons_self ..)) (by decide)

/-- The text of a whole number is read within the limit, and not at all below zero. -/
theorem unsigned?_toString (limit : Nat) (n : Int) :
    unsigned? limit (toString n).toList =
      if 0 ≤ n ∧ n ≤ limit then some n.toNat else none := by
  rw [toList_toString]
  by_cases hneg : n < 0
  · rw [if_pos hneg, if_neg (by omega)]
    rfl
  · rw [if_neg hneg, unsigned?_of_digits (digits_ne_nil _) fun _ => isDigit_of_mem_digits,
      value_digits]
    have hnat : n.natAbs = n.toNat := by omega
    have hlimit : n.toNat ≤ limit ↔ 0 ≤ n ∧ n ≤ limit := by omega
    rw [hnat]
    simp only [hlimit]

/-! ### As a float -/

theorem signed_digits (n : Nat) : signed (digits n) = (false, digits n) :=
  signed.eq_3 _ (digits_ne_cons (by decide) n) (digits_ne_cons (by decide) n)

theorem signed_toString (n : Int) :
    signed (toString n).toList = (decide (n < 0), digits n.natAbs) := by
  rw [toList_toString]
  by_cases h : n < 0
  · rw [if_pos h, decide_eq_true h]
    rfl
  · rw [if_neg h, decide_eq_false h, signed_digits]

theorem toLower_of_isDigit {c : Char} (h : c.isDigit) : c.toLower = c := by
  simp only [Char.isDigit, Bool.and_eq_true, decide_eq_true_eq, UInt32.le_iff_toNat_le] at h
  have hhigh : c.val.toNat ≤ 57 := h.2
  unfold Char.toLower
  rw [dif_neg]
  rintro ⟨hlow, -⟩
  have hlow : 65 ≤ c.val.toNat := UInt32.le_iff_toNat_le.mp hlow
  omega

/-- Digits are no word. -/
theorem word_ne {c : Char} (h : c.isDigit = false) (n : Nat) (rest : List Char) :
    String.ofList ((digits n).map Char.toLower) ≠ String.ofList (c :: rest) := by
  have hlower : (digits n).map Char.toLower = digits n := by
    rw [List.map_congr_left fun d hd => toLower_of_isDigit (isDigit_of_mem_digits hd)]
    exact List.map_id _
  rw [hlower]
  exact fun heq => digits_ne_cons h n rest (String.ofList_injective heq)

theorem nearestDecimal_whole {n : Nat} (h : n < 10 ^ 20) (negative : Bool) :
    nearestDecimal negative n 0 = Binary.nearest negative n 1 := by
  have hlength : (toString n).length ≤ 20 := by
    rw [← String.length_toList, toList_toString_nat]
    exact length_digits_le (by decide) h
  unfold nearestDecimal
  rcases Nat.eq_zero_or_pos n with rfl | hpos
  · rw [if_pos (.inl rfl), Binary.nearest, Binary.nearestMagnitude, if_pos rfl]
    exact (UInt64.zero_or).symm
  · rw [if_neg (by omega), if_neg (by omega), if_pos (Int.le_refl 0)]
    exact congrArg (Binary.nearest negative · 1) (Nat.mul_one n)

theorem magnitude?_digits {n : Nat} (h : n < 10 ^ 20) (negative : Bool) :
    magnitude? negative (digits n) = some (Binary.nearest negative n 1) := by
  have hspan : span (digits n) = (digits n, []) := by
    have hnothing : NoDigit [] := nofun
    have := span_of_digits (fun _ => isDigit_of_mem_digits (n := n)) hnothing
    rwa [List.append_nil] at this
  have hempty : (digits n).isEmpty = false := List.isEmpty_eq_false_iff.mpr (digits_ne_nil n)
  simp only [magnitude?, hspan, hempty, Bool.false_and, exponent?, Option.map_some,
    List.append_nil, value_digits]
  rw [if_neg Bool.false_ne_true]
  exact congrArg some (nearestDecimal_whole h negative)

/-- **The text of a whole number is read as the float nearest to it.** -/
theorem float?_toString {n : Int} (h : n.natAbs < 10 ^ 20) :
    float? (toString n).toList = some (Binary.ofInt n) := by
  have hinf := word_ne (c := 'i') (by decide) n.natAbs ['n', 'f']
  have hinfinity := word_ne (c := 'i') (by decide) n.natAbs ['n', 'f', 'i', 'n', 'i', 't', 'y']
  have hnan := word_ne (c := 'n') (by decide) n.natAbs ['a', 'n']
  rw [float?, signed_toString]
  dsimp only
  rw [if_neg (not_or.mpr ⟨hinf, hinfinity⟩), if_neg hnan, magnitude?_digits h]
  rfl

end LiveTail.Number.Numeral
