import LiveTail.Number.Numeral

/-! The digits of a number give it back.

Digits are written without zeros in front, or padded with zeros to a width that
holds the number. Both forms are all digits and have the number as their value, so
a reader that takes the digits at the front of a text reads what was written. -/
namespace LiveTail.Number.Numeral

theorem toNat_digitChar {n : Nat} (h : n < 10) : (digitChar n).toNat = '0'.toNat + n := by
  have key : ∀ n : Fin 10, (digitChar n).toNat = '0'.toNat + n := by decide
  exact key ⟨n, h⟩

theorem isDigit_digitChar {n : Nat} (h : n < 10) : (digitChar n).isDigit := by
  have key : ∀ n : Fin 10, (digitChar n).isDigit := by decide
  exact key ⟨n, h⟩

theorem value_append_one (digits : List Char) (c : Char) :
    value (digits ++ [c]) = 10 * value digits + (c.toNat - '0'.toNat) := by
  rw [value, List.foldl_append]
  rfl

theorem digit_le {c : Char} (h : c.isDigit) : c.toNat - '0'.toNat ≤ 9 := by
  simp only [Char.isDigit, Bool.and_eq_true, decide_eq_true_eq, UInt32.le_iff_toNat_le] at h
  exact Nat.sub_le_sub_right h.2 '0'.toNat

/-- What so many digits of any base add up to. -/
theorem foldl_base_lt {α : Type} {base : Nat} {digit : α → Nat} {digits : List α}
    (h : ∀ d ∈ digits, digit d < base) (n : Nat) :
    digits.foldl (fun n d => base * n + digit d) n < (n + 1) * base ^ digits.length := by
  induction digits generalizing n with
  | nil => simp
  | cons d rest ih =>
    have hd := h d (List.mem_cons_self ..)
    have hle : base * n + digit d + 1 ≤ (n + 1) * base := by
      rw [Nat.add_mul, Nat.one_mul, Nat.mul_comm n base]
      omega
    rw [List.foldl_cons, List.length_cons, Nat.pow_succ', ← Nat.mul_assoc]
    exact Nat.lt_of_lt_of_le (ih (fun e he => h e (List.mem_cons_of_mem d he)) _)
      (Nat.mul_le_mul_right _ hle)

/-- So many digits stand for a number below that power of ten. -/
theorem value_lt {digits : List Char} (h : ∀ c ∈ digits, c.isDigit) :
    value digits < 10 ^ digits.length := by
  have hdigit : ∀ c ∈ digits, c.toNat - '0'.toNat < 10 :=
    fun c hc => Nat.lt_succ_of_le (digit_le (h c hc))
  have hlt := foldl_base_lt hdigit 0
  rwa [Nat.zero_add, Nat.one_mul] at hlt

theorem value_digits (n : Nat) : value (digits n) = n := by
  fun_induction digits n with
  | case1 n h =>
    have := value_append_one [] (digitChar n)
    rw [toNat_digitChar h, Nat.add_sub_cancel_left] at this
    simpa [value] using this
  | case2 n h ih =>
    rw [value_append_one, ih, toNat_digitChar (Nat.mod_lt n (by decide)), Nat.add_sub_cancel_left]
    omega

theorem isDigit_of_mem_digits {n : Nat} {c : Char} (h : c ∈ digits n) : c.isDigit := by
  fun_induction digits n with
  | case1 n hn =>
    rw [List.mem_singleton.mp h]
    exact isDigit_digitChar hn
  | case2 n _ ih =>
    rcases List.mem_append.mp h with h | h
    · exact ih h
    · rw [List.mem_singleton.mp h]
      exact isDigit_digitChar (Nat.mod_lt n (by decide))

theorem digits_ne_nil (n : Nat) : digits n ≠ [] := by
  rw [digits]
  split <;> simp

/-- Only the digits of zero begin with a zero. -/
theorem eq_zero_of_digits {n : Nat} {rest : List Char} (h : digits n = '0' :: rest) : n = 0 := by
  fun_induction digits n generalizing rest with
  | case1 n hn =>
    have hzero : (digitChar n).toNat = '0'.toNat := by rw [(List.cons.inj h).1]
    rw [toNat_digitChar hn] at hzero
    omega
  | case2 n hn ih =>
    cases hdigits : digits (n / 10) with
    | nil => exact absurd hdigits (digits_ne_nil (n / 10))
    | cons c front =>
      rw [hdigits, List.cons_append] at h
      have := ih (by rw [hdigits, (List.cons.inj h).1])
      omega

theorem digits_zero : digits 0 = ['0'] := by
  rw [digits]
  rfl

theorem length_digits_le {width n : Nat} (hwidth : 0 < width) (h : n < 10 ^ width) :
    (digits n).length ≤ width := by
  induction width generalizing n with
  | zero => omega
  | succ width ih =>
    rw [digits]
    split
    · exact hwidth
    · rw [List.length_append, List.length_singleton, Nat.add_le_add_iff_right]
      rcases Nat.eq_zero_or_pos width with rfl | hpos
      · omega
      · exact ih hpos (by rw [Nat.pow_succ] at h; omega)

/-! ### Padded digits -/

theorem value_zeros (count : Nat) (digits : List Char) :
    value (List.replicate count '0' ++ digits) = value digits := by
  induction count with
  | zero => rfl
  | succ count ih => exact ih

theorem value_padded (width n : Nat) : value (padded width n) = n := by
  rw [padded, value_zeros, value_digits]

theorem isDigit_of_mem_padded {width n : Nat} {c : Char} (h : c ∈ padded width n) : c.isDigit := by
  rcases List.mem_append.mp h with h | h
  · rw [List.eq_of_mem_replicate h]
    rfl
  · exact isDigit_of_mem_digits h

theorem length_padded {width n : Nat} (hwidth : 0 < width) (h : n < 10 ^ width) :
    (padded width n).length = width := by
  have := length_digits_le hwidth h
  rw [padded, List.length_append, List.length_replicate]
  omega

/-! ### Digits at the front of a text -/

/-- The text goes on with something that is no digit, or ends. -/
def NoDigit (text : List Char) : Prop := ∀ c, text.head? = some c → c.isDigit = false

theorem noDigit_cons {c : Char} (h : c.isDigit = false) (rest : List Char) :
    NoDigit (c :: rest) := by
  intro d hd
  cases hd
  exact h

theorem span_of_digits {digits rest : List Char} (h : ∀ c ∈ digits, c.isDigit)
    (hrest : NoDigit rest) : span (digits ++ rest) = (digits, rest) := by
  have hstop : rest.takeWhile Char.isDigit = [] ∧ rest.dropWhile Char.isDigit = rest := by
    cases rest with
    | nil => exact ⟨rfl, rfl⟩
    | cons c rest => simp [hrest c rfl]
  rw [span, List.takeWhile_append_of_pos h, List.dropWhile_append_of_pos h, hstop.1, hstop.2,
    List.append_nil]

end LiveTail.Number.Numeral
