import LiveTail.Text.Classes

/-! Text between white space.

What begins and ends with something else is all that is left of it (`trim_append`). -/
namespace LiveTail.Text

theorem isBlank_of_isDigit {c : Char} (h : c.isDigit) : isBlank c = false := by
  simp only [Char.isDigit, Bool.and_eq_true, decide_eq_true_eq, UInt32.le_iff_toNat_le] at h
  have hlow : 48 ≤ c.toNat := h.1
  have hhigh : c.toNat ≤ 57 := h.2
  simp only [isBlank, Bool.or_eq_false_iff, Bool.and_eq_false_iff, decide_eq_false_iff_not,
    beq_eq_false_iff_ne]
  omega

theorem trimStart_append {left rest : List Char} (hleft : ∀ c ∈ left, isBlank c)
    (hrest : ∀ c, rest.head? = some c → isBlank c = false) : trimStart (left ++ rest) = rest := by
  rw [trimStart, List.dropWhile_append_of_pos hleft]
  cases rest with
  | nil => rfl
  | cons c rest => rw [List.dropWhile_cons, hrest c rfl, if_neg Bool.false_ne_true]

theorem trim_append {left text right : List Char} (hleft : ∀ c ∈ left, isBlank c)
    (hright : ∀ c ∈ right, isBlank c) (hne : text ≠ [])
    (hfirst : ∀ c, text.head? = some c → isBlank c = false)
    (hlast : ∀ c, text.getLast? = some c → isBlank c = false) :
    trim (left ++ text ++ right) = text := by
  have hfront : trimStart (left ++ (text ++ right)) = text ++ right := by
    refine trimStart_append hleft fun c hc => hfirst c ?_
    cases text with
    | nil => exact absurd rfl hne
    | cons d text => exact hc
  have hback : trimStart (right.reverse ++ text.reverse) = text.reverse := by
    apply trimStart_append
    · exact fun c hc => hright c (List.mem_reverse.mp hc)
    · rwa [List.head?_reverse]
  rw [trim, List.append_assoc, hfront, List.reverse_append, hback, List.reverse_reverse]

end LiveTail.Text
