import LiveTail.Base64
import LiveTail.Proofs.Reading

/-! Base64 gives back the bytes that were encoded, and reads no other text.

Three bytes and their four symbols hold the same bits (`triple_symbols`,
`encode_triple`). All groups but the last are complete; the last one is read apart,
with its padding. Since the bits that are left over have to be zero, there is one text
for the bytes that it decodes to (`encode_of_decode`). -/
namespace LiveTail.Base64

theorem bits?_symbol {n : Nat} (h : n < 64) : bits? (symbol n) = some n := by
  have key : ∀ n : Fin 64, bits? (symbol n) = some n.1 := by decide
  exact key ⟨n, h⟩

theorem symbol_ne_pad {n : Nat} (h : n < 64) : symbol n ≠ pad := by
  have key : ∀ n : Fin 64, symbol n ≠ pad := by decide
  exact key ⟨n, h⟩

theorem toNat_symbol_lt {n : Nat} (h : n < 64) : (symbol n).toNat < 128 := by
  have key : ∀ n : Fin 64, (symbol n).toNat < 128 := by decide
  exact key ⟨n, h⟩

/-- The symbols of three bytes are their bits. -/
theorem triple_symbols (a b c : UInt8) :
    triple (a.toNat / 4) (a.toNat % 4 * 16 + b.toNat / 16) (b.toNat % 16 * 4 + c.toNat / 64)
      (c.toNat % 64) = [a, b, c] := by
  have ha := a.toNat_lt
  have hb := b.toNat_lt
  have hc := c.toNat_lt
  have hfirst : a.toNat / 4 * 4 + (a.toNat % 4 * 16 + b.toNat / 16) / 16 = a.toNat := by omega
  have hsecond : (a.toNat % 4 * 16 + b.toNat / 16) % 16 * 16 +
      (b.toNat % 16 * 4 + c.toNat / 64) / 4 = b.toNat := by omega
  have hthird : (b.toNat % 16 * 4 + c.toNat / 64) % 4 * 64 + c.toNat % 64 = c.toNat := by omega
  rw [triple, hfirst, hsecond, hthird, UInt8.ofNat_toNat, UInt8.ofNat_toNat, UInt8.ofNat_toNat]

/-! ### The last group -/

theorem lastSymbols_symbol {n : Nat} (h : n < 64) (offset : Nat) (rest : List UInt8) :
    lastSymbols offset none (symbol n :: rest) =
      (lastSymbols (offset + 1) none rest).map fun p => (n :: p.1, p.2) := by
  rw [lastSymbols.eq_def]
  simp only [if_neg (symbol_ne_pad h), bits?_symbol h]
  cases lastSymbols (offset + 1) none rest <;> rfl

theorem lastSymbols_pad {offset : Nat} (h : 2 ≤ offset % 4) (first : Option Nat)
    (rest : List UInt8) :
    lastSymbols offset first (pad :: rest) =
      (lastSymbols (offset + 1) (some (first.getD offset)) rest).map fun p => (p.1, p.2 + 1) := by
  rw [lastSymbols.eq_def]
  simp only [if_pos, if_neg (show ¬offset % 4 < 2 by omega)]
  cases lastSymbols (offset + 1) (some (first.getD offset)) rest <;> rfl

theorem lastSymbols_nil (offset : Nat) (first : Option Nat) :
    lastSymbols offset first [] = .ok ([], 0) := by
  rw [lastSymbols.eq_def]

section Last
variable (offset : Nat) {a b c d : Nat} (hoffset : offset % 4 = 0) (ha : a < 64) (hb : b < 64)

include ha hb

theorem decodeLast_four (hc : c < 64) (hd : d < 64) :
    decodeLast offset [symbol a, symbol b, symbol c, symbol d] = .ok (triple a b c d) := by
  rw [decodeLast, lastSymbols_symbol ha, lastSymbols_symbol hb, lastSymbols_symbol hc,
    lastSymbols_symbol hd, lastSymbols_nil]
  simp [Except.map, bind, Except.bind, lastBytes]

include hoffset

theorem decodeLast_three (hc : c < 64) (hbits : c % 4 = 0) :
    decodeLast offset [symbol a, symbol b, symbol c, pad] = .ok ((triple a b c 0).take 2) := by
  rw [decodeLast, lastSymbols_symbol ha, lastSymbols_symbol hb, lastSymbols_symbol hc,
    lastSymbols_pad (by omega), lastSymbols_nil]
  simp [Except.map, bind, Except.bind, lastBytes, hbits]

theorem decodeLast_two (hbits : b % 16 = 0) :
    decodeLast offset [symbol a, symbol b, pad, pad] = .ok ((triple a b 0 0).take 1) := by
  rw [decodeLast, lastSymbols_symbol ha, lastSymbols_symbol hb, lastSymbols_pad (by omega),
    lastSymbols_pad (by omega), lastSymbols_nil]
  simp [Except.map, bind, Except.bind, lastBytes, hbits]

end Last

/-! ### All groups -/

theorem inner_symbol {n : Nat} (h : n < 64) (offset : Nat) : inner (symbol n) offset = .ok n := by
  rw [inner, bits?_symbol h]

/-- A group that others follow. -/
theorem groups_symbols {a b c d : Nat} (ha : a < 64) (hb : b < 64) (hc : c < 64) (hd : d < 64)
    (front : List UInt8) (offset : Nat) {rest : List UInt8} (hrest : rest ≠ []) :
    groups front offset (symbol a :: symbol b :: symbol c :: symbol d :: rest) =
      groups ((triple a b c d).reverse ++ front) (offset + 4) rest := by
  cases rest with
  | nil => contradiction
  | cons e rest =>
    rw [groups, inner_symbol ha, inner_symbol hb, inner_symbol hc, inner_symbol hd]
    rfl

theorem groups_last (front : List UInt8) (offset : Nat) {group bytes : List UInt8}
    (hsize : group.length ≤ 4) (h : decodeLast offset group = .ok bytes) :
    groups front offset group = .ok (front.reverse ++ bytes) := by
  rw [groups.eq_def]
  split
  next =>
    simp only [List.length_cons] at hsize
    omega
  next =>
    rw [h]
    rfl

theorem encode_ne_nil {bytes : List UInt8} (h : bytes ≠ []) : encode bytes ≠ [] := by
  fun_cases encode bytes <;> simp_all

/-- Groups that begin a text begin at multiples of four. -/
theorem groups_encode (front bytes : List UInt8) {offset : Nat} (h : offset % 4 = 0) :
    groups front offset (encode bytes) = .ok (front.reverse ++ bytes) := by
  fun_induction encode bytes generalizing front offset with
  | case1 =>
    have hlast : decodeLast offset [] = .ok [] := by
      rw [decodeLast, lastSymbols_nil]
      rfl
    exact groups_last front offset (by decide) hlast
  | case2 a =>
    have ha := a.toNat_lt
    have htriple : triple (a.toNat / 4) (a.toNat % 4 * 16) 0 0 = [a, 0, 0] := by
      simpa using triple_symbols a 0 0
    have hlast := decodeLast_two offset h (a := a.toNat / 4) (b := a.toNat % 4 * 16) (by omega)
      (by omega) (by omega)
    rw [htriple] at hlast
    exact groups_last front offset (by simp) hlast
  | case3 a b =>
    have ha := a.toNat_lt
    have hb := b.toNat_lt
    have htriple : triple (a.toNat / 4) (a.toNat % 4 * 16 + b.toNat / 16) (b.toNat % 16 * 4) 0 =
        [a, b, 0] := by
      simpa using triple_symbols a b 0
    have hlast := decodeLast_three offset h (a := a.toNat / 4) (b := a.toNat % 4 * 16 + b.toNat / 16)
      (c := b.toNat % 16 * 4) (by omega) (by omega) (by omega) (by omega)
    rw [htriple] at hlast
    exact groups_last front offset (by simp) hlast
  | case4 a b c rest ih =>
    have ha := a.toNat_lt
    have hb := b.toNat_lt
    have hc := c.toNat_lt
    by_cases hrest : rest = []
    · have hlast := decodeLast_four offset (a := a.toNat / 4)
        (b := a.toNat % 4 * 16 + b.toNat / 16) (c := b.toNat % 16 * 4 + c.toNat / 64)
        (d := c.toNat % 64) (by omega) (by omega) (by omega) (by omega)
      rw [triple_symbols] at hlast
      rw [hrest]
      exact groups_last front offset (by simp [encode]) hlast
    · rw [groups_symbols (by omega) (by omega) (by omega) (by omega) front offset
        (encode_ne_nil hrest), triple_symbols, ih _ (by omega)]
      simp

theorem length_encode (bytes : List UInt8) : (encode bytes).length % 4 = 0 := by
  fun_induction encode bytes with
  | case1 => rfl
  | case2 a => simp
  | case3 a b => simp
  | case4 a b c rest ih =>
    simp only [List.length_cons]
    omega

/-- **What is encoded decodes to itself.** -/
theorem decode_encode (bytes : List UInt8) : decode (encode bytes) = .ok bytes := by
  have hgroups : groups [] 0 (encode bytes) = .ok bytes := groups_encode [] bytes rfl
  have hlength := length_encode bytes
  rw [decode]
  split
  next last hlast =>
    rw [if_neg fun hbad => by omega]
    exact hgroups
  next hnone =>
    have hempty := List.getLast?_eq_none_iff.mp hnone
    by_cases hbytes : bytes = []
    · rw [hbytes]
    · exact absurd hempty (encode_ne_nil hbytes)

/-- All symbols are ASCII. -/
theorem toNat_lt_of_mem_encode {bytes : List UInt8} {b : UInt8} (h : b ∈ encode bytes) :
    b.toNat < 128 := by
  fun_induction encode bytes with
  | case1 => cases h
  | case2 a =>
    have ha := a.toNat_lt
    simp only [List.mem_cons, List.not_mem_nil, or_false] at h
    rcases h with rfl | rfl | rfl | rfl
    · exact toNat_symbol_lt (by omega)
    · exact toNat_symbol_lt (by omega)
    · decide
    · decide
  | case3 a b =>
    have ha := a.toNat_lt
    have hb := b.toNat_lt
    simp only [List.mem_cons, List.not_mem_nil, or_false] at h
    rcases h with rfl | rfl | rfl | rfl
    · exact toNat_symbol_lt (by omega)
    · exact toNat_symbol_lt (by omega)
    · exact toNat_symbol_lt (by omega)
    · decide
  | case4 a b c rest ih =>
    have ha := a.toNat_lt
    have hb := b.toNat_lt
    have hc := c.toNat_lt
    simp only [List.mem_cons] at h
    rcases h with rfl | rfl | rfl | rfl | h
    · exact toNat_symbol_lt (by omega)
    · exact toNat_symbol_lt (by omega)
    · exact toNat_symbol_lt (by omega)
    · exact toNat_symbol_lt (by omega)
    · exact ih h

/-! ### Only what is encoded decodes -/

/-- A symbol has its bits and no others. -/
theorem symbol_of_bits? {b : UInt8} {n : Nat} (h : bits? b = some n) : n < 64 ∧ b = symbol n := by
  have hback : ∀ k, k = b.toNat → b = UInt8.ofNat k := by
    rintro k rfl
    exact UInt8.ofNat_toNat.symm
  simp only [bits?] at h
  split at h
  next hupper =>
    cases h
    refine ⟨by omega, ?_⟩
    rw [symbol, if_pos (by omega)]
    exact hback _ (by omega)
  next =>
    split at h
    next hlower =>
      cases h
      refine ⟨by omega, ?_⟩
      rw [symbol, if_neg (by omega), if_pos (by omega)]
      exact hback _ (by omega)
    next =>
      split at h
      next hdigit =>
        cases h
        refine ⟨by omega, ?_⟩
        rw [symbol, if_neg (by omega), if_neg (by omega), if_pos (by omega)]
        exact hback _ (by omega)
      next =>
        split at h
        next hplus =>
          cases h
          exact ⟨by decide, hback 43 hplus.symm⟩
        next =>
          obtain ⟨hslash, hn⟩ := Option.ite_none_right_eq_some.mp h
          cases hn
          exact ⟨by decide, hback 47 hslash.symm⟩

theorem symbol_of_inner {b : UInt8} {offset n : Nat} (h : inner b offset = .ok n) :
    n < 64 ∧ b = symbol n := by
  unfold inner at h
  split at h
  next m hm =>
    obtain rfl := Except.ok.inj h
    exact symbol_of_bits? hm
  next => cases h

/-- The six bits of a symbol within the bytes of its group. -/
theorem toNat_first {a b : Nat} (ha : a < 64) (hb : b < 64) :
    (UInt8.ofNat (a * 4 + b / 16)).toNat = a * 4 + b / 16 :=
  UInt8.toNat_ofNat_of_lt' (by simp only [UInt8.size]; omega)

theorem toNat_second {b c : Nat} (hc : c < 64) :
    (UInt8.ofNat (b % 16 * 16 + c / 4)).toNat = b % 16 * 16 + c / 4 :=
  UInt8.toNat_ofNat_of_lt' (by simp only [UInt8.size]; omega)

theorem toNat_third {c d : Nat} (hd : d < 64) :
    (UInt8.ofNat (c % 4 * 64 + d)).toNat = c % 4 * 64 + d :=
  UInt8.toNat_ofNat_of_lt' (by simp only [UInt8.size]; omega)

section Group
variable {a b c d : Nat} (ha : a < 64) (hb : b < 64)
include ha hb

/-- The bytes of four symbols are written with these symbols. -/
theorem encode_triple (hc : c < 64) (hd : d < 64) (rest : List UInt8) :
    encode (triple a b c d ++ rest) =
      symbol a :: symbol b :: symbol c :: symbol d :: encode rest := by
  have hfirst : (a * 4 + b / 16) / 4 = a := by omega
  have hsecond : (a * 4 + b / 16) % 4 * 16 + (b % 16 * 16 + c / 4) / 16 = b := by omega
  have hthird : (b % 16 * 16 + c / 4) % 16 * 4 + (c % 4 * 64 + d) / 64 = c := by omega
  have hlast : (c % 4 * 64 + d) % 64 = d := by omega
  rw [triple, List.cons_append, List.cons_append, List.cons_append, List.nil_append, encode,
    toNat_first ha hb, toNat_second hc, toNat_third hd, hfirst, hsecond, hthird, hlast]

/-- Two bytes leave no bits over. -/
theorem encode_three (hc : c < 64) (hbits : c % 4 = 0) :
    encode ((triple a b c 0).take 2) = [symbol a, symbol b, symbol c, pad] := by
  have hfirst : (a * 4 + b / 16) / 4 = a := by omega
  have hsecond : (a * 4 + b / 16) % 4 * 16 + (b % 16 * 16 + c / 4) / 16 = b := by omega
  have hthird : (b % 16 * 16 + c / 4) % 16 * 4 = c := by omega
  rw [triple, List.take_succ_cons, List.take_succ_cons, List.take_zero, encode,
    toNat_first ha hb, toNat_second hc, hfirst, hsecond, hthird]

/-- One byte leaves no bits over. -/
theorem encode_two (hbits : b % 16 = 0) :
    encode ((triple a b 0 0).take 1) = [symbol a, symbol b, pad, pad] := by
  have hfirst : (a * 4 + b / 16) / 4 = a := by omega
  have hsecond : (a * 4 + b / 16) % 4 * 16 = b := by omega
  rw [triple, List.take_succ_cons, List.take_zero, encode, toNat_first ha hb, hfirst, hsecond]

end Group

/-- The last group is symbols and then pads. -/
theorem group_of_lastSymbols {offset : Nat} {first : Option Nat} {group : List UInt8}
    {symbols : List Nat} {pads : Nat} (h : lastSymbols offset first group = .ok (symbols, pads)) :
    group = symbols.map symbol ++ List.replicate pads pad ∧ (∀ n ∈ symbols, n < 64) ∧
      (first.isSome → symbols = []) := by
  induction group generalizing offset first symbols pads with
  | nil =>
    rw [lastSymbols_nil] at h
    cases h
    exact ⟨rfl, fun _ hn => absurd hn List.not_mem_nil, fun _ => rfl⟩
  | cons x rest ih =>
    rw [lastSymbols.eq_def] at h
    dsimp only at h
    split at h
    next hpad =>
      split at h
      next => cases h
      next =>
        obtain ⟨⟨symbols, pads⟩, hrest, h⟩ := of_bind h
        cases h
        obtain ⟨hgroup, -, hnone⟩ := ih hrest
        obtain rfl := hnone rfl
        rw [List.map_nil, List.nil_append] at hgroup
        refine ⟨?_, fun _ hn => absurd hn List.not_mem_nil, fun _ => rfl⟩
        rw [hgroup, hpad]
        rfl
    next =>
      split at h
      next => cases h
      next =>
        split at h
        next => cases h
        next n hn =>
          obtain ⟨hlt, hx⟩ := symbol_of_bits? hn
          obtain ⟨⟨symbols, pads⟩, hrest, h⟩ := of_bind h
          cases h
          obtain ⟨hgroup, hsmall, -⟩ := ih hrest
          refine ⟨?_, List.forall_mem_cons.mpr ⟨hlt, hsmall⟩, nofun⟩
          rw [hgroup, hx]
          rfl

/-- Bits that are left over have to be zero. -/
theorem of_guard {c : Prop} [Decidable c] {found bytes : List UInt8} {blame : DecodeError}
    (h : (if c then Except.ok found else Except.error blame) = Except.ok bytes) :
    c ∧ bytes = found := by
  split at h
  next hc => exact ⟨hc, (Except.ok.inj h).symm⟩
  next => cases h

theorem encode_of_lastBytes {offset : Nat} {group bytes : List UInt8} {symbols : List Nat}
    {pads : Nat} (hgroup : group = symbols.map symbol ++ List.replicate pads pad)
    (hsmall : ∀ n ∈ symbols, n < 64) (hsize : group.length ≤ 4)
    (h : lastBytes offset group symbols pads = .ok bytes) : group = encode bytes := by
  have hlength : group.length = symbols.length + pads := by
    rw [hgroup, List.length_append, List.length_map, List.length_replicate]
  unfold lastBytes at h
  dsimp only at h
  split at h
  next hempty =>
    cases h
    exact List.isEmpty_iff.mp hempty
  next =>
    split at h
    next => cases h
    next hmany =>
      split at h
      next => cases h
      next hfull =>
        -- At least two symbols, and four with the pads.
        have hfour : symbols.length + pads = 4 := by omega
        split at h
        next a b =>
          obtain rfl : pads = 2 := Nat.add_left_cancel hfour
          obtain ⟨hbits, rfl⟩ := of_guard h
          simp only [List.forall_mem_cons] at hsmall
          rw [hgroup, encode_two hsmall.1 hsmall.2.1 hbits]
          rfl
        next a b c =>
          obtain rfl : pads = 1 := Nat.add_left_cancel hfour
          obtain ⟨hbits, rfl⟩ := of_guard h
          simp only [List.forall_mem_cons] at hsmall
          rw [hgroup, encode_three hsmall.1 hsmall.2.1 hsmall.2.2.1 hbits]
          rfl
        next a b c d =>
          obtain rfl : pads = 0 := Nat.add_left_cancel hfour
          cases h
          simp only [List.forall_mem_cons] at hsmall
          have hwhole := encode_triple hsmall.1 hsmall.2.1 hsmall.2.2.1 hsmall.2.2.2.1 []
          rw [List.append_nil] at hwhole
          rw [hgroup, hwhole]
          rfl
        next htwo hthree hfour' =>
          -- No other number of symbols is left.
          match symbols with
          | [] | [_] => simp at hmany
          | [a, b] => exact absurd rfl (htwo a b)
          | [a, b, c] => exact absurd rfl (hthree a b c)
          | [a, b, c, d] => exact absurd rfl (hfour' a b c d)
          | _ :: _ :: _ :: _ :: _ :: _ =>
            simp only [List.length_cons] at hfour
            omega

theorem encode_of_decodeLast {offset : Nat} {group bytes : List UInt8} (hsize : group.length ≤ 4)
    (h : decodeLast offset group = .ok bytes) : group = encode bytes := by
  obtain ⟨⟨symbols, pads⟩, hsymbols, h⟩ := of_bind h
  obtain ⟨hgroup, hsmall, -⟩ := group_of_lastSymbols hsymbols
  exact encode_of_lastBytes hgroup hsmall hsize h

/-- Each group that others follow is the symbols of its three bytes. -/
theorem encode_of_groups {front text bytes : List UInt8} {offset : Nat}
    (h : groups front offset text = .ok bytes) :
    ∃ decoded, text = encode decoded ∧ bytes = front.reverse ++ decoded := by
  fun_induction groups front offset text generalizing bytes with
  | case1 front offset a b c d e rest ih =>
    obtain ⟨na, ha, h⟩ := of_bind h
    obtain ⟨nb, hb, h⟩ := of_bind h
    obtain ⟨nc, hc, h⟩ := of_bind h
    obtain ⟨nd, hd, h⟩ := of_bind h
    obtain ⟨decoded, hrest, hbytes⟩ := ih na nb nc nd h
    obtain ⟨hna, rfl⟩ := symbol_of_inner ha
    obtain ⟨hnb, rfl⟩ := symbol_of_inner hb
    obtain ⟨hnc, rfl⟩ := symbol_of_inner hc
    obtain ⟨hnd, rfl⟩ := symbol_of_inner hd
    refine ⟨triple na nb nc nd ++ decoded, ?_, ?_⟩
    · rw [encode_triple hna hnb hnc hnd, hrest]
    · rw [hbytes, List.reverse_append, List.reverse_reverse, List.append_assoc]
  | case2 front offset group hgroup =>
    have hsize : group.length ≤ 4 := by
      match group with
      | [] | [_] | [_, _] | [_, _, _] | [_, _, _, _] => simp
      | a :: b :: c :: d :: e :: rest => exact absurd rfl (hgroup a b c d e rest)
    obtain ⟨found, hlast, h⟩ := of_bind h
    cases h
    exact ⟨found, encode_of_decodeLast hsize hlast, rfl⟩

/-- **A text that decodes is the one its bytes are written as.** -/
theorem encode_of_decode {text bytes : List UInt8} (h : decode text = .ok bytes) :
    text = encode bytes := by
  rw [decode] at h
  split at h
  next =>
    split at h
    next => cases h
    next =>
      obtain ⟨decoded, htext, rfl⟩ := encode_of_groups h
      exact htext
  next hnone =>
    cases h
    exact List.getLast?_eq_none_iff.mp hnone

end LiveTail.Base64
