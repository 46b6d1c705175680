import LiveTail.Proofs.Link.Session

/-! Waits that double.

A wait is twice the one before, or the greatest, as long as the factor has room in its word
(`delay_succ_iff`). Thirty-two bits have room for the factors of thirty-two waits, and every later
wait has one and the same. So waits that have not reached the greatest by then never do
(`delay_eq_most_iff`).

A machine holds a length of time as a `Span`, in words. What it works out in them is the length
that `delay` says (`length_wait`): where a product has no room it stops at the longest span, and
no greatest wait is that long. The count of waits stays in its word too, whatever happens to a
session (`counted_run`). -/
namespace LiveTail.Link

/-! ### Lengths of time in words -/

/-- A length of time as whole seconds and the nanoseconds beyond them. -/
structure Span where
  seconds : UInt64
  nanos : UInt32
  nanos_lt : nanos.toNat < 1000000000

namespace Span

/-- A length of time in nanoseconds. -/
def length (s : Span) : Nat := s.seconds.toNat * 1000000000 + s.nanos.toNat

def longest : Span := ⟨0xFFFFFFFFFFFFFFFF, 999999999, by decide⟩

theorem toNat_nanos_ofMillis (millis : UInt64) :
    ((millis % 1000).toUInt32 * 1000000).toNat = millis.toNat % 1000 * 1000000 := by
  have hpart : millis.toNat % 1000 < 1000 := Nat.mod_lt _ (by decide)
  simp only [UInt32.toNat_mul, UInt64.toNat_toUInt32, UInt64.toNat_mod, UInt64.reduceToNat,
    UInt32.reduceToNat]
  omega

def ofMillis (millis : UInt64) : Span where
  seconds := millis / 1000
  nanos := (millis % 1000).toUInt32 * 1000000
  nanos_lt := by
    rw [toNat_nanos_ofMillis]
    omega

/-- A product that has room in a word. -/
def product? (a b : UInt64) : Option UInt64 :=
  if a.toNat * b.toNat < 2 ^ 64 then some (a * b) else none

/-- A sum that has room in a word. -/
def sum? (a b : UInt64) : Option UInt64 :=
  if a.toNat + b.toNat < 2 ^ 64 then some (a + b) else none

/-- So many times a span, if its seconds have room. Those among the nanoseconds are carried. -/
def times? (s : Span) (n : UInt32) : Option Span := do
  let nanos := s.nanos.toUInt64 * n.toUInt64
  let seconds ← product? s.seconds n.toUInt64
  let seconds ← sum? seconds (nanos / 1000000000)
  return {
    seconds
    nanos := (nanos % 1000000000).toUInt32
    nanos_lt := by
      simp only [UInt64.toNat_toUInt32, UInt64.toNat_mod, UInt64.reduceToNat]
      omega }

/-- So many times a span, or the longest there is. -/
def times (s : Span) (n : UInt32) : Span := (s.times? n).getD longest

/-- The shorter of two spans. -/
def shorter (s t : Span) : Span :=
  if s.seconds < t.seconds ∨ (s.seconds = t.seconds ∧ s.nanos ≤ t.nanos) then s else t

theorem length_ofMillis (millis : UInt64) :
    (ofMillis millis).length = millis.toNat * 1000000 := by
  simp only [length, ofMillis, toNat_nanos_ofMillis, UInt64.toNat_div, UInt64.reduceToNat]
  omega

theorem length_shorter (s t : Span) : (s.shorter t).length = min s.length t.length := by
  have hs := s.nanos_lt
  have ht := t.nanos_lt
  unfold shorter
  split
  next h =>
    simp only [UInt64.lt_iff_toNat_lt, ← UInt64.toNat_inj, UInt32.le_iff_toNat_le] at h
    simp only [length]
    omega
  next h =>
    simp only [UInt64.lt_iff_toNat_lt, ← UInt64.toNat_inj, UInt32.le_iff_toNat_le] at h
    simp only [length]
    omega

/-- The nanoseconds of a span have room for any factor before their seconds are carried. -/
theorem toNat_nanos_times (s : Span) (n : UInt32) :
    (s.nanos.toUInt64 * n.toUInt64).toNat = s.nanos.toNat * n.toNat := by
  have hroom : s.nanos.toNat * n.toNat < 1000000000 * 2 ^ 32 :=
    Nat.mul_lt_mul_of_lt_of_le s.nanos_lt (Nat.le_of_lt n.toNat_lt) (by decide)
  rw [UInt64.toNat_mul, UInt32.toNat_toUInt64, UInt32.toNat_toUInt64]
  omega

theorem length_longest : longest.length = 2 ^ 64 * 1000000000 - 1 := by decide

/-- A product is exact or the longest span, and the longest only where it would be longer. -/
theorem length_times (s : Span) (n : UInt32) :
    (s.times n).length = min (s.length * n.toNat) longest.length := by
  have hnanos := toNat_nanos_times s n
  have hlength : s.length * n.toNat =
      s.seconds.toNat * n.toNat * 1000000000 + s.nanos.toNat * n.toNat := by
    rw [length, Nat.add_mul, Nat.mul_right_comm]
  rw [hlength, length_longest, times, times?, product?, UInt32.toNat_toUInt64]
  split
  next hproduct =>
    have hseconds : (s.seconds * n.toUInt64).toNat = s.seconds.toNat * n.toNat := by
      rw [UInt64.toNat_mul, UInt32.toNat_toUInt64, Nat.mod_eq_of_lt hproduct]
    have hcarried : (s.nanos.toUInt64 * n.toUInt64 / 1000000000).toNat =
        s.nanos.toNat * n.toNat / 1000000000 := by
      simp only [UInt64.toNat_div, hnanos, UInt64.reduceToNat]
    simp only [Option.bind_eq_bind, Option.bind_some, sum?, hseconds, hcarried]
    split
    next hsum =>
      have hrest : s.nanos.toNat * n.toNat % 1000000000 % 2 ^ 32 =
          s.nanos.toNat * n.toNat % 1000000000 := by omega
      simp only [Option.bind_some, Option.pure_def, Option.getD_some, length, UInt64.toNat_add,
        hseconds, hcarried, Nat.mod_eq_of_lt hsum, UInt64.toNat_toUInt32, UInt64.toNat_mod, hnanos,
        UInt64.reduceToNat, hrest]
      omega
    next hsum =>
      simp only [Option.bind_none, Option.getD_none, length_longest]
      omega
  next hproduct =>
    simp only [Option.bind_eq_bind, Option.bind_none, Option.getD_none, length_longest]
    omega

end Span

/-! ### What the waits are -/

namespace Backoff

theorem factor_le (waits : Nat) : factor waits ≤ ceiling := by
  unfold factor
  split
  next h =>
    have hlast : waits ≤ 31 := Nat.le_of_lt_succ h
    exact Nat.le_trans (Nat.pow_le_pow_right Nat.two_pos hlast) (by decide)
  next => exact Nat.le_refl ceiling

/-- The factors that have room double. -/
theorem factor_succ {waits : Nat} (h : waits < 31) : factor (waits + 1) = 2 * factor waits := by
  rw [factor, factor, if_pos (by omega), if_pos (by omega), Nat.pow_succ']

theorem factor_late {waits : Nat} (h : 32 ≤ waits) : factor waits = ceiling :=
  if_neg (by omega)

theorem factor_mono {a b : Nat} (h : a ≤ b) : factor a ≤ factor b := by
  rcases Nat.lt_or_ge b 32 with hb | hb
  · rw [factor, factor, if_pos (by omega), if_pos hb]
    exact Nat.pow_le_pow_right (by decide) h
  · rw [factor_late hb]
    exact factor_le a

/-- Waits that are not counted any more would make no difference. -/
theorem delay_min (policy : Backoff) (waits : Nat) :
    policy.delay (min waits ceiling) = policy.delay waits := by
  have hceiling : 32 ≤ ceiling := by decide
  cases policy with
  | fixed delay => rfl
  | doubling first most =>
    have hfactor : factor (min waits ceiling) = factor waits := by
      unfold factor
      split <;> split <;> first | omega | rw [Nat.min_eq_left (by omega)]
    rw [delay, delay, hfactor]

section Doubling
variable {first most : Nat}

theorem delay_mono {a b : Nat} (h : a ≤ b) :
    (doubling first most).delay a ≤ (doubling first most).delay b := by
  have hproduct : first * factor a ≤ first * factor b := Nat.mul_le_mul_left first (factor_mono h)
  simp only [delay]
  omega

theorem delay_late {waits : Nat} (h : 32 ≤ waits) :
    (doubling first most).delay waits = min (first * ceiling) most := by
  rw [delay, factor_late h]

/-- A wait is twice the one before, or the greatest, while the factor has room, and for ever if
the factor that is left reaches the greatest. -/
theorem delay_succ_iff (hfirst : 1 ≤ first) (waits : Nat) :
    (doubling first most).delay (waits + 1) = min (2 * (doubling first most).delay waits) most ↔
      waits < 31 ∨ most ≤ first * ceiling := by
  have hbig : 1 ≤ first * ceiling := Nat.mul_pos hfirst (by decide)
  rcases Nat.lt_trichotomy waits 31 with hearly | hlast | hlate
  · have hproduct : first * factor (waits + 1) = 2 * (first * factor waits) := by
      rw [factor_succ hearly, Nat.mul_left_comm]
    simp only [delay, hproduct, hearly, true_or, iff_true]
    omega
  · -- The factor that has no room any more would have been one greater than the one that is left.
    have hfactor : first * factor 31 * 2 = first * ceiling + first := by
      rw [Nat.mul_assoc, ← Nat.mul_succ]
      rfl
    have hnext : first * factor 32 = first * ceiling := by rw [factor_late (Nat.le_refl 32)]
    subst hlast
    simp only [delay, hnext, Nat.lt_irrefl, false_or]
    omega
  · rw [delay_late (by omega), delay_late (by omega)]
    omega

/-- The greatest wait is reached exactly if the greatest factor reaches it. -/
theorem delay_eq_most_iff :
    (∃ waits, (doubling first most).delay waits = most) ↔ most ≤ first * ceiling := by
  constructor
  · rintro ⟨waits, hwaits⟩
    have hproduct : first * factor waits ≤ first * ceiling :=
      Nat.mul_le_mul_left first (factor_le waits)
    simp only [delay] at hwaits
    omega
  · intro h
    exact ⟨32, by rw [delay_late (Nat.le_refl 32), Nat.min_eq_right h]⟩

end Doubling

/-! ### What is worked out in words -/

/-- The factor after so many waits: a one that is shifted, or all ones where it has no room. -/
def shifted (waits : UInt32) : UInt32 := if waits < 32 then 1 <<< waits else 0xFFFFFFFF

theorem toNat_shifted (waits : UInt32) : (shifted waits).toNat = factor waits.toNat := by
  unfold shifted factor
  split
  next h =>
    have hsmall : waits.toNat < 32 := UInt32.lt_iff_toNat_lt.mp h
    have hroom : (2 : Nat) ^ waits.toNat < 2 ^ 32 := Nat.pow_lt_pow_right Nat.one_lt_two hsmall
    rw [if_pos hsmall, UInt32.toNat_shiftLeft, Nat.mod_eq_of_lt hsmall, Nat.shiftLeft_eq]
    show 1 * 2 ^ waits.toNat % 2 ^ 32 = _
    rw [Nat.one_mul, Nat.mod_eq_of_lt hroom]
  next h =>
    have hlarge : ¬ waits.toNat < 32 := fun hsmall => h (UInt32.lt_iff_toNat_lt.mpr hsmall)
    rw [if_neg hlarge]
    rfl

/-- The wait after so many others, as a machine works it out. -/
def wait (first most : UInt64) (waits : UInt32) : Span :=
  ((Span.ofMillis first).times (shifted waits)).shorter (Span.ofMillis most)

theorem length_wait (first most : UInt64) (waits : UInt32) :
    (wait first most waits).length =
      (doubling first.toNat most.toNat).delay waits.toNat * 1000000 := by
  have hlongest : most.toNat * 1000000 ≤ Span.longest.length := by
    have hmost := most.toNat_lt
    rw [Span.length_longest]
    omega
  rw [wait, Span.length_shorter, Span.length_times, Span.length_ofMillis, Span.length_ofMillis,
    toNat_shifted, delay, Nat.mul_right_comm]
  omega

end Backoff

/-! ### The count of waits -/

namespace Session

/-- No driver has counted more waits than a word of 32 bits has room for. -/
def Counted (s : Session) : Prop := ∀ d ∈ s.drivers, d.attempt ≤ Backoff.ceiling

theorem counted_cancel {s : Session} (h : Counted s) : Counted s.cancel := by
  intro d hd
  obtain ⟨place, hplace⟩ := List.mem_iff_getElem?.mp hd
  unfold cancel at hplace
  split at hplace
  next held _ =>
    rw [List.getElem?_modify] at hplace
    obtain ⟨e, he, rfl⟩ := Option.map_eq_some_iff.mp hplace
    have hcount := h e (List.mem_of_getElem? he)
    split
    · exact hcount
    · exact hcount
  next => exact h d (List.mem_of_getElem? hplace)

/-- The count stops at its greatest value. -/
theorem attempt_resume {d : Driver} (h : d.attempt ≤ Backoff.ceiling) (policy : Backoff)
    (r : Registry) (generation : Nat) (outcome : Outcome) :
    (d.resume policy r generation outcome).2.attempt ≤ Backoff.ceiling := by
  cases d.resumed policy r generation outcome with
  | idle _ hresume => rwa [hresume]
  | finishes _ _ hresume => rwa [hresume]
  | connects _ hresume => rwa [hresume]
  | opens _ _ hresume =>
    rw [hresume]
    exact Nat.zero_le _
  | loses _ hresume =>
    rw [hresume]
    exact Nat.min_le_right ..
  | reads _ _ _ _ hresume => rwa [hresume]

theorem counted_step {s : Session} (h : Counted s) (event : Event) : Counted (s.step event).2 := by
  cases event with
  | start =>
    simp only [step, start]
    split
    · exact h
    · intro d hd
      rcases List.mem_append.mp hd with hd | hd
      · exact h d hd
      · rw [List.mem_singleton.mp hd]
        exact Nat.zero_le _
  | stop =>
    simp only [step, stop]
    split
    · exact counted_cancel h
    · exact counted_cancel h
  | drop => exact counted_cancel h
  | subscribe kind => exact h
  | unsubscribe id => exact h
  | resume place outcome =>
    simp only [step, resume]
    split
    next d hd =>
      intro e he
      rcases List.mem_or_eq_of_mem_set he with he | rfl
      · exact h e he
      · exact attempt_resume (h d (List.mem_of_getElem? hd)) ..
    next => exact h

theorem counted_run {s : Session} (h : Counted s) (events : List Event) :
    Counted (s.run events).2 := by
  induction events generalizing s with
  | nil => exact h
  | cons event rest ih => exact ih (counted_step h event)

end Session

/-! ### The waits of a policy -/

namespace Backoff

/-- What the waits are of a policy that doubles from a first one to a greatest. -/
structure Doubles (first most : UInt64) (policy : Backoff) : Prop where
  starts : policy.delay 0 = first.toNat
  doubles_iff : ∀ waits, policy.delay (waits + 1) = min (2 * policy.delay waits) most.toNat ↔
    waits < 31 ∨ most.toNat ≤ first.toNat * ceiling
  /-- After thirty-two waits nothing changes any more. -/
  settles : ∀ waits, 32 ≤ waits → policy.delay waits = min (first.toNat * ceiling) most.toNat
  grows : ∀ a b, a ≤ b → policy.delay a ≤ policy.delay b
  capped : ∀ waits, policy.delay waits ≤ most.toNat
  reaches_iff : (∃ waits, policy.delay waits = most.toNat) ↔ most.toNat ≤ first.toNat * ceiling
  stays : ∀ a b, a ≤ b → policy.delay a = most.toNat → policy.delay b = most.toNat
  /-- What is shifted and multiplied in words gives the wait, in nanoseconds. -/
  words : ∀ waits : UInt32, (shifted waits).toNat = factor waits.toNat ∧
    (wait first most waits).length = policy.delay waits.toNat * 1000000
  /-- No history of a session leads to a count that is no word. -/
  counted : ∀ (target : Target) (registry : Registry) (events : List Session.Event),
    (Session.run { target, policy, registry } events).2.Counted
  /-- A count that has stopped gives the wait of all later ones. -/
  stops : ∀ waits, policy.delay (min waits ceiling) = policy.delay waits

/-- **A policy doubles its waits** until they are the greatest, if they are by the time the
factor has no more room: until then each is twice the one before, and if the greatest is not
reached then, it never is. In all cases the waits begin with the first, never get shorter, never
pass the greatest and stay there once they are, and nothing that is worked out in words is cut. -/
theorem doubles_ofMillis {first most : UInt64} (hfirst : 1 ≤ first) (hmost : first < most) :
    Doubles first most (ofMillis first.toNat (some most.toNat)) := by
  have hone : 1 ≤ first.toNat := UInt64.le_iff_toNat_le.mp hfirst
  have hless : first.toNat < most.toNat := UInt64.lt_iff_toNat_lt.mp hmost
  have hpolicy : ofMillis first.toNat (some most.toNat) = doubling first.toNat most.toNat :=
    if_pos hless
  have hcapped : ∀ waits, (doubling first.toNat most.toNat).delay waits ≤ most.toNat :=
    fun waits => Nat.min_le_right ..
  rw [hpolicy]
  constructor
  case starts =>
    show min (first.toNat * 1) most.toNat = _
    omega
  case doubles_iff => exact delay_succ_iff hone
  case settles => exact fun waits => delay_late
  case grows => exact fun a b => delay_mono
  case capped => exact hcapped
  case reaches_iff => exact delay_eq_most_iff
  case stays =>
    intro a b hab ha
    exact Nat.le_antisymm (hcapped b) (Nat.le_trans (Nat.le_of_eq ha.symm) (delay_mono hab))
  case words => exact fun waits => ⟨toNat_shifted waits, length_wait first most waits⟩
  case counted =>
    intro target registry events
    have hnew : Session.Counted { target, policy := doubling first.toNat most.toNat, registry } :=
      fun d hd => absurd hd List.not_mem_nil
    exact Session.counted_run hnew events
  case stops => exact delay_min _

/-- From a millisecond to a hundred days: the greatest wait is never reached. -/
theorem doubles_ofMillis_days :
    (1 : UInt64) ≤ 1 ∧ (1 : UInt64) < 8640000000 ∧
      ¬ ∃ waits, (ofMillis 1 (some 8640000000)).delay waits = 8640000000 := by
  have hfirst : (1 : UInt64) ≤ 1 := by decide
  have hmost : (1 : UInt64) < 8640000000 := by decide
  refine ⟨hfirst, hmost, fun hreached => ?_⟩
  exact absurd ((doubles_ofMillis hfirst hmost).reaches_iff.mp hreached) (by decide)

/-- The wait after thirty-two others is neither twice the one before nor the greatest. -/
theorem delay_stalled :
    (ofMillis 1 (some 8640000000)).delay 31 = 2147483648 ∧
      (ofMillis 1 (some 8640000000)).delay 32 = 4294967295 ∧
      (ofMillis 1 (some 8640000000)).delay (31 + 1) ≠
        min (2 * (ofMillis 1 (some 8640000000)).delay 31) 8640000000 := by
  decide

end Backoff
end LiveTail.Link
