/-! Reading step by step.

Where the last of several steps that may fail succeeds, all of them did. A reader is `Local`
when it does not look behind what it reads: with more bytes behind it reads the same and leaves
them. So when it reads all of some bytes, it reads no shorter beginning of them
(`Local.truncated`); what it would find in one, it would find in the whole as well, with
something left. -/
namespace LiveTail

theorem of_bind {ε α β : Type} {x : Except ε α} {f : α → Except ε β} {b : β}
    (h : (x >>= f) = .ok b) : ∃ a, x = .ok a ∧ f a = .ok b := by
  cases x with
  | error e => cases h
  | ok a => exact ⟨a, rfl, h⟩

theorem of_mapError {ε δ α : Type} {f : ε → δ} {x : Except ε α} {a : α}
    (h : x.mapError f = .ok a) : x = .ok a := by
  cases x with
  | error e => cases h
  | ok b => exact congrArg Except.ok (Except.ok.inj h)

/-- What is read does not depend on what comes behind it. -/
structure Local {ε α : Type} (read : List UInt8 → Except ε (α × List UInt8)) : Prop where
  append : ∀ {bytes rest : List UInt8} {a : α}, read bytes = .ok (a, rest) →
    ∀ more, read (bytes ++ more) = .ok (a, rest ++ more)

namespace Local

/-- A reader that reads some bytes to their end fails on every shorter beginning of them. -/
theorem truncated {ε α : Type} {read : List UInt8 → Except ε (α × List UInt8)} (h : Local read)
    {whole front : List UInt8} {a : α} (hwhole : read whole = .ok (a, []))
    (hfront : front <+: whole) (hne : front ≠ whole) : ∃ e, read front = .error e := by
  obtain ⟨more, rfl⟩ := hfront
  cases hread : read front with
  | error e => exact ⟨e, rfl⟩
  | ok answer =>
    obtain ⟨b, rest⟩ := answer
    have hmore := h.append hread more
    rw [hwhole, Except.ok.injEq, Prod.mk.injEq] at hmore
    have hnone : more = [] := (List.append_eq_nil_iff.mp hmore.2.symm).2
    exact absurd (by rw [hnone, List.append_nil]) hne

/-- A reader of so many bytes fails if there are fewer. -/
theorem front {ε α : Type} (n : Nat) (f : List UInt8 → α) (short : List UInt8 → ε) :
    Local fun bytes =>
      if (bytes.take n).length = n then .ok (f (bytes.take n), bytes.drop n)
      else .error (short (bytes.take n)) := by
  refine ⟨fun {bytes} _ _ h more => ?_⟩
  split at h
  next hlength =>
    cases h
    have hle : n ≤ bytes.length := by
      rw [List.length_take] at hlength
      omega
    rw [List.take_append_of_le_length hle, List.drop_append_of_le_length hle, if_pos hlength]
  next => cases h

end Local

end LiveTail
