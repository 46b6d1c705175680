import LiveTail.Number.Whole

/-! How long to wait before connecting again.

A wait is either always the same, or doubles from a first length until it reaches
a greatest one. There is no last attempt: only a stop ends a session. Lengths are
in milliseconds. -/
namespace LiveTail.Link

inductive Backoff where
  | fixed (delay : Nat)
  | doubling (first most : Nat)
deriving DecidableEq, Repr

namespace Backoff

/-- The greatest factor, and the greatest number of waits that is counted. -/
def ceiling : Nat := 2 ^ 32 - 1

instance : Inhabited Backoff := ⟨.fixed 1000⟩

/-- How many times the first length the wait after `attempt` earlier ones is, as long
as the factor has a word of 32 bits. -/
def factor (attempt : Nat) : Nat := if attempt < 32 then 2 ^ attempt else ceiling

/-- The wait after `attempt` earlier ones. -/
def delay : Backoff → Nat → Nat
  | fixed delay, _ => delay
  | doubling first most, attempt => min (first * factor attempt) most

/-- A greatest length counts only when it is above the first. -/
def ofMillis (first : Nat) (most : Option Nat) : Backoff :=
  match most with
  | some most => if first < most then doubling first most else fixed first
  | none => fixed first

end Backoff
end LiveTail.Link
