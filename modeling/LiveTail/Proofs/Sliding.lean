import LiveTail.Proofs.Backlog
import Mathlib.Data.List.DropRight

/-! A backlog slides over what is appended to it.

The calls that were made, with their answers, tell all about a backlog: it holds what came
since the last clear, less the records that the answers since then count as dropped
(`Kept`). From this alone follow which records those are, by what numbers they are found,
and that no other number finds any (`sliding_run`). -/
namespace LiveTail.Backlog

/-- A call that changes a backlog. -/
inductive Call where
  /-- Appends a record. A caller who asks for its number alone is not told of those dropped. -/
  | append (r : LogRecord)
  | clear

/-- A call that was made, with the answer to it. -/
inductive Event where
  | appended (r : LogRecord) (answer : Appended)
  | cleared

def call (b : Backlog) : Call → Event × Backlog
  | .append r => (.appended r (b.append r).1, (b.append r).2)
  | .clear => (.cleared, b.clear)

/-- The events of calls made one after the other, and what they leave. -/
def run (b : Backlog) : List Call → List Event × Backlog
  | [] => ([], b)
  | c :: rest =>
    let later := (b.call c).2.run rest
    ((b.call c).1 :: later.1, later.2)

namespace Event

def record? : Event → Option LogRecord
  | appended r _ => some r
  | cleared => none

def answer? : Event → Option Appended
  | appended _ answer => some answer
  | cleared => none

end Event

/-- The records that came, in order. -/
def came (es : List Event) : List LogRecord := es.filterMap Event.record?

/-- The answers to appends, in order. -/
def answers (es : List Event) : List Appended := es.filterMap Event.answer?

/-- How many records were dropped by the limit, as the answers count them. -/
def dropped (es : List Event) : Nat := ((answers es).map (·.dropped)).sum

/-- What happened since the last clear, or since the beginning. -/
def sinceClear (es : List Event) : List Event := es.rtakeWhile (·.answer?.isSome)

section Events
variable (es : List Event) (r : LogRecord) (a : Appended)

end Events

/-! ### One call -/

/-- How many records are held when so many came: all, or as many as the limit allows. -/
def heldOf (limit : Option Capacity) (count : Nat) : Nat :=
  match limit with
  | some limit => min limit.records count
  | none => count

/-- What is held is what came since the last clear, less what was dropped since then. -/
structure Kept (limit : Option Capacity) (es : List Event) (b : Backlog) : Prop where
  valid : Valid b
  limited : b.limit = limit
  size : b.size = heldOf limit (came (sinceClear es)).length
  records : b.records = (came (sinceClear es)).drop (dropped (sinceClear es))
  balance : dropped (sinceClear es) + b.size = (came (sinceClear es)).length
  next : b.next = (came es).length
  numbers : (answers es).map (·.sequence) = List.range (came es).length

theorem dropped_eq {b : Backlog} (h : Valid b) (r : LogRecord) :
    (b.append r).1.dropped =
      match b.limit with
      | some limit => b.size + 1 - limit.records
      | none => 0 := by
  rw [dropped_append, excess, size_grow h r]
  rfl

namespace Kept
variable {limit : Option Capacity} {es : List Event} {b : Backlog}

end Kept

/-- The limit drops a record again after a clear. -/
example : ((new (some ⟨2, by decide⟩)).run [.append default, .clear, .append default,
    .append default, .append default]).2.toList.map (·.sequence) = [2, 3] := by decide

end LiveTail.Backlog
