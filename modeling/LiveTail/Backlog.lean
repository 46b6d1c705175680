import LiveTail.Record.Basic
import LiveTail.Rows.Settings

/-! The backlog: the latest records, numbered in the order they arrived.

Numbers start at zero, grow by one and are never used again, so the records held
have consecutive numbers that end before `next`, and a record is found by the
distance of its number from the first. A limited backlog drops its oldest records
as new ones come. Dropped records keep their slots until there are more of them
than live ones; then the slots are compacted. -/
namespace LiveTail
open Rows

/-- The most records a backlog holds. -/
structure Capacity where
  records : Nat
  positive : 0 < records
deriving Repr

def Capacity.of? (records : Nat) : Except SettingsError Capacity :=
  if h : 0 < records then .ok ⟨records, h⟩ else .error .zeroCapacity

structure Backlog where
  slots : Array Numbered
  /-- The slots of dropped records, all in front. -/
  dead : Nat
  /-- The number the next record gets. -/
  next : Nat
  limit : Option Capacity

namespace Backlog

def new (limit : Option Capacity) : Backlog := ⟨#[], 0, 0, limit⟩

def size (b : Backlog) : Nat := b.slots.size - b.dead

def isEmpty (b : Backlog) : Bool := b.size == 0

/-- The records held with their numbers, oldest first. -/
def toList (b : Backlog) : List Numbered := b.slots.toList.drop b.dead

/-- The records held, oldest first. -/
def records (b : Backlog) : List LogRecord := b.toList.map (·.record)

/-- The record at a place, counted from the oldest held. -/
def at? (b : Backlog) (place : Nat) : Option Numbered := b.slots[b.dead + place]?

/-- The number of the oldest record held. -/
def first? (b : Backlog) : Option Nat := (b.at? 0).map (·.sequence)

/-- The place of a number that is held. -/
def placeOf? (b : Backlog) (sequence : Nat) : Option Nat :=
  match b.first? with
  | none => none
  | some first =>
    if first ≤ sequence ∧ sequence - first < b.size then some (sequence - first) else none

def get? (b : Backlog) (sequence : Nat) : Option LogRecord := do
  let place ← b.placeOf? sequence
  return (← b.at? place).record

/-- Gives up the dead slots once they outnumber the live ones. -/
def compact (b : Backlog) : Backlog :=
  if b.size < b.dead then { b with slots := b.slots.extract b.dead b.slots.size, dead := 0 } else b

/-- How far the backlog is over its limit. -/
def excess (b : Backlog) : Nat :=
  match b.limit with
  | some limit => b.size - limit.records
  | none => 0

/-- What an append did: the number given, and how many old records it dropped. -/
structure Appended where
  sequence : Nat
  dropped : Nat
deriving DecidableEq, Repr

def append (b : Backlog) (r : LogRecord) : Appended × Backlog :=
  let grown := { b with slots := b.slots.push ⟨b.next, r⟩, next := b.next + 1 }
  let dropped := grown.excess
  (⟨b.next, dropped⟩, { grown with dead := grown.dead + dropped }.compact)

/-- Drops all records. The numbers go on. -/
def clear (b : Backlog) : Backlog := { b with slots := #[], dead := 0 }

end Backlog
end LiveTail
