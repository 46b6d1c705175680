import LiveTail.Backlog
import LiveTail.Rows.Viewport
import LiveTail.Wire.Frame

/-! The tail of a log: a backlog of records and the viewport over it.

The two move together: every record appended gets a row, every record dropped
loses its row. A frame that fails to decode is dropped whole; it is counted by the
stage at which it failed and handed to the observer, if there is one, and nothing
else changes. What the observer makes of the errors is kept in `heard`. -/
namespace LiveTail
open Rows

/-- What a tail has counted. -/
structure Counts where
  appended : Nat := 0
  /-- Records dropped by the limit. -/
  evicted : Nat := 0
  /-- Frames dropped at each stage. -/
  envelope : Nat := 0
  encoding : Nat := 0
  decompression : Nat := 0
  schema : Nat := 0
deriving DecidableEq, Repr, Inhabited

namespace Counts

/-- Frames dropped for any reason. -/
def dropped (c : Counts) : Nat := c.envelope + c.encoding + c.decompression + c.schema

/-- Counts a frame dropped at a stage. -/
def fail (c : Counts) : Stage → Counts
  | .envelope => { c with envelope := c.envelope + 1 }
  | .encoding => { c with encoding := c.encoding + 1 }
  | .decompression => { c with decompression := c.decompression + 1 }
  | .schema => { c with schema := c.schema + 1 }

end Counts

/-- The outcome of decoding one frame. -/
abbrev Decoded := Except DecodeError LogRecord

/-- What the host chooses about a tail; no capacity keeps every record. -/
structure TailSettings where
  rows : Settings := {}
  capacity : Option Nat := none
deriving DecidableEq, Repr, Inhabited

/-- A tail whose observer makes an `ε` of each error. -/
structure Tail (ε : Type) where
  backlog : Backlog
  viewport : Viewport
  observer : Option (DecodeError → ε)
  heard : Array ε
  counts : Counts

namespace Tail
variable {ε : Type}

/-- An empty tail without an observer. A capacity of zero is refused. -/
def of? (s : TailSettings) : Except SettingsError (Tail ε) := do
  let limit ← match s.capacity with
    | some n => (Capacity.of? n).map some
    | none => pure none
  return {
    backlog := .new limit
    viewport := .new s.rows
    observer := none
    heard := #[]
    counts := {} }

/-- Installs an observer in place of any other. -/
def observe (t : Tail ε) (observer : DecodeError → ε) : Tail ε :=
  { t with observer := some observer }

/-- Appends a record and gives its number. -/
def append (t : Tail ε) (r : LogRecord) : Nat × Tail ε :=
  let (appended, backlog) := t.backlog.append r
  let viewport := t.viewport.push appended.sequence
  (appended.sequence,
    { t with
      backlog
      viewport := if 0 < appended.dropped then viewport.evict appended.dropped else viewport
      counts := { t.counts with
        appended := t.counts.appended + 1
        evicted := t.counts.evicted + appended.dropped } })

/-- Drops a frame that failed to decode. -/
def drop (t : Tail ε) (e : DecodeError) : Tail ε :=
  { t with
    counts := t.counts.fail e.stage
    heard := match t.observer with
      | some observer => t.heard.push (observer e)
      | none => t.heard }

/-- Takes the outcome of decoding a frame: the number of its record, or nothing. -/
def ingest (t : Tail ε) : Decoded → Option Nat × Tail ε
  | .ok r =>
    let (sequence, t) := t.append r
    (some sequence, t)
  | .error e => (none, t.drop e)

def ingestText (t : Tail ε) (text : String) : Option Nat × Tail ε := t.ingest (Frame.decode text)

def ingestMessage (t : Tail ε) (m : Message) : Option Nat × Tail ε :=
  t.ingest (Frame.decodeMessage m)

/-- Takes outcomes one after the other. -/
def ingestAll (t : Tail ε) : List Decoded → Tail ε
  | [] => t
  | d :: rest => (t.ingest d).2.ingestAll rest

theorem ingestAll_append (t : Tail ε) (ds es : List Decoded) :
    t.ingestAll (ds ++ es) = (t.ingestAll ds).ingestAll es := by
  induction ds generalizing t with
  | nil => rfl
  | cons d rest ih => exact ih _

/-! ### The view -/

def size (t : Tail ε) : Nat := t.backlog.size

def isEmpty (t : Tail ε) : Bool := t.backlog.isEmpty

def window (t : Tail ε) (height : Nat) : Option Window × Tail ε :=
  let (w, viewport) := t.viewport.window height
  (w, { t with viewport })

def measure (t : Tail ε) (sequence height : Nat) : Except SettingsError (Bool × Tail ε) := do
  let (known, viewport) ← t.viewport.measure sequence height
  return (known, { t with viewport })

def resetMeasured (t : Tail ε) : Tail ε := { t with viewport := t.viewport.resetMeasured }

def follow (t : Tail ε) : Tail ε := { t with viewport := t.viewport.follow }

def scrollBy (t : Tail ε) (delta : Int) : Tail ε :=
  { t with viewport := t.viewport.scrollBy delta }

def scrollTo (t : Tail ε) (p : Position) : Tail ε := { t with viewport := t.viewport.scrollTo p }

/-- Drops all records and their rows. -/
def clear (t : Tail ε) : Tail ε :=
  { t with backlog := t.backlog.clear, viewport := t.viewport.clear }

end Tail
end LiveTail
