import LiveTail.Dictionary
import LiveTail.MessagePack.Value
import LiveTail.Time.Instant

/-! Log records.

A record has a level, a message and an instant. Where it was made is told by
`Diagnostics`, and what its producer added beyond that is kept unread in `extra`.
A known level name is always the known level, and the keys that have a place of
their own never occur in `extra`; both facts are part of the type. -/
namespace LiveTail

/-- The severity of a record; names outside the known ones are kept as sent. -/
inductive Level where
  | debug
  | info
  | warning
  | error
  | critical
  | success
  | other (name : String)
deriving DecidableEq, Repr

namespace Level

def ofName (name : String) : Level :=
  if name = "DEBUG" then debug
  else if name = "INFO" then info
  else if name = "WARNING" then warning
  else if name = "ERROR" then error
  else if name = "CRITICAL" then critical
  else if name = "SUCCESS" then success
  else other name

def name : Level → String
  | debug => "DEBUG"
  | info => "INFO"
  | warning => "WARNING"
  | error => "ERROR"
  | critical => "CRITICAL"
  | success => "SUCCESS"
  | other name => name

def isOther : Level → Bool
  | other _ => true
  | _ => false

/-- The known level where the name of one is held as `other`. -/
def normal (l : Level) : Level := ofName l.name

theorem name_ofName (name : String) : (ofName name).name = name := by
  unfold ofName
  repeat' split
  all_goals simp_all [Level.name]

theorem normal_ofName (name : String) : (ofName name).normal = ofName name := by
  rw [normal, name_ofName]

theorem normal_normal (l : Level) : l.normal.normal = l.normal := normal_ofName l.name

end Level

/-- Where a record was made. -/
structure Diagnostics where
  module : Option String := none
  function : Option String := none
  line : Option Nat := none
  sourcePath : Option String := none
  processId : Option Nat := none
  processName : Option String := none
  threadName : Option String := none
  taskName : Option String := none
  loggerName : Option String := none
  status : Option String := none
deriving DecidableEq, Repr, Inhabited

/-- The keys that have a place of their own in a record, or name its time. -/
def reservedKeys : List String :=
  ["levelname", "msg", "message", "time", "created", "module", "funcName", "lineno", "pathname",
    "process", "processName", "threadName", "taskName", "name", "status"]

def isReserved (key : String) : Bool := reservedKeys.contains key

structure LogRecord where
  level : Level
  message : String
  time : Time.Instant
  diagnostics : Diagnostics
  extra : Dictionary MessagePack.Value
  level_normal : level.normal = level
  extra_free : ∀ e ∈ extra.entries, isReserved e.1 = false

namespace LogRecord

def new (level : Level) (message : String) (time : Time.Instant) : LogRecord :=
  { level := level.normal
    message
    time
    diagnostics := {}
    extra := .empty
    level_normal := level.normal_normal
    extra_free := by simp [Dictionary.empty] }

instance : Inhabited LogRecord := ⟨new .info "" default⟩

def withDiagnostics (r : LogRecord) (diagnostics : Diagnostics) : LogRecord :=
  { r with diagnostics }

/-- Attaches what the producer added; reserved keys are left out. -/
def withExtra (r : LogRecord) (extra : Dictionary MessagePack.Value) : LogRecord :=
  { r with
    extra := extra.filter fun key => !isReserved key
    extra_free := fun e he => by
      simp only [Dictionary.filter, List.mem_filter, Bool.not_eq_true'] at he
      exact he.2 }

/-- Equality of records, with floats compared as numbers. -/
def same (r s : LogRecord) : Bool :=
  r.level == s.level && r.message == s.message && r.time == s.time
    && r.diagnostics == s.diagnostics
    && r.extra.entries.map Prod.fst == s.extra.entries.map Prod.fst
    && MessagePack.Value.sameItems (r.extra.entries.map Prod.snd) (s.extra.entries.map Prod.snd)

end LogRecord

/-- A record with its number in the order of arrival. -/
structure Numbered where
  sequence : Nat
  record : LogRecord

/-- How a sequence number is shown. -/
def sequenceText (sequence : Nat) : String := "#" ++ toString sequence

end LiveTail
