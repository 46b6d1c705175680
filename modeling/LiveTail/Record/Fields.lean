import LiveTail.MessagePack.Reader
import LiveTail.MessagePack.Writer
import LiveTail.Record.Basic
import LiveTail.Time.Reader

/-! Records as MessagePack maps.

`ofMap` reads the entries of a map under the keys its producers use, and `toMap`
writes them. A field that is nil counts as absent; numbers may be written as
text. The fields are read in a fixed order and the first that is wrong decides
the error. -/
namespace LiveTail

/-- Why some bytes are no record. -/
inductive SchemaError where
  | unreadable (cause : MessagePack.ReadError)
  | trailingBytes
  | notAMap (found : String)
  | keyNotText
  | missing (field : String)
  | wrongType (field expected : String)
  | badTime (written : String)
deriving DecidableEq, Repr

def SchemaError.message : SchemaError → String
  | unreadable cause => "invalid msgpack: " ++ cause.message
  | trailingBytes => "trailing bytes after msgpack value"
  | notAMap found => "expected a map, found " ++ found
  | keyNotText => "map key is not a string"
  | missing field => "missing required field '" ++ field ++ "'"
  | wrongType field expected => "field '" ++ field ++ "' should be " ++ expected
  | badTime written => "invalid timestamp '" ++ written ++ "'"

namespace LogRecord
open MessagePack Number

/-- The values of a map under its keys; the last of several under one key stays. -/
abbrev Fields := Dictionary Value

/-- Puts an entry under its key, which must be text. -/
def putField (fields : Fields) (entry : Value × Value) : Except SchemaError Fields :=
  match entry.1 with
  | .str key => .ok (fields.put key entry.2)
  | _ => .error .keyNotText

/-- The entries of a map by key, if every key is text. -/
def fieldsOf (entries : List (Value × Value)) : Except SchemaError Fields :=
  entries.foldlM putField .empty

/-- A field that is not nil. -/
def present? (fields : Fields) (key : String) : Option Value :=
  match fields.get? key with
  | some .nil => none
  | other => other

def textField (fields : Fields) (key : String) : Except SchemaError (Option String) :=
  match present? fields key with
  | none => .ok none
  | some (.str text) => .ok (some text)
  | some (.rawStr _) => .error (.wrongType key "a UTF-8 string")
  | some _ => .error (.wrongType key "a string")

/-- The largest number a numeric field holds. -/
def numberLimit : Nat := 2 ^ 32 - 1

def numberOf? : Value → Option Nat
  | .int n => if 0 ≤ n ∧ n ≤ numberLimit then some n.toNat else none
  | .str text => Numeral.unsigned? numberLimit (Text.trim text.toList)
  | _ => none

def numberField (fields : Fields) (key : String) : Except SchemaError (Option Nat) :=
  match present? fields key with
  | none => .ok none
  | some v =>
    match numberOf? v with
    | some n => .ok (some n)
    | none => .error (.wrongType key "an unsigned 32-bit integer")

/-- The bits of the number of seconds since 1970 that a field holds. -/
def secondsOf (key : String) : Value → Except SchemaError UInt64
  | .float64 bits => .ok bits
  | .float32 bits => .ok (Binary.widen bits)
  | .int n => .ok (Binary.ofInt n)
  | .str text =>
    match Numeral.float? (Text.trim text.toList) with
    | some bits => .ok bits
    | none => .error (.badTime text)
  | .rawStr _ => .error (.badTime "")
  | _ => .error (.wrongType key "seconds since the epoch")

/-- The instant of a float number of seconds. -/
def instantOf (bits : UInt64) : Except SchemaError Time.Instant :=
  match Time.Instant.ofFloat? bits with
  | some t => .ok t
  | none => .error (.badTime (Shortest.plain bits))

/-- The time when it is written as text, or else the seconds of `created`. -/
def timeField (fields : Fields) : Except SchemaError Time.Instant :=
  match present? fields "time" with
  | some (.str text) =>
    match Time.Reader.read? text.toList with
    | some t => .ok t
    | none => .error (.badTime text)
  | some (.rawStr _) => .error (.wrongType "time" "a UTF-8 string")
  | some _ => .error (.wrongType "time" "an ISO-8601 string")
  | none =>
    match present? fields "created" with
    | none => .error (.missing "time")
    | some v => secondsOf "created" v >>= instantOf

def levelField (fields : Fields) : Except SchemaError Level := do
  match ← textField fields "levelname" with
  | some name => return Level.ofName name
  | none => throw (.missing "levelname")

/-- The message, under either of two keys. -/
def messageField (fields : Fields) : Except SchemaError String := do
  match ← textField fields "msg" with
  | some text => return text
  | none =>
    match ← textField fields "message" with
    | some text => return text
    | none => throw (.missing "msg")

def diagnosticsFields (fields : Fields) : Except SchemaError Diagnostics := do
  return {
    module := ← textField fields "module"
    function := ← textField fields "funcName"
    line := ← numberField fields "lineno"
    sourcePath := ← textField fields "pathname"
    processId := ← numberField fields "process"
    processName := ← textField fields "processName"
    threadName := ← textField fields "threadName"
    taskName := ← textField fields "taskName"
    loggerName := ← textField fields "name"
    status := ← textField fields "status" }

def ofFields (fields : Fields) : Except SchemaError LogRecord := do
  let level ← levelField fields
  let message ← messageField fields
  let time ← timeField fields
  let diagnostics ← diagnosticsFields fields
  return ((new level message time).withDiagnostics diagnostics).withExtra fields

def ofValue : Value → Except SchemaError LogRecord
  | .map entries => fieldsOf entries >>= ofFields
  | v => .error (.notAMap v.typeName)

/-- The record that some bytes are, all of them. -/
def ofBytes (bytes : List UInt8) : Except SchemaError LogRecord :=
  match read bytes with
  | .error e => .error (.unreadable e)
  | .ok (v, rest) => if rest.isEmpty then ofValue v else .error .trailingBytes

/-! ### Writing -/

def textEntry (key : String) (text : Option String) : List (String × Value) :=
  match text with
  | some text => [(key, .str text)]
  | none => []

def numberEntry (key : String) (n : Option Nat) : List (String × Value) :=
  match n with
  | some n => [(key, .int n)]
  | none => []

/-- The entries of a record: what is always there, the diagnostics that are, and
the rest in the order of its keys. -/
def toEntries (r : LogRecord) : List (String × Value) :=
  let d := r.diagnostics
  [("levelname", .str r.level.name), ("msg", .str r.message),
      ("time", .str (String.ofList r.time.text))]
    ++ textEntry "module" d.module ++ textEntry "funcName" d.function
    ++ textEntry "pathname" d.sourcePath ++ textEntry "processName" d.processName
    ++ textEntry "threadName" d.threadName ++ textEntry "taskName" d.taskName
    ++ textEntry "name" d.loggerName ++ textEntry "status" d.status
    ++ numberEntry "lineno" d.line ++ numberEntry "process" d.processId
    ++ r.extra.entries

def toValue (r : LogRecord) : Value := .map (r.toEntries.map fun e => (.str e.1, e.2))

def toBytes (r : LogRecord) : List UInt8 := write r.toValue

end LogRecord
end LiveTail
