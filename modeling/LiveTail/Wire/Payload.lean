import LiveTail.Json.Writer
import LiveTail.Text.Quoted

/-! The payload of a message that carries a record.

It has a time, the client it is meant for, and the frame in Base64. As an object
its members are read in the order of their keys and the first of a wrong type
decides the error, before any that is missing; as an array its three items are
read in order. -/
namespace LiveTail

structure Payload where
  /-- Nanoseconds since 1970. -/
  timestamp : Int
  clientId : String
  message : String
deriving DecidableEq, Repr

/-- Why a value is no payload. -/
inductive PayloadError where
  | missing (field : String)
  /-- A value of another type than the one expected. -/
  | wrongType (found expected : String)
  /-- A whole number out of range. -/
  | tooLarge (n : Int)
  /-- An array of too few items. -/
  | tooShort (items : Nat)
  | tooLong (items : Nat)
deriving DecidableEq, Repr

namespace PayloadError

def message : PayloadError → String
  | missing field => "missing field " ++ "\x60" ++ field ++ "\x60"
  | wrongType found expected => "invalid type: " ++ found ++ ", expected " ++ expected
  | tooLarge n => "invalid value: integer " ++ "\x60" ++ toString n ++ "\x60, expected i64"
  | tooShort items =>
    "invalid length " ++ toString items ++ ", expected struct FramePayload with 3 elements"
  | tooLong items => "invalid length " ++ toString items ++ ", expected fewer elements in array"

end PayloadError

namespace Payload

/-- What a value is called in an error. -/
def called : Json → String
  | .null => "null"
  | .bool b => "boolean " ++ "\x60" ++ (if b then "true" else "false") ++ "\x60"
  | .int n => "integer " ++ "\x60" ++ toString n ++ "\x60"
  | .float bits => "floating point " ++ "\x60" ++ Json.Writer.float bits ++ "\x60"
  | .str s => "string " ++ Text.quoted s
  | .array _ => "sequence"
  | .object _ => "map"

def timestampOf : Json → Except PayloadError Int
  | .int n => if n < 2 ^ 63 then .ok n else .error (.tooLarge n)
  | v => .error (.wrongType (called v) "i64")

def textOf : Json → Except PayloadError String
  | .str s => .ok s
  | v => .error (.wrongType (called v) "a string")

/-- A member that may be missing. -/
def optional {α : Type} (entries : List (String × Json)) (key : String)
    (read : Json → Except PayloadError α) : Except PayloadError (Option α) :=
  match entries.lookup key with
  | none => .ok none
  | some v => (read v).map some

def required {α : Type} (field : String) : Option α → Except PayloadError α
  | some a => .ok a
  | none => .error (.missing field)

def ofEntries (entries : List (String × Json)) : Except PayloadError Payload := do
  let clientId ← optional entries "client_id" textOf
  let message ← optional entries "message" textOf
  let timestamp ← optional entries "timestamp" timestampOf
  return {
    timestamp := ← required "timestamp" timestamp
    clientId := ← required "client_id" clientId
    message := ← required "message" message }

def ofItems (items : List Json) : Except PayloadError Payload :=
  match items with
  | [] => .error (.tooShort 0)
  | [time] => do
    let _ ← timestampOf time
    throw (.tooShort 1)
  | [time, client] => do
    let _ ← timestampOf time
    let _ ← textOf client
    throw (.tooShort 2)
  | time :: client :: message :: rest => do
    let timestamp ← timestampOf time
    let clientId ← textOf client
    let message ← textOf message
    if rest.isEmpty then return { timestamp, clientId, message } else throw (.tooLong items.length)

def ofJson : Json → Except PayloadError Payload
  | .object entries => ofEntries entries
  | .array items => ofItems items
  | v => .error (.wrongType (called v) "struct FramePayload")

/-- The members of a payload, in the order of their keys. -/
def entries (p : Payload) : List (String × Json) :=
  [("client_id", .str p.clientId), ("message", .str p.message), ("timestamp", .int p.timestamp)]

def toJson (p : Payload) : Json := .object p.entries

end Payload
end LiveTail
