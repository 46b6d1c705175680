import LiveTail.Json.Reader
import LiveTail.Json.Writer

/-! Messages: a kind, by which they are dispatched, and a payload.

The text of a message is a JSON object with the members `type` and `payload`, each
at most once, or an array of the two; the payload may be left out and is then
null. Other members are skipped. -/
namespace LiveTail

structure Message where
  kind : String
  payload : Json
deriving Repr, Inhabited

namespace Message

instance : BEq Message := ⟨fun a b => a.kind == b.kind && a.payload == b.payload⟩

/-- The arrays and objects that may be open at once, the message itself among them. -/
def nesting : Nat := 127

/-- A member of a message object. -/
inductive Member where
  | kind (text : String)
  | payload (value : Json)
  | other

/-- What follows a key. -/
def member (key : String) : Json.Reader.Scan Member := fun text =>
  if key = "type" then (Json.Reader.string text).map fun (s, rest) => (.kind s, rest)
  else if key = "payload" then
    (Json.Reader.value (nesting - 1) text).map fun (v, rest) => (.payload v, rest)
  else (Json.Reader.skip text.length text).map fun (_, rest) => (.other, rest)

/-- The message of some members. -/
def ofMembers? (members : List Member) : Option Message :=
  let kinds := members.filterMap fun | .kind text => some text | _ => none
  let payloads := members.filterMap fun | .payload value => some value | _ => none
  match kinds, payloads with
  | [kind], [] => some ⟨kind, .null⟩
  | [kind], [payload] => some ⟨kind, payload⟩
  | _, _ => none

/-- The message of an array. -/
def ofItems? : List Json → Option Message
  | [.str kind] => some ⟨kind, .null⟩
  | [.str kind, payload] => some ⟨kind, payload⟩
  | _ => none

def scan : Json.Reader.Scan Message
  | '\x7b' :: rest => do
    let (members, rest) ← Json.Reader.sequence (Json.Reader.member member) '\x7d' rest
    return (← ofMembers? members, rest)
  | '[' :: rest => do
    let (items, rest) ← Json.Reader.sequence (Json.Reader.value (nesting - 1)) ']' rest
    return (← ofItems? items, rest)
  | _ => none

/-- Reads a message, which is all of a text but the white space around it. -/
def read? (text : String) : Option Message := do
  let (message, rest) ← scan (Json.Reader.skipBlank text.toList)
  if (Json.Reader.skipBlank rest).isEmpty then some message else none

def toJson (m : Message) : Json := .object [("payload", m.payload), ("type", .str m.kind)]

/-- The text of a message. -/
def write (m : Message) : String := m.toJson.write

end Message
end LiveTail
