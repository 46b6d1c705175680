import LiveTail.Base64
import LiveTail.Record.Fields
import LiveTail.Wire.Message
import LiveTail.Wire.Name
import LiveTail.Wire.Payload
import LiveTail.Zstandard.Writer

/-! Frames: a record on its way through the wire.

The payload of a message holds a token of sixteen bytes and then the compressed
MessagePack map of one record, all in Base64. Decoding goes through four stages
and a failure names the stage it happened in; encoding goes the other way. The
token and the time of a frame do not enter the record. -/
namespace LiveTail

/-- The stages of decoding, in their order. -/
inductive Stage where
  | envelope
  | encoding
  | decompression
  | schema
deriving DecidableEq, Repr

namespace Stage

def name : Stage → String
  | envelope => "envelope"
  | encoding => "encoding"
  | decompression => "decompression"
  | schema => "schema"

/-- What is said of a frame that fails at a stage, before the reason. -/
def blame : Stage → String
  | envelope => "malformed envelope: "
  | encoding => "invalid base64 payload: "
  | decompression => "payload decompression failed: "
  | schema => "record schema mismatch: "

end Stage

/-- The number of bytes in a token. -/
def tokenSize : Nat := 16

/-- Why a message carries no frame. -/
inductive EnvelopeError where
  /-- The text is no message. -/
  | unreadable
  | payload (cause : PayloadError)
  /-- The frame is shorter than a token. -/
  | short (bytes : Nat)
deriving DecidableEq, Repr

def EnvelopeError.message : EnvelopeError → String
  | unreadable => "not a message"
  | payload cause => "invalid payload: " ++ cause.message
  | short bytes =>
    "frame is " ++ toString bytes ++ " bytes, shorter than the " ++ toString tokenSize
      ++ "-byte correlation token"

/-- Why a text gives no record. -/
inductive DecodeError where
  | envelope (cause : EnvelopeError)
  | encoding (cause : Base64.DecodeError)
  | decompression (cause : Zstandard.Error)
  | schema (cause : SchemaError)
deriving DecidableEq, Repr

namespace DecodeError

def stage : DecodeError → Stage
  | envelope _ => .envelope
  | encoding _ => .encoding
  | decompression _ => .decompression
  | schema _ => .schema

def reason : DecodeError → String
  | envelope cause => cause.message
  | encoding cause => cause.message
  | decompression cause => cause.message
  | schema cause => cause.message

def message (e : DecodeError) : String := e.stage.blame ++ e.reason

end DecodeError

/-- Tells frames apart that carry equal records. -/
structure Token where
  bytes : List UInt8
  size : bytes.length = tokenSize
deriving DecidableEq, Repr

def Token.of? (bytes : List UInt8) : Option Token :=
  if h : bytes.length = tokenSize then some ⟨bytes, h⟩ else none

structure Frame where
  kind : String
  token : Token
  timestamp : Int
  compressed : List UInt8
deriving DecidableEq, Repr

namespace Frame

/-- Splits the token off the bytes of a frame. -/
def ofBytes (kind : String) (timestamp : Int) (bytes : List UInt8) :
    Except DecodeError Frame :=
  match Token.of? (bytes.take tokenSize) with
  | some token => .ok ⟨kind, token, timestamp, bytes.drop tokenSize⟩
  | none => .error (.envelope (.short bytes.length))

/-- The frame in a message. -/
def ofMessage (m : Message) : Except DecodeError Frame := do
  let payload ← (Payload.ofJson m.payload).mapError (.envelope <| .payload ·)
  let bytes ← (Base64.decode (Text.Utf8.encode payload.message)).mapError .encoding
  ofBytes m.kind payload.timestamp bytes

/-- The record of compressed bytes. -/
def decompress (compressed : List UInt8) : Except DecodeError LogRecord := do
  let packed ← (Zstandard.decode compressed).mapError .decompression
  (LogRecord.ofBytes packed).mapError .schema

/-- The record in a message. -/
def decodeMessage (m : Message) : Except DecodeError LogRecord := do
  decompress (← ofMessage m).compressed

/-- The record in a text. -/
def decode (text : String) : Except DecodeError LogRecord :=
  match Message.read? text with
  | some m => decodeMessage m
  | none => .error (.envelope .unreadable)

end Frame

/-! ### Encoding -/

/-- Why a record cannot be sent. -/
inductive EncodeError where
  | record (reason : String)
  | compression (reason : String)
deriving DecidableEq, Repr

def EncodeError.message : EncodeError → String
  | record reason => s!"msgpack encoding failed: {reason}"
  | compression reason => s!"compression failed: {reason}"

namespace Frame

/-- What is written around a record. -/
structure Meta where
  kind : Kind
  clientId : ClientId
  token : Token
  /-- Nanoseconds since 1970. -/
  timestamp : Int
deriving DecidableEq, Repr

/-- The text of Base64 symbols. -/
def symbols (bytes : List UInt8) : String :=
  String.ofList ((Base64.encode bytes).map fun b => Char.ofNat b.toNat)

/-- The message around compressed bytes, whatever they hold. -/
def wrap (compressed : List UInt8) (m : Meta) : Message :=
  { kind := m.kind.text
    payload := Payload.toJson
      { timestamp := m.timestamp
        clientId := m.clientId.text
        message := symbols (m.token.bytes ++ compressed) } }

/-- The compressed bytes of a record. -/
def compress (r : LogRecord) : List UInt8 := Zstandard.encode r.toBytes

/-- The text that carries a record. -/
def encode (r : LogRecord) (m : Meta) : String := (wrap (compress r) m).write

/-- The text that carries a record, by a way to compress that may fail. -/
def encodeWith (pack : List UInt8 → Except String (List UInt8)) (r : LogRecord) (m : Meta) :
    Except EncodeError String := do
  let compressed ← (pack r.toBytes).mapError .compression
  return (wrap compressed m).write

end Frame
end LiveTail
