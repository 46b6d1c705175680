import LiveTail.Proofs.Base64
import LiveTail.Proofs.Json
import LiveTail.Proofs.Record.Returned
import LiveTail.Proofs.Zstandard
import LiveTail.Wire.Frame

/-! A record comes through the wire as its bytes tell it.

The layers are undone one by one: the text of a message gives back the message, its
payload the frame, and the frame what its bytes tell of the record. Compression is the one
step that the outcome does not depend on: any way to compress will do that decompression
undoes. -/
namespace LiveTail

/-! ### Messages -/

namespace Message
open Json Json.Reader

theorem reads_payload {v : Json} (h : v.Plain) (hdepth : v.depth ≤ nesting - 1) :
    Reads (member "payload") (Json.Writer.value v) (.payload v) := by
  have hv := reads_value h hdepth
  refine ⟨hv.starts, fun rest hrest => ?_⟩
  rw [member, if_neg (by decide), if_pos rfl, hv.reads rest hrest]
  rfl

theorem reads_kind (kind : String) :
    Reads (member "type") (Json.Writer.string kind) (.kind kind) := by
  have hkind := reads_string kind
  refine ⟨hkind.starts, fun rest hrest => ?_⟩
  rw [member, if_pos rfl, hkind.reads rest hrest]
  rfl

theorem scan_write {m : Message} (h : m.payload.Plain) (hdepth : m.payload.depth ≤ nesting - 1) :
    scan m.write.toList = some (m, []) := by
  have hpieces : List.Forall₂ (Reads (Json.Reader.member member))
      (Json.Writer.members [("payload", m.payload), ("type", .str m.kind)])
      [.payload m.payload, .kind m.kind] :=
    .cons (reads_member (reads_payload h hdepth)) (.cons (reads_member (reads_kind m.kind)) .nil)
  have hmembers := sequence_commas (.inr rfl) hpieces []
  rw [write, Json.write, String.toList_ofList, toJson, Json.Writer.value, List.cons_append, scan,
    hmembers]
  rfl

/-- A message whose payload has no floats reads back from its text. -/
theorem read?_write {m : Message} (h : m.payload.Plain) (hdepth : m.payload.depth ≤ nesting - 1) :
    read? m.write = some m := by
  have hblank : skipBlank m.write.toList = m.write.toList := by
    rw [write, Json.write, String.toList_ofList, toJson, Json.Writer.value, List.cons_append]
    exact skipBlank_cons rfl _
  rw [read?, hblank, scan_write h hdepth]
  rfl

end Message

/-! ### Payloads -/

namespace Payload

theorem ordered_entries (p : Payload) : Entries.Ordered p.entries := by
  have hclient : "client_id" < "message" := by decide
  have hmessage : "message" < "timestamp" := by decide
  have hboth : "client_id" < "timestamp" := by decide
  simp only [Entries.Ordered, entries, List.pairwise_cons, List.mem_cons, List.not_mem_nil,
    or_false, forall_eq_or_imp, forall_eq, hclient, hmessage, hboth, List.Pairwise.nil, and_true,
    IsEmpty.forall_iff, implies_true]

theorem plain_toJson {p : Payload} (hlow : -2 ^ 63 ≤ p.timestamp) (hhigh : p.timestamp < 2 ^ 63) :
    p.toJson.Plain := by
  have htime : p.timestamp < 2 ^ 64 := by omega
  exact ⟨p.ordered_entries, trivial, trivial, ⟨hlow, htime⟩, trivial⟩

theorem ofJson_toJson {p : Payload} (h : p.timestamp < 2 ^ 63) : ofJson p.toJson = .ok p := by
  have hclient : optional p.entries "client_id" textOf = .ok (some p.clientId) := rfl
  have hmessage : optional p.entries "message" textOf = .ok (some p.message) := rfl
  have htime : optional p.entries "timestamp" timestampOf = .ok (some p.timestamp) := by
    show (timestampOf (.int p.timestamp)).map some = _
    rw [timestampOf, if_pos h]
    rfl
  simp only [ofJson, toJson, ofEntries, hclient, hmessage, htime, required, bind, Except.bind,
    pure, Except.pure]

end Payload

/-! ### Frames -/

namespace Frame

theorem decode_symbols (bytes : List UInt8) :
    Base64.decode (Text.Utf8.encode (symbols bytes)) = .ok bytes := by
  have hascii : ∀ b ∈ Base64.encode bytes, b.toNat < 128 :=
    fun _ hb => Base64.toNat_lt_of_mem_encode hb
  rw [symbols, Text.Utf8.encode_ascii hascii, Base64.decode_encode]

/-- The token is split off where it was put. -/
theorem ofBytes_append (kind : String) (token : Token) (timestamp : Int)
    (compressed : List UInt8) :
    ofBytes kind timestamp (token.bytes ++ compressed) =
      .ok ⟨kind, token, timestamp, compressed⟩ := by
  have htoken : Token.of? ((token.bytes ++ compressed).take tokenSize) = some token := by
    rw [List.take_left' token.size, Token.of?, dif_pos token.size]
  rw [ofBytes, htoken, List.drop_left' token.size]

section Wrapped
variable {m : Meta} (compressed : List UInt8)

theorem ofMessage_wrap (hhigh : m.timestamp < 2 ^ 63) :
    ofMessage (wrap compressed m) = .ok ⟨m.kind.text, m.token, m.timestamp, compressed⟩ := by
  have hpayload := Payload.ofJson_toJson (p := ⟨m.timestamp, m.clientId.text,
    symbols (m.token.bytes ++ compressed)⟩) hhigh
  simp only [ofMessage, wrap, hpayload, decode_symbols, ofBytes_append, Except.mapError, bind,
    Except.bind]

theorem read?_wrap (hlow : -2 ^ 63 ≤ m.timestamp) (hhigh : m.timestamp < 2 ^ 63) :
    Message.read? (wrap compressed m).write = some (wrap compressed m) := by
  have hdepth : (wrap compressed m).payload.depth ≤ Message.nesting - 1 :=
    (by decide : 1 ≤ Message.nesting - 1)
  exact Message.read?_write (Payload.plain_toJson hlow hhigh) hdepth

/-- The text around compressed bytes gives what the bytes that they decompress to give. -/
theorem decode_wrapped {bytes : List UInt8} (hpacked : Zstandard.decode compressed = .ok bytes)
    (hlow : -2 ^ 63 ≤ m.timestamp) (hhigh : m.timestamp < 2 ^ 63) :
    decode (wrap compressed m).write = (LogRecord.ofBytes bytes).mapError .schema := by
  simp only [decode, read?_wrap compressed hlow hhigh, decodeMessage,
    ofMessage_wrap compressed hhigh, decompress, hpacked, Except.mapError, bind, Except.bind]

/-- What is found of a record in the text around compressed bytes that it decompresses to. -/
theorem decode_wrap {r : LogRecord} (hpacked : Zstandard.decode compressed = .ok r.toBytes)
    (hr : r.Writable) (hlow : -2 ^ 63 ≤ m.timestamp) (hhigh : m.timestamp < 2 ^ 63) :
    decode (wrap compressed m).write = .ok r.returned := by
  rw [decode_wrapped compressed hpacked hlow hhigh, LogRecord.ofBytes_toBytes hr]
  rfl

end Wrapped

/-- **A record that fits the wire can be encoded**, and decoding gives it back exactly if its
instant is one of a clock and its strings are text. Whatever compresses will do that
decompression undoes. -/
theorem decode_encodeWith {pack : List UInt8 → Except String (List UInt8)}
    (hpack : ∀ content, ∃ packed, pack content = .ok packed ∧
      Zstandard.decode packed = .ok content)
    {r : LogRecord} (hr : r.Writable) {m : Meta} (hlow : -2 ^ 63 ≤ m.timestamp)
    (hhigh : m.timestamp < 2 ^ 63) :
    ∃ text, encodeWith pack r m = .ok text ∧ decode text = .ok r.returned ∧
      (decode text = .ok r ↔ r.time.Valid ∧ r.packed = r) := by
  obtain ⟨packed, hpacked, hdecode⟩ := hpack r.toBytes
  have hreturned : decode (wrap packed m).write = .ok r.returned :=
    decode_wrap packed hdecode hr hlow hhigh
  refine ⟨(wrap packed m).write, ?_, hreturned, ?_⟩
  · simp only [encodeWith, hpacked, Except.mapError, bind, Except.bind, pure, Except.pure]
  · rw [hreturned, Except.ok.injEq, LogRecord.returned_eq_iff hr.time]

/-- A record of a leap second, with a level that is not known, a value that is not a
number, and a key that is reserved. -/
def leap : LogRecord :=
  ((LogRecord.new (.other "TRACE") "naïve\n" ⟨1483228799, 1500000000⟩).withDiagnostics
    { line := some 7, loggerName := some "demo" }).withExtra
    (Dictionary.ofList
      [("msg", .nil), ("ratio", .array [.float64 0x7FF8000000000001, .int (-2 ^ 63)])])

theorem toEntries_leap : leap.toEntries =
    [("levelname", .str "TRACE"), ("msg", .str "naïve\n"),
      ("time", .str (String.ofList leap.time.text)), ("name", .str "demo"), ("lineno", .int 7),
      ("ratio", .array [.float64 0x7FF8000000000001, .int (-2 ^ 63)])] := rfl

theorem packed_leap : leap.packed = leap := rfl

theorem writable_leap : leap.Writable where
  time := by decide
  year := ⟨by decide, by decide⟩
  line := by
    rintro n ⟨⟩
    decide
  process := by rintro n ⟨⟩
  value := by
    have htime : (Text.Utf8.encode (String.ofList leap.time.text)).length < 2 ^ 32 := by
      rw [Text.Utf8.encode_ofList]
      decide +kernel
    rw [← LogRecord.toValue_packed, packed_leap]
    simp only [LogRecord.toValue, toEntries_leap, List.map, MessagePack.Value.Valid,
      MessagePack.Value.ValidEntries, MessagePack.Value.ValidItems, htime, true_and]
    decide
  depth := by decide

/-- What is around it, with a time before 1970. -/
def leapMeta : Meta :=
  { kind := .liveLog
    clientId := ⟨"demo", by decide⟩
    token := ⟨List.replicate tokenSize 7, rfl⟩
    timestamp := -1 }

theorem decode_encodeWith_leap :
    leap.Writable ∧ ∃ text,
      encodeWith (fun content => .ok (Zstandard.encode content)) leap leapMeta = .ok text ∧
        decode text = .ok leap := by
  obtain ⟨text, htext, -, hiff⟩ := decode_encodeWith
    (fun content => ⟨_, rfl, Zstandard.decode_encode content⟩) writable_leap
    (m := leapMeta) (by decide) (by decide)
  exact ⟨writable_leap, text, htext, hiff.mpr ⟨.inr ⟨by decide, by decide⟩, packed_leap⟩⟩

/-- A record of 1970 with one value beside its fields. -/
def tagged (value : MessagePack.Value) : LogRecord :=
  (LogRecord.new .info "m" ⟨0, 0⟩).withExtra (Dictionary.ofList [("x", value)])

theorem toEntries_tagged (value : MessagePack.Value) : (tagged value).toEntries =
    [("levelname", .str "INFO"), ("msg", .str "m"),
      ("time", .str (String.ofList (Time.Instant.text ⟨0, 0⟩))), ("x", value)] := rfl

theorem writable_tagged {value : MessagePack.Value} (hvalid : value.packed.Valid)
    (hdepth : value.depth ≤ 500) : (tagged value).Writable where
  time := (by decide : 0 < 2 * Time.Instant.second)
  year := show Time.Instant.Unsigned ⟨0, 0⟩ from ⟨by decide, by decide⟩
  line := by rintro n ⟨⟩
  process := by rintro n ⟨⟩
  value := by
    have htime : (Text.Utf8.encode (String.ofList (Time.Instant.text ⟨0, 0⟩))).length < 2 ^ 32 := by
      rw [Text.Utf8.encode_ofList]
      decide +kernel
    simp only [LogRecord.toValue, toEntries_tagged, List.map, MessagePack.Value.packed,
      MessagePack.Value.packedEntries, MessagePack.Value.Valid, MessagePack.Value.ValidEntries,
      List.length_cons, List.length_nil, hvalid, htime, and_true, true_and]
    decide
  depth := by
    intro e he
    obtain rfl := List.mem_singleton.mp he
    exact hdepth

/-- A string of the one byte ff is written as binary data, and a record that holds it is
read back with that in its place. -/
theorem decode_encode_rawStr :
    MessagePack.read (MessagePack.write (.rawStr [0xff]) ++ []) = .ok (.bin [0xff], []) ∧
      (tagged (.rawStr [0xff])).Writable ∧
      decode (encode (tagged (.rawStr [0xff])) leapMeta) = .ok (tagged (.bin [0xff])) ∧
      tagged (.bin [0xff]) ≠ tagged (.rawStr [0xff]) := by
  have hwritable : (tagged (.rawStr [0xff])).Writable :=
    writable_tagged (by decide : [0xff].length < 2 ^ 32) (by decide)
  refine ⟨MessagePack.read_rawStr (by decide) [], hwritable, ?_, fun heq => ?_⟩
  · exact decode_wrap _ (Zstandard.decode_encode _) hwritable (by decide) (by decide)
  · have hextra := congrArg (fun r => r.extra.get? "x") heq
    cases hextra

end Frame
end LiveTail
