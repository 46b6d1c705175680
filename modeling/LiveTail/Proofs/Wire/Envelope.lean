import LiveTail.Proofs.Reading
import LiveTail.Proofs.Wire.Frame
import LiveTail.Proofs.Wire.Held

/-! What is around a frame, put on and taken off.

The text around compressed bytes gives back the frame that was put in, whatever the bytes
and the names are, and the record in it is the record of these bytes alone
(`decode_wrap_eq`). The other way round, a message with the members of a frame and no others
is the very one that its frame is wrapped in (`wrap_around`): the members of an object are in
the order of their keys, and there is one Base64 text for the bytes of a frame. -/
namespace LiveTail

/-! ### Payloads -/

namespace Payload

theorem of_textOf {v : Json} {text : String} (h : textOf v = .ok text) : v = .str text := by
  cases v <;> cases h
  rfl

theorem of_timestampOf {v : Json} {n : Int} (h : timestampOf v = .ok n) :
    v = .int n ∧ n < 2 ^ 63 := by
  unfold timestampOf at h
  split at h
  next k =>
    split at h
    next hk =>
      cases h
      exact ⟨rfl, hk⟩
    next => cases h
  next => cases h

theorem of_required {α : Type} {field : String} {o : Option α} {a : α}
    (h : required field o = .ok a) : o = some a := by
  cases o <;> cases h
  rfl

theorem of_optional {α : Type} {entries : List (String × Json)} {key : String}
    {read : Json → Except PayloadError α} {a : α}
    (h : optional entries key read = .ok (some a)) :
    ∃ v, entries.lookup key = some v ∧ read v = .ok a := by
  unfold optional at h
  split at h
  next => cases h
  next v hv =>
    refine ⟨v, hv, ?_⟩
    cases hread : read v with
    | error e =>
      rw [hread] at h
      cases h
    | ok b =>
      rw [hread] at h
      cases h
      rfl

/-- The three members that a payload is read from. -/
theorem of_ofEntries {entries : List (String × Json)} {p : Payload}
    (h : ofEntries entries = .ok p) :
    entries.lookup "client_id" = some (.str p.clientId) ∧
      entries.lookup "message" = some (.str p.message) ∧
      entries.lookup "timestamp" = some (.int p.timestamp) ∧ p.timestamp < 2 ^ 63 := by
  obtain ⟨client?, hclient, h⟩ := of_bind h
  obtain ⟨message?, hmessage, h⟩ := of_bind h
  obtain ⟨time?, htime, h⟩ := of_bind h
  obtain ⟨time, ht, h⟩ := of_bind h
  obtain ⟨client, hc, h⟩ := of_bind h
  obtain ⟨message, hm, h⟩ := of_bind h
  cases h
  obtain rfl := of_required ht
  obtain rfl := of_required hc
  obtain rfl := of_required hm
  obtain ⟨clientValue, hclient, hc⟩ := of_optional hclient
  obtain ⟨messageValue, hmessage, hm⟩ := of_optional hmessage
  obtain ⟨timeValue, htime, ht⟩ := of_optional htime
  obtain rfl := of_textOf hc
  obtain rfl := of_textOf hm
  obtain ⟨rfl, hlt⟩ := of_timestampOf ht
  exact ⟨hclient, hmessage, htime, hlt⟩

/-- A payload has its three members and no others. -/
theorem isSome_lookup (p : Payload) (key : String) :
    (p.entries.lookup key).isSome ↔ key ∈ ["timestamp", "client_id", "message"] := by
  simp only [Payload.entries, Entries.lookup_cons, List.lookup_nil, List.mem_cons,
    List.not_mem_nil, or_false]
  by_cases hclient : key = "client_id"
  · simp [hclient]
  · by_cases hmessage : key = "message"
    · simp [hmessage]
    · by_cases htime : key = "timestamp" <;> simp [hclient, hmessage, htime]

/-- No other entries have the three members and nothing else. -/
theorem eq_entries {entries : List (String × Json)} (hordered : Entries.Ordered entries)
    (hkeys : ∀ key, (entries.lookup key).isSome ↔ key ∈ ["timestamp", "client_id", "message"])
    {p : Payload} (h : ofEntries entries = .ok p) : entries = p.entries := by
  obtain ⟨hclient, hmessage, htime, -⟩ := of_ofEntries h
  refine Entries.eq_of_lookup hordered p.ordered_entries fun key => ?_
  by_cases hkey : key ∈ ["timestamp", "client_id", "message"]
  · simp only [List.mem_cons, List.not_mem_nil, or_false] at hkey
    rcases hkey with rfl | rfl | rfl
    · exact htime
    · exact hclient
    · exact hmessage
  · have hnone := (hkeys key).not.mpr hkey
    have hnone' := (p.isSome_lookup key).not.mpr hkey
    rw [Option.not_isSome_iff_eq_none] at hnone hnone'
    rw [hnone, hnone']

end Payload

/-! ### Messages with a frame -/

/-- A message of some kind with the members of a frame for a client, and no others. -/
structure Message.Enveloped (m : Message) (client : ClientId) : Prop where
  kind : m.kind ≠ ""
  held : m.payload.Held
  members : ∃ entries, m.payload = .object entries ∧
    (∀ key, (entries.lookup key).isSome ↔ key ∈ ["timestamp", "client_id", "message"]) ∧
    entries.lookup "client_id" = some (.str client.text)

/-- Of a message that is read nothing is asked but its kind and its members. -/
theorem Message.enveloped_of_read? {text : String} {m : Message} (h : read? text = some m)
    (hkind : m.kind ≠ "") {entries : List (String × Json)} (hpayload : m.payload = .object entries)
    (hkeys : ∀ key, (entries.lookup key).isSome ↔ key ∈ ["timestamp", "client_id", "message"])
    {client : ClientId} (hclient : entries.lookup "client_id" = some (.str client.text)) :
    m.Enveloped client :=
  ⟨hkind, held_read? h, entries, hpayload, hkeys, hclient⟩

namespace Frame

/-- What is around a frame for a client. -/
def around (f : Frame) (hkind : f.kind ≠ "") (client : ClientId) : Meta :=
  { kind := ⟨f.kind, hkind⟩
    clientId := client
    token := f.token
    timestamp := f.timestamp }

/-- There is one Base64 text for the bytes of a frame. -/
theorem eq_symbols {text : String} {bytes : List UInt8}
    (h : Base64.decode (Text.Utf8.encode text) = .ok bytes) : text = symbols bytes := by
  have hascii : ∀ b ∈ Base64.encode bytes, b.toNat < 128 :=
    fun _ hb => Base64.toNat_lt_of_mem_encode hb
  have hencode : Text.Utf8.encode text = Text.Utf8.encode (symbols bytes) := by
    rw [symbols, Text.Utf8.encode_ascii hascii, Base64.encode_of_decode h]
  have htext := Text.Utf8.decode?_encode text
  rw [hencode, Text.Utf8.decode?_encode] at htext
  exact (Option.some.inj htext).symm

/-- The token comes first in the bytes of a frame. -/
theorem of_ofBytes {kind : String} {timestamp : Int} {bytes : List UInt8} {f : Frame}
    (h : ofBytes kind timestamp bytes = .ok f) :
    f.kind = kind ∧ f.timestamp = timestamp ∧ f.token.bytes ++ f.compressed = bytes := by
  unfold ofBytes at h
  split at h
  next token htoken =>
    cases h
    obtain ⟨hsize, htoken⟩ := Option.dite_none_right_eq_some.mp htoken
    cases htoken
    exact ⟨rfl, rfl, List.take_append_drop tokenSize bytes⟩
  next => cases h

/-- The steps that a frame is found by. -/
theorem of_ofMessage {m : Message} {f : Frame} (h : ofMessage m = .ok f) :
    ∃ p, Payload.ofJson m.payload = .ok p ∧ f.kind = m.kind ∧ f.timestamp = p.timestamp ∧
      p.message = symbols (f.token.bytes ++ f.compressed) := by
  obtain ⟨p, hp, h⟩ := of_bind h
  obtain ⟨bytes, hbytes, h⟩ := of_bind h
  obtain ⟨hkind, htime, rfl⟩ := of_ofBytes h
  exact ⟨p, of_mapError hp, hkind, htime, eq_symbols (of_mapError hbytes)⟩

/-- The record in what is around compressed bytes is the record of these bytes. -/
theorem decode_wrap_eq (compressed : List UInt8) {m : Meta} (hlow : -2 ^ 63 ≤ m.timestamp)
    (hhigh : m.timestamp < 2 ^ 63) : decode (wrap compressed m).write = decompress compressed := by
  simp only [decode, read?_wrap compressed hlow hhigh, decodeMessage,
    ofMessage_wrap compressed hhigh, bind, Except.bind]

/-- What is wrapped has the members of a frame and no others. -/
theorem enveloped_wrap (compressed : List UInt8) {m : Meta} (hlow : -2 ^ 63 ≤ m.timestamp)
    (hhigh : m.timestamp < 2 ^ 63) : (wrap compressed m).Enveloped m.clientId where
  kind := m.kind.nonempty
  held := by
    have htime : m.timestamp < 2 ^ 64 := by omega
    exact ⟨Payload.ordered_entries _, trivial, trivial, ⟨hlow, htime⟩, trivial⟩
  members := ⟨_, rfl, Payload.isSome_lookup _, rfl⟩

section Enveloped
variable {m : Message} {client : ClientId} (henveloped : m.Enveloped client) {f : Frame}
  (h : ofMessage m = .ok f)
include henveloped h

/-- A message is the one that its frame is wrapped in. -/
theorem wrap_around (hkind : f.kind ≠ "") : wrap f.compressed (f.around hkind client) = m := by
  obtain ⟨p, hp, hkind', htime, hmessage⟩ := of_ofMessage h
  obtain ⟨entries, hpayload, hkeys, hclient⟩ := henveloped.members
  have hheld := henveloped.held
  rw [hpayload] at hp hheld
  obtain rfl : entries = p.entries := Payload.eq_entries hheld.1 hkeys hp
  have hsome : some (Json.str p.clientId) = some (Json.str client.text) := hclient
  have hname : p.clientId = client.text := Json.str.inj (Option.some.inj hsome)
  obtain ⟨kind, payload⟩ := m
  obtain rfl : payload = p.toJson := hpayload
  obtain rfl : f.kind = kind := hkind'
  rw [wrap, around, htime, ← hname, ← hmessage]

/-- Its time fits a signed number of 64 bits. -/
theorem timestamp_bounds : -2 ^ 63 ≤ f.timestamp ∧ f.timestamp < 2 ^ 63 := by
  obtain ⟨p, hp, -, htime, -⟩ := of_ofMessage h
  obtain ⟨entries, hpayload, -, -⟩ := henveloped.members
  have hheld := henveloped.held
  rw [hpayload] at hp hheld
  obtain ⟨-, -, hlookup, hhigh⟩ := Payload.of_ofEntries hp
  rw [htime]
  exact ⟨(Json.held_of_lookup hheld.2 hlookup).1, hhigh⟩

/-- The text of its frame, wrapped again, is read as the same message. -/
theorem read?_wrap_around : ∃ hkind : f.kind ≠ "",
    Message.read? (wrap f.compressed (f.around hkind client)).write = some m := by
  obtain ⟨-, -, hkind', -, -⟩ := of_ofMessage h
  have hkind : f.kind ≠ "" := hkind' ▸ henveloped.kind
  obtain ⟨hlow, hhigh⟩ := timestamp_bounds henveloped h
  refine ⟨hkind, ?_⟩
  rw [read?_wrap (m := f.around hkind client) f.compressed hlow hhigh,
    wrap_around henveloped h hkind]

end Enveloped

/-- **What is around a frame says no more than what it was given, and loses none of it.**
Taken off, it gives back the kind, the token, the time and the compressed bytes, and the
record is that of the bytes alone. Put on again for the same client, it gives the message it
was taken from, as it does for any message that was read and has the members of a frame. -/
theorem around_inverse :
    (∀ (compressed : List UInt8) (m : Meta), -2 ^ 63 ≤ m.timestamp → m.timestamp < 2 ^ 63 →
      (∃ message, Message.read? (wrap compressed m).write = some message ∧
        ofMessage message = .ok ⟨m.kind.text, m.token, m.timestamp, compressed⟩) ∧
      decode (wrap compressed m).write = decompress compressed) ∧
    (∀ (m : Message) (client : ClientId) (f : Frame), m.Enveloped client → ofMessage m = .ok f →
      ∃ hkind : f.kind ≠ "",
        Message.read? (wrap f.compressed (f.around hkind client)).write = some m) ∧
    ∀ (raw : String) (m : Message) (entries : List (String × Json)) (client : ClientId)
      (f : Frame), Message.read? raw = some m → m.kind ≠ "" → m.payload = .object entries →
      (∀ key, (entries.lookup key).isSome ↔ key ∈ ["timestamp", "client_id", "message"]) →
      entries.lookup "client_id" = some (.str client.text) → ofMessage m = .ok f →
      ∃ hkind : f.kind ≠ "",
        Message.read? (wrap f.compressed (f.around hkind client)).write = some m := by
  refine ⟨fun compressed m hlow hhigh => ⟨?_, decode_wrap_eq compressed hlow hhigh⟩, ?_, ?_⟩
  · exact ⟨wrap compressed m, read?_wrap compressed hlow hhigh, ofMessage_wrap compressed hhigh⟩
  · intro m client f henveloped h
    exact read?_wrap_around henveloped h
  · intro raw m entries client f hread hkind hpayload hkeys hclient h
    exact read?_wrap_around (Message.enveloped_of_read? hread hkind hpayload hkeys hclient) h

/-- The message that a frame of one byte was sent in, at the earliest time there is, under a
kind with a quotation mark. -/
theorem around_inverse_earliest :
    let kind : Kind := ⟨"na\"ïve\n", by decide⟩
    let around : Meta := { leapMeta with kind, timestamp := -2 ^ 63 }
    let entries : List (String × Json) := [("client_id", .str "demo"),
      ("message", .str "BwcHBwcHBwcHBwcHBwcHBwE="), ("timestamp", .int (-2 ^ 63))]
    let m : Message := ⟨kind.text, .object entries⟩
    let f : Frame := ⟨kind.text, leapMeta.token, -2 ^ 63, [1]⟩
    let again := ∃ hkind : f.kind ≠ "",
      Message.read? (wrap f.compressed (f.around hkind leapMeta.clientId)).write = some m
    (-2 ^ 63 ≤ around.timestamp ∧ around.timestamp < 2 ^ 63 ∧
      decode (wrap [1] around).write = decompress [1]) ∧
    (m.Enveloped leapMeta.clientId ∧ ofMessage m = .ok f ∧ again) ∧
    Message.read? (wrap [1] around).write = some m ∧ again := by
  intro kind around entries m f again
  have hlow : -2 ^ 63 ≤ around.timestamp := Int.le_refl _
  have hhigh : around.timestamp < 2 ^ 63 := by decide
  have hwrap : wrap [1] around = m := by rfl
  have henveloped : m.Enveloped leapMeta.clientId := hwrap ▸ enveloped_wrap [1] hlow hhigh
  have hmessage : ofMessage m = .ok f := by
    decide +kernel
  have hread : Message.read? (wrap [1] around).write = some m := by
    rw [read?_wrap [1] hlow hhigh, hwrap]
  have hkeys : ∀ key, (entries.lookup key).isSome ↔ key ∈ ["timestamp", "client_id", "message"] :=
    Payload.isSome_lookup ⟨-2 ^ 63, "demo", "BwcHBwcHBwcHBwcHBwcHBwE="⟩
  obtain ⟨hfront, henvelope, hreading⟩ := around_inverse
  exact ⟨⟨hlow, hhigh, (hfront [1] around hlow hhigh).2⟩,
    ⟨henveloped, hmessage, henvelope m leapMeta.clientId f henveloped hmessage⟩, hread,
    hreading _ m entries leapMeta.clientId f hread henveloped.kind rfl hkeys rfl hmessage⟩

end Frame
end LiveTail
