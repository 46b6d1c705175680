import Mathlib.Data.List.Infix
import LiveTail.Proofs.Truncated
import LiveTail.Proofs.Wire.Frame

/-! A frame that is cut short gives no record.

A text `Carries` some bytes when they are what is in its payload; what is decoded depends on
them alone (`decode_carried`). A part of a frame that has no room for a token is refused as an
envelope. Any other ends inside the compressed bytes, which then do not decompress. Of the
map inside a frame no part is read as a value, and nothing may follow it. -/
namespace LiveTail

/-! ### Records -/

namespace LogRecord
open MessagePack

section Bytes
variable {r : LogRecord} (h : r.toValue.Fits Reader.budget)
include h

theorem ofBytes_truncated {front : List UInt8} (hfront : front <+: r.toBytes)
    (hne : front ≠ r.toBytes) : ∃ cause, ofBytes front = .error (.unreadable cause) := by
  obtain ⟨cause, hcause⟩ := read_truncated h hfront hne
  exact ⟨cause, by rw [ofBytes, hcause]⟩

theorem ofBytes_trailing {more : List UInt8} (hmore : more ≠ []) :
    ofBytes (r.toBytes ++ more) = .error .trailingBytes := by
  have hread : read (r.toBytes ++ more) = .ok (r.toValue.packed, more) := read_write_packed h more
  have hsome : ¬ more.isEmpty = true := by rwa [List.isEmpty_iff]
  rw [ofBytes, hread]
  exact if_neg hsome

end Bytes
end LogRecord

/-! ### Frames -/

namespace Frame

/-- A text in whose payload some bytes stand as the message, whatever else is in it. -/
def Carries (text : String) (bytes : List UInt8) : Prop :=
  ∃ m p, Message.read? text = some m ∧ Payload.ofJson m.payload = .ok p ∧
    p.message = symbols bytes

/-- There is such a text for any bytes, under any kind, for any client and at any time. -/
theorem carries_write (kind : String) {p : Payload} {bytes : List UInt8}
    (hbytes : p.message = symbols bytes) (hlow : -2 ^ 63 ≤ p.timestamp)
    (hhigh : p.timestamp < 2 ^ 63) : Carries (Message.write ⟨kind, p.toJson⟩) bytes := by
  have hdepth : p.toJson.depth ≤ Message.nesting - 1 := (by decide : 1 ≤ Message.nesting - 1)
  exact ⟨_, p, Message.read?_write (Payload.plain_toJson hlow hhigh) hdepth,
    Payload.ofJson_toJson hhigh, hbytes⟩

theorem ofBytes_short (kind : String) (timestamp : Int) {bytes : List UInt8}
    (h : bytes.length < tokenSize) :
    ofBytes kind timestamp bytes = .error (.envelope (.short bytes.length)) := by
  have htoken : Token.of? (bytes.take tokenSize) = none := by
    rw [Token.of?, dif_neg]
    rw [List.length_take]
    omega
  rw [ofBytes, htoken]

theorem ofBytes_long (kind : String) (timestamp : Int) {bytes : List UInt8}
    (h : tokenSize ≤ bytes.length) :
    ∃ token, ofBytes kind timestamp bytes = .ok ⟨kind, token, timestamp, bytes.drop tokenSize⟩ := by
  have htoken : (bytes.take tokenSize).length = tokenSize := List.length_take_of_le h
  refine ⟨⟨bytes.take tokenSize, htoken⟩, ?_⟩
  rw [ofBytes, Token.of?, dif_pos htoken]

/-- Of a text only the bytes that it carries are decoded. -/
theorem decode_carried {text : String} {bytes : List UInt8} (h : Carries text bytes) :
    decode text = if bytes.length < tokenSize then .error (.envelope (.short bytes.length))
      else decompress (bytes.drop tokenSize) := by
  obtain ⟨m, p, hread, hp, hbytes⟩ := h
  have hdecode : decode text = ofBytes m.kind p.timestamp bytes >>= (decompress ·.compressed) := by
    simp only [decode, hread, decodeMessage, ofMessage, hp, hbytes, decode_symbols,
      Except.mapError, bind, Except.bind]
  rw [hdecode]
  split
  next hshort =>
    rw [ofBytes_short m.kind p.timestamp hshort]
    rfl
  next hlong =>
    obtain ⟨token, htoken⟩ := ofBytes_long m.kind p.timestamp (Nat.le_of_not_lt hlong)
    rw [htoken]
    rfl

/-- Behind the token a part of a frame is a part of what is compressed. -/
theorem drop_token {token : Token} {front packed : List UInt8}
    (hfront : front <+: token.bytes ++ packed) (hne : front ≠ token.bytes ++ packed)
    (hlong : tokenSize ≤ front.length) :
    front.drop tokenSize <+: packed ∧ front.drop tokenSize ≠ packed := by
  have hwhole : (token.bytes ++ packed).drop tokenSize = packed := List.drop_left' token.size
  refine ⟨hwhole ▸ hfront.drop tokenSize, fun hsame => hne (hfront.eq_of_length ?_)⟩
  have hlength := congrArg List.length hsame
  rw [List.length_drop] at hlength
  rw [List.length_append, token.size]
  omega

/-- **A part of a frame never gives a record**, and the error names the stage at which it
ends: the envelope if it is shorter than a token, or else decompression, for any way to
compress into one frame. The bytes of a record cannot be read in part either, nor with
anything behind them, if the values in it are nested no deeper than 500 and the lengths fit
in 32 bits. -/
theorem truncated_refused {pack : List UInt8 → Except String (List UInt8)}
    (hpack : ∀ content, ∃ packed, pack content = .ok packed ∧
      Zstandard.readFrame packed = .ok (content, []))
    (r : LogRecord) :
    (∃ packed, pack r.toBytes = .ok packed ∧ ∀ (token : Token) (front : List UInt8),
      front <+: token.bytes ++ packed → front ≠ token.bytes ++ packed →
      ∀ text, Carries text front → ∃ e, decode text = .error e ∧
        e.stage = if front.length < tokenSize then .envelope else .decompression) ∧
    (r.toValue.packed.Valid → (∀ e ∈ r.extra.entries, e.2.depth ≤ 500) →
      (∀ front, front <+: r.toBytes → front ≠ r.toBytes →
        ∃ cause, LogRecord.ofBytes front = .error (.unreadable cause)) ∧
      ∀ more, more ≠ [] → LogRecord.ofBytes (r.toBytes ++ more) = .error .trailingBytes) := by
  constructor
  · obtain ⟨packed, hpacked, hframe⟩ := hpack r.toBytes
    refine ⟨packed, hpacked, fun token front hfront hne text htext => ?_⟩
    rw [decode_carried htext]
    split
    next => exact ⟨_, rfl, rfl⟩
    next hlong =>
      obtain ⟨hpart, hless⟩ := drop_token hfront hne (Nat.le_of_not_lt hlong)
      obtain ⟨cause, hcause⟩ := Zstandard.decode_truncated hframe hpart hless
      refine ⟨.decompression cause, ?_, rfl⟩
      simp only [decompress, hcause, Except.mapError, bind, Except.bind]
  · intro hvalid hdepth
    have hfits : r.toValue.Fits MessagePack.Reader.budget :=
      ⟨hvalid, LogRecord.cost_toValue hdepth⟩
    exact ⟨fun _ => LogRecord.ofBytes_truncated hfits, fun _ => LogRecord.ofBytes_trailing hfits⟩

theorem compress_ne_nil (r : LogRecord) : compress r ≠ [] := by
  intro hnone
  have hframe := Zstandard.readFrame_encode r.toBytes
  rw [← compress, hnone] at hframe
  cases hframe

/-- The frame of a record of a leap second is cut one byte short, and inside the token; the
bytes of the record are cut one byte short, and have one put behind them. -/
theorem truncated_refused_leap :
    let pack : List UInt8 → Except String (List UInt8) :=
      fun content => .ok (Zstandard.encode content)
    let text := fun bytes => Message.write ⟨"live_log", Payload.toJson ⟨0, "demo", symbols bytes⟩⟩
    let whole := leapMeta.token.bytes ++ compress leap
    (∀ content, ∃ packed, pack content = .ok packed ∧
      Zstandard.readFrame packed = .ok (content, [])) ∧
    (∃ e, decode (text whole.dropLast) = .error e ∧ e.stage = .decompression) ∧
    (∃ e, decode (text (whole.take 15)) = .error e ∧ e.stage = .envelope) ∧
    leap.toValue.packed.Valid ∧ (∀ e ∈ leap.extra.entries, e.2.depth ≤ 500) ∧
    (∃ cause, LogRecord.ofBytes leap.toBytes.dropLast = .error (.unreadable cause)) ∧
    LogRecord.ofBytes (leap.toBytes ++ [0xC0]) = .error .trailingBytes := by
  intro pack text whole
  have hpack : ∀ content, ∃ packed, pack content = .ok packed ∧
      Zstandard.readFrame packed = .ok (content, []) :=
    fun content => ⟨_, rfl, Zstandard.readFrame_encode content⟩
  have htext : ∀ bytes, Carries (text bytes) bytes := fun bytes => by
    have hlow : (-2 ^ 63 : Int) ≤ 0 := by decide
    have hhigh : (0 : Int) < 2 ^ 63 := by decide
    exact carries_write "live_log" (p := ⟨0, "demo", symbols bytes⟩) rfl hlow hhigh
  have hvalid : leap.toValue.packed.Valid := writable_leap.value
  have hlength : tokenSize < whole.length := by
    have hpos := List.length_pos_iff.mpr (compress_ne_nil leap)
    rw [List.length_append, leapMeta.token.size]
    omega
  have hsize : tokenSize = 16 := rfl
  have hlast : ∀ {bytes : List UInt8}, 0 < bytes.length → bytes.dropLast ≠ bytes := by
    intro bytes hpos hsame
    have hcut := congrArg List.length hsame
    rw [List.length_dropLast] at hcut
    omega
  have hbytes : 0 < leap.toBytes.length := by
    rw [List.length_pos_iff]
    intro hnone
    have hread := LogRecord.ofBytes_toBytes writable_leap
    rw [hnone] at hread
    cases hread
  obtain ⟨⟨packed, hpacked, htruncated⟩, hrecord⟩ := truncated_refused hpack leap
  obtain rfl : compress leap = packed := Except.ok.inj hpacked
  obtain ⟨hpart, htrailing⟩ := hrecord hvalid writable_leap.depth
  refine ⟨hpack, ?_, ?_, hvalid, writable_leap.depth, ?_, htrailing _ (by decide)⟩
  · have hlong : ¬ whole.dropLast.length < tokenSize := by
      rw [List.length_dropLast]
      omega
    have hcut := htruncated leapMeta.token _ (List.dropLast_prefix whole)
      (hlast (by omega)) _ (htext _)
    rwa [if_neg hlong] at hcut
  · have hshort : (whole.take 15).length < tokenSize := by
      rw [List.length_take]
      omega
    have hne : whole.take 15 ≠ whole := fun hsame => by
      rw [hsame] at hshort
      omega
    have hcut := htruncated leapMeta.token _ (List.take_prefix 15 whole) hne _ (htext _)
    rwa [if_pos hshort] at hcut
  · exact hpart _ (List.dropLast_prefix _) (hlast hbytes)

end Frame
end LiveTail
