import LiveTail.Proofs.Record.Read
import LiveTail.Proofs.Wire.Frame

/-! A record that was decoded, on its way through the wire again.

Any record that a text was decoded to can be encoded, and what comes of that text depends on
two things alone (`decode_encode_decoded`). A year that needs a sign is written with it, and
is not read back. A string that is no text is written as binary data, and comes back as that.
Whatever else the record holds comes back as it was. -/
namespace LiveTail
open MessagePack

/-! ### The fewest fields -/

namespace LogRecord

/-- The fewest entries that a record is read from, its time in seconds since 1970. -/
def fewest (level message : String) (seconds : Value) : List (String × Value) :=
  [("levelname", .str level), ("message", .str message), ("created", seconds)]

section Fewest
variable (level message : String) (seconds : Value)

theorem get?_fewest (key : String) :
    (Dictionary.ofList (fewest level message seconds)).get? key =
      if key = "created" then some seconds
      else if key = "message" then some (.str message)
      else if key = "levelname" then some (.str level) else none := by
  simp only [Dictionary.get?_ofList, fewest, List.reverse_cons, List.reverse_nil,
    List.nil_append, List.cons_append, Entries.lookup_cons, List.lookup_nil]

theorem get?_fewest_absent {key : String} (h : key ∉ ["levelname", "message", "created"]) :
    (Dictionary.ofList (fewest level message seconds)).get? key = none := by
  simp only [List.mem_cons, List.not_mem_nil, or_false, not_or] at h
  rw [get?_fewest, if_neg h.2.2, if_neg h.2.1, if_neg h.1]

theorem diagnosticsFields_fewest :
    diagnosticsFields (Dictionary.ofList (fewest level message seconds)) = .ok {} := by
  have htext : ∀ key, key ∉ ["levelname", "message", "created"] →
      textField (Dictionary.ofList (fewest level message seconds)) key = .ok none :=
    fun key hkey => textField_of_get? (get?_fewest_absent level message seconds hkey)
  have hnumber : ∀ key, key ∉ ["levelname", "message", "created"] →
      numberField (Dictionary.ofList (fewest level message seconds)) key = .ok none :=
    fun key hkey => numberField_of_get? (get?_fewest_absent level message seconds hkey) nofun
  simp (disch := decide) only [diagnosticsFields, htext, hnumber]
  rfl

theorem filter_fewest :
    (Dictionary.ofList (fewest level message seconds)).filter (fun key => !isReserved key) =
      .empty := by
  apply Dictionary.ext
  intro key
  have hreserved : ∀ k ∈ ["levelname", "message", "created"], isReserved k = true := by decide
  rw [Dictionary.get?_filter]
  by_cases hkey : key ∈ ["levelname", "message", "created"]
  · rw [hreserved key hkey]
    rfl
  · rw [get?_fewest_absent level message seconds hkey, ite_self]
    rfl

end Fewest

theorem ofFields_fewest (level message : String) {seconds : Value} (hnil : seconds ≠ .nil)
    {bits : UInt64} (hbits : secondsOf "created" seconds = .ok bits) {t : Time.Instant}
    (ht : Time.Instant.ofFloat? bits = some t) :
    ofFields (Dictionary.ofList (fewest level message seconds)) =
      .ok (.new (Level.ofName level) message t) := by
  have hget := get?_fewest level message seconds
  have hlevel : textField (Dictionary.ofList (fewest level message seconds)) "levelname" =
      .ok (some level) := textField_of_get? (hget "levelname")
  have hmsg : textField (Dictionary.ofList (fewest level message seconds)) "msg" = .ok none :=
    textField_of_get? (hget "msg")
  have hmessage : textField (Dictionary.ofList (fewest level message seconds)) "message" =
      .ok (some message) := textField_of_get? (hget "message")
  have htime : present? (Dictionary.ofList (fewest level message seconds)) "time" = none :=
    present?_of_get? (hget "time") nofun
  have hcreated : present? (Dictionary.ofList (fewest level message seconds)) "created" =
      some seconds := present?_of_get? (hget "created") (by simpa)
  simp only [ofFields, levelField, hlevel, messageField, hmsg, hmessage, timeField, htime,
    hcreated, hbits, instantOf, ht, diagnosticsFields_fewest, bind, Except.bind, pure,
    Except.pure, withExtra, withDiagnostics, new, filter_fewest]

/-- A record is read from its level, its message and the seconds of its time. -/
theorem ofBytes_fewest {level message : String} {seconds : Value} {bits : UInt64}
    {t : Time.Instant} (hlevel : (Value.str level).Valid) (hmessage : (Value.str message).Valid)
    (hseconds : seconds.Valid) (hcost : seconds.cost ≤ 1022) (hnil : seconds ≠ .nil)
    (hbits : secondsOf "created" seconds = .ok bits)
    (ht : Time.Instant.ofFloat? bits = some t) :
    ofBytes (write (.map ((fewest level message seconds).map fun e => (.str e.1, e.2)))) =
      .ok (.new (Level.ofName level) message t) := by
  have hkeys : (Value.str "levelname").Valid ∧ (Value.str "message").Valid ∧
      (Value.str "created").Valid := by
    simp only [Value.Valid]
    decide +kernel
  rw [ofBytes_keyed]
  · exact ofFields_fewest level message hnil hbits ht
  · have hlength : (fewest level message seconds).length < 2 ^ 32 := by
      show 3 < 2 ^ 32
      decide
    refine ⟨by rwa [List.length_map], ?_⟩
    exact ⟨hkeys.1, hlevel, hkeys.2.1, hmessage, hkeys.2.2, hseconds, trivial⟩
  · simp only [fewest, List.map, Value.cost, Value.costEntries, Reader.budget]
    omega

end LogRecord

namespace Frame

/-! ### Reading once more -/

theorem ofBytes_of_decompress {compressed : List UInt8} {r : LogRecord}
    (h : decompress compressed = .ok r) : ∃ bytes, LogRecord.ofBytes bytes = .ok r := by
  obtain ⟨bytes, -, hbytes⟩ := of_bind h
  exact ⟨bytes, of_mapError hbytes⟩

/-- A record that was decoded was read from some bytes. -/
theorem ofBytes_of_decode {raw : String} {r : LogRecord} (h : decode raw = .ok r) :
    ∃ bytes, LogRecord.ofBytes bytes = .ok r := by
  unfold decode at h
  split at h
  next m hm =>
    obtain ⟨frame, -, hframe⟩ := of_bind h
    exact ofBytes_of_decompress hframe
  next => cases h

/-- What a record is once it was written and read again. -/
def again (r : LogRecord) : Except DecodeError LogRecord :=
  if r.time.Unsigned then .ok r.packed
  else .error (.schema (.badTime (String.ofList r.time.text)))

theorem again_eq_ok_iff (r : LogRecord) :
    again r = .ok r ↔ r.time.Unsigned ∧ r.packed = r := by
  unfold again
  split
  next hyear => simp only [Except.ok.injEq, hyear, true_and]
  next hyear => simp only [hyear, false_and, reduceCtorEq]

/-- What is found in the text around bytes that decompress to a record that was decoded. -/
theorem decode_wrap_decoded {raw : String} {r : LogRecord} (h : decode raw = .ok r)
    {compressed : List UInt8} (hpacked : Zstandard.decode compressed = .ok r.toBytes) {m : Meta}
    (hlow : -2 ^ 63 ≤ m.timestamp) (hhigh : m.timestamp < 2 ^ 63) :
    decode (wrap compressed m).write = again r := by
  obtain ⟨bytes, hbytes⟩ := ofBytes_of_decode h
  rw [decode_wrapped compressed hpacked hlow hhigh, LogRecord.ofBytes_toBytes_read hbytes, again]
  split <;> rfl

/-- A text whose record has the fewest fields. -/
def fewest (seconds : Value) : String :=
  (wrap (Zstandard.encode (write (.map
    ((LogRecord.fewest "INFO" "m" seconds).map fun e => (.str e.1, e.2))))) leapMeta).write

theorem decode_fewest {seconds : Value} {bits : UInt64} {t : Time.Instant}
    (hvalid : seconds.Valid) (hcost : seconds.cost ≤ 1022) (hnil : seconds ≠ .nil)
    (hbits : LogRecord.secondsOf "created" seconds = .ok bits)
    (ht : Time.Instant.ofFloat? bits = some t) :
    decode (fewest seconds) = .ok (.new .info "m" t) := by
  have htexts : (Value.str "INFO").Valid ∧ (Value.str "m").Valid := by
    simp only [Value.Valid]
    decide +kernel
  have hbytes := LogRecord.ofBytes_fewest htexts.1 htexts.2 hvalid hcost hnil hbits ht
  rw [fewest, decode_wrapped _ (Zstandard.decode_encode _) (by decide) (by decide), hbytes]
  rfl

/-- **A record that was decoded can be encoded**, and it is read back without loss if its year
needs no sign and its strings are text. -/
theorem decode_encode_decoded {pack : List UInt8 → Except String (List UInt8)}
    (hpack : ∀ content, ∃ packed, pack content = .ok packed ∧
      Zstandard.decode packed = .ok content)
    {raw : String} {r : LogRecord} (h : decode raw = .ok r) {m : Meta}
    (hlow : -2 ^ 63 ≤ m.timestamp) (hhigh : m.timestamp < 2 ^ 63) :
    ∃ text, encodeWith pack r m = .ok text ∧ decode text = again r ∧
      (decode text = .ok r ↔ r.time.Unsigned ∧ r.packed = r) := by
  obtain ⟨packed, hpacked, hdecode⟩ := hpack r.toBytes
  have hagain : decode (wrap packed m).write = again r := decode_wrap_decoded h hdecode hlow hhigh
  refine ⟨(wrap packed m).write, ?_, hagain, ?_⟩
  · simp only [encodeWith, hpacked, Except.mapError, bind, Except.bind, pure, Except.pure]
  · rw [hagain, again_eq_ok_iff]

/-- A second and a half after 1970 began, from a number that is written as text. -/
theorem decode_encode_decoded_text :
    decode (fewest (.str " 1.5e0 ")) = .ok (.new .info "m" ⟨1, 500000000⟩) ∧
      ∃ text, encodeWith (fun content => .ok (Zstandard.encode content))
          (.new .info "m" ⟨1, 500000000⟩) leapMeta = .ok text ∧
        decode text = .ok (.new .info "m" ⟨1, 500000000⟩) := by
  have hbits : LogRecord.secondsOf "created" (.str " 1.5e0 ") = .ok 0x3FF8000000000000 := by
    decide +kernel
  have hdecode : decode (fewest (.str " 1.5e0 ")) = .ok (.new .info "m" ⟨1, 500000000⟩) :=
    decode_fewest (by simp only [Value.Valid]; decide +kernel) (by decide) nofun hbits
      (by decide +kernel)
  obtain ⟨text, htext, -, hiff⟩ := decode_encode_decoded
    (fun content => ⟨_, rfl, Zstandard.decode_encode content⟩) hdecode
    (m := leapMeta) (by decide) (by decide)
  exact ⟨hdecode, text, htext, hiff.mpr ⟨⟨by decide, by decide⟩, rfl⟩⟩

/-- The first second of the year 10000 is decoded from a number, and is not read back. -/
theorem decode_encode_future :
    decode (fewest (.int 253402300800)) = .ok (.new .info "m" ⟨253402300800, 0⟩) ∧
      decode (encode (.new .info "m" ⟨253402300800, 0⟩) leapMeta) =
        .error (.schema (.badTime "+10000-01-01T00:00:00Z")) := by
  have hdecode : decode (fewest (.int 253402300800)) = .ok (.new .info "m" ⟨253402300800, 0⟩) :=
    decode_fewest ⟨by decide, by decide⟩ (by decide) nofun rfl (by decide +kernel)
  refine ⟨hdecode, ?_⟩
  have hagain := decode_wrap_decoded hdecode (Zstandard.decode_encode _)
    (by decide : -2 ^ 63 ≤ leapMeta.timestamp) (by decide)
  rw [encode, compress, hagain, again, if_neg]
  · congr 3
    decide +kernel
  · exact fun hyear => absurd hyear.2 (by decide)

end Frame
end LiveTail
