import LiveTail.Demo
import LiveTail.Proofs.Number.Decimal
import LiveTail.Proofs.Record.Read
import LiveTail.Proofs.Time.Signed
import LiveTail.Proofs.Truncated
import LiveTail.Proofs.Wire.Envelope

/-! What the frames of a demo are decoded to.

A record of a demo is small enough for the wire, so a whole frame gives it back
(`decode_whole`), by any way to compress into one frame. Half of the compressed bytes are no
frame, and do not decompress (`decode_cut`). -/
namespace LiveTail
open MessagePack

/-- What the surroundings of a frame can be: the clock shows a year of four digits, and the rest
has room in its words. -/
structure Stamp.Valid (s : Stamp) : Prop where
  time : s.time.Valid
  year : s.time.Unsigned
  process : s.processId ≤ LogRecord.numberLimit
  early : -2 ^ 63 ≤ s.timestamp
  late : s.timestamp < 2 ^ 63

namespace Demo

/-! ### Records -/

theorem normal_level (n : Nat) : (level n).normal = level n := by
  fun_cases level n <;> rfl

theorem toEntries_record (n : Nat) (s : Stamp) : (record n s).toEntries =
    [("levelname", .str (level n).name), ("msg", .str (text n)),
      ("time", .str (String.ofList s.time.text)), ("module", .str (origin n).1),
      ("funcName", .str (origin n).2), ("threadName", .str "MainThread"), ("name", .str "demo"),
      ("lineno", .int (40 + n % 200 : Nat)), ("process", .int s.processId)] := by
  have hlevel : (record n s).level.name = (level n).name := by
    rw [← normal_level n]
    rfl
  rw [LogRecord.toEntries, hlevel]
  rfl

theorem valid_short {s : String} (h : s.length < 2 ^ 20) : (Value.str s).Valid := by
  have hutf := LogRecord.length_utf8_le s.toList
  rw [String.ofList_toList, String.length_toList] at hutf
  rw [Value.Valid]
  omega

theorem length_origin_le (n : Nat) : (origin n).1.length ≤ 20 ∧ (origin n).2.length ≤ 20 := by
  fun_cases origin n <;> decide

theorem length_toString_le {n : Nat} (h : n < 2 ^ 64) : (toString n).length ≤ 20 := by
  rw [← String.length_toList, Number.Numeral.toList_toString_nat]
  exact Number.Numeral.length_digits_le (by decide) (by omega)

theorem length_text_le {n : Nat} (h : n < 2 ^ 64) : (text n).length ≤ 500 := by
  have hnumber := length_toString_le h
  have hplace := length_origin_le n
  have hparts : (", ".intercalate ((List.range 12).map fun p => s!"p{p}")).length ≤ 50 := by
    decide +kernel
  have hwords : ∀ word ∈ ["batch ", " finished with retries; slow partitions: ",
      "traceback for request ", ":\n  at ", ".", "\n  at runtime.dispatch", " handled item "],
      word.length ≤ 50 := by decide
  simp only [List.forall_mem_cons] at hwords
  rw [text]
  generalize origin n = place at hplace
  obtain ⟨module, function⟩ := place
  dsimp only at hplace ⊢
  simp only [toString] at hnumber hparts
  split
  all_goals
    simp only [String.length_append, toString]
    omega

theorem length_level_le (n : Nat) : (level n).name.length ≤ 10 := by
  fun_cases level n <;> decide

theorem valid_time {t : Time.Instant} (h : t.Valid) (hyear : t.Unsigned) :
    (Value.str (String.ofList t.text)).Valid := by
  have hnear : t.Near := by
    obtain ⟨hlow, hhigh⟩ := hyear
    rw [Time.Instant.Near]
    omega
  have hlength := Time.Instant.length_text_le h hnear
  refine valid_short ?_
  rw [String.length_ofList]
  omega

/-- Every key and every value of a record of a demo fits the wire. -/
theorem valid_entries {n : Nat} (h : n < 2 ^ 64) {s : Stamp} (hs : s.Valid) :
    ∀ e ∈ (record n s).toEntries, (Value.str e.1).Valid ∧ e.2.Valid := by
  have hlevel := length_level_le n
  have htext := length_text_le h
  obtain ⟨hmodule, hfunction⟩ := length_origin_le n
  have hline : (Value.int (40 + n % 200 : Nat)).Valid := by
    rw [Value.Valid]
    omega
  have hprocess : (Value.int s.processId).Valid := by
    have hmost := hs.process
    rw [LogRecord.numberLimit] at hmost
    rw [Value.Valid]
    omega
  have hword : ∀ {word : String}, word.length ≤ 20 → (Value.str word).Valid :=
    fun hlength => valid_short (Nat.lt_of_le_of_lt hlength (by decide))
  simp only [toEntries_record, List.forall_mem_cons]
  exact ⟨⟨hword (by decide), hword (by omega)⟩, ⟨hword (by decide), valid_short (by omega)⟩,
    ⟨hword (by decide), valid_time hs.time hs.year⟩, ⟨hword (by decide), hword hmodule⟩,
    ⟨hword (by decide), hword hfunction⟩, ⟨hword (by decide), hword (by decide)⟩,
    ⟨hword (by decide), hword (by decide)⟩, ⟨hword (by decide), hline⟩,
    ⟨hword (by decide), hprocess⟩, List.forall_mem_nil _⟩

theorem valid_keyed {entries : List (String × Value)}
    (h : ∀ e ∈ entries, (Value.str e.1).Valid ∧ e.2.Valid) :
    Value.ValidEntries (entries.map fun e => (.str e.1, e.2)) := by
  induction entries with
  | nil => trivial
  | cons e rest ih =>
    obtain ⟨⟨hkey, hvalue⟩, hrest⟩ := List.forall_mem_cons.mp h
    exact ⟨hkey, hvalue, ih hrest⟩

theorem packed_record (n : Nat) (s : Stamp) : (record n s).packed = record n s := rfl

/-- A record of a demo fits the wire. -/
theorem writable_record {n : Nat} (h : n < 2 ^ 64) {s : Stamp} (hs : s.Valid) :
    (record n s).Writable where
  time := hs.time.nanos_lt
  year := hs.year
  line := by
    rintro m ⟨⟩
    rw [LogRecord.numberLimit]
    omega
  process := by
    rintro m ⟨⟩
    exact hs.process
  value := by
    have hlength : (record n s).toEntries.length = 9 := by rw [toEntries_record]; rfl
    rw [← LogRecord.toValue_packed, packed_record]
    refine ⟨?_, valid_keyed (valid_entries h hs)⟩
    rw [List.length_map, hlength]
    decide
  depth := by
    intro e he
    cases he

/-! ### Frames -/

/-- A way to compress content always gives one frame of it. -/
def Packs (pack : List UInt8 → Except String (List UInt8)) : Prop :=
  ∀ content, ∃ packed, pack content = .ok packed ∧ Zstandard.readFrame packed = .ok (content, [])

theorem frameWith_eq {pack : List UInt8 → Except String (List UInt8)} (hpack : Packs pack)
    (n : Nat) (s : Stamp) :
    ∃ packed, Zstandard.readFrame packed = .ok ((record n s).toBytes, []) ∧
      ∀ clientId corrupt, frameWith pack n clientId corrupt s =
        .ok (carry packed clientId corrupt s) := by
  obtain ⟨packed, hpacked, hframe⟩ := hpack (record n s).toBytes
  refine ⟨packed, hframe, fun clientId corrupt => ?_⟩
  simp only [frameWith, hpacked, Except.mapError, bind, Except.bind, pure, Except.pure]

section Carried
variable {packed : List UInt8} {s : Stamp} (hs : s.Valid) (clientId : ClientId)
include hs

/-- A whole frame gives its record. -/
theorem decode_whole {n : Nat} (h : n < 2 ^ 64)
    (hpacked : Zstandard.readFrame packed = .ok ((record n s).toBytes, [])) :
    Frame.decode (carry packed clientId false s) = .ok (record n s) := by
  have hr := writable_record h hs
  rw [carry, if_neg Bool.false_ne_true, Frame.decode_wrap packed
    (Zstandard.decode_of_readFrame hpacked) hr hs.early hs.late,
    (LogRecord.returned_eq_iff hr.time).mpr ⟨hs.time, packed_record n s⟩]

/-- Half of the compressed bytes do not decompress. -/
theorem decode_cut {content : List UInt8}
    (hpacked : Zstandard.readFrame packed = .ok (content, [])) :
    ∃ cause, Frame.decode (carry packed clientId true s) = .error (.decompression cause) := by
  have hsome : packed ≠ [] := by
    rintro rfl
    cases hpacked
  have hless : packed.take (packed.length / 2) ≠ packed := by
    intro hsame
    have hlength := congrArg List.length hsame
    have hpos := List.length_pos_iff.mpr hsome
    rw [List.length_take] at hlength
    omega
  obtain ⟨cause, hcause⟩ :=
    Zstandard.decode_truncated hpacked (List.take_prefix (packed.length / 2) packed) hless
  refine ⟨cause, ?_⟩
  rw [carry, if_pos rfl, Frame.decode_wrap_eq _ hs.early hs.late]
  simp only [Frame.decompress, hcause, Except.mapError, bind, Except.bind]

end Carried
end Demo
end LiveTail
