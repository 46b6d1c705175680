import LiveTail.Proofs.Packed
import LiveTail.Proofs.Record.Fields

/-! What comes back of a record from its bytes.

A record that fits the wire comes back whole but for two things (`ofBytes_toBytes`): a string
that is no text comes back as binary data, and a leap second that ends no minute as the second
after it. Nothing in the bytes tells either from what is read in its place. -/
namespace LiveTail

namespace Dictionary

/-- A dictionary with other values under the same keys. -/
def mapValues {α β : Type} (f : α → β) (d : Dictionary α) : Dictionary β :=
  ⟨d.entries.map fun e => (e.1, f e.2), by
    rw [Entries.Ordered, List.pairwise_map]
    exact d.ordered⟩

end Dictionary

namespace LogRecord
open MessagePack

/-! ### Packing -/

/-- A record with binary data in place of strings that are no text. -/
def packed (r : LogRecord) : LogRecord :=
  { r with
    extra := r.extra.mapValues Value.packed
    extra_free := by
      intro e he
      obtain ⟨entry, hentry, rfl⟩ := List.mem_map.mp he
      exact r.extra_free entry hentry }

theorem textEntry_packed (key : String) (o : Option String) :
    (textEntry key o).map (fun e => (e.1, e.2.packed)) = textEntry key o := by
  cases o <;> rfl

theorem numberEntry_packed (key : String) (o : Option Nat) :
    (numberEntry key o).map (fun e => (e.1, e.2.packed)) = numberEntry key o := by
  cases o <;> rfl

theorem toEntries_packed (r : LogRecord) :
    r.packed.toEntries = r.toEntries.map fun e => (e.1, e.2.packed) := by
  simp only [toEntries_eq, List.map_append, List.map_flatMap, textEntry_packed,
    numberEntry_packed]
  rfl

theorem toValue_packed (r : LogRecord) : r.packed.toValue = r.toValue.packed := by
  rw [toValue, toValue, Value.packed, Value.packedEntries_eq, toEntries_packed, List.map_map,
    List.map_map]
  rfl

/-- A record is written as it is packed. -/
theorem toBytes_packed (r : LogRecord) : r.packed.toBytes = r.toBytes := by
  rw [toBytes, toBytes, toValue_packed]
  exact Value.write_packed r.toValue

/-! ### All of a record -/

/-- Whether a record fits the wire: its year is one that text holds, its numbers, strings and
collections are within what MessagePack holds, and its values within the nesting allowed. -/
structure Writable (r : LogRecord) : Prop where
  time : r.time.nanos < 2 * Time.Instant.second
  year : r.time.Unsigned
  line : ∀ n, r.diagnostics.line = some n → n ≤ numberLimit
  process : ∀ n, r.diagnostics.processId = some n → n ≤ numberLimit
  value : r.toValue.packed.Valid
  depth : ∀ e ∈ r.extra.entries, e.2.depth ≤ 500

/-- What is read in place of a record. -/
def returned (r : LogRecord) : LogRecord := { r.packed with time := r.time.settled }

/-- A record comes back as it was if its instant is one of a clock and its strings are text. -/
theorem returned_eq_iff {r : LogRecord} (h : r.time.nanos < 2 * Time.Instant.second) :
    r.returned = r ↔ r.time.Valid ∧ r.packed = r := by
  constructor
  · intro heq
    have htime : r.time.settled = r.time := congrArg LogRecord.time heq
    refine ⟨(Time.Instant.settled_eq_iff h).mp htime, ?_⟩
    rw [returned, htime] at heq
    exact heq
  · rintro ⟨hvalid, hpacked⟩
    rw [returned, (Time.Instant.settled_eq_iff h).mpr hvalid]
    exact hpacked

/-- What comes of the bytes of a record, once it is packed. -/
theorem ofBytes_packed {r : LogRecord} (hvalid : r.toValue.packed.Valid)
    (hcost : r.toValue.cost ≤ Reader.budget) (hnumbers : r.NumbersFit) :
    ofBytes r.toBytes = r.packed.reread := by
  rw [← toValue_packed] at hvalid
  have hless : r.packed.toValue.cost ≤ Reader.budget := by
    rw [toValue_packed]
    exact Nat.le_trans (Value.cost_packed _) hcost
  rw [← toBytes_packed]
  exact ofBytes_reread hvalid hless ⟨hnumbers.line, hnumbers.process⟩

/-- **A record is read back from its bytes**, packed, and with the instant that its text
stands for. -/
theorem ofBytes_toBytes {r : LogRecord} (h : r.Writable) : ofBytes r.toBytes = .ok r.returned := by
  rw [ofBytes_packed h.value (cost_toValue h.depth) ⟨h.line, h.process⟩, reread,
    show r.packed.time = r.time from rfl, Time.Reader.read?_text_settled h.time h.year]
  rfl

end LogRecord
end LiveTail
