import LiveTail.Proofs.Record.Returned
import LiveTail.Proofs.Record.Typed
import LiveTail.Proofs.Time.Signed
import Mathlib.Data.List.Perm.Subperm

/-! A record that was read can be written.

Each entry that is written of a record has its text or number from an entry that was read, and
no two have theirs from the same one (`nodup_sources`). So the map of a record is no larger
than the one it was read from, and fits the format as that did, once it is packed
(`rewritable_of_ofBytes`). Only a year that needs a sign is not read back. -/
namespace LiveTail

/-! ### Dictionaries -/

namespace Entries

theorem length_put {α : Type} (key : String) (value : α) (entries : List (String × α)) :
    (put key value entries).length ≤ entries.length + 1 := by
  induction entries with
  | nil => exact Nat.le_refl 1
  | cons head rest ih =>
    obtain ⟨k, v⟩ := head
    rw [put]
    split
    · exact Nat.le_refl _
    · split
      · exact Nat.le_succ _
      · exact Nat.succ_le_succ ih

end Entries

namespace LogRecord
open MessagePack

/-! ### Fields that are read -/

/-- The fields of a map that was read, each within what the map leaves of the budget. -/
structure Sized (fields : Fields) : Prop where
  value : ∀ e ∈ fields.entries, e.2.Fits 1022
  key : ∀ e ∈ fields.entries, (Value.str e.1).Valid
  size : fields.entries.length < 2 ^ 32

theorem mem_fieldsOf {entries : List (Value × Value)} {start fields : Fields}
    (h : entries.foldlM putField start = .ok fields) :
    fields.entries.length ≤ start.entries.length + entries.length ∧
      ∀ e ∈ fields.entries, e ∈ start.entries ∨ (Value.str e.1, e.2) ∈ entries := by
  induction entries generalizing start with
  | nil =>
    obtain rfl : start = fields := by simpa [pure, Except.pure] using h
    exact ⟨Nat.le_refl _, fun _ he => .inl he⟩
  | cons entry rest ih =>
    obtain ⟨k, v⟩ := entry
    rw [List.foldlM_cons] at h
    cases k with
    | str key =>
      have hrest : rest.foldlM putField (start.put key v) = .ok fields := h
      obtain ⟨hlength, hmem⟩ := ih hrest
      refine ⟨?_, fun e he => ?_⟩
      · have hput : (start.put key v).entries.length ≤ start.entries.length + 1 :=
          Entries.length_put key v start.entries
        rw [List.length_cons]
        omega
      · rcases hmem e he with he | he
        · rcases Entries.mem_put he with rfl | he
          · exact .inr (List.mem_cons_self ..)
          · exact .inl he
        · exact .inr (List.mem_cons_of_mem _ he)
    | _ => cases h

/-- The fields of a map that fits. -/
theorem sized_of_fits {entries : List (Value × Value)} {fields : Fields}
    (hfits : (Value.map entries).Fits Reader.budget) (h : fieldsOf entries = .ok fields) :
    Sized fields := by
  obtain ⟨hlength, hmem⟩ := mem_fieldsOf h
  obtain ⟨hsize, hentries⟩ := Value.entries_of_fits hfits
  have hall : ∀ e ∈ fields.entries, (Value.str e.1).Fits 1022 ∧ e.2.Fits 1022 := by
    intro e he
    exact hentries _ ((hmem e he).resolve_left List.not_mem_nil)
  refine ⟨fun e he => (hall e he).2, fun e he => (hall e he).1.valid, ?_⟩
  rw [show (Dictionary.empty : Fields).entries.length = 0 from rfl, Nat.zero_add] at hlength
  exact Nat.lt_of_le_of_lt hlength hsize

theorem get?_of_present? {fields : Fields} {key : String} {v : Value}
    (h : present? fields key = some v) : fields.get? key = some v := by
  unfold present? at h
  split at h
  · cases h
  · exact h

theorem mem_of_present? {fields : Fields} {key : String} {v : Value}
    (h : present? fields key = some v) : (key, v) ∈ fields.entries :=
  Dictionary.mem_of_get? (get?_of_present? h)

theorem key_of_present? {fields : Fields} {key : String} {v : Value}
    (h : present? fields key = some v) : key ∈ fields.entries.map Prod.fst :=
  List.mem_map_of_mem (mem_of_present? h)

theorem le_of_numberOf? {v : Value} {n : Nat} (h : numberOf? v = some n) : n ≤ numberLimit := by
  unfold numberOf? at h
  split at h
  next i =>
    simp only [Option.ite_none_right_eq_some, Option.some.injEq] at h
    omega
  next text =>
    unfold Number.Numeral.unsigned? at h
    dsimp only at h
    repeat' split at h
    all_goals simp_all
  next => cases h

theorem of_map_numberOf? {fields : Fields} {key : String} {n : Nat}
    (h : (present? fields key).map numberOf? = some (some n)) :
    n ≤ numberLimit ∧ key ∈ fields.entries.map Prod.fst := by
  obtain ⟨v, hv, hn⟩ := Option.map_eq_some_iff.mp h
  exact ⟨le_of_numberOf? hn, key_of_present? hv⟩

/-! ### Records that are read -/

section Typed
variable {fields : Fields} {r : LogRecord} (h : Typed (present? fields) r)
include h

theorem Typed.level_name : present? fields "levelname" = some (.str r.level.name) := by
  obtain ⟨name, hname, hlevel⟩ := h.level
  rw [hname, hlevel, Level.name_ofName]

theorem Typed.message_key : ∃ key, (key = "msg" ∨ key = "message") ∧
    present? fields key = some (.str r.message) :=
  h.message.elim (fun hmsg => ⟨"msg", .inl rfl, hmsg⟩)
    fun hmessage => ⟨"message", .inr rfl, hmessage.2⟩

theorem Typed.time_key : ∃ key, (key = "time" ∨ key = "created") ∧
    key ∈ fields.entries.map Prod.fst := by
  rcases h.time with ⟨text, htext, -⟩ | ⟨-, v, bits, hcreated, -, -⟩
  · exact ⟨"time", .inl rfl, key_of_present? htext⟩
  · exact ⟨"created", .inr rfl, key_of_present? hcreated⟩

theorem Typed.time_spec : r.time.Valid ∧ r.time.Near := by
  rcases h.time with ⟨text, -, hread⟩ | ⟨-, v, bits, -, -, hfloat⟩
  · exact Time.Reader.spec_read? hread
  · exact Time.Instant.spec_ofFloat? hfloat

end Typed

/-! ### Where the entries come from -/

/-- The key under which an entry was read: the message and the time have two each. -/
def source (message time key : String) : String :=
  if key = "msg" then message else if key = "time" then time else key

/-- The keys of the diagnostics. -/
def diagnosticKeys : List String :=
  ["module", "funcName", "pathname", "processName", "threadName", "taskName", "name", "status",
    "lineno", "process"]

/-- The keys of the entries that a record may have beside its extra ones. -/
def fieldKeys : List String := ["levelname", "msg", "time"] ++ diagnosticKeys

theorem keys_diagnostics (r : LogRecord) :
    r.texts.map Prod.fst ++ r.numbers.map Prod.fst = diagnosticKeys := rfl

theorem keys_textEntry (key : String) (o : Option String) :
    ((textEntry key o).map Prod.fst).Sublist [key] := by
  cases o with
  | none => exact List.nil_sublist _
  | some text => exact .refl _

theorem keys_numberEntry (key : String) (o : Option Nat) :
    ((numberEntry key o).map Prod.fst).Sublist [key] := by
  cases o with
  | none => exact List.nil_sublist _
  | some n => exact .refl _

/-- Of the keys of parts that may be absent, those that are there are written in order. -/
theorem keys_flatMap {α : Type} {entry : String → Option α → List (String × Value)}
    (h : ∀ key o, ((entry key o).map Prod.fst).Sublist [key])
    (parts : List (String × Option α)) :
    ((parts.flatMap fun p => entry p.1 p.2).map Prod.fst).Sublist (parts.map Prod.fst) := by
  induction parts with
  | nil => exact .refl _
  | cons p rest ih =>
    rw [List.flatMap_cons, List.map_append, List.map_cons]
    exact (h p.1 p.2).append ih

theorem keys_toEntries (r : LogRecord) :
    (r.toEntries.map Prod.fst).Sublist (fieldKeys ++ r.extra.entries.map Prod.fst) := by
  rw [toEntries_eq, List.map_append, List.map_append, List.map_append, fieldKeys,
    ← keys_diagnostics r, ← List.append_assoc]
  exact (((List.Sublist.refl _).append (keys_flatMap keys_textEntry r.texts)).append
    (keys_flatMap keys_numberEntry r.numbers)).append (.refl _)

section Sources
variable {message time : String}

theorem isReserved_source (hmessage : message = "msg" ∨ message = "message")
    (htime : time = "time" ∨ time = "created") :
    ∀ key ∈ fieldKeys, isReserved (source message time key) = true := by
  rcases hmessage with rfl | rfl <;> rcases htime with rfl | rfl <;> decide

theorem source_of_free {key : String} (h : isReserved key = false) :
    source message time key = key := by
  have hmsg : key ≠ "msg" := by
    rintro rfl
    cases h
  have htime : key ≠ "time" := by
    rintro rfl
    cases h
  rw [source, if_neg hmsg, if_neg htime]

theorem source_diagnostic {key : String} (h : key ∈ diagnosticKeys) :
    source message time key = key := by
  have hother : ∀ k ∈ diagnosticKeys, k ≠ "msg" ∧ k ≠ "time" := by decide
  rw [source, if_neg (hother key h).1, if_neg (hother key h).2]

/-- No two entries of a record were read under one key. -/
theorem nodup_sources (r : LogRecord) (hmessage : message = "msg" ∨ message = "message")
    (htime : time = "time" ∨ time = "created") :
    ((r.toEntries.map Prod.fst).map (source message time)).Nodup := by
  have hfree : ∀ key ∈ r.extra.entries.map Prod.fst, isReserved key = false := by
    intro key hkey
    obtain ⟨e, he, rfl⟩ := List.mem_map.mp hkey
    exact r.extra_free e he
  have hextra : (r.extra.entries.map Prod.fst).map (source message time) =
      r.extra.entries.map Prod.fst := by
    conv_rhs => rw [← List.map_id (r.extra.entries.map Prod.fst)]
    exact List.map_congr_left fun key hkey => source_of_free (hfree key hkey)
  refine List.Nodup.sublist ((keys_toEntries r).map _) ?_
  rw [List.map_append, List.nodup_append, hextra]
  refine ⟨?_, ?_, ?_⟩
  · rcases hmessage with rfl | rfl <;> rcases htime with rfl | rfl <;> decide
  · rw [List.Nodup, List.pairwise_map]
    exact r.extra.ordered.imp fun hlt => String.ne_of_lt hlt
  · intro key hkey other hother
    obtain ⟨k, hk, rfl⟩ := List.mem_map.mp hkey
    have hreserved := isReserved_source hmessage htime k hk
    rintro rfl
    rw [hfree _ hother] at hreserved
    cases hreserved

/-- An entry to be written: it fits, and has what it says from an entry that was read. -/
structure Sourced (message time : String) (fields : Fields) (e : String × Value) : Prop where
  key : (Value.str e.1).Valid
  value : e.2.Fits 1022
  read : source message time e.1 ∈ fields.entries.map Prod.fst

theorem valid_fieldKeys : ∀ key ∈ fieldKeys, (Value.str key).Valid := by
  simp only [Value.Valid]
  decide +kernel

variable {fields : Fields}

theorem sourced_text (h : Sized fields) {key read text : String} (hkey : key ∈ fieldKeys)
    (hsource : source message time key = read) (htext : present? fields read = some (.str text)) :
    Sourced message time fields (key, .str text) := by
  have hmem := mem_of_present? htext
  have hvalue := h.value (read, .str text) hmem
  refine ⟨valid_fieldKeys key hkey, hvalue, ?_⟩
  rw [hsource]
  exact List.mem_map.mpr ⟨_, hmem, rfl⟩

theorem sourced_textEntry (h : Sized fields) {key : String} (hkey : key ∈ diagnosticKeys)
    {o : Option String} (htext : present? fields key = o.map .str) {e : String × Value}
    (he : e ∈ textEntry key o) : Sourced message time fields e := by
  cases o with
  | none => cases he
  | some text =>
    obtain rfl := List.mem_singleton.mp he
    exact sourced_text h (List.mem_append_right _ hkey) (source_diagnostic hkey) htext

theorem sourced_numberEntry {key : String} (hkey : key ∈ diagnosticKeys) {o : Option Nat}
    (hnumber : (present? fields key).map numberOf? = o.map some) {e : String × Value}
    (he : e ∈ numberEntry key o) : Sourced message time fields e := by
  cases o with
  | none => cases he
  | some n =>
    obtain rfl := List.mem_singleton.mp he
    obtain ⟨hmost, hmem⟩ := of_map_numberOf? hnumber
    rw [numberLimit] at hmost
    refine ⟨valid_fieldKeys key (List.mem_append_right _ hkey),
      (fits_int (by omega) (by omega)).mono (by decide), ?_⟩
    rwa [source_diagnostic hkey]

theorem length_utf8_le (text : List Char) :
    (Text.Utf8.encode (String.ofList text)).length ≤ 4 * text.length := by
  rw [Text.Utf8.encode_ofList]
  induction text with
  | nil => exact Nat.le_refl 0
  | cons c rest ih =>
    have hc : (String.utf8EncodeChar c).length ≤ 4 := by
      rw [String.length_utf8EncodeChar]
      exact Char.utf8Size_le_four c
    rw [List.flatMap_cons, List.length_append, List.length_cons]
    omega

theorem sourced_time {r : LogRecord} (hread : Typed (present? fields) r)
    (hmem : source message time "time" ∈ fields.entries.map Prod.fst) :
    Sourced message time fields ("time", .str (String.ofList r.time.text)) := by
  have hutf := length_utf8_le r.time.text
  obtain ⟨hvalid, hnear⟩ := hread.time_spec
  have htext := Time.Instant.length_text_le hvalid hnear
  have hlength : (Text.Utf8.encode (String.ofList r.time.text)).length < 2 ^ 32 := by omega
  exact ⟨valid_fieldKeys "time" (by decide), ⟨hlength, (by decide : 3 ≤ 1022)⟩, hmem⟩

theorem sourced_extra (h : Sized fields) {r : LogRecord}
    (hextra : r.extra = fields.filter fun key => !isReserved key)
    {e : String × Value} (he : e ∈ r.extra.entries) : Sourced message time fields e := by
  have hfree := r.extra_free e he
  rw [hextra] at he
  have hmem : e ∈ fields.entries := (List.mem_filter.mp he).1
  refine ⟨h.key e hmem, h.value e hmem, ?_⟩
  rw [source_of_free hfree]
  exact List.mem_map_of_mem hmem

/-- Every entry of a record that was read has its source. -/
theorem sourced_toEntries (h : Sized fields) {r : LogRecord} (hread : Typed (present? fields) r)
    (hextra : r.extra = fields.filter fun key => !isReserved key)
    (hmessage : present? fields message = some (.str r.message))
    (htime : time ∈ fields.entries.map Prod.fst) :
    ∀ e ∈ r.toEntries, Sourced message time fields e := by
  intro e he
  rcases mem_toEntries he with hfixed | ⟨p, hp, htext⟩ | ⟨p, hp, hnumber⟩ | he
  · rcases hfixed with rfl | rfl | rfl
    · exact sourced_text h (by decide) rfl hread.level_name
    · exact sourced_text h (by decide) rfl hmessage
    · exact sourced_time hread htime
  · have hkey : p.1 ∈ diagnosticKeys := by
      rw [← keys_diagnostics r]
      exact List.mem_append_left _ (List.mem_map_of_mem hp)
    exact sourced_textEntry h hkey (hread.texts p hp) htext
  · have hkey : p.1 ∈ diagnosticKeys := by
      rw [← keys_diagnostics r]
      exact List.mem_append_right _ (List.mem_map_of_mem hp)
    exact sourced_numberEntry hkey (hread.numbers p hp) hnumber
  · exact sourced_extra h hextra he

/-- A record has no more entries to be written than were read. -/
theorem length_toEntries_le {r : LogRecord}
    (hnodup : ((r.toEntries.map Prod.fst).map (source message time)).Nodup)
    (h : ∀ e ∈ r.toEntries, Sourced message time fields e) :
    r.toEntries.length ≤ fields.entries.length := by
  have hsub : (r.toEntries.map Prod.fst).map (source message time) ⊆
      fields.entries.map Prod.fst := by
    intro key hkey
    obtain ⟨k, hk, rfl⟩ := List.mem_map.mp hkey
    obtain ⟨e, he, rfl⟩ := List.mem_map.mp hk
    exact (h e he).read
  have hle := (hnodup.subperm hsub).length_le
  rwa [List.length_map, List.length_map, List.length_map] at hle

end Sources

/-! ### All of what is read -/

/-- What is known of a record that was read. -/
structure Rewritable (r : LogRecord) : Prop where
  value : r.toValue.Fits Reader.budget
  numbers : r.NumbersFit
  time : r.time.Valid

theorem rewritable_of_ofFields {fields : Fields} (h : Sized fields) {r : LogRecord}
    (hr : ofFields fields = .ok r) : r.Rewritable := by
  obtain ⟨hread, hextra⟩ := of_ofFields hr
  obtain ⟨message, hmessage, htext⟩ := hread.message_key
  obtain ⟨time, htime, hmem⟩ := hread.time_key
  have hsourced := sourced_toEntries h hread hextra htext hmem
  have hlength := length_toEntries_le (nodup_sources r hmessage htime) hsourced
  refine
    { value := ?_
      numbers := ⟨fun n hn => ?_, fun n hn => ?_⟩
      time := hread.time_spec.1 }
  · have hwritten : (r.toEntries.map fun e => (Value.str e.1, e.2)).length < 2 ^ 32 := by
      rw [List.length_map]
      exact Nat.lt_of_le_of_lt hlength h.size
    refine Value.fits_map hwritten fun e he => ?_
    obtain ⟨entry, hentry, rfl⟩ := List.mem_map.mp he
    have hfits := hsourced entry hentry
    exact ⟨⟨hfits.key, (by decide : 3 ≤ 1022)⟩, hfits.value⟩
  · have hline := hread.numbers ("lineno", r.diagnostics.line) (by simp [numbers])
    exact (of_map_numberOf? (hn ▸ hline)).1
  · have hprocess := hread.numbers ("process", r.diagnostics.processId) (by simp [numbers])
    exact (of_map_numberOf? (hn ▸ hprocess)).1

/-- **A record that is read fits the format**, once it is packed. -/
theorem rewritable_of_ofBytes {bytes : List UInt8} {r : LogRecord} (h : ofBytes bytes = .ok r) :
    r.Rewritable := by
  unfold ofBytes at h
  split at h
  next => cases h
  next v rest hread =>
    split at h
    next =>
      cases v with
      | map entries =>
        obtain ⟨fields, hfields, hr⟩ := of_bind h
        exact rewritable_of_ofFields (sized_of_fits (read_fits hread) hfields) hr
      | _ => cases h
    next => cases h

/-- What comes of writing a record that was read, and reading it again: it comes back packed,
if its year needs no sign. -/
theorem ofBytes_toBytes_read {bytes : List UInt8} {r : LogRecord} (h : ofBytes bytes = .ok r) :
    ofBytes r.toBytes =
      if r.time.Unsigned then .ok r.packed
      else .error (.badTime (String.ofList r.time.text)) := by
  have hr := rewritable_of_ofBytes h
  rw [ofBytes_packed hr.value.valid hr.value.cost hr.numbers]
  split
  next hyear => exact reread_eq (r := r.packed) hr.time hyear
  next hyear =>
    rw [reread, show r.packed.time = r.time from rfl, Time.Reader.read?_signed hr.time hyear]

end LogRecord
end LiveTail
