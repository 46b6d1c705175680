import LiveTail.Proofs.Record.Typed
import Mathlib.Data.List.Nodup

/-! Each entry of a map has one place in the record.

A record is read from the last value under each key. The reserved keys give its own fields
(`Typed`) and nothing else does (`own_of_present?`); the other ones are left over, as they are
(`get?_extra_of_ofFields`). So it tells two maps apart by their last values alone, and its own
fields by those under the reserved keys. -/
namespace LiveTail.LogRecord
open MessagePack

/-- A map whose keys are texts. -/
def keyed (entries : List (String × Value)) : Value :=
  .map (entries.map fun e => (.str e.1, e.2))

/-- The last of the values under a key. -/
def last? (entries : List (String × Value)) (key : String) : Option Value :=
  entries.reverse.lookup key

/-- The last of the values under a key, unless it is nil. -/
def given? (entries : List (String × Value)) (key : String) : Option Value :=
  match last? entries key with
  | some .nil => none
  | other => other

theorem ofValue_keyed (entries : List (String × Value)) :
    ofValue (keyed entries) = ofFields (Dictionary.ofList entries) := by
  rw [keyed, ofValue, fieldsOf_keyed]
  rfl

/-! ### The fields of its own -/

/-- The keys under which a text is read. -/
def textKeys : List String :=
  ["levelname", "msg", "message", "module", "funcName", "pathname", "processName", "threadName",
    "taskName", "name", "status"]

/-- The keys under which a number is read. -/
def numberKeys : List String := ["lineno", "process"]

/-- The record without what is left over. -/
def own (fields : Fields) : Except SchemaError LogRecord := do
  let level ← levelField fields
  let message ← messageField fields
  let time ← timeField fields
  let diagnostics ← diagnosticsFields fields
  return (new level message time).withDiagnostics diagnostics

theorem ofFields_eq (fields : Fields) : ofFields fields = (own fields).map (·.withExtra fields) := by
  rw [ofFields, own]
  cases levelField fields with
  | error e => rfl
  | ok level =>
    cases messageField fields with
    | error e => rfl
    | ok message =>
      cases timeField fields with
      | error e => rfl
      | ok time => cases diagnosticsFields fields <;> rfl

section Congr
variable {a b : Fields}

theorem levelField_congr (h : ∀ key ∈ textKeys, textField a key = textField b key) :
    levelField a = levelField b := by
  rw [levelField, levelField, h "levelname" (by decide)]

theorem messageField_congr (h : ∀ key ∈ textKeys, textField a key = textField b key) :
    messageField a = messageField b := by
  rw [messageField, messageField, h "msg" (by decide), h "message" (by decide)]

theorem diagnosticsFields_congr (htexts : ∀ key ∈ textKeys, textField a key = textField b key)
    (hnumbers : ∀ key ∈ numberKeys, numberField a key = numberField b key) :
    diagnosticsFields a = diagnosticsFields b := by
  rw [diagnosticsFields, diagnosticsFields, htexts "module" (by decide),
    htexts "funcName" (by decide), htexts "pathname" (by decide), htexts "processName" (by decide),
    htexts "threadName" (by decide), htexts "taskName" (by decide), htexts "name" (by decide),
    htexts "status" (by decide), hnumbers "lineno" (by decide), hnumbers "process" (by decide)]

theorem own_congr (htexts : ∀ key ∈ textKeys, textField a key = textField b key)
    (hnumbers : ∀ key ∈ numberKeys, numberField a key = numberField b key)
    (htime : timeField a = timeField b) : own a = own b := by
  rw [own, own, levelField_congr htexts, messageField_congr htexts, htime,
    diagnosticsFields_congr htexts hnumbers]

theorem textField_congr {key : String} (h : present? a key = present? b key) :
    textField a key = textField b key := by
  rw [textField, textField, h]

theorem numberField_congr {key : String} (h : present? a key = present? b key) :
    numberField a key = numberField b key := by
  rw [numberField, numberField, h]

/-- The fields of its own come from the reserved keys, and a nil is as good as no value. -/
theorem own_of_present? (h : ∀ key, isReserved key = true → present? a key = present? b key) :
    own a = own b := by
  have htexts : ∀ key ∈ textKeys, isReserved key = true := by decide
  have hnumbers : ∀ key ∈ numberKeys, isReserved key = true := by decide
  apply own_congr
  · exact fun key hkey => textField_congr (h key (htexts key hkey))
  · exact fun key hkey => numberField_congr (h key (hnumbers key hkey))
  · rw [timeField, timeField, h "time" (by decide), h "created" (by decide)]

theorem present?_congr {key : String} (h : a.get? key = b.get? key) :
    present? a key = present? b key := by
  rw [present?, present?, h]

/-! ### What is left over -/

theorem withExtra_congr (r : LogRecord)
    (h : ∀ key, isReserved key = false → a.get? key = b.get? key) :
    r.withExtra a = r.withExtra b := by
  have hfilter : a.filter (fun key => !isReserved key) = b.filter (fun key => !isReserved key) := by
    apply Dictionary.ext
    intro key
    rw [Dictionary.get?_filter, Dictionary.get?_filter]
    cases hkey : isReserved key with
    | true => rfl
    | false => exact h key hkey
  simp only [withExtra, hfilter]

end Congr

theorem get?_extra_of_ofFields {fields : Fields} {r : LogRecord} (h : ofFields fields = .ok r)
    (key : String) : r.extra.get? key = if isReserved key then none else fields.get? key := by
  rw [(of_ofFields h).2, Dictionary.get?_filter]
  cases isReserved key <;> rfl

/-! ### The last value under a key -/

theorem last?_append (front back : List (String × Value)) (key : String) :
    last? (front ++ back) key = (last? back key).or (last? front key) := by
  rw [last?, List.reverse_append, List.lookup_append]
  rfl

theorem last?_cons (e : String × Value) (back : List (String × Value)) (key : String) :
    last? (e :: back) key = (last? back key).or (if key = e.1 then some e.2 else none) := by
  rw [last?, List.reverse_cons, List.lookup_append, Entries.lookup_cons]
  rfl

theorem isSome_last?_iff (entries : List (String × Value)) (key : String) :
    (last? entries key).isSome ↔ key ∈ entries.map Prod.fst := by
  rw [last?, List.lookup_isSome_iff, List.mem_map]
  constructor
  · rintro ⟨e, he, hkey⟩
    exact ⟨e, List.mem_reverse.mp he, (beq_iff_eq.mp hkey).symm⟩
  · rintro ⟨e, he, rfl⟩
    exact ⟨e, List.mem_reverse.mpr he, beq_self_eq_true e.1⟩

theorem last?_eq_none {entries : List (String × Value)} {key : String}
    (h : key ∉ entries.map Prod.fst) : last? entries key = none := by
  rwa [← Option.not_isSome_iff_eq_none, isSome_last?_iff]

/-- Where keys occur once, each has the value that it is with. -/
theorem last?_eq_some_iff {entries : List (String × Value)} (h : (entries.map Prod.fst).Nodup)
    (key : String) (v : Value) : last? entries key = some v ↔ (key, v) ∈ entries := by
  rw [last?, ← List.mem_reverse]
  have hnodup : (entries.reverse.map Prod.fst).Nodup := by
    rwa [List.map_reverse, List.nodup_reverse]
  constructor
  · intro hlast
    obtain ⟨front, back, hentries, -⟩ := List.lookup_eq_some_iff.mp hlast
    rw [hentries]
    exact List.mem_append_right _ (List.mem_cons_self ..)
  · intro hmem
    obtain ⟨front, back, hentries⟩ := List.append_of_mem hmem
    rw [hentries, List.map_append, List.map_cons, List.nodup_append] at hnodup
    refine List.lookup_eq_some_iff.mpr ⟨front, back, hentries, fun e he => ?_⟩
    rw [bne_iff_ne]
    exact (hnodup.2.2 e.1 (List.mem_map_of_mem he) key (List.mem_cons_self ..)).symm

/-! ### All of a map -/

/-- A record without what is left over. -/
def withoutExtra (r : LogRecord) : LogRecord := r.withExtra .empty

/-- Where the entries of a map go. -/
structure Sorted (entries : List (String × Value)) : Prop where
  /-- Of the values under a key the last one counts, also for what is wrong. -/
  last : ∀ others, (∀ key, last? others key = last? entries key) →
    ofValue (keyed others) = ofValue (keyed entries)
  reordered : (entries.map Prod.fst).Nodup → ∀ others, others.Perm entries →
    ofValue (keyed others) = ofValue (keyed entries)
  repeated : ∀ front back e, entries = front ++ back → e.1 ∈ back.map Prod.fst →
    ofValue (keyed (front ++ e :: back)) = ofValue (keyed entries)
  /-- What has a place of its own is what the field there holds. -/
  typed : ∀ r, ofValue (keyed entries) = .ok r → Typed (given? entries) r
  /-- What has no place of its own is kept as it is, and nothing else is. -/
  extra : ∀ r, ofValue (keyed entries) = .ok r → ∀ key,
    r.extra.get? key = if isReserved key then none else last? entries key
  reserved : ∀ others, (∀ key, isReserved key = true → last? others key = last? entries key) →
    (ofValue (keyed others)).map withoutExtra = (ofValue (keyed entries)).map withoutExtra

section Map
variable {entries others : List (String × Value)}

theorem ofValue_of_last (h : ∀ key, last? others key = last? entries key) :
    ofValue (keyed others) = ofValue (keyed entries) := by
  have hfields : Dictionary.ofList others = Dictionary.ofList entries := by
    apply Dictionary.ext
    intro key
    rw [Dictionary.get?_ofList, Dictionary.get?_ofList]
    exact h key
  rw [ofValue_keyed, ofValue_keyed, hfields]

theorem last?_of_perm (hnodup : (entries.map Prod.fst).Nodup) (h : others.Perm entries)
    (key : String) : last? others key = last? entries key := by
  have hothers : (others.map Prod.fst).Nodup := (h.map Prod.fst).nodup_iff.mpr hnodup
  apply Option.ext
  intro v
  rw [last?_eq_some_iff hothers, last?_eq_some_iff hnodup, h.mem_iff]

/-- An entry says nothing if its key occurs once more behind it. -/
theorem last?_repeated {front back : List (String × Value)} {e : String × Value}
    (h : e.1 ∈ back.map Prod.fst) (key : String) :
    last? (front ++ e :: back) key = last? (front ++ back) key := by
  rw [last?_append, last?_append, last?_cons]
  by_cases hkey : key = e.1
  · rw [← isSome_last?_iff, ← hkey] at h
    rw [Option.or_of_isSome h]
  · rw [if_neg hkey, Option.or_none]

theorem map_withoutExtra (fields : Fields) :
    (ofFields fields).map withoutExtra = (own fields).map withoutExtra := by
  rw [ofFields_eq]
  cases own fields <;> rfl

theorem present?_ofList (entries : List (String × Value)) :
    present? (Dictionary.ofList entries) = given? entries := by
  funext key
  have hlast : (Dictionary.ofList entries).get? key = last? entries key :=
    Dictionary.get?_ofList entries key
  unfold present? given?
  generalize (Dictionary.ofList entries).get? key = found at hlast ⊢
  subst hlast
  rfl

/-- **Each entry of a map has one place in the record.** -/
theorem sorted (entries : List (String × Value)) : Sorted entries := by
  constructor
  case last => exact fun others h => ofValue_of_last h
  case reordered => exact fun hnodup others h => ofValue_of_last (last?_of_perm hnodup h)
  case repeated =>
    rintro front back e rfl h
    exact ofValue_of_last (last?_repeated h)
  case typed =>
    intro r hr
    rw [ofValue_keyed] at hr
    exact present?_ofList entries ▸ (of_ofFields hr).1
  case extra =>
    intro r hr key
    rw [ofValue_keyed] at hr
    rw [get?_extra_of_ofFields hr, Dictionary.get?_ofList]
    rfl
  case reserved =>
    intro others h
    rw [ofValue_keyed, ofValue_keyed, map_withoutExtra, map_withoutExtra]
    refine congrArg (Except.map withoutExtra) (own_of_present? fun key hkey => present?_congr ?_)
    rw [Dictionary.get?_ofList, Dictionary.get?_ofList]
    exact h key hkey

end Map

/-- A message that is not used and a time that is not used are left out. -/
theorem sorted_unused :
    let entries : List (String × Value) :=
      [("levelname", .str "INFO"), ("epoch", .int 1), ("message", .str "b"), ("msg", .str "a"),
        ("time", .str "2025-03-01T12:00:00"), ("created", .int 5), ("epoch", .int 3)]
    ∃ r, ofValue (keyed entries) = .ok r ∧ r.extra.get? "message" = none ∧
      r.extra.get? "created" = none ∧ r.extra.get? "epoch" = some (.int 3) ∧
      Typed (given? entries) r := by
  intro entries
  have hread : (ofValue (keyed entries)).isOk = true := by decide +kernel
  cases hr : ofValue (keyed entries) with
  | error e =>
    rw [hr] at hread
    cases hread
  | ok r =>
    have hextra := (sorted entries).extra r hr
    exact ⟨r, rfl, hextra "message", hextra "created", hextra "epoch", (sorted entries).typed r hr⟩

end LiveTail.LogRecord
