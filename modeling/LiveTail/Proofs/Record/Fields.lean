import LiveTail.Proofs.Dictionary
import LiveTail.Proofs.MessagePack
import LiveTail.Proofs.Time.Reader
import LiveTail.Record.Fields

/-! A record is read back from its bytes.

Under a key the written map has what `extra` has, or else the field of the record
(`get?_toEntries`); only one of the two has the key at all. Each field is then read
from its key, and what is left over is `extra` again. -/
namespace LiveTail.LogRecord
open MessagePack

/-- Numbers are within what the fields for them hold. -/
structure NumbersFit (r : LogRecord) : Prop where
  line : ∀ n, r.diagnostics.line = some n → n ≤ numberLimit
  process : ∀ n, r.diagnostics.processId = some n → n ≤ numberLimit

/-- What comes of reading a record whose text has been written: all of it, if its time is read. -/
def reread (r : LogRecord) : Except SchemaError LogRecord :=
  match Time.Reader.read? r.time.text with
  | some t => .ok { r with time := t }
  | none => .error (.badTime (String.ofList r.time.text))

theorem reread_eq {r : LogRecord} (htime : r.time.Valid) (hyear : r.time.Unsigned) :
    r.reread = .ok r := by
  rw [reread, Time.Reader.read?_text htime hyear]

theorem foldlM_putField (entries : List (String × Value)) (d : Fields) :
    (entries.map fun e => (Value.str e.1, e.2)).foldlM putField d =
      .ok (entries.foldl (fun d e => d.put e.1 e.2) d) := by
  induction entries generalizing d with
  | nil => rfl
  | cons e rest ih => exact ih (d.put e.1 e.2)

theorem fieldsOf_keyed (entries : List (String × Value)) :
    fieldsOf (entries.map fun e => (.str e.1, e.2)) = .ok (Dictionary.ofList entries) :=
  foldlM_putField entries .empty

/-- The bytes of a map under keys are read as its fields. -/
theorem ofBytes_keyed {entries : List (String × Value)}
    (hvalid : (Value.map (entries.map fun e => (.str e.1, e.2))).Valid)
    (hcost : (Value.map (entries.map fun e => (.str e.1, e.2))).cost ≤ Reader.budget) :
    ofBytes (write (.map (entries.map fun e => (.str e.1, e.2)))) =
      ofFields (Dictionary.ofList entries) := by
  have hread := read_write hvalid hcost []
  rw [List.append_nil] at hread
  rw [ofBytes, hread]
  simp only [List.isEmpty_nil, if_true, ofValue, fieldsOf_keyed, bind, Except.bind]

/-! ### What is under a key -/

theorem lookup_textEntry (key k : String) (o : Option String) :
    (textEntry key o).reverse.lookup k = if k = key then o.map Value.str else none := by
  cases o with
  | none => split <;> rfl
  | some text => exact Entries.lookup_cons k key (Value.str text) []

theorem lookup_numberEntry (key k : String) (o : Option Nat) :
    (numberEntry key o).reverse.lookup k =
      if k = key then o.map fun n : Nat => Value.int n else none := by
  cases o with
  | none => split <;> rfl
  | some n => exact Entries.lookup_cons k key (Value.int n) []

/-- A reserved key has no value in `extra`. -/
theorem get?_extra {r : LogRecord} {key : String} (h : isReserved key = true) :
    r.extra.get? key = none := by
  rw [Dictionary.get?, List.lookup_eq_none_iff]
  intro e he
  have hfree := r.extra_free e he
  rw [bne_iff_ne]
  rintro rfl
  rw [h] at hfree
  cases hfree

/-- The field of a record under a reserved key, if it is written. -/
def field? (r : LogRecord) (key : String) : Option Value :=
  match key with
  | "levelname" => some (.str r.level.name)
  | "msg" => some (.str r.message)
  | "time" => some (.str (String.ofList r.time.text))
  | "module" => r.diagnostics.module.map .str
  | "funcName" => r.diagnostics.function.map .str
  | "lineno" => r.diagnostics.line.map fun n : Nat => .int n
  | "pathname" => r.diagnostics.sourcePath.map .str
  | "process" => r.diagnostics.processId.map fun n : Nat => .int n
  | "processName" => r.diagnostics.processName.map .str
  | "threadName" => r.diagnostics.threadName.map .str
  | "taskName" => r.diagnostics.taskName.map .str
  | "name" => r.diagnostics.loggerName.map .str
  | "status" => r.diagnostics.status.map .str
  | _ => none

/-- A key that is free has no field. -/
theorem field?_of_free (r : LogRecord) {key : String} (h : isReserved key = false) :
    r.field? key = none := by
  fun_cases field? r key
  case case14 => rfl
  all_goals exact absurd h (by decide)

theorem get?_toEntries (r : LogRecord) (key : String) :
    (Dictionary.ofList r.toEntries).get? key = (r.extra.get? key).or (r.field? key) := by
  rw [Dictionary.get?_ofList, toEntries, List.reverse_append, List.lookup_append,
    Dictionary.lookup_reverse]
  congr 1
  simp only [List.reverse_append, List.lookup_append, lookup_textEntry, lookup_numberEntry,
    List.reverse_cons, List.reverse_nil, List.nil_append, Entries.lookup_cons, List.lookup_nil]
  fun_cases field? r key
  all_goals simp_all

/-! ### Reading each field -/

theorem present?_of_get? {fields : Fields} {key : String} {o : Option Value}
    (h : fields.get? key = o) (hnil : o ≠ some .nil) : present? fields key = o := by
  rw [present?, h]
  split
  · contradiction
  · rfl

theorem textField_of_get? {fields : Fields} {key : String} {o : Option String}
    (h : fields.get? key = o.map .str) : textField fields key = .ok o := by
  rw [textField, present?_of_get? h (by cases o <;> simp)]
  cases o <;> rfl

theorem numberField_of_get? {fields : Fields} {key : String} {o : Option Nat}
    (h : fields.get? key = o.map fun n : Nat => .int n)
    (hmost : ∀ n, o = some n → n ≤ numberLimit) : numberField fields key = .ok o := by
  rw [numberField, present?_of_get? h (by cases o <;> simp)]
  cases o with
  | none => rfl
  | some n =>
    have hn := hmost n rfl
    have hread : numberOf? (.int n) = some n := by
      rw [numberOf?, if_pos ⟨Int.natCast_nonneg n, by exact_mod_cast hn⟩, Int.toNat_natCast]
    simp only [Option.map_some, hread]

section Written
variable (r : LogRecord)

/-- What a record has under a reserved key once it is written. -/
theorem get?_reserved (key : String) (h : isReserved key = true) :
    (Dictionary.ofList r.toEntries).get? key = r.field? key := by
  rw [get?_toEntries, get?_extra h, Option.none_or]

theorem levelField_toEntries : levelField (Dictionary.ofList r.toEntries) = .ok r.level := by
  have hname : textField (Dictionary.ofList r.toEntries) "levelname" = .ok (some r.level.name) :=
    textField_of_get? (get?_reserved r "levelname" rfl)
  have hlevel : Level.ofName r.level.name = r.level := r.level_normal
  simp only [levelField, hname, bind, Except.bind, pure, Except.pure, hlevel]

theorem messageField_toEntries :
    messageField (Dictionary.ofList r.toEntries) = .ok r.message := by
  have htext : textField (Dictionary.ofList r.toEntries) "msg" = .ok (some r.message) :=
    textField_of_get? (get?_reserved r "msg" rfl)
  simp only [messageField, htext, bind, Except.bind, pure, Except.pure]

theorem timeField_toEntries : timeField (Dictionary.ofList r.toEntries) =
    match Time.Reader.read? r.time.text with
    | some t => .ok t
    | none => .error (.badTime (String.ofList r.time.text)) := by
  have htext : present? (Dictionary.ofList r.toEntries) "time" =
      some (.str (String.ofList r.time.text)) :=
    present?_of_get? (get?_reserved r "time" rfl) (by simp)
  cases hread : Time.Reader.read? r.time.text with
  | none => simp only [timeField, htext, String.toList_ofList, hread]
  | some t => simp only [timeField, htext, String.toList_ofList, hread]

theorem diagnosticsFields_toEntries (hnumbers : r.NumbersFit) :
    diagnosticsFields (Dictionary.ofList r.toEntries) = .ok r.diagnostics := by
  have hmodule := textField_of_get? (get?_reserved r "module" rfl)
  have hfunction := textField_of_get? (get?_reserved r "funcName" rfl)
  have hline := numberField_of_get? (get?_reserved r "lineno" rfl) hnumbers.line
  have hpath := textField_of_get? (get?_reserved r "pathname" rfl)
  have hprocess := numberField_of_get? (get?_reserved r "process" rfl) hnumbers.process
  have hprocessName := textField_of_get? (get?_reserved r "processName" rfl)
  have hthread := textField_of_get? (get?_reserved r "threadName" rfl)
  have htask := textField_of_get? (get?_reserved r "taskName" rfl)
  have hlogger := textField_of_get? (get?_reserved r "name" rfl)
  have hstatus := textField_of_get? (get?_reserved r "status" rfl)
  simp only [diagnosticsFields, hmodule, hfunction, hline, hpath, hprocess, hprocessName, hthread,
    htask, hlogger, hstatus, bind, Except.bind, pure, Except.pure]

/-- What is left over is what the record had beside its fields. -/
theorem filter_toEntries :
    (Dictionary.ofList r.toEntries).filter (fun key => !isReserved key) = r.extra := by
  apply Dictionary.ext
  intro key
  rw [Dictionary.get?_filter, get?_toEntries]
  by_cases h : isReserved key = true
  · simp only [h, Bool.not_true, Bool.false_eq_true, if_false, get?_extra h]
  · have hfree : isReserved key = false := Bool.eq_false_iff.mpr h
    simp only [hfree, Bool.not_false, if_true, r.field?_of_free hfree, Option.or_none]

theorem ofFields_toEntries (hnumbers : r.NumbersFit) :
    ofFields (Dictionary.ofList r.toEntries) = r.reread := by
  have hextra := filter_toEntries r
  simp only [ofFields, levelField_toEntries, messageField_toEntries, timeField_toEntries,
    diagnosticsFields_toEntries r hnumbers, reread]
  cases Time.Reader.read? r.time.text with
  | none => rfl
  | some t =>
    simp only [bind, Except.bind, pure, Except.pure]
    congr 1
    obtain ⟨level, message, time, diagnostics, extra, hlevel, hfree⟩ := r
    simp only [withExtra, withDiagnostics, new, hlevel, hextra]

end Written

/-! ### All of a record -/

/-- The texts among the diagnostics, under their keys. -/
def texts (r : LogRecord) : List (String × Option String) :=
  [("module", r.diagnostics.module), ("funcName", r.diagnostics.function),
    ("pathname", r.diagnostics.sourcePath), ("processName", r.diagnostics.processName),
    ("threadName", r.diagnostics.threadName), ("taskName", r.diagnostics.taskName),
    ("name", r.diagnostics.loggerName), ("status", r.diagnostics.status)]

/-- The numbers among the diagnostics, under their keys. -/
def numbers (r : LogRecord) : List (String × Option Nat) :=
  [("lineno", r.diagnostics.line), ("process", r.diagnostics.processId)]

theorem toEntries_eq (r : LogRecord) : r.toEntries =
    [("levelname", .str r.level.name), ("msg", .str r.message),
      ("time", .str (String.ofList r.time.text))] ++
    (r.texts.flatMap fun p => textEntry p.1 p.2) ++
    (r.numbers.flatMap fun p => numberEntry p.1 p.2) ++ r.extra.entries := by
  simp only [toEntries, texts, numbers, List.flatMap_cons, List.flatMap_nil, List.append_assoc,
    List.append_nil]

/-- An entry is one of the three that are always there, or a text or a number among the
diagnostics, or extra. -/
theorem mem_toEntries {r : LogRecord} {e : String × Value} (he : e ∈ r.toEntries) :
    (e = ("levelname", .str r.level.name) ∨ e = ("msg", .str r.message) ∨
      e = ("time", .str (String.ofList r.time.text))) ∨
    (∃ p ∈ r.texts, e ∈ textEntry p.1 p.2) ∨ (∃ p ∈ r.numbers, e ∈ numberEntry p.1 p.2) ∨
      e ∈ r.extra.entries := by
  rw [toEntries_eq, List.mem_append, List.mem_append, List.mem_append, List.mem_flatMap,
    List.mem_flatMap] at he
  simpa only [List.mem_cons, List.not_mem_nil, or_false, or_assoc] using he

theorem costEntries_le_of {entries : List (Value × Value)} {most : Nat}
    (h : ∀ e ∈ entries, e.1.cost ≤ most ∧ e.2.cost ≤ most) : Value.costEntries entries ≤ most := by
  induction entries with
  | nil => exact Nat.zero_le _
  | cons e rest ih =>
    have he := h e (List.mem_cons_self ..)
    have hrest := ih fun x hx => h x (List.mem_cons_of_mem e hx)
    simp only [Value.costEntries]
    omega

theorem cost_textEntry {key : String} {o : Option String} {e : String × Value}
    (h : e ∈ textEntry key o) : e.2.cost ≤ 3 := by
  cases o with
  | none => cases h
  | some text =>
    rw [List.mem_singleton.mp h]
    exact Nat.le_refl 3

theorem cost_numberEntry {key : String} {o : Option Nat} {e : String × Value}
    (h : e ∈ numberEntry key o) : e.2.cost ≤ 3 := by
  cases o with
  | none => cases h
  | some n =>
    rw [List.mem_singleton.mp h]
    exact (by decide : 1 ≤ 3)

theorem cost_toEntries {r : LogRecord} (h : ∀ e ∈ r.extra.entries, e.2.depth ≤ 500)
    {e : String × Value} (he : e ∈ r.toEntries) : e.2.cost ≤ 1003 := by
  rcases mem_toEntries he with hfixed | ⟨p, -, htext⟩ | ⟨p, -, hnumber⟩ | hextra
  · rcases hfixed with rfl | rfl | rfl <;> exact (by decide : 3 ≤ 1003)
  · exact Nat.le_trans (cost_textEntry htext) (by decide)
  · exact Nat.le_trans (cost_numberEntry hnumber) (by decide)
  · have hcost := e.2.cost_le
    have hdepth := h e hextra
    omega

/-- The map of a record is read within the nesting allowed. -/
theorem cost_toValue {r : LogRecord} (h : ∀ e ∈ r.extra.entries, e.2.depth ≤ 500) :
    r.toValue.cost ≤ Reader.budget := by
  have hentries : Value.costEntries (r.toEntries.map fun e => (.str e.1, e.2)) ≤ 1003 := by
    refine costEntries_le_of fun e he => ?_
    obtain ⟨entry, hentry, rfl⟩ := List.mem_map.mp he
    exact ⟨(by decide : 3 ≤ 1003), cost_toEntries h hentry⟩
  rw [toValue, Value.cost, Reader.budget]
  omega

/-- What comes of the bytes of a record, if its map is read. -/
theorem ofBytes_reread {r : LogRecord} (hvalid : r.toValue.Valid)
    (hcost : r.toValue.cost ≤ Reader.budget) (hnumbers : r.NumbersFit) :
    ofBytes r.toBytes = r.reread := by
  rw [toBytes, toValue, ofBytes_keyed hvalid hcost]
  exact ofFields_toEntries r hnumbers

end LiveTail.LogRecord
