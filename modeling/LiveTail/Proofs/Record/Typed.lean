import LiveTail.Proofs.Reading
import LiveTail.Proofs.Record.Fields

/-! Where the fields of a record come from.

Each field is read from the value under a key of its own, the message and the time from one of
two (`Typed`). What is under no reserved key is left over as it is. -/
namespace LiveTail.LogRecord
open MessagePack

theorem textField_eq_ok_iff {fields : Fields} {key : String} {o : Option String} :
    textField fields key = .ok o ↔ present? fields key = o.map .str := by
  rw [textField]
  cases present? fields key with
  | none => cases o <;> simp
  | some v => cases v <;> cases o <;> simp

theorem numberField_eq_ok_iff {fields : Fields} {key : String} {o : Option Nat} :
    numberField fields key = .ok o ↔ (present? fields key).map numberOf? = o.map some := by
  rw [numberField]
  cases present? fields key with
  | none => cases o <;> simp
  | some v => cases hv : numberOf? v <;> cases o <;> simp [hv]

/-- What the fields of a record hold, by what there is under each key. -/
structure Typed (given? : String → Option Value) (r : LogRecord) : Prop where
  level : ∃ name, given? "levelname" = some (.str name) ∧ r.level = Level.ofName name
  message : given? "msg" = some (.str r.message) ∨
    given? "msg" = none ∧ given? "message" = some (.str r.message)
  time : (∃ text, given? "time" = some (.str text) ∧
      Time.Reader.read? text.toList = some r.time) ∨
    given? "time" = none ∧ ∃ v bits, given? "created" = some v ∧
      secondsOf "created" v = .ok bits ∧ Time.Instant.ofFloat? bits = some r.time
  texts : ∀ p ∈ r.texts, given? p.1 = p.2.map .str
  numbers : ∀ p ∈ r.numbers, (given? p.1).map numberOf? = p.2.map some

section Steps
variable {fields : Fields}

theorem of_levelField {level : Level} (h : levelField fields = .ok level) :
    ∃ name, present? fields "levelname" = some (.str name) ∧ level = Level.ofName name := by
  obtain ⟨name, hname, h⟩ := of_bind h
  cases name with
  | none => cases h
  | some name => exact ⟨name, textField_eq_ok_iff.mp hname, (Except.ok.inj h).symm⟩

theorem of_messageField {message : String} (h : messageField fields = .ok message) :
    present? fields "msg" = some (.str message) ∨
      present? fields "msg" = none ∧ present? fields "message" = some (.str message) := by
  obtain ⟨text, htext, h⟩ := of_bind h
  cases text with
  | some text =>
    obtain rfl := Except.ok.inj h
    exact .inl (textField_eq_ok_iff.mp htext)
  | none =>
    obtain ⟨other, hother, h⟩ := of_bind h
    cases other with
    | some text =>
      obtain rfl := Except.ok.inj h
      exact .inr ⟨textField_eq_ok_iff.mp htext, textField_eq_ok_iff.mp hother⟩
    | none => cases h

theorem of_timeField {time : Time.Instant} (h : timeField fields = .ok time) :
    (∃ text, present? fields "time" = some (.str text) ∧
        Time.Reader.read? text.toList = some time) ∨
      present? fields "time" = none ∧ ∃ v bits, present? fields "created" = some v ∧
        secondsOf "created" v = .ok bits ∧ Time.Instant.ofFloat? bits = some time := by
  unfold timeField at h
  split at h
  next text hpresent =>
    split at h
    next t ht =>
      obtain rfl := Except.ok.inj h
      exact .inl ⟨text, hpresent, ht⟩
    next => cases h
  next => cases h
  next => cases h
  next hnone =>
    split at h
    next => cases h
    next v hpresent =>
      obtain ⟨bits, hbits, h⟩ := of_bind h
      unfold instantOf at h
      split at h
      next t ht =>
        obtain rfl := Except.ok.inj h
        exact .inr ⟨hnone, v, bits, hpresent, hbits, ht⟩
      next => cases h

/-- A record that is read holds what it was given, and the rest of it beside that. -/
theorem of_ofFields {r : LogRecord} (h : ofFields fields = .ok r) :
    Typed (present? fields) r ∧ r.extra = fields.filter fun key => !isReserved key := by
  obtain ⟨level, hlevel, h⟩ := of_bind h
  obtain ⟨message, hmessage, h⟩ := of_bind h
  obtain ⟨time, htime, h⟩ := of_bind h
  obtain ⟨diagnostics, hdiagnostics, h⟩ := of_bind h
  obtain ⟨module, hmodule, hdiagnostics⟩ := of_bind hdiagnostics
  obtain ⟨function, hfunction, hdiagnostics⟩ := of_bind hdiagnostics
  obtain ⟨line, hline, hdiagnostics⟩ := of_bind hdiagnostics
  obtain ⟨path, hpath, hdiagnostics⟩ := of_bind hdiagnostics
  obtain ⟨process, hprocess, hdiagnostics⟩ := of_bind hdiagnostics
  obtain ⟨processName, hprocessName, hdiagnostics⟩ := of_bind hdiagnostics
  obtain ⟨thread, hthread, hdiagnostics⟩ := of_bind hdiagnostics
  obtain ⟨task, htask, hdiagnostics⟩ := of_bind hdiagnostics
  obtain ⟨logger, hlogger, hdiagnostics⟩ := of_bind hdiagnostics
  obtain ⟨status, hstatus, hdiagnostics⟩ := of_bind hdiagnostics
  obtain rfl := Except.ok.inj hdiagnostics
  obtain rfl := Except.ok.inj h
  refine ⟨?_, rfl⟩
  constructor
  case level =>
    obtain ⟨name, hname, rfl⟩ := of_levelField hlevel
    exact ⟨name, hname, Level.normal_ofName name⟩
  case message => exact of_messageField hmessage
  case time => exact of_timeField htime
  case texts =>
    simp only [texts, List.forall_mem_cons, ← textField_eq_ok_iff]
    exact ⟨hmodule, hfunction, hpath, hprocessName, hthread, htask, hlogger, hstatus,
      List.forall_mem_nil _⟩
  case numbers =>
    simp only [numbers, List.forall_mem_cons, ← numberField_eq_ok_iff]
    exact ⟨hline, hprocess, List.forall_mem_nil _⟩

end Steps

end LiveTail.LogRecord
