import LiveTail.Proofs.Accounts

/-! Failures may overtake records.

A failure touches no record and no row, and is only counted. So two lists of outcomes
with the same records in the same order, and the same failures in any order, lead to
the same backlog, the same viewport and the same counts (`sameBooks_ingestAll`). Only
what the observer hears can be told apart. -/
namespace LiveTail
open Rows

/-- The same records in the same order, and the same failures in some order. -/
structure Alike (ds es : List Decoded) : Prop where
  records : records ds = records es
  failures : (failures ds).Perm (failures es)

@[simp] theorem records_append (ds es : List Decoded) :
    records (ds ++ es) = records ds ++ records es := List.filterMap_append

@[simp] theorem failures_append (ds es : List Decoded) :
    failures (ds ++ es) = failures ds ++ failures es := List.filterMap_append

namespace Alike

theorem refl (ds : List Decoded) : Alike ds ds := ⟨rfl, .refl _⟩

theorem trans {ds es fs : List Decoded} (h : Alike ds es) (h' : Alike es fs) : Alike ds fs :=
  ⟨h.records.trans h'.records, h.failures.trans h'.failures⟩

theorem append {ds es fs gs : List Decoded} (h : Alike ds es) (h' : Alike fs gs) :
    Alike (ds ++ fs) (es ++ gs) := by
  constructor
  · rw [records_append, records_append, h.records, h'.records]
  · rw [failures_append, failures_append]
    exact h.failures.append h'.failures

/-- A failure overtakes any outcomes. -/
theorem overtake (e : DecodeError) (ds : List Decoded) :
    Alike (.error e :: ds) (ds ++ [.error e]) := by
  constructor
  · rw [records_append]
    exact (List.append_nil _).symm
  · rw [failures_append]
    show ([e] ++ LiveTail.failures ds).Perm (LiveTail.failures ds ++ [e])
    exact List.perm_append_comm

end Alike

namespace Tail
variable {ε : Type}

/-- Two tails that hold the same and have counted the same. -/
structure SameBooks (t u : Tail ε) : Prop where
  backlog : t.backlog = u.backlog
  viewport : t.viewport = u.viewport
  counts : t.counts = u.counts

/-- The records and rows are the same, whatever failed. -/
structure SameRecords (t u : Tail ε) : Prop where
  backlog : t.backlog = u.backlog
  viewport : t.viewport = u.viewport
  appended : t.counts.appended = u.counts.appended
  evicted : t.counts.evicted = u.counts.evicted

theorem sameRecords_append {t u : Tail ε} (h : SameRecords t u) (r : LogRecord) :
    SameRecords (t.append r).2 (u.append r).2 := by
  obtain ⟨hbacklog, hviewport, happended, hevicted⟩ := h
  constructor <;> simp only [append, hbacklog, hviewport, happended, hevicted]

theorem sameRecords_drop {t u : Tail ε} (h : SameRecords t u) (e : DecodeError) :
    SameRecords (t.drop e) u := by
  have hisolated := isolated_drop t e
  exact ⟨h.backlog, h.viewport, hisolated.appended.trans h.appended,
    hisolated.evicted.trans h.evicted⟩

/-- Outcomes do to the records what their records alone do. -/
theorem sameRecords_records {t u : Tail ε} (h : SameRecords t u) (ds : List Decoded) :
    SameRecords (t.ingestAll ds) (u.ingestAll ((records ds).map .ok)) := by
  induction ds generalizing t u with
  | nil => exact h
  | cons d rest ih =>
    cases d with
    | ok r => exact ih (sameRecords_append h r)
    | error e => exact ih (sameRecords_drop h e)

theorem failed_ingestAll (t : Tail ε) (ds : List Decoded) (stage : Stage) :
    (t.ingestAll ds).counts.failed stage =
      t.counts.failed stage + (failures ds).countP (·.stage = stage) := by
  induction ds generalizing t with
  | nil => rfl
  | cons d rest ih =>
    have hone : (t.ingest d).2.counts.failed stage =
        t.counts.failed stage + (failures [d]).countP (·.stage = stage) := by
      cases d with
      | ok r => cases stage <;> rfl
      | error e => exact (books_drop t e).failed stage
    have hboth : failures (d :: rest) = failures [d] ++ failures rest := failures_append [d] rest
    rw [ingestAll, ih, hone, hboth, List.countP_append, Nat.add_assoc]

theorem sameBooks_ingestAll (t : Tail ε) {ds es : List Decoded} (h : Alike ds es) :
    SameBooks (t.ingestAll ds) (t.ingestAll es) := by
  have hrefl : SameRecords t t := ⟨rfl, rfl, rfl, rfl⟩
  have hds := sameRecords_records hrefl ds
  have hes := sameRecords_records hrefl es
  rw [h.records] at hds
  have hfailed : ∀ stage, (t.ingestAll ds).counts.failed stage =
      (t.ingestAll es).counts.failed stage := by
    intro stage
    rw [failed_ingestAll, failed_ingestAll, h.failures.countP_eq]
  refine ⟨hds.backlog.trans hes.backlog.symm, hds.viewport.trans hes.viewport.symm, ?_⟩
  exact Counts.ext (hds.appended.trans hes.appended.symm) (hds.evicted.trans hes.evicted.symm)
    hfailed

end Tail
end LiveTail
