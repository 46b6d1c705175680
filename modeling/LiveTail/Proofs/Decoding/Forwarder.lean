import LiveTail.Decoding.Forwarder

/-! A forwarder keeps the order of arrival.

What a forwarder has still to send (`outstanding`) are the results of its jobs and then
those of the messages it has not taken. While someone listens, being woken moves
results from the front of this list to what was sent, and decoding that finishes does
not change it (`wake_sends`, `outstanding_finish`). A forwarder that is not cancelled
sends all of it when it is woken often enough, since each round of a finished job and a
waking leaves less to do (`work_round`). -/
namespace LiveTail.Decoding
namespace Queue

/-- The frames whose results were not handed out, oldest first. -/
def submitted (q : Queue) : List Submission := q.jobs.map (·.submission)

theorem results_eq (q : Queue) : q.results = q.submitted.map Submission.decode := by
  simp [results, submitted]

theorem pending_eq (q : Queue) : q.pending = q.submitted.length := by
  simp [pending, submitted]

@[simp] theorem submitted_submit (q : Queue) (s : Submission) :
    (q.submit s).submitted = q.submitted ++ [s] := by
  simp [submit, submitted]

@[simp] theorem submitted_finish (q : Queue) (place : Nat) :
    (q.finish place).submitted = q.submitted := by
  simp only [finish, submitted]
  apply List.ext_getElem
  · simp
  · intro i _ _
    simp only [List.getElem_map, List.getElem_modify]
    split <;> rfl

/-- What is handed out is the result of the oldest frame. -/
theorem submitted_of_next? {q rest : Queue} {d : Decoded} (h : q.next? = some (d, rest)) :
    ∃ s, d = s.decode ∧ q.submitted = s :: rest.submitted := by
  unfold next? at h
  split at h
  next job jobs hjobs =>
    simp only [Option.ite_none_right_eq_some, Option.some.injEq, Prod.mk.injEq] at h
    obtain ⟨-, rfl, rfl⟩ := h
    exact ⟨job.submission, rfl, by simp [submitted, hjobs]⟩
  next => cases h

@[simp] theorem results_submit (q : Queue) (s : Submission) :
    (q.submit s).results = q.results ++ [s.decode] := by
  simp [results_eq]

@[simp] theorem results_finish (q : Queue) (place : Nat) :
    (q.finish place).results = q.results := by
  simp [results_eq]

@[simp] theorem pending_finish (q : Queue) (place : Nat) :
    (q.finish place).pending = q.pending := by
  simp [pending_eq]

/-- What is handed out is the first result. -/
theorem results_of_next? {q rest : Queue} {d : Decoded} (h : q.next? = some (d, rest)) :
    q.results = d :: rest.results := by
  obtain ⟨s, rfl, hsubmitted⟩ := submitted_of_next? h
  simp [results_eq, hsubmitted]

/-- Waiting for the oldest job gives its result. -/
theorem next?_finish {q : Queue} (h : 0 < q.pending) :
    ∃ d rest, (q.finish 0).next? = some (d, rest) ∧ rest.pending + 1 = q.pending := by
  obtain ⟨_ | ⟨job, jobs⟩⟩ := q
  · cases h
  · exact ⟨job.submission.decode, ⟨jobs⟩, by simp [finish, next?], rfl⟩

end Queue

namespace Forwarder

/-- What is still to be sent. -/
def outstanding (f : Forwarder) : List Decoded :=
  f.queue.results ++ f.arrived.map Frame.decodeMessage

/-- No one stopped it or stopped listening, and it ends only with nothing left. -/
structure Faithful (f : Forwarder) : Prop where
  cancelled : f.cancelled = false
  deaf : f.deaf = false
  draining : f.phase ≠ .running → f.closed = true ∧ f.arrived = []
  ended : f.phase = .ended → f.queue.pending = 0

theorem faithful_new : Faithful {} := by
  constructor <;> simp

/-! ### What happens around it -/

theorem arrive_eq {f : Forwarder} (hclosed : f.closed = false) (m : Message) :
    f.step (.arrive m) = { f with arrived := f.arrived ++ [m] } := by
  simp [step, hclosed]

theorem faithful_arrive {f : Forwarder} (h : Faithful f) (m : Message) :
    Faithful (f.step (.arrive m)) := by
  simp only [step]
  split
  · exact h
  next hopen =>
    refine ⟨h.cancelled, h.deaf, fun hphase => ?_, h.ended⟩
    exact absurd (h.draining hphase).1 hopen

theorem outstanding_arrive {f : Forwarder} (hclosed : f.closed = false) (m : Message) :
    (f.step (.arrive m)).outstanding = f.outstanding ++ [Frame.decodeMessage m] := by
  simp [arrive_eq hclosed, outstanding]

theorem faithful_close {f : Forwarder} (h : Faithful f) : Faithful (f.step .close) :=
  ⟨h.cancelled, h.deaf, fun hphase => ⟨rfl, (h.draining hphase).2⟩, h.ended⟩

theorem faithful_finish {f : Forwarder} (h : Faithful f) (place : Nat) :
    Faithful (f.step (.finish place)) :=
  ⟨h.cancelled, h.deaf, h.draining, fun hphase => by
    rw [step, Queue.pending_finish]
    exact h.ended hphase⟩

theorem outstanding_finish (f : Forwarder) (place : Nat) :
    (f.step (.finish place)).outstanding = f.outstanding := by
  simp [step, outstanding]

/-! ### Being woken -/

/-- What one waking does while it is neither cancelled nor unheard. -/
inductive Woken (f : Forwarder) : Prop
  /-- The oldest result is sent. -/
  | sends (d : Decoded) (queue : Queue) (hnext : f.queue.next? = some (d, queue))
      (hphase : f.phase ≠ .ended) (hwake : f.wake = { f with sent := f.sent ++ [d], queue })
  /-- The oldest message is taken. -/
  | takes (m : Message) (rest : List Message) (hnext : f.queue.next? = none)
      (harrived : f.arrived = m :: rest) (hphase : f.phase = .running)
      (hwake : f.wake = { f with arrived := rest, queue := f.queue.submit (.message m) })
  /-- Nothing more arrives, and there was nothing left to take. -/
  | closes (hnext : f.queue.next? = none) (harrived : f.arrived = []) (hclosed : f.closed = true)
      (hphase : f.phase = .running) (hwake : f.wake = { f with phase := .draining })
  | ends (hpending : f.queue.pending = 0) (hphase : f.phase = .draining)
      (hwake : f.wake = { f with phase := .ended })
  /-- There is nothing to do, or the oldest job has not finished. -/
  | waits (hnext : f.phase = .ended ∨ f.queue.next? = none)
      (harrived : f.phase = .running → f.arrived = []) (hwake : f.wake = f)

theorem woken {f : Forwarder} (h : Faithful f) : Woken f := by
  have hsend : ∀ d queue, f.send d queue = { f with sent := f.sent ++ [d], queue } := by
    intro d queue
    rw [send, h.deaf]
    rfl
  cases hphase : f.phase with
  | ended => exact .waits (.inl hphase) (by simp [hphase]) (by rw [wake, hphase])
  | running =>
    cases hnext : f.queue.next? with
    | some answer =>
      obtain ⟨d, queue⟩ := answer
      refine .sends d queue hnext (by simp [hphase]) ?_
      simp [wake, hphase, h.cancelled, hnext, hsend]
    | none =>
      have hwake : f.wake = f.take := by simp [wake, hphase, h.cancelled, hnext]
      cases harrived : f.arrived with
      | cons m rest =>
        refine .takes m rest hnext harrived hphase ?_
        rw [hwake, take, harrived]
      | nil =>
        by_cases hclosed : f.closed = true
        · refine .closes hnext harrived hclosed hphase ?_
          simp [hwake, take, harrived, hclosed]
        · refine .waits (.inr hnext) (fun _ => harrived) ?_
          simp [hwake, take, harrived, hclosed]
  | draining =>
    cases hnext : f.queue.next? with
    | some answer =>
      obtain ⟨d, queue⟩ := answer
      refine .sends d queue hnext (by simp [hphase]) ?_
      simp [wake, hphase, hnext, hsend]
    | none =>
      by_cases hpending : f.queue.pending = 0
      · exact .ends hpending hphase (by simp [wake, hphase, hnext, hpending])
      · exact .waits (.inr hnext) (by simp [hphase]) (by simp [wake, hphase, hnext, hpending])

theorem faithful_wake {f : Forwarder} (h : Faithful f) : Faithful f.wake := by
  cases woken h with
  | sends d queue _ hphase hwake =>
    rw [hwake]
    exact ⟨h.cancelled, h.deaf, h.draining, fun hended => absurd hended hphase⟩
  | takes m rest _ _ hphase hwake =>
    rw [hwake]
    exact ⟨h.cancelled, h.deaf, fun hother => absurd hphase hother, by simp [hphase]⟩
  | closes _ harrived hclosed _ hwake =>
    rw [hwake]
    exact ⟨h.cancelled, h.deaf, fun _ => ⟨hclosed, harrived⟩, by simp⟩
  | ends hpending hphase hwake =>
    rw [hwake]
    exact ⟨h.cancelled, h.deaf, fun _ => h.draining (by simp [hphase]), fun _ => hpending⟩
  | waits _ _ hwake => rwa [hwake]

/-- Whoever wakes it finds what was outstanding sent or still outstanding, in order. -/
theorem wake_sends {f : Forwarder} (h : Faithful f) :
    ∃ out, f.wake.sent = f.sent ++ out ∧ out ++ f.wake.outstanding = f.outstanding := by
  cases woken h with
  | sends d queue hnext _ hwake =>
    refine ⟨[d], by rw [hwake], ?_⟩
    simp [hwake, outstanding, Queue.results_of_next? hnext]
  | takes m rest _ harrived _ hwake =>
    refine ⟨[], by simp [hwake], ?_⟩
    simp [hwake, outstanding, harrived, Submission.decode]
  | closes _ _ _ _ hwake => exact ⟨[], by simp [hwake], by simp [hwake, outstanding]⟩
  | ends _ _ hwake => exact ⟨[], by simp [hwake], by simp [hwake, outstanding]⟩
  | waits _ _ hwake => exact ⟨[], by simp [hwake], by simp [hwake]⟩

/-! ### Being woken often enough -/

/-- The rounds of a job and a waking that it takes to send everything. -/
def work (f : Forwarder) : Nat := 2 * f.arrived.length + f.queue.pending

theorem outstanding_of_work {f : Forwarder} (h : f.work = 0) : f.outstanding = [] := by
  have hjobs : f.queue.jobs = [] :=
    List.eq_nil_of_length_eq_zero (Nat.eq_zero_of_add_eq_zero_left h)
  have harrived : f.arrived = [] := List.eq_nil_of_length_eq_zero (by unfold work at h; omega)
  rw [outstanding, Queue.results, hjobs, harrived]
  rfl

/-- The oldest job finishes, and the forwarder is woken. -/
def round (f : Forwarder) : Forwarder := (f.step (.finish 0)).step .wake

theorem work_round {f : Forwarder} (h : Faithful f) : f.round.work = f.work - 1 := by
  have hfinished := faithful_finish h 0
  have hpending : (f.step (.finish 0)).queue.pending = f.queue.pending := Queue.pending_finish ..
  have hwork : (f.step (.finish 0)).work = f.work := by simp [work, step]
  -- After its oldest job has finished, only an empty queue has nothing to hand out.
  have hready : (f.step (.finish 0)).queue.next? = none →
      (f.step (.finish 0)).queue.pending = 0 := by
    intro hnone
    rcases Nat.eq_zero_or_pos f.queue.pending with hzero | hpos
    · rw [hpending, hzero]
    · obtain ⟨d, rest, hnext, -⟩ := Queue.next?_finish hpos
      rw [step, hnext] at hnone
      cases hnone
  show (f.step (.finish 0)).wake.work = _
  rw [← hwork]
  generalize f.step (.finish 0) = g at *
  cases woken hfinished with
  | sends d queue hnext _ hwake =>
    have hlength := congrArg List.length (Queue.results_of_next? hnext)
    simp only [Queue.results, List.length_map, List.length_cons] at hlength
    simp only [hwake, work, Queue.pending]
    omega
  | takes m rest hnext harrived _ hwake =>
    have hone : (g.queue.submit (.message m)).pending = g.queue.pending + 1 := by
      simp [Queue.submit, Queue.pending]
    simp only [hwake, work, hone, hready hnext, harrived, List.length_cons]
    omega
  | closes hnext harrived _ _ hwake => simp [hwake, work, harrived, hready hnext]
  | ends hnone hphase hwake =>
    have harrived := (hfinished.draining (by simp [hphase])).2
    simp [hwake, work, harrived, hnone]
  | waits hnext harrived hwake =>
    have hempty : g.arrived = [] := by
      by_cases hphase : g.phase = .running
      · exact harrived hphase
      · exact (hfinished.draining hphase).2
    have hnone : g.queue.pending = 0 := by
      rcases hnext with hended | hnext
      · exact hfinished.ended hended
      · exact hready hnext
    simp [hwake, work, hempty, hnone]

theorem faithful_round {f : Forwarder} (h : Faithful f) : Faithful f.round :=
  faithful_wake (faithful_finish h 0)

end Forwarder
end LiveTail.Decoding
