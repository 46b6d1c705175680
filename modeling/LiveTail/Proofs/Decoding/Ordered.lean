import LiveTail.Proofs.Decoding.Forwarder

/-! Results come in the order of submission.

A forwarder may be cancelled, its channel closed and its results refused at any moment. Until
it is cut off, what it has sent and what is `outstanding` are the results of all that was
received, in order; so what it has sent is at any time the front of them (`ordered_run`), and
all of them when it ends by itself (`inOrder_run`). Flushing a queue into a tail takes the
results one after the other, however late they are, and so is the same as taking each frame at
once (`applied_run`). -/
namespace LiveTail.Decoding

/-! ### Forwarding -/

namespace Forwarder

/-- The messages that arrive, in order, until the channel is closed. -/
def received (closed : Bool) : List Event → List Message
  | [] => []
  | .arrive m :: rest => if closed then received closed rest else m :: received closed rest
  | .close :: rest => received true rest
  | _ :: rest => received closed rest

/-- No event tells a forwarder to stop, or takes its receiver away. -/
def Undisturbed (events : List Event) : Prop := ∀ e ∈ events, e ≠ .cancel ∧ e ≠ .hangUp

/-- It ended because it was cancelled, or because no one listened. -/
def CutOff (f : Forwarder) : Prop := f.phase = .ended ∧ (f.cancelled = true ∨ f.deaf = true)

/-- What a forwarder has sent is the front of some results, and the rest is outstanding
unless it was cut off. -/
structure Ordered (results : List Decoded) (f : Forwarder) : Prop where
  front : f.sent <+: results
  outstanding : ¬ f.CutOff → f.sent ++ f.outstanding = results

theorem ordered_new : Ordered [] {} := ⟨List.prefix_rfl, fun _ => rfl⟩

/-- What leaves the results alone, and does not undo an end. -/
theorem Ordered.of_same {results : List Decoded} {f g : Forwarder} (h : Ordered results f)
    (hcut : f.CutOff → g.CutOff) (hsent : g.sent = f.sent)
    (houtstanding : g.outstanding = f.outstanding) : Ordered results g := by
  constructor
  · rw [hsent]
    exact h.front
  · intro hlive
    rw [hsent, houtstanding]
    exact h.outstanding (mt hcut hlive)

theorem ordered_arrive {results : List Decoded} {f : Forwarder} (h : Ordered results f)
    (hopen : f.closed = false) (m : Message) :
    Ordered (results ++ [Frame.decodeMessage m]) (f.step (.arrive m)) := by
  have hstep := arrive_eq hopen m
  constructor
  · rw [hstep]
    exact h.front.trans (List.prefix_append ..)
  · intro hlive
    rw [hstep] at hlive
    rw [outstanding_arrive hopen, ← h.outstanding hlive, List.append_assoc, hstep]

/-- A result that is handed out is sent, or is the last thing a forwarder sees. -/
theorem ordered_send {results : List Decoded} {f : Forwarder} (h : Ordered results f)
    (hphase : f.phase ≠ .ended) {d : Decoded} {queue : Queue}
    (hnext : f.queue.next? = some (d, queue)) : Ordered results (f.send d queue) := by
  have houtstanding := h.outstanding fun hcut => hphase hcut.1
  rw [outstanding, Queue.results_of_next? hnext] at houtstanding
  unfold send
  split
  next hdeaf => exact ⟨h.front, fun hlive => absurd ⟨rfl, .inr hdeaf⟩ hlive⟩
  · have hsame : f.sent ++ [d] ++ (queue.results ++ f.arrived.map Frame.decodeMessage) =
        results := by
      rw [← houtstanding]
      simp
    refine ⟨?_, fun _ => hsame⟩
    rw [← hsame]
    exact List.prefix_append ..

theorem ordered_take {results : List Decoded} {f : Forwarder} (h : Ordered results f)
    (hphase : f.phase ≠ .ended) : Ordered results f.take := by
  have houtstanding := h.outstanding fun hcut => hphase hcut.1
  unfold take
  split
  next m rest harrived =>
    refine h.of_same id rfl ?_
    simp [Forwarder.outstanding, harrived, Submission.decode]
  next =>
    split
    · exact ⟨h.front, fun _ => houtstanding⟩
    · exact h

theorem ordered_wake {results : List Decoded} {f : Forwarder} (h : Ordered results f) :
    Ordered results f.wake := by
  unfold wake
  split
  next => exact h
  next hphase =>
    have hrunning : f.phase ≠ .ended := by simp [hphase]
    split
    next hcancelled => exact ⟨h.front, fun hlive => absurd ⟨rfl, .inl hcancelled⟩ hlive⟩
    · split
      next d queue hnext => exact ordered_send h hrunning hnext
      next => exact ordered_take h hrunning
  next hphase =>
    have hdraining : f.phase ≠ .ended := by simp [hphase]
    split
    next d queue hnext => exact ordered_send h hdraining hnext
    next =>
      split
      · exact ⟨h.front, fun _ => h.outstanding fun hcut => hdraining hcut.1⟩
      · exact h

@[simp] theorem closed_wake (f : Forwarder) : f.wake.closed = f.closed := by
  unfold wake send take
  repeat' split
  all_goals rfl

theorem ordered_run {results : List Decoded} {f : Forwarder} (h : Ordered results f)
    (events : List Event) :
    Ordered (results ++ (received f.closed events).map Frame.decodeMessage) (f.run events) := by
  induction events generalizing results f with
  | nil => simpa [received, run] using h
  | cons e rest ih =>
    cases e with
    | arrive m =>
      cases hclosed : f.closed with
      | true =>
        have hstep : f.step (.arrive m) = f := by simp [step, hclosed]
        rw [run, hstep, received, if_pos rfl, ← hclosed]
        exact ih h
      | false =>
        have hlater := ih (ordered_arrive h hclosed m)
        have hsame : (f.step (.arrive m)).closed = false := by rw [arrive_eq hclosed, hclosed]
        rw [hsame, List.append_assoc] at hlater
        exact hlater
    | close => exact ih (f := f.step .close) (h.of_same id rfl rfl)
    | cancel =>
      exact ih (f := f.step .cancel) (h.of_same (fun hcut => ⟨hcut.1, .inl rfl⟩) rfl rfl)
    | hangUp =>
      exact ih (f := f.step .hangUp) (h.of_same (fun hcut => ⟨hcut.1, .inr rfl⟩) rfl rfl)
    | finish place =>
      exact ih (f := f.step (.finish place)) (h.of_same id rfl (outstanding_finish f place))
    | wake =>
      have hlater := ih (ordered_wake h)
      rwa [closed_wake] at hlater

/-! ### Forwarding all -/

theorem faithful_step {f : Forwarder} (h : Faithful f) {e : Event} (hcancel : e ≠ .cancel)
    (hhangUp : e ≠ .hangUp) : Faithful (f.step e) := by
  cases e with
  | arrive m => exact faithful_arrive h m
  | close => exact faithful_close h
  | cancel => exact absurd rfl hcancel
  | hangUp => exact absurd rfl hhangUp
  | finish place => exact faithful_finish h place
  | wake => exact faithful_wake h

theorem faithful_run {f : Forwarder} (h : Faithful f) {events : List Event}
    (hevents : Undisturbed events) : Faithful (f.run events) := by
  induction events generalizing f with
  | nil => exact h
  | cons e rest ih =>
    obtain ⟨hcancel, hhangUp⟩ := hevents e (List.mem_cons_self ..)
    exact ih (faithful_step h hcancel hhangUp) fun e' he' =>
      hevents e' (List.mem_cons_of_mem _ he')

/-- A forwarder that ends undisturbed has sent everything. -/
theorem sent_of_ended {results : List Decoded} {f : Forwarder} (hordered : Ordered results f)
    (h : Faithful f) (hended : f.phase = .ended) : f.closed = true ∧ f.sent = results := by
  obtain ⟨hclosed, harrived⟩ := h.draining (by simp [hended])
  have hnothing : f.outstanding = [] :=
    outstanding_of_work (by simp [work, harrived, h.ended hended])
  have hlive : ¬ f.CutOff := by
    rintro ⟨-, hcancelled | hdeaf⟩
    · simp [h.cancelled] at hcancelled
    · simp [h.deaf] at hdeaf
  have hall := hordered.outstanding hlive
  rw [hnothing, List.append_nil] at hall
  exact ⟨hclosed, hall⟩

/-- What a forwarder comes to in so many rounds. -/
def rounds (f : Forwarder) : Nat → Forwarder
  | 0 => f
  | n + 1 => (f.rounds n).round

theorem rounds_eq (f : Forwarder) (n : Nat) :
    f.run (List.replicate n [Event.finish 0, Event.wake]).flatten = f.rounds n := by
  induction n with
  | zero => rfl
  | succ n ih =>
    rw [List.replicate_succ', List.flatten_append, run_append, ih]
    rfl

theorem closed_rounds (f : Forwarder) (n : Nat) : (f.rounds n).closed = f.closed := by
  induction n with
  | zero => rfl
  | succ n ih => exact (closed_wake _).trans ih

theorem faithful_rounds {f : Forwarder} (h : Faithful f) (n : Nat) : Faithful (f.rounds n) := by
  induction n with
  | zero => exact h
  | succ n ih => exact faithful_round ih

theorem work_rounds {f : Forwarder} (h : Faithful f) (n : Nat) :
    (f.rounds n).work = f.work - n := by
  induction n with
  | zero => rfl
  | succ n ih => rw [rounds, work_round (faithful_rounds h n), ih, Nat.sub_sub]

/-- With nothing left to do, a forwarder whose channel is closed is one phase further on after
a round. -/
theorem round_of_work {f : Forwarder} (h : Faithful f) (hclosed : f.closed = true)
    (hwork : f.work = 0) :
    f.round.phase = if f.phase = .running then .draining else .ended := by
  obtain ⟨harrived, hjobs⟩ : f.arrived = [] ∧ f.queue.jobs = [] := by
    simp only [work, Queue.pending, Nat.add_eq_zero_iff, Nat.mul_eq_zero,
      List.length_eq_zero_iff] at hwork
    exact ⟨hwork.1.resolve_left (by decide), hwork.2⟩
  have hnone : (f.queue.finish 0).next? = none := by simp [Queue.finish, Queue.next?, hjobs]
  have hpending : (f.queue.finish 0).pending = 0 := by simp [Queue.finish, Queue.pending, hjobs]
  cases hphase : f.phase <;>
    simp [round, step, wake, take, hphase, h.cancelled, hnone, hpending, harrived, hclosed]

/-- When nothing else happens, a forwarder whose channel is closed ends. -/
theorem settle_ended {f : Forwarder} (h : Faithful f) (hclosed : f.closed = true) :
    f.settle.phase = .ended := by
  rw [settle, rounds_eq]
  generalize hn : 2 * (f.arrived.length + f.queue.pending) = n
  have hidle : ∀ k, (f.rounds (n + k)).work = 0 := by
    intro k
    rw [work_rounds h, work]
    omega
  have hround := fun k => round_of_work (faithful_rounds h (n + k))
    ((closed_rounds f _).trans hclosed) (hidle k)
  have hone : (f.rounds (n + 1)).phase ≠ .running := by
    intro hrunning
    have hlater := (hround 0).symm.trans hrunning
    split at hlater <;> cases hlater
  rw [rounds, hround 1, if_neg hone]

theorem ordered_rounds {results : List Decoded} {f : Forwarder} (h : Ordered results f) (n : Nat) :
    Ordered results (f.rounds n) := by
  induction n with
  | zero => exact h
  | succ n ih => exact ordered_wake (ih.of_same id rfl (outstanding_finish _ 0))

/-- What is promised of a forwarder after some events. -/
structure InOrder (events : List Event) (f : Forwarder) : Prop where
  front : f.sent <+: (received false events).map Frame.decodeMessage
  whole : Undisturbed events → f.phase = .ended →
    f.closed = true ∧ f.sent = (received false events).map Frame.decodeMessage
  /-- Once its channel is closed, it does end. -/
  ends : Undisturbed events → f.closed = true →
    f.settle.phase = .ended ∧ f.settle.sent = (received false events).map Frame.decodeMessage

theorem inOrder_run (events : List Event) : InOrder events (({} : Forwarder).run events) := by
  have hordered := ordered_run ordered_new events
  rw [List.nil_append] at hordered
  refine ⟨hordered.front, fun hevents hended => ?_, fun hevents hclosed => ?_⟩
  · exact sent_of_ended hordered (faithful_run faithful_new hevents) hended
  · have h := faithful_run faithful_new hevents
    have hended := settle_ended h hclosed
    refine ⟨hended, ?_⟩
    rw [settle, rounds_eq] at hended ⊢
    exact (sent_of_ended (ordered_rounds hordered _) (faithful_rounds h _) hended).2

end Forwarder

/-! ### Flushing -/

/-- A tail takes a frame at once. -/
def Submission.takenBy {ε : Type} (t : Tail ε) : Submission → Tail ε
  | .text s => (t.ingestText s).2
  | .message m => (t.ingestMessage m).2

theorem ingest_decode {ε : Type} (t : Tail ε) (s : Submission) :
    (t.ingest s.decode).2 = s.takenBy t := by
  cases s <;> rfl

theorem ingestAll_results {ε : Type} (t : Tail ε) (ss : List Submission) :
    t.ingestAll (ss.map Submission.decode) = ss.foldl Submission.takenBy t := by
  induction ss generalizing t with
  | nil => rfl
  | cons s rest ih =>
    rw [List.map_cons, Tail.ingestAll, ingest_decode]
    exact ih _

/-- A queue on its way into a tail. -/
structure Flush (ε : Type) where
  queue : Queue
  tail : Tail ε
  /-- The number of results taken. -/
  applied : Nat := 0

namespace Flush
variable {ε : Type}

/-- What happens while a queue is flushed. -/
inductive Event where
  /-- The decoding of the job at a place finishes. -/
  | finish (place : Nat)
  /-- The next result is asked for. -/
  | wake

def step (f : Flush ε) : Event → Flush ε
  | .finish place => { f with queue := f.queue.finish place }
  | .wake =>
    match f.queue.next? with
    | some (d, queue) => ⟨queue, (f.tail.ingest d).2, f.applied + 1⟩
    | none => f

def run (f : Flush ε) (events : List Event) : Flush ε := events.foldl step f

/-- The oldest job finishes and its result is taken, until none is left. -/
def settle (f : Flush ε) : Flush ε :=
  f.run (List.replicate f.queue.pending [Event.finish 0, Event.wake]).flatten

/-- The first so many frames of a queue were taken, one after the other. -/
structure Applied (q : Queue) (t : Tail ε) (f : Flush ε) : Prop where
  queue : f.queue.submitted = q.submitted.drop f.applied
  tail : f.tail = (q.submitted.take f.applied).foldl Submission.takenBy t
  applied : f.applied ≤ q.submitted.length

theorem applied_new (q : Queue) (t : Tail ε) : Applied q t { queue := q, tail := t } :=
  ⟨rfl, rfl, Nat.zero_le _⟩

theorem applied_step {q : Queue} {t : Tail ε} {f : Flush ε} (h : Applied q t f) (e : Event) :
    Applied q t (f.step e) := by
  cases e with
  | finish place => exact ⟨(Queue.submitted_finish ..).trans h.queue, h.tail, h.applied⟩
  | wake =>
    simp only [step]
    split
    next d queue hnext =>
      obtain ⟨s, rfl, hsubmitted⟩ := Queue.submitted_of_next? hnext
      have hdrop := h.queue.symm.trans hsubmitted
      have hlt : f.applied < q.submitted.length := by
        refine Nat.lt_of_not_le fun hle => ?_
        rw [List.drop_of_length_le hle] at hdrop
        cases hdrop
      rw [List.drop_eq_getElem_cons hlt] at hdrop
      obtain ⟨hhead, hrest⟩ := List.cons.inj hdrop
      refine ⟨hrest.symm, ?_, hlt⟩
      rw [List.take_succ_eq_append_getElem hlt, List.foldl_append, ← h.tail, hhead]
      exact ingest_decode _ _
    next => exact h

theorem applied_run {q : Queue} {t : Tail ε} {f : Flush ε} (h : Applied q t f)
    (events : List Event) : Applied q t (f.run events) := by
  induction events generalizing f with
  | nil => exact h
  | cons e rest ih => exact ih (applied_step h e)

/-- A flush that has nothing left gives what `Queue.flushInto` gives. -/
theorem flushInto_of_applied {q : Queue} {t : Tail ε} {f : Flush ε} (h : Applied q t f)
    (hpending : f.queue.pending = 0) :
    q.flushInto t = (f.applied, f.queue, f.tail) ∧ f.applied = q.submitted.length ∧
      f.tail = q.submitted.foldl Submission.takenBy t := by
  have hall : f.applied = q.submitted.length := by
    have hlength := congrArg List.length h.queue
    have happlied := h.applied
    rw [← Queue.pending_eq, hpending, List.length_drop] at hlength
    omega
  have htail := h.tail
  rw [hall, List.take_length] at htail
  have hqueue : f.queue = {} := congrArg Queue.mk (List.eq_nil_of_length_eq_zero hpending)
  refine ⟨?_, hall, htail⟩
  rw [Queue.flushInto, Queue.pending_eq, Queue.results_eq, ingestAll_results, hall, htail, hqueue]

theorem pending_settle (f : Flush ε) : f.settle.queue.pending = 0 := by
  unfold settle
  generalize hn : f.queue.pending = n
  induction n generalizing f with
  | zero => exact hn
  | succ n ih =>
    obtain ⟨d, rest, hnext, hrest⟩ := Queue.next?_finish (q := f.queue) (by omega)
    have hround : f.run [.finish 0, .wake] = ⟨rest, (f.tail.ingest d).2, f.applied + 1⟩ := by
      simp [run, step, hnext]
    rw [List.replicate_succ, List.flatten_cons, run, List.foldl_append]
    refine ih _ ?_
    rw [← run, hround]
    exact Nat.succ.inj (hrest.trans hn)

/-- What is promised of the flush of a queue into a tail after some events. -/
structure Flushed (q : Queue) (t : Tail ε) (f : Flush ε) : Prop where
  applied : Applied q t f
  /-- When nothing is left, its answer is that of taking the frames at once. -/
  answer : f.queue.pending = 0 → q.flushInto t = (f.applied, f.queue, f.tail) ∧
    f.applied = q.submitted.length ∧ f.tail = q.submitted.foldl Submission.takenBy t
  /-- At some time nothing is left. -/
  ends : f.settle.queue.pending = 0

theorem flushed_run (q : Queue) (t : Tail ε) (events : List Event) :
    Flushed q t (({ queue := q, tail := t } : Flush ε).run events) :=
  have happlied := applied_run (applied_new q t) events
  ⟨happlied, flushInto_of_applied happlied, pending_settle _⟩

end Flush

/-- **Results come in the order of submission**, in whatever order decoding finishes: what is
forwarded is the front of the results of all that arrived, and all of them unless someone cuts
it off; and a queue that is flushed into a tail leaves what taking its frames at once leaves. -/
theorem decoding_ordered {ε : Type} :
    (∀ events, Forwarder.InOrder events (({} : Forwarder).run events)) ∧
      ∀ (q : Queue) (t : Tail ε) (events : List Flush.Event),
        Flush.Flushed q t (({ queue := q, tail := t } : Flush ε).run events) :=
  ⟨Forwarder.inOrder_run, Flush.flushed_run⟩

/-- The second message is decoded first, and waits for the first. -/
example (m n : Message) :
    (({} : Forwarder).run [.arrive m, .arrive n, .wake, .wake, .finish 1, .close, .wake, .wake,
      .finish 0, .wake, .wake, .wake]).sent = [Frame.decodeMessage m, Frame.decodeMessage n] := by
  cbv

end LiveTail.Decoding
