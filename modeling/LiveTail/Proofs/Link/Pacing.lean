import Mathlib.Data.List.Chain
import LiveTail.Link.Rehearsal
import LiveTail.Proofs.Link.Backoff
import LiveTail.Proofs.Link.Session

/-! When a session connects again.

Of all that is noted of a rehearsal only three things count here: an attempt begins, a
connection is opened, or one is not had or lost (`Mark`). What a script leads to is a
`timeline` of them, and a rehearsal is always somewhere on it: what it has noted so far,
followed by what is still ahead of it, is the timeline (`Pace`). Every step that is taken
moves one mark from what is ahead to what is noted, and as many can be taken as are due
(`Underway.happen`). On the timeline each loss is followed by an attempt after the wait of
the policy (`timeline_obeys`), and so it is in the rehearsal (`paced_run`). -/
namespace LiveTail.Link

/-! ### What is noted of a connection -/

inductive Mark where
  /-- An attempt to connect begins. -/
  | begun
  | opened
  /-- A connection is not had, or not any more. -/
  | lost
deriving DecidableEq, Repr

def Act.mark? : Act → Option Mark
  | .connect => some .begun
  | .publish .opened => some .opened
  | .publish .disconnected => some .lost
  | _ => none

abbrev Marks := List (Nat × Mark)

/-- The waits that are taken after some marks: one for each loss since a connection was
last opened. -/
def Marks.waits (marks : Marks) : Nat :=
  marks.foldl (fun waits mark => match mark.2 with
    | .begun => waits
    | .opened => 0
    | .lost => waits + 1) 0

namespace Marks

@[simp] theorem waits_begun (marks : Marks) (time : Nat) :
    waits (marks ++ [(time, Mark.begun)]) = marks.waits := by
  rw [waits, List.foldl_append]
  rfl

@[simp] theorem waits_opened (marks : Marks) (time : Nat) :
    waits (marks ++ [(time, Mark.opened)]) = 0 := by
  rw [waits, List.foldl_append]
  rfl

@[simp] theorem waits_lost (marks : Marks) (time : Nat) :
    waits (marks ++ [(time, Mark.lost)]) = marks.waits + 1 := by
  rw [waits, List.foldl_append]
  rfl

end Marks

/-! ### What a script leads to -/

/-- When a connection that is read from now on is lost, if it is. -/
def lossAfter : List Delivery → Option Nat
  | [] => none
  | d :: rest =>
    match d.outcome with
    | .failed _ => some d.after
    | .frame _ => (lossAfter rest).map (d.after + ·)
    | _ => none

/-- What a script leads to from an attempt on, so many waits after a connection was last
opened. -/
def timeline (policy : Backoff) (waits now : Nat) : List Attempt → Marks
  | [] => [(now, .begun)]
  | .refuse after _ :: script =>
    let time := now + after
    (now, .begun) :: (time, .lost) ::
      timeline policy (waits + 1) (time + policy.delay waits) script
  | .serve after deliveries :: script =>
    (now, .begun) :: (now + after, .opened) ::
      match lossAfter deliveries with
      | none => []
      | some read =>
        let time := now + after + read
        (time, .lost) :: timeline policy 1 (time + policy.delay 0) script

section Timeline
variable (policy : Backoff) (waits time : Nat) (script : List Attempt)

/-- What comes of the loss of a connection. -/
def fromLoss : Marks :=
  (time, .lost) :: timeline policy (waits + 1) (time + policy.delay waits) script

/-- What comes of reading from a connection. -/
def fromReading (deliveries : List Delivery) : Marks :=
  match lossAfter deliveries with
  | none => []
  | some after => fromLoss policy waits (time + after) script

theorem timeline_refuse (after : Nat) (reason : String) :
    timeline policy waits time (.refuse after reason :: script) =
      (time, .begun) :: fromLoss policy waits (time + after) script := rfl

theorem timeline_serve (after : Nat) (deliveries : List Delivery) :
    timeline policy waits time (.serve after deliveries :: script) =
      (time, .begun) :: (time + after, .opened) ::
        fromReading policy 0 (time + after) script deliveries := rfl

theorem timeline_begins : ∃ rest, timeline policy waits time script = (time, .begun) :: rest := by
  match script with
  | [] => exact ⟨_, rfl⟩
  | .refuse .. :: _ => exact ⟨_, rfl⟩
  | .serve .. :: _ => exact ⟨_, rfl⟩

/-- A frame that is read changes nothing but the time. -/
theorem fromReading_frame {d : Delivery} {text : String} (h : d.outcome = .frame text)
    (deliveries : List Delivery) :
    fromReading policy waits time script (d :: deliveries) =
      fromReading policy waits (time + d.after) script deliveries := by
  simp only [fromReading, lossAfter, h]
  cases lossAfter deliveries with
  | none => rfl
  | some after => simp only [Option.map_some, Nat.add_assoc]

end Timeline

section Timeline
variable {policy : Backoff} {mark : Nat × Mark}

/-- Nothing that comes of a loss is before it, if nothing on a timeline is before the timeline
begins. -/
theorem le_of_mem_fromLoss {script : List Attempt}
    (htimeline : ∀ {waits now : Nat}, mark ∈ timeline policy waits now script → now ≤ mark.1)
    {waits time : Nat} (h : mark ∈ fromLoss policy waits time script) : time ≤ mark.1 := by
  rcases List.mem_cons.mp h with rfl | h
  · exact Nat.le_refl time
  · exact Nat.le_trans (Nat.le_add_right ..) (htimeline h)

theorem le_of_mem_fromReading {script : List Attempt}
    (htimeline : ∀ {waits now : Nat}, mark ∈ timeline policy waits now script → now ≤ mark.1)
    {waits time : Nat} {deliveries : List Delivery}
    (h : mark ∈ fromReading policy waits time script deliveries) : time ≤ mark.1 := by
  unfold fromReading at h
  split at h
  next => cases h
  next => exact Nat.le_trans (Nat.le_add_right ..) (le_of_mem_fromLoss htimeline h)

/-- Nothing on a timeline is before it begins. -/
theorem le_of_mem_timeline {waits now : Nat} {script : List Attempt}
    (h : mark ∈ timeline policy waits now script) : now ≤ mark.1 := by
  induction script generalizing waits now with
  | nil =>
    obtain rfl := List.mem_singleton.mp h
    exact Nat.le_refl now
  | cons attempt script ih =>
    cases attempt with
    | refuse after reason =>
      rw [timeline_refuse] at h
      rcases List.mem_cons.mp h with rfl | h
      · exact Nat.le_refl now
      · exact Nat.le_trans (Nat.le_add_right ..) (le_of_mem_fromLoss ih h)
    | serve after deliveries =>
      rw [timeline_serve] at h
      rcases List.mem_cons.mp h with rfl | h
      · exact Nat.le_refl now
      rcases List.mem_cons.mp h with rfl | h
      · exact Nat.le_add_right now after
      · exact Nat.le_trans (Nat.le_add_right ..) (le_of_mem_fromReading ih h)

end Timeline

/-! ### The rule -/

/-- Each loss is followed by an attempt, after the wait that is its turn; what was `done`
before counts as well. -/
def Again (policy : Backoff) (done marks : Marks) : Prop :=
  ∀ front time rest, marks = front ++ (time, Mark.lost) :: rest →
    rest.head? = some (time + policy.delay (Marks.waits (done ++ front)), Mark.begun)

theorem again_cons {policy : Backoff} {done marks : Marks} {mark : Nat × Mark}
    (hlost : mark.2 = .lost →
      marks.head? = some (mark.1 + policy.delay done.waits, Mark.begun))
    (h : Again policy (done ++ [mark]) marks) : Again policy done (mark :: marks) := by
  intro front time rest hmarks
  cases front with
  | nil =>
    obtain ⟨rfl, rfl⟩ := List.cons.inj hmarks
    rw [List.append_nil]
    exact hlost rfl
  | cons first front =>
    obtain ⟨rfl, hmarks'⟩ := List.cons.inj hmarks
    have hrest := h front time rest hmarks'
    rwa [List.append_assoc, List.singleton_append] at hrest

/-- Between two marks, the second of which begins an attempt, the first is a loss. -/
def Follows (before mark : Nat × Mark) : Prop := mark.2 = .begun → before.2 = .lost

/-- A timeline obeys the rule, and no attempt but the first begins without a loss. -/
theorem timeline_obeys (policy : Backoff) (script : List Attempt) (done : Marks) (now : Nat)
    {waits : Nat} (hdone : done.waits = waits) :
    Again policy done (timeline policy waits now script) ∧
      (timeline policy waits now script).IsChain Follows := by
  induction script generalizing done waits now with
  | nil =>
    refine ⟨again_cons nofun fun front time rest h => ?_, .singleton _⟩
    exact absurd h (by simp)
  | cons attempt script ih =>
    have hloss : ∀ (done : Marks) (time : Nat) {waits : Nat}, done.waits = waits →
        Again policy done (fromLoss policy waits time script) ∧
          (fromLoss policy waits time script).IsChain Follows := by
      intro done time waits hdone
      obtain ⟨hagain, hchain⟩ := ih (done ++ [(time, Mark.lost)]) (time + policy.delay waits)
        ((Marks.waits_lost done time).trans (congrArg (· + 1) hdone))
      obtain ⟨rest, hbegins⟩ := timeline_begins policy (waits + 1)
        (time + policy.delay waits) script
      refine ⟨again_cons (fun _ => ?_) hagain, ?_⟩
      · rw [hbegins, hdone]
        rfl
      · rw [fromLoss]
        rw [hbegins] at hchain ⊢
        exact .cons_cons (fun _ => rfl) hchain
    cases attempt with
    | refuse after reason =>
      obtain ⟨hagain, hchain⟩ := hloss (done ++ [(now, Mark.begun)]) (now + after)
        ((Marks.waits_begun done now).trans hdone)
      exact ⟨again_cons nofun hagain, .cons_cons nofun hchain⟩
    | serve after deliveries =>
      rw [timeline_serve]
      unfold fromReading
      split
      next =>
        refine ⟨again_cons nofun (again_cons nofun fun front time rest h => ?_),
          .cons_cons nofun (.singleton _)⟩
        exact absurd h (by simp)
      next read _ =>
        obtain ⟨hagain, hchain⟩ :=
          hloss (done ++ [(now, Mark.begun)] ++ [(now + after, Mark.opened)]) (now + after + read)
            (Marks.waits_opened _ _)
        exact ⟨again_cons nofun (again_cons nofun hagain),
          .cons_cons nofun (.cons_cons nofun hchain)⟩

/-! ### Where a rehearsal is on its timeline -/

namespace Rehearsal

def marks (r : Rehearsal) : Marks :=
  r.log.toList.filterMap fun (time, act) => act.mark?.map (time, ·)

/-- What is still ahead of a rehearsal whose driver is in a phase. -/
def ahead (policy : Backoff) (waits : Nat) (r : Rehearsal) (phase : Phase) : Marks :=
  match phase, r.pending with
  | .created, _ => timeline policy waits r.now r.script
  | .connecting, some (due, .connected) =>
    (due, .opened) :: fromReading policy 0 due r.script r.deliveries
  | .connecting, some (due, .failed _) => fromLoss policy waits due r.script
  | .reading, some (due, .frame _) => fromReading policy waits due r.script r.deliveries
  | .reading, some (due, .failed _) => fromLoss policy waits due r.script
  | .waiting, some (due, .elapsed) => timeline policy waits due r.script
  | _, _ => []

/-- Nothing is ahead before what is pending. -/
theorem le_of_mem_ahead {policy : Backoff} {waits : Nat} {r : Rehearsal} {phase : Phase}
    (hphase : phase ≠ .created) {mark : Nat × Mark} (h : mark ∈ r.ahead policy waits phase) :
    ∃ due outcome, r.pending = some (due, outcome) ∧ due ≤ mark.1 := by
  unfold ahead at h
  split at h
  next => exact absurd rfl hphase
  next due hpending =>
    refine ⟨due, _, hpending, ?_⟩
    rcases List.mem_cons.mp h with rfl | h
    · exact Nat.le_refl due
    · exact le_of_mem_fromReading le_of_mem_timeline h
  next due _ hpending => exact ⟨due, _, hpending, le_of_mem_fromLoss le_of_mem_timeline h⟩
  next due _ hpending => exact ⟨due, _, hpending, le_of_mem_fromReading le_of_mem_timeline h⟩
  next due _ hpending => exact ⟨due, _, hpending, le_of_mem_fromLoss le_of_mem_timeline h⟩
  next due hpending => exact ⟨due, _, hpending, le_of_mem_timeline h⟩
  next => cases h

/-- Once a driver has run, what is ahead depends on what is pending and not on the time. -/
theorem ahead_now {policy : Backoff} {waits : Nat} {phase : Phase} (hphase : phase ≠ .created)
    (r : Rehearsal) (time : Nat) :
    ({ r with now := time } : Rehearsal).ahead policy waits phase = r.ahead policy waits phase := by
  obtain ⟨session, script, now, deliveries, pending, log⟩ := r
  cases phase with
  | created => exact absurd rfl hphase
  | _ => rcases pending with _ | ⟨due, _ | _ | _ | _ | _⟩ <;> rfl

section Answers
variable (policy : Backoff) (waits : Nat) (r : Rehearsal)

theorem marks_answer (act : Act) :
    (r.answer act).marks = r.marks ++ (act.mark?.map (r.now, ·)).toList := by
  have hpush : ∀ act : Act, ({ r with log := r.log.push (r.now, act) } : Rehearsal).marks =
      r.marks ++ (act.mark?.map (r.now, ·)).toList := by
    intro act
    simp only [marks, Array.toList_push, List.filterMap_append, List.filterMap_cons,
      List.filterMap_nil]
    cases act.mark? <;> rfl
  cases act with
  | connect =>
    rw [← hpush, answer]
    dsimp only
    split <;> rfl
  | read =>
    rw [answer]
    split <;> exact (List.append_nil _).symm
  | wait milliseconds => exact (List.append_nil _).symm
  | _ => exact hpush _

theorem ahead_connect : timeline policy waits r.now r.script =
    (r.now, .begun) :: (r.answer .connect).ahead policy waits .connecting := by
  obtain ⟨session, script, now, deliveries, pending, log⟩ := r
  rcases script with _ | ⟨_ | _, script⟩ <;> rfl

theorem ahead_read : (r.answer .read).ahead policy waits .reading =
    fromReading policy waits r.now r.script r.deliveries := by
  rw [answer]
  split
  next hnone => rw [hnone]; rfl
  next d deliveries hd =>
    rw [hd]
    cases houtcome : d.outcome with
    | frame text => simp only [ahead, fromReading_frame policy waits r.now r.script houtcome]
    | _ => simp only [ahead, houtcome, fromReading, lossAfter]

theorem marks_connecting :
    let s := [Act.publish .connecting, .connect].foldl answer r
    s.marks ++ s.ahead policy waits .connecting =
      r.marks ++ timeline policy waits r.now r.script := by
  have hahead := ahead_connect policy waits (r.answer (.publish .connecting))
  simp only [List.foldl_cons, List.foldl_nil, marks_answer, List.append_assoc]
  exact congrArg (r.marks ++ ·) hahead.symm

theorem marks_opened :
    let s := [Act.publish .opened, .read].foldl answer r
    s.marks ++ s.ahead policy waits .reading =
      r.marks ++ (r.now, .opened) :: fromReading policy waits r.now r.script r.deliveries := by
  have hahead := ahead_read policy waits (r.answer (.publish .opened))
  simp only [List.foldl_cons, List.foldl_nil, marks_answer, List.append_assoc]
  exact congrArg (r.marks ++ (r.now, .opened) :: ·) hahead

theorem marks_lost :
    let s := [Act.publish .disconnected, .wait (policy.delay waits)].foldl answer r
    s.marks ++ s.ahead policy (waits + 1) .waiting =
      r.marks ++ fromLoss policy waits r.now r.script := by
  simp only [List.foldl_cons, List.foldl_nil, marks_answer, List.append_assoc]
  rfl

end Answers

/-- Handlers are called and frames are reported without any mark. -/
theorem answers_deliver (r : Rehearsal) (registry : Registry) (text : String) :
    ∃ log, (registry.deliver text).foldl answer r = { r with log } ∧
      ({ r with log } : Rehearsal).marks = r.marks := by
  have hcalls : ∀ (acts : List Act) (r : Rehearsal),
      (∀ act ∈ acts, (∃ id m, act = .call id m) ∨ act = .unreadable) →
      ∃ log, acts.foldl answer r = { r with log } ∧
        ({ r with log } : Rehearsal).marks = r.marks := by
    intro acts
    induction acts with
    | nil => exact fun r _ => ⟨r.log, rfl, rfl⟩
    | cons act acts ih =>
      intro r hacts
      obtain ⟨hact, hacts⟩ := List.forall_mem_cons.mp hacts
      have hanswer : r.answer act = { r with log := r.log.push (r.now, act) } ∧
          act.mark? = none := by
        rcases hact with ⟨id, m, rfl⟩ | rfl <;> exact ⟨rfl, rfl⟩
      obtain ⟨log, hlog, hmarks⟩ := ih (r.answer act) hacts
      refine ⟨log, ?_, ?_⟩
      · rw [List.foldl_cons, hlog, hanswer.1]
      · have hsame := marks_answer r act
        rw [hanswer.2, Option.map_none, Option.toList_none, List.append_nil] at hsame
        rw [← hsame, ← hmarks, hanswer.1]
  refine hcalls _ r fun act hact => ?_
  unfold Registry.deliver at hact
  split at hact
  next m _ =>
    obtain ⟨id, -, rfl⟩ := List.mem_map.mp hact
    exact .inl ⟨id, m, rfl⟩
  next => exact .inr (List.mem_singleton.mp hact)

/-- What is answered changes neither the session nor the time. -/
theorem answer_keeps (r : Rehearsal) (act : Act) :
    (r.answer act).session = r.session ∧ (r.answer act).now = r.now := by
  unfold answer
  split
  · dsimp only
    split <;> exact ⟨rfl, rfl⟩
  · split <;> exact ⟨rfl, rfl⟩
  · exact ⟨rfl, rfl⟩
  · exact ⟨rfl, rfl⟩

theorem session_answers (r : Rehearsal) (acts : List Act) :
    (acts.foldl answer r).session = r.session := by
  induction acts generalizing r with
  | nil => rfl
  | cons act acts ih => exact (ih _).trans (r.answer_keeps act).1

/-- What is noted while something is answered has the time it is answered at. -/
theorem of_mem_marks_answers {r : Rehearsal} {acts : List Act} {mark : Nat × Mark}
    (h : mark ∈ (acts.foldl answer r).marks) : mark ∈ r.marks ∨ mark.1 = r.now := by
  induction acts generalizing r with
  | nil => exact .inl h
  | cons act acts ih =>
    rcases ih h with hmem | htime
    · rw [marks_answer, List.mem_append, Option.mem_toList, Option.map_eq_some_iff] at hmem
      rcases hmem with hmem | ⟨kind, -, rfl⟩
      · exact .inl hmem
      · exact .inr rfl
    · exact .inr (htime.trans (r.answer_keeps act).2)

/-! ### Steps -/

/-- A session with one driver at work, as far on its timeline as its rehearsal is. -/
structure Pace (policy : Backoff) (whole : Marks) (d : Driver) (waits : Nat) (r : Rehearsal) :
    Prop where
  bound : r.session.policy = policy
  drivers : r.session.drivers = [d]
  held : r.session.held = some 0
  live : d.cancelled = false
  phase : d.phase ≠ .ended
  attempt : d.attempt = min waits Backoff.ceiling
  marks : r.marks ++ r.ahead policy waits d.phase = whole

/-- So many things are still to be waited for. -/
def load (r : Rehearsal) : Nat := (r.script.map Attempt.weight).sum + r.deliveries.length

/-- At most so many things can still happen to a driver in a phase. -/
def left (r : Rehearsal) (phase : Phase) : Nat :=
  match r.pending with
  | none => 0
  | some _ => r.load + if phase = .waiting then 1 else 2

theorem left_connect (r : Rehearsal) : (r.answer .connect).left .connecting < r.load + 1 := by
  obtain ⟨session, script, now, deliveries, pending, log⟩ := r
  rcases script with _ | ⟨_ | _, script⟩ <;>
    simp only [answer, left, load, List.map_cons, List.sum_cons, Attempt.weight, reduceCtorEq,
      if_false] <;> omega

theorem left_read (r : Rehearsal) : (r.answer .read).left .reading < r.load + 2 := by
  rw [answer]
  split
  next => exact Nat.succ_pos _
  next d deliveries hd =>
    simp only [left, load, hd, List.length_cons, reduceCtorEq, if_false]
    omega

theorem tell_resume {r : Rehearsal} {d e : Driver} {outcome : Outcome} {acts : List Act}
    (hd : r.session.drivers = [d])
    (he : d.resume r.session.policy r.session.registry r.session.generation outcome = (acts, e)) :
    r.tell (·.resume 0 outcome) = acts.foldl answer
      { r with session :=
        { r.session with status := Session.follow r.session.status acts, drivers := [e] } } := by
  simp only [tell, Session.resume, hd, List.getElem?_cons_zero, he, List.set_cons_zero]

/-- A session on its timeline that has begun to connect, and to which less than so many things
can happen. -/
def Underway (policy : Backoff) (whole : Marks) (r : Rehearsal) (most : Nat) : Prop :=
  ∃ d waits, Pace policy whole d waits r ∧ d.phase ≠ .created ∧ r.left d.phase < most

section Pace
variable {policy : Backoff} {whole : Marks} {d e : Driver} {waits : Nat} {r s : Rehearsal}
  {outcome : Outcome}

/-- A run of the driver after which the timeline is still what it was. -/
theorem Pace.of_resume (h : Pace policy whole d waits r) (hsession : s.session = r.session)
    {acts : List Act} {waits' most : Nat}
    (he : d.resume policy r.session.registry r.session.generation outcome = (acts, e))
    (hlive : e.cancelled = false) (hended : e.phase ≠ .ended) (hcreated : e.phase ≠ .created)
    (hattempt : e.attempt = min waits' Backoff.ceiling)
    (hacts : ∀ session, let t := acts.foldl answer { s with session }
      t.marks ++ t.ahead policy waits' e.phase = r.marks ++ r.ahead policy waits d.phase ∧
        t.left e.phase < most) :
    Underway policy whole (s.tell (·.resume 0 outcome)) most := by
  rw [tell_resume (hsession ▸ h.drivers) (by rw [hsession, h.bound, he])]
  refine ⟨e, waits', ?_, hcreated, (hacts _).2⟩
  constructor
  case bound => rw [session_answers, hsession, h.bound]
  case drivers => rw [session_answers]
  case held => rw [session_answers, hsession, h.held]
  case live => exact hlive
  case phase => exact hended
  case attempt => exact hattempt
  case marks => exact (hacts _).1.trans h.marks

theorem Pace.connects (h : Pace policy whole d waits r) (hsession : s.session = r.session)
    (hresume : d.resume policy r.session.registry r.session.generation outcome = d.connect)
    (hmarks : s.marks ++ timeline policy waits s.now s.script =
      r.marks ++ r.ahead policy waits d.phase) :
    Underway policy whole (s.tell (·.resume 0 outcome)) (s.load + 1) := by
  refine h.of_resume hsession hresume h.live nofun nofun h.attempt fun session => ?_
  exact ⟨(marks_connecting policy waits { s with session }).trans hmarks, left_connect _⟩

theorem Pace.opens (h : Pace policy whole d waits r) (hsession : s.session = r.session)
    (hresume : d.resume policy r.session.registry r.session.generation outcome = d.opened)
    (hmarks : s.marks ++ (s.now, Mark.opened) ::
      fromReading policy 0 s.now s.script s.deliveries = r.marks ++ r.ahead policy waits d.phase) :
    Underway policy whole (s.tell (·.resume 0 outcome)) (s.load + 2) := by
  refine h.of_resume hsession hresume h.live nofun nofun (Nat.zero_min _).symm fun session => ?_
  exact ⟨(marks_opened policy 0 { s with session }).trans hmarks, left_read _⟩

/-- The wait that follows goes by the waits that were taken. -/
theorem Pace.lost_eq (h : Pace policy whole d waits r) :
    d.lost policy = ([.publish .disconnected, .wait (policy.delay waits)],
      { d with phase := .waiting, attempt := min (waits + 1) Backoff.ceiling }) := by
  have hattempt : min (min waits Backoff.ceiling + 1) Backoff.ceiling =
      min (waits + 1) Backoff.ceiling := by omega
  rw [Driver.lost, h.attempt, Backoff.delay_min, hattempt]

theorem Pace.loses (h : Pace policy whole d waits r) (hsession : s.session = r.session)
    (hresume : d.resume policy r.session.registry r.session.generation outcome = d.lost policy)
    (hmarks : s.marks ++ fromLoss policy waits s.now s.script =
      r.marks ++ r.ahead policy waits d.phase) :
    Underway policy whole (s.tell (·.resume 0 outcome)) (s.load + 2) := by
  rw [h.lost_eq] at hresume
  refine h.of_resume hsession hresume h.live nofun nofun rfl fun session => ?_
  exact ⟨(marks_lost policy waits { s with session }).trans hmarks, Nat.lt_succ_self _⟩

theorem Pace.reads (h : Pace policy whole d waits r) (hsession : s.session = r.session)
    {text : String}
    (hresume : d.resume policy r.session.registry r.session.generation outcome =
      (r.session.registry.deliver text ++ [.read], d))
    (hphase : d.phase = .reading)
    (hmarks : s.marks ++ fromReading policy waits s.now s.script s.deliveries =
      r.marks ++ r.ahead policy waits d.phase) :
    Underway policy whole (s.tell (·.resume 0 outcome)) (s.load + 2) := by
  refine h.of_resume hsession hresume h.live h.phase (by rw [hphase]; nofun) h.attempt
    fun session => ?_
  obtain ⟨log, hlog, hsame⟩ := answers_deliver { s with session } r.session.registry text
  rw [← hmarks, hphase, List.foldl_append, hlog, List.foldl_cons, List.foldl_nil]
  refine ⟨?_, left_read _⟩
  have hread : Act.read.mark? = none := rfl
  rw [marks_answer, ahead_read, hread, Option.map_none, Option.toList_none, List.append_nil]
  exact congrArg (· ++ _) hsame

/-- What is pending is not what the driver waits for; then nothing more happens. -/
theorem Pace.idles (h : Pace policy whole d waits r) (hsession : s.session = r.session)
    (hresume : d.resume policy r.session.registry r.session.generation outcome = ([], d))
    (hcreated : d.phase ≠ .created) (hnone : s.pending = none)
    (hmarks : s.marks = r.marks ++ r.ahead policy waits d.phase) :
    Underway policy whole (s.tell (·.resume 0 outcome)) 1 := by
  refine h.of_resume hsession hresume h.live h.phase hcreated h.attempt fun session => ?_
  have hnothing : ({ s with session } : Rehearsal).ahead policy waits d.phase = [] := by
    unfold ahead
    rw [hnone]
    cases hd : d.phase <;> first | rfl | exact absurd hd hcreated
  have hover : ({ s with session } : Rehearsal).left d.phase = 0 := by
    rw [left, hnone]
  dsimp only [List.foldl_nil]
  rw [hnothing, hover, List.append_nil]
  exact ⟨hmarks, Nat.zero_lt_one⟩

theorem of_next? {time : Nat} (h : r.next? time = some s) :
    ∃ due outcome, r.pending = some (due, outcome) ∧ due ≤ time ∧
      s = { r with now := due, pending := none }.tell
        (·.resume (r.session.drivers.length - 1) outcome) := by
  unfold next? at h
  split at h
  next due outcome hpending =>
    split at h
    next hdue => exact ⟨due, outcome, hpending, hdue, (Option.some.inj h).symm⟩
    next => cases h
  next => cases h

theorem Underway.mono {most more : Nat} (h : Underway policy whole r most) (hle : most ≤ more) :
    Underway policy whole r more := by
  obtain ⟨d, waits, hpace, hcreated, hleft⟩ := h
  exact ⟨d, waits, hpace, hcreated, Nat.lt_of_lt_of_le hleft hle⟩

/-- Whatever happens to the session, it stays on its timeline, and less can happen after. -/
theorem Pace.next (h : Pace policy whole d waits r) (hcreated : d.phase ≠ .created) {time : Nat}
    (hnext : r.next? time = some s) : Underway policy whole s (r.left d.phase) := by
  obtain ⟨due, outcome, hpending, -, rfl⟩ := of_next? hnext
  have hplace : r.session.drivers.length - 1 = 0 := by rw [h.drivers]; rfl
  rw [hplace]
  clear hnext hplace
  obtain ⟨session, script, now, deliveries, pending, log⟩ := r
  obtain rfl : pending = some (due, outcome) := hpending
  obtain ⟨owner, cancelled, phase, attempt⟩ := d
  obtain rfl : cancelled = false := h.live
  have hleft : 1 ≤ left ⟨session, script, now, deliveries, some (due, outcome), log⟩ phase := by
    simp only [left]
    split <;> omega
  cases phase with
  | created => exact absurd rfl hcreated
  | ended => exact absurd rfl h.phase
  | connecting =>
    cases outcome with
    | connected => exact h.opens rfl rfl rfl
    | failed e => exact h.loses rfl rfl rfl
    | _ => exact .mono (h.idles rfl rfl nofun rfl (List.append_nil _).symm) hleft
  | reading =>
    cases outcome with
    | frame text => exact h.reads rfl rfl rfl rfl
    | failed e => exact h.loses rfl rfl rfl
    | _ => exact .mono (h.idles rfl rfl nofun rfl (List.append_nil _).symm) hleft
  | waiting =>
    cases outcome with
    | elapsed => exact h.connects rfl rfl rfl
    | _ => exact .mono (h.idles rfl rfl nofun rfl (List.append_nil _).symm) hleft

end Pace

/-! ### All that is due -/

theorem left_le (r : Rehearsal) (phase : Phase) : r.left phase ≤ r.weight := by
  have hweight : r.weight = r.load + 2 := rfl
  rw [left, hweight]
  split
  · exact Nat.zero_le _
  · split <;> omega

theorem of_mem_marks_tell {r : Rehearsal} {call : Session → List Act × Session} {mark : Nat × Mark}
    (h : mark ∈ (r.tell call).marks) : mark ∈ r.marks ∨ mark.1 = r.now :=
  of_mem_marks_answers (r := { r with session := (call r.session).2 }) h

section Due
variable {policy : Backoff} {whole : Marks} {r : Rehearsal} {time : Nat}

theorem past_next? {s : Rehearsal} (hnext : r.next? time = some s)
    (hpast : ∀ mark ∈ r.marks, mark.1 ≤ time) : ∀ mark ∈ s.marks, mark.1 ≤ time := by
  obtain ⟨due, outcome, -, hdue, rfl⟩ := of_next? hnext
  intro mark hmark
  rcases of_mem_marks_tell hmark with hold | hnew
  · exact hpast mark hold
  · exact hnew ▸ hdue

/-- As many steps are taken as are due. -/
theorem Underway.happen {n : Nat} (h : Underway policy whole r (n + 1))
    (hpast : ∀ mark ∈ r.marks, mark.1 ≤ time) :
    Underway policy whole (r.happen time n) (n + 1) ∧ (r.happen time n).next? time = none ∧
      ∀ mark ∈ (r.happen time n).marks, mark.1 ≤ time := by
  induction n generalizing r with
  | zero =>
    obtain ⟨d, waits, hpace, hcreated, hleft⟩ := h
    refine ⟨⟨d, waits, hpace, hcreated, hleft⟩, ?_, hpast⟩
    have hnone : r.pending = none := by
      cases hpending : r.pending with
      | none => rfl
      | some pending =>
        simp only [left, hpending] at hleft
        split at hleft <;> omega
    show r.next? time = none
    rw [next?, hnone]
  | succ n ih =>
    rw [Rehearsal.happen]
    split
    next s hnext =>
      obtain ⟨d, waits, hpace, hcreated, hleft⟩ := h
      have hless : Underway policy whole s (n + 1) :=
        (hpace.next hcreated hnext).mono (Nat.le_of_lt_succ hleft)
      obtain ⟨hunder, hdone, hmarks⟩ := ih hless (past_next? hnext hpast)
      exact ⟨hunder.mono (Nat.le_succ _), hdone, hmarks⟩
    next hnext => exact ⟨h, hnext, hpast⟩

/-- When nothing is due, all that is ahead is later. -/
theorem lt_of_mem_ahead (hnext : r.next? time = none) {waits : Nat} {phase : Phase}
    (hcreated : phase ≠ .created) {mark : Nat × Mark} (h : mark ∈ r.ahead policy waits phase) :
    time < mark.1 := by
  obtain ⟨due, outcome, hpending, hle⟩ := le_of_mem_ahead hcreated h
  rw [next?, hpending] at hnext
  by_cases hdue : due ≤ time
  · simp [hdue] at hnext
  · omega

variable {d : Driver} {waits : Nat}

theorem Pace.running (h : Pace policy whole d waits r) : r.session.running = true := by
  simp [Session.running, h.held, h.drivers, h.live, h.phase]

/-- A driver that has not run yet is the only one that is woken. -/
theorem Pace.wake_eq (h : Pace policy whole d waits r) :
    r.wake = if d.phase = .created then r.tell (·.resume 0 .nothing) else r := by
  unfold wake
  simp only [h.running, if_true, h.drivers, List.zipIdx_cons, List.zipIdx_nil, List.filter_cons,
    List.filter_nil, h.live, Bool.false_or, beq_iff_eq]
  split <;> rfl

/-- Once it is woken the driver has begun to connect. -/
theorem Pace.wake (h : Pace policy whole d waits r) :
    Underway policy whole r.wake (r.wake.weight + 1) := by
  have hwake : ∃ most, Underway policy whole r.wake most := by
    rw [h.wake_eq]
    split
    next hcreated =>
      refine ⟨_, h.connects rfl ?_ ?_⟩
      · simp only [Driver.resume, hcreated, h.live]
      · rw [hcreated]
        rfl
    next hcreated => exact ⟨_, d, waits, h, hcreated, Nat.lt_succ_self _⟩
  obtain ⟨most, e, waits', hpace, hcreated, -⟩ := hwake
  exact ⟨e, waits', hpace, hcreated, Nat.lt_succ_of_le (left_le _ _)⟩

theorem Pace.past_wake (h : Pace policy whole d waits r)
    (hpast : ∀ mark ∈ r.marks, mark.1 ≤ time) (hnow : r.now ≤ time) :
    ∀ mark ∈ r.wake.marks, mark.1 ≤ time := by
  rw [h.wake_eq]
  split
  next =>
    intro mark hmark
    rcases of_mem_marks_tell hmark with hold | hnew
    · exact hpast mark hold
    · exact hnew ▸ hnow
  next => exact hpast

/-- When time has passed, all that was due by then has been noted, and the rest is later. -/
theorem Pace.advanceTo (h : Pace policy whole d waits r)
    (hpast : ∀ mark ∈ r.marks, mark.1 ≤ time) (hnow : r.now ≤ time) :
    (∃ e waits', Pace policy whole e waits' (r.advanceTo time)) ∧
      (∀ mark ∈ (r.advanceTo time).marks, mark.1 ≤ time) ∧
      ∃ later, (r.advanceTo time).marks ++ later = whole ∧ ∀ mark ∈ later, time < mark.1 := by
  obtain ⟨⟨e, waits', hpace, hcreated, -⟩, hdone, hmarks⟩ :=
    h.wake.happen (h.past_wake hpast hnow)
  refine ⟨⟨e, waits', ?_⟩, hmarks, _, hpace.marks, fun mark => lt_of_mem_ahead hdone hcreated⟩
  refine ⟨hpace.bound, hpace.drivers, hpace.held, hpace.live, hpace.phase, hpace.attempt, ?_⟩
  exact (congrArg _ (ahead_now hcreated _ _)).trans hpace.marks

end Due

/-! ### What a host may do -/

/-- What a host may do with a session, short of stopping it. -/
inductive Call where
  | start
  | subscribe (kind : Kind)
  | unsubscribe (id : Nat)
  | advance (milliseconds : Nat)

def perform (r : Rehearsal) : Call → Rehearsal
  | .start => r.tell Session.start
  | .subscribe kind => r.tell fun s => ([], (s.subscribe kind).2)
  | .unsubscribe id => r.tell fun s => ([], (s.unsubscribe id).2)
  | .advance milliseconds => r.advance milliseconds

/-- A new session that has been started, with a script before it. -/
def begin (target : Target) (policy : Backoff) (registry : Registry) (script : List Attempt)
    (now : Nat) : Rehearsal :=
  ({ session := { target, policy, registry }, script, now } : Rehearsal).tell Session.start

def run (r : Rehearsal) (calls : List Call) : Rehearsal := calls.foldl perform r

/-- A session on its timeline, with nothing noted that is still to come. -/
def Timely (policy : Backoff) (whole : Marks) (start : Nat) (r : Rehearsal) : Prop :=
  (∃ d waits, Pace policy whole d waits r) ∧ (∀ mark ∈ r.marks, mark.1 ≤ r.now) ∧ start ≤ r.now

theorem timely_begin (target : Target) (policy : Backoff) (registry : Registry)
    (script : List Attempt) (now : Nat) :
    Timely policy (timeline policy 0 now script) now (begin target policy registry script now) := by
  refine ⟨⟨{ owner := 1 }, 0, ?_⟩, nofun, Nat.le_refl now⟩
  exact ⟨rfl, rfl, rfl, rfl, nofun, (Nat.zero_min _).symm, rfl⟩

section Perform
variable {policy : Backoff} {whole : Marks} {start : Nat} {r : Rehearsal}

theorem timely_perform (h : Timely policy whole start r) (call : Call) :
    Timely policy whole start (r.perform call) := by
  obtain ⟨⟨d, waits, hpace⟩, hpast, hstart⟩ := h
  cases call with
  | start =>
    have hsame : r.perform .start = r := by
      rw [perform, tell, Session.start, if_pos hpace.running]
      rfl
    rw [hsame]
    exact ⟨⟨d, waits, hpace⟩, hpast, hstart⟩
  | subscribe kind =>
    obtain ⟨hbound, hdrivers, hheld, hlive, hphase, hattempt, hmarks⟩ := hpace
    exact ⟨⟨d, waits, hbound, hdrivers, hheld, hlive, hphase, hattempt, hmarks⟩, hpast, hstart⟩
  | unsubscribe id =>
    obtain ⟨hbound, hdrivers, hheld, hlive, hphase, hattempt, hmarks⟩ := hpace
    exact ⟨⟨d, waits, hbound, hdrivers, hheld, hlive, hphase, hattempt, hmarks⟩, hpast, hstart⟩
  | advance milliseconds =>
    have hnow : r.now ≤ r.now + milliseconds := Nat.le_add_right ..
    obtain ⟨hpace, hmarks, -⟩ :=
      hpace.advanceTo (fun mark hmark => Nat.le_trans (hpast mark hmark) hnow) hnow
    exact ⟨hpace, hmarks, Nat.le_trans hstart hnow⟩

theorem timely_run (h : Timely policy whole start r) (calls : List Call) :
    Timely policy whole start (r.run calls) := by
  induction calls generalizing r with
  | nil => exact h
  | cons call calls ih => exact ih (timely_perform h call)

end Perform

/-- How the attempts of a session follow one another. -/
structure Paced (policy : Backoff) (start : Nat) (script : List Attempt) (r : Rehearsal) :
    Prop where
  /-- All that the script leads to by now has been noted, at its time, and nothing else. -/
  scripted : r.marks = (timeline policy 0 start script).filter (·.1 ≤ r.now)
  /-- The first attempt begins at the start. -/
  first : r.marks.head? = some (start, .begun)
  /-- After a loss the next attempt begins when the wait is over that is its turn, as soon as
  that time has come, and nothing is noted before. -/
  again : ∀ front time rest, r.marks = front ++ (time, .lost) :: rest →
    let due := time + policy.delay (Marks.waits front)
    rest.head? = if due ≤ r.now then some (due, .begun) else none
  /-- No attempt but the first one begins without a loss directly before it. -/
  between : r.marks.IsChain Follows
  /-- The session does not give up. -/
  running : r.session.running = true

/-- What has been noted obeys the rule if it is the front of a timeline, and the rest is later. -/
theorem paced_of_front {policy : Backoff} {start : Nat} {script : List Attempt} {r : Rehearsal}
    (hrunning : r.session.running = true) (hpast : ∀ mark ∈ r.marks, mark.1 ≤ r.now)
    (hstart : start ≤ r.now) {later : Marks}
    (hwhole : r.marks ++ later = timeline policy 0 start script)
    (hlater : ∀ mark ∈ later, r.now < mark.1) : Paced policy start script r := by
  have hnone : Marks.waits [] = 0 := rfl
  obtain ⟨hagain, hchain⟩ := timeline_obeys policy script [] start hnone
  constructor
  case running => exact hrunning
  case scripted =>
    have hfront : r.marks.filter (·.1 ≤ r.now) = r.marks := by
      rw [List.filter_eq_self]
      exact fun mark hmark => decide_eq_true (hpast mark hmark)
    have hrest : later.filter (·.1 ≤ r.now) = [] := by
      rw [List.filter_eq_nil_iff]
      intro mark hmark
      rw [decide_eq_true_eq]
      exact Nat.not_le.mpr (hlater mark hmark)
    rw [← hwhole, List.filter_append, hfront, hrest, List.append_nil]
  case first =>
    obtain ⟨rest, hbegins⟩ := timeline_begins policy 0 start script
    rw [hbegins] at hwhole
    cases hmarks : r.marks with
    | nil =>
      rw [hmarks, List.nil_append] at hwhole
      have hlate := hlater (start, .begun) (hwhole ▸ List.mem_cons_self ..)
      exact absurd hstart (Nat.not_le.mpr hlate)
    | cons mark marks =>
      rw [hmarks, List.cons_append] at hwhole
      rw [(List.cons.inj hwhole).1, List.head?_cons]
  case again =>
    intro front time rest hmarks due
    have hhead : (rest ++ later).head? = some (due, .begun) := by
      refine hagain front time (rest ++ later) ?_
      rw [← hwhole, hmarks, List.append_assoc, List.cons_append]
    cases rest with
    | nil =>
      have hlate := hlater _ (List.mem_of_mem_head? hhead)
      rw [if_neg (Nat.not_le.mpr hlate), List.head?_nil]
    | cons mark rest =>
      obtain rfl : mark = (due, .begun) := Option.some.inj hhead
      have hdue : due ≤ r.now := hpast (due, .begun) (by simp [hmarks])
      rw [if_pos hdue, List.head?_cons]
  case between =>
    rw [← hwhole] at hchain
    exact hchain.left_of_append

/-- **A session connects again exactly when its policy says so.** Whatever a script holds and
whatever a host does short of stopping, at the end of every stretch of time each attempt that
failed and each connection that was lost has been followed, after the wait of the policy for as
many waits as came since a connection was last opened, by one attempt; there are no others. -/
theorem paced_run (target : Target) (policy : Backoff) (registry : Registry)
    (script : List Attempt) (start : Nat) (calls : List Call) (milliseconds : Nat) :
    Paced policy start script
      (((begin target policy registry script start).run calls).advance milliseconds) := by
  have htimely := timely_run (timely_begin target policy registry script start) calls
  obtain ⟨⟨e, waits, hpace⟩, hpast, hstart⟩ := timely_perform htimely (.advance milliseconds)
  obtain ⟨d, waits, hbefore⟩ := htimely.1
  have hnow : ((begin target policy registry script start).run calls).now ≤
      ((begin target policy registry script start).run calls).now + milliseconds :=
    Nat.le_add_right ..
  obtain ⟨-, -, later, hwhole, hlater⟩ :=
    hbefore.advanceTo (fun mark hmark => Nat.le_trans (htimely.2.1 mark hmark) hnow) hnow
  exact paced_of_front hpace.running hpast hstart hwhole hlater

/-- Two attempts are refused, the third is served and the connection lost; its turn is the first
again. -/
example :
    ((begin ⟨"ws://h/ws", ⟨"c", by decide⟩⟩ (.doubling 100 1000) {} [.refuse 5 "busy",
      .refuse 5 "busy", .serve 3 [⟨7, .failed .closed⟩]] 0).advance 420).marks =
    [(0, .begun), (5, .lost), (105, .begun), (110, .lost), (310, .begun), (313, .opened),
      (320, .lost), (420, .begun)] := by
  decide +kernel

end Rehearsal
end LiveTail.Link
