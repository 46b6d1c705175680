import LiveTail.Link.Session

/-! Who owns a session.

A session may be stopped and started again before its cancelled driver has noticed, so
drivers of several starts can be unwinding at once. `Orderly` is what holds whatever
they do and in whatever order: only the driver of the newest start can be at work, its
phase is the status that is shown, and once it has ended the session is shown as
disconnected. From this follow the rules that others rely on (`protocol_run`): a
cancelled driver does nothing more but end, and no driver speaks over a later start. -/
namespace LiveTail.Link

/-! ### What a driver does when it runs -/

/-- One run of a driver, from one wait to the next. -/
inductive Driver.Resumed (d : Driver) (policy : Backoff) (r : Registry) (generation : Nat)
    (outcome : Outcome) : Prop
  /-- It has ended, or what it waits for has not come. -/
  | idle (hidle : d.phase = .ended ∨ d.cancelled = false)
      (hresume : d.resume policy r generation outcome = ([], d))
  | finishes (hphase : d.phase ≠ .ended) (hcancelled : d.cancelled = true)
      (hresume : d.resume policy r generation outcome = d.finish generation)
  | connects (hcancelled : d.cancelled = false)
      (hresume : d.resume policy r generation outcome = d.connect)
  | opens (hphase : d.phase = .connecting) (hcancelled : d.cancelled = false)
      (hresume : d.resume policy r generation outcome = d.opened)
  | loses (hcancelled : d.cancelled = false)
      (hresume : d.resume policy r generation outcome = d.lost policy)
  | reads (text : String) (houtcome : outcome = .frame text) (hphase : d.phase = .reading)
      (hcancelled : d.cancelled = false)
      (hresume : d.resume policy r generation outcome = (r.deliver text ++ [.read], d))

theorem Driver.resumed (d : Driver) (policy : Backoff) (r : Registry) (generation : Nat)
    (outcome : Outcome) : d.Resumed policy r generation outcome := by
  obtain ⟨owner, cancelled, phase, attempt⟩ := d
  cases hcancelled : cancelled with
  | true =>
    by_cases hphase : phase = .ended
    · subst hphase
      exact .idle (.inl rfl) (by simp [resume])
    · refine .finishes hphase rfl ?_
      cases phase <;> first | rfl | exact absurd rfl hphase
  | false =>
    cases phase with
    | created => exact .connects rfl (by cases outcome <;> rfl)
    | connecting =>
      cases outcome with
      | connected => exact .opens rfl rfl rfl
      | failed e => exact .loses rfl rfl
      | _ => exact .idle (.inr rfl) rfl
    | reading =>
      cases outcome with
      | frame text => exact .reads text rfl rfl rfl rfl
      | failed e => exact .loses rfl rfl
      | _ => exact .idle (.inr rfl) rfl
    | waiting =>
      cases outcome with
      | elapsed => exact .connects rfl rfl
      | _ => exact .idle (.inr rfl) rfl
    | ended => exact .idle (.inl rfl) (by cases outcome <;> rfl)

/-- The status an act publishes. -/
def Act.published? : Act → Option Status
  | .publish status => some status
  | _ => none

/-- What a frame leads to publishes nothing. -/
theorem Registry.published_deliver (r : Registry) (text : String) :
    (r.deliver text).filterMap Act.published? = [] := by
  rw [List.filterMap_eq_nil_iff]
  intro a ha
  unfold deliver at ha
  split at ha
  · obtain ⟨id, -, rfl⟩ := List.mem_map.mp ha
    rfl
  · obtain rfl := List.mem_singleton.mp ha
    rfl

/-- The status that is shown while a driver waits. -/
def Phase.status : Phase → Status
  | created | connecting => .connecting
  | reading => .opened
  | waiting | ended => .disconnected

theorem Phase.status_ne_closing (p : Phase) : p.status ≠ .closing := by
  cases p <;> nofun

namespace Session

/-- The status after some acts is the last one they publish. -/
theorem follow_eq (status : Status) (acts : List Act) :
    follow status acts = (acts.filterMap Act.published?).getLast?.getD status := by
  induction acts generalizing status with
  | nil => rfl
  | cons a rest ih =>
    show follow (match a with | .publish s => s | _ => status) rest = _
    rw [ih, List.filterMap_cons]
    cases a <;> simp [Act.published?, List.getLast?_cons]

/-! ### What always holds -/

structure Orderly (s : Session) : Prop where
  generation : s.generation = s.drivers.length
  owner : ∀ (place : Nat) (d : Driver), s.drivers[place]? = some d → d.owner = place + 1
  /-- Only the driver of the newest start may not be cancelled; it is the one held. -/
  live : ∀ (place : Nat) (d : Driver), s.drivers[place]? = some d → d.cancelled = false →
    s.held = some place ∧ place + 1 = s.drivers.length
  held : ∀ place, s.held = some place →
    ∃ d, s.drivers[place]? = some d ∧ d.cancelled = false
  shown : ∀ (place : Nat) (d : Driver), s.drivers[place]? = some d → d.cancelled = false →
    d.phase ≠ .ended ∧ s.status = d.phase.status
  ended : ∀ (place : Nat) (d : Driver), s.drivers[place]? = some d → place + 1 = s.drivers.length →
    d.phase = .ended → s.status = .disconnected

theorem orderly_new (target : Target) (policy : Backoff) (registry : Registry) :
    Orderly { target, policy, registry } := by
  constructor <;> simp

/-- Only what a session knows of its drivers counts. -/
theorem Orderly.of_drivers {s t : Session} (h : Orderly s) (hdrivers : t.drivers = s.drivers)
    (hgeneration : t.generation = s.generation) (hheld : t.held = s.held)
    (hstatus : t.status = s.status) : Orderly t := by
  constructor
  · rw [hgeneration, hdrivers, h.generation]
  · rw [hdrivers]
    exact h.owner
  · rw [hdrivers, hheld]
    exact h.live
  · rw [hdrivers, hheld]
    exact h.held
  · rw [hdrivers, hstatus]
    exact h.shown
  · rw [hdrivers, hstatus]
    exact h.ended

/-- A session runs exactly while it holds a driver. -/
theorem Orderly.running_iff {s : Session} (h : Orderly s) :
    s.running = true ↔ s.held ≠ none := by
  unfold running
  cases hheld : s.held with
  | none => simp
  | some place =>
    obtain ⟨d, hd, hcancelled⟩ := h.held place hheld
    simp [hd, hcancelled, (h.shown place d hd hcancelled).1]

/-- A session that holds no driver has cancelled them all. -/
theorem Orderly.cancelled_of_idle {s : Session} (h : Orderly s) (hidle : s.held = none)
    {place : Nat} {d : Driver} (hd : s.drivers[place]? = some d) : d.cancelled = true := by
  rw [← Bool.not_eq_false]
  intro hcancelled
  have := (h.live place d hd hcancelled).1
  simp [hidle] at this

theorem lt_of_driver {s : Session} {place : Nat} {d : Driver} (hd : s.drivers[place]? = some d) :
    place < s.drivers.length := (List.getElem?_eq_some_iff.mp hd).1

/-! ### What a session is told -/

theorem orderly_start {s : Session} (h : Orderly s) : Orderly s.start.2 := by
  unfold start
  split
  · exact h
  next hidle =>
    have hidle : s.held = none := by
      rw [h.running_iff] at hidle
      simpa using hidle
    -- The new driver is the last; every other is cancelled.
    have hcases : ∀ (place : Nat) (d : Driver),
        (s.drivers ++ [{ owner := s.generation + 1 }])[place]? = some d →
        (s.drivers[place]? = some d ∧ d.cancelled = true ∧ place < s.drivers.length) ∨
          (place = s.drivers.length ∧ d = { owner := s.generation + 1 }) := by
      intro place d hd
      rcases Nat.lt_or_ge place s.drivers.length with hlt | hge
      · rw [List.getElem?_append_left hlt] at hd
        exact .inl ⟨hd, h.cancelled_of_idle hidle hd, hlt⟩
      · rw [List.getElem?_append_right hge, List.getElem?_singleton] at hd
        simp only [Option.ite_none_right_eq_some, Option.some.injEq] at hd
        exact .inr ⟨by omega, hd.2.symm⟩
    constructor
    case generation => simp [h.generation]
    case owner =>
      intro place d hd
      rcases hcases place d hd with ⟨hd, -, -⟩ | ⟨rfl, rfl⟩
      · exact h.owner place d hd
      · simp [h.generation]
    case live =>
      intro place d hd hlive
      rcases hcases place d hd with ⟨-, hcancelled, -⟩ | ⟨rfl, rfl⟩
      · simp [hcancelled] at hlive
      · simp
    case held =>
      intro place hplace
      simp only [Option.some.injEq] at hplace
      subst hplace
      exact ⟨{ owner := s.generation + 1 }, by simp, rfl⟩
    case shown =>
      intro place d hd hlive
      rcases hcases place d hd with ⟨-, hcancelled, -⟩ | ⟨rfl, rfl⟩
      · simp [hcancelled] at hlive
      · exact ⟨by simp, rfl⟩
    case ended =>
      intro place d hd hlast hended
      rcases hcases place d hd with ⟨-, -, hlt⟩ | ⟨rfl, rfl⟩
      · simp only [List.length_append, List.length_singleton] at hlast
        omega
      · cases hended

/-- Cancelling changes nothing but the mark of the driver held. -/
theorem driver_cancel {s : Session} {place : Nat} {d : Driver}
    (hd : s.cancel.drivers[place]? = some d) :
    ∃ e, s.drivers[place]? = some e ∧ d.owner = e.owner ∧ d.phase = e.phase ∧
      (e.cancelled = true → d.cancelled = true) ∧ (s.held = some place → d.cancelled = true) := by
  unfold cancel at hd
  split at hd
  next held hheld =>
    rw [List.getElem?_modify] at hd
    obtain ⟨e, he, rfl⟩ := Option.map_eq_some_iff.mp hd
    refine ⟨e, he, ?_⟩
    split <;> simp_all
  next hheld => exact ⟨d, hd, rfl, rfl, id, by simp [hheld]⟩

theorem length_cancel (s : Session) : s.cancel.drivers.length = s.drivers.length := by
  unfold cancel
  split
  · exact List.length_modify ..
  · rfl

theorem held_cancel (s : Session) : s.cancel.held = none := by
  unfold cancel
  split
  · rfl
  next hheld => exact hheld

theorem generation_cancel (s : Session) : s.cancel.generation = s.generation := by
  unfold cancel
  split <;> rfl

theorem status_cancel (s : Session) : s.cancel.status = s.status := by
  unfold cancel
  split <;> rfl

/-- Cancelling, whatever status is shown for a driver that was at work. -/
theorem orderly_cancel {s t : Session} (h : Orderly s) (hdrivers : t.drivers = s.drivers)
    (hheld : t.held = s.held) (hgeneration : t.generation = s.generation)
    (hstatus : s.held = none → t.status = s.status) : Orderly t.cancel := by
  have hall : ∀ (place : Nat) (d : Driver), t.cancel.drivers[place]? = some d →
      d.cancelled = true := by
    intro place d hd
    obtain ⟨e, he, -, -, hkept, hnew⟩ := driver_cancel hd
    rw [hdrivers] at he
    cases hcancelled : e.cancelled with
    | true => exact hkept hcancelled
    | false =>
      rw [hheld] at hnew
      exact hnew (h.live place e he hcancelled).1
  constructor
  case generation => rw [generation_cancel, length_cancel, hgeneration, hdrivers, h.generation]
  case owner =>
    intro place d hd
    obtain ⟨e, he, howner, -⟩ := driver_cancel hd
    rw [hdrivers] at he
    rw [howner, h.owner place e he]
  case live =>
    intro place d hd hlive
    simp [hall place d hd] at hlive
  case held =>
    intro place hplace
    simp [held_cancel] at hplace
  case shown =>
    intro place d hd hlive
    simp [hall place d hd] at hlive
  case ended =>
    intro place d hd hlast hended
    obtain ⟨e, he, -, hphase, -⟩ := driver_cancel hd
    rw [length_cancel, hdrivers] at hlast
    rw [hdrivers] at he
    rw [hphase] at hended
    -- The newest driver has ended, so none is held and the status is its own.
    have hidle : s.held = none := by
      cases hs : s.held with
      | none => rfl
      | some other =>
        obtain ⟨f, hf, hcancelled⟩ := h.held other hs
        have hother := (h.live other f hf hcancelled).2
        have hsame : other = place := by omega
        rw [hsame, he, Option.some.injEq] at hf
        subst hf
        exact absurd hended (h.shown place e he hcancelled).1
    rw [status_cancel, hstatus hidle]
    exact h.ended place e he hlast hended

theorem orderly_stop {s : Session} (h : Orderly s) : Orderly s.stop.2 := by
  unfold stop
  split
  next hlive =>
    refine orderly_cancel h (t := { s with status := .closing }) rfl rfl rfl fun hidle => ?_
    simp [hidle] at hlive
  next => exact orderly_cancel h rfl rfl rfl fun _ => rfl

/-! ### What its drivers do -/

/-- The drivers after one of them has run. -/
theorem driver_set {drivers : List Driver} {place other : Nat} {d e : Driver}
    (hplace : place < drivers.length) (h : (drivers.set place d)[other]? = some e) :
    (other = place ∧ e = d) ∨ (other ≠ place ∧ drivers[other]? = some e) := by
  by_cases heq : other = place
  · subst heq
    rw [List.getElem?_set_self hplace, Option.some.injEq] at h
    exact .inl ⟨rfl, h.symm⟩
  · rw [List.getElem?_set_ne (Ne.symm heq)] at h
    exact .inr ⟨heq, h⟩

theorem set_driver {drivers : List Driver} {place : Nat} {d : Driver}
    (h : drivers[place]? = some d) : drivers.set place d = drivers := by
  obtain ⟨_, rfl⟩ := List.getElem?_eq_some_iff.mp h
  exact List.set_getElem_self ..

theorem resume_eq {s : Session} {place : Nat} {d e : Driver} {outcome : Outcome} {acts : List Act}
    (hd : s.drivers[place]? = some d)
    (hresume : d.resume s.policy s.registry s.generation outcome = (acts, e)) :
    s.resume place outcome =
      (acts, { s with status := follow s.status acts, drivers := s.drivers.set place e }) := by
  simp only [resume, hd, hresume]

/-- A driver at work goes on to another wait and shows it. -/
theorem orderly_advance {s : Session} (h : Orderly s) {place : Nat} {d e : Driver}
    {outcome : Outcome} {acts : List Act} (hd : s.drivers[place]? = some d)
    (hlive : d.cancelled = false)
    (hresume : d.resume s.policy s.registry s.generation outcome = (acts, e))
    (howner : e.owner = d.owner) (hcancelled : e.cancelled = d.cancelled)
    (hphase : e.phase ≠ .ended) (hstatus : follow s.status acts = e.phase.status) :
    Orderly (s.resume place outcome).2 := by
  rw [resume_eq hd hresume]
  obtain ⟨hheld, hlast⟩ := h.live place d hd hlive
  have hplace := lt_of_driver hd
  have hlength : (s.drivers.set place e).length = s.drivers.length := List.length_set ..
  -- No other driver is at work, and no other is the newest.
  have hothers : ∀ (other : Nat) (f : Driver), other ≠ place → s.drivers[other]? = some f →
      f.cancelled = true ∧ other + 1 ≠ s.drivers.length := by
    intro other f hne hf
    refine ⟨?_, by omega⟩
    rw [← Bool.not_eq_false]
    intro hother
    have := (h.live other f hf hother).1
    rw [hheld, Option.some.injEq] at this
    exact hne this.symm
  constructor
  case generation => rw [hlength, h.generation]
  case owner =>
    intro other f hf
    rcases driver_set hplace hf with ⟨rfl, rfl⟩ | ⟨-, hf⟩
    · rw [howner, h.owner other d hd]
    · exact h.owner other f hf
  case live =>
    intro other f hf hother
    rcases driver_set hplace hf with ⟨rfl, rfl⟩ | ⟨hne, hf⟩
    · exact ⟨hheld, by rw [hlength, hlast]⟩
    · simp [(hothers other f hne hf).1] at hother
  case held =>
    intro other hother
    have hsame : other = place := by
      rw [hheld, Option.some.injEq] at hother
      exact hother.symm
    subst hsame
    refine ⟨e, ?_, by rw [hcancelled, hlive]⟩
    show (s.drivers.set other e)[other]? = some e
    rw [List.getElem?_set_self hplace]
  case shown =>
    intro other f hf hother
    rcases driver_set hplace hf with ⟨rfl, rfl⟩ | ⟨hne, hf⟩
    · exact ⟨hphase, hstatus⟩
    · simp [(hothers other f hne hf).1] at hother
  case ended =>
    intro other f hf hnewest hended
    rcases driver_set hplace hf with ⟨rfl, rfl⟩ | ⟨hne, hf⟩
    · exact absurd hended hphase
    · rw [hlength] at hnewest
      exact absurd hnewest (hothers other f hne hf).2

/-- A cancelled driver ends, and says so if no start was made after its own. -/
theorem resume_cancelled {s : Session} (h : Orderly s) {place : Nat} {d : Driver}
    (hd : s.drivers[place]? = some d) (hcancelled : d.cancelled = true) (outcome : Outcome) :
    s.resume place outcome =
      if d.phase = .ended then ([], s)
      else if place + 1 = s.drivers.length then
        ([.publish .disconnected],
          { s with
            status := .disconnected, drivers := s.drivers.set place { d with phase := .ended } })
      else ([], { s with drivers := s.drivers.set place { d with phase := .ended } }) := by
  cases d.resumed s.policy s.registry s.generation outcome with
  | idle hidle hresume =>
    have hended : d.phase = .ended := by simpa [hcancelled] using hidle
    rw [resume_eq hd hresume, if_pos hended, set_driver hd]
    rfl
  | finishes hphase _ hresume =>
    have hnewest : d.owner = s.generation ↔ place + 1 = s.drivers.length := by
      rw [h.owner place d hd, h.generation]
    rw [Driver.finish] at hresume
    simp only [hnewest] at hresume
    rw [resume_eq hd hresume, if_neg hphase]
    by_cases hlast : place + 1 = s.drivers.length
    · rw [if_pos hlast, if_pos hlast]
      rfl
    · rw [if_neg hlast, if_neg hlast]
      rfl
  | connects hlive => simp [hcancelled] at hlive
  | opens _ hlive => simp [hcancelled] at hlive
  | loses hlive => simp [hcancelled] at hlive
  | reads _ _ _ hlive => simp [hcancelled] at hlive

theorem orderly_resume_cancelled {s : Session} (h : Orderly s) {place : Nat} {d : Driver}
    (hd : s.drivers[place]? = some d) (hcancelled : d.cancelled = true) (outcome : Outcome) :
    Orderly (s.resume place outcome).2 := by
  have hplace := lt_of_driver hd
  have hlength : (s.drivers.set place { d with phase := .ended }).length = s.drivers.length :=
    List.length_set ..
  rw [resume_cancelled h hd hcancelled outcome]
  split
  · exact h
  -- Whatever status comes of it, what is at work shows its own.
  have key : ∀ status : Status,
      (∀ (other : Nat) (f : Driver), s.drivers[other]? = some f → f.cancelled = false →
        status = s.status) →
      (place + 1 = s.drivers.length → status = .disconnected) →
      (place + 1 ≠ s.drivers.length → status = s.status) →
      Orderly { s with
        status, drivers := s.drivers.set place { d with phase := .ended } } := by
    intro status hlive hnewest holder
    constructor
    case generation => rw [hlength, h.generation]
    case owner =>
      intro other f hf
      rcases driver_set hplace hf with ⟨rfl, rfl⟩ | ⟨-, hf⟩
      · exact h.owner other d hd
      · exact h.owner other f hf
    case live =>
      intro other f hf hother
      rcases driver_set hplace hf with ⟨rfl, rfl⟩ | ⟨-, hf⟩
      · simp [hcancelled] at hother
      · rw [hlength]
        exact h.live other f hf hother
    case held =>
      intro other hother
      obtain ⟨f, hf, hlive⟩ := h.held other hother
      refine ⟨f, ?_, hlive⟩
      have hne : place ≠ other := by
        rintro rfl
        rw [hd, Option.some.injEq] at hf
        subst hf
        simp [hcancelled] at hlive
      show (s.drivers.set place _)[other]? = some f
      rw [List.getElem?_set_ne hne, hf]
    case shown =>
      intro other f hf hother
      rcases driver_set hplace hf with ⟨rfl, rfl⟩ | ⟨-, hf⟩
      · simp [hcancelled] at hother
      · obtain ⟨hphase, hshown⟩ := h.shown other f hf hother
        exact ⟨hphase, (hlive other f hf hother).trans hshown⟩
    case ended =>
      intro other f hf hlast hended
      rw [hlength] at hlast
      rcases driver_set hplace hf with ⟨rfl, rfl⟩ | ⟨hne, hf⟩
      · exact hnewest hlast
      · exact (holder (by omega)).trans (h.ended other f hf hlast hended)
  split
  next hlast =>
    refine key .disconnected (fun other f hf hlive => ?_) (fun _ => rfl)
      (fun hne => absurd hlast hne)
    -- The newest driver is cancelled, so none is at work.
    have hother := (h.live other f hf hlive).2
    have hsame : other = place := by omega
    rw [hsame, hd, Option.some.injEq] at hf
    subst hf
    simp [hcancelled] at hlive
  next hlast => exact key s.status (fun _ _ _ _ => rfl) (fun h => absurd h hlast) (fun _ => rfl)

theorem orderly_resume {s : Session} (h : Orderly s) (place : Nat) (outcome : Outcome) :
    Orderly (s.resume place outcome).2 := by
  cases hd : s.drivers[place]? with
  | none => rwa [resume, hd]
  | some d =>
    cases hcancelled : d.cancelled with
    | true => exact orderly_resume_cancelled h hd hcancelled outcome
    | false =>
      have hshown := h.shown place d hd hcancelled
      cases d.resumed s.policy s.registry s.generation outcome with
      | idle _ hresume =>
        rw [resume_eq hd hresume, set_driver hd]
        exact h.of_drivers rfl rfl rfl rfl
      | finishes _ hlate => simp [hcancelled] at hlate
      | connects _ hresume => exact orderly_advance h hd hcancelled hresume rfl rfl nofun rfl
      | opens _ _ hresume => exact orderly_advance h hd hcancelled hresume rfl rfl nofun rfl
      | loses _ hresume => exact orderly_advance h hd hcancelled hresume rfl rfl nofun rfl
      | reads text _ _ _ hresume =>
        refine orderly_advance h hd hcancelled hresume rfl rfl hshown.1 ?_
        rw [follow_eq, List.filterMap_append, Registry.published_deliver]
        exact hshown.2

theorem orderly_step {s : Session} (h : Orderly s) (e : Event) : Orderly (s.step e).2 := by
  cases e with
  | start => exact orderly_start h
  | stop => exact orderly_stop h
  | drop => exact orderly_cancel h rfl rfl rfl fun _ => rfl
  | subscribe kind => exact h.of_drivers rfl rfl rfl rfl
  | unsubscribe id => exact h.of_drivers rfl rfl rfl rfl
  | resume place outcome => exact orderly_resume h place outcome

theorem orderly_run {s : Session} (h : Orderly s) (events : List Event) :
    Orderly (s.run events).2 := by
  induction events generalizing s with
  | nil => exact h
  | cons e rest ih => exact ih (orderly_step h e)

/-! ### What is published -/

/-- The statuses that a step may publish. -/
theorem published_step {s : Session} (h : Orderly s) {e : Event} {status : Status}
    (hmem : Act.publish status ∈ (s.step e).1) :
    (status = .connecting ∧ (e = .start ∨ s.status ≠ .closing)) ∨
      (status = .closing ∧ e = .stop ∧ s.status ≠ .closing) ∨
      (status = .opened ∧ s.status = .connecting) ∨ status = .disconnected := by
  have hworking : ∀ {place : Nat} {d : Driver}, s.drivers[place]? = some d →
      d.cancelled = false → s.status ≠ .closing := by
    intro place d hd hlive
    rw [(h.shown place d hd hlive).2]
    exact Phase.status_ne_closing _
  cases e with
  | start =>
    simp only [step, start] at hmem
    split at hmem <;> simp_all
  | stop =>
    simp only [step, stop] at hmem
    split at hmem
    next hlive =>
      obtain rfl : status = .closing := by simpa using hmem
      simp only [Option.any_eq_true, Bool.not_eq_true'] at hlive
      obtain ⟨place, -, d, hd, hlive⟩ := hlive
      exact .inr (.inl ⟨rfl, rfl, hworking hd hlive⟩)
    next => cases hmem
  | drop => cases hmem
  | subscribe kind => cases hmem
  | unsubscribe id => cases hmem
  | resume place outcome =>
    simp only [step, resume] at hmem
    cases hd : s.drivers[place]? with
    | none => simp [hd] at hmem
    | some d =>
      simp only [hd] at hmem
      cases d.resumed s.policy s.registry s.generation outcome with
      | idle _ hresume => simp [hresume] at hmem
      | finishes _ _ hresume =>
        rw [hresume, Driver.finish] at hmem
        split at hmem <;> simp_all
      | connects hlive hresume =>
        obtain rfl : status = .connecting := by simpa [hresume, Driver.connect] using hmem
        exact .inl ⟨rfl, .inr (hworking hd hlive)⟩
      | opens hphase hlive hresume =>
        obtain rfl : status = .opened := by simpa [hresume, Driver.opened] using hmem
        exact .inr (.inr (.inl ⟨rfl, by rw [(h.shown place d hd hlive).2, hphase, Phase.status]⟩))
      | loses _ hresume =>
        exact .inr (.inr (.inr (by simpa [hresume, Driver.lost] using hmem)))
      | reads text _ _ _ hresume =>
        have hnone := List.filterMap_eq_nil_iff.mp (s.registry.published_deliver text)
          (.publish status)
        simp [hresume, Act.published?] at hmem hnone
        exact absurd hmem hnone

/-- A step publishes at most one status, and it is the one that is shown then. -/
theorem once_step (s : Session) (e : Event) :
    ((s.step e).1.filterMap Act.published?).length ≤ 1 ∧
      (s.step e).2.status = follow s.status (s.step e).1 := by
  cases e with
  | start =>
    simp only [step, start]
    split <;> exact ⟨by simp [Act.published?], rfl⟩
  | stop =>
    simp only [step, stop]
    split <;> exact ⟨by simp [Act.published?], status_cancel _⟩
  | drop => exact ⟨by simp [step], status_cancel s⟩
  | subscribe kind => exact ⟨by simp [step], rfl⟩
  | unsubscribe id => exact ⟨by simp [step], rfl⟩
  | resume place outcome =>
    simp only [step, resume]
    cases hd : s.drivers[place]? with
    | none => exact ⟨by simp, rfl⟩
    | some d =>
      refine ⟨?_, rfl⟩
      cases d.resumed s.policy s.registry s.generation outcome with
      | idle _ hresume => simp [hresume]
      | finishes _ _ hresume =>
        simp only [hresume, Driver.finish]
        split <;> simp [Act.published?]
      | connects _ hresume => simp [hresume, Driver.connect, Act.published?]
      | opens _ _ hresume => simp [hresume, Driver.opened, Act.published?]
      | loses _ hresume => simp [hresume, Driver.lost, Act.published?]
      | reads text _ _ _ hresume =>
        simp only [hresume, List.filterMap_append, Registry.published_deliver]
        exact Nat.zero_le 1

/-! ### Drivers that are cancelled -/

/-- What the driver at a place does in a history. -/
def actsOf (s : Session) (place : Nat) : List Event → List Act
  | [] => []
  | e :: rest =>
    (match e with
      | .resume p outcome => if p = place then (s.resume p outcome).1 else []
      | _ => []) ++ (s.step e).2.actsOf place rest

theorem cancel_driver {s : Session} {place : Nat} {d : Driver} (hd : s.drivers[place]? = some d)
    (hcancelled : d.cancelled = true) : s.cancel.drivers[place]? = some d := by
  unfold cancel
  split
  · rw [List.getElem?_modify, hd]
    obtain ⟨owner, cancelled, phase, attempt⟩ := d
    obtain rfl := hcancelled
    simp
  · exact hd

/-- Only its own run changes a driver that is cancelled. -/
theorem cancelled_step {s : Session} {place : Nat} {d : Driver}
    (hd : s.drivers[place]? = some d) (hcancelled : d.cancelled = true) {e : Event}
    (hother : ∀ outcome, e ≠ .resume place outcome) : (s.step e).2.drivers[place]? = some d := by
  cases e with
  | start =>
    simp only [step, start]
    split
    · exact hd
    · rw [List.getElem?_append_left (lt_of_driver hd), hd]
  | stop =>
    simp only [step, stop]
    split <;> exact cancel_driver hd hcancelled
  | drop => exact cancel_driver hd hcancelled
  | subscribe kind => exact hd
  | unsubscribe id => exact hd
  | resume p outcome =>
    have hne : p ≠ place := fun heq => hother outcome (by rw [heq])
    simp only [step, resume]
    split
    · show (s.drivers.set p _)[place]? = some d
      rw [List.getElem?_set_ne hne, hd]
    · exact hd

theorem actsOf_other {s : Session} {place : Nat} {e : Event} (rest : List Event)
    (hother : ∀ outcome, e ≠ .resume place outcome) :
    s.actsOf place (e :: rest) = (s.step e).2.actsOf place rest := by
  cases e with
  | resume p outcome =>
    have hne : p ≠ place := fun heq => hother outcome (by rw [heq])
    simp [actsOf, hne]
  | _ => rfl

theorem resume_or (place : Nat) (e : Event) :
    (∃ outcome, e = .resume place outcome) ∨ ∀ outcome, e ≠ .resume place outcome := by
  by_cases h : ∃ outcome, e = .resume place outcome
  · exact .inl h
  · exact .inr fun outcome heq => h ⟨outcome, heq⟩

theorem actsOf_ended {s : Session} (h : Orderly s) {place : Nat} {d : Driver}
    (hd : s.drivers[place]? = some d) (hcancelled : d.cancelled = true) (hended : d.phase = .ended)
    (later : List Event) : s.actsOf place later = [] := by
  induction later generalizing s with
  | nil => rfl
  | cons e rest ih =>
    rcases resume_or place e with ⟨outcome, rfl⟩ | hother
    · have hresume := resume_cancelled h hd hcancelled outcome
      rw [if_pos hended] at hresume
      simpa [actsOf, step, hresume] using ih h hd
    · rw [actsOf_other rest hother]
      exact ih (orderly_step h e) (cancelled_step hd hcancelled hother)

/-- All that a cancelled driver still does is to say that it has ended, once, and only if no
start was made after its own until then. -/
def Silent (s : Session) (place : Nat) (later : List Event) : Prop :=
  s.actsOf place later = [] ∨
    s.actsOf place later = [.publish .disconnected] ∧
      ∃ before outcome after, later = before ++ .resume place outcome :: after ∧
        s.actsOf place before = [] ∧ place + 1 = (s.run before).2.drivers.length

theorem silent_run {s : Session} (h : Orderly s) {place : Nat} {d : Driver}
    (hd : s.drivers[place]? = some d) (hcancelled : d.cancelled = true) (later : List Event) :
    s.Silent place later := by
  induction later generalizing s with
  | nil => exact .inl rfl
  | cons e rest ih =>
    rcases resume_or place e with ⟨outcome, rfl⟩ | hother
    · have hafter := resume_cancelled h hd hcancelled outcome
      have horderly := orderly_resume h place outcome
      have hplace := lt_of_driver hd
      split at hafter
      next =>
        left
        simpa [actsOf, step, hafter] using actsOf_ended h hd hcancelled ‹_› rest
      have hset := List.getElem?_set_self (a := { d with phase := .ended }) hplace
      split at hafter
      next hlast =>
        rw [hafter] at horderly
        refine .inr ⟨?_, [], outcome, rest, rfl, rfl, hlast⟩
        simpa [actsOf, step, hafter] using actsOf_ended horderly hset hcancelled rfl rest
      next =>
        rw [hafter] at horderly
        left
        simpa [actsOf, step, hafter] using actsOf_ended horderly hset hcancelled rfl rest
    · rcases ih (orderly_step h e) (cancelled_step hd hcancelled hother) with
        hnone | ⟨hone, before, outcome, after, rfl, hbefore, hlast⟩
      · exact .inl (by rw [actsOf_other rest hother, hnone])
      · refine .inr ⟨by rw [actsOf_other _ hother, hone], e :: before, outcome, after, rfl, ?_,
          hlast⟩
        rw [actsOf_other before hother, hbefore]

/-! ### The rules -/

/-- The rules that a session and its drivers keep. -/
structure Protocol (s : Session) : Prop where
  /-- At most one driver is not cancelled. -/
  sole : ∀ (i j : Nat) (d e : Driver), s.drivers[i]? = some d → s.drivers[j]? = some e →
    d.cancelled = false → e.cancelled = false → i = j
  silent : ∀ (place : Nat) (d : Driver), s.drivers[place]? = some d → d.cancelled = true →
    ∀ later, s.Silent place later
  /-- A driver that is not the newest leaves the status alone. -/
  stale : ∀ (place : Nat) (outcome : Outcome), place + 1 < s.drivers.length →
    (s.resume place outcome).1 = [] ∧ (s.resume place outcome).2.status = s.status
  opened : ∀ e, .publish .opened ∈ (s.step e).1 → s.status = .connecting
  closing : ∀ e, .publish .closing ∈ (s.step e).1 → e = .stop
  /-- What may follow while a stopped driver has not noticed. -/
  after_closing : s.status = .closing → ∀ e status, .publish status ∈ (s.step e).1 →
    status = .disconnected ∨ status = .connecting ∧ e = .start
  /-- The status shown is the one published last, and no step publishes two. -/
  shown : ∀ e, ((s.step e).1.filterMap Act.published?).length ≤ 1 ∧
    (s.step e).2.status = follow s.status (s.step e).1
  /-- A stop cancels every driver. -/
  stopped : ∀ (place : Nat) (d : Driver), s.stop.2.drivers[place]? = some d → d.cancelled = true
  /-- A cancelled driver ends when it runs next, whatever it waited for. -/
  ends : ∀ (place : Nat) (d : Driver) (outcome : Outcome), s.drivers[place]? = some d →
    d.cancelled = true →
    ∃ e, (s.resume place outcome).2.drivers[place]? = some e ∧ e.phase = .ended
  ended : ∀ (place : Nat) (d : Driver), s.drivers[place]? = some d →
    place + 1 = s.drivers.length → d.phase = .ended → s.status = .disconnected

theorem Orderly.protocol {s : Session} (h : Orderly s) : Protocol s where
  sole i j d e hd he hlive hother := by
    have hi := (h.live i d hd hlive).2
    have hj := (h.live j e he hother).2
    omega
  silent place d hd hcancelled later := silent_run h hd hcancelled later
  stale place outcome hlater := by
    obtain ⟨d, hd⟩ : ∃ d, s.drivers[place]? = some d := ⟨_, List.getElem?_eq_getElem (by omega)⟩
    have hcancelled : d.cancelled = true := by
      rw [← Bool.not_eq_false]
      intro hlive
      have := (h.live place d hd hlive).2
      omega
    rw [resume_cancelled h hd hcancelled outcome, if_neg (Nat.ne_of_lt hlater)]
    split <;> exact ⟨rfl, rfl⟩
  opened e hmem := by simpa using published_step h hmem
  closing e hmem := by
    have hstop : e = .stop ∧ s.status ≠ .closing := by simpa using published_step h hmem
    exact hstop.1
  after_closing hclosing e status hmem := by
    rcases published_step h hmem with ⟨rfl, hstart⟩ | ⟨-, -, hne⟩ | ⟨rfl, hconnecting⟩ | rfl
    · exact .inr ⟨rfl, hstart.resolve_right (absurd hclosing)⟩
    · exact absurd hclosing hne
    · simp [hclosing] at hconnecting
    · exact .inl rfl
  shown := once_step s
  stopped place d hd := by
    refine (orderly_stop h).cancelled_of_idle ?_ hd
    unfold stop
    split <;> exact held_cancel _
  ends place d outcome hd hcancelled := by
    have hset := List.getElem?_set_self (a := { d with phase := .ended }) (lt_of_driver hd)
    rw [resume_cancelled h hd hcancelled outcome]
    split
    next hended => exact ⟨d, hd, hended⟩
    · split <;> exact ⟨_, hset, rfl⟩
  ended := h.ended

/-- **However the calls of its host and the steps of its drivers interleave and whatever comes
of its connections, a session keeps its rules.** -/
theorem protocol_run (target : Target) (policy : Backoff) (registry : Registry)
    (events : List Event) :
    Protocol (({ target, policy, registry } : Session).run events).2 :=
  (orderly_run (orderly_new target policy registry) events).protocol

end Session
end LiveTail.Link
