import LiveTail.Proofs.Link.Feed

/-! A session whose connections follow a script.

The script of a `Service` says how each attempt to connect turns out, and which frames a
connection has before it is lost. The drivers run in any order, with what they wait for ready
or not, and the host may do anything in between. When a driver runs it takes a frame, begins
an attempt, or leaves the script and the connections as they are (`woken`). From this follows
what there is in the connection of a driver, by what it waits for (`Lined`, `sound_run`). -/
namespace LiveTail.Link

/-! ### Connections by script -/

/-- How an attempt to connect turns out. -/
inductive Offer where
  | refuse (reason : String)
  /-- Frames, and then an error. Without one the connection stays open. -/
  | serve (frames : List String) (ending : Option LinkError)

namespace Offer

def frames : Offer → List String
  | refuse _ => []
  | serve frames _ => frames

/-- Whether it comes to an end: the connection cannot be had, or is lost. -/
def ends : Offer → Bool
  | refuse _ => true
  | serve _ ending => ending.isSome

/-- What is left once a frame was taken. -/
def rest : Offer → Offer
  | refuse reason => refuse reason
  | serve frames ending => serve frames.tail ending

/-- What has come of that for which a driver waits. -/
def outcome (url : String) (phase : Phase) (line : Option Offer) : Outcome :=
  match phase, line with
  | .connecting, some (.refuse reason) => .failed (.connect url reason)
  | .connecting, some (.serve _ _) => .connected
  | .reading, some (.serve (text :: _) _) => .frame text
  | .reading, some (.serve [] (some e)) => .failed e
  | .waiting, _ => .elapsed
  | _, _ => .nothing

theorem of_outcome_frame {url text : String} {phase : Phase} {line : Option Offer}
    (h : outcome url phase line = .frame text) :
    ∃ rest ending, line = some (.serve (text :: rest) ending) := by
  unfold outcome at h
  split at h <;> cases h
  exact ⟨_, _, rfl⟩

theorem of_outcome_connected {url : String} {phase : Phase} {line : Option Offer}
    (h : outcome url phase line = .connected) : ∃ frames ending, line = some (.serve frames ending) := by
  unfold outcome at h
  split at h <;> cases h
  exact ⟨_, _, rfl⟩

theorem of_outcome_failed {url : String} {phase : Phase} {line : Option Offer} {e : LinkError}
    (h : outcome url phase line = .failed e) :
    (phase = .connecting ∨ phase = .reading) ∧
      ∃ o, line = some o ∧ o.frames = [] ∧ o.ends = true := by
  unfold outcome at h
  split at h <;> cases h
  · exact ⟨.inl rfl, _, rfl, rfl, rfl⟩
  · exact ⟨.inr rfl, _, rfl, rfl, rfl⟩

end Offer

/-! ### What a driver waits for -/

namespace Driver

/-- Only a driver that is new or has waited asks for a connection. -/
theorem phase_of_connect {d : Driver} (hlive : d.cancelled = false) {policy : Backoff}
    {r : Registry} {generation : Nat} {outcome : Outcome}
    (h : d.resume policy r generation outcome = d.connect) :
    d.phase = .created ∨ d.phase = .waiting := by
  cases hphase : d.phase with
  | created => exact .inl rfl
  | waiting => exact .inr rfl
  | connecting => cases outcome <;> simp [resume, hphase, hlive, connect, opened, lost] at h
  | reading =>
    have hnext := congrArg (·.2.phase) h
    cases outcome <;> simp [resume, hphase, hlive, connect, lost] at hnext
  | ended =>
    have hnext := congrArg (·.2.phase) h
    simp [resume, hphase, connect] at hnext

/-- A driver reads once it is connected. -/
theorem connected_of_opened {d : Driver} (hlive : d.cancelled = false)
    (hphase : d.phase = .connecting) {policy : Backoff} {r : Registry} {generation : Nat}
    {outcome : Outcome} (h : d.resume policy r generation outcome = d.opened) :
    outcome = .connected := by
  have hnext := congrArg (·.2.phase) h
  cases outcome <;> simp [resume, hphase, hlive, opened, lost] at hnext
  rfl

/-- A driver has nothing to wait for: it has ended, or has no connection, or one that has nothing
more to give. -/
def Stuck (d : Driver) (line : Option Offer) : Prop :=
  d.phase = .ended ∨ d.phase = .connecting ∧ line = none ∨
    d.phase = .reading ∧ ∀ frames ending, line = some (.serve frames ending) →
      frames = [] ∧ ending = none

/-- So it is if a driver goes on waiting though what it waits for is ready. -/
theorem stuck_of_idle {d : Driver} (hlive : d.cancelled = false) {policy : Backoff} {r : Registry}
    {generation : Nat} {url : String} {line : Option Offer}
    (h : d.resume policy r generation (Offer.outcome url d.phase line) = ([], d)) :
    d.Stuck line := by
  have hacts := congrArg (·.1) h
  cases hphase : d.phase with
  | created => simp [resume, hphase, hlive, connect] at hacts
  | waiting => simp [resume, hphase, hlive, connect, Offer.outcome] at hacts
  | ended => exact .inl hphase
  | connecting =>
    rcases line with _ | (_ | _)
    · exact .inr (.inl ⟨hphase, rfl⟩)
    · simp [resume, hphase, hlive, lost, Offer.outcome] at hacts
    · simp [resume, hphase, hlive, opened, Offer.outcome] at hacts
  | reading =>
    refine .inr (.inr ⟨hphase, ?_⟩)
    rintro frames ending rfl
    cases frames with
    | cons text rest => simp [resume, hphase, hlive, Offer.outcome] at hacts
    | nil =>
      cases ending with
      | none => exact ⟨rfl, rfl⟩
      | some e => simp [resume, hphase, hlive, lost, Offer.outcome] at hacts

/-- A connection is lost, or cannot be had, with an error. -/
theorem failed_of_lost {d : Driver} (hlive : d.cancelled = false) {policy : Backoff}
    {r : Registry} {generation : Nat} {outcome : Outcome}
    (h : d.resume policy r generation outcome = d.lost policy) : ∃ e, outcome = .failed e := by
  have hacts := congrArg (·.1) h
  have hnext := congrArg (·.2.phase) h
  cases outcome with
  | failed e => exact ⟨e, rfl⟩
  | _ =>
    cases hphase : d.phase with
    | created => simp [resume, hphase, hlive, connect, lost] at hnext
    | connecting => simp [resume, hphase, hlive, opened, lost] at hnext
    | reading => simp [resume, hphase, hlive, lost] at hnext
    | waiting => simp [resume, hphase, hlive, connect, lost] at hacts
    | ended => simp [resume, hphase, lost] at hnext

end Driver

/-! ### A session at work -/

/-- What a subscriber or the hook gets to hear. -/
inductive Heard where
  | called (id : Nat) (m : Message)
  | reported (hook : Nat) (e : DecodeError)

/-- What an act is to those who listen. -/
def Act.heard? (hook : Option Nat) : Act → Option Heard
  | .call id m => some (.called id m)
  | .unreadable => hook.map (.reported · (.envelope .unreadable))
  | _ => none

/-- Acts that ask for something that comes later. -/
def Act.asks : Act → Bool
  | .connect | .read | .wait _ => true
  | _ => false

structure Service where
  session : Session
  /-- The attempts still to come. -/
  script : List Offer
  /-- What the latest attempt of the driver at a place has left. -/
  lines : Nat → Option Offer := fun _ => none
  /-- The hook for frames that cannot be read. -/
  hook : Option Nat := none

namespace Service

inductive Event where
  | start
  | stop
  /-- The session itself goes away. -/
  | drop
  | subscribe (kind : Kind)
  | unsubscribe (id : Nat)
  /-- Installs a hook in place of any other. -/
  | observe (hook : Nat)
  /-- Runs the driver at a place, with what it waits for or without. -/
  | wake (place : Nat) (ready : Bool)
deriving DecidableEq

/-- What a driver finds when it runs. -/
def offered (s : Service) (place : Nat) (ready : Bool) : Outcome :=
  match s.session.drivers[place]? with
  | some d =>
    if ready then Offer.outcome s.session.target.url d.phase (s.lines place) else .nothing
  | none => .nothing

/-- What the session is told. -/
def call? (s : Service) : Event → Option Session.Event
  | .start => some .start
  | .stop => some .stop
  | .drop => some .drop
  | .subscribe kind => some (.subscribe kind)
  | .unsubscribe id => some (.unsubscribe id)
  | .observe _ => none
  | .wake place ready => some (.resume place (s.offered place ready))

/-- The frame that an event takes from a connection. -/
def frame? (s : Service) (e : Event) : Option String := (s.call? e).bind s.session.frame?

def acts (s : Service) (e : Event) : List Act :=
  (s.call? e).elim [] fun call => (s.session.step call).1

def heard (s : Service) (e : Event) : List Heard := (s.acts e).filterMap (Act.heard? s.hook)

/-- Puts something in the line of a place. -/
def hold (s : Service) (place : Nat) (line : Option Offer) : Service :=
  { s with lines := fun p => if p = place then line else s.lines p }

/-- Gives the driver at a place what it asks for. -/
def answer (place : Nat) (s : Service) : Act → Service
  | .connect => { s.hold place s.script.head? with script := s.script.tail }
  | _ => s

def tell (s : Service) (call : Session.Event) : Service :=
  { s with session := (s.session.step call).2 }

def step (s : Service) (e : Event) : Service :=
  match e with
  | .start => s.tell .start
  | .stop => s.tell .stop
  | .drop => s.tell .drop
  | .subscribe kind => s.tell (.subscribe kind)
  | .unsubscribe id => s.tell (.unsubscribe id)
  | .observe hook => { s with hook := some hook }
  | .wake place ready =>
    let told := s.tell (.resume place (s.offered place ready))
    let left := if (s.frame? e).isSome then told.hold place ((s.lines place).map Offer.rest)
      else told
    (s.acts e).foldl (answer place) left

def run (s : Service) : List Event → Service
  | [] => s
  | e :: rest => (s.step e).run rest

/-- The frames that are taken, in order. -/
def frames (s : Service) : List Event → List String
  | [] => []
  | e :: rest => (s.frame? e).toList ++ (s.step e).frames rest

/-- All that is heard, in order. -/
def heardIn (s : Service) : List Event → List Heard
  | [] => []
  | e :: rest => s.heard e ++ (s.step e).heardIn rest

def actsIn (s : Service) : List Event → List Act
  | [] => []
  | e :: rest => s.acts e ++ (s.step e).actsIn rest

/-! ### What is kept from step to step -/

theorem answers_keep (s : Service) (place : Nat) (acts : List Act) :
    (acts.foldl (answer place) s).session = s.session ∧
      (acts.foldl (answer place) s).hook = s.hook := by
  induction acts generalizing s with
  | nil => exact ⟨rfl, rfl⟩
  | cons a rest ih =>
    have hanswer : (answer place s a).session = s.session ∧ (answer place s a).hook = s.hook := by
      cases a <;> exact ⟨rfl, rfl⟩
    exact ⟨(ih _).1.trans hanswer.1, (ih _).2.trans hanswer.2⟩

theorem session_step (s : Service) (e : Event) :
    (s.step e).session = (s.call? e).elim s.session fun call => (s.session.step call).2 := by
  cases e with
  | wake place ready =>
    simp only [step]
    rw [(answers_keep ..).1]
    split <;> rfl
  | _ => rfl

theorem hook_step {s : Service} {e : Event} (hkept : ∀ hook, e ≠ .observe hook) :
    (s.step e).hook = s.hook := by
  cases e with
  | wake place ready =>
    simp only [step]
    rw [(answers_keep ..).2]
    split <;> rfl
  | observe hook => exact absurd rfl (hkept hook)
  | _ => rfl

/-- What holds of a session whatever it is told holds of the session of a service. -/
theorem session_keeps {P : Session → Prop} (hstep : ∀ t call, P t → P (t.step call).2)
    {s : Service} (h : P s.session) (e : Event) : P (s.step e).session := by
  rw [session_step]
  cases s.call? e with
  | none => exact h
  | some call => exact hstep _ call h

/-- The frames that the connection of the driver at a place has left. -/
def lineAt (s : Service) (place : Nat) : List String := (s.lines place).elim [] Offer.frames

/-- What the line of a driver holds, by what the driver waits for. What it reads from is a
connection; what it has given up or not asked for yet is used up; and only once the script is
used up does it connect to nothing. -/
def Lined (s : Service) (place : Nat) : Phase → Prop
  | .connecting => s.lines place = none → s.script = []
  | .reading => ∃ frames ending, s.lines place = some (.serve frames ending)
  | _ => s.lineAt place = []

theorem Lined.of_same {s t : Service} {place : Nat} {phase : Phase} (h : s.Lined place phase)
    (hlines : t.lines = s.lines) (hscript : t.script = s.script) : t.Lined place phase := by
  cases phase <;> simpa only [Lined, lineAt, hlines, hscript] using h

/-- What always holds of a service. -/
structure Sound (s : Service) : Prop where
  orderly : s.session.Orderly
  valid : s.session.registry.Valid
  ascending : s.session.registry.Ascending
  /-- No driver was there yet. -/
  unborn : ∀ place : Nat, s.session.drivers.length ≤ place → s.lines place = none
  lined : ∀ (place : Nat) (d : Driver), s.session.held = some place →
    s.session.drivers[place]? = some d → s.Lined place d.phase

theorem sound_new (target : Target) (policy : Backoff) (script : List Offer) :
    Sound { session := { target, policy }, script } where
  orderly := Session.orderly_new target policy {}
  valid := Registry.valid_new
  ascending := .nil
  unborn _ _ := rfl
  lined _ _ hheld := nomatch hheld

theorem held_resume (t : Session) (place : Nat) (outcome : Outcome) :
    (t.resume place outcome).2.held = t.held := by
  unfold Session.resume
  split <;> rfl

/-! ### Waking a driver -/

/-- Waking the driver at a place takes nothing and asks for no connection. -/
structure Still (s : Service) (place : Nat) (ready : Bool) : Prop where
  frame : s.frame? (.wake place ready) = none
  lines : (s.step (.wake place ready)).lines = s.lines
  script : (s.step (.wake place ready)).script = s.script

/-- What waking the driver at a place comes to. -/
inductive Woken (s : Service) (place : Nat) (ready : Bool) : Prop
  /-- It takes a frame. -/
  | takes (d : Driver) (text : String) (rest : List String) (ending : Option LinkError)
      (hd : s.session.drivers[place]? = some d) (hphase : d.phase = .reading)
      (hlive : d.cancelled = false)
      (hline : s.lines place = some (.serve (text :: rest) ending))
      (hframe : s.frame? (.wake place ready) = some text)
      (hafter : (s.step (.wake place ready)).session.drivers = s.session.drivers)
      (hlines : (s.step (.wake place ready)).lines =
        (s.hold place (some (.serve rest ending))).lines)
      (hscript : (s.step (.wake place ready)).script = s.script)
  /-- It begins an attempt. -/
  | dials (d e : Driver) (hd : s.session.drivers[place]? = some d) (hlive : d.cancelled = false)
      (hphase : d.phase = .created ∨ d.phase = .waiting)
      (hframe : s.frame? (.wake place ready) = none)
      (hafter : (s.step (.wake place ready)).session.drivers[place]? = some e)
      (hnext : e.phase = .connecting)
      (hlines : (s.step (.wake place ready)).lines = (s.hold place s.script.head?).lines)
      (hscript : (s.step (.wake place ready)).script = s.script.tail)
  /-- It has a connection. -/
  | opens (d e : Driver) (frames : List String) (ending : Option LinkError)
      (hd : s.session.drivers[place]? = some d) (hphase : d.phase = .connecting)
      (hlive : d.cancelled = false) (hline : s.lines place = some (.serve frames ending))
      (hafter : (s.step (.wake place ready)).session.drivers[place]? = some e)
      (hnext : e.phase = .reading) (hstill : s.Still place ready)
  /-- It has no connection, or has one no more. -/
  | loses (d e : Driver) (o : Offer) (hd : s.session.drivers[place]? = some d)
      (hphase : d.phase = .connecting ∨ d.phase = .reading) (hlive : d.cancelled = false)
      (hline : s.lines place = some o) (hspent : o.frames = []) (hends : o.ends = true)
      (hafter : (s.step (.wake place ready)).session.drivers[place]? = some e)
      (hnext : e.phase = .waiting) (hstill : s.Still place ready)
  /-- It was cancelled and ends, or goes on waiting. -/
  | rests (hsame : ∀ d, (s.step (.wake place ready)).session.drivers[place]? = some d →
        d.cancelled = false →
          s.session.drivers[place]? = some d ∧ (ready = true → d.Stuck (s.lines place)))
      (hstill : s.Still place ready)

/-- Only asking for a connection touches the script. -/
theorem answers_same {acts : List Act} (h : .connect ∉ acts) (s : Service) (place : Nat) :
    acts.foldl (answer place) s = s := by
  induction acts with
  | nil => rfl
  | cons a rest ih =>
    obtain ⟨hne, hrest⟩ := not_or.mp (mt List.mem_cons.mpr h)
    have hanswer : answer place s a = s := by
      cases a <;> first | rfl | exact absurd rfl hne
    rw [List.foldl_cons, hanswer, ih hrest]

theorem acts_wake {s : Service} {place : Nat} {ready : Bool} {d e : Driver} {acts : List Act}
    (hd : s.session.drivers[place]? = some d)
    (hresume : d.resume s.session.policy s.session.registry s.session.generation
      (s.offered place ready) = (acts, e)) :
    s.acts (.wake place ready) = acts ∧
      (s.step (.wake place ready)).session.drivers = s.session.drivers.set place e := by
  rw [session_step]
  simp [Service.acts, call?, Session.step, Session.resume_eq hd hresume]

/-- A waking that takes no frame and asks for no connection. -/
theorem still_of {s : Service} {place : Nat} {ready : Bool} {d e : Driver} {acts : List Act}
    (hd : s.session.drivers[place]? = some d)
    (hresume : d.resume s.session.policy s.session.registry s.session.generation
      (s.offered place ready) = (acts, e))
    (hframe : s.frame? (.wake place ready) = none) (hquiet : .connect ∉ acts) :
    s.Still place ready ∧ (s.step (.wake place ready)).session.drivers[place]? = some e := by
  obtain ⟨hacts, hafter⟩ := acts_wake hd hresume
  refine ⟨⟨hframe, ?_, ?_⟩, ?_⟩
  · simp only [step, hacts, answers_same hquiet, hframe]
    rfl
  · simp only [step, hacts, answers_same hquiet, hframe]
    rfl
  · rw [hafter]
    exact List.getElem?_set_self (Session.lt_of_driver hd)

/-- Only a driver that reads and is not cancelled takes a frame. -/
theorem frame?_wake {s : Service} {place : Nat} {ready : Bool} {text : String} :
    s.frame? (.wake place ready) = some text ↔
      ∃ d, s.session.drivers[place]? = some d ∧ d.phase = .reading ∧ d.cancelled = false ∧
        s.offered place ready = .frame text := by
  show s.session.frame? (.resume place (s.offered place ready)) = some text ↔ _
  constructor
  · intro h
    unfold Session.frame? at h
    split at h
    next place' text' hevent =>
      obtain ⟨rfl, houtcome⟩ := Session.Event.resume.inj hevent
      simp only [Option.ite_none_right_eq_some, Option.any_eq_true, Bool.and_eq_true, beq_iff_eq,
        Bool.not_eq_true', Option.some.injEq] at h
      obtain ⟨⟨d, hd, hphase, hlive⟩, rfl⟩ := h
      exact ⟨d, hd, hphase, hlive, houtcome⟩
    next => cases h
  · rintro ⟨d, hd, hphase, hlive, houtcome⟩
    simp [Session.frame?, houtcome, hd, hphase, hlive]

theorem offered_eq {s : Service} {place : Nat} {ready : Bool} {d : Driver} {o : Outcome}
    (hd : s.session.drivers[place]? = some d) (ho : s.offered place ready = o)
    (hsome : o ≠ .nothing) :
    Offer.outcome s.session.target.url d.phase (s.lines place) = o := by
  cases ready with
  | true => simpa [offered, hd] using ho
  | false => exact absurd (by simpa [offered, hd] using ho.symm) hsome

theorem woken_none {s : Service} {place : Nat} {ready : Bool}
    (hd : s.session.drivers[place]? = none) : s.Woken place ready := by
  have hacts : s.acts (.wake place ready) = [] := by
    simp [acts, call?, Session.step, Session.resume, hd]
  have hframe : s.frame? (.wake place ready) = none := by
    simp [frame?, call?, offered, hd, Session.frame?]
  have hstep : s.step (.wake place ready) = s := by
    simp [step, hacts, hframe, tell, Session.step, Session.resume, hd]
  refine .rests (fun d hafter => ?_) ⟨hframe, by rw [hstep], by rw [hstep]⟩
  rw [hstep, hd] at hafter
  cases hafter

theorem woken_frame {s : Service} {place : Nat} {ready : Bool} {text : String}
    (hframe : s.frame? (.wake place ready) = some text) : s.Woken place ready := by
  obtain ⟨d, hd, hphase, hlive, hoffered⟩ := frame?_wake.mp hframe
  obtain ⟨rest, ending, hline⟩ := Offer.of_outcome_frame (offered_eq hd hoffered (by simp))
  have hresume : d.resume s.session.policy s.session.registry s.session.generation
      (s.offered place ready) = (s.session.registry.deliver text ++ [.read], d) := by
    simp [Driver.resume, hoffered, hphase, hlive]
  obtain ⟨hacts, hafter⟩ := acts_wake hd hresume
  rw [Session.set_driver hd] at hafter
  have hquiet : .connect ∉ s.session.registry.deliver text ++ [.read] := by
    unfold Registry.deliver
    split <;> simp
  refine .takes d text rest ending hd hphase hlive hline hframe hafter ?_ ?_
  all_goals
    simp only [step, hacts, answers_same hquiet, hframe]
    simp [hline, Offer.rest, hold, tell]

theorem woken_driver {s : Service} {place : Nat} {ready : Bool} {d : Driver}
    (hd : s.session.drivers[place]? = some d) (hframe : s.frame? (.wake place ready) = none) :
    s.Woken place ready := by
  cases d.resumed s.session.policy s.session.registry s.session.generation
    (s.offered place ready) with
  | idle hidle hresume =>
    obtain ⟨hstill, hafter⟩ := still_of hd hresume hframe List.not_mem_nil
    refine .rests (fun e he hlive => ?_) hstill
    rw [hafter] at he
    obtain rfl := Option.some.inj he
    refine ⟨hd, fun hready => ?_⟩
    have hnow : s.offered place ready =
        Offer.outcome s.session.target.url d.phase (s.lines place) := by
      simp [offered, hd, hready]
    exact Driver.stuck_of_idle hlive (hnow ▸ hresume)
  | finishes hphase hcancelled hresume =>
    obtain ⟨hstill, hafter⟩ := still_of hd hresume hframe (by split <;> simp)
    refine .rests (fun e he hlive => ?_) hstill
    rw [hafter] at he
    obtain rfl := Option.some.inj he
    rw [show d.cancelled = false from hlive] at hcancelled
    cases hcancelled
  | connects hlive hresume =>
    obtain ⟨hacts, hafter⟩ := acts_wake hd hresume
    have hset := List.getElem?_set_self (a := { d with phase := .connecting })
      (Session.lt_of_driver hd)
    refine .dials d { d with phase := .connecting } hd hlive ?_ hframe (hafter ▸ hset) rfl ?_ ?_
    · exact Driver.phase_of_connect hlive hresume
    all_goals
      simp only [step, hacts, hframe]
      rfl
  | opens hphase hlive hresume =>
    obtain ⟨hstill, hafter⟩ := still_of hd hresume hframe (by simp)
    have hconnected := Driver.connected_of_opened hlive hphase hresume
    obtain ⟨frames, ending, hline⟩ :=
      Offer.of_outcome_connected (offered_eq hd hconnected (by simp))
    exact .opens d _ frames ending hd hphase hlive hline hafter rfl hstill
  | loses hlive hresume =>
    obtain ⟨hstill, hafter⟩ := still_of hd hresume hframe (by simp)
    obtain ⟨e, he⟩ := Driver.failed_of_lost hlive hresume
    obtain ⟨hphase, o, hline, hspent, hends⟩ :=
      Offer.of_outcome_failed (offered_eq hd he (by simp))
    exact .loses d _ o hd hphase hlive hline hspent hends hafter rfl hstill
  | reads text hoffered hphase hlive hresume =>
    have htaken := frame?_wake.mpr ⟨d, hd, hphase, hlive, hoffered⟩
    rw [hframe] at htaken
    cases htaken

theorem woken (s : Service) (place : Nat) (ready : Bool) : s.Woken place ready := by
  cases hframe : s.frame? (.wake place ready) with
  | some text => exact woken_frame hframe
  | none =>
    cases hd : s.session.drivers[place]? with
    | none => exact woken_none hd
    | some d => exact woken_driver hd hframe

/-- A driver that is cancelled takes nothing, though it be ready. -/
theorem still_wake {s : Service} {place : Nat} (ready : Bool)
    (hidle : ∀ d, s.session.drivers[place]? = some d → d.cancelled = true) :
    s.Still place ready := by
  cases s.woken place ready with
  | takes d _ _ _ hd _ hlive => simp [hidle d hd] at hlive
  | dials d _ hd hlive => simp [hidle d hd] at hlive
  | opens _ _ _ _ _ _ _ _ _ _ hstill => exact hstill
  | loses _ _ _ _ _ _ _ _ _ _ _ hstill => exact hstill
  | rests _ hstill => exact hstill

theorem held_wake (s : Service) (place : Nat) (ready : Bool) :
    (s.step (.wake place ready)).session.held = s.session.held := by
  rw [session_step]
  exact held_resume ..

/-! ### Every step -/

/-- A driver that is woken leaves the others alone. -/
theorem others_wake (s : Service) {place other : Nat} (hne : other ≠ place) (ready : Bool) :
    (s.step (.wake place ready)).session.drivers[other]? = s.session.drivers[other]? := by
  rw [session_step]
  show (s.session.resume place _).2.drivers[other]? = _
  unfold Session.resume
  split
  · exact List.getElem?_set_ne (Ne.symm hne)
  · rfl

theorem length_wake (s : Service) (place : Nat) (ready : Bool) :
    (s.step (.wake place ready)).session.drivers.length = s.session.drivers.length := by
  rw [session_step]
  show (s.session.resume place _).2.drivers.length = _
  unfold Session.resume
  split
  · exact List.length_set ..
  · rfl

theorem unborn_wake {s : Service} (h : s.Sound) (place : Nat) (ready : Bool) {other : Nat}
    (hother : s.session.drivers.length ≤ other) :
    (s.step (.wake place ready)).lines other = none := by
  have hnone := h.unborn other hother
  have hne : ∀ d, s.session.drivers[place]? = some d → other ≠ place := fun d hd =>
    Nat.ne_of_gt (Nat.lt_of_lt_of_le (Session.lt_of_driver hd) hother)
  cases s.woken place ready with
  | takes d text rest ending hd _ _ _ _ _ hlines => simp [hlines, hold, hne d hd, hnone]
  | dials d e hd _ _ _ _ _ hlines => simp [hlines, hold, hne d hd, hnone]
  | opens _ _ _ _ _ _ _ _ _ _ hstill => rw [hstill.lines, hnone]
  | loses _ _ _ _ _ _ _ _ _ _ _ hstill => rw [hstill.lines, hnone]
  | rests _ hstill => rw [hstill.lines, hnone]

theorem lined_wake {s : Service} (h : s.Sound) (place : Nat) (ready : Bool)
    (horderly : (s.step (.wake place ready)).session.Orderly) {other : Nat} {d : Driver}
    (hheld : s.session.held = some other)
    (hd : (s.step (.wake place ready)).session.drivers[other]? = some d) :
    (s.step (.wake place ready)).Lined other d.phase := by
  -- What takes a frame, begins an attempt, or has or loses a connection is the driver held.
  have hsame : ∀ e, s.session.drivers[place]? = some e → e.cancelled = false → place = other :=
    fun e he hlive => by simpa [hheld, eq_comm] using (h.orderly.live place e he hlive).1
  cases s.woken place ready with
  | takes e text rest ending he hphase hlive _ _ hafter hlines =>
    obtain rfl := hsame e he hlive
    rw [hafter, he, Option.some.injEq] at hd
    rw [← hd, hphase]
    exact ⟨rest, ending, by simp [hlines, hold]⟩
  | dials e f he hlive _ _ hafter hnext hlines hscript =>
    obtain rfl := hsame e he hlive
    rw [hafter, Option.some.injEq] at hd
    rw [← hd, hnext]
    intro hnone
    rw [hscript]
    cases hoffers : s.script with
    | nil => rfl
    | cons o rest => simp [hlines, hold, hoffers] at hnone
  | opens e f frames ending he _ hlive hline hafter hnext hstill =>
    obtain rfl := hsame e he hlive
    rw [hafter, Option.some.injEq] at hd
    rw [← hd, hnext]
    exact ⟨frames, ending, by rw [hstill.lines, hline]⟩
  | loses e f o he _ hlive hline hspent _ hafter hnext hstill =>
    obtain rfl := hsame e he hlive
    rw [hafter, Option.some.injEq] at hd
    rw [← hd, hnext]
    show (s.step (.wake place ready)).lineAt place = []
    rw [lineAt, hstill.lines, hline]
    exact hspent
  | rests hrests hstill =>
    have hbefore : s.session.drivers[other]? = some d := by
      by_cases heq : other = place
      · subst heq
        obtain ⟨e, he, hlive⟩ := horderly.held other ((held_wake s other ready).trans hheld)
        obtain rfl : d = e := Option.some.inj (hd.symm.trans he)
        exact (hrests d hd hlive).1
      · rwa [others_wake s heq] at hd
    exact (h.lined other d hheld hbefore).of_same hstill.lines hstill.script

theorem ascending_step {t : Session} (h : t.registry.Valid ∧ t.registry.Ascending)
    (call : Session.Event) :
    (t.step call).2.registry.Valid ∧ (t.step call).2.registry.Ascending := by
  refine ⟨Session.valid_step h.1 call, ?_⟩
  rw [Session.registry_step]
  cases call with
  | subscribe kind => exact Registry.ascending_subscribe h.1 h.2 kind
  | unsubscribe id => exact Registry.ascending_remove h.2 id
  | _ => exact h.2

theorem held_stop (t : Session) : t.stop.2.held = none := by
  unfold Session.stop
  split <;> exact Session.held_cancel _

theorem unborn_step {s : Service} (h : s.Sound) (e : Event) {place : Nat}
    (hplace : (s.step e).session.drivers.length ≤ place) : (s.step e).lines place = none := by
  cases e with
  | wake other ready => exact unborn_wake h other ready (length_wake s other ready ▸ hplace)
  | start =>
    refine h.unborn place (Nat.le_trans ?_ hplace)
    show _ ≤ s.session.start.2.drivers.length
    unfold Session.start
    split <;> simp
  | stop =>
    refine h.unborn place (Nat.le_trans (Nat.le_of_eq ?_) hplace)
    show _ = s.session.stop.2.drivers.length
    unfold Session.stop
    split <;> rw [Session.length_cancel]
  | drop => exact h.unborn place ((Session.length_cancel s.session).symm ▸ hplace)
  | _ => exact h.unborn place hplace

theorem lined_step {s : Service} (h : s.Sound) {e : Event} (horderly : (s.step e).session.Orderly)
    {place : Nat} {d : Driver} (hheld : (s.step e).session.held = some place)
    (hd : (s.step e).session.drivers[place]? = some d) : (s.step e).Lined place d.phase := by
  cases e with
  | wake other ready =>
    exact lined_wake h other ready horderly (held_wake s other ready ▸ hheld) hd
  | start =>
    -- The line of a new driver is empty.
    simp only [step, tell, Session.step, Session.start] at hheld hd ⊢
    split at hheld
    next hrunning =>
      rw [if_pos hrunning] at hd
      exact (h.lined place d hheld hd).of_same rfl rfl
    next hidle =>
      rw [if_neg hidle] at hd
      obtain rfl := Option.some.inj hheld
      obtain rfl := Option.some.inj (List.getElem?_concat_length.symm.trans hd)
      show (s.lines s.session.drivers.length).elim [] Offer.frames = []
      rw [h.unborn _ (Nat.le_refl _)]
      rfl
  | stop => cases (held_stop s.session).symm.trans hheld
  | drop => cases (Session.held_cancel s.session).symm.trans hheld
  | _ => exact (h.lined place d hheld hd).of_same rfl rfl

theorem sound_step {s : Service} (h : s.Sound) (e : Event) : (s.step e).Sound := by
  have horderly : (s.step e).session.Orderly :=
    session_keeps (P := Session.Orderly) (fun _ call ht => Session.orderly_step ht call) h.orderly e
  obtain ⟨hvalid, hascending⟩ :=
    session_keeps (P := fun t => t.registry.Valid ∧ t.registry.Ascending)
      (fun _ call ht => ascending_step ht call) ⟨h.valid, h.ascending⟩ e
  exact ⟨horderly, hvalid, hascending, fun _ hplace => unborn_step h e hplace,
    fun _ _ hheld hd => lined_step h horderly hheld hd⟩

theorem sound_run {s : Service} (h : s.Sound) (events : List Event) : (s.run events).Sound := by
  induction events generalizing s with
  | nil => exact h
  | cons e rest ih => exact ih (sound_step h e)

end Service
end LiveTail.Link
