import LiveTail.Proofs.Link.Progress

/-! No frame is lost, repeated or put out of order by a session.

Of each frame that is taken from a connection its handlers or its hook hear before the next one
is asked for, and what is taken are the frames of the script, one after the other (`left_run`).
So a handler hears, over any history, the frames of its kind in the order in which they were
served, however often the connection is lost (`handled_run`). A stop ends this at once, though
a frame be ready (`silent_run`). -/
namespace LiveTail

/-! ### Frames -/

/-- The message of a frame, if it is of a kind. -/
def Frame.messageOf? (kind : Kind) (text : String) : Option Message :=
  (Message.read? text).filter (·.kind = kind.text)

/-- What is wrong with a frame that cannot be read. -/
def Frame.fault? (text : String) : Option DecodeError :=
  if (Message.read? text).isNone then some (.envelope .unreadable) else none

namespace Link
namespace Service

/-! ### What a frame leads to -/

/-- What is heard of a frame: the calls of the handlers of its kind, or the report. -/
def expected (s : Service) (text : String) : List Heard :=
  match Message.read? text with
  | some m => (s.session.registry.due m.kind).map (.called · m)
  | none => s.hook.toList.map (.reported · (.envelope .unreadable))

/-- A frame that is taken is dealt with before the next one is asked for. -/
theorem heard_of_frame? {s : Service} {e : Event} {text : String} (h : s.frame? e = some text) :
    s.acts e = s.session.registry.deliver text ++ [.read] ∧ s.heard e = s.expected text := by
  obtain ⟨call, hcall, hframe⟩ := Option.bind_eq_some_iff.mp h
  have hacts : s.acts e = s.session.registry.deliver text ++ [.read] := by
    rw [acts, hcall]
    exact Session.acts_of_frame? hframe
  refine ⟨hacts, ?_⟩
  rw [heard, hacts, expected, Registry.deliver]
  cases Message.read? text with
  | none => cases s.hook <;> simp [Act.heard?]
  | some m => simp [Act.heard?, List.filterMap_map, Function.comp_def]

theorem heard_of_no_frame {s : Service} {e : Event} (h : s.frame? e = none) : s.heard e = [] := by
  rw [heard, List.filterMap_eq_nil_iff]
  intro a ha
  unfold acts at ha
  cases hcall : s.call? e with
  | none => simp [hcall] at ha
  | some call =>
    rw [hcall] at ha
    rw [frame?, hcall] at h
    have hsilent := Session.acts_of_no_frame h a ha
    cases a <;> first | rfl | cases hsilent

/-! ### What a listener hears -/

/-- What someone hears of a history is what comes of the frames taken in it, if it is so at
each step. -/
theorem heard_run {α : Type} {hears : Heard → Option α} {makes : String → Option α}
    {I : Service → Prop} {allowed : Event → Prop}
    (hstep : ∀ s e, I s → allowed e → I (s.step e) ∧
      (s.heard e).filterMap hears = (s.frame? e).toList.filterMap makes)
    {s : Service} (h : I s) {events : List Event} (hevents : ∀ e ∈ events, allowed e) :
    (s.heardIn events).filterMap hears = (s.frames events).filterMap makes := by
  induction events generalizing s with
  | nil => rfl
  | cons e rest ih =>
    obtain ⟨hnext, hheard⟩ := hstep s e h (hevents e (List.mem_cons_self ..))
    rw [heardIn, frames, List.filterMap_append, List.filterMap_append, hheard,
      ih hnext fun e' he' => hevents e' (List.mem_cons_of_mem _ he')]

end Service

/-- The message with which a handler is called. -/
def Heard.message? (id : Nat) : Heard → Option Message
  | .called other m => if other = id then some m else none
  | .reported .. => none

/-- The error that a hook is told. -/
def Heard.error? (hook : Nat) : Heard → Option DecodeError
  | .reported other e => if other = hook then some e else none
  | .called .. => none

namespace Service

theorem messages_calls {ids : List Nat} (hids : ids.Nodup) (id : Nat) (m : Message) :
    (ids.map (Heard.called · m)).filterMap (Heard.message? id) = if id ∈ ids then [m] else [] := by
  induction ids with
  | nil => rfl
  | cons other rest ih =>
    obtain ⟨hnew, hrest⟩ := List.nodup_cons.mp hids
    rw [List.map_cons, List.filterMap_cons, ih hrest, Heard.message?]
    by_cases heq : other = id
    · subst heq
      simp [hnew]
    · simp [heq, Ne.symm heq]

/-- A handler is called for a frame if the frame is of its kind, and once. -/
theorem messages_expected {s : Service} (hvalid : s.session.registry.Valid) {entry : Entry}
    (hentry : entry ∈ s.session.registry.entries) (text : String) :
    (s.expected text).filterMap (Heard.message? entry.id) =
      (Frame.messageOf? entry.kind text).toList := by
  rw [expected, Frame.messageOf?]
  cases Message.read? text with
  | none => cases s.hook <;> simp [Heard.message?]
  | some m =>
    simp only [messages_calls (Registry.nodup_due hvalid m.kind),
      Registry.mem_due_iff hvalid hentry, eq_comm (a := entry.kind.text)]
    by_cases hkind : m.kind = entry.kind.text <;> simp [Option.filter, hkind]

theorem errors_expected {s : Service} {hook : Nat} (hhook : s.hook = some hook) (text : String) :
    (s.expected text).filterMap (Heard.error? hook) = (Frame.fault? text).toList := by
  rw [expected, Frame.fault?]
  cases Message.read? text with
  | none => simp [hhook, Heard.error?]
  | some m => simp [Heard.error?, List.filterMap_map, Function.comp_def]

/-- What is heard in a step, by someone to whom only the frame of the step matters. -/
theorem heard_step {α : Type} {hears : Heard → Option α} {makes : String → Option α} {s : Service}
    (h : ∀ text, (s.expected text).filterMap hears = (makes text).toList) (e : Event) :
    (s.heard e).filterMap hears = (s.frame? e).toList.filterMap makes := by
  cases hframe : s.frame? e with
  | none =>
    rw [heard_of_no_frame hframe]
    rfl
  | some text =>
    rw [(heard_of_frame? hframe).2, h text]
    cases hmakes : makes text <;> simp [hmakes]

theorem entry_step {s : Service} {entry : Entry} (h : entry ∈ s.session.registry.entries)
    {e : Event} (hkept : e ≠ .unsubscribe entry.id) :
    entry ∈ (s.step e).session.registry.entries := by
  rw [session_step]
  cases hcall : s.call? e with
  | none => exact h
  | some call =>
    refine Session.mem_step h ?_
    rintro rfl
    cases e <;> cases hcall
    exact hkept rfl

/-- **A handler is called for every frame of its kind**, in order, until it is given up. -/
theorem handled_run {s : Service} (h : s.Sound) {entry : Entry}
    (hentry : entry ∈ s.session.registry.entries) {events : List Event}
    (hkept : ∀ e ∈ events, e ≠ .unsubscribe entry.id) :
    (s.heardIn events).filterMap (Heard.message? entry.id) =
      (s.frames events).filterMap (Frame.messageOf? entry.kind) :=
  heard_run (I := fun s => s.session.registry.Valid ∧ entry ∈ s.session.registry.entries)
    (fun _ e hs he => ⟨⟨session_keeps (P := fun t => t.registry.Valid)
      (fun _ call ht => Session.valid_step ht call) hs.1 e, entry_step hs.2 he⟩,
      heard_step (messages_expected hs.1 hs.2) e⟩) ⟨h.valid, hentry⟩ hkept

/-- A hook is told of every frame that cannot be read, until another takes its place. -/
theorem reported_run {s : Service} {hook : Nat} (hhook : s.hook = some hook) {events : List Event}
    (hkept : ∀ e ∈ events, ∀ other, e ≠ .observe other) :
    (s.heardIn events).filterMap (Heard.error? hook) = (s.frames events).filterMap Frame.fault? :=
  heard_run (I := fun s => s.hook = some hook)
    (fun _ e hs he => ⟨(hook_step he).trans hs, heard_step (errors_expected hs) e⟩) hhook hkept

/-! ### After a stop -/

/-- Nothing is asked for, taken or heard. -/
structure Silent (s : Service) (e : Event) : Prop where
  frame : s.frame? e = none
  acts : ∀ a ∈ s.acts e, a.asks = false
  held : (s.step e).session.held = none
  script : (s.step e).script = s.script
  lines : (s.step e).lines = s.lines

/-- Waking one of the drivers, once all are cancelled. -/
theorem silent_wake {s : Service} (h : s.Sound) (hheld : s.session.held = none) (place : Nat)
    (ready : Bool) : s.Silent (.wake place ready) := by
  have hcancelled : ∀ d, s.session.drivers[place]? = some d → d.cancelled = true :=
    fun _ hd => h.orderly.cancelled_of_idle hheld hd
  have hacts : ∀ a ∈ s.acts (.wake place ready), a.asks = false := by
    show ∀ a ∈ (s.session.resume place _).1, a.asks = false
    cases hd : s.session.drivers[place]? with
    | none => simp [Session.resume, hd]
    | some d =>
      rw [Session.resume_cancelled h.orderly hd (hcancelled d hd)]
      split
      · simp
      · split <;> simp [Act.asks]
  have hstill := still_wake ready hcancelled
  exact ⟨hstill.frame, hacts, (held_wake s place ready).trans hheld, hstill.script, hstill.lines⟩

theorem silent_stop {s : Service} (hheld : s.session.held = none) : s.Silent .stop := by
  refine ⟨rfl, ?_, held_stop s.session, rfl, rfl⟩
  show ∀ a ∈ s.session.stop.1, a.asks = false
  simp [Session.stop, hheld]

/-- A session whose drivers are all cancelled does nothing more until it is started. -/
theorem silent_step {s : Service} (h : s.Sound) (hheld : s.session.held = none) {e : Event}
    (hstart : e ≠ .start) : s.Silent e := by
  cases e with
  | start => exact absurd rfl hstart
  | wake place ready => exact silent_wake h hheld place ready
  | stop => exact silent_stop hheld
  | drop => exact ⟨rfl, nofun, Session.held_cancel s.session, rfl, rfl⟩
  | _ => exact ⟨rfl, nofun, hheld, rfl, rfl⟩

theorem silent_run {s : Service} (h : s.Sound) (hheld : s.session.held = none)
    {events : List Event} (hstart : .start ∉ events) :
    s.frames events = [] ∧ s.heardIn events = [] ∧ (∀ a ∈ s.actsIn events, a.asks = false) ∧
      (s.run events).script = s.script ∧ (s.run events).lines = s.lines := by
  induction events generalizing s with
  | nil => exact ⟨rfl, rfl, nofun, rfl, rfl⟩
  | cons e rest ih =>
    obtain ⟨hne, hrest⟩ := not_or.mp (mt List.mem_cons.mpr hstart)
    have hsilent := silent_step h hheld (Ne.symm hne)
    obtain ⟨hframes, hheard, hacts, hscript, hlines⟩ := ih (sound_step h e) hsilent.held hrest
    refine ⟨?_, ?_, ?_, hscript.trans hsilent.script, hlines.trans hsilent.lines⟩
    · rw [frames, hsilent.frame, hframes]
      rfl
    · rw [heardIn, heard_of_no_frame hsilent.frame, hheard]
      rfl
    · intro a ha
      rcases List.mem_append.mp ha with ha | ha
      · exact hsilent.acts a ha
      · exact hacts a ha

/-! ### The whole -/

/-- What is promised of a service at any moment. -/
structure Delivers (s : Service) : Prop where
  /-- A frame that is taken is dealt with before the next one is asked for. -/
  before_next : ∀ e text, s.frame? e = some text →
    s.acts e = s.session.registry.deliver text ++ [.read] ∧ s.heard e = s.expected text
  /-- Nothing is heard but for a frame. -/
  nothing_else : ∀ e, s.frame? e = none → s.heard e = []
  /-- The handlers called for a kind are those registered for it, in the order of registration
  and none twice. -/
  handlers : ∀ kind, (s.session.registry.due kind).Pairwise (· < ·) ∧
    ∀ id, id ∈ s.session.registry.due kind ↔
      ∃ entry ∈ s.session.registry.entries, entry.id = id ∧ entry.kind.text = kind
  /-- Until it is given up, a handler gets every frame of its kind. -/
  handled : ∀ entry ∈ s.session.registry.entries, ∀ later,
    (∀ e ∈ later, e ≠ .unsubscribe entry.id) →
    (s.heardIn later).filterMap (Heard.message? entry.id) =
      (s.frames later).filterMap (Frame.messageOf? entry.kind)
  /-- Until it is replaced, a hook is told of every frame that cannot be read. -/
  reported : ∀ hook, s.hook = some hook → ∀ later, (∀ e ∈ later, ∀ other, e ≠ .observe other) →
    (s.heardIn later).filterMap (Heard.error? hook) = (s.frames later).filterMap Frame.fault?
  /-- A frame that is there is taken when the driver that reads runs. -/
  taken : ∀ place d text rest ending, s.session.drivers[place]? = some d → d.phase = .reading →
    d.cancelled = false → s.lines place = some (.serve (text :: rest) ending) →
    s.frame? (.wake place true) = some text
  /-- Until a stop, what is taken and what is left are what was left. -/
  whole : ∀ later, (∀ e ∈ later, e ≠ .stop ∧ e ≠ .drop) →
    s.frames later ++ (s.run later).left = s.left
  /-- Unless a connection stays open in front of others, a driver that runs often enough takes
  all that is left, whatever happens in between. -/
  progress : ∀ place, s.session.held = some place → (∀ o ∈ s.attempts.dropLast, o.ends = true) →
    ∀ later, (∀ e ∈ later, e ≠ .stop ∧ e ≠ .drop) →
      (s.attempts.map Offer.runs).sum ≤ later.count (.wake place true) →
      s.frames later = s.left ∧ (s.run later).left = []
  /-- A stop may lose what no one has taken, but puts nothing out of order. -/
  order : ∀ later, (s.frames later ++ (s.run later).left).Sublist s.left
  /-- After a stop, until the next start, nothing is asked for, taken or heard. -/
  stopped : ∀ e, e = .stop ∨ e = .drop → ∀ later, .start ∉ later →
    (s.step e).frames later = [] ∧ (s.step e).heardIn later = [] ∧
      (∀ a ∈ (s.step e).actsIn later, a.asks = false) ∧
      ((s.step e).run later).script = s.script ∧ ((s.step e).run later).lines = s.lines

theorem Sound.delivers {s : Service} (h : s.Sound) : Delivers s where
  before_next _ _ hframe := heard_of_frame? hframe
  nothing_else _ hframe := heard_of_no_frame hframe
  handlers kind := ⟨Registry.ascending_due h.ascending kind, fun _ => Registry.mem_due⟩
  handled _ hentry _ hkept := handled_run h hentry hkept
  reported _ hhook _ hkept := reported_run hhook hkept
  taken place d text rest ending hd hphase hlive hline :=
    frame?_wake.mpr ⟨d, hd, hphase, hlive, by simp [offered, hd, hphase, hline, Offer.outcome]⟩
  whole _ hevents := left_run h hevents
  progress place hheld hends later hevents henough := by
    obtain ⟨d, hd, -⟩ := h.orderly.held place hheld
    have hnone : (s.run later).left = [] :=
      exhausted_run h hheld hends hevents (Nat.le_trans (effort_le hheld hd) henough)
    have hwhole := left_run h hevents
    rw [hnone, List.append_nil] at hwhole
    exact ⟨hwhole, hnone⟩
  order events := order_run h events
  stopped e he later hstart := by
    have hheld : (s.step e).session.held = none := by
      rcases he with rfl | rfl
      · exact held_stop s.session
      · exact Session.held_cancel s.session
    have hsame : (s.step e).script = s.script ∧ (s.step e).lines = s.lines := by
      rcases he with rfl | rfl <;> exact ⟨rfl, rfl⟩
    have hsilent := silent_run (sound_step h e) hheld hstart
    rwa [hsame.1, hsame.2] at hsilent

/-- **No frame is lost, repeated or put out of order**, whatever comes of its connections, whatever
its host does, and whenever its drivers run. -/
theorem delivers_run (target : Target) (policy : Backoff) (script : List Offer)
    (events : List Event) :
    Delivers (({ session := { target, policy }, script } : Service).run events) :=
  (sound_run (sound_new target policy script) events).delivers

/-- One attempt is refused, and the next connection is lost after two frames. -/
theorem delivers_run_lost :
    let s := ({
      session := { target := ⟨"", ⟨"c", by decide⟩⟩ }
      script := [.refuse "", .serve ["[\"live_log\"]", "x"] (some .closed),
        .serve ["[\"live_log\", 1]"] none] } : Service).run
          [.subscribe .liveLog, .observe 7, .start]
    let later := Event.observe 8 :: List.replicate 12 (.wake 0 true)
    (s.session.held = some 0 ∧ (∀ o ∈ s.attempts.dropLast, o.ends = true) ∧
      (∀ e ∈ later, e ≠ .stop ∧ e ≠ .drop) ∧
      (s.attempts.map Offer.runs).sum ≤ later.count (.wake 0 true)) ∧
    s.frames later = ["[\"live_log\"]", "x", "[\"live_log\", 1]"] ∧ (s.run later).left = [] := by
  intro s later
  have hheld : s.session.held = some 0 := rfl
  have hends : ∀ o ∈ s.attempts.dropLast, o.ends = true := by decide
  have hevents : ∀ e ∈ later, e ≠ .stop ∧ e ≠ .drop := by decide
  have henough : (s.attempts.map Offer.runs).sum ≤ later.count (.wake 0 true) := by decide
  exact ⟨⟨hheld, hends, hevents, henough⟩,
    (delivers_run _ _ _ _).progress 0 hheld hends later hevents henough⟩

end Service
end Link
end LiveTail
