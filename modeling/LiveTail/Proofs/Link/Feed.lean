import LiveTail.Link.Feed
import LiveTail.Proofs.Decoding.Forwarder
import LiveTail.Proofs.Link.Registry
import LiveTail.Proofs.Link.Session
import LiveTail.Proofs.Overtaking
import LiveTail.View.Viewer

/-! Watching a session through a feed is taking its frames one by one.

A frame that cannot be read goes to the inbox at once; the others wait for the
forwarder, for their decoding, and for the viewer to drain what has come. So a failure
may overtake earlier frames, but the frames of one kind never overtake each other, and
none is lost or comes twice: what the viewer has taken and what is still `waiting` are
at any moment the outcomes of the frames so far (`agrees_run`). Once nothing waits, the
viewer's tail holds and has counted what it would have if each frame had been decoded
when it came (`watched_eq`). -/
namespace LiveTail
open Rows

/-! ### One frame at a time -/

/-- What a frame comes to where one kind of message is wanted. -/
def Frame.outcome? (kind : Kind) (text : String) : Option Decoded :=
  match Message.read? text with
  | some m => if m.kind = kind.text then some (Frame.decodeMessage m) else none
  | none => some (.error (.envelope .unreadable))

/-- Takes a frame as it comes: a message of another kind is passed over. -/
def Tail.takeFrame {ε : Type} (kind : Kind) (t : Tail ε) (text : String) : Tail ε :=
  match Message.read? text with
  | some m => if m.kind = kind.text then (t.ingestMessage m).2 else t
  | none => (t.ingest (.error (.envelope .unreadable))).2

theorem Tail.takeFrames_eq {ε : Type} (kind : Kind) (t : Tail ε) (texts : List String) :
    texts.foldl (takeFrame kind) t = t.ingestAll (texts.filterMap (Frame.outcome? kind)) := by
  induction texts generalizing t with
  | nil => rfl
  | cons text rest ih =>
    rw [List.foldl_cons, ih, List.filterMap_cons, takeFrame, Frame.outcome?]
    cases Message.read? text with
    | none => rfl
    | some m =>
      dsimp only
      split <;> rfl

namespace Link

/-! ### What a feed hears -/

/-- Acts that a feed may have to do with. -/
def Act.carries : Act → Bool
  | .call .. | .unreadable => true
  | _ => false

/-- The frame that an event hands to a driver. -/
def Session.frame? (s : Session) : Session.Event → Option String
  | .resume place (.frame text) =>
    if s.drivers[place]?.any (fun d => d.phase == .reading && !d.cancelled) then some text else none
  | _ => none

/-- A driver that reads delivers the frame it is handed. -/
theorem Session.acts_of_frame? {s : Session} {e : Session.Event} {text : String}
    (h : s.frame? e = some text) : (s.step e).1 = s.registry.deliver text ++ [.read] := by
  unfold frame? at h
  split at h
  next place text' =>
    simp only [Option.ite_none_right_eq_some, Option.any_eq_true, Bool.and_eq_true, beq_iff_eq,
      Bool.not_eq_true', Option.some.injEq] at h
    obtain ⟨⟨d, hd, hphase, hcancelled⟩, rfl⟩ := h
    simp [step, resume, hd, Driver.resume, hphase, hcancelled]
  next => cases h

/-- Without a frame nothing reaches a feed. -/
theorem Session.acts_of_no_frame {s : Session} {e : Session.Event} (h : s.frame? e = none) :
    ∀ a ∈ (s.step e).1, a.carries = false := by
  cases e with
  | resume place outcome =>
    simp only [step, resume]
    cases hd : s.drivers[place]? with
    | none => simp
    | some d =>
      dsimp only
      cases d.resumed s.policy s.registry s.generation outcome with
      | idle _ hresume => simp [hresume]
      | finishes _ _ hresume =>
        rw [hresume, Driver.finish]
        split <;> simp [Act.carries]
      | connects _ hresume => simp [hresume, Driver.connect, Act.carries]
      | opens _ _ hresume => simp [hresume, Driver.opened, Act.carries]
      | loses _ hresume => simp [hresume, Driver.lost, Act.carries]
      | reads text houtcome hphase hcancelled _ =>
        simp [frame?, houtcome, hd, hphase, hcancelled] at h
  | start =>
    simp only [step, start]
    split <;> simp [Act.carries]
  | stop =>
    simp only [step, stop]
    split <;> simp [Act.carries]
  | _ => simp [step]

namespace Feed

theorem hear_silent {acts : List Act} (h : ∀ a ∈ acts, a.carries = false) (f : Feed) :
    acts.foldl hear f = f := by
  induction acts with
  | nil => rfl
  | cons a rest ih =>
    have hhead : f.hear a = f := by
      have := h a (List.mem_cons_self ..)
      cases a <;> first | rfl | cases this
    rw [List.foldl_cons, hhead]
    exact ih fun b hb => h b (List.mem_cons_of_mem _ hb)

theorem handler_hear (f : Feed) (acts : List Act) : (acts.foldl hear f).handler = f.handler := by
  induction acts generalizing f with
  | nil => rfl
  | cons a rest ih =>
    rw [List.foldl_cons, ih]
    unfold hear
    split
    · split <;> rfl
    · rfl
    · rfl

theorem hear_read (f : Feed) : f.hear .read = f := rfl

/-- Calls for a message reach a feed once if its handler is among those called. -/
theorem hear_calls (f : Feed) {ids : List Nat} (hids : ids.Nodup) (m : Message) :
    (ids.map (Act.call · m)).foldl hear f =
      if f.handler ∈ ids then { f with forwarder := f.forwarder.step (.arrive m) } else f := by
  induction ids generalizing f with
  | nil => rfl
  | cons id rest ih =>
    obtain ⟨hnew, hrest⟩ := List.nodup_cons.mp hids
    rw [List.map_cons, List.foldl_cons, ih _ hrest, hear]
    by_cases heq : id = f.handler
    · subst heq
      simp [hnew]
    · simp [heq, Ne.symm heq]

/-- What a feed that is registered hears of a frame. -/
theorem hear_deliver {f : Feed} {r : Registry} (hvalid : r.Valid) {kind : Kind}
    (hentry : ⟨f.handler, kind⟩ ∈ r.entries) (text : String) :
    (r.deliver text).foldl hear f =
      match Message.read? text with
      | some m =>
        if m.kind = kind.text then { f with forwarder := f.forwarder.step (.arrive m) } else f
      | none => { f with inbox := f.inbox ++ [.error (.envelope .unreadable)] } := by
  unfold Registry.deliver
  cases Message.read? text with
  | none => rfl
  | some m =>
    have hdue := Registry.mem_due_iff hvalid hentry m.kind
    simp only [hear_calls f (Registry.nodup_due hvalid m.kind) m, hdue, eq_comm]

/-- What the forwarder sends comes to the inbox. -/
theorem collect_eq {f : Feed} {forwarder : Decoding.Forwarder} {out : List Decoded}
    (h : forwarder.sent = f.forwarder.sent ++ out) :
    f.collect forwarder = { f with forwarder, inbox := f.inbox ++ out } := by
  rw [collect, h, List.drop_left]

end Feed

/-! ### The registry of a session -/

namespace Session

theorem registry_step (s : Session) (e : Event) :
    (s.step e).2.registry =
      match e with
      | .subscribe kind => (s.registry.subscribe kind).2
      | .unsubscribe id => (s.registry.remove id).2
      | _ => s.registry := by
  have hcancel : ∀ t : Session, t.cancel.registry = t.registry := by
    intro t
    unfold cancel
    split <;> rfl
  cases e with
  | start =>
    simp only [step, start]
    split <;> rfl
  | stop =>
    simp only [step, stop]
    split <;> exact hcancel _
  | drop => exact hcancel s
  | subscribe kind => rfl
  | unsubscribe id => rfl
  | resume place outcome =>
    simp only [step, resume]
    split <;> rfl

theorem valid_step {s : Session} (h : s.registry.Valid) (e : Event) :
    (s.step e).2.registry.Valid := by
  rw [registry_step]
  cases e with
  | subscribe kind => exact Registry.valid_subscribe h kind
  | unsubscribe id => exact Registry.valid_remove h id
  | _ => exact h

theorem valid_run {s : Session} (h : s.registry.Valid) (events : List Event) :
    (s.run events).2.registry.Valid := by
  induction events generalizing s with
  | nil => exact h
  | cons e rest ih => exact ih (valid_step h e)

/-- A handler stays until it is given up. -/
theorem mem_step {s : Session} {entry : Entry} (h : entry ∈ s.registry.entries) {e : Event}
    (hkept : e ≠ .unsubscribe entry.id) : entry ∈ (s.step e).2.registry.entries := by
  rw [registry_step]
  cases e with
  | subscribe kind => exact Registry.mem_subscribe h kind
  | unsubscribe id => exact Registry.mem_remove h fun heq => hkept (by rw [heq])
  | _ => exact h

end Session

/-! ### Watching -/

/-- A session, a feed of its messages of one kind, and the viewer that takes them. -/
structure Watch (ε : Type) where
  session : Session
  feed : Feed
  viewer : View.Viewer ε

namespace Watch
variable {ε : Type}

/-- What happens while the feed is attached. -/
inductive Event where
  | session (e : Session.Event)
  /-- The decoding of the forwarder's job at a place finishes. -/
  | finish (place : Nat)
  /-- The forwarder is woken. -/
  | wake
  /-- The session and its drivers are gone, and with them all that could still arrive. -/
  | leave
  /-- Up to `most` results reach the viewer. -/
  | receive (most : Nat)
  | drain

def attach (s : Session) (kind : Kind) (v : View.Viewer ε) : Watch ε :=
  let (feed, session) := Feed.attach s kind
  { session, feed, viewer := { v with inbox := [] } }

/-- Whether the session is still there. -/
def present (w : Watch ε) : Bool := !w.feed.forwarder.closed

def step (w : Watch ε) : Event → Watch ε
  | .session e =>
    if w.present then
      let (acts, session) := w.session.step e
      { w with session, feed := acts.foldl Feed.hear w.feed }
    else w
  | .finish place => { w with feed := (w.feed.step (.work (.finish place))).2 }
  | .wake => { w with feed := (w.feed.step (.work .wake)).2 }
  | .leave => { w with feed := (w.feed.step (.work .close)).2 }
  | .receive most =>
    let (results, feed) := w.feed.step (.take most)
    { w with feed, viewer := w.viewer.deliver results }
  | .drain => { w with viewer := w.viewer.drain.2 }

def run (w : Watch ε) : List Event → Watch ε
  | [] => w
  | e :: rest => (w.step e).run rest

theorem run_append (w : Watch ε) (a b : List Event) : w.run (a ++ b) = (w.run a).run b := by
  induction a generalizing w with
  | nil => rfl
  | cons e rest ih => exact ih _

/-- The frame that an event brings. -/
def frame? (w : Watch ε) : Event → Option String
  | .session e => if w.present then w.session.frame? e else none
  | _ => none

/-- The frames of a history, in the order in which they came. -/
def frames (w : Watch ε) : List Event → List String
  | [] => []
  | e :: rest => (w.frame? e).toList ++ (w.step e).frames rest

/-- Results that the viewer has not taken, in the order in which it would. -/
def waiting (w : Watch ε) : List Decoded :=
  w.viewer.inbox ++ w.feed.inbox ++ w.feed.forwarder.outstanding

/-- What has come so far was taken by the viewer or still waits. -/
structure Agrees (kind : Kind) (start : Tail ε) (texts : List String) (w : Watch ε) : Prop where
  valid : w.session.registry.Valid
  entry : ⟨w.feed.handler, kind⟩ ∈ w.session.registry.entries
  faithful : w.feed.forwarder.Faithful
  taken : ∃ taken, w.viewer.tail = start.ingestAll taken ∧
    Alike (taken ++ w.waiting) (texts.filterMap (Frame.outcome? kind))

theorem agrees_attach {s : Session} (h : s.registry.Valid) (kind : Kind) (v : View.Viewer ε) :
    Agrees kind v.tail [] (attach s kind v) where
  valid := Registry.valid_subscribe h kind
  entry := Registry.mem_subscribe_self s.registry kind
  faithful := Decoding.Forwarder.faithful_new
  taken := ⟨[], rfl, .refl []⟩

/-- What only moves results on, from the front of those waiting. -/
theorem Agrees.of_moved {kind : Kind} {start : Tail ε} {texts : List String} {w u : Watch ε}
    (h : Agrees kind start texts w) (hsession : u.session = w.session)
    (hhandler : u.feed.handler = w.feed.handler) (hfaithful : u.feed.forwarder.Faithful)
    (batch : List Decoded) (htail : u.viewer.tail = w.viewer.tail.ingestAll batch)
    (hwaiting : batch ++ u.waiting = w.waiting) : Agrees kind start texts u where
  valid := by
    rw [hsession]
    exact h.valid
  entry := by
    rw [hsession, hhandler]
    exact h.entry
  faithful := hfaithful
  taken := by
    obtain ⟨taken, htaken, halike⟩ := h.taken
    refine ⟨taken ++ batch, by rw [htail, htaken, Tail.ingestAll_append], ?_⟩
    rwa [List.append_assoc, hwaiting]

/-- What the session does. -/
theorem agrees_session {kind : Kind} {start : Tail ε} {texts : List String} {w : Watch ε}
    (h : Agrees kind start texts w) {e : Session.Event} (hkept : e ≠ .unsubscribe w.feed.handler) :
    Agrees kind start (texts ++ (w.frame? (.session e)).toList) (w.step (.session e)) := by
  obtain ⟨taken, htaken, halike⟩ := h.taken
  by_cases hpresent : w.present
  swap
  · simpa [frame?, step, hpresent] using h
  have hvalid := Session.valid_step h.valid e
  have hentry := Session.mem_step h.entry hkept
  simp only [frame?, step, if_pos hpresent]
  cases hframe : w.session.frame? e with
  | none =>
    rw [Feed.hear_silent (Session.acts_of_no_frame hframe), Option.toList_none, List.append_nil]
    exact ⟨hvalid, hentry, h.faithful, taken, htaken, halike⟩
  | some text =>
    -- The feed may get the outcome of the frame, before or after what waits already.
    have hcome : ∀ feed : Feed, feed.handler = w.feed.handler → feed.forwarder.Faithful →
        Alike (w.viewer.inbox ++ feed.inbox ++ feed.forwarder.outstanding)
          (w.waiting ++ (Frame.outcome? kind text).toList) →
        Agrees kind start (texts ++ [text]) { w with session := (w.session.step e).2, feed } := by
      intro feed hhandler hfaithful hwaiting
      refine ⟨hvalid, ?_, hfaithful, taken, htaken, ?_⟩
      · rw [hhandler]
        exact hentry
      · have houtcomes : (texts ++ [text]).filterMap (Frame.outcome? kind) =
            texts.filterMap (Frame.outcome? kind) ++ (Frame.outcome? kind text).toList := by
          rw [List.filterMap_append]
          cases hone : Frame.outcome? kind text <;> simp [hone]
        rw [houtcomes]
        refine ((Alike.refl taken).append hwaiting).trans ?_
        rw [← List.append_assoc]
        exact halike.append (.refl _)
    rw [Session.acts_of_frame? hframe, List.foldl_append, Feed.hear_deliver h.valid h.entry]
    simp only [Frame.outcome?] at hcome
    simp only [List.foldl_cons, List.foldl_nil, Feed.hear_read, Option.toList_some]
    cases hread : Message.read? text with
    | none =>
      simp only [hread] at hcome
      refine hcome _ rfl h.faithful ?_
      have hovertake := Alike.overtake (.envelope .unreadable) w.feed.forwarder.outstanding
      simpa [waiting] using (Alike.refl (w.viewer.inbox ++ w.feed.inbox)).append hovertake
    | some m =>
      simp only [hread] at hcome
      have hopen : w.feed.forwarder.closed = false := by simpa [present] using hpresent
      by_cases hkind : m.kind = kind.text
      · simp only [if_pos hkind] at hcome ⊢
        refine hcome _ rfl (Decoding.Forwarder.faithful_arrive h.faithful m) ?_
        rw [Decoding.Forwarder.outstanding_arrive hopen, ← List.append_assoc]
        exact .refl _
      · simp only [if_neg hkind] at hcome ⊢
        refine hcome _ rfl h.faithful ?_
        rw [Option.toList_none, List.append_nil]
        exact .refl _

/-- What the forwarder does or is told. -/
theorem Agrees.of_work {kind : Kind} {start : Tail ε} {texts : List String} {w : Watch ε}
    (h : Agrees kind start texts w) {forwarder : Decoding.Forwarder}
    (hfaithful : forwarder.Faithful) (out : List Decoded) (hsent : forwarder.sent = w.feed.forwarder.sent ++ out)
    (hout : out ++ forwarder.outstanding = w.feed.forwarder.outstanding) :
    Agrees kind start texts { w with feed := w.feed.collect forwarder } := by
  rw [Feed.collect_eq hsent]
  refine h.of_moved rfl rfl hfaithful [] rfl ?_
  show w.viewer.inbox ++ (w.feed.inbox ++ out) ++ forwarder.outstanding = w.waiting
  rw [waiting, ← hout, ← List.append_assoc, ← List.append_assoc]

/-- Results on their way keep their order. -/
theorem agrees_moved {kind : Kind} {start : Tail ε} {texts : List String} {w : Watch ε}
    (h : Agrees kind start texts w) {e : Event} (hmoved : ∀ e', e ≠ .session e') :
    Agrees kind start texts (w.step e) := by
  cases e with
  | session e => exact absurd rfl (hmoved e)
  | finish place =>
    refine h.of_work (Decoding.Forwarder.faithful_finish h.faithful place) []
      (List.append_nil _).symm ?_
    exact Decoding.Forwarder.outstanding_finish w.feed.forwarder place
  | wake =>
    obtain ⟨out, hsent, hout⟩ := Decoding.Forwarder.wake_sends h.faithful
    exact h.of_work (Decoding.Forwarder.faithful_wake h.faithful) out hsent hout
  | leave =>
    exact h.of_work (Decoding.Forwarder.faithful_close h.faithful) [] (List.append_nil _).symm rfl
  | receive most =>
    refine h.of_moved rfl rfl h.faithful [] rfl ?_
    show w.viewer.inbox ++ w.feed.inbox.take most ++ w.feed.inbox.drop most ++
      w.feed.forwarder.outstanding = w.waiting
    rw [List.append_assoc w.viewer.inbox, List.take_append_drop, waiting]
  | drain =>
    refine h.of_moved rfl rfl h.faithful (w.viewer.inbox.take View.mostAtOnce) rfl ?_
    show w.viewer.inbox.take View.mostAtOnce ++ (w.viewer.inbox.drop View.mostAtOnce ++
      w.feed.inbox ++ w.feed.forwarder.outstanding) = w.waiting
    rw [← List.append_assoc, ← List.append_assoc, List.take_append_drop, waiting]

theorem agrees_step {kind : Kind} {start : Tail ε} {texts : List String} {w : Watch ε}
    (h : Agrees kind start texts w) {e : Event}
    (hkept : e ≠ .session (.unsubscribe w.feed.handler)) :
    Agrees kind start (texts ++ (w.frame? e).toList) (w.step e) := by
  cases e with
  | session e => exact agrees_session h fun heq => hkept (by rw [heq])
  | _ =>
    simp only [frame?, Option.toList_none, List.append_nil]
    exact agrees_moved h nofun

theorem handler_step (w : Watch ε) (e : Event) : (w.step e).feed.handler = w.feed.handler := by
  cases e with
  | session e =>
    simp only [step]
    split
    · exact Feed.handler_hear w.feed _
    · rfl
  | _ => rfl

/-- No one but the feed gives up its handler. -/
def Kept (w : Watch ε) (events : List Event) : Prop :=
  ∀ e ∈ events, e ≠ .session (.unsubscribe w.feed.handler)

theorem agrees_run {kind : Kind} {start : Tail ε} {texts : List String} {w : Watch ε}
    (h : Agrees kind start texts w) {events : List Event} (hkept : w.Kept events) :
    Agrees kind start (texts ++ w.frames events) (w.run events) := by
  induction events generalizing texts w with
  | nil => simpa [frames, run] using h
  | cons e rest ih =>
    rw [frames, ← List.append_assoc]
    refine ih (agrees_step h (hkept e (List.mem_cons_self ..))) fun e' he' => ?_
    rw [handler_step]
    exact hkept e' (List.mem_cons_of_mem _ he')

/-! ### Waiting for what is on its way -/

/-- Nothing is on its way to the viewer. -/
structure Quiet (w : Watch ε) : Prop where
  drained : w.viewer.inbox = []
  received : w.feed.inbox = []
  sent : w.feed.forwarder.work = 0

theorem Quiet.waiting_eq {w : Watch ε} (h : w.Quiet) : w.waiting = [] := by
  rw [waiting, h.drained, h.received, Decoding.Forwarder.outstanding_of_work h.sent]
  rfl

/-- What happens to the results on their way, with no help from the session. -/
def Event.inward : Event → Bool
  | .session _ | .leave => false
  | _ => true

theorem frames_append (w : Watch ε) (a b : List Event) :
    w.frames (a ++ b) = w.frames a ++ (w.run a).frames b := by
  induction a generalizing w with
  | nil => rfl
  | cons e rest ih => rw [List.cons_append, frames, frames, ih, List.append_assoc, run]

theorem frames_inward {events : List Event} (h : ∀ e ∈ events, e.inward) (w : Watch ε) :
    w.frames events = [] := by
  induction events generalizing w with
  | nil => rfl
  | cons e rest ih =>
    have hnone : w.frame? e = none := by
      have := h e (List.mem_cons_self ..)
      cases e <;> first | rfl | cases this
    rw [frames, hnone, ih fun e' he' => h e' (List.mem_cons_of_mem _ he')]
    rfl

/-- The forwarder can always send what it has. -/
theorem sends_all {w : Watch ε} (h : w.feed.forwarder.Faithful) :
    ∃ more, (∀ e ∈ more, e.inward) ∧ (w.run more).feed.forwarder.work = 0 := by
  induction hwork : w.feed.forwarder.work generalizing w with
  | zero => exact ⟨[], nofun, hwork⟩
  | succ n ih =>
    have hround : ((w.step (.finish 0)).step .wake).feed.forwarder = w.feed.forwarder.round := rfl
    obtain ⟨more, hinward, hzero⟩ := ih (w := (w.step (.finish 0)).step .wake)
      (by rw [hround]; exact Decoding.Forwarder.faithful_round h)
      (by rw [hround, Decoding.Forwarder.work_round h, hwork]; rfl)
    exact ⟨.finish 0 :: .wake :: more, by simpa [Event.inward] using hinward, hzero⟩

/-- The viewer can always take all that has reached it. -/
theorem drains_all (w : Watch ε) :
    ∃ more, (∀ e ∈ more, e.inward) ∧ (w.run more).feed = w.feed ∧
      (w.run more).viewer.inbox = [] := by
  induction hlength : w.viewer.inbox.length using Nat.strongRecOn generalizing w with
  | ind n ih =>
    cases hinbox : w.viewer.inbox with
    | nil => exact ⟨[], nofun, rfl, hinbox⟩
    | cons d rest =>
      have hshorter : (w.step .drain).viewer.inbox.length < n := by
        show (w.viewer.inbox.drop View.mostAtOnce).length < n
        have hsome : 0 < View.mostAtOnce := by decide
        rw [List.length_drop, hlength]
        rw [hinbox, List.length_cons] at hlength
        omega
      obtain ⟨more, hinward, hfeed, hdrained⟩ := ih _ hshorter (w.step .drain) rfl
      exact ⟨.drain :: more, by simpa [Event.inward] using hinward, hfeed, hdrained⟩

/-- All that is on its way can reach the viewer's tail. -/
theorem quiet_later {w : Watch ε} (h : w.feed.forwarder.Faithful) :
    ∃ more, (∀ e ∈ more, e.inward) ∧ (w.run more).Quiet := by
  obtain ⟨sending, hsending, hwork⟩ := sends_all h
  let received := (w.run sending).step (.receive (w.run sending).feed.inbox.length)
  obtain ⟨draining, hdraining, hfeed, hdrained⟩ := drains_all received
  refine ⟨sending ++ .receive (w.run sending).feed.inbox.length :: draining, ?_, ?_⟩
  · intro e he
    rcases List.mem_append.mp he with he | he
    · exact hsending e he
    · rcases List.mem_cons.mp he with rfl | he
      · rfl
      · exact hdraining e he
  · rw [run_append]
    refine ⟨hdrained, ?_, ?_⟩
    · show (received.run draining).feed.inbox = []
      rw [hfeed]
      exact List.drop_length
    · show (received.run draining).feed.forwarder.work = 0
      rw [hfeed]
      exact hwork

/-- **Whatever the session does, in whatever order frames are decoded and results travel, once
nothing is on its way the viewer's tail holds and has counted what it would have if it had
taken every frame as it came**; and it can always come to that without another frame. -/
theorem watched_eq (target : Target) (policy : Backoff) (before : List Session.Event) (kind : Kind)
    (v : View.Viewer ε) (events : List Event)
    (hkept : (attach (({ target, policy } : Session).run before).2 kind v).Kept events) :
    let w := attach (({ target, policy } : Session).run before).2 kind v
    ((w.run events).Quiet →
      Tail.SameBooks (w.run events).viewer.tail
        ((w.frames events).foldl (Tail.takeFrame kind) v.tail)) ∧
    ∃ more, (∀ e ∈ more, e.inward) ∧ w.frames (events ++ more) = w.frames events ∧
      (w.run (events ++ more)).Quiet := by
  intro w
  have hvalid := Session.valid_run (s := { target, policy }) Registry.valid_new before
  have hagrees := agrees_run (agrees_attach hvalid kind v) hkept
  constructor
  · intro hquiet
    obtain ⟨taken, htaken, halike⟩ := hagrees.taken
    rw [hquiet.waiting_eq, List.append_nil] at halike
    rw [htaken, Tail.takeFrames_eq]
    exact Tail.sameBooks_ingestAll v.tail halike
  · obtain ⟨more, hinward, hquiet⟩ := quiet_later hagrees.faithful
    refine ⟨more, hinward, ?_, by rwa [run_append]⟩
    rw [frames_append, frames_inward hinward, List.append_nil]

/-- A viewer that has nothing yet. -/
def idle : View.Viewer DecodeError where
  tail :=
    { backlog := .new none, viewport := .new {}, observer := none, heard := #[], counts := {} }
  colors := default
  endpoint := ""
  status := .disconnected

/-- The last frame cannot be read, and is taken before the first. -/
def overtaking : List Event :=
  [.session .start, .session (.resume 0 .nothing), .session (.resume 0 .connected),
    .session (.resume 0 (.frame "[\"live_log\"]")), .wake,
    .session (.resume 0 (.frame "[\"other\"]")), .session (.resume 0 (.frame "x")),
    .receive 1, .drain, .finish 0, .wake, .receive 1, .drain]

/-- The feed of a session that has one other subscriber. -/
def second : Watch DecodeError :=
  attach (({ target := ⟨"", ⟨"c", by decide⟩⟩, policy := default } : Session).run
    [.subscribe .liveLog]).2 .liveLog idle

theorem watched_eq_overtaking :
    second.Kept overtaking ∧ (second.run overtaking).Quiet ∧
      Tail.SameBooks (second.run overtaking).viewer.tail
        ((second.frames overtaking).foldl (Tail.takeFrame .liveLog) idle.tail) := by
  have hkept : second.Kept overtaking := by simp [Kept, overtaking]
  have hquiet : (second.run overtaking).Quiet :=
    ⟨by decide +kernel, by decide +kernel, by decide +kernel⟩
  have hwatched := watched_eq ⟨"", ⟨"c", by decide⟩⟩ default [.subscribe .liveLog] .liveLog idle
    overtaking hkept
  exact ⟨hkept, hquiet, hwatched.1 hquiet⟩

end Watch
end Link
end LiveTail
