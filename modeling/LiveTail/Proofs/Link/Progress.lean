import LiveTail.Proofs.Link.Service

/-! The frames that a session has left, and how it comes to their end.

What a service has taken from its connections and what is `left` are at any moment the frames
of its script (`left_run`). Whenever the driver at work runs and what it waits for is ready, it
is nearer to the end of the script, and nothing but a stop sets it back (`effort_step`). So it
takes all that is left if it runs often enough, unless a connection stays open in front of
others (`exhausted_run`). -/
namespace LiveTail.Link

namespace Offer

/-- How often a driver runs for an attempt at most: to begin it, to have its connection, for
each frame, and to lose it. -/
def runs (o : Offer) : Nat := o.frames.length + 3

/-- How often it still does, by what it waits for. -/
def runsLeft (o : Offer) : Phase → Nat
  | .connecting => o.frames.length + 2
  | .reading => o.frames.length + o.ends.toNat
  | _ => 0

theorem runsLeft_le (o : Offer) (phase : Phase) : o.runsLeft phase ≤ o.runs := by
  have hends := Bool.toNat_le o.ends
  unfold runsLeft runs
  split <;> omega

end Offer

namespace Service

/-! ### The frames taken and the frames left -/

/-- The frames that are left to take, if no driver is stopped. -/
def left (s : Service) : List String :=
  s.session.held.elim [] s.lineAt ++ s.script.flatMap Offer.frames

theorem left_of_held {s : Service} {place : Nat} (h : s.session.held = some place) :
    s.left = s.lineAt place ++ s.script.flatMap Offer.frames := by
  rw [left, h]
  rfl

theorem left_still {s : Service} {place : Nat} {ready : Bool} (h : s.Still place ready) :
    (s.frame? (.wake place ready)).toList ++ (s.step (.wake place ready)).left = s.left := by
  have hsame : (s.step (.wake place ready)).lineAt = s.lineAt := by
    funext other
    rw [lineAt, h.lines, lineAt]
  rw [left, held_wake, hsame, h.script, h.frame]
  rfl

/-- A driver that is woken takes the first of the frames that are left, or leaves them all. -/
theorem left_wake {s : Service} (h : s.Sound) (place : Nat) (ready : Bool) :
    (s.frame? (.wake place ready)).toList ++ (s.step (.wake place ready)).left = s.left := by
  have hheld := held_wake s place ready
  cases s.woken place ready with
  | takes d text rest ending hd _ hlive hline hframe _ hlines hscript =>
    have hplace := (h.orderly.live place d hd hlive).1
    have hbefore : s.lineAt place = text :: rest := by rw [lineAt, hline]; rfl
    have hrest : (s.step (.wake place ready)).lineAt place = rest := by
      simp [lineAt, hlines, hold, Offer.frames]
    rw [left_of_held hplace, left_of_held (hheld.trans hplace), hframe, hbefore, hrest, hscript]
    rfl
  | dials d e hd hlive hphase hframe hafter hnext hlines hscript =>
    have hplace := (h.orderly.live place d hd hlive).1
    have hspent : s.lineAt place = [] := by
      have hlined := h.lined place d hplace hd
      rcases hphase with hphase | hphase <;> rwa [hphase] at hlined
    have hline : (s.step (.wake place ready)).lineAt place =
        s.script.head?.elim [] Offer.frames := by
      simp [lineAt, hlines, hold]
    rw [left_of_held hplace, left_of_held (hheld.trans hplace), hframe, hspent, hline, hscript]
    cases s.script <;> rfl
  | opens _ _ _ _ _ _ _ _ _ _ hstill => exact left_still hstill
  | loses _ _ _ _ _ _ _ _ _ _ _ hstill => exact left_still hstill
  | rests _ hstill => exact left_still hstill

/-- A session that is not told to stop takes the first of the frames that are left, or leaves
them all. -/
theorem left_step {s : Service} (h : s.Sound) {e : Event} (hstop : e ≠ .stop) (hdrop : e ≠ .drop) :
    (s.frame? e).toList ++ (s.step e).left = s.left := by
  cases e with
  | wake place ready => exact left_wake h place ready
  | start =>
    show (s.tell .start).left = s.left
    simp only [left, tell, Session.step, Session.start]
    split
    · rfl
    next hidle =>
      have hheld : s.session.held = none := by simpa [h.orderly.running_iff] using hidle
      rw [hheld]
      show (s.lines s.session.drivers.length).elim [] Offer.frames ++ _ = _
      rw [h.unborn _ (Nat.le_refl _)]
      rfl
  | stop => exact absurd rfl hstop
  | drop => exact absurd rfl hdrop
  | _ => rfl

/-- What a driver that is stopped has left is never taken. -/
theorem left_of_idle {s t : Service} (hheld : t.session.held = none)
    (hscript : t.script = s.script) : t.left.Sublist s.left := by
  rw [left, hheld, hscript]
  exact List.sublist_append_right ..

theorem order_step {s : Service} (h : s.Sound) (e : Event) :
    ((s.frame? e).toList ++ (s.step e).left).Sublist s.left := by
  by_cases hstop : e = .stop
  · subst hstop
    exact left_of_idle (held_stop s.session) rfl
  by_cases hdrop : e = .drop
  · subst hdrop
    exact left_of_idle (Session.held_cancel s.session) rfl
  rw [left_step h hstop hdrop]

/-- **The frames that a session takes are those of its connections, one after the other.** -/
theorem left_run {s : Service} (h : s.Sound) {events : List Event}
    (hevents : ∀ e ∈ events, e ≠ .stop ∧ e ≠ .drop) :
    s.frames events ++ (s.run events).left = s.left := by
  induction events generalizing s with
  | nil => rfl
  | cons e rest ih =>
    obtain ⟨hstop, hdrop⟩ := hevents e (List.mem_cons_self ..)
    rw [frames, run, List.append_assoc,
      ih (sound_step h e) fun e' he' => hevents e' (List.mem_cons_of_mem _ he'),
      left_step h hstop hdrop]

theorem order_run {s : Service} (h : s.Sound) (events : List Event) :
    (s.frames events ++ (s.run events).left).Sublist s.left := by
  induction events generalizing s with
  | nil => exact .refl _
  | cons e rest ih =>
    rw [frames, run, List.append_assoc]
    exact ((ih (sound_step h e)).append_left _).trans (order_step h e)

/-! ### Coming to the end -/

/-- The attempts that are left: that of the driver at work and those of the script. -/
def attempts (s : Service) : List Offer := (s.session.held.bind s.lines).toList ++ s.script

/-- Every attempt that is left comes to its end, but perhaps the last. -/
def Ending (s : Service) : Prop := ∀ o ∈ s.attempts.dropLast, o.ends = true

/-- How often the driver at work still runs at most until nothing is left. -/
def effort (s : Service) : Nat :=
  (s.script.map Offer.runs).sum + s.session.held.elim 0 fun place =>
    s.session.drivers[place]?.elim 0 fun d => (s.lines place).elim 0 (·.runsLeft d.phase)

/-- A list of attempts that ends as another does has no more in front of its last. -/
theorem Ending.of_suffix {s t : Service} (h : s.Ending)
    (hsuffix : t.attempts.map Offer.ends <:+ s.attempts.map Offer.ends) : t.Ending := by
  have hall : ∀ b ∈ (s.attempts.map Offer.ends).dropLast, b = true := by
    rw [← List.map_dropLast, List.forall_mem_map]
    exact h
  obtain ⟨front, hfront⟩ := hsuffix
  rw [Ending, ← List.forall_mem_map (f := Offer.ends) (P := (· = true)), List.map_dropLast]
  cases hnone : t.attempts.map Offer.ends with
  | nil => exact nofun
  | cons b rest =>
    rw [hnone] at hfront
    rw [← hfront, List.dropLast_append_of_ne_nil (List.cons_ne_nil b rest)] at hall
    exact fun b hb => hall b (List.mem_append_right _ hb)

theorem Ending.of_same {s t : Service} (h : s.Ending)
    (hsame : t.attempts.map Offer.ends = s.attempts.map Offer.ends) : t.Ending :=
  h.of_suffix (hsame ▸ List.suffix_rfl)

theorem Ending.still {s : Service} (h : s.Ending) {place : Nat} {ready : Bool}
    (hstill : s.Still place ready) : (s.step (.wake place ready)).Ending := by
  rw [Ending, attempts, held_wake, hstill.lines, hstill.script]
  exact h

section Held
variable {s : Service} {place : Nat} (hheld : s.session.held = some place)
include hheld

theorem attempts_of_held : s.attempts = (s.lines place).toList ++ s.script := by
  rw [attempts, hheld]
  rfl

theorem effort_of_held {d : Driver} (hd : s.session.drivers[place]? = some d) :
    s.effort = (s.script.map Offer.runs).sum + (s.lines place).elim 0 (·.runsLeft d.phase) := by
  rw [effort, hheld, Option.elim_some, hd, Option.elim_some]

theorem effort_le {d : Driver} (hd : s.session.drivers[place]? = some d) :
    s.effort ≤ (s.attempts.map Offer.runs).sum := by
  rw [effort_of_held hheld hd, attempts_of_held hheld, List.map_append, List.sum_append]
  cases s.lines place with
  | none => simp
  | some o =>
    have hle := o.runsLeft_le d.phase
    simp only [Option.elim_some, Option.toList_some, List.map_cons, List.map_nil, List.sum_cons,
      List.sum_nil]
    omega

/-- Where there is nothing more to run for, nothing is left. -/
theorem left_of_effort (h : s.Sound) (heffort : s.effort = 0) : s.left = [] := by
  obtain ⟨d, hd, -⟩ := h.orderly.held place hheld
  have hlined := h.lined place d hheld hd
  rw [effort_of_held hheld hd, Nat.add_eq_zero_iff] at heffort
  obtain ⟨hscript, hline⟩ := heffort
  have hnone : s.script = [] := by
    cases hoffers : s.script with
    | nil => rfl
    | cons o rest =>
      rw [hoffers, List.map_cons, List.sum_cons, Offer.runs] at hscript
      omega
  have hspent : s.lineAt place = [] := by
    rw [lineAt]
    cases hphase : d.phase with
    | connecting =>
      cases hoffer : s.lines place with
      | none => rfl
      | some o => simp [hoffer, hphase, Offer.runsLeft] at hline
    | reading =>
      rw [hphase] at hlined
      obtain ⟨frames, ending, hoffer⟩ := hlined
      rw [hoffer, hphase, Option.elim_some, Offer.runsLeft, Nat.add_eq_zero_iff] at hline
      rw [hoffer]
      exact List.eq_nil_of_length_eq_zero hline.1
    | _ =>
      rw [hphase] at hlined
      exact hlined
  rw [left_of_held hheld, hspent, hnone]
  rfl

/-- A driver at work that goes on waiting though what it waits for is ready has nothing left to
run for. -/
theorem effort_of_stuck (h : s.Sound) (hends : s.Ending) {d : Driver}
    (hd : s.session.drivers[place]? = some d) (hlive : d.cancelled = false)
    (hstuck : d.Stuck (s.lines place)) : s.effort = 0 := by
  have hlined := h.lined place d hheld hd
  rw [effort_of_held hheld hd]
  rcases hstuck with hphase | ⟨hphase, hnone⟩ | ⟨hphase, hempty⟩
  · exact absurd hphase (h.orderly.shown place d hd hlive).1
  · rw [hphase] at hlined
    rw [hlined hnone, hnone]
    rfl
  · rw [hphase] at hlined
    obtain ⟨frames, ending, hline⟩ := hlined
    obtain ⟨rfl, rfl⟩ := hempty frames ending hline
    have hscript : s.script = [] := by
      cases hoffers : s.script with
      | nil => rfl
      | cons o rest =>
        have hopen : Offer.serve [] none ∈ s.attempts.dropLast := by
          rw [attempts_of_held hheld, hline, hoffers]
          exact List.mem_cons_self ..
        cases hends _ hopen
    rw [hscript, hline, hphase]
    rfl

/-- Running the driver at work leaves a script that comes to its end. -/
theorem ending_wake (hends : s.Ending) (ready : Bool) : (s.step (.wake place ready)).Ending := by
  have hheld' := (held_wake s place ready).trans hheld
  cases s.woken place ready with
  | takes d text rest ending _ _ _ hline _ _ hlines hscript =>
    refine hends.of_same ?_
    rw [attempts_of_held hheld, attempts_of_held hheld', hscript, hline, hlines]
    simp [hold, Offer.ends]
  | dials d e _ _ _ _ _ _ hlines hscript =>
    refine hends.of_suffix ?_
    rw [attempts_of_held hheld, attempts_of_held hheld', hscript, hlines, List.map_append,
      List.map_append]
    cases s.script with
    | nil => simp [hold]
    | cons o offers => simp [hold]
  | opens _ _ _ _ _ _ _ _ _ _ hstill => exact hends.still hstill
  | loses _ _ _ _ _ _ _ _ _ _ _ hstill => exact hends.still hstill
  | rests _ hstill => exact hends.still hstill

/-- The driver at work is nearer to the end once it has run, if what it waits for was ready. -/
theorem effort_wake (h : s.Sound) (hends : s.Ending) (ready : Bool) :
    (s.step (.wake place ready)).effort ≤ s.effort - ready.toNat := by
  have hready := Bool.toNat_le ready
  have hheld' := (held_wake s place ready).trans hheld
  cases s.woken place ready with
  | takes d text rest ending hd hphase _ hline _ hafter hlines hscript =>
    have hline' : (s.step (.wake place ready)).lines place = some (.serve rest ending) := by
      simp [hlines, hold]
    rw [effort_of_held hheld hd, effort_of_held hheld' (hafter ▸ hd), hscript, hline, hline',
      hphase]
    simp only [Option.elim_some, Offer.runsLeft, Offer.frames, Offer.ends, List.length_cons]
    omega
  | dials d e hd _ hphase _ hafter hnext hlines hscript =>
    have hline' : (s.step (.wake place ready)).lines place = s.script.head? := by
      simp [hlines, hold]
    have hidle : (s.lines place).elim 0 (·.runsLeft d.phase) = 0 := by
      rcases hphase with hphase | hphase <;> rw [hphase] <;> cases s.lines place <;> rfl
    rw [effort_of_held hheld hd, effort_of_held hheld' hafter, hscript, hline', hidle, hnext]
    cases s.script with
    | nil => exact Nat.zero_le _
    | cons o offers =>
      simp only [List.tail_cons, List.head?_cons, List.map_cons, List.sum_cons, Option.elim_some,
        Offer.runsLeft, Offer.runs]
      omega
  | opens d e frames ending hd hphase _ hline hafter hnext hstill =>
    have hopen := Bool.toNat_le (Offer.serve frames ending).ends
    rw [effort_of_held hheld hd, effort_of_held hheld' hafter, hstill.script, hstill.lines,
      hline, hphase, hnext]
    simp only [Option.elim_some, Offer.runsLeft]
    omega
  | loses d e o hd hphase _ hline hspent hlost hafter hnext hstill =>
    have hpos : 1 ≤ o.runsLeft d.phase := by
      rcases hphase with hphase | hphase <;> simp [hphase, Offer.runsLeft, hlost]
    rw [effort_of_held hheld hd, effort_of_held hheld' hafter, hstill.script, hstill.lines,
      hline, hnext]
    simp only [Option.elim_some]
    show _ + 0 ≤ _
    omega
  | rests hrests hstill =>
    obtain ⟨d, hd', hlive⟩ := (sound_step h (.wake place ready)).orderly.held place hheld'
    obtain ⟨hd, hstuck⟩ := hrests d hd' hlive
    have hsame : (s.step (.wake place ready)).effort = s.effort := by
      rw [effort_of_held hheld hd, effort_of_held hheld' hd', hstill.script, hstill.lines]
    rw [hsame]
    cases ready with
    | false => exact Nat.le_refl _
    | true =>
      rw [effort_of_stuck hheld h hends hd hlive (hstuck rfl)]
      exact Nat.zero_le _

/-- Whatever else happens, the driver at work keeps its place. -/
theorem keeps_work (h : s.Sound) {e : Event} (hstop : e ≠ .stop) (hdrop : e ≠ .drop)
    (hwake : ∀ ready, e ≠ .wake place ready) :
    (s.step e).session.held = some place ∧
      (s.step e).session.drivers[place]? = s.session.drivers[place]? ∧
      (s.step e).lines place = s.lines place ∧ (s.step e).script = s.script := by
  cases e with
  | stop => exact absurd rfl hstop
  | drop => exact absurd rfl hdrop
  | start =>
    have hrunning : s.session.running = true := h.orderly.running_iff.mpr (by simp [hheld])
    have hsame : s.session.start.2 = s.session := by rw [Session.start, if_pos hrunning]
    show s.session.start.2.held = _ ∧ s.session.start.2.drivers[place]? = _ ∧ _
    rw [hsame]
    exact ⟨hheld, rfl, rfl, rfl⟩
  | wake other ready =>
    have hne : place ≠ other := fun heq => hwake ready (heq ▸ rfl)
    have hidle : ∀ d, s.session.drivers[other]? = some d → d.cancelled = true := by
      intro d hd
      cases hlive : d.cancelled with
      | true => rfl
      | false =>
        have hlast := (h.orderly.live other d hd hlive).1
        rw [hheld, Option.some.injEq] at hlast
        exact absurd hlast hne
    have hstill : s.Still other ready := still_wake ready hidle
    exact ⟨(held_wake s other ready).trans hheld, others_wake s hne ready,
      congrFun hstill.lines place, hstill.script⟩
  | _ => exact ⟨hheld, rfl, rfl, rfl⟩

/-- A session that is not told to stop comes nearer to the end of its script whenever its driver
runs and what that waits for is ready, and is never set back. -/
theorem effort_step (h : s.Sound) (hends : s.Ending) {e : Event} (hstop : e ≠ .stop)
    (hdrop : e ≠ .drop) :
    (s.step e).session.held = some place ∧ (s.step e).Ending ∧
      (s.step e).effort ≤ s.effort - if e = .wake place true then 1 else 0 := by
  by_cases hwake : ∃ ready, e = .wake place ready
  · obtain ⟨ready, rfl⟩ := hwake
    have hless := effort_wake hheld h hends ready
    refine ⟨(held_wake s place ready).trans hheld, ending_wake hheld hends ready,
      Nat.le_trans hless (Nat.le_of_eq ?_)⟩
    cases ready <;> simp
  · rw [not_exists] at hwake
    obtain ⟨hheld', hdrivers, hline, hscript⟩ := keeps_work hheld h hstop hdrop hwake
    refine ⟨hheld', hends.of_same ?_, ?_⟩
    · rw [attempts_of_held hheld, attempts_of_held hheld', hscript, hline]
    · rw [if_neg (hwake true), effort, effort, hheld, hheld', hscript]
      simp only [Option.elim_some, hdrivers, hline]
      exact Nat.le_refl _

end Held

/-- **A driver that runs often enough takes all that is left**, whatever happens in between, if
every attempt but the last comes to its end. -/
theorem exhausted_run {s : Service} (h : s.Sound) {place : Nat}
    (hheld : s.session.held = some place) (hends : s.Ending) {events : List Event}
    (hevents : ∀ e ∈ events, e ≠ .stop ∧ e ≠ .drop)
    (henough : s.effort ≤ events.count (.wake place true)) : (s.run events).left = [] := by
  induction events generalizing s with
  | nil => exact left_of_effort hheld h (Nat.eq_zero_of_le_zero henough)
  | cons e rest ih =>
    obtain ⟨hstop, hdrop⟩ := hevents e (List.mem_cons_self ..)
    obtain ⟨hheld', hends', hless⟩ := effort_step hheld h hends hstop hdrop
    refine ih (sound_step h e) hheld' hends' (fun e' he' => hevents e' (List.mem_cons_of_mem _ he'))
      (Nat.le_trans hless ?_)
    simp only [List.count_cons, beq_iff_eq] at henough
    omega

end Service
end LiveTail.Link
