import LiveTail.Proofs.Tail

/-! The accounts of a tail.

What an action brings to a tail is a record, a failure or neither. Records are
numbered and counted; failures are counted by their stages and reported, and change
nothing else (`Isolated`). So after any actions the counters, the numbers given and
what the observers were told can be read off the outcomes alone, and every record
that came is still held, was dropped by the limit, or went with a clear
(`balanced_run`). -/
namespace LiveTail
open Rows

/-! ### Outcomes -/

/-- The records among outcomes of decoding. -/
def records (ds : List Decoded) : List LogRecord := ds.filterMap fun
  | .ok r => some r
  | .error _ => none

/-- The failures among outcomes of decoding. -/
def failures (ds : List Decoded) : List DecodeError := ds.filterMap fun
  | .ok _ => none
  | .error e => some e

/-- The frames dropped at a stage. -/
def Counts.failed (c : Counts) : Stage → Nat
  | .envelope => c.envelope
  | .encoding => c.encoding
  | .decompression => c.decompression
  | .schema => c.schema

theorem Counts.dropped_eq (c : Counts) :
    c.dropped = c.failed .envelope + c.failed .encoding + c.failed .decompression +
      c.failed .schema := rfl

@[simp] theorem Counts.failed_fail (c : Counts) (stage s : Stage) :
    (c.fail stage).failed s = c.failed s + if s = stage then 1 else 0 := by
  cases stage <;> cases s <;> rfl

@[simp] theorem Counts.appended_fail (c : Counts) (stage : Stage) :
    (c.fail stage).appended = c.appended := by cases stage <;> rfl

@[simp] theorem Counts.evicted_fail (c : Counts) (stage : Stage) :
    (c.fail stage).evicted = c.evicted := by cases stage <;> rfl

theorem Counts.ext {c d : Counts} (happended : c.appended = d.appended)
    (hevicted : c.evicted = d.evicted) (hfailed : ∀ stage, c.failed stage = d.failed stage) :
    c = d := by
  obtain ⟨_, _, _, _, _, _⟩ := c
  obtain ⟨_, _, _, _, _, _⟩ := d
  cases happended
  cases hevicted
  cases hfailed .envelope
  cases hfailed .encoding
  cases hfailed .decompression
  cases hfailed .schema
  rfl

/-- Each failure has one of the four stages. -/
theorem sum_countP_stage (es : List DecodeError) :
    es.countP (·.stage = .envelope) + es.countP (·.stage = .encoding) +
      es.countP (·.stage = .decompression) + es.countP (·.stage = .schema) = es.length := by
  induction es with
  | nil => rfl
  | cons e rest ih =>
    simp only [List.countP_cons, List.length_cons]
    cases e.stage <;> simp <;> omega

namespace Tail
variable {ε : Type}

/-- The outcome of decoding that an action brings. -/
def Action.outcome? : Action ε → Option Decoded
  | .append r => some (.ok r)
  | .ingestText text => some (Frame.decode text)
  | .ingestMessage m => some (Frame.decodeMessage m)
  | .ingest d => some d
  | _ => none

def outcomes (actions : List (Action ε)) : List Decoded := actions.filterMap Action.outcome?

/-- The number that an action gives to a record. -/
def answer (t : Tail ε) : Action ε → Option Nat
  | .append r => some (t.append r).1
  | .ingestText text => (t.ingestText text).1
  | .ingestMessage m => (t.ingestMessage m).1
  | .ingest d => (t.ingest d).1
  | _ => none

/-- The numbers given by actions, in order. -/
def answers (t : Tail ε) : List (Action ε) → List Nat
  | [] => []
  | a :: rest => (t.answer a).toList ++ (t.act a).answers rest

/-- The records that an action clears away. -/
def lost (t : Tail ε) : Action ε → Nat
  | .clear => t.size
  | _ => 0

def cleared (t : Tail ε) : List (Action ε) → Nat
  | [] => 0
  | a :: rest => t.lost a + (t.act a).cleared rest

/-- The observer after an action. -/
def Action.observer (a : Action ε) (observer : Option (DecodeError → ε)) :
    Option (DecodeError → ε) :=
  match a with
  | .observe later => some later
  | _ => observer

/-- What an observer makes of the failure that an action brings. -/
def Action.told (a : Action ε) (observer : Option (DecodeError → ε)) : List ε :=
  match a.outcome? with
  | some (.error e) => (observer.map (· e)).toList
  | _ => []

/-- What is made of the failures among actions, each by the observer of its moment. -/
def reports (observer : Option (DecodeError → ε)) : List (Action ε) → List ε
  | [] => []
  | a :: rest => a.told observer ++ reports (a.observer observer) rest

/-! ### One action -/

/-- A failure that left nothing behind but its count and what the observer was told. -/
structure Isolated (before after : Tail ε) (e : DecodeError) : Prop where
  backlog : after.backlog = before.backlog
  viewport : after.viewport = before.viewport
  observer : after.observer = before.observer
  appended : after.counts.appended = before.counts.appended
  evicted : after.counts.evicted = before.counts.evicted
  failed : ∀ stage, after.counts.failed stage =
    before.counts.failed stage + if stage = e.stage then 1 else 0
  heard : after.heard.toList = before.heard.toList ++ (before.observer.map (· e)).toList

theorem isolated_drop (t : Tail ε) (e : DecodeError) : Isolated t (t.drop e) e := by
  constructor
  case heard => cases h : t.observer <;> simp [drop, h]
  all_goals simp [drop]

/-- What an action comes to, for the accounts. -/
inductive Effect (t : Tail ε) (a : Action ε) : Prop
  | record (r : LogRecord) (houtcome : a.outcome? = some (.ok r))
      (hact : t.act a = (t.append r).2) (hanswer : t.answer a = some t.backlog.next)
      (hlost : t.lost a = 0) (hobserver : a.observer t.observer = t.observer)
  | failure (e : DecodeError) (houtcome : a.outcome? = some (.error e))
      (hact : t.act a = t.drop e) (hanswer : t.answer a = none)
      (hlost : t.lost a = 0) (hobserver : a.observer t.observer = t.observer)
  | clear (ha : a = .clear)
  /-- Another observer, or another view of the same records. -/
  | view (houtcome : a.outcome? = none) (viewport : Viewport)
      (hact : t.act a = { t with viewport, observer := a.observer t.observer })
      (hanswer : t.answer a = none) (hlost : t.lost a = 0)

theorem effect_ingest (t : Tail ε) {a : Action ε} {d : Decoded} (houtcome : a.outcome? = some d)
    (hact : t.act a = (t.ingest d).2) (hanswer : t.answer a = (t.ingest d).1)
    (hlost : t.lost a = 0) (hobserver : a.observer t.observer = t.observer) : Effect t a := by
  cases d with
  | ok r => exact .record r houtcome hact hanswer hlost hobserver
  | error e => exact .failure e houtcome hact hanswer hlost hobserver

theorem effect (t : Tail ε) (a : Action ε) : Effect t a := by
  cases a with
  | append r => exact .record r rfl rfl rfl rfl rfl
  | ingestText text => exact effect_ingest t rfl rfl rfl rfl rfl
  | ingestMessage m => exact effect_ingest t rfl rfl rfl rfl rfl
  | ingest d => exact effect_ingest t rfl rfl rfl rfl rfl
  | clear => exact .clear rfl
  | measure sequence height =>
    have hact : ∃ viewport, t.act (.measure sequence height) = { t with viewport } := by
      simp only [act, measure]
      cases t.viewport.measure sequence height with
      | ok known => exact ⟨known.2, rfl⟩
      | error e => exact ⟨t.viewport, rfl⟩
    obtain ⟨viewport, hact⟩ := hact
    exact .view rfl viewport hact rfl rfl
  | _ => exact .view rfl _ rfl rfl rfl

theorem act_of_ok (t : Tail ε) {a : Action ε} {r : LogRecord} (h : a.outcome? = some (.ok r)) :
    t.act a = (t.append r).2 ∧ t.answer a = some t.backlog.next := by
  cases t.effect a with
  | record s houtcome hact hanswer =>
    rw [h] at houtcome
    cases houtcome
    exact ⟨hact, hanswer⟩
  | failure e houtcome => simp [h] at houtcome
  | clear ha => subst ha; cases h
  | view houtcome => simp [h] at houtcome

theorem act_of_error (t : Tail ε) {a : Action ε} {e : DecodeError}
    (h : a.outcome? = some (.error e)) : t.act a = t.drop e ∧ t.answer a = none := by
  cases t.effect a with
  | record s houtcome => simp [h] at houtcome
  | failure e houtcome hact hanswer =>
    rw [h] at houtcome
    cases houtcome
    exact ⟨hact, hanswer⟩
  | clear ha => subst ha; cases h
  | view houtcome => simp [h] at houtcome

/-! ### Any actions -/

/-- The way from one tail to another is accounted for by the outcomes that came, the
numbers given, the records cleared away and what was reported. -/
structure Books (t u : Tail ε) (ds : List Decoded) (numbers : List Nat) (gone : Nat)
    (told : List ε) : Prop where
  appended : u.counts.appended = t.counts.appended + (records ds).length
  next : u.backlog.next = t.backlog.next + (records ds).length
  numbers : numbers = List.range' t.backlog.next (records ds).length
  failed : ∀ stage, u.counts.failed stage =
    t.counts.failed stage + (failures ds).countP (·.stage = stage)
  heard : u.heard.toList = t.heard.toList ++ told
  kept : u.size + u.counts.evicted + gone = t.size + t.counts.evicted + (records ds).length

theorem Books.refl (t : Tail ε) : Books t t [] [] 0 [] := by
  constructor <;> simp [records, failures]

theorem Books.trans {t u v : Tail ε} {ds es : List Decoded} {m n : List Nat} {g h : Nat}
    {a b : List ε} (first : Books t u ds m g a) (later : Books u v es n h b) :
    Books t v (ds ++ es) (m ++ n) (g + h) (a ++ b) := by
  have hrecords : (records (ds ++ es)).length = (records ds).length + (records es).length := by
    simp [records]
  constructor
  case appended => rw [later.appended, first.appended, hrecords, Nat.add_assoc]
  case next => rw [later.next, first.next, hrecords, Nat.add_assoc]
  case numbers =>
    rw [first.numbers, later.numbers, first.next, hrecords, List.range'_append_1]
  case failed =>
    intro stage
    have hfailures : failures (ds ++ es) = failures ds ++ failures es := List.filterMap_append
    rw [later.failed, first.failed, hfailures, List.countP_append, Nat.add_assoc]
  case heard => rw [later.heard, first.heard, List.append_assoc]
  case kept =>
    have hfirst := first.kept
    have hlater := later.kept
    omega

/-- An append makes room first: what is dropped is counted. -/
theorem books_append {t : Tail ε} (h : Valid t) (r : LogRecord) :
    Books t (t.append r).2 [.ok r] [t.backlog.next] 0 [] := by
  have hsize := Backlog.size_append h.backlog r
  have hdropped := Backlog.excess_grow_le h.backlog r
  rw [← Backlog.dropped_append] at hdropped
  constructor
  case numbers => rfl
  case next => exact Backlog.next_append t.backlog r
  case appended => rfl
  case failed => exact fun stage => by cases stage <;> rfl
  case heard => simp [append]
  case kept =>
    show (t.backlog.append r).2.size + (t.counts.evicted + (t.backlog.append r).1.dropped) + 0 =
      t.backlog.size + t.counts.evicted + 1
    omega

theorem books_drop (t : Tail ε) (e : DecodeError) :
    Books t (t.drop e) [.error e] [] 0 (t.observer.map (· e)).toList := by
  have hisolated := isolated_drop t e
  constructor
  case heard => exact hisolated.heard
  case failed =>
    intro stage
    rw [hisolated.failed]
    simp [failures, List.countP_cons, eq_comm]
  all_goals simp [records, drop, size]

theorem books_clear (t : Tail ε) : Books t t.clear [] [] t.size [] := by
  have hempty : t.clear.size = 0 := rfl
  constructor
  case kept =>
    rw [hempty]
    show 0 + t.counts.evicted + t.size = t.size + t.counts.evicted + 0
    omega
  all_goals simp [clear, records, failures, Backlog.clear]

theorem books_act {t : Tail ε} (h : Valid t) (a : Action ε) :
    Books t (t.act a) a.outcome?.toList (t.answer a).toList (t.lost a) (a.told t.observer) := by
  cases t.effect a with
  | record r houtcome hact hanswer hlost =>
    rw [hact, hanswer, hlost, Action.told, houtcome]
    exact books_append h r
  | failure e houtcome hact hanswer hlost =>
    rw [hact, hanswer, hlost, Action.told, houtcome]
    exact books_drop t e
  | clear ha =>
    subst ha
    exact books_clear t
  | view houtcome viewport hact hanswer hlost =>
    rw [hact, hanswer, hlost, Action.told, houtcome]
    constructor <;> simp [records, failures, size]

theorem observer_act (t : Tail ε) (a : Action ε) :
    (t.act a).observer = a.observer t.observer := by
  cases t.effect a with
  | record r _ hact _ _ hobserver => rw [hact, hobserver]; rfl
  | failure e _ hact _ _ hobserver => rw [hact, hobserver]; rfl
  | clear ha => subst ha; rfl
  | view _ viewport hact => rw [hact]

theorem books_run {t : Tail ε} (h : Valid t) (actions : List (Action ε)) :
    Books t (t.run actions) (outcomes actions) (t.answers actions) (t.cleared actions)
      (reports t.observer actions) := by
  induction actions generalizing t with
  | nil => exact .refl t
  | cons a rest ih =>
    have hlater := ih (valid_act h a)
    rw [observer_act] at hlater
    have hboth := (books_act h a).trans hlater
    have houtcomes : outcomes (a :: rest) = a.outcome?.toList ++ outcomes rest := by
      rw [outcomes, List.filterMap_cons]
      cases a.outcome? <;> rfl
    rw [houtcomes]
    exact hboth

/-! ### From the beginning -/

/-- Nothing has come yet. -/
structure Fresh (t : Tail ε) : Prop where
  counts : t.counts = {}
  next : t.backlog.next = 0
  size : t.size = 0
  heard : t.heard = #[]

theorem fresh_of? {s : TailSettings} {t : Tail ε} (h : of? s = .ok t) : Fresh t := by
  obtain ⟨limit, rfl⟩ := new_of? h
  exact ⟨rfl, rfl, rfl, rfl⟩

theorem reports_of_one (observer : DecodeError → ε) {actions : List (Action ε)}
    (h : ∀ later, .observe later ∉ actions) :
    reports (some observer) actions = (failures (outcomes actions)).map observer := by
  induction actions with
  | nil => rfl
  | cons a rest ih =>
    have hsame : a.observer (some observer) = some observer := by
      cases a with
      | observe later => exact absurd (List.mem_cons_self ..) (h later)
      | _ => rfl
    have hrest := ih fun later hmem => h later (List.mem_cons_of_mem _ hmem)
    rw [reports, hsame, hrest, Action.told, outcomes, outcomes, List.filterMap_cons]
    rcases a.outcome? with _ | _ | r <;> rfl

/-- A tail that started empty, and all that was done with it. -/
structure Balanced (t : Tail ε) (actions : List (Action ε)) : Prop where
  /-- A frame that fails gets no number and leaves all but its count as it was. -/
  isolated : ∀ a e, a.outcome? = some (.error e) →
    (t.run actions).answer a = none ∧ Isolated (t.run actions) ((t.run actions).act a) e
  /-- A frame that is read gets the next number, and its record is found under it. -/
  numbered : ∀ a r, a.outcome? = some (.ok r) →
    (t.run actions).answer a = some (t.run actions).backlog.next ∧
      ((t.run actions).act a).backlog.get? (t.run actions).backlog.next = some r
  /-- Numbers count the records, whatever became of the earlier ones. -/
  answers : t.answers actions = List.range (records (outcomes actions)).length
  appended : (t.run actions).counts.appended = (records (outcomes actions)).length
  next : (t.run actions).backlog.next = (t.run actions).counts.appended
  failed : ∀ stage, (t.run actions).counts.failed stage =
    (failures (outcomes actions)).countP (·.stage = stage)
  dropped : (t.run actions).counts.dropped = (failures (outcomes actions)).length
  heard : (t.run actions).heard.toList = reports t.observer actions
  /-- One observer hears of every failure once, in the order of arrival. -/
  heard_one : ∀ observer, (∀ later, .observe later ∉ actions) →
    ((t.observe observer).run actions).heard.toList =
      (failures (outcomes actions)).map observer
  /-- A record that came is held, was dropped by the limit, or was cleared away. -/
  kept : (t.run actions).size + (t.run actions).counts.evicted + t.cleared actions =
    (t.run actions).counts.appended

theorem balanced {t : Tail ε} (h : Valid t) (hfresh : Fresh t) (actions : List (Action ε)) :
    Balanced t actions := by
  have hbooks := books_run h actions
  have hvalid := valid_run h actions
  have hnone : ∀ stage, t.counts.failed stage = 0 := by
    rw [hfresh.counts]
    exact fun stage => by cases stage <;> rfl
  have hfailed : ∀ stage, (t.run actions).counts.failed stage =
      (failures (outcomes actions)).countP (·.stage = stage) := by
    intro stage
    rw [hbooks.failed, hnone, Nat.zero_add]
  have happended : (t.run actions).counts.appended = (records (outcomes actions)).length := by
    rw [hbooks.appended, hfresh.counts]
    exact Nat.zero_add _
  constructor
  case isolated =>
    intro a e houtcome
    obtain ⟨hact, hanswer⟩ := act_of_error (t.run actions) houtcome
    rw [hact]
    exact ⟨hanswer, isolated_drop _ e⟩
  case numbered =>
    intro a r houtcome
    obtain ⟨hact, hanswer⟩ := act_of_ok (t.run actions) houtcome
    rw [hact]
    exact ⟨hanswer, Backlog.get?_append hvalid.backlog r⟩
  case answers => rw [hbooks.numbers, hfresh.next, List.range_eq_range']
  case appended => exact happended
  case next => rw [hbooks.next, happended, hfresh.next, Nat.zero_add]
  case failed => exact hfailed
  case dropped =>
    rw [Counts.dropped_eq, hfailed, hfailed, hfailed, hfailed]
    exact sum_countP_stage _
  case heard => rw [hbooks.heard, hfresh.heard, List.nil_append]
  case heard_one =>
    intro observer hone
    have hobserved := books_run (t := t.observe observer) (valid_act h (.observe observer)) actions
    rw [hobserved.heard]
    show t.heard.toList ++ reports (some observer) actions = _
    rw [hfresh.heard, List.nil_append, reports_of_one observer hone]
  case kept =>
    have hkept := hbooks.kept
    rw [hfresh.size, hfresh.counts] at hkept
    rw [happended, hkept]
    exact Nat.zero_add _

/-- **The accounts balance**, whatever is done with a tail. -/
theorem balanced_run (s : TailSettings) (h : s.capacity ≠ some 0) :
    ∃ t : Tail ε, of? s = .ok t ∧ ∀ actions, Balanced t actions := by
  obtain ⟨t, ht, hvalid⟩ := of?_eq (ε := ε) h
  exact ⟨t, ht, balanced hvalid (fresh_of? ht)⟩

/-- A failure between an append that drops a record and a clear, before anyone observes
and after. -/
theorem balanced_run_failing :
    (TailSettings.mk {} (some 1)).capacity ≠ some 0 ∧
      ∃ t : Tail DecodeError, of? ⟨{}, some 1⟩ = .ok t ∧
        Balanced t [.append default, .append default, .ingest (.error (.envelope .unreadable)),
          .observe id, .clear, .ingest (.error (.schema .keyNotText)), .append default] := by
  refine ⟨by decide, ?_⟩
  obtain ⟨t, ht, hrun⟩ := balanced_run (ε := DecodeError) ⟨{}, some 1⟩ (by decide)
  exact ⟨t, ht, hrun _⟩

end Tail
end LiveTail
