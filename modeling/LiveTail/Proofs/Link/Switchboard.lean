import LiveTail.Proofs.Link.Table

/-! A message reaches exactly the live subscriptions.

What happened is a list of events with their answers, and it alone says which subscriptions
are live: those that were made and not given up (`Log.live`). The switchboard that events lead
to holds them and no others (`Known`), by what one event does (`known_step`) and so by what
any events do (`known_log`). A dispatch notes the live ones when it begins, and its calls are
the first of these, one for each turn that it took, whatever happens in between
(`calls_log`). -/
namespace LiveTail.Link.Switchboard

/-! ### What happened -/

/-- Events with their answers, in order. -/
abbrev Log := List (Event × Answer)

namespace Log

/-- The handlers that were registered, in order. -/
def made (past : Log) : List Entry :=
  past.filterMap fun
    | (.subscribe kind, .subscribed id) => some ⟨id, kind⟩
    | _ => none

/-- Whether a subscription was given up. -/
def givenUp (past : Log) (id : Nat) : Bool :=
  past.any fun
    | (.cancel other, .cancelled _) => other == id
    | _ => false

/-- The handlers whose subscriptions were not given up. -/
def held (past : Log) : List Entry := past.made.filter fun e => !past.givenUp e.id

/-- The subscriptions of a kind that were made and not given up, in order. -/
def live (past : Log) (kind : String) : List Nat :=
  (past.held.filter (·.kind.text == kind)).map (·.id)

/-- Whether the registry has not gone away. -/
def alive (past : Log) : Bool := past.all (·.1 != .drop)

/-- How many dispatches began. -/
def begun (past : Log) : Nat :=
  past.countP fun
    | (.dispatch _, .begun _) => true
    | _ => false

/-- The handlers that a dispatch called, in order. -/
def calls (past : Log) (place : Nat) : List Nat :=
  past.filterMap fun
    | (.call other, .called id) => if other = place then some id else none
    | _ => none

section Append
variable (past more : Log)

theorem made_append : (past ++ more).made = past.made ++ more.made := List.filterMap_append ..

theorem givenUp_append (id : Nat) :
    (past ++ more).givenUp id = (past.givenUp id || more.givenUp id) := List.any_append ..

theorem alive_append : (past ++ more).alive = (past.alive && more.alive) := List.all_append ..

theorem begun_append : (past ++ more).begun = past.begun + more.begun := List.countP_append ..

theorem calls_append (place : Nat) :
    (past ++ more).calls place = past.calls place ++ more.calls place := List.filterMap_append ..

end Append

theorem givenUp_of_mem {past : Log} {id : Nat} {removed : Bool}
    (h : (.cancel id, .cancelled removed) ∈ past) : past.givenUp id = true :=
  List.any_eq_true.mpr ⟨_, h, beq_self_eq_true id⟩

section Subscribe
variable (past : Log) (kind : Kind) (id : Nat)

theorem made_subscribe :
    (past ++ [(Event.subscribe kind, Answer.subscribed id)]).made = past.made ++ [⟨id, kind⟩] :=
  made_append ..

theorem givenUp_subscribe (other : Nat) :
    (past ++ [(Event.subscribe kind, Answer.subscribed id)]).givenUp other =
      past.givenUp other := by
  rw [givenUp_append]
  exact Bool.or_false _

/-- Who subscribes adds the handler with a new number. -/
theorem held_subscribe {id : Nat} (hfresh : past.givenUp id = false) :
    (past ++ [(Event.subscribe kind, Answer.subscribed id)]).held =
      past.held ++ [⟨id, kind⟩] := by
  simp only [held, made_subscribe, givenUp_subscribe, List.filter_append, List.filter_singleton,
    hfresh]
  rfl

end Subscribe

section Cancel
variable (past : Log) (id : Nat) (removed : Bool)

theorem givenUp_cancel (other : Nat) :
    (past ++ [(Event.cancel id, Answer.cancelled removed)]).givenUp other =
      (past.givenUp other || id == other) := by
  rw [givenUp_append]
  simp [givenUp]

theorem made_cancel :
    (past ++ [(Event.cancel id, Answer.cancelled removed)]).made = past.made := by
  rw [made_append]
  exact List.append_nil _

/-- Who gives up a subscription takes away the handler with its number. -/
theorem held_cancel :
    (past ++ [(Event.cancel id, Answer.cancelled removed)]).held =
      past.held.filter (·.id != id) := by
  rw [held, made_cancel, held, List.filter_filter]
  refine List.filter_congr fun e _ => ?_
  rw [givenUp_cancel, Bool.not_or, Bool.and_comm, Bool.beq_comm]
  rfl

theorem live_cancel (kind : String) :
    (past ++ [(Event.cancel id, Answer.cancelled removed)]).live kind =
      (past.live kind).filter (· != id) := by
  rw [live, held_cancel, live, List.filter_map, List.filter_filter, List.filter_filter]
  refine congrArg _ (List.filter_congr fun e _ => ?_)
  exact Bool.and_comm ..

end Cancel

end Log

/-- What happens by some events. -/
def log (s : Switchboard) (events : List Event) : Log := events.zip (s.run events).1

theorem log_cons (s : Switchboard) (e : Event) (rest : List Event) :
    s.log (e :: rest) = (e, (s.step e).1) :: (s.step e).2.log rest := rfl

/-! ### Single steps -/

theorem subscribe_of_none {s : Switchboard} (h : s.registry = none) (kind : Kind) :
    s.subscribe kind = (.none, s) := by
  rw [subscribe, h]

theorem subscribe_of_some {s : Switchboard} {t : Table} (h : s.registry = some t) (kind : Kind) :
    s.subscribe kind =
      (.subscribed t.next,
        { s with
          registry := some (t.subscribe kind).2
          subscriptions := s.subscriptions ++ [{ id := t.next, kind }] }) := by
  rw [subscribe, h]
  rfl

theorem cancel_of_none {s : Switchboard} {id : Nat} (h : s.subscriptions[id]? = none) :
    s.cancel id = (.none, s) := by
  rw [cancel, h]

theorem cancel_of_some {s : Switchboard} {id : Nat} {subscription : Subscription}
    (h : s.subscriptions[id]? = some subscription) :
    s.cancel id =
      (.cancelled (subscription.cancel s.registry).1,
        { s with
          registry := (subscription.cancel s.registry).2.2
          subscriptions := s.subscriptions.set id (subscription.cancel s.registry).2.1 }) := by
  rw [cancel, h]

/-- A handler is removed for a subscription that was not given up, which it is then. -/
theorem cancel_eq (subscription : Subscription) (t : Option Table) :
    subscription.cancel t =
      (subscription.active && t.any fun t => (t.remove subscription.kind subscription.id).1,
        { subscription with active := false },
        if subscription.active then
          t.map fun t => (t.remove subscription.kind subscription.id).2
        else t) := by
  obtain ⟨id, kind, active⟩ := subscription
  cases active <;> cases t <;> rfl

theorem dispatch_of_none {s : Switchboard} (h : s.registry = none) (kind : String) :
    s.dispatch kind = (.none, s) := by
  rw [dispatch, h]

theorem dispatch_of_some {s : Switchboard} {t : Table} (h : s.registry = some t)
    (kind : String) :
    s.dispatch kind =
      (.begun (t.count kind), { s with running := s.running ++ [t.due kind] }) := by
  rw [dispatch, h]

/-! ### The registry and its subscribers -/

/-- What `past` says of a switchboard to which it has led. -/
structure Known (past : Log) (s : Switchboard) : Prop where
  /-- Numbers are given in order, -/
  numbers : past.made.map (·.id) = List.range past.made.length
  /-- and no others are given up. -/
  given : ∀ id, past.givenUp id = true → id < past.made.length
  subscriptions : s.subscriptions = past.made.map fun e => ⟨e.id, e.kind, !past.givenUp e.id⟩
  alive : s.registry.isSome = past.alive
  table : ∀ t, s.registry = some t → t.Holds ⟨past.made.length, past.held⟩
  once : ∀ id, past.count (.cancel id, .cancelled true) ≤ 1

theorem known_new : Known [] {} where
  numbers := rfl
  given := nofun
  subscriptions := rfl
  alive := rfl
  table := by
    rintro t ⟨⟩
    exact Table.holds_new
  once _ := Nat.zero_le 1

section Known
variable {past : Log} {s : Switchboard} (h : Known past s)
include h

theorem Known.valid_made : Registry.Valid ⟨past.made.length, past.made⟩ where
  distinct := by
    rw [h.numbers]
    exact List.nodup_range
  below e he := by
    have hid := List.mem_map_of_mem (f := Entry.id) he
    rw [h.numbers] at hid
    exact List.mem_range.mp hid

theorem Known.id_eq {id : Nat} {e : Entry} (he : past.made[id]? = some e) : e.id = id := by
  obtain ⟨hlt, -⟩ := List.getElem?_eq_some_iff.mp he
  have hnumber : (past.made.map (·.id))[id]? = (List.range past.made.length)[id]? := by
    rw [h.numbers]
  rw [List.getElem?_map, he, List.getElem?_range hlt] at hnumber
  exact Option.some.inj hnumber

theorem Known.made_of_mem {id : Nat} (hid : id ∈ past.made.map (·.id)) :
    ∃ e, past.made[id]? = some e := by
  rw [h.numbers, List.mem_range] at hid
  exact ⟨_, List.getElem?_eq_getElem hid⟩

/-- The table holds the live handlers. -/
theorem Known.due {t : Table} (ht : s.registry = some t) (kind : String) :
    t.due kind = past.live kind := Table.due_eq (h.table t ht) kind

theorem Known.count {t : Table} (ht : s.registry = some t) (kind : String) :
    t.count kind = (past.live kind).length := by
  rw [Table.count_eq (h.table t ht), Registry.count]
  rfl

/-- An event by which nothing is registered or given up, though the registry may go away. -/
theorem Known.of_quiet {x : Event × Answer} (hmade : Log.made [x] = [])
    (hgiven : ∀ id, Log.givenUp [x] id = false) {s' : Switchboard}
    (halive : s'.registry.isSome = (s.registry.isSome && Log.alive [x]))
    (htable : ∀ t, s'.registry = some t → s.registry = some t)
    (hsubscriptions : s'.subscriptions = s.subscriptions) : Known (past ++ [x]) s' := by
  have hmade' : (past ++ [x]).made = past.made := by
    rw [Log.made_append, hmade, List.append_nil]
  have hgiven' : ∀ id, (past ++ [x]).givenUp id = past.givenUp id := fun id => by
    rw [Log.givenUp_append, hgiven, Bool.or_false]
  have hheld : (past ++ [x]).held = past.held := by
    simp only [Log.held, hmade', hgiven']
  constructor
  · rw [hmade', h.numbers]
  · rw [hmade']
    exact fun id hid => h.given id (hgiven' id ▸ hid)
  · rw [hsubscriptions, hmade', h.subscriptions]
    simp only [hgiven']
  · rw [halive, h.alive, Log.alive_append]
  · rw [hmade', hheld]
    exact fun t ht => h.table t (htable t ht)
  · intro id
    have hother : x ≠ (.cancel id, .cancelled true) := by
      rintro rfl
      have hmem := List.mem_singleton_self (Event.cancel id, Answer.cancelled true)
      have hgone := Log.givenUp_of_mem hmem
      rw [hgiven] at hgone
      cases hgone
    rw [List.count_append, List.count_singleton, beq_false_of_ne hother]
    exact h.once id

/-- An event that leaves the registry and its subscribers alone. -/
theorem Known.of_same {x : Event × Answer} (hmade : Log.made [x] = [])
    (hgiven : ∀ id, Log.givenUp [x] id = false) (halive : Log.alive [x] = true)
    {s' : Switchboard} (hregistry : s'.registry = s.registry)
    (hsubscriptions : s'.subscriptions = s.subscriptions) : Known (past ++ [x]) s' := by
  refine h.of_quiet hmade hgiven ?_ (fun t ht => hregistry ▸ ht) hsubscriptions
  rw [hregistry, halive, Bool.and_true]

theorem known_drop : Known (past ++ [(.drop, .none)]) { s with registry := none } :=
  h.of_quiet rfl (fun _ => rfl) (Bool.and_false _).symm nofun rfl

theorem known_subscribe (kind : Kind) :
    Known (past ++ [(.subscribe kind, (s.subscribe kind).1)]) (s.subscribe kind).2 := by
  cases hregistry : s.registry with
  | none =>
    rw [subscribe_of_none hregistry]
    exact h.of_same rfl (fun _ => rfl) rfl rfl rfl
  | some t =>
    have htable := h.table t hregistry
    have hnext : t.next = past.made.length := htable.next
    have hfresh : past.givenUp t.next = false := by
      rw [← Bool.not_eq_true]
      intro hgiven
      have hlt := h.given _ hgiven
      omega
    have hmade := Log.made_subscribe past kind t.next
    have hgiven := Log.givenUp_subscribe past kind t.next
    have hheld := Log.held_subscribe past kind hfresh
    rw [subscribe_of_some hregistry]
    constructor
    · rw [hmade, List.map_append, h.numbers, List.length_append, List.length_singleton,
        List.range_succ, hnext]
      rfl
    · intro id hid
      rw [hgiven] at hid
      have hlt := h.given id hid
      rw [hmade, List.length_append]
      omega
    · simp only [hmade, hgiven, List.map_append, h.subscriptions, List.map_singleton, hfresh]
      rfl
    · rw [Log.alive_append, ← h.alive, hregistry]
      rfl
    · rintro t' ⟨⟩
      have hnew := (Table.holds_subscribe htable kind).2
      rw [hmade, hheld, hnext]
      rwa [List.length_append]
    · intro id
      rw [List.count_append]
      exact h.once id

/-- The subscription with a number that was given. -/
theorem Known.subscription {id : Nat} {e : Entry} (he : past.made[id]? = some e) :
    s.subscriptions[id]? = some ⟨id, e.kind, !past.givenUp id⟩ := by
  rw [h.subscriptions, List.getElem?_map, he, Option.map_some, h.id_eq he]

/-- All handlers with a number are for one kind. -/
theorem Known.kind_eq {id : Nat} {e : Entry} (he : past.made[id]? = some e) :
    ∀ f ∈ past.held, f.id = id → f.kind = e.kind := by
  intro f hf hid
  have hmade : f ∈ past.made := (List.mem_filter.mp hf).1
  have hsame : f = e := h.valid_made.eq_of_id hmade (List.mem_of_getElem? he)
    (hid.trans (h.id_eq he).symm)
  rw [hsame]

theorem Known.cancelled {id : Nat} {e : Entry} (he : past.made[id]? = some e) :
    (s.cancel id).1 = .cancelled (past.alive && !past.givenUp id) := by
  rw [cancel_of_some (h.subscription he), cancel_eq, ← h.alive]
  cases hregistry : s.registry with
  | none => simp
  | some t =>
    cases hgiven : past.givenUp id with
    | true => rfl
    | false =>
      have hheld : e ∈ past.held := by
        refine List.mem_filter.mpr ⟨List.mem_of_getElem? he, ?_⟩
        rw [h.id_eq he, hgiven]
        rfl
      have hremoved : (t.remove e.kind id).1 = true := by
        rw [Table.removed_same (h.table t hregistry) (h.kind_eq he), Registry.remove]
        exact List.any_eq_true.mpr ⟨e, hheld, beq_iff_eq.mpr (h.id_eq he)⟩
      rw [Option.any_some, hremoved]
      rfl

section Cancel
variable {id : Nat} {e : Entry} (he : past.made[id]? = some e)
include he

/-- Only the subscription at the place of its number changes. -/
theorem Known.set_subscriptions :
    s.subscriptions.set id ⟨id, e.kind, false⟩ =
      past.made.map fun f => ⟨f.id, f.kind, !(past.givenUp f.id || id == f.id)⟩ := by
  have hlt : id < s.subscriptions.length := by
    rw [h.subscriptions, List.length_map]
    exact (List.getElem?_eq_some_iff.mp he).1
  refine List.ext_getElem? fun place => ?_
  rw [List.getElem?_set, List.getElem?_map]
  by_cases hplace : id = place
  · obtain rfl := hplace
    rw [if_pos rfl, if_pos hlt, he, Option.map_some, h.id_eq he, beq_self_eq_true, Bool.or_true]
    rfl
  · rw [if_neg hplace, h.subscriptions, List.getElem?_map]
    cases hother : past.made[place]? with
    | none => rfl
    | some f =>
      rw [Option.map_some, Option.map_some, h.id_eq hother, beq_false_of_ne hplace,
        Bool.or_false]

/-- The table loses the handler, if it is there still. -/
theorem Known.table_cancel {t : Table}
    (ht : (if !past.givenUp id then s.registry.map fun t => (t.remove e.kind id).2
      else s.registry) = some t) :
    t.Holds ⟨past.made.length, past.held.filter (·.id != id)⟩ := by
  cases hgiven : past.givenUp id with
  | true =>
    rw [hgiven] at ht
    have hgone : ∀ f ∈ past.held, (f.id != id) = true := by
      intro f hf
      have hkept := (List.mem_filter.mp hf).2
      rw [bne_iff_ne]
      rintro rfl
      rw [hgiven] at hkept
      cases hkept
    rw [List.filter_eq_self.mpr hgone]
    exact h.table t ht
  | false =>
    rw [hgiven] at ht
    obtain ⟨t', ht', rfl⟩ := Option.map_eq_some_iff.mp ht
    exact Table.holds_remove (h.table t' ht') (h.kind_eq he)

end Cancel

theorem known_cancel (id : Nat) :
    Known (past ++ [(.cancel id, (s.cancel id).1)]) (s.cancel id).2 := by
  cases he : past.made[id]? with
  | none =>
    have hnone : s.subscriptions[id]? = none := by
      rw [h.subscriptions, List.getElem?_map, he, Option.map_none]
    rw [cancel_of_none hnone]
    exact h.of_same rfl (fun _ => rfl) rfl rfl rfl
  | some e =>
    rw [h.cancelled he, cancel_of_some (h.subscription he), cancel_eq]
    generalize hremoved : (past.alive && !past.givenUp id) = removed
    have hmade := Log.made_cancel past id removed
    have hgiven := Log.givenUp_cancel past id removed
    constructor
    · rw [hmade, h.numbers]
    · intro other hother
      rw [hgiven, Bool.or_eq_true, beq_iff_eq] at hother
      rw [hmade]
      rcases hother with hother | rfl
      · exact h.given other hother
      · exact (List.getElem?_eq_some_iff.mp he).1
    · simp only [hmade, hgiven]
      exact h.set_subscriptions he
    · rw [Log.alive_append, ← h.alive]
      dsimp only
      split <;> simp [Log.alive]
    · intro t ht
      rw [hmade, Log.held_cancel]
      exact h.table_cancel he ht
    · intro other
      rw [List.count_append, List.count_singleton]
      split
      next hlast =>
        -- A handler is removed once, for it is given up from then on.
        cases eq_of_beq hlast
        have hnew : (Event.cancel id, Answer.cancelled true) ∉ past := fun hmem => by
          rw [Log.givenUp_of_mem hmem, Bool.not_true, Bool.and_false] at hremoved
          cases hremoved
        have hzero := List.count_eq_zero.mpr hnew
        omega
      next => exact h.once other

theorem known_step (e : Event) : Known (past ++ [(e, (s.step e).1)]) (s.step e).2 := by
  cases e with
  | subscribe kind => exact known_subscribe h kind
  | cancel id => exact known_cancel h id
  | dispatch kind =>
    cases hregistry : s.registry with
    | none =>
      rw [step, dispatch_of_none hregistry]
      exact h.of_same rfl (fun _ => rfl) rfl rfl rfl
    | some t =>
      rw [step, dispatch_of_some hregistry]
      exact h.of_same rfl (fun _ => rfl) rfl rfl rfl
  | call place =>
    rw [step, callOf]
    split <;> exact h.of_same rfl (fun _ => rfl) rfl rfl rfl
  | drop => exact known_drop h

theorem known_log (events : List Event) : Known (past ++ s.log events) (s.run events).2 := by
  induction events generalizing past s with
  | nil => rwa [log, List.zip_nil_left, List.append_nil]
  | cons e rest ih =>
    have hrest := ih (known_step h e)
    rwa [List.append_assoc, List.singleton_append] at hrest

end Known

/-! ### Dispatches under way -/

theorem running_subscribe (s : Switchboard) (kind : Kind) :
    (s.subscribe kind).2.running = s.running := by
  cases hregistry : s.registry with
  | none => rw [subscribe_of_none hregistry]
  | some t => rw [subscribe_of_some hregistry]

theorem running_cancel (s : Switchboard) (id : Nat) : (s.cancel id).2.running = s.running := by
  cases hsubscription : s.subscriptions[id]? with
  | none => rw [cancel_of_none hsubscription]
  | some subscription => rw [cancel_of_some hsubscription]

/-- How many handlers a dispatch calls by an event. -/
def turns (place : Nat) (e : Event) : Nat := if e = .call place then 1 else 0

/-- A dispatch calls its next handler when it has its turn, and keeps the others. -/
theorem calls_step {s : Switchboard} {place : Nat} {left : List Nat}
    (h : s.running[place]? = some left) (e : Event) :
    Log.calls [(e, (s.step e).1)] place = left.take (turns place e) ∧
      (s.step e).2.running[place]? = some (left.drop (turns place e)) := by
  cases e with
  | subscribe kind =>
    refine ⟨rfl, ?_⟩
    rw [step, running_subscribe]
    exact h
  | cancel id =>
    refine ⟨rfl, ?_⟩
    rw [step, running_cancel]
    exact h
  | dispatch kind =>
    refine ⟨rfl, ?_⟩
    cases hregistry : s.registry with
    | none =>
      rw [step, dispatch_of_none hregistry]
      exact h
    | some t =>
      rw [step, dispatch_of_some hregistry]
      obtain ⟨hlt, -⟩ := List.getElem?_eq_some_iff.mp h
      exact (List.getElem?_append_left hlt).trans h
  | call other =>
    by_cases hplace : other = place
    · obtain rfl := hplace
      have hone : turns other (.call other) = 1 := if_pos rfl
      rw [hone, step, callOf, h]
      cases left with
      | nil => exact ⟨rfl, h⟩
      | cons id ids =>
        obtain ⟨hlt, -⟩ := List.getElem?_eq_some_iff.mp h
        exact ⟨by simp [Log.calls], List.getElem?_set_self hlt⟩
    · have hnone : turns place (.call other) = 0 := if_neg fun h => hplace (Event.call.inj h)
      rw [hnone, step, callOf]
      split
      next id ids _ =>
        exact ⟨by simp [Log.calls, hplace], (List.getElem?_set_ne hplace).trans h⟩
      next => exact ⟨rfl, h⟩
  | drop => exact ⟨rfl, h⟩

/-- A dispatch calls the handlers that it noted, one for each turn that it has. -/
theorem calls_log {s : Switchboard} {place : Nat} {left : List Nat}
    (h : s.running[place]? = some left) (events : List Event) :
    (s.log events).calls place = left.take (events.count (.call place)) := by
  induction events generalizing s left with
  | nil => rfl
  | cons e rest ih =>
    obtain ⟨hcalls, hleft⟩ := calls_step h e
    have hcount : (e :: rest).count (.call place) = turns place e + rest.count (.call place) := by
      rw [List.count_cons, Nat.add_comm, turns]
      simp
    rw [log_cons, ← List.singleton_append, Log.calls_append, hcalls, ih hleft, hcount,
      List.take_add]

theorem length_running (s : Switchboard) (e : Event) :
    (s.step e).2.running.length = s.running.length + Log.begun [(e, (s.step e).1)] := by
  cases e with
  | subscribe kind => exact congrArg List.length (running_subscribe s kind)
  | cancel id => exact congrArg List.length (running_cancel s id)
  | dispatch kind =>
    cases hregistry : s.registry with
    | none =>
      rw [step, dispatch_of_none hregistry]
      rfl
    | some t =>
      rw [step, dispatch_of_some hregistry]
      exact List.length_append
  | call place =>
    rw [step, callOf]
    split
    · exact List.length_set
    · rfl
  | drop => rfl

/-- Only a dispatch that began calls handlers. -/
theorem calls_unborn {s : Switchboard} {place : Nat} (h : s.running.length ≤ place) (e : Event) :
    Log.calls [(e, (s.step e).1)] place = [] := by
  cases e with
  | call other =>
    rw [step, callOf]
    split
    next hrunning =>
      obtain ⟨hlt, -⟩ := List.getElem?_eq_some_iff.mp hrunning
      have hother : other ≠ place := by omega
      simp [Log.calls, hother]
    next => rfl
  | _ => rfl

/-- What `past` says of the dispatches that began. -/
structure Begun (past : Log) (s : Switchboard) : Prop where
  count : s.running.length = past.begun
  /-- No dispatch calls a handler before it begins. -/
  unborn : ∀ place, past.begun ≤ place → past.calls place = []

theorem begun_log {past : Log} {s : Switchboard} (h : Begun past s) (events : List Event) :
    Begun (past ++ s.log events) (s.run events).2 := by
  induction events generalizing past s with
  | nil => rwa [log, List.zip_nil_left, List.append_nil]
  | cons e rest ih =>
    have hstep : Begun (past ++ [(e, (s.step e).1)]) (s.step e).2 := by
      constructor
      · rw [length_running, h.count, Log.begun_append]
      · intro place hplace
        rw [Log.begun_append] at hplace
        have hcount := h.count
        rw [Log.calls_append, h.unborn place (by omega), calls_unborn (by omega),
          List.append_nil]
    have hrest := ih hstep
    rwa [List.append_assoc, List.singleton_append] at hrest

/-! ### Any run -/

/-- What is so of a switchboard that `past` has led to. -/
structure Law (past : Log) (s : Switchboard) : Prop where
  /-- No number is given twice: each is greater than those before it. -/
  numbers : (past.made.map (·.id)).Pairwise (· < ·)
  /-- So the live subscriptions of a kind are in the order they were made, each once. -/
  ordered : ∀ kind, (past.live kind).Pairwise (· < ·)
  /-- The registry is there until it goes away, -/
  alive : s.registry.isSome = past.alive
  /-- and as long as it is there, who subscribes gets a number, -/
  subscribed : past.alive = true → ∀ kind, ∃ id, (s.step (.subscribe kind)).1 = .subscribed id
  /-- the handlers of a kind are those of its live subscriptions, -/
  registered : ∀ t, s.registry = some t → ∀ kind,
    t.due kind = past.live kind ∧ t.count kind = (past.live kind).length
  /-- and a dispatch finds as many. -/
  begun : past.alive = true → ∀ kind,
    (s.step (.dispatch kind)).1 = .begun (past.live kind).length
  /-- It calls the handlers of the subscriptions that were live when it began, in their order,
  one for each turn that it has until there are no more, whatever happens meanwhile. -/
  called : past.alive = true → ∀ kind after,
    (past ++ s.log (.dispatch kind :: after)).calls past.begun =
      (past.live kind).take (after.count (.call past.begun))
  /-- A handler is removed if its subscription is given up for the first time and there is
  a registry. -/
  cancelled : ∀ id ∈ past.made.map (·.id),
    (s.step (.cancel id)).1 = .cancelled (past.alive && !past.givenUp id)
  /-- So this happens at most once for each subscription, -/
  once : ∀ id, past.count (.cancel id, .cancelled true) ≤ 1
  /-- and leaves all other handlers. -/
  others : ∀ id ∈ past.made.map (·.id), ∀ t, (s.step (.cancel id)).2.registry = some t →
    ∀ kind, t.due kind = (past.live kind).filter (· != id)

section Law
variable {past : Log} {s : Switchboard} (h : Known past s)
include h

theorem ascending_made : (past.made.map (·.id)).Pairwise (· < ·) := by
  rw [h.numbers]
  exact List.pairwise_lt_range

theorem ascending_live (kind : String) : (past.live kind).Pairwise (· < ·) :=
  (ascending_made h).sublist ((List.filter_sublist.trans List.filter_sublist).map _)

/-- A dispatch notes the live handlers and calls them in its turns. -/
theorem calls_dispatch (hbegun : Begun past s) {t : Table} (ht : s.registry = some t)
    (kind : String) (after : List Event) :
    (past ++ s.log (.dispatch kind :: after)).calls past.begun =
      (past.live kind).take (after.count (.call past.begun)) := by
  have hnoted : (s.step (.dispatch kind)).2.running[past.begun]? = some (past.live kind) := by
    rw [step, dispatch_of_some ht, ← hbegun.count, ← h.due ht]
    exact List.getElem?_concat_length
  rw [log_cons, ← List.singleton_append, Log.calls_append, Log.calls_append,
    hbegun.unborn _ (Nat.le_refl _), calls_log hnoted]
  rfl

theorem law_of_known (hbegun : Begun past s) : Law past s where
  numbers := ascending_made h
  ordered := ascending_live h
  alive := h.alive
  subscribed halive kind := by
    obtain ⟨t, ht⟩ := Option.isSome_iff_exists.mp (h.alive.trans halive)
    exact ⟨t.next, congrArg Prod.fst (subscribe_of_some ht kind)⟩
  registered t ht kind := ⟨h.due ht kind, h.count ht kind⟩
  begun halive kind := by
    obtain ⟨t, ht⟩ := Option.isSome_iff_exists.mp (h.alive.trans halive)
    rw [step, dispatch_of_some ht, h.count ht]
  called halive kind after := by
    obtain ⟨t, ht⟩ := Option.isSome_iff_exists.mp (h.alive.trans halive)
    exact calls_dispatch h hbegun ht kind after
  cancelled id hid := by
    obtain ⟨e, he⟩ := h.made_of_mem hid
    exact h.cancelled he
  once := h.once
  others id hid t ht kind := by
    obtain ⟨e, he⟩ := h.made_of_mem hid
    have hnext := known_cancel h id
    rw [h.cancelled he] at hnext
    rw [hnext.due ht, Log.live_cancel]

end Law

/-- **A message reaches exactly the live subscriptions**, whatever happens. -/
theorem live_run (events : List Event) :
    Law (({} : Switchboard).log events) (({} : Switchboard).run events).2 := by
  have hknown := known_log known_new events
  have hbegun : Begun [] {} := ⟨rfl, fun _ _ => rfl⟩
  exact law_of_known hknown (begun_log hbegun events)

/-- A kind that lost its handlers comes back while a dispatch is under way, which calls the
handlers that were there when it began. -/
example :
    let kind : Kind := .liveLog
    (({} : Switchboard).run [.subscribe kind, .subscribe kind, .dispatch kind.text, .call 0,
      .cancel 1, .cancel 0, .cancel 1, .subscribe kind, .call 0, .call 0, .dispatch kind.text,
      .call 1, .drop, .cancel 2]).1 =
    [.subscribed 0, .subscribed 1, .begun 2, .called 0, .cancelled true, .cancelled true,
      .cancelled false, .subscribed 2, .called 1, .none, .begun 1, .called 2, .none,
      .cancelled false] := by
  decide

end LiveTail.Link.Switchboard
