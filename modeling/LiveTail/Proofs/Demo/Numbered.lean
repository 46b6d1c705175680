import LiveTail.Proofs.Demo.Frame

/-! A demo numbers its frames without gaps.

Calls are made one after the other, and a call for a frame may be given up while it waits. The
log of the calls, with what each came to, tells all about a demo: how many frames it has served
on all connections is the number of the next one, and how many on each is what its share is held
against (`Follows`). A call that is given up leaves no trace, so the frames that were served are
those of the numbers from zero on, each once (`numbered_run`). -/
namespace LiveTail.Demo

/-- What is done with a demo, one thing after the other. -/
inductive Call where
  | connect (clientId : Option ClientId)
  /-- A connection is asked for its next frame, which is waited for. The stamp is what the frame
  takes from its surroundings, if there is one. -/
  | next (connection : Nat) (s : Stamp)
  /-- A connection is asked for its next frame, which is given up if it has to be waited for. -/
  | cancelled (connection : Nat)

def Call.events : Call → List Event
  | connect clientId => [.connect clientId]
  | next connection s => [.ask connection, .elapse s]
  | cancelled connection => [.ask connection, .abandon]

/-- What a call comes to is the first thing that is answered. -/
def call (d : Demo) (c : Call) : Answer × Demo :=
  (((d.run c.events).1.find? (· ≠ .nothing)).getD .nothing, (d.run c.events).2)

/-- Calls that were made, in order, with what each came to. -/
abbrev Log := List (Call × Answer)

/-- The log of calls made one after the other, and what they lead to. -/
def calls (d : Demo) : List Call → Log × Demo
  | [] => ([], d)
  | c :: rest =>
    let later := (d.call c).2.calls rest
    ((c, (d.call c).1) :: later.1, later.2)

/-! ### What a log tells -/

/-- A frame that was served. -/
structure Served where
  connection : Nat
  stamp : Stamp
  text : String

def client? (own : ClientId) : Call × Answer → Option ClientId
  | (.connect clientId, _) => some (clientId.getD own)
  | _ => none

def served? : Call × Answer → Option Served
  | (.next connection s, .frame text) => some ⟨connection, s, text⟩
  | _ => none

namespace Log

/-- The clients of the connections, in the order they were opened. -/
def clients (own : ClientId) (log : Log) : List ClientId := log.filterMap (client? own)

/-- The frames that were served, on whatever connection. -/
def served (log : Log) : List Served := log.filterMap served?

/-- How many frames a connection has served. -/
def count (log : Log) (connection : Nat) : Nat :=
  log.served.countP (·.connection == connection)

section Append
variable (own : ClientId) (log : Log) (e : Call × Answer)

theorem clients_append_one :
    clients own (log ++ [e]) = log.clients own ++ (client? own e).toList := by
  rw [clients, List.filterMap_append]
  cases h : client? own e <;> simp [clients, h]

theorem served_append_one : served (log ++ [e]) = log.served ++ (served? e).toList := by
  rw [served, List.filterMap_append]
  cases h : served? e <;> simp [served, h]

theorem count_append_one (connection : Nat) : count (log ++ [e]) connection =
    log.count connection + (served? e).toList.countP (·.connection == connection) := by
  rw [count, served_append_one, List.countP_append]
  rfl

end Append
end Log

/-! ### One call -/

section Equations
variable {d : Demo} {connection : Nat} {c : Connection}

theorem call_connect (hidle : d.asked = none) (clientId : Option ClientId) :
    d.call (.connect clientId) = (.nothing,
      { d with connections := d.connections ++ [⟨clientId.getD d.clientId, 0⟩] }) := by
  obtain ⟨settings, own, pack, produced, connections, asked⟩ := d
  subst hidle
  rfl

theorem call_unopened (hidle : d.asked = none) (h : d.connections[connection]? = none) :
    (∀ s, d.call (.next connection s) = (.nothing, d)) ∧
      d.call (.cancelled connection) = (.nothing, d) := by
  obtain ⟨settings, own, pack, produced, connections, asked⟩ := d
  subst hidle
  constructor <;> simp [call, Call.events, run, step, h]

theorem call_closed (hidle : d.asked = none) (h : d.connections[connection]? = some c)
    (hspent : d.settings.spends c.served = true) :
    (∀ s, d.call (.next connection s) = (.closed, d)) ∧
      d.call (.cancelled connection) = (.closed, d) := by
  obtain ⟨settings, own, pack, produced, connections, asked⟩ := d
  subst hidle
  constructor <;> simp [call, Call.events, run, step, h, hspent]

theorem call_cancelled (hidle : d.asked = none) (h : d.connections[connection]? = some c)
    (hspent : d.settings.spends c.served = false) :
    d.call (.cancelled connection) = (.nothing, d) := by
  obtain ⟨settings, own, pack, produced, connections, asked⟩ := d
  subst hidle
  simp [call, Call.events, run, step, h, hspent]

theorem call_served (hidle : d.asked = none) (h : d.connections[connection]? = some c)
    (hspent : d.settings.spends c.served = false) {s : Stamp} {text : String}
    (htext : frameWith d.pack d.produced c.clientId (d.settings.corrupts d.produced) s =
      .ok text) :
    d.call (.next connection s) = (.frame text,
      { d with
        produced := d.produced + 1
        connections := d.connections.set connection { c with served := c.served + 1 } }) := by
  obtain ⟨settings, own, pack, produced, connections, asked⟩ := d
  subst hidle
  simp [call, Call.events, run, step, h, hspent, serve, htext]

end Equations

theorem spends_iff (settings : DemoSettings) (served : Nat) :
    settings.spends served = true ↔ ∃ share, settings.share = some share ∧ share ≤ served := by
  simp [DemoSettings.spends, Option.any_eq_true]

theorem corrupts_iff (settings : DemoSettings) (n : Nat) :
    settings.corrupts n = true ↔
      ∃ every, settings.corruptEvery = some every ∧ 0 < every ∧ every ∣ n + 1 := by
  simp [DemoSettings.corrupts, Option.any_eq_true, Nat.dvd_iff_mod_eq_zero]

theorem of_getElem?_append_one {α : Type} {front : List α} {last a : α} {i : Nat}
    (h : (front ++ [last])[i]? = some a) : front[i]? = some a ∨ i = front.length ∧ a = last := by
  obtain hless | hmore := Nat.lt_or_ge i front.length
  · rw [List.getElem?_append_left hless] at h
    exact .inl h
  · have hend := (List.getElem?_eq_some_iff.mp h).1
    rw [List.length_append, List.length_singleton] at hend
    obtain rfl : i = front.length := by omega
    rw [List.getElem?_concat_length] at h
    exact .inr ⟨rfl, (Option.some.inj h).symm⟩

/-! ### What a demo and its log agree on -/

/-- A demo that began as another one did has served what the log of its calls says. -/
structure Follows (start : Demo) (log : Log) (d : Demo) : Prop where
  settings : d.settings = start.settings
  own : d.clientId = start.clientId
  pack : d.pack = start.pack
  idle : d.asked = none
  produced : d.produced = log.served.length
  clients : d.connections.map (·.clientId) = log.clients start.clientId
  counts : ∀ connection c, d.connections[connection]? = some c → c.served = log.count connection
  frames : ∀ n f, log.served[n]? = some f → ∃ clientId,
    (log.clients start.clientId)[f.connection]? = some clientId ∧
      frameWith start.pack n clientId (start.settings.corrupts n) f.stamp = .ok f.text

/-- A connection has served its share in what was logged. -/
def Spent (settings : DemoSettings) (before : Log) (connection : Nat) : Prop :=
  ∃ share, settings.share = some share ∧ share ≤ before.count connection

/-- What a call comes to after others that were logged. A connection that is asked must be there,
and closes if it has served its share; else it serves a frame, unless the call is given up. -/
def Answered (start : Demo) (before : Log) (answer : Answer) : Call → Prop
  | .connect _ => answer = .nothing
  | .next connection _ => connection < (before.clients start.clientId).length →
    (Spent start.settings before connection → answer = .closed) ∧
      (¬ Spent start.settings before connection → ∃ text, answer = .frame text)
  | .cancelled connection => connection < (before.clients start.clientId).length →
    (Spent start.settings before connection → answer = .closed) ∧
      (¬ Spent start.settings before connection → answer = .nothing)

/-- Every call of a log came to what it comes to after those before it. -/
def AllAnswered (start : Demo) (log : Log) : Prop :=
  ∀ before c answer after, log = before ++ (c, answer) :: after → Answered start before answer c

theorem AllAnswered.append_one {start : Demo} {log : Log} {c : Call} {answer : Answer}
    (h : AllAnswered start log) (hlast : Answered start log answer c) :
    AllAnswered start (log ++ [(c, answer)]) := by
  intro before c' answer' after heq
  obtain rfl | ⟨after, e, rfl⟩ := List.eq_nil_or_concat' after
  · obtain ⟨rfl, hsame⟩ := List.append_inj' heq rfl
    cases hsame
    exact hlast
  · rw [← List.cons_append, ← List.append_assoc] at heq
    exact h _ _ _ _ (List.append_inj' heq rfl).1

namespace Follows
variable {start d : Demo} {log : Log}

/-- A demo that nothing was done with. -/
theorem fresh (settings : DemoSettings) (clientId : ClientId)
    (pack : List UInt8 → Except String (List UInt8)) :
    Follows { settings, clientId, pack } [] { settings, clientId, pack } where
  settings := rfl
  own := rfl
  pack := rfl
  idle := rfl
  produced := rfl
  clients := rfl
  counts := nofun
  frames := nofun

theorem length_clients (h : Follows start log d) :
    (log.clients start.clientId).length = d.connections.length := by
  rw [← h.clients, List.length_map]

/-- A connection that was not opened yet has served nothing. -/
theorem count_unopened (h : Follows start log d) : log.count d.connections.length = 0 := by
  rw [Log.count, List.countP_eq_zero]
  intro f hf hthere
  obtain ⟨n, hn⟩ := List.getElem?_of_mem hf
  obtain ⟨clientId, hclient, -⟩ := h.frames n f hn
  have hless := (List.getElem?_eq_some_iff.mp hclient).1
  rw [h.length_clients] at hless
  exact Nat.ne_of_lt hless (beq_iff_eq.mp hthere)

theorem spent_iff (h : Follows start log d) {connection : Nat} {c : Connection}
    (hc : d.connections[connection]? = some c) :
    d.settings.spends c.served = true ↔ Spent start.settings log connection := by
  rw [spends_iff, h.settings, h.counts connection c hc, Spent]

/-- A call that opens nothing and gets no frame leaves no trace. -/
theorem quiet (h : Follows start log d) {e : Call × Answer}
    (hclient : client? start.clientId e = none) (hserved : served? e = none) :
    Follows start (log ++ [e]) d := by
  have hclients : Log.clients start.clientId (log ++ [e]) = log.clients start.clientId := by
    rw [Log.clients_append_one, hclient, Option.toList_none, List.append_nil]
  have hframes : Log.served (log ++ [e]) = log.served := by
    rw [Log.served_append_one, hserved, Option.toList_none, List.append_nil]
  have hcount (connection) : Log.count (log ++ [e]) connection = log.count connection := by
    rw [Log.count, hframes, Log.count]
  exact { h with
    produced := by rw [hframes, h.produced]
    clients := by rw [hclients, h.clients]
    counts := fun connection c hc => by rw [hcount, h.counts connection c hc]
    frames := by rw [hframes, hclients]; exact h.frames }

theorem connect (h : Follows start log d) (clientId : Option ClientId) :
    Follows start (log ++ [(.connect clientId, .nothing)])
      { d with connections := d.connections ++ [⟨clientId.getD d.clientId, 0⟩] } := by
  have hframes : Log.served (log ++ [(.connect clientId, .nothing)]) = log.served := by
    simp [Log.served_append_one, served?]
  have hcount (connection) :
      Log.count (log ++ [(.connect clientId, .nothing)]) connection = log.count connection := by
    rw [Log.count, hframes, Log.count]
  have hclients : Log.clients start.clientId (log ++ [(.connect clientId, .nothing)]) =
      log.clients start.clientId ++ [clientId.getD start.clientId] := by
    simp [Log.clients_append_one, client?]
  refine { h with produced := ?_, clients := ?_, counts := ?_, frames := ?_ }
  · rw [hframes, h.produced]
  · rw [hclients, List.map_append, h.clients, List.map_singleton, h.own]
  · intro connection c hc
    rw [hcount]
    obtain hold | ⟨rfl, rfl⟩ := of_getElem?_append_one hc
    · exact h.counts connection c hold
    · exact h.count_unopened.symm
  · intro n f hf
    rw [hframes] at hf
    obtain ⟨client, hclient, htext⟩ := h.frames n f hf
    refine ⟨client, ?_, htext⟩
    rw [hclients, List.getElem?_append_left (List.getElem?_eq_some_iff.mp hclient).1, hclient]

theorem served (h : Follows start log d) {connection : Nat} {c : Connection} {s : Stamp}
    {text : String} (hc : d.connections[connection]? = some c)
    (htext : frameWith d.pack d.produced c.clientId (d.settings.corrupts d.produced) s =
      .ok text) :
    Follows start (log ++ [(.next connection s, .frame text)])
      { d with
        produced := d.produced + 1
        connections := d.connections.set connection { c with served := c.served + 1 } } := by
  have hframes : Log.served (log ++ [(.next connection s, .frame text)]) =
      log.served ++ [⟨connection, s, text⟩] := by
    simp [Log.served_append_one, served?]
  have hclients : Log.clients start.clientId (log ++ [(.next connection s, .frame text)]) =
      log.clients start.clientId := by
    simp [Log.clients_append_one, client?]
  have hclient : (log.clients start.clientId)[connection]? = some c.clientId := by
    rw [← h.clients, List.getElem?_map, hc, Option.map_some]
  refine { h with produced := ?_, clients := ?_, counts := ?_, frames := ?_ }
  · rw [hframes, List.length_append, h.produced, List.length_singleton]
  · rw [hclients, List.map_set, h.clients]
    obtain ⟨hless, hsame⟩ := List.getElem?_eq_some_iff.mp hclient
    rw [← hsame, List.set_getElem_self]
  · intro other c' hc'
    rw [Log.count_append_one]
    obtain rfl | hother := eq_or_ne other connection
    · have hless := (List.getElem?_eq_some_iff.mp hc).1
      rw [List.getElem?_set_self hless] at hc'
      cases hc'
      simp [served?, h.counts other c hc]
    · rw [List.getElem?_set_ne hother.symm] at hc'
      simp [served?, h.counts other c' hc', hother.symm]
  · intro n f hf
    rw [hclients]
    rw [hframes] at hf
    obtain hold | ⟨rfl, rfl⟩ := of_getElem?_append_one hf
    · exact h.frames n f hold
    · rw [h.pack, h.produced, h.settings] at htext
      exact ⟨c.clientId, hclient, htext⟩

theorem absent (h : Follows start log d) {connection : Nat}
    (hc : d.connections[connection]? = none) :
    ¬ connection < (log.clients start.clientId).length := by
  rw [h.length_clients, Nat.not_lt]
  exact List.getElem?_eq_none_iff.mp hc

/-- One more call comes to what the log before it says, and the log with it tells all again. -/
theorem call (hpack : Packs start.pack) (h : Follows start log d) (c : Call) :
    Follows start (log ++ [(c, (d.call c).1)]) (d.call c).2 ∧
      Answered start log (d.call c).1 c := by
  cases c with
  | connect clientId =>
    rw [call_connect h.idle]
    exact ⟨h.connect clientId, rfl⟩
  | next connection s =>
    cases hc : d.connections[connection]? with
    | none =>
      rw [(call_unopened h.idle hc).1]
      exact ⟨h.quiet rfl rfl, fun hless => absurd hless (h.absent hc)⟩
    | some c =>
      have hspent := h.spent_iff hc
      cases hs : d.settings.spends c.served with
      | true =>
        rw [(call_closed h.idle hc hs).1]
        exact ⟨h.quiet rfl rfl, fun _ => ⟨fun _ => rfl, fun hmore => absurd (hspent.mp hs) hmore⟩⟩
      | false =>
        have hmore : ¬ Spent start.settings log connection := by rw [← hspent, hs]; decide
        obtain ⟨packed, -, hframe⟩ := frameWith_eq hpack d.produced s
        have htext := hframe c.clientId (d.settings.corrupts d.produced)
        rw [← h.pack] at htext
        rw [call_served h.idle hc hs htext]
        exact ⟨h.served hc htext, fun _ => ⟨fun hless => absurd hless hmore, fun _ => ⟨_, rfl⟩⟩⟩
  | cancelled connection =>
    cases hc : d.connections[connection]? with
    | none =>
      rw [(call_unopened h.idle hc).2]
      exact ⟨h.quiet rfl rfl, fun hless => absurd hless (h.absent hc)⟩
    | some c =>
      have hspent := h.spent_iff hc
      cases hs : d.settings.spends c.served with
      | true =>
        rw [(call_closed h.idle hc hs).2]
        exact ⟨h.quiet rfl rfl, fun _ => ⟨fun _ => rfl, fun hmore => absurd (hspent.mp hs) hmore⟩⟩
      | false =>
        have hmore : ¬ Spent start.settings log connection := by rw [← hspent, hs]; decide
        rw [call_cancelled h.idle hc hs]
        exact ⟨h.quiet rfl rfl, fun _ => ⟨fun hless => absurd hless hmore, fun _ => rfl⟩⟩

/-- So do any calls. -/
theorem calls (hpack : Packs start.pack) (h : Follows start log d)
    (hall : AllAnswered start log) (cs : List Call) :
    Follows start (log ++ (d.calls cs).1) (d.calls cs).2 ∧
      AllAnswered start (log ++ (d.calls cs).1) := by
  induction cs generalizing log d with
  | nil => rw [Demo.calls, List.append_nil]; exact ⟨h, hall⟩
  | cons c rest ih =>
    obtain ⟨hnext, hanswer⟩ := h.call hpack c
    have hrest := ih hnext (hall.append_one hanswer)
    rw [List.append_assoc, List.singleton_append] at hrest
    exact hrest

end Follows

/-! ### The law -/

/-- What a demo promises to whoever calls it. -/
structure Numbered (start : Demo) (log : Log) (d : Demo) : Prop where
  /-- As many frames were produced as were delivered on all connections. -/
  produced : d.produced = log.served.length
  /-- The frames that were delivered are those of the numbers from zero on, each once, for the
  clients of their connections. -/
  frames : ∀ n f, log.served[n]? = some f → ∃ clientId,
    (log.clients start.clientId)[f.connection]? = some clientId ∧
      frameWith start.pack n clientId (start.settings.corrupts n) f.stamp = .ok f.text
  /-- A connection closes on every call after its share, and on none before. -/
  answers : AllAnswered start log
  /-- A frame gives its record, unless it is one that is cut short. -/
  whole : ∀ n f, log.served[n]? = some f → n < 2 ^ 64 → f.stamp.Valid →
    (¬ ∃ every, start.settings.corruptEvery = some every ∧ 0 < every ∧ every ∣ n + 1) →
      Frame.decode f.text = .ok (record n f.stamp)
  /-- One that is cut short fails when it is decompressed. -/
  cut : ∀ n f every, log.served[n]? = some f → f.stamp.Valid →
    start.settings.corruptEvery = some every → 0 < every → every ∣ n + 1 →
      ∃ e, Frame.decode f.text = .error e ∧ e.stage = .decompression

/-- **The frames of a demo are numbered without gaps**, whatever is asked of it and in which
order, and whichever calls are given up. -/
theorem numbered_run {pack : List UInt8 → Except String (List UInt8)} (hpack : Packs pack)
    (settings : DemoSettings) (clientId : ClientId) (cs : List Call) :
    Numbered { settings, clientId, pack } (({ settings, clientId, pack } : Demo).calls cs).1
      (({ settings, clientId, pack } : Demo).calls cs).2 := by
  obtain ⟨hfollows, hall⟩ :=
    (Follows.fresh settings clientId pack).calls hpack (fun _ _ _ _ => by simp) cs
  rw [List.nil_append] at hfollows hall
  refine { produced := hfollows.produced, frames := hfollows.frames, answers := hall,
           whole := ?_, cut := ?_ }
  · intro n f hf hn hstamp hwhole
    obtain ⟨client, -, htext⟩ := hfollows.frames n f hf
    obtain ⟨packed, hpacked, hframe⟩ := frameWith_eq hpack n f.stamp
    rw [← corrupts_iff, Bool.not_eq_true] at hwhole
    rw [hframe, hwhole] at htext
    rw [← Except.ok.inj htext]
    exact decode_whole hstamp client hn hpacked
  · intro n f every hf hstamp hevery hpos hdvd
    obtain ⟨client, -, htext⟩ := hfollows.frames n f hf
    obtain ⟨packed, hpacked, hframe⟩ := frameWith_eq hpack n f.stamp
    rw [hframe, (corrupts_iff settings n).mpr ⟨every, hevery, hpos, hdvd⟩] at htext
    obtain ⟨cause, hcause⟩ := decode_cut hstamp client hpacked
    rw [← Except.ok.inj htext]
    exact ⟨_, hcause, rfl⟩

theorem packs_encode : Packs fun content => .ok (Zstandard.encode content) :=
  fun content => ⟨_, rfl, Zstandard.readFrame_encode content⟩

/-- Two connections share the numbers: the first one closes after two frames, the frame of the
second one is cut short, and a call that is given up uses no number. -/
theorem numbered_run_shared :
    let d : Demo := {
      settings := { share := some 2, corruptEvery := some 2 }, clientId := ⟨"a", by decide⟩ }
    let s : Stamp := {
      time := ⟨1767323045, 250000000⟩, processId := 7,
      token := ⟨List.replicate tokenSize 0, by decide⟩, timestamp := 1767323045250000000 }
    let log := (d.calls [.connect none, .cancelled 0, .next 0 s,
      .connect (some ⟨"b", by decide⟩), .next 1 s, .next 0 s, .next 0 s, .cancelled 0]).1
    Packs d.pack ∧ s.Valid ∧ ∃ first second third,
      log.map (·.2) = [.nothing, .nothing, .frame first, .nothing, .frame second, .frame third,
        .closed, .closed] ∧
      Frame.decode first = .ok (record 0 s) ∧
      (∃ e, Frame.decode second = .error e ∧ e.stage = .decompression) ∧
      Frame.decode third = .ok (record 2 s) := by
  intro d s log
  have hstamp : s.Valid := ⟨.inl (by decide), by decide, by decide, by decide, by decide⟩
  -- What the stamp is does not matter from here on, and would only be computed with.
  clear_value s
  obtain ⟨first, second, third, hlog⟩ : ∃ first second third, log =
      [(.connect none, .nothing), (.cancelled 0, .nothing), (.next 0 s, .frame first),
        (.connect (some ⟨"b", by decide⟩), .nothing), (.next 1 s, .frame second),
        (.next 0 s, .frame third), (.next 0 s, .closed), (.cancelled 0, .closed)] := by
    simp [log, d, calls, call, Call.events, run, step, serve, frameWith, DemoSettings.spends,
      DemoSettings.corrupts, Except.mapError, bind, Except.bind, pure, Except.pure]
  have hrun : Numbered d log _ := numbered_run packs_encode d.settings d.clientId _
  rw [hlog] at hrun ⊢
  have hspared (n : Nat) (h : n = 0 ∨ n = 2) : ¬ ∃ every, d.settings.corruptEvery = some every ∧
      0 < every ∧ every ∣ n + 1 := by
    rintro ⟨every, hevery, -, hdvd⟩
    cases hevery
    omega
  exact ⟨packs_encode, hstamp, first, second, third, rfl,
    hrun.whole 0 ⟨0, s, first⟩ rfl (by decide) hstamp (hspared 0 (.inl rfl)),
    hrun.cut 1 ⟨1, s, second⟩ 2 rfl hstamp rfl (by decide) (by decide),
    hrun.whole 2 ⟨0, s, third⟩ rfl (by decide) hstamp (hspared 2 (.inr rfl))⟩

end LiveTail.Demo
