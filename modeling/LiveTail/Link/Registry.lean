import LiveTail.Dictionary
import LiveTail.Wire.Message
import LiveTail.Wire.Name

/-! The registry of handlers.

A handler is registered for one kind of message and gets a number that no other
handler ever has. A message is handed to the handlers that are registered for its
kind when its dispatch begins, in the order of their subscription, whatever they
do to the registry meanwhile. What a handler does is not the registry's affair:
here it is a number. -/
namespace LiveTail.Link

/-- A registered handler. -/
structure Entry where
  id : Nat
  kind : Kind
deriving DecidableEq, Repr

structure Registry where
  /-- The number the next handler gets. -/
  next : Nat := 0
  /-- The handlers, in the order of subscription. -/
  entries : List Entry := []
deriving DecidableEq, Repr

namespace Registry

/-- Registers a handler and gives its number. -/
def subscribe (r : Registry) (kind : Kind) : Nat × Registry :=
  (r.next, ⟨r.next + 1, r.entries ++ [⟨r.next, kind⟩]⟩)

/-- Removes a handler, and tells whether it was there. -/
def remove (r : Registry) (id : Nat) : Bool × Registry :=
  (r.entries.any (·.id == id), { r with entries := r.entries.filter (·.id != id) })

/-- The handlers to call for a kind of message, in order. -/
def due (r : Registry) (kind : String) : List Nat :=
  (r.entries.filter (·.kind.text == kind)).map (·.id)

def count (r : Registry) (kind : String) : Nat := (r.due kind).length

end Registry

/-! ### The registry as a table

A message looks up its handlers by its kind, so those of one kind stand together, in the
order of their subscription. A kind that loses its last handler leaves the table, and enters
it again with the next one. -/

structure Table where
  /-- The number the next handler gets. -/
  next : Nat := 0
  /-- The handlers of each kind that has any. -/
  byKind : Dictionary (List Entry) := .empty

namespace Table

/-- The handlers of a kind, in the order of subscription. -/
def handlers (t : Table) (kind : String) : List Entry := (t.byKind.get? kind).getD []

/-- Registers a handler and gives its number. -/
def subscribe (t : Table) (kind : Kind) : Nat × Table :=
  (t.next, ⟨t.next + 1, t.byKind.put kind.text (t.handlers kind.text ++ [⟨t.next, kind⟩])⟩)

/-- Removes a handler of a kind, and tells whether it was there. -/
def remove (t : Table) (kind : Kind) (id : Nat) : Bool × Table :=
  match t.byKind.get? kind.text with
  | none => (false, t)
  | some handlers =>
    let kept := handlers.filter (·.id != id)
    let byKind :=
      if kept.isEmpty then t.byKind.filter (· != kind.text) else t.byKind.put kind.text kept
    (kept.length < handlers.length, { t with byKind })

/-- The handlers to call for a kind of message, in order. -/
def due (t : Table) (kind : String) : List Nat := (t.handlers kind).map (·.id)

def count (t : Table) (kind : String) : Nat := (t.handlers kind).length

/-- All handlers, kind by kind. -/
def entries (t : Table) : List Entry := t.byKind.entries.flatMap (·.2)

end Table

/-! ### Subscriptions

Subscribers keep what they need to give their subscription up, even when the registry is gone.
A dispatch notes the handlers it has to call when it begins. It then calls one after the
other, and between two of them anything may happen: a handler that is called, or anyone else,
may subscribe, give up a subscription, or begin another dispatch. -/

/-- What a subscriber keeps. -/
structure Subscription where
  id : Nat
  kind : Kind
  /-- False once it was given up. -/
  active : Bool := true
deriving DecidableEq, Repr

/-- Gives up a subscription. Only the first time, and only while there is a registry,
is a handler removed. -/
def Subscription.cancel (s : Subscription) (t : Option Table) :
    Bool × Subscription × Option Table :=
  if s.active then
    match t with
    | some t =>
      let (removed, t) := t.remove s.kind s.id
      (removed, { s with active := false }, some t)
    | none => (false, { s with active := false }, none)
  else (false, s, t)

/-- A registry with those who use it. It is gone once `registry` is nothing. -/
structure Switchboard where
  registry : Option Table := some {}
  /-- Every subscription ever made, in order: the number of each is its place. -/
  subscriptions : List Subscription := []
  /-- The handlers still to be called by each dispatch, in the order in which they began. -/
  running : List (List Nat) := []

namespace Switchboard

inductive Event where
  | subscribe (kind : Kind)
  | cancel (id : Nat)
  /-- A dispatch of a message begins. -/
  | dispatch (kind : String)
  /-- A dispatch, by its place among all, calls its next handler, if any is left. -/
  | call (place : Nat)
  /-- The registry goes away. -/
  | drop
deriving DecidableEq, Repr

inductive Answer where
  | none
  | subscribed (id : Nat)
  | cancelled (removed : Bool)
  /-- The number of handlers that are going to be called. -/
  | begun (handlers : Nat)
  | called (id : Nat)
deriving DecidableEq, Repr

def subscribe (s : Switchboard) (kind : Kind) : Answer × Switchboard :=
  match s.registry with
  | some t =>
    let (id, t) := t.subscribe kind
    (.subscribed id,
      { s with registry := some t, subscriptions := s.subscriptions ++ [{ id, kind }] })
  | none => (.none, s)

def cancel (s : Switchboard) (id : Nat) : Answer × Switchboard :=
  match s.subscriptions[id]? with
  | some subscription =>
    let (removed, subscription, registry) := subscription.cancel s.registry
    (.cancelled removed,
      { s with registry, subscriptions := s.subscriptions.set id subscription })
  | none => (.none, s)

def dispatch (s : Switchboard) (kind : String) : Answer × Switchboard :=
  match s.registry with
  | some t => (.begun (t.count kind), { s with running := s.running ++ [t.due kind] })
  | none => (.none, s)

def callOf (s : Switchboard) (place : Nat) : Answer × Switchboard :=
  match s.running[place]? with
  | some (id :: ids) => (.called id, { s with running := s.running.set place ids })
  | _ => (.none, s)

/-- The dispatch that began last calls its next handler. -/
def call (s : Switchboard) : Answer × Switchboard := s.callOf (s.running.length - 1)

def step (s : Switchboard) : Event → Answer × Switchboard
  | .subscribe kind => s.subscribe kind
  | .cancel id => s.cancel id
  | .dispatch kind => s.dispatch kind
  | .call place => s.callOf place
  | .drop => (.none, { s with registry := none })

/-- The answers to events, and where they lead. -/
def run (s : Switchboard) : List Event → List Answer × Switchboard
  | [] => ([], s)
  | e :: rest =>
    let (answer, s) := s.step e
    let (answers, s) := s.run rest
    (answer :: answers, s)

end Switchboard

end LiveTail.Link
