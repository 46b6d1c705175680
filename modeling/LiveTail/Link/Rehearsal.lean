import LiveTail.Link.Session

/-! Rehearsing a session against a script, on a clock that only moves when told.

The script says how each connection attempt turns out and what each connection
yields, and how long everything takes. An attempt takes its entry when it begins;
with no entry left it never ends, and neither does a read of a connection that has
nothing left to yield. -/
namespace LiveTail.Link

/-- What a connection yields, so many milliseconds after it is read. -/
structure Delivery where
  after : Nat
  outcome : Outcome

/-- How an attempt to connect turns out, so many milliseconds after it begins. -/
inductive Attempt where
  | refuse (after : Nat) (reason : String)
  | serve (after : Nat) (deliveries : List Delivery)

/-- The most that can come of an attempt: its end, each delivery, and a wait. -/
def Attempt.weight : Attempt → Nat
  | refuse .. => 2
  | serve _ deliveries => deliveries.length + 2

structure Rehearsal where
  session : Session
  script : List Attempt
  now : Nat := 0
  /-- What the open connection has left to yield. -/
  deliveries : List Delivery := []
  /-- What the session waits for, and when it comes. -/
  pending : Option (Nat × Outcome) := none
  /-- The acts so far with their times. -/
  log : Array (Nat × Act) := #[]

namespace Rehearsal

/-- Answers what a session asks for, and notes what else it does. -/
def answer (r : Rehearsal) : Act → Rehearsal
  | .connect =>
    let r := { r with log := r.log.push (r.now, .connect) }
    match r.script with
    | [] => { r with pending := none }
    | .refuse after reason :: script =>
      { r with
        script
        pending := some (r.now + after, .failed (.connect r.session.target.url reason)) }
    | .serve after deliveries :: script =>
      { r with script, deliveries, pending := some (r.now + after, .connected) }
  | .read =>
    match r.deliveries with
    | [] => { r with pending := none }
    | d :: deliveries =>
      { r with deliveries, pending := some (r.now + d.after, d.outcome) }
  | .wait milliseconds => { r with pending := some (r.now + milliseconds, .elapsed) }
  | act => { r with log := r.log.push (r.now, act) }

/-- Applies a call that is made to the session. -/
def tell (r : Rehearsal) (call : Session → List Act × Session) : Rehearsal :=
  let (acts, session) := call r.session
  acts.foldl answer { r with session }

/-- Runs every driver that need not wait: those that never ran, and the cancelled ones,
which no longer wait for anything. -/
def wake (r : Rehearsal) : Rehearsal :=
  let r := if r.session.running then r else { r with pending := none }
  (r.session.drivers.zipIdx.filter fun (d, _) => d.cancelled || d.phase == .created).foldl
    (fun r (_, place) => r.tell (·.resume place .nothing)) r

/-- Lets what is pending happen, if it happens by the given time. -/
def next? (r : Rehearsal) (time : Nat) : Option Rehearsal :=
  match r.pending with
  | some (due, outcome) =>
    if due ≤ time then
      some ({ r with now := due, pending := none }.tell
        (·.resume (r.session.drivers.length - 1) outcome))
    else none
  | none => none

/-- At most so many things can still happen. -/
def weight (r : Rehearsal) : Nat :=
  (r.script.map Attempt.weight).sum + r.deliveries.length + 2

/-- Lets up to `n` things happen that happen by the given time. -/
def happen (r : Rehearsal) (time : Nat) : Nat → Rehearsal
  | 0 => r
  | n + 1 =>
    match r.next? time with
    | some r => r.happen time n
    | none => r

/-- Lets everything happen that happens by the given time. -/
def advanceTo (r : Rehearsal) (time : Nat) : Rehearsal :=
  { r.wake.happen time r.wake.weight with now := time }

/-- Lets time pass. -/
def advance (r : Rehearsal) (milliseconds : Nat) : Rehearsal :=
  r.advanceTo (r.now + milliseconds)

/-- Stops the session and waits until its driver has ended. -/
def shutdown (r : Rehearsal) : Rehearsal := (r.tell Session.stop).wake

end Rehearsal
end LiveTail.Link
