import LiveTail.Link.Backoff
import LiveTail.Link.Registry
import LiveTail.Link.Target

/-! A session: one connection at a time, kept up until it is stopped.

Every start makes a driver, which connects, reads frame after frame, and when the
connection cannot be had or is lost waits and connects again. A stop cancels the
driver; the driver notices when it runs next, whatever it waited for. Since a
session can be started again before a cancelled driver has run, drivers of earlier
starts may still be there. Each knows the number of its start, and the last thing
it publishes counts only if no later start has been made.

A driver runs from one wait to the next without interruption: `resume` is one such
run. What it does on the way is the list of its acts, of which the last says what
it waits for. -/
namespace LiveTail.Link

inductive Status where
  | disconnected
  | connecting
  | opened
  /-- Stopped, while the driver has not noticed yet. -/
  | closing
deriving DecidableEq, Repr, Inhabited

def Status.text : Status → String
  | disconnected => "disconnected"
  | connecting => "connecting"
  | opened => "open"
  | closing => "closing"

/-- What a driver waits for. -/
inductive Phase where
  /-- It has not run yet. -/
  | created
  | connecting
  | reading
  | waiting
  | ended
deriving DecidableEq, Repr

structure Driver where
  /-- The number of the start that made it. -/
  owner : Nat
  cancelled : Bool := false
  phase : Phase := .created
  /-- The waits since a connection was last opened, as far as they are counted. -/
  attempt : Nat := 0
deriving DecidableEq, Repr

/-- What a driver that waits comes to see. -/
inductive Outcome where
  /-- Nothing but, perhaps, that it is cancelled. -/
  | nothing
  | connected
  | failed (e : LinkError)
  | frame (text : String)
  | elapsed
deriving DecidableEq, Repr

/-- What a session does that others see. -/
inductive Act where
  | publish (status : Status)
  | connect
  | read
  | wait (milliseconds : Nat)
  /-- Calls a handler. -/
  | call (id : Nat) (m : Message)
  /-- Reports a frame whose message cannot be read. -/
  | unreadable

namespace Driver

/-- Asks for a connection. -/
def connect (d : Driver) : List Act × Driver :=
  ([.publish .connecting, .connect], { d with phase := .connecting })

/-- Starts reading from a new connection. -/
def opened (d : Driver) : List Act × Driver :=
  ([.publish .opened, .read], { d with phase := .reading, attempt := 0 })

/-- Waits, having no connection. -/
def lost (d : Driver) (policy : Backoff) : List Act × Driver :=
  ([.publish .disconnected, .wait (policy.delay d.attempt)],
    { d with phase := .waiting, attempt := min (d.attempt + 1) Backoff.ceiling })

/-- Ends, and publishes so unless there was a later start. -/
def finish (d : Driver) (generation : Nat) : List Act × Driver :=
  (if d.owner = generation then [.publish .disconnected] else [], { d with phase := .ended })

end Driver

/-- The calls for a frame. -/
def Registry.deliver (r : Registry) (text : String) : List Act :=
  match Message.read? text with
  | some m => (r.due m.kind).map fun id => .call id m
  | none => [.unreadable]

/-- Runs a driver until it waits again. -/
def Driver.resume (d : Driver) (policy : Backoff) (r : Registry) (generation : Nat)
    (outcome : Outcome) : List Act × Driver :=
  match d.phase, d.cancelled, outcome with
  | .ended, _, _ => ([], d)
  | _, true, _ => d.finish generation
  | .created, _, _ => d.connect
  | .connecting, _, .connected => d.opened
  | .connecting, _, .failed _ => d.lost policy
  | .reading, _, .frame text => (r.deliver text ++ [.read], d)
  | .reading, _, .failed _ => d.lost policy
  | .waiting, _, .elapsed => d.connect
  | _, _, _ => ([], d)

structure Session where
  target : Target
  policy : Backoff := default
  registry : Registry := {}
  status : Status := .disconnected
  /-- The number of starts so far. -/
  generation : Nat := 0
  /-- The drivers of all starts, oldest first. -/
  drivers : List Driver := []
  /-- The place of the driver that the session can still cancel. -/
  held : Option Nat := none

namespace Session

/-- The status after some acts. -/
def follow (status : Status) (acts : List Act) : Status :=
  acts.foldl (fun status act => match act with
    | .publish s => s
    | _ => status) status

/-- Whether there is a driver at work that was not told to stop. -/
def running (s : Session) : Bool :=
  match s.held with
  | some place => s.drivers[place]?.any fun d => !d.cancelled && d.phase != .ended
  | none => false

/-- Makes a driver, unless one is at work. -/
def start (s : Session) : List Act × Session :=
  if s.running then ([], s)
  else
    ([.publish .connecting],
      { s with
        generation := s.generation + 1
        status := .connecting
        drivers := s.drivers ++ [{ owner := s.generation + 1 }]
        held := some s.drivers.length })

/-- Cancels the driver that the session holds. -/
def cancel (s : Session) : Session :=
  match s.held with
  | some place =>
    { s with
      drivers := s.drivers.modify place fun d => { d with cancelled := true }
      held := none }
  | none => s

def stop (s : Session) : List Act × Session :=
  if s.held.any fun place => s.drivers[place]?.any (!·.cancelled) then
    ([.publish .closing], { s with status := .closing }.cancel)
  else ([], s.cancel)

def subscribe (s : Session) (kind : Kind) : Nat × Session :=
  let (id, registry) := s.registry.subscribe kind
  (id, { s with registry })

def unsubscribe (s : Session) (id : Nat) : Bool × Session :=
  let (removed, registry) := s.registry.remove id
  (removed, { s with registry })

/-- Runs the driver at a place. -/
def resume (s : Session) (place : Nat) (outcome : Outcome) : List Act × Session :=
  match s.drivers[place]? with
  | some d =>
    let (acts, d) := d.resume s.policy s.registry s.generation outcome
    (acts, { s with status := follow s.status acts, drivers := s.drivers.set place d })
  | none => ([], s)

/-! ### Histories -/

inductive Event where
  | start
  | stop
  /-- The session itself goes away. -/
  | drop
  | subscribe (kind : Kind)
  | unsubscribe (id : Nat)
  | resume (place : Nat) (outcome : Outcome)

def step (s : Session) : Event → List Act × Session
  | .start => s.start
  | .stop => s.stop
  | .drop => ([], s.cancel)
  | .subscribe kind => ([], (s.subscribe kind).2)
  | .unsubscribe id => ([], (s.unsubscribe id).2)
  | .resume place outcome => s.resume place outcome

/-- The acts of a history, and where it leads. -/
def run (s : Session) : List Event → List Act × Session
  | [] => ([], s)
  | e :: rest =>
    let (acts, s) := s.step e
    let (later, s) := s.run rest
    (acts ++ later, s)

end Session
end LiveTail.Link
