import LiveTail.Decoding.Queue

/-! Forwarding decoded frames.

A forwarder takes messages from a channel, has them decoded, and sends the results
on in the order of arrival. Each time it is woken it does one thing: it ends when
it is cancelled, or else sends a result that is ready, or else takes a message.
When the channel is closed and empty it sends what is left, no longer asking
whether it is cancelled, and ends. It also ends when no one listens any more. -/
namespace LiveTail.Decoding

inductive Phase where
  | running
  /-- The channel is closed; what is left is being sent. -/
  | draining
  | ended
deriving DecidableEq, Repr

structure Forwarder where
  phase : Phase := .running
  /-- Messages that have arrived and were not taken, oldest first. -/
  arrived : List Message := []
  /-- Nothing more arrives. -/
  closed : Bool := false
  cancelled : Bool := false
  /-- No one listens any more. -/
  deaf : Bool := false
  queue : Queue := {}
  /-- The results sent, in order. -/
  sent : List Decoded := []

/-- What happens around a forwarder, and to it. -/
inductive Event where
  | arrive (message : Message)
  | close
  | cancel
  /-- The receiver of the results goes away. -/
  | hangUp
  /-- The decoding of the job at a place finishes. -/
  | finish (place : Nat)
  /-- The forwarder is woken. -/
  | wake

namespace Forwarder

/-- Sends a result, or ends when no one listens. -/
def send (f : Forwarder) (d : Decoded) (queue : Queue) : Forwarder :=
  if f.deaf then { f with phase := .ended, queue } else { f with sent := f.sent ++ [d], queue }

/-- Takes a message, or notices that none will come. -/
def take (f : Forwarder) : Forwarder :=
  match f.arrived with
  | m :: rest => { f with arrived := rest, queue := f.queue.submit (.message m) }
  | [] => if f.closed then { f with phase := .draining } else f

/-- One step of a forwarder that is woken. -/
def wake (f : Forwarder) : Forwarder :=
  match f.phase with
  | .ended => f
  | .running =>
    if f.cancelled then { f with phase := .ended }
    else
      match f.queue.next? with
      | some (d, queue) => f.send d queue
      | none => f.take
  | .draining =>
    match f.queue.next? with
    | some (d, queue) => f.send d queue
    | none => if f.queue.pending = 0 then { f with phase := .ended } else f

def step (f : Forwarder) : Event → Forwarder
  | .arrive m => if f.closed then f else { f with arrived := f.arrived ++ [m] }
  | .close => { f with closed := true }
  | .cancel => { f with cancelled := true }
  | .hangUp => { f with deaf := true }
  | .finish place => { f with queue := f.queue.finish place }
  | .wake => f.wake

def run (f : Forwarder) : List Event → Forwarder
  | [] => f
  | e :: rest => (f.step e).run rest

theorem run_append (f : Forwarder) (a b : List Event) : f.run (a ++ b) = (f.run a).run b := by
  induction a generalizing f with
  | nil => rfl
  | cons e rest ih => exact ih _

/-- Wakes a forwarder and finishes its oldest job, over and over: what it comes to
when nothing else happens. Each message takes two rounds, and ending takes two. -/
def settle (f : Forwarder) : Forwarder :=
  f.run ((List.replicate (2 * (f.arrived.length + f.queue.pending) + 2)
    [Event.finish 0, Event.wake]).flatten)

end Forwarder
end LiveTail.Decoding
