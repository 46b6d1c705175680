import LiveTail.Decoding.Forwarder
import LiveTail.Link.Session

/-! A feed: from the frames of a session to decoded records.

A feed registers a handler that does no more than pass its messages on to a
forwarder, which decodes them elsewhere and sends the results to an inbox in the
order of arrival. A frame whose message cannot be read goes to the inbox at once, as
a failure, also after the feed is detached. -/
namespace LiveTail.Link

structure Feed where
  /-- The number of its handler. -/
  handler : Nat
  forwarder : Decoding.Forwarder := {}
  /-- Results not received yet, oldest first. -/
  inbox : List Decoded := []

namespace Feed

/-- What happens to a feed. -/
inductive Event where
  /-- The session acts. -/
  | heard (act : Act)
  /-- Something happens to the forwarder. -/
  | work (e : Decoding.Event)
  /-- The host takes up to `most` results. -/
  | take (most : Nat)

/-- Registers a feed for a kind of message. -/
def attach (s : Session) (kind : Kind) : Feed × Session :=
  let (handler, s) := s.subscribe kind
  ({ handler }, s)

def hear (f : Feed) : Act → Feed
  | .call id m =>
    if id = f.handler then { f with forwarder := f.forwarder.step (.arrive m) } else f
  | .unreadable => { f with inbox := f.inbox ++ [.error (.envelope .unreadable)] }
  | _ => f

/-- Puts what the forwarder sends into the inbox. -/
def collect (f : Feed) (forwarder : Decoding.Forwarder) : Feed :=
  { f with forwarder, inbox := f.inbox ++ forwarder.sent.drop f.forwarder.sent.length }

def step (f : Feed) : Event → List Decoded × Feed
  | .heard act => ([], f.hear act)
  | .work e => ([], f.collect (f.forwarder.step e))
  | .take most => (f.inbox.take most, { f with inbox := f.inbox.drop most })

/-- The results taken in a history, and where it leads. -/
def run (f : Feed) : List Event → List Decoded × Feed
  | [] => ([], f)
  | e :: rest =>
    let (taken, f) := f.step e
    let (later, f) := f.run rest
    (taken ++ later, f)

/-- Lets the forwarder finish what it has. -/
def settle (f : Feed) : Feed := f.collect f.forwarder.settle

/-- Gives up the subscription and cancels the forwarder. -/
def detach (f : Feed) (s : Session) : Feed × Session :=
  (f.collect ((f.forwarder.step .cancel).settle), (s.unsubscribe f.handler).2)

end Feed
end LiveTail.Link
