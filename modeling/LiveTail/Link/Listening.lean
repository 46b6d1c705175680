import LiveTail.Link.Feed
import LiveTail.Link.Rehearsal

/-! Listening to a rehearsed session through a feed.

The results are received as they come, with their times, until none has come for a
given time. The feed can be detached once some number of them has been received. -/
namespace LiveTail.Link

structure Listening where
  rehearsal : Rehearsal
  feed : Feed
  attached : Bool := true
  /-- After how many results the feed is to be detached. -/
  detachAfter : Option Nat := none
  received : List (Nat × Decoded) := []

namespace Listening

/-- Attaches a feed and starts the session. -/
def start (r : Rehearsal) (kind : Kind) (detachAfter : Option Nat) : Listening :=
  let (feed, session) := Feed.attach r.session kind
  { rehearsal := { r with session }.tell Session.start, feed, detachAfter }

/-- The handlers registered for a kind. -/
def handlers (l : Listening) (kind : Kind) : Nat := l.rehearsal.session.registry.count kind.text

/-- Detaches the feed if it is attached. -/
def detach (l : Listening) : Listening :=
  if l.attached then
    let (feed, session) := l.feed.detach l.rehearsal.session
    { l with feed, rehearsal := { l.rehearsal with session }, attached := false }
  else l

/-- Detaches the feed when it is time. -/
def check (l : Listening) : Listening :=
  if l.detachAfter = some l.received.length then l.detach else l

/-- Receives what is in the inbox, one result after the other. -/
def receive (l : Listening) : Listening :=
  l.feed.inbox.foldl (fun l d =>
    { l with received := l.received ++ [(l.rehearsal.now, d)] }.check)
    { l with feed := { l.feed with inbox := [] } }

/-- Lets the session run for no time, and hands its acts to the feed. -/
def relay (l : Listening) (r : Rehearsal) : Listening :=
  let acts := (r.log.extract l.rehearsal.log.size r.log.size).toList.map (·.2)
  { l with rehearsal := r, feed := (acts.foldl Feed.hear l.feed).settle }.receive

/-- Goes from one moment at which something happens to the next, up to `n` times, until
nothing was received for the given time. -/
def hearUntilQuiet (l : Listening) (quiet : Nat) : Nat → Listening
  | 0 => l
  | n + 1 =>
    let last := (l.received.getLast?.map (·.1)).getD 0
    match l.rehearsal.pending with
    | some (due, _) =>
      if due ≤ last + quiet then
        (l.relay (l.rehearsal.happen due l.rehearsal.weight)).hearUntilQuiet quiet n
      else l
    | none => l

/-- Listens until nothing more comes for the given time. -/
def hear (l : Listening) (quiet : Nat) : Listening :=
  let l := l.check
  let l := l.relay l.rehearsal.wake
  l.hearUntilQuiet quiet l.rehearsal.weight

end Listening
end LiveTail.Link
