import LiveTail.View.Keys
import LiveTail.View.Pane
import LiveTail.View.StatusBar

/-! The viewer: a tail on a terminal, with the pane above and the status bar below.

Results of decoding arrive in an inbox and are taken from it in batches. The status of
the connection is looked at between pictures. -/
namespace LiveTail.View
open Screen

/-- The most results taken from the inbox at a time. -/
def mostAtOnce : Nat := 10000

structure Viewer (ε : Type) where
  tail : Tail ε
  colors : Palette
  endpoint : String
  /-- The status that is shown. -/
  status : Link.Status
  pane : Pane := {}
  /-- Results that were not taken yet, oldest first. -/
  inbox : List Decoded := []

namespace Viewer
variable {ε : Type}

def deliver (v : Viewer ε) (ds : List Decoded) : Viewer ε := { v with inbox := v.inbox ++ ds }

/-- Takes results from the inbox; gives their number. -/
def drain (v : Viewer ε) : Nat × Viewer ε :=
  let batch := v.inbox.take mostAtOnce
  (batch.length,
    { v with tail := v.tail.ingestAll batch, inbox := v.inbox.drop mostAtOnce })

/-- Looks at the status; tells whether it changed. -/
def poll (v : Viewer ε) (status : Link.Status) : Bool × Viewer ε :=
  (status != v.status, { v with status })

/-- The lines of a page. -/
def page (v : Viewer ε) : Nat := max v.pane.height 1

def obey (v : Viewer ε) : Command → Viewer ε
  | .scrollUp => { v with tail := v.tail.scrollBy (-1) }
  | .scrollDown => { v with tail := v.tail.scrollBy 1 }
  | .pageUp => { v with tail := v.tail.scrollBy (-v.page) }
  | .pageDown => { v with tail := v.tail.scrollBy v.page }
  | .scrollToTop => { v with tail := v.tail.scrollTo .top }
  | .followTail => { v with tail := v.tail.follow }
  | .clearBuffer => { v with tail := v.tail.clear }
  | .quit => v

/-- Does what a key says; tells whether to quit. -/
def press (v : Viewer ε) (k : Key) : Bool × Viewer ε :=
  match k.command with
  | some c => (c == .quit, v.obey c)
  | none => (false, v)

def statusBar (v : Viewer ε) : StatusBar :=
  { status := v.status
    endpoint := v.endpoint
    records := v.tail.size
    counts := v.tail.counts
    following := v.tail.viewport.pinned }

/-- Draws the whole terminal. The pane always has a row; the status bar gets what is
left, and says how things stood before the pane was drawn. -/
def draw (v : Viewer ε) (width height : Nat) : Canvas × Viewer ε :=
  let bar := v.statusBar.spans v.colors
  let above := if height < 2 then height else height - 1
  let (c, pane, tail) :=
    v.pane.draw v.tail v.colors ⟨0, 0, width, above⟩ (.blank width height)
  (c.writeCut 0 above width bar, { v with pane, tail })

end Viewer
end LiveTail.View
