import LiveTail.Link.Session
import LiveTail.Screen.Style
import LiveTail.Tail
import LiveTail.View.Line

/-! The status bar: the connection, what was counted, and whether the view follows. -/
namespace LiveTail.View
open Screen

structure StatusBar where
  status : Link.Status
  endpoint : String
  /-- The number of records held. -/
  records : Nat
  counts : Counts
  following : Bool

namespace StatusBar

/-- The word for a status, and its colour. -/
def label : Link.Status → String × Color
  | .opened => ("[LIVE]", .green)
  | .connecting => ("[CONNECTING]", .yellow)
  | .disconnected => ("[OFFLINE]", .red)
  | .closing => ("[CLOSING]", .gray)

def indicator (b : StatusBar) (p : Palette) : Styled :=
  let (text, color) := label b.status
  ⟨text.toList, if p.colors then { color := some color, bold := true } else {}⟩

def spans (b : StatusBar) (p : Palette) : List Styled :=
  let plain (text : String) : Styled := { text := text.toList }
  [b.indicator p, plain s!" {b.endpoint} | {b.records} records"]
    ++ (if 0 < b.counts.dropped then
      [⟨(s!" | {b.counts.dropped} dropped").toList,
        if p.colors then { color := some .red } else {}⟩] else [])
    ++ (if 0 < b.counts.evicted then [plain s!" | {b.counts.evicted} evicted"] else [])
    ++ [plain (if b.following then " | FOLLOW" else " | PAUSED (G to follow)")]

end StatusBar
end LiveTail.View
