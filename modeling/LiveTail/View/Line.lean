import LiveTail.Record.Basic
import LiveTail.Screen.Style
import LiveTail.Text.Utf8
import LiveTail.Text.Wrap

/-! How a record is written, and how its lines are coloured.

A record is written as the time of day, its level in a column of its own, and its
message. Only the first line of a record is coloured, and only when the time and the
level, as many bytes as they have, stand whole at its start. -/
namespace LiveTail.View
open Screen

/-- Whether colours are used. -/
structure Palette where
  colors : Bool
deriving DecidableEq, Repr, Inhabited

namespace Palette

/-- Colours are used unless they are refused, or the environment has a variable that
says so, whatever its value. -/
def choose (noColor : Bool) (refusal : Option String) : Palette :=
  ⟨!noColor && refusal.isNone⟩

def color : Level → Color
  | .critical | .error => .red
  | .warning => .yellow
  | .info => .cyan
  | .success => .green
  | .debug => .darkGray
  | .other _ => .white

/-- The style of a level. Without colours only the gravest are told apart. -/
def level (p : Palette) (l : Level) : Style :=
  if p.colors then { color := some (color l), bold := l == .critical }
  else { bold := l == .error || l == .critical }

def timestamp (p : Palette) : Style :=
  if p.colors then { color := some .darkGray } else {}

end Palette

/-- The width of the level's column, in characters. -/
def levelColumn : Nat := 8

/-- The name of a level, padded to its column. -/
def levelText (l : Level) : List Char :=
  let name := l.name.toList
  name ++ List.replicate (levelColumn - name.length) ' '

/-- A record as one text. -/
def recordText (r : LogRecord) : List Char :=
  r.time.timeText ++ ' ' :: levelText r.level ++ ' ' :: r.message.toList

/-- The lines of a record at a width. -/
def recordLines (r : LogRecord) (width : Nat) : List (List Char) :=
  Text.wrap width (recordText r)

/-- Splits text after a number of bytes; nothing if a character is in the way or the
text is too short. -/
def splitBytes? (bytes : Nat) (text : List Char) : Option (List Char × List Char) :=
  match bytes, text with
  | 0, text => some ([], text)
  | _ + 1, [] => none
  | bytes + 1, c :: rest =>
    if c.utf8Size ≤ bytes + 1 then
      (splitBytes? (bytes + 1 - c.utf8Size) rest).map fun (front, back) => (c :: front, back)
    else none
termination_by text.length

/-- The number of bytes of a text. -/
def byteCount (text : List Char) : Nat := (text.map (·.utf8Size)).sum

/-- The parts of a line that starts with a whole header; nothing if a part would end
inside a character. -/
def headed? (p : Palette) (r : LogRecord) (line : List Char) : Option (List Styled) := do
  let (time, rest) ← splitBytes? (byteCount r.time.timeText) line
  let (blank, rest) ← splitBytes? 1 rest
  let (level, rest) ← splitBytes? (byteCount (levelText r.level)) rest
  return [⟨time, p.timestamp⟩, ⟨blank, {}⟩, ⟨level, p.level r.level⟩, ⟨rest, {}⟩]

/-- The bytes of a header. -/
def headerBytes (r : LogRecord) : Nat :=
  byteCount r.time.timeText + 1 + byteCount (levelText r.level)

/-- A line as it is coloured. `first` says whether it is the first of its record. -/
def styledLine? (p : Palette) (r : LogRecord) (first : Bool) (line : List Char) :
    Option (List Styled) :=
  if first ∧ (splitBytes? (headerBytes r) line).isSome then headed? p r line
  else some [⟨line, {}⟩]

/-- A line as it is coloured, or plain. -/
def styledLine (p : Palette) (r : LogRecord) (first : Bool) (line : List Char) : List Styled :=
  (styledLine? p r first line).getD [⟨line, {}⟩]

end LiveTail.View
