/-! Styles: how text looks on a screen. -/
namespace LiveTail.Screen

inductive Color where
  | red
  | green
  | yellow
  | cyan
  | gray
  | darkGray
  | white
deriving DecidableEq, Repr

def Color.name : Color → String
  | red => "Red"
  | green => "Green"
  | yellow => "Yellow"
  | cyan => "Cyan"
  | gray => "Gray"
  | darkGray => "DarkGray"
  | white => "White"

/-- A colour, if it is not to be left as it is, and weight. -/
structure Style where
  color : Option Color := none
  bold : Bool := false
deriving DecidableEq, Repr, Inhabited

/-- Text in one style. -/
structure Styled where
  text : List Char
  style : Style := {}
deriving DecidableEq, Repr

/-- The text of a styled line. -/
def plain (line : List Styled) : List Char := line.flatMap (·.text)

end LiveTail.Screen
