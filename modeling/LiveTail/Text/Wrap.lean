import LiveTail.Text.Columns

/-! Wrapping text to a number of columns.

A newline starts a new line, and a carriage return before it is dropped. Tabs become
spaces. A line is filled as far as it goes: it ends only where the next character
would not fit, and only when it has some width already. How many columns a character
takes is a parameter. -/
namespace LiveTail.Text

/-- The spaces that a tab becomes. -/
def tabSize : Nat := 4

/-- The pieces of a text between its newlines; there is always one. -/
def segments : List Char → List (List Char)
  | [] => [[]]
  | c :: rest =>
    if c = '\n' then [] :: segments rest
    else
      match segments rest with
      | s :: others => (c :: s) :: others
      | [] => [[c]]

/-- A segment without a carriage return at its end. -/
def dropReturn (s : List Char) : List Char :=
  if s.getLast? = some '\r' then s.dropLast else s

def expandTabs (s : List Char) : List Char :=
  s.flatMap fun c => if c = '\t' then List.replicate tabSize ' ' else [c]

section Spans
variable (span : Char → Nat)

/-- Cuts characters into lines. `line` is the line so far with its last character first,
and takes `used` columns. -/
def fill (width : Nat) (line : List Char) (used : Nat) : List Char → List (List Char)
  | [] => [line.reverse]
  | c :: rest =>
    if width < used + span c ∧ 0 < used then line.reverse :: fill width [c] (span c) rest
    else fill width (c :: line) (used + span c) rest

/-- The lines of one segment. -/
def wrapSegment (width : Nat) (s : List Char) : List (List Char) :=
  fill span (max width 1) [] 0 (expandTabs (dropReturn s))

/-- The lines of a text; there is always one. -/
def wrapBy (width : Nat) (text : List Char) : List (List Char) :=
  (segments text).flatMap (wrapSegment span width)

theorem flatten_fill (width : Nat) (line : List Char) (used : Nat) (s : List Char) :
    (fill span width line used s).flatten = line.reverse ++ s := by
  induction s generalizing line used with
  | nil => simp [fill]
  | cons c rest ih =>
    simp only [fill]
    split <;> simp [ih]

theorem fill_ne_nil (width : Nat) (line : List Char) (used : Nat) (s : List Char) :
    fill span width line used s ≠ [] := by
  cases s with
  | nil => simp [fill]
  | cons c rest =>
    induction rest generalizing c line used with
    | nil => simp only [fill]; split <;> simp
    | cons d rest ih =>
      rw [fill]
      split
      · simp
      · exact ih _ _ _

end Spans

/-- The lines of a text on a terminal. -/
def wrap (width : Nat) (text : List Char) : List (List Char) := wrapBy columns width text

end LiveTail.Text
