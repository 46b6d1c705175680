/-! What the host chooses about rows: the height assumed before a row is measured
and how many rows are laid out beyond the visible ones. -/
namespace LiveTail.Rows

/-- A parameter that is zero and may not be. -/
inductive SettingsError where
  | zeroRowHeight
  | zeroCapacity
deriving DecidableEq, Repr

def SettingsError.message : SettingsError → String
  | zeroRowHeight => "row height must be at least 1"
  | zeroCapacity => "buffer capacity must be at least 1"

/-- A row takes at least one line. -/
structure RowHeight where
  lines : Nat
  positive : 0 < lines := by decide
deriving DecidableEq, Repr

namespace RowHeight

/-- The largest height a row can be measured at. -/
def limit : Nat := 65535

instance : Inhabited RowHeight := ⟨⟨1, by decide⟩⟩

def of? (lines : Nat) : Except SettingsError RowHeight :=
  if h : 0 < lines then .ok ⟨lines, h⟩ else .error .zeroRowHeight

theorem of?_lines (r : RowHeight) : of? r.lines = .ok r := by
  simp [of?, r.positive]

end RowHeight

structure Settings where
  estimate : RowHeight := default
  overscan : Nat := 5
deriving DecidableEq, Repr

instance : Inhabited Settings := ⟨{}⟩

def Settings.of? (estimate overscan : Nat) : Except SettingsError Settings := do
  return ⟨← RowHeight.of? estimate, overscan⟩

end LiveTail.Rows
