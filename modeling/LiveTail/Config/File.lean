import LiveTail.Config.Toml

/-! The configuration file: what it may set.

It is a flat document whose keys are all known. Numbers are not negative and fit what
they set. -/
namespace LiveTail.Config

structure File where
  endpoint : Option String := none
  clientId : Option String := none
  kind : Option String := none
  /-- Milliseconds before connecting again. -/
  delay : Option Nat := none
  /-- The most milliseconds that the delay grows to. -/
  mostDelay : Option Nat := none
  rowHeight : Option Nat := none
  overscan : Option Nat := none
  capacity : Option Nat := none
  logFile : Option String := none
deriving DecidableEq, Repr, Inhabited

namespace File
open Toml

/-- A whole number from zero to `most`. -/
def number? (most : Nat) (n : Int) : Option Nat :=
  if 0 ≤ n ∧ n.toNat ≤ most then some n.toNat else none

/-- Sets what an entry says; nothing if it says something unknown. -/
def put (f : File) : String × Scalar → Option File
  | ("endpoint", .text s) => some { f with endpoint := some s }
  | ("client_id", .text s) => some { f with clientId := some s }
  | ("kind", .text s) => some { f with kind := some s }
  | ("log_file_path", .text s) => some { f with logFile := some s }
  | ("reconnect_delay_ms", .whole n) =>
    (number? (2 ^ 64 - 1) n).map fun n => { f with delay := some n }
  | ("max_reconnect_delay_ms", .whole n) =>
    (number? (2 ^ 64 - 1) n).map fun n => { f with mostDelay := some n }
  | ("estimated_row_height", .whole n) =>
    (number? (2 ^ 16 - 1) n).map fun n => { f with rowHeight := some n }
  | ("overscan", .whole n) => (number? (2 ^ 64 - 1) n).map fun n => { f with overscan := some n }
  | ("buffer_capacity", .whole n) =>
    (number? (2 ^ 64 - 1) n).map fun n => { f with capacity := some n }
  | _ => none

def read? (document : String) : Option File := do
  (← Toml.read? document).foldlM put {}

end File
end LiveTail.Config
