/-! Keys, and what they do. -/
namespace LiveTail.View

/-- What the viewer can be told to do. -/
inductive Command where
  | scrollUp
  | scrollDown
  | pageUp
  | pageDown
  | scrollToTop
  | followTail
  | clearBuffer
  | quit
deriving DecidableEq, Repr

inductive Code where
  | char (c : Char)
  | up
  | down
  | pageUp
  | pageDown
  | home
  | last
  /-- Any other key. -/
  | other
deriving DecidableEq, Repr

structure Modifiers where
  shift : Bool := false
  control : Bool := false
  alt : Bool := false
  super : Bool := false
deriving DecidableEq, Repr, Inhabited

/-- A key with what is held down beside it. -/
structure Key where
  code : Code
  modifiers : Modifiers := {}
deriving DecidableEq, Repr

namespace Key

/-- The one form of keys that are the same: a capital letter is one with shift, and with
shift a letter is a capital. Only the letters a to z have capitals here. -/
def normal (k : Key) : Key :=
  match k.code with
  | .char c =>
    if 'A' ≤ c ∧ c ≤ 'Z' then { k with modifiers := { k.modifiers with shift := true } }
    else if k.modifiers.shift then { k with code := .char c.toUpper }
    else k
  | _ => k

/-- What a key in its normal form does. -/
def bound : Key → Option Command
  | ⟨.char c, ⟨false, false, false, false⟩⟩ =>
    match c with
    | 'j' => some .scrollDown
    | 'k' => some .scrollUp
    | 'g' => some .scrollToTop
    | 'f' => some .followTail
    | 'c' => some .clearBuffer
    | 'q' => some .quit
    | _ => none
  | ⟨.char c, ⟨false, true, false, false⟩⟩ =>
    match c with
    | 'd' => some .pageDown
    | 'u' => some .pageUp
    | 'c' => some .quit
    | _ => none
  | ⟨.char 'G', ⟨true, false, false, false⟩⟩ => some .followTail
  | ⟨code, ⟨false, false, false, false⟩⟩ =>
    match code with
    | .up => some .scrollUp
    | .down => some .scrollDown
    | .pageUp => some .pageUp
    | .pageDown => some .pageDown
    | .home => some .scrollToTop
    | .last => some .followTail
    | _ => none
  | _ => none

def command (k : Key) : Option Command := k.normal.bound

end Key
end LiveTail.View
