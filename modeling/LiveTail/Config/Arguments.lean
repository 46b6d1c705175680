import LiveTail.Config.Basic
import LiveTail.Number.Numeral

/-! The command line.

Arguments are read from left to right. An option takes its value from the same
argument, after an equals sign, or from the next one, which may not look like an
option. That value is checked only when another option is read, or at the end, so an
argument that means nothing is reported first. Nothing may be given twice. -/
namespace LiveTail

structure Arguments where
  endpoint : Option String := none
  clientId : Option String := none
  kind : Option String := none
  capacity : Option Nat := none
  /-- The configuration file. -/
  config : Option String := none
  /-- Watch the demo instead of a server. -/
  demo : Bool := false
  noColor : Bool := false
deriving DecidableEq, Repr, Inhabited

namespace Arguments

/-- What an argument with a value sets. -/
inductive Setting where
  | endpoint
  | clientId
  | kind
  | capacity
  | config
deriving DecidableEq, Repr

/-- What an argument without a value asks for. -/
inductive Switch where
  | demo
  | noColor
  | help
  | version
deriving DecidableEq, Repr

/-- Why no run is made: a wrong argument, or that help or the version is asked for. -/
inductive Refusal where
  | unknown (argument : String)
  | noValue (name : String)
  | emptyValue (name : String)
  | badValue (name value : String)
  | repeated (name : String)
  /-- A value for a switch. -/
  | excess (name : String)
  | help
  | version
deriving DecidableEq, Repr

def Setting.name : Setting → String
  | endpoint => "endpoint"
  | clientId => "client-id"
  | kind => "kind"
  | capacity => "capacity"
  | config => "config"

def Switch.name : Switch → String
  | demo => "demo"
  | noColor => "no-color"
  | help => "help"
  | version => "version"

def settings : List Setting := [.endpoint, .clientId, .kind, .capacity, .config]

def switches : List Switch := [.demo, .noColor, .help, .version]

/-- A capacity: a positive number of 64 bits. -/
def capacity? (value : String) : Option Nat :=
  (Number.Numeral.unsigned? (2 ^ 64 - 1) value.toList).filter (0 < ·)

/-- Sets a value; nothing is set twice. -/
def set (a : Arguments) (s : Setting) (value : String) : Except Refusal Arguments :=
  match s with
  | .endpoint =>
    if a.endpoint.isSome then .error (.repeated s.name) else .ok { a with endpoint := value }
  | .clientId =>
    if a.clientId.isSome then .error (.repeated s.name) else .ok { a with clientId := value }
  | .kind => if a.kind.isSome then .error (.repeated s.name) else .ok { a with kind := value }
  | .capacity =>
    if a.capacity.isSome then .error (.repeated s.name)
    else
      match capacity? value with
      | some n => .ok { a with capacity := n }
      | none => .error (.badValue s.name value)
  | .config =>
    if a.config.isSome then .error (.repeated s.name)
    else if value.isEmpty then .error (.emptyValue s.name)
    else .ok { a with config := value }

def turnOn (a : Arguments) : Switch → Except Refusal Arguments
  | .demo => if a.demo then .error (.repeated "demo") else .ok { a with demo := true }
  | .noColor => if a.noColor then .error (.repeated "no-color") else .ok { a with noColor := true }
  | .help => .error .help
  | .version => .error .version

/-! ### Reading -/

/-- Arguments being read. -/
structure Reading where
  read : Arguments := {}
  /-- A setting that is not made yet, and its value once there is one. -/
  pending : Option (Setting × Option String) := none
  /-- Two dashes have been read: nothing after them is an option. -/
  closed : Bool := false

namespace Reading

/-- Makes the setting that is pending. -/
def settle (r : Reading) : Except Refusal Reading :=
  match r.pending with
  | none => .ok r
  | some (s, none) => .error (.noValue s.name)
  | some (s, some value) => do
    return { r with read := ← r.read.set s value, pending := none }

def turnOn (r : Reading) (s : Switch) : Except Refusal Reading := do
  let r ← r.settle
  return { r with read := ← r.read.turnOn s }

/-- A name after two dashes, perhaps with a value. -/
def long (r : Reading) (name : String) (value : Option String) : Except Refusal Reading :=
  match settings.find? (·.name == name), switches.find? (·.name == name), value with
  | some s, _, some value => do
    let r ← r.settle
    return { r with read := ← r.read.set s value }
  | some s, _, none => do
    let r ← r.settle
    return { r with pending := some (s, none) }
  | none, some s, none => r.turnOn s
  | none, some s, some _ => .error (.excess s.name)
  | none, none, _ => .error (.unknown ("--" ++ name))

/-- An argument that is no option: the value that is waited for, or nothing known. -/
def bare (r : Reading) (argument : String) : Except Refusal Reading :=
  match r.pending, r.closed with
  | some (s, none), false => .ok { r with pending := some (s, some argument) }
  | _, _ => .error (.unknown argument)

/-- The name and the value of an option with two dashes. -/
def split (option : List Char) : String × Option String :=
  (String.ofList (option.takeWhile (· != '=')),
    match option.dropWhile (· != '=') with
    | _ :: value => some (String.ofList value)
    | [] => none)

def step (r : Reading) (argument : String) : Except Refusal Reading :=
  if r.closed then r.bare argument
  else
    match argument.toList with
    | ['-', '-'] => .ok { r with closed := true }
    | '-' :: '-' :: option =>
      let (name, value) := split option
      r.long name value
    | '-' :: 'h' :: _ => r.turnOn .help
    | '-' :: 'V' :: _ => r.turnOn .version
    | '-' :: _ :: _ => .error (.unknown argument)
    | _ => r.bare argument

end Reading

def read (arguments : List String) : Except Refusal Arguments := do
  return (← (← arguments.foldlM Reading.step {}).settle).read

/-- What the command line sets of a configuration. -/
def overrides (a : Arguments) : Overrides :=
  { endpoint := a.endpoint, clientId := a.clientId, kind := a.kind, capacity := a.capacity }

end Arguments
end LiveTail
