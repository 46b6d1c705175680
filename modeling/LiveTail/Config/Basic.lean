import LiveTail.Config.Source
import LiveTail.Link.Backoff
import LiveTail.Link.Target
import LiveTail.Tail

/-! What a run is configured to do.

A value from the command line counts before one from a variable, which counts before
one from the configuration file; what none of them gives has a default. Values are
checked only when a run is made of them, and the first that cannot be used is
reported. -/
namespace LiveTail

structure Config where
  endpoint : String := "ws://localhost:8000/ws"
  /-- With no name the client gets a fresh one. -/
  clientId : Option String := none
  kind : String := Kind.liveLog.text
  /-- Milliseconds before connecting again. -/
  delay : Nat := 1000
  /-- The most milliseconds that the delay grows to; with none it stays the same. -/
  mostDelay : Option Nat := none
  rowHeight : Nat := 1
  overscan : Nat := 5
  capacity : Option Nat := some 10000
  logFile : String
deriving DecidableEq, Repr

/-- What a variable or the command line may set. -/
structure Overrides where
  endpoint : Option String := none
  clientId : Option String := none
  kind : Option String := none
  capacity : Option Nat := none
deriving DecidableEq, Repr, Inhabited

/-- What the variables set. -/
def Overrides.ofEnvironment (e : Config.Environment) : Overrides :=
  { endpoint := e.value? "LIVELOG_ENDPOINT", clientId := e.value? "LIVELOG_CLIENT_ID" }

/-- Why a run cannot be made. -/
inductive ConfigFailure where
  | config (e : ConfigError)
  | settings (e : Rows.SettingsError)
deriving DecidableEq, Repr

/-- All that a run needs. -/
structure Run where
  target : Link.Target
  policy : Link.Backoff
  kind : Kind
  tail : TailSettings

namespace Config
open Link

/-- The defaults with what the file gives. -/
def ofFile (e : Environment) (f : File) : Config :=
  let d : Config := { logFile := e.logFile }
  { endpoint := f.endpoint.getD d.endpoint
    clientId := f.clientId.or d.clientId
    kind := f.kind.getD d.kind
    delay := f.delay.getD d.delay
    mostDelay := f.mostDelay.or d.mostDelay
    rowHeight := f.rowHeight.getD d.rowHeight
    overscan := f.overscan.getD d.overscan
    capacity := f.capacity.or d.capacity
    logFile := f.logFile.getD d.logFile }

def override (c : Config) (o : Overrides) : Config :=
  { c with
    endpoint := o.endpoint.getD c.endpoint
    clientId := o.clientId.or c.clientId
    kind := o.kind.getD c.kind
    capacity := o.capacity.or c.capacity }

def resolve (e : Environment) (f : Option File) (o : Overrides) : Config :=
  ((ofFile e (f.getD {})).override (.ofEnvironment e)).override o

/-! ### Making a run -/

/-- Where to connect, and how long to wait before connecting again. -/
def session? (c : Config) (fresh : ClientId) : Except ConfigError (Target × Backoff) := do
  if c.delay = 0 then throw (.unusable "reconnect_delay_ms" "must be at least 1")
  let client ← match c.clientId with
    | some name => (ClientId.of? name).mapError fun e => .unusable "client_id" e.message
    | none => pure fresh
  return (⟨c.endpoint, client⟩, .ofMillis c.delay c.mostDelay)

def kind? (c : Config) : Except ConfigError Kind :=
  (Kind.of? c.kind).mapError fun e => .unusable "kind" e.message

/-- The settings of a tail; a capacity of zero is refused, after a row height of zero. -/
def tail? (c : Config) : Except Rows.SettingsError TailSettings := do
  let s : TailSettings := ⟨← Rows.Settings.of? c.rowHeight c.overscan, c.capacity⟩
  let _ : Tail Unit ← Tail.of? s
  return s

def run? (c : Config) (fresh : ClientId) : Except ConfigFailure Run := do
  let (target, policy) ← (c.session? fresh).mapError .config
  let kind ← c.kind?.mapError .config
  let tail ← c.tail?.mapError .settings
  return { target, policy, kind, tail }

end Config
end LiveTail
