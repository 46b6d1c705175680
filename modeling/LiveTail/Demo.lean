import LiveTail.Link.Target
import LiveTail.Wire.Frame

/-! The demo: a server made up on the spot.

It serves frames with numbered records, each after a pause, over as many connections
as are opened. The numbers go on from one connection to the next. A connection closes
once it has served its share, and every so often a frame is cut short. -/
namespace LiveTail

/-- Pacing and faults of a demo. -/
structure DemoSettings where
  /-- The pause before each frame, in milliseconds. -/
  interval : Nat := 120
  /-- How many frames a connection serves; without a limit it never closes. -/
  share : Option Nat := some 250
  /-- How often a frame is cut short. -/
  corruptEvery : Option Nat := some 41
deriving DecidableEq, Repr, Inhabited

/-- What a frame takes from its surroundings. -/
structure Stamp where
  time : Time.Instant
  processId : Nat
  token : Token
  /-- Nanoseconds since 1970. -/
  timestamp : Int

namespace Demo

/-- Where the records say they come from: a module and a function of it. -/
def origin (n : Nat) : String × String :=
  match n % 4 with
  | 0 => ("ingest.worker", "process_batch")
  | 1 => ("api.handlers", "get_status")
  | 2 => ("scheduler", "tick")
  | _ => ("storage.compactor", "run_pass")

def level (n : Nat) : Level :=
  match n % 11 with
  | 0 => .debug
  | 3 | 7 => .warning
  | 5 => .error
  | 9 => .success
  | _ => .info

def text (n : Nat) : String :=
  let (module, function) := origin n
  match n % 13 with
  | 4 =>
    s!"batch {n} finished with retries; slow partitions: " ++
      ", ".intercalate ((List.range 12).map fun p => s!"p{p}")
  | 8 => s!"traceback for request {n}:\n  at {module}.{function}\n  at runtime.dispatch"
  | _ => s!"{function} handled item {n}"

def record (n : Nat) (s : Stamp) : LogRecord :=
  let (module, function) := origin n
  (LogRecord.new (level n) (text n) s.time).withDiagnostics {
    module := some module
    function := some function
    line := some (40 + n % 200)
    processId := some s.processId
    threadName := some "MainThread"
    loggerName := some "demo" }

/-- The text around the compressed bytes of a record, whole or with their second half missing. -/
def carry (compressed : List UInt8) (clientId : ClientId) (corrupt : Bool) (s : Stamp) : String :=
  (Frame.wrap (if corrupt then compressed.take (compressed.length / 2) else compressed)
    { kind := .liveLog, clientId, token := s.token, timestamp := s.timestamp }).write

/-- The frame of record `n`. -/
def frame (n : Nat) (clientId : ClientId) (corrupt : Bool) (s : Stamp) : String :=
  carry (Frame.compress (record n s)) clientId corrupt s

/-- The frame of record `n`, by a way to compress that may fail. -/
def frameWith (pack : List UInt8 → Except String (List UInt8)) (n : Nat) (clientId : ClientId)
    (corrupt : Bool) (s : Stamp) : Except EncodeError String := do
  let compressed ← (pack (record n s).toBytes).mapError .compression
  return carry compressed clientId corrupt s

/-- A connection to a demo. -/
structure Connection where
  clientId : ClientId
  /-- How many frames it has served. -/
  served : Nat := 0
deriving DecidableEq, Repr

end Demo

/-- Whether the frame of record `n` is one that is cut short. -/
def DemoSettings.corrupts (s : DemoSettings) (n : Nat) : Bool :=
  s.corruptEvery.any fun every => 0 < every && (n + 1) % every == 0

/-- Whether a connection that has served so many frames has served its share. -/
def DemoSettings.spends (s : DemoSettings) (served : Nat) : Bool :=
  s.share.any fun share => share ≤ served

/-- A demo server. -/
structure Demo where
  settings : DemoSettings
  /-- The client of every connection that is opened for no other. -/
  clientId : ClientId
  pack : List UInt8 → Except String (List UInt8) := fun content => .ok (Zstandard.encode content)
  /-- The number of frames served so far, which is the number of the next record: a word of
  64 bits, which no run uses up. -/
  produced : Nat := 0
  connections : List Demo.Connection := []
  /-- The connection whose next frame is waited for. -/
  asked : Option Nat := none

namespace Demo

inductive Event where
  /-- A connection is opened, perhaps for another client than that of the demo. -/
  | connect (clientId : Option ClientId := none)
  /-- A connection is asked for its next frame. -/
  | ask (connection : Nat)
  /-- Whoever waits for a frame gives up. -/
  | abandon
  /-- The pause before the frame that is waited for is over. -/
  | elapse (s : Stamp)

inductive Answer where
  | nothing
  | closed
  | frame (text : String)
  | failed (e : Link.LinkError)
deriving DecidableEq, Repr

/-- A connection serves the next frame. A number whose frame cannot be made is used up. -/
def serve (d : Demo) (connection : Nat) (c : Connection) (s : Stamp) : Answer × Demo :=
  let answer := match frameWith d.pack d.produced c.clientId (d.settings.corrupts d.produced) s with
    | .ok text => .frame text
    | .error e => .failed (.receive e.message)
  (answer,
    { d with
      produced := d.produced + 1
      connections := d.connections.set connection { c with served := c.served + 1 }
      asked := none })

def step (d : Demo) : Event → Answer × Demo
  | .connect clientId =>
    (.nothing,
      { d with connections := d.connections ++ [⟨clientId.getD d.clientId, 0⟩], asked := none })
  | .ask connection =>
    match d.connections[connection]? with
    | some c =>
      if d.settings.spends c.served then (.closed, { d with asked := none })
      else (.nothing, { d with asked := some connection })
    | none => (.nothing, { d with asked := none })
  | .abandon => (.nothing, { d with asked := none })
  | .elapse s =>
    match d.asked with
    | some connection =>
      match d.connections[connection]? with
      | some c => d.serve connection c s
      | none => (.nothing, { d with asked := none })
    | none => (.nothing, d)

/-- The answers to events, and where they lead. -/
def run (d : Demo) : List Event → List Answer × Demo
  | [] => ([], d)
  | e :: rest =>
    let (answer, d) := d.step e
    let (answers, d) := d.run rest
    (answer :: answers, d)

/-- Reads a connection until it closes or has yielded `most` frames. Gives the frames,
and whether it closed. -/
def read (d : Demo) (connection : Nat) (s : Stamp) (most : Nat) : List String × Bool × Demo :=
  match most with
  | 0 => ([], false, d)
  | most + 1 =>
    match d.step (.ask connection) with
    | (.closed, d) => ([], true, d)
    | (_, d) =>
      match d.step (.elapse s) with
      | (.frame text, d) =>
        let (texts, closed, d) := d.read connection s most
        (text :: texts, closed, d)
      | (_, d) => ([], false, d)

end Demo
end LiveTail
