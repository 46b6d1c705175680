import LiveTail.Config.Arguments
import LiveTail.Config.LogFilter
import LiveTail.Demo
import LiveTail.Failure
import LiveTail.View.Line
import LiveTail.Wire.Identifier

/-! The command line: reads the configuration and prints the records of a stream.

Frames come one a line from the input, or from the demo. -/
namespace LiveTail.CommandLine

def usage : String :=
  "Usage: livelog [OPTIONS]\n\n" ++
  "      --endpoint <ENDPOINT>    Stream endpoint (e.g. ws://localhost:8000/ws)\n" ++
  "      --client-id <CLIENT_ID>  Client identifier sent on connect\n" ++
  "      --kind <KIND>            Message kind to display\n" ++
  "      --capacity <CAPACITY>    Maximum buffered records (must be positive)\n" ++
  "      --config <CONFIG>        Path to configuration file\n" ++
  "      --demo                   Run against the built-in demo producer\n" ++
  "      --no-color               Disable colors\n" ++
  "  -h, --help                   Print help\n" ++
  "  -V, --version                Print version"

def refusalText : Arguments.Refusal → String
  | .unknown argument => s!"error: unexpected argument {argument} found"
  | .noValue name | .emptyValue name => s!"error: a value is required for --{name}"
  | .badValue name value => s!"error: invalid value {value} for --{name}"
  | .repeated name => s!"error: the argument --{name} cannot be used multiple times"
  | .excess name => s!"error: the argument --{name} takes no value"
  | .help => usage
  | .version => "livelog 0.1.0"

/-- The variables that count. -/
def environment : IO Config.Environment := do
  let names := ["HOME", "XDG_CONFIG_HOME", "XDG_STATE_HOME", "LIVELOG_CONFIG", "LIVELOG_ENDPOINT",
    "LIVELOG_CLIENT_ID"]
  return { values := ← names.filterMapM fun n => return (← IO.getEnv n).map (n, ·) }

/-- What is at a path. What is there and cannot be read counts as a directory. -/
def nodeAt (path : String) : IO (Option Config.Node) :=
  try
    return some (.file (← IO.FS.readBinFile path).toList)
  catch
    | .noFileOrDirectory .. => return none
    | _ => return some .directory

def configuration (a : Arguments) : IO (Except Failure Config) := do
  let e ← environment
  match Config.File.path? e a.config with
  | .error reason => return .error (.config reason)
  | .ok path =>
    let node ← path.mapM nodeAt
    return ((Config.File.ofNode (path.getD "") node.join).mapError .config).map fun f =>
      Config.resolve e f a.overrides

/-- Starts the log of the program itself. -/
def startLog (path : String) : IO (Except Failure Unit) := do
  let rules := Config.LogFilter.rules (← IO.getEnv "LIVELOG_LOG")
  match Config.LogFile.split path with
  | .error reason => return .error (.log reason)
  | .ok (directory, name) =>
    try
      IO.FS.createDirAll directory
      let log ← IO.FS.Handle.mk (Config.Path.join directory name) .append
      if Config.LogFilter.passes rules "livelog" .info then
        log.putStrLn "Configuration loaded and resolved"
      return .ok ()
    catch reason => return .error (.log (.directory directory reason.toString))

/-- What is said of a frame: its record, or why it has none. A message of another kind
is passed over. -/
def transcript (kind : Kind) (frame : String) : Option String :=
  let said : Except DecodeError LogRecord → String
    | .ok r => String.ofList (View.recordText r)
    | .error e => "dropped: " ++ e.message
  match Message.read? frame with
  | some m => if m.kind = kind.text then some (said (Frame.decodeMessage m)) else none
  | none => some (said (Frame.decode frame))

partial def watch (input : IO.FS.Stream) (kind : Kind) : IO Unit := do
  let line ← input.getLine
  unless line.isEmpty do
    if let some text := transcript kind line then IO.println text
    watch input kind

/-- Shows what one connection of the demo serves. -/
def watchDemo (client : ClientId) (token : Token) : IO Unit := do
  let settings : DemoSettings := {}
  for n in List.range (settings.share.getD 0) do
    let frame := Demo.frame n client (settings.corrupts n) ⟨⟨0, 0⟩, 0, token, 0⟩
    if let some text := transcript .liveLog frame then IO.println text

end LiveTail.CommandLine

open LiveTail CommandLine in
def main (arguments : List String) : IO UInt32 := do
  match Arguments.read arguments with
  | .error refusal =>
    IO.println (refusalText refusal)
    return if refusal = .help ∨ refusal = .version then 0 else 2
  | .ok a =>
    let some token := Token.of? (← IO.getRandomBytes (.ofNat tokenSize)).toList | return 1
    let failed (f : Failure) : IO UInt32 := do
      IO.eprintln f.message
      return 1
    match ← configuration a with
    | .error f => failed f
    | .ok c =>
      match ← startLog c.logFile with
      | .error f => failed f
      | .ok () =>
        match c.run? (.ofToken token) with
        | .error f => failed (.view (.ofConfig f))
        | .ok run =>
          if a.demo then watchDemo run.target.clientId token
          else watch (← IO.getStdin) run.kind
          return 0
