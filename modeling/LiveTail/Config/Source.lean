import LiveTail.Config.Environment
import LiveTail.Config.File
import LiveTail.Text.Utf8

/-! Where the configuration file is found.

The file named on the command line is read, or else the one that a variable names,
or else the one in the directory for configuration. There need not be such a file;
one that is there must be readable. -/
namespace LiveTail

inductive ConfigError where
  | noPath (reason : String)
  | unreadable (path reason : String)
  /-- A document that is no configuration. -/
  | malformed (path reason : String)
  /-- A value that cannot be used. -/
  | unusable (field reason : String)
deriving DecidableEq, Repr

def ConfigError.message : ConfigError → String
  | noPath reason => s!"Invalid config path: {reason}"
  | unreadable path reason => s!"Failed to read config file at {path}: {reason}"
  | malformed path reason => s!"Invalid TOML in {path}: {reason}"
  | unusable field reason => s!"Invalid value for {field}: {reason}"

namespace Config.File

/-- The path of the file that a program is told to read, if there is one. -/
def path? (e : Environment) (named : Option String) : Except ConfigError (Option String) :=
  match named, e.value? "LIVELOG_CONFIG" with
  | some path, _ => .ok path
  | none, some path =>
    if path.isEmpty then .error (.noPath "LIVELOG_CONFIG is empty") else .ok path
  | none, none => .ok e.configFile?

/-- The configuration that is at a path. -/
def ofNode (path : String) : Option Node → Except ConfigError (Option File)
  | none => .ok none
  | some .directory => .error (.unreadable path "Is a directory (os error 21)")
  | some (.file bytes) =>
    match Text.Utf8.decode? bytes with
    | none => .error (.unreadable path "stream did not contain valid UTF-8")
    | some document =>
      match read? document with
      | some f => .ok (some f)
      | none => .error (.malformed path "not a document of settings")

/-- The configuration that a program is told to read. -/
def find (e : Environment) (named : Option String) : Except ConfigError (Option File) := do
  match ← path? e named with
  | some path => ofNode path (e.disk.find? path)
  | none => return none

end Config.File
end LiveTail
