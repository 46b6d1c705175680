import LiveTail.Config.Disk
import LiveTail.Text.Quoted

/-! The log file of the program itself.

The screen belongs to the view, so what the program has to say of its own work goes
to a file. Its directory is made if there is none. Only one log is ever written. -/
namespace LiveTail.Config

inductive LogError where
  | directory (path reason : String)
  /-- A path without a name of a file. -/
  | noName (path : String)
  | noParent (path : String)
  /-- There is a directory where the file should be. -/
  | isDirectory (path : String)
  /-- A log is written already. -/
  | alreadySet
deriving DecidableEq, Repr

def LogError.message : LogError → String
  | directory path reason =>
    s!"Failed to create log directory at {Text.quoted path}: {reason}"
  | noName path => s!"Invalid log file path: {Text.quoted path}"
  | noParent path => s!"Log path has no parent directory: {Text.quoted path}"
  | isDirectory path => s!"Log file is a directory: {Text.quoted path}"
  | alreadySet => "Tracing subscriber already initialized"

namespace LogFile

/-- The directory and the name of a log file; a name alone lies in the working
directory. -/
def split (path : String) : Except LogError (String × String) :=
  match Path.fileName? path, Path.parent? path with
  | none, _ => .error (.noName path)
  | some _, none => .error (.noParent path)
  | some name, some directory => .ok (if directory.isEmpty then "." else directory, name)

/-- Makes the directory of a log file. It stays on the disk even if no log can be
written. -/
def prepare (d : Disk) (path : String) : Except LogError Unit × Disk :=
  match split path with
  | .error e => (.error e, d)
  | .ok (directory, name) =>
    match d.make directory with
    | .error e => (.error (.directory directory e.message), d)
    | .ok d =>
      (if d.isDirectory (Path.join directory name) then .error (.isDirectory path) else .ok (), d)

/-- Starts the log, unless one is written already. -/
def start (d : Disk) (running : Bool) (path : String) : Except LogError Unit × Disk :=
  match prepare d path with
  | (.ok (), d) => (if running then .error .alreadySet else .ok (), d)
  | failed => failed

/-- Whether a path lies in a directory that is there. -/
def hasDirectory (d : Disk) (path : String) : Bool :=
  (Path.parent? path).any fun p => !p.isEmpty && d.isDirectory p

end LogFile
end LiveTail.Config
