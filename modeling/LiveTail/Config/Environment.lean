import LiveTail.Config.Disk

/-! What a program is started in: its variables and the disk.

Files that a user may keep lie in directories that variables name. A directory that
is not absolute does not count, and those for a purpose default to ones in the
user's home. -/
namespace LiveTail.Config

structure Environment where
  values : List (String × String) := []
  /-- The home that the user's account names, for when no variable does. -/
  account : Option String := none
  disk : Disk := {}

namespace Environment

def value? (e : Environment) (name : String) : Option String := e.values.lookup name

def home? (e : Environment) : Option String :=
  match e.value? "HOME" with
  | some path => if path.isEmpty then e.account else some path
  | none => e.account

/-- The directory a variable names, or else one in the home. -/
def directory? (e : Environment) (name inHome : String) : Option String :=
  ((e.value? name).filter Path.isAbsolute).or (e.home?.map fun home => Path.join home inHome)

/-- Where configuration is kept. -/
def configDirectory? (e : Environment) : Option String :=
  e.directory? "XDG_CONFIG_HOME" ".config"

/-- Where the files lie that a program writes for itself. -/
def stateDirectory? (e : Environment) : Option String :=
  e.directory? "XDG_STATE_HOME" ".local/state"

/-- The configuration file that is read if no other is named. -/
def configFile? (e : Environment) : Option String :=
  e.configDirectory?.map fun d => Path.join (Path.join d "livelog") "config.toml"

/-- The log file that is written if no other is named. -/
def logFile (e : Environment) : String :=
  match e.stateDirectory? with
  | some d => Path.join (Path.join d "livelog") "livelog.log"
  | none => "livelog.log"

end Environment
end LiveTail.Config
