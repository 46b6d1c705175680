import LiveTail.Config.Basic
import LiveTail.Config.LogFile

/-! How a program that watches a stream fails, and what it says then. -/
namespace LiveTail
open Config (LogError)

/-- Why the view ends. -/
inductive ViewError where
  | terminal (reason : String)
  | config (e : ConfigError)
  | settings (e : Rows.SettingsError)
deriving DecidableEq, Repr

def ViewError.message : ViewError → String
  | terminal reason => s!"Terminal IO error: {reason}"
  | config e => "Configuration error: " ++ e.message
  | settings e => "Invalid settings: " ++ e.message

/-- A run that cannot be made ends its view. -/
def ViewError.ofConfig : ConfigFailure → ViewError
  | .config e => .config e
  | .settings e => .settings e

/-- Why a program ends. -/
inductive Failure where
  | config (e : ConfigError)
  | log (e : LogError)
  | settings (e : Rows.SettingsError)
  | view (e : ViewError)
  | terminal (reason : String)
deriving DecidableEq, Repr

def Failure.message : Failure → String
  | config e => "Configuration file error: " ++ e.message
  | log e => "Logging setup failed: " ++ e.message
  | settings e => "Invalid settings: " ++ e.message
  | view e => "Viewer error: " ++ e.message
  | terminal reason => s!"Terminal error: {reason}"

end LiveTail
