/-! Names on the wire: who receives a stream, and what kind of message it carries.

Neither name is ever empty. -/
namespace LiveTail

/-- The name of a client, sent when a connection opens and with every frame. -/
structure ClientId where
  text : String
  nonempty : text ≠ ""
deriving DecidableEq, Repr

/-- The kind of a message. Handlers are registered for one kind. -/
structure Kind where
  text : String
  nonempty : text ≠ ""
deriving DecidableEq, Repr

/-- An empty name. -/
inductive NameError where
  | emptyClientId
  | emptyKind
deriving DecidableEq, Repr

def NameError.message : NameError → String
  | emptyClientId => "Client ID cannot be empty"
  | emptyKind => "Message kind cannot be empty"

def ClientId.of? (text : String) : Except NameError ClientId :=
  if h : text ≠ "" then .ok ⟨text, h⟩ else .error .emptyClientId

namespace Kind

def of? (text : String) : Except NameError Kind :=
  if h : text ≠ "" then .ok ⟨text, h⟩ else .error .emptyKind

/-- The kind that carries live log records. -/
def liveLog : Kind := ⟨"live_log", by decide⟩

instance : Inhabited Kind := ⟨liveLog⟩

end Kind
end LiveTail
