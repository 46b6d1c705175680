import LiveTail.Wire.Name

/-! Where to connect, and how connecting fails. -/
namespace LiveTail.Link

/-- An endpoint, and the client that connects to it. -/
structure Target where
  endpoint : String
  clientId : ClientId
deriving DecidableEq, Repr

/-- The endpoint with the client added to its query. -/
def Target.url (t : Target) : String :=
  t.endpoint ++ (if t.endpoint.contains '?' then "&" else "?") ++ "clientId=" ++ t.clientId.text

inductive LinkError where
  | connect (endpoint reason : String)
  | receive (reason : String)
  | closed
deriving DecidableEq, Repr

def LinkError.message : LinkError → String
  | connect endpoint reason => s!"failed to connect to {endpoint}: {reason}"
  | receive reason => s!"receive failed: {reason}"
  | closed => "connection closed by peer"

end LiveTail.Link
