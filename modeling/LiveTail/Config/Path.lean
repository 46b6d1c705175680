/-! Paths: names of files, with slashes between the directories they lie in.

Slashes in a row count as one, and a single dot counts only at the front. -/
namespace LiveTail.Config.Path

def isAbsolute (path : String) : Bool := path.startsWith "/"

/-- A path from a directory on; an absolute one stays as it is. -/
def join (base path : String) : String :=
  if isAbsolute path then path
  else if base.isEmpty || base.endsWith "/" then base ++ path
  else base ++ "/" ++ path

/-- What stands between the slashes. -/
def pieces (path : String) : List String := path.splitOn "/"

/-- Pieces, last first, from the last one that counts on; the first of all counts when it
is a dot. -/
def significant : List String → List String
  | [] => []
  | [p] => if p = "" then [] else [p]
  | p :: q :: rest => if p = "" ∨ p = "." then significant (q :: rest) else p :: q :: rest

/-- The last name in a path; none when it ends in two dots or has no name. -/
def fileName? (path : String) : Option String :=
  match significant (pieces path).reverse with
  | p :: _ => if p = "." ∨ p = ".." then none else some p
  | [] => none

/-- Pieces, last first, as a path. -/
def ofPieces (absolute : Bool) (back : List String) : String :=
  match significant back with
  | [] => if absolute then "/" else ""
  | back => "/".intercalate back.reverse

/-- The directory a path lies in; empty for a name alone, and none for the root and for an
empty path. -/
def parent? (path : String) : Option String :=
  match significant (pieces path).reverse with
  | [] => none
  | _ :: back => some (ofPieces (isAbsolute path) back)

end LiveTail.Config.Path
