import LiveTail.Config.Path

/-! The disk: which files and directories there are.

A place is the list of names from the root down to it. A path is followed name by
name, each in a directory; two dots go up. A path that is not absolute starts in the
working directory. -/
namespace LiveTail.Config

inductive Node where
  | directory
  | file (bytes : List UInt8)
deriving DecidableEq, Repr

/-- Why a directory cannot be made. -/
inductive MakeError where
  | fileExists
  | notADirectory
deriving DecidableEq, Repr

def MakeError.message : MakeError → String
  | fileExists => "File exists (os error 17)"
  | notADirectory => "Not a directory (os error 20)"

structure Disk where
  nodes : List (List String × Node) := []
  /-- The place of the working directory. -/
  working : List String := []

namespace Disk

/-- What is at a place. The root, the working directory and whatever something lies in
are directories. -/
def node? (d : Disk) (place : List String) : Option Node :=
  match d.nodes.lookup place with
  | some n => some n
  | none =>
    if place.isPrefixOf d.working || d.nodes.any fun e => place.isPrefixOf e.1 then
      some .directory
    else none

/-- Follows the pieces of a path from a place. -/
def walk? (d : Disk) (place : List String) : List String → Option (List String)
  | [] => some place
  | p :: rest =>
    if d.node? place = some .directory then
      if p = "" ∨ p = "." then d.walk? place rest
      else if p = ".." then d.walk? place.dropLast rest
      else if (d.node? (place ++ [p])).isSome then d.walk? (place ++ [p]) rest
      else none
    else none

/-- Where a path starts. -/
def start (d : Disk) (path : String) : List String :=
  if Path.isAbsolute path then [] else d.working

def find? (d : Disk) (path : String) : Option Node :=
  if path.isEmpty then none
  else (d.walk? (d.start path) (Path.pieces path)).bind d.node?

def isDirectory (d : Disk) (path : String) : Bool := d.find? path == some .directory

/-- Makes the directories on the way of the pieces of a path, where there are none. -/
def makeFrom (d : Disk) (place : List String) : List String → Except MakeError Disk
  | [] => .ok d
  | p :: rest =>
    if p = "" ∨ p = "." then d.makeFrom place rest
    else if p = ".." then d.makeFrom place.dropLast rest
    else
      match d.node? (place ++ [p]) with
      | some .directory => d.makeFrom (place ++ [p]) rest
      | some (.file _) =>
        .error (if rest.all fun q => q = "" ∨ q = "." then .fileExists else .notADirectory)
      | none =>
        { d with nodes := (place ++ [p], .directory) :: d.nodes }.makeFrom (place ++ [p]) rest

/-- Makes a directory and all it lies in. -/
def make (d : Disk) (path : String) : Except MakeError Disk :=
  d.makeFrom (d.start path) (Path.pieces path)

end Disk
end LiveTail.Config
