/-! What the log of the program takes in, as a variable says it.

The variable holds rules between commas. A rule lets through events of a target, or
of every target, up to a level of detail. The rule of the longest target that fits an
event decides, so rules are kept longest first, one for each target. If a rule
cannot be read none counts. -/
namespace LiveTail.Config

/-- How much detail a rule lets through, from nothing to everything. -/
inductive Detail where
  | off
  | error
  | warn
  | info
  | debug
  | trace
deriving DecidableEq, Repr

structure LogRule where
  /-- The target; none is every target. -/
  target : Option String
  detail : Detail
deriving DecidableEq, Repr

namespace Detail

def name : Detail → String
  | off => "off"
  | error => "error"
  | warn => "warn"
  | info => "info"
  | debug => "debug"
  | trace => "trace"

def all : List Detail := [off, error, warn, info, debug, trace]

/-- The place of a level among them. -/
def rank (d : Detail) : Nat := all.idxOf d

/-- A level by its name, in any case, or by its place. -/
def read? (text : String) : Option Detail :=
  let text := String.ofList (text.toList.map Char.toLower)
  (all.zipIdx.find? fun (d, i) => text == d.name || text == toString i).map Prod.fst

end Detail

namespace LogRule

/-- Characters of targets. -/
def isTarget (c : Char) : Bool := c.isAlphanum || c == '_' || c == '-' || c == ':'

/-- A level, a target, or both with an equals sign between. A target without a level
lets everything through. -/
def read? (text : String) : Option LogRule :=
  let target := text.toList.takeWhile isTarget
  match text.toList.dropWhile isTarget with
  | [] =>
    match Detail.read? text with
    | some d => some ⟨none, d⟩
    | none => some ⟨some text, .trace⟩
  | ['='] => if target.isEmpty then none else some ⟨some (String.ofList target), .trace⟩
  | '=' :: level =>
    if target.isEmpty then none
    else (Detail.read? (String.ofList level)).map fun d => ⟨some (String.ofList target), d⟩
  | _ => none

def text (r : LogRule) : String :=
  match r.target with
  | some t => t ++ "=" ++ r.detail.name
  | none => r.detail.name

/-- Whether a rule is looked at before another: the one of the longer target is, and of
two as long the one that comes later in the order of texts. -/
def before (r s : LogRule) : Bool :=
  match r.target, s.target with
  | some t, some u =>
    u.utf8ByteSize < t.utf8ByteSize || (u.utf8ByteSize == t.utf8ByteSize && decide (u < t))
  | some _, none => true
  | none, _ => false

/-- Adds a rule in its place, instead of one for the same target. -/
def insert (r : LogRule) : List LogRule → List LogRule
  | [] => [r]
  | s :: rest =>
    if r.target = s.target then r :: rest
    else if r.before s then r :: s :: rest
    else s :: insert r rest

end LogRule

namespace LogFilter

/-- The rules a text holds; with none only errors are let through. -/
def read? (text : String) : Option (List LogRule) := do
  let rules ← ((text.splitOn ",").filter (· ≠ "")).mapM LogRule.read?
  match rules.foldl (fun rs r => r.insert rs) [] with
  | [] => some [⟨none, .error⟩]
  | rules => some rules

/-- The rules that hold, from the value of the variable if it is set. -/
def rules (value : Option String) : List LogRule :=
  (value.bind read?).getD [⟨none, .info⟩]

def text (rules : List LogRule) : String := ",".intercalate (rules.map LogRule.text)

/-- Whether an event of a target with some detail is let through. -/
def passes (rules : List LogRule) (target : String) (d : Detail) : Bool :=
  (rules.find? fun r => r.target.all (target.startsWith ·)).any fun r => d.rank ≤ r.detail.rank

end LogFilter
end LiveTail.Config
