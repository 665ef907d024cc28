/-
The commands of the program, their parameters and the values these take. A value is read by the kind of
its parameter; one that cannot be read is refused with a message that shows it.
-/
import MergeGate.Assoc
import MergeGate.Decimal.Read
import MergeGate.Folder.Basic
import MergeGate.Trigger

namespace MergeGate.CommandLine

/-- What a parameter takes. -/
inductive Kind where
  /-- nothing: it is there or not -/
  | mark
  | text
  | event
  /-- a whole number, no less than the given one -/
  | count (least : Int)
  | seconds
  /-- a path at which there is no folder, and no file that may not be opened -/
  | file

/-- A parameter. -/
structure Parameter where
  name : String
  kind : Kind := .text
  /-- what is told about it -/
  about : String
  /-- the variable that stands in for it when it is not given -/
  standIn : Option String := none
  /-- what it is otherwise, if that is told -/
  otherwise : Option String := none

/-- A value that was read. -/
inductive Reading where
  | mark
  | text (s : String)
  | event (e : EventKind)
  | count (n : Int)
  | seconds (x : Float)

/-- Read the value of a parameter; the message if it cannot be read. -/
def Kind.read (f : Folder) (s : String) : Kind → Except String Reading
  | mark => .ok .mark
  | text => .ok (.text s)
  | event => match EventKind.ofName? s with
    | some e => .ok (.event e)
    | none =>
      .error (Text.quoted s ++ " is not one of " ++
        ", ".intercalate (EventKind.all.map fun e => Text.quoted e.name) ++ ".")
  | count least => match Decimal.readIntOr s with
    | .error _ => .error (Text.quoted s ++ " is not a valid integer range.")
    | .ok n =>
      if n < least then
        .error (toString n ++ " is not in the range x>=" ++ toString least ++ ".")
      else .ok (.count n)
  | seconds => match Decimal.readFloat? s with
    | none => .error (Text.quoted s ++ " is not a valid float.")
    | some x => .ok (.seconds x)
  | file =>
    if s != "" && f.holdsFolder f.home (.ofText s) then
      .error ("File " ++ Text.quoted s ++ " is a directory.")
    else if s != "" && f.holdsBarred f.home (.ofText s) then
      .error ("File " ++ Text.quoted s ++ " is not readable.")
    else .ok (.text s)

/-- The parameter that asks for help. -/
def helpParameter : Parameter :=
  { name := "--help", kind := .mark, about := "Show this message and exit." }

/-- The parameters in front of the command. -/
def globalParameters : List Parameter :=
  [{ name := "--debug", kind := .mark, about := "Enable debug mode (stack traces, full output tails)" },
    { name := "--quiet", kind := .mark, about := "Only print the gate summary and errors" },
    helpParameter]

/-- The file that holds the workflow. -/
def workflowParameter : Parameter :=
  { name := "--workflow", about := "Workflow file (.py, .yml, .yaml)" }

/-- The parameters that say which event happened. -/
def triggerParameters : List Parameter :=
  [{ name := "--event", kind := .event, about := "Trigger event kind", standIn := some "GATECI_EVENT"
     otherwise := some EventKind.push.name },
    { name := "--ref", about := "Trigger ref, e.g. refs/heads/main (defaults to the local checkout)"
      standIn := some "GATECI_REF" },
    { name := "--branch", about := "Branch name (defaults to the branch in --ref)"
      standIn := some "GATECI_BRANCH" }]

/-- The parameters of a run. -/
def runParameters : List Parameter :=
  [{ name := "--workers", kind := .count 1, about := "Concurrency limit" },
    { name := "--grace", kind := .seconds, about := "Seconds a cancelled job gets before it is killed" },
    { name := "--status-url", about := "Gate status receiver base URL" },
    { name := "--status-file", kind := .file, about := "Write gate status JSON here" },
    { name := "--retries", kind := .count 0, about := "Retries per reporter" }]

/-- A command. -/
structure Command where
  name : String
  about : String
  parameters : List Parameter

/-- Checks a workflow. -/
def validateCommand : Command where
  name := "validate"
  about := "Load and validate a workflow; print its stages."
  parameters := [workflowParameter, helpParameter]

/-- Shows what a trigger would run. -/
def planCommand : Command where
  name := "plan"
  about := "Show which jobs and matrix instances a trigger would run."
  parameters := workflowParameter :: triggerParameters ++ [helpParameter]

/-- Runs a workflow. -/
def runCommand : Command where
  name := "run"
  about := "Run a workflow for one trigger and report the gate."
  parameters := workflowParameter :: triggerParameters ++ runParameters ++ [helpParameter]

/-- The commands, by name. -/
def commands : List Command := [planCommand, runCommand, validateCommand]

/-- The values of parameters, the last one given for each. -/
abbrev Readings := Assoc Reading

/-- A text that was given. -/
def text? (rs : Readings) (name : String) : Option String :=
  match rs.lookup name with
  | some (.text s) => some s
  | _ => none

/-- A number that was given. -/
def count? (rs : Readings) (name : String) : Option Int :=
  match rs.lookup name with
  | some (.count n) => some n
  | _ => none

/-- A time that was given. -/
def seconds? (rs : Readings) (name : String) : Option Float :=
  match rs.lookup name with
  | some (.seconds x) => some x
  | _ => none

/-- An event that was given. -/
def event? (rs : Readings) (name : String) : Option EventKind :=
  match rs.lookup name with
  | some (.event e) => some e
  | _ => none

end MergeGate.CommandLine
