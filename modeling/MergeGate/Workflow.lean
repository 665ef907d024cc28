/-
Workflows as declared: jobs with their steps, needs, conditions and matrices, and the events that
start them. Nothing here is checked yet; `Graph` checks it.
-/
import MergeGate.Assoc
import MergeGate.Condition.Basic

namespace MergeGate

/-- One step of a job: a shell command, or an action that only the hosting platform runs. -/
structure Step where
  name : String
  run : Option String := none
  cwd : Option String := none
  uses : Option String := none
  /-- variables of this step only, over those of the job -/
  env : Assoc Value := []
  deriving Inhabited

/-- A dependency on another job, with its policy or else the workflow's. -/
structure Need where
  job : String
  require : Option String := none
  deriving DecidableEq, Repr

/-- A job as declared. -/
structure Job where
  id : String
  steps : List Step
  needs : List Need := []
  condition : Condition := .holds
  matrix : Value := .map []
  env : Assoc Value := []
  continueOnError : Bool := false
  /-- whether the job decides the gate, or else the workflow's default -/
  critical : Option Bool := none
  name : Option String := none
  deriving Inhabited

/-- The name a job is shown under. -/
def Job.displayName (j : Job) : String :=
  match j.name with
  | none => j.id
  | some n => if n = "" then j.id else n

/-- A workflow as declared. Its triggers give branch globs for event kinds, `none` meaning any
branch; without triggers every event starts it. What is no text describes no branch. -/
structure Workflow where
  name : String
  jobs : List Job
  triggers : Assoc (Option (List Value)) := []
  env : Assoc Value := []
  defaultRequire : String := "success"
  defaultCritical : Bool := true

/-- Does the trigger start the workflow? -/
def Workflow.accepts (w : Workflow) (t : Trigger) : Bool :=
  if w.triggers.isEmpty then true
  else match w.triggers.lookup t.event.name with
    | none => false
    | some none => true
    | some (some globs) => globs.any fun
      | .text p => Glob.matchText p t.branch
      | _ => false

end MergeGate
