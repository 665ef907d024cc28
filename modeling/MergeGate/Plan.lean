/-
Planning: which instances a trigger runs. Jobs that the triggers or their condition leave out, or
whose matrix is empty, are recorded as absent; all others are expanded.
-/
import MergeGate.Console
import MergeGate.Run.Basic

namespace MergeGate.Plan

/-- How planning fails on a graph that was not checked. -/
inductive Fault where
  | condition (fault : Condition.Fault)
  | matrix (fault : Matrix.Fault)
  | run (fault : Run.Fault)

/-- The kind of the failure, as it is reported. -/
def Fault.kind : Fault → String
  | condition fault => fault.kind
  | matrix fault => fault.kind
  | run fault => fault.kind

/-- What went wrong, in words. -/
def Fault.message : Fault → String
  | condition fault => fault.message
  | matrix fault => fault.message
  | run fault => fault.message

/-- What the trigger makes of one job. -/
inductive Choice where
  | absent (reason : String)
  | instances (is : List Instance)

/-- Decide about one job. -/
def choose (env : Assoc Value) (t : Trigger) (j : Job) : Except Fault Choice := do
  let runs ← (j.condition.evaluate t).mapError .condition
  if runs then
    let is ← (Matrix.expand j env).mapError .matrix
    return if is.isEmpty then .absent Reason.emptyMatrix else .instances is
  else return .absent Reason.condition

/-- What is said about a job that is left out. -/
def absenceText (reason : String) : String :=
  if reason = Reason.condition then "condition is false" else "matrix has an empty axis"

/-- What is said about a job that runs. -/
def countText : List Instance → String
  | [i] => if i.coordinate.isEmpty then "will run" else "1 matrix instances"
  | is => toString is.length ++ " matrix instances"

/-- Enter the choice about a job into the run. -/
def enter (r : Run) (j : Job) : Choice → Except Fault (Run × Notice)
  | .absent reason => do
    let r ← (r.record (.absent j.id reason)).mapError .run
    return (r, .planSkipped j.id (absenceText reason))
  | .instances is =>
    .ok ({ r with instances := r.instances ++ is }, .planJob j.id (countText is))

/-- Plan the jobs one after the other. -/
def planJobs (env : Assoc Value) (r : Run) : List Job → Except Fault (Run × List Notice)
  | [] => .ok (r, [])
  | j :: rest => do
    let choice ← choose env r.trigger j
    let (r, notice) ← enter r j choice
    let (r, more) ← planJobs env r rest
    return (r, notice :: more)

/-- What is said about the jobs up to the first that cannot be planned. -/
def said (env : Assoc Value) (r : Run) : List Job → List Notice
  | [] => []
  | j :: rest => match choose env r.trigger j >>= enter r j with
    | .error _ => []
    | .ok (r, notice) => notice :: said env r rest

/-- Record every job as left out. -/
def absentAll (r : Run) : List Job → Except Fault Run
  | [] => .ok r
  | j :: rest => do
    let r ← (r.record (.absent j.id Reason.condition)).mapError .run
    absentAll r rest

/-- Plan a run with the given id. -/
def plan (g : JobGraph) (t : Trigger) (runId : String) : Except Fault (Run × List Notice) :=
  let r : Run := { workflow := g.workflow.name, trigger := t, id := runId, graph := some g }
  if g.workflow.accepts t then planJobs g.workflow.env r g.jobs
  else do
    let r ← absentAll { r with triggered := false } g.jobs
    return (r, [.planSkipped g.workflow.name
      ("workflow not triggered by " ++ t.event.name ++ " on " ++ t.branch)])

/-- What has been said when planning fails. -/
def saidBefore (g : JobGraph) (t : Trigger) (runId : String) : List Notice :=
  if g.workflow.accepts t then
    said g.workflow.env { workflow := g.workflow.name, trigger := t, id := runId, graph := some g } g.jobs
  else []

end MergeGate.Plan
