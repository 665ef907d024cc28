/-
Results: how an instance ended. An instance that never ran is skipped; the reason tells whether it
was rightly absent or something before it broke.
-/
import MergeGate.Graph.Build
import MergeGate.Matrix.Expand

namespace MergeGate

/-- How an instance or a job ended. Results that come from elsewhere may hold other words. -/
inductive Status where
  | succeeded
  | failed
  | skipped
  | other (word : String)
  deriving DecidableEq, Repr

namespace Status

/-- The word for a status. -/
def word : Status → String
  | succeeded => "succeeded"
  | failed => "failed"
  | skipped => "skipped"
  | other w => w

/-- The status that a word stands for. -/
def ofWord (w : String) : Status :=
  if w = "succeeded" then succeeded
  else if w = "failed" then failed
  else if w = "skipped" then skipped
  else other w

end Status

namespace Reason

/-- A step ended with an exit code other than zero. -/
def exit : String := "exit"
/-- The instance could not be run. -/
def error : String := "error"
/-- The job's condition or the workflow's triggers left it out. -/
def condition : String := "condition"
/-- An axis of the job's matrix has no values. -/
def emptyMatrix : String := "empty-matrix"
/-- A job it needs did not end as it asks. -/
def blocked : String := "blocked"
/-- The run was cancelled. -/
def cancelled : String := "cancelled"
/-- The run was cancelled and the instance did not stop in time. -/
def cancelTimeout : String := "cancel-timeout"

/-- Is it a reason to be rightly absent? -/
def isAbsence (r : Option String) : Bool := r == some condition || r == some emptyMatrix

end Reason

/-- How one instance ended. -/
structure Result where
  instanceId : String
  job : String
  coordinate : Coordinate := []
  status : Status
  exitCode : Option Int := none
  duration : Float := 0.0
  reason : Option String := none
  /-- failed where the job may fail -/
  allowed : Bool := false
  outputTail : String := ""

namespace Result

/-- Skipped because the job was rightly absent. -/
def isAbsent (r : Result) : Bool := r.status == .skipped && Reason.isAbsence r.reason

/-- The result of a job that has no instances. -/
def absent (job reason : String) : Result :=
  { instanceId := job, job, status := .skipped, reason := some reason }

/-- An instance that never ran. -/
def skip (i : Instance) (reason : String) : Result :=
  { instanceId := i.id, job := i.job, coordinate := i.coordinate, status := .skipped,
    reason := some reason }

/-- An instance that could not be run. -/
def broken (i : Instance) (duration : Float) (message : String) : Result :=
  { instanceId := i.id, job := i.job, coordinate := i.coordinate, status := .failed, duration,
    reason := some Reason.error, allowed := i.continueOnError, outputTail := message }

/-- An instance that ended with an exit code, or without one: zero is success. A failure is allowed
where the job may fail, unless the instance was cancelled. -/
def ofExit (i : Instance) (exitCode : Option Int) (duration : Float) (outputTail : String)
    (reason : Option String) : Result :=
  let ok := exitCode == some 0
  { instanceId := i.id, job := i.job, coordinate := i.coordinate,
    status := if ok then .succeeded else .failed
    exitCode, duration,
    reason := if ok then none else reason
    allowed := !ok && i.continueOnError && reason != some Reason.cancelled
    outputTail }

/-- An instance stopped in time after the run was cancelled: only success stands. -/
def stopped (r : Result) : Result :=
  if r.status = .succeeded then r
  else { r with status := .failed, reason := some Reason.cancelled, allowed := false }

/-- An instance that did not stop in time. -/
def timedOut (i : Instance) (duration : Float) : Result :=
  { instanceId := i.id, job := i.job, coordinate := i.coordinate, status := .failed, duration,
    reason := some Reason.cancelTimeout }

/-- Does the result satisfy what a dependent job asks? -/
def satisfies (r : Result) : Policy → Bool
  | .success => r.status == .succeeded
  | .completion => r.status == .succeeded || r.isAbsent || (r.status == .failed && r.allowed)

end Result

end MergeGate
