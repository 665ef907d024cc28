/-
Runs: the instances of a workflow for one trigger and their results. A result is written once, and
none after the report has been made, so that a report once given stays true.
-/
import MergeGate.Run.Report

namespace MergeGate

/-- One run. Results stand in the order in which they were recorded. -/
structure Run where
  workflow : String
  trigger : Trigger
  id : String
  triggered : Bool := true
  instances : List Instance := []
  results : List Result := []
  dispatched : List String := []
  cancelled : Bool := false
  graph : Option JobGraph := none
  report : Option GateReport := none

namespace Run

/-- How a run refuses a call. -/
inductive Fault where
  | frozen (run : String)
  | recorded (instanceId : String)
  | noGraph (run : String)
  | incomplete (run : String) (missing : List String)
  deriving DecidableEq, Repr

/-- The kind of every failure. -/
def Fault.kind (_ : Fault) : String := "RuntimeError"

/-- What went wrong, in words. -/
def Fault.message : Fault → String
  | frozen run => "Run " ++ run ++ " already reported; results are frozen"
  | recorded i => "Result for " ++ Text.quoted i ++ " already recorded"
  | noGraph run => "Run " ++ run ++ " has no job graph attached"
  | incomplete run missing =>
    "Run " ++ run ++ " is not complete; unresolved: " ++ Text.quotedList missing

/-- The result recorded for an instance. -/
def result? (r : Run) (instanceId : String) : Option Result :=
  r.results.find? (·.instanceId == instanceId)

/-- Record a result. -/
def record (r : Run) (x : Result) : Except Fault Run :=
  if r.report.isSome then .error (.frozen r.id)
  else if (r.result? x.instanceId).isSome then .error (.recorded x.instanceId)
  else .ok { r with results := r.results ++ [x] }

/-- Record results one after the other. -/
def recordAll (r : Run) : List Result → Except Fault Run
  | [] => .ok r
  | x :: rest => (r.record x).bind fun r => r.recordAll rest

/-- The results of a job's instances. -/
def resultsFor (r : Run) (job : String) : List Result := r.results.filter (·.job == job)

/-- The ids of the instances without a result. -/
def missing (r : Run) : List String :=
  (r.instances.filter fun i => (r.result? i.id).isNone).map (·.id)

/-- Does every instance have a result? -/
def complete (r : Run) : Bool := r.instances.all fun i => (r.result? i.id).isSome

/-- The outcome of every job, in declaration order. -/
def outcomes (r : Run) (g : JobGraph) : List Outcome :=
  g.jobs.map fun j => Outcome.fold j.id (g.critical j.id) (r.resultsFor j.id)

/-- The report of the current results. -/
def reportOf (r : Run) (g : JobGraph) : GateReport :=
  let definitions := r.outcomes g
  let withReason (reason : String) :=
    (r.results.filter (·.reason == some reason)).map (·.instanceId)
  { runId := r.id
    workflow := r.workflow
    overall := Outcome.overall definitions
    definitions
    cancelled := withReason Reason.cancelled
    cancelTimeouts := withReason Reason.cancelTimeout
    context := r.trigger.fields
    triggered := r.triggered }

/-- The report of a run: made once, when every instance has a result, and kept. -/
def gateReport (r : Run) : Except Fault (GateReport × Run) :=
  match r.report with
  | some report => .ok (report, r)
  | none => match r.graph with
    | none => .error (.noGraph r.id)
    | some g =>
      if r.complete then
        let report := r.reportOf g
        .ok (report, { r with report := some report })
      else .error (.incomplete r.id r.missing)

end Run

end MergeGate
