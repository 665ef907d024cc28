/-
The checked form of a workflow: every need names a declared job and has a policy, conditions are
read, matrices are proper, and the jobs can be staged.
-/
import MergeGate.Condition.Expression
import MergeGate.Graph.Staging
import MergeGate.Matrix.Check

namespace MergeGate

/-- What a job asks of the outcome of a job it needs. -/
inductive Policy where
  /-- it succeeded -/
  | success
  /-- it broke nothing: it succeeded, was rightly absent, or failed where that is allowed -/
  | completion
  deriving DecidableEq, Repr

namespace Policy

/-- The name of a policy. -/
def name : Policy → String
  | success => "success"
  | completion => "completion"

/-- The policy with the given name. -/
def ofName? (s : String) : Option Policy :=
  if s = "success" then some success else if s = "completion" then some completion else none

end Policy

/-- A checked need. -/
structure Edge where
  job : String
  policy : Policy
  deriving DecidableEq, Repr

/-- A checked workflow. -/
structure JobGraph where
  workflow : Workflow
  /-- in declaration order, conditions read -/
  jobs : List Job
  needs : Assoc (List Edge)
  dependents : Assoc (List String)
  levels : List (List String)

namespace JobGraph

/-- The checked needs of a job. -/
def needsOf (g : JobGraph) (job : String) : List Edge := (g.needs.lookup job).getD []

/-- The position of a job in declaration order. -/
def order (g : JobGraph) (job : String) : Nat := g.jobs.findIdx (·.id == job)

/-- The job with the given id. -/
def job? (g : JobGraph) (job : String) : Option Job := g.jobs.find? (·.id == job)

/-- Does the job decide the gate? -/
def critical (g : JobGraph) (job : String) : Bool :=
  ((g.job? job).bind (·.critical)).getD g.workflow.defaultCritical

/-- The policy of a need: its own, unless it has none or an empty one. -/
def policyName (default : String) (n : Need) : String :=
  match n.require with
  | none => default
  | some r => if r = "" then default else r

/-- Check the needs of a job in order; `seen` holds the jobs needed before. -/
def checkEdges (default job : String) (seen : List String) :
    List Need → Except Rejection (List Edge)
  | [] => .ok []
  | n :: rest =>
    let name := policyName default n
    match Policy.ofName? name with
    | none => .error (.ofJob job (.unknownPolicy name n.job))
    | some policy =>
      if seen.contains n.job then .error (.ofJob job (.repeatedNeed job n.job))
      else (checkEdges default job (n.job :: seen) rest).map (⟨n.job, policy⟩ :: ·)

/-- Check one job: it has a step, its condition can be read, its matrix and needs are proper. -/
def checkJob (default : String) (j : Job) : Except Rejection (Job × List Edge) := do
  if j.steps.isEmpty then .error (.ofJob j.id (.noSteps j.id))
  let condition ← j.condition.resolve.mapError fun c => .ofCondition c (some j.id)
  let j := { j with condition }
  Matrix.check j
  let edges ← checkEdges default j.id [] j.needs
  return (j, edges)

/-- Check all jobs in order. -/
def checkJobs (default : String) : List Job → Except Rejection (List (Job × List Edge))
  | [] => .ok []
  | j :: rest => do
    let head ← checkJob default j
    let tail ← checkJobs default rest
    return head :: tail

/-- Check a workflow. -/
def build (w : Workflow) : Except Rejection JobGraph := do
  if (Policy.ofName? w.defaultRequire).isNone then
    .error ⟨.unknownDefaultPolicy w.defaultRequire, none⟩
  Staging.check w.jobs
  let levels ← Staging.stages w.jobs
  let checked ← checkJobs w.defaultRequire w.jobs
  return {
    workflow := w
    jobs := checked.map (·.1)
    needs := checked.map fun c => (c.1.id, c.2)
    dependents := Staging.dependents w.jobs
    levels }

end JobGraph

end MergeGate
