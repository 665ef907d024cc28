/-
Outcomes: the results of all instances of a job folded into one status, and the gate that the
critical jobs' outcomes decide together. The order of the results does not matter.
-/
import MergeGate.Run.Result

namespace MergeGate

/-- How one job ended, over all its instances. -/
structure Outcome where
  id : String
  status : Status
  critical : Bool
  reason : Option String := none
  instances : Nat := 0
  allowedFailures : Nat := 0
  deriving DecidableEq, Repr

namespace Outcome

/-- Succeeded, or rightly absent. -/
def passed (o : Outcome) : Bool :=
  o.status == .succeeded || (o.status == .skipped && Reason.isAbsence o.reason)

/-- The distinct reasons of results, ascending and joined; none when no result gives one. -/
def joinReasons (rs : List Result) : Option String :=
  match Text.sortedDistinct ((rs.filterMap (·.reason)).filter (· != "")) with
  | [] => none
  | reasons => some (",".intercalate reasons)

/-- Failed where that is not allowed. -/
def isFatal (r : Result) : Bool := r.status == .failed && !r.allowed

/-- Failed where that is allowed. -/
def isAllowedFailure (r : Result) : Bool := r.status == .failed && r.allowed

/-- Skipped though not rightly absent. -/
def isLost (r : Result) : Bool := r.status == .skipped && !r.isAbsent

/-- Fold results: failed if one failed where that is not allowed; skipped if all were skipped, or
some were without being rightly absent; else succeeded. -/
def fold (id : String) (critical : Bool) (results : List Result) : Outcome :=
  let fatal := results.filter isFatal
  let allowedFailures := results.countP isAllowedFailure
  let lost := results.filter isLost
  let instances := results.length
  if !fatal.isEmpty then
    { id, status := .failed, critical, reason := joinReasons fatal, instances, allowedFailures }
  else if results.all (·.status == .skipped) then
    { id, status := .skipped, critical, reason := joinReasons results, instances }
  else if !lost.isEmpty then
    { id, status := .skipped, critical, reason := joinReasons lost, instances, allowedFailures }
  else { id, status := .succeeded, critical, instances, allowedFailures }

/-- The gate: failed if some critical job did not pass. -/
def overall (outcomes : List Outcome) : Status :=
  if outcomes.any fun o => o.critical && !o.passed then .failed else .succeeded

end Outcome

end MergeGate
