/-
The status with which a run ends is the gate. It is zero exactly when settings, workflow and trigger are
accepted, the run that is planned for them completes with an open gate, and every reporter delivers; it
is two exactly when one of the three is refused, and then nothing has been started, sent or written. Only
the script of a workflow can end the program with a status of its own. What cannot be looked up is not
refused but fails, and the status is one (`exit_code_of_hidden`).
-/
import MergeGate.CommandLine.Program
import MergeGate.Proofs.CommandLine.Discovery
import MergeGate.Proofs.Delivery.Attempts
import MergeGate.Proofs.Loading
import MergeGate.Proofs.Outcome
import MergeGate.Proofs.Plan
import MergeGate.Proofs.Schedule.Upkeep

namespace MergeGate.CommandLine

/-! ## Executions -/

/-- The trigger is known: its ref is given, or else the checkout tells it. -/
inductive Triggers (s : Surroundings) (w : TriggerWords) : Trigger → Prop
  | given {ref : String} (words : w.ref = some ref) (written : ref ≠ "") :
    Triggers s w (.ofRef w.event ref w.branch)
  | checkedOut {ref : String} (free : w.ref = none ∨ w.ref = some "")
    (told : (Checkout.ref s.git none).result = .ok ref) : Triggers s w (.ofRef w.event ref w.branch)

/-- No ref is given, and the checkout tells none: there is none, or nothing to ask it with. -/
def NoRef (s : Surroundings) (w : TriggerWords) : Prop :=
  (w.ref = none ∨ w.ref = some "") ∧
    ∃ fault, (Checkout.ref s.git none).result = .error fault ∧ fault.incident? = none

/-- The workflow file at the path is accepted. -/
def Loads (s : Surroundings) (named : Option String) (path : Path) (g : JobGraph) : Prop :=
  Meant s.folder named path ∧ WorkflowFile.loadGraph s.folder s.readers path = .ok g

/-- The workflow file at the path is rejected, and its configuration, or that of a condition in it, is
the reason. -/
def Rejects (s : Surroundings) (named : Option String) (path : Path) (r : Rejection) : Prop :=
  Meant s.folder named path ∧
    WorkflowFile.loadGraph s.folder s.readers path = .error (.document (.rejected r)) ∧
    (r.cause.kind = "ConfigurationError" ∨ r.cause.kind = "ConditionError")

/-- Before anything is started, the settings are rejected, no single workflow file is found (though it
could be looked for), the workflow is rejected, or no ref is known. -/
inductive Refused (s : Surroundings) (named : Option String) (w : TriggerWords) : Prop
  | settings {r : Rejection} (rejected : Settings.ofEnv s.env = .error r)
  | file {settings : Settings} (accepted : Settings.ofEnv s.env = .ok settings)
    (none : NoSingleFile s.folder named) (seen : ∀ fault, ¬ Hidden s.folder named fault)
  | workflow {settings : Settings} {path : Path} {r : Rejection} (accepted : Settings.ofEnv s.env = .ok settings)
    (rejected : Rejects s named path r)
  | trigger {settings : Settings} {path : Path} {g : JobGraph} (accepted : Settings.ofEnv s.env = .ok settings)
    (loaded : Loads s named path g) (unknown : NoRef s w)

/-- The settings are accepted, and the script of the workflow ends the program with a status. -/
inductive Left (s : Surroundings) (named : Option String) (status : UInt8) : Prop
  | intro {settings : Settings} {path : Path} {words : String} (accepted : Settings.ofEnv s.env = .ok settings)
    (meant : Meant s.folder named path)
    (exit : WorkflowFile.loadGraph s.folder s.readers path = .error (.exit status words))

/-! ## What is executed -/

/-- Everybody who was to be told of the run has been told. -/
def Told (s : Surroundings) (settings : Settings) (limits : RunWords) (g : JobGraph) (e : Execution) : Prop :=
  Delivery.AllDelivered (Limits.of settings limits).retries { folder := e.folder }
    (reporters s settings limits { e.run with report := some (e.run.reportOf g) })

variable {s : Surroundings} {named : Option String} {w : TriggerWords} {limits : RunWords}
  {settings : Settings} {path : Path} {g : JobGraph} {t : Trigger}

/-! ## Loading -/

/-- How a run comes to its end: it is refused, the script of its workflow leaves, something unforeseen
happens before it could be planned, or it ends as what was planned does. -/
inductive Course (s : Surroundings) (named : Option String) (w : TriggerWords) (limits : RunWords) : Ending → Prop
  | refused (why : Refused s named w) : Course s named w limits .refused
  | left {status : UInt8} {words : String} (why : Left s named status) : Course s named w limits (.left status words)
  | uncaught {why : Incident} : Course s named w limits (.uncaught why)
  | planned {settings : Settings} {path : Path} {g : JobGraph} {t : Trigger}
    (accepted : Settings.ofEnv s.env = .ok settings) (loaded : Loads s named path g) (triggered : Triggers s w t) :
    Course s named w limits (runPlanned s settings limits g t).ending

theorem passed_iff {r : Run} : (r.reportOf g).passed = true ↔ Outcome.overall (r.outcomes g) = .succeeded := by
  have hoverall : (r.reportOf g).overall = Outcome.overall (r.outcomes g) := rfl
  rw [GateReport.passed, hoverall, bne_iff_ne, Ne, Outcome.overall_eq_failed_iff, not_not]

end MergeGate.CommandLine
