/-
Settings from the environment: how many workers, how long a cancelled job may take to stop, and
where and how often the gate is reported.
-/
import MergeGate.Assoc
import MergeGate.Decimal.Read
import MergeGate.Rejection

namespace MergeGate

/-- What the environment sets. -/
structure Settings where
  maxWorkers : Option Int := none
  cancelGrace : Float := 10.0
  statusUrl : Option String := none
  statusFile : Option String := none
  reportRetries : Int := 3

namespace Settings

/-- A variable that is set and not empty. -/
def nonEmpty (env : Assoc String) (name : String) : Option String :=
  (env.lookup name).filter (· != "")

/-- Read a variable, or take the default. -/
def readOr {α : Type} (env : Assoc String) (name : String) (default : α)
    (read : String → Except String α) : Except String α :=
  match env.lookup name with
  | none => .ok default
  | some s => read s

/-- Read the settings, before their limits are looked at. -/
def read (env : Assoc String) : Except String Settings := do
  let maxWorkers ← match nonEmpty env "GATECI_MAX_WORKERS" with
    | none => pure none
    | some s => (Decimal.readIntOr s).map some
  let cancelGrace ← readOr env "GATECI_CANCEL_GRACE" 10.0 Decimal.readFloatOr
  let reportRetries ← readOr env "GATECI_REPORT_RETRIES" 3 Decimal.readIntOr
  return {
    maxWorkers, cancelGrace, reportRetries
    statusUrl := nonEmpty env "GATECI_STATUS_URL"
    statusFile := nonEmpty env "GATECI_STATUS_FILE" }

/-- No fewer than one worker, and nothing negative. -/
def check (s : Settings) : Except Rejection Settings :=
  match s.maxWorkers with
  | some n =>
    if n < 1 then .error ⟨.workersBelowOne n, none⟩
    else checkSigns s
  | none => checkSigns s
where
  /-- Nothing negative. -/
  checkSigns (s : Settings) : Except Rejection Settings :=
    if s.cancelGrace < 0.0 || s.reportRetries < 0 then .error ⟨.negativeSetting, none⟩ else .ok s

/-- The settings of an environment. -/
def ofEnv (env : Assoc String) : Except Rejection Settings := do
  let s ← (read env).mapError fun reason => ⟨.settingNotNumber reason, none⟩
  check s

end Settings

end MergeGate
