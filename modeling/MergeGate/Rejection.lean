/-
Why a workflow, a trigger or a setting is refused. Each cause is a constructor; the wording of all
of them stands in `message` and `details`. A refusal is shown as its kind and message, the job it
concerns and one line per detail.
-/
import MergeGate.Trigger
import MergeGate.Value.Text

namespace MergeGate

open Text (quoted)

/-- Why a run condition is refused. -/
inductive ConditionCause where
  | unexpectedCharacter (offset : Nat) (expression : String)
  | unexpectedEnd (expression : String)
  | expected (what got expression : String)
  | unexpectedToken (got expression : String)
  | undefinedName (name expression : String)
  | expectedComparison (name got expression : String)
  | emptyExpression (expression : String)
  | undefinedField (field : Value)
  | unsupportedOperator (op : String)
  | operandNotText (field operand : Value)
  | emptyTerms
  | notCondition (value : Value)
  | unknownNode (value : Value)

/-- Why a configuration is refused. -/
inductive Cause where
  | condition (cause : ConditionCause)
  | unknownEvent (event : String)
  | unknownDefaultPolicy (policy : String)
  | duplicateJobs (ids : List String)
  | missingNeed (job need : String) (known : List String)
  | needsItself (job : String)
  | cycle (stuck : List String)
  | noSteps (job : String)
  | unknownPolicy (policy need : String)
  | repeatedNeed (job need : String)
  | matrixNotMap
  | axisName (name : Value)
  | axisNotList (axis kind : String)
  | axisItem (axis : String) (item : Value)
  | axisDuplicates (axis : String) (values : List String)
  | exportClash (first second exported : String)
  | undefinedAxis (axis : String) (axes : List String)
  /-- a number has too many digits to be written -/
  | numberTooLong
  | documentNotMap (source : String)
  | documentInvalid (source : String) (problems : List String)
  | noJobs (source : String)
  | emptyJob (job : String)
  | unknownAdvisory (ids : List String)
  | criticalAdvisory (job : String)
  | malformed (source : String)
  | workflowSuffix (file : String)
  | workflowContent (file : String)
  | settingNotNumber (reason : String)
  | workersBelowOne (workers : Int)
  | negativeSetting

namespace ConditionCause

/-- What is wrong with the condition. -/
def message : ConditionCause → String
  | unexpectedCharacter offset _ =>
    "Unexpected character in condition at offset " ++ toString offset
  | unexpectedEnd _ => "Unexpected end of condition"
  | expected what got _ => "Expected " ++ what ++ ", got " ++ quoted got
  | unexpectedToken got _ => "Unexpected token " ++ quoted got
  | undefinedName name _ => "Condition references undefined context field " ++ quoted name
  | expectedComparison name got _ => "Expected == or != after " ++ name ++ ", got " ++ quoted got
  | emptyExpression _ => "Empty condition"
  | undefinedField field => "Condition references undefined context field " ++ field.shown
  | unsupportedOperator op => "Unsupported operator " ++ quoted op
  | operandNotText field operand =>
    "Condition on " ++ field.shown ++ " must compare against a string, got " ++ operand.shown
  | emptyTerms => "Empty AND/OR condition"
  | notCondition value => "Not a condition: " ++ value.shown
  | unknownNode value => "Unknown condition node: " ++ value.shown

/-- The expression a condition was read from, and the names it might have used. -/
def details : ConditionCause → List (String × Value)
  | unexpectedCharacter _ e | unexpectedEnd e | expected _ _ e | unexpectedToken _ e
  | expectedComparison _ _ e | emptyExpression e => [("expression", .text e)]
  | undefinedName _ e =>
    [("expression", .text e), ("known_fields", .text (", ".intercalate (Field.aliases.map (·.1))))]
  | undefinedField _ => [("known_fields", .text (", ".intercalate (Field.all.map Field.name)))]
  | unsupportedOperator _ | operandNotText .. | emptyTerms | notCondition _ | unknownNode _ => []

end ConditionCause

/-- Does the message show an integer with too many digits to write? -/
def ConditionCause.isTooLong : ConditionCause → Bool
  | undefinedField v | notCondition v | unknownNode v => v.isTooLong
  | operandNotText field operand => field.isTooLong || operand.isTooLong
  | _ => false

namespace Cause

/-- A refused condition; where its message cannot be written, that. -/
def ofCondition (c : ConditionCause) : Cause := if c.isTooLong then numberTooLong else condition c

/-- What is wrong with the configuration. -/
def message : Cause → String
  | condition c => c.message
  | unknownEvent event => "Unknown event kind " ++ quoted event
  | unknownDefaultPolicy policy => "Unknown default dependency policy " ++ quoted policy
  | duplicateJobs ids => "Duplicate job ids found: " ++ Text.quotedList ids
  | missingNeed job need _ => "Job '" ++ job ++ "' needs missing job '" ++ need ++ "'"
  | needsItself job => "Job '" ++ job ++ "' needs itself"
  | cycle _ => "Dependency graph has a cycle"
  | noSteps job => "Job '" ++ job ++ "' has no steps"
  | unknownPolicy policy need =>
    "Unknown require policy " ++ quoted policy ++ " on need '" ++ need ++ "'"
  | repeatedNeed job need => "Job '" ++ job ++ "' lists '" ++ need ++ "' twice in needs"
  | matrixNotMap => "Matrix must be a mapping of axis -> values"
  | axisName name => "Invalid matrix axis name " ++ name.shown
  | axisNotList axis _ => "Matrix axis '" ++ axis ++ "' must be a list of values"
  | axisItem axis item => "Matrix axis '" ++ axis ++ "' has a non-scalar value " ++ item.shown
  | axisDuplicates axis _ => "Matrix axis '" ++ axis ++ "' has duplicate values"
  | exportClash first second exported =>
    "Matrix axes '" ++ first ++ "' and '" ++ second ++ "' both export " ++ exported
  | undefinedAxis axis _ => "Placeholder references undefined matrix axis '" ++ axis ++ "'"
  | numberTooLong => Decimal.tooLongToWrite
  | documentNotMap source => "Workflow document must be a mapping: " ++ source
  | documentInvalid source _ => "Invalid workflow document " ++ source
  | noJobs source => "Workflow " ++ source ++ " defines no jobs"
  | emptyJob job => "Job '" ++ job ++ "' is empty"
  | unknownAdvisory ids => "gate.advisory names unknown jobs: " ++ Text.quotedList ids
  | criticalAdvisory job => "Job '" ++ job ++ "' is both critical and listed in gate.advisory"
  | malformed source => "Malformed YAML in " ++ source
  | workflowSuffix file => "Workflow must be a .py, .yml or .yaml file, got: " ++ file
  | workflowContent file =>
    "Workflow file " ++ file ++ " must return/define a Workflow or List[JobDef]"
  | settingNotNumber _ => "Invalid GATECI_* environment setting"
  | workersBelowOne _ => "GATECI_MAX_WORKERS must be >= 1"
  | negativeSetting => "GATECI_CANCEL_GRACE and GATECI_REPORT_RETRIES must not be negative"

/-- What helps to mend it. -/
def details : Cause → List (String × Value)
  | condition c => c.details
  | unknownEvent _ => [("expected", .text ("|".intercalate (EventKind.all.map EventKind.name)))]
  | unknownDefaultPolicy _ => [("expected", .text "success|completion")]
  | missingNeed _ _ known => [("known_jobs", .texts known)]
  | cycle stuck => [("stuck_jobs", .texts stuck)]
  | axisNotList _ kind => [("got", .text kind)]
  | axisDuplicates _ values => [("duplicates", .texts values)]
  | undefinedAxis _ axes => [("axes", .texts axes)]
  | documentInvalid _ problems => [("errors", .text ("; ".intercalate problems))]
  | workflowContent _ =>
    [("hint", .text "Define workflow() -> wf(...) or JOBS = [job(...), ...]")]
  | settingNotNumber reason => [("error", .text reason)]
  | workersBelowOne workers => [("got", .int workers)]
  | _ => []

/-- Is it a condition that is refused? -/
def isCondition : Cause → Bool
  | condition _ => true
  | _ => false

/-- Is it no fault of the configuration, but something that cannot be done with it? -/
def isIncident : Cause → Bool
  | numberTooLong => true
  | _ => false

/-- The kind under which a refusal is shown. -/
def kind (c : Cause) : String :=
  if c.isIncident then "ValueError"
  else if c.isCondition then "ConditionError"
  else "ConfigurationError"

end Cause

/-- A refusal: why, and of which job. -/
structure Rejection where
  cause : Cause
  job : Option String := none

namespace Rejection

/-- The layout of a refusal: kind and message, then the job, then one line per detail. An empty
job is not shown. -/
def layout (kind message : String) (job : Option String) (details : List (String × Value)) :
    String :=
  let jobLine := match job with
    | none => []
    | some j => if j = "" then [] else ["job=" ++ j]
  "\n".intercalate ((kind ++ ": " ++ message) :: jobLine ++
    details.map fun d => d.1 ++ "=" ++ d.2.plain)

/-- A refusal as text. -/
def text (r : Rejection) : String :=
  if r.cause.isIncident then r.cause.message
  else layout r.cause.kind r.cause.message r.job r.cause.details

/-- A refused condition. -/
def ofCondition (c : ConditionCause) (job : Option String) : Rejection := ⟨.ofCondition c, job⟩

/-- A refusal that concerns a job. -/
def ofJob (job : String) (c : Cause) : Rejection := ⟨c, some job⟩

end Rejection

/-- Something that goes wrong and that nobody foresaw: its kind, and what is said. -/
structure Incident where
  kind : String
  message : String
  deriving DecidableEq, Repr

end MergeGate
