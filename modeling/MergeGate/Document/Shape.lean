/-
The shape of a workflow document: which fields it has, what they hold, and what they are when left
out. Fields that belong to the hosting platform are passed over, except in `gate` and in a need,
where every field must be known.
-/
import MergeGate.Assoc
import MergeGate.Schema.Basic

namespace MergeGate.Document

open Schema

/-- A step as a document gives it. -/
structure StepDoc where
  name : Option String
  run : Option String
  uses : Option String
  workingDirectory : Option String
  env : Assoc Value

/-- A need: the name of a job, or a job with a policy. -/
structure NeedDoc where
  job : String
  require : Option String

/-- A job as a document gives it. -/
structure JobDoc where
  name : Option String
  needs : List NeedDoc
  /-- the condition: nothing, a truth value or an expression -/
  condition : Value
  /-- the entries of the matrix, if there is one -/
  matrix : Option (Assoc Value)
  continueOnError : Bool
  critical : Option Bool
  env : Assoc Value
  steps : List StepDoc

/-- The gate section. -/
structure GateDoc where
  require : String
  critical : Bool
  advisory : List String

/-- A whole document. -/
structure WorkflowDoc where
  name : String
  /-- event kinds with their branch globs -/
  triggers : Assoc (Option (List String))
  env : Assoc Value
  gate : GateDoc
  jobs : Assoc (Option JobDoc)

/-- The policies. -/
def policies : List String := ["success", "completion"]

/-- The value of a variable: a text, number or truth value, kept as it is, or the bytes of a
text. -/
def scalar : Checker Value
  | .bytes bs => match decoded? bs with
    | some s => .ok (.text s)
    | none => .error [⟨[.key "str"], .unreadableText⟩, ⟨[.key "int"], .unreadableInt⟩,
        ⟨[.key "float"], .unreadableNumber⟩, ⟨[.key "bool"], .unreadableBool⟩]
  | v =>
    if v.isScalar then .ok v
    else .error [⟨[.key "str"], .notText⟩, ⟨[.key "int"], .notInt⟩, ⟨[.key "float"], .notNumber⟩,
      ⟨[.key "bool"], .notBool⟩]

/-- Variables. -/
def env (es : List (Value × Value)) : Checked (Assoc Value) := defaulted "env" [] (map scalar) es

/-- A text that may be left out or null. -/
def textField (name : String) (es : List (Value × Value)) : Checked (Option String) :=
  defaulted name none (optional text) es

/-- The fields of a step. -/
def stepFields (es : List (Value × Value)) : Checked StepDoc :=
  both (both (both (both ((textField "name" es).map StepDoc.mk) (textField "run" es))
    (textField "uses" es))
    (fieldNamed ["working-directory", "working_directory"] (some none) (optional text) es)) (env es)

/-- A step: it has a command or an action, and not both. -/
def step : Checker StepDoc := fun v => do
  let es ← record "StepDoc" v
  let s ← stepFields es
  if s.run.isNone == s.uses.isNone then
    flawed (.custom "a step needs exactly one of 'run' or 'uses'")
  else return s

/-- A need with its own fields. -/
def needFields : Checker NeedDoc := fun v => do
  let es ← record "NeedDoc" v
  let n := both ((required "job" text es).map NeedDoc.mk)
    (defaulted "require" none (optional (oneOf policies)) es)
  both (n.map fun n _ => n) (closed ["job", "require"] es)

/-- A need. -/
def need : Checker NeedDoc := fun v =>
  orElse ("str", "NeedDoc") ((text v).map fun s => ⟨s, none⟩) (needFields v)

/-- The needs of a job: one name, or a list. -/
def needs : Checker (List NeedDoc) := fun v =>
  orElse ("str", "list[union[str,NeedDoc]]") ((text v).map fun s => [⟨s, none⟩]) (list need v)

/-- A condition: a text is an expression, all else must stand for a truth value. -/
def condition : Checker Value
  | .null => .ok .null
  | .text s => .ok (.text s)
  | v => orElse ("bool", "str") ((bool v).map .bool) ((text v).map .text)

/-- A matrix: any map without the two keys that are not supported. -/
def matrix : Checker (Assoc Value) := fun v => do
  let axes ← map anything v
  match Text.sorted ((axes.map (·.1)).filter fun k => k == "include" || k == "exclude") with
  | [] => return axes
  | bad =>
    flawed (.custom ("matrix " ++ Text.quotedList bad ++ " is not supported; declare plain axes"))

/-- A strategy holds the matrix. -/
def strategy : Checker (Assoc Value) := fun v => do
  let es ← record "StrategyDoc" v
  defaulted "matrix" [] matrix es

/-- A job. -/
def job : Checker JobDoc := fun v => do
  let es ← record "JobDoc" v
  let j := (textField "name" es).map JobDoc.mk
  let j := both j (defaulted "needs" [] needs es)
  let j := both j (fieldNamed ["if", "if_"] (some .null) condition es)
  let j := both j (defaulted "strategy" none (optional strategy) es)
  let j := both j (fieldNamed ["continue-on-error", "continue_on_error"] (some false) bool es)
  let j := both j (defaulted "critical" none (optional bool) es)
  let j := both j (env es)
  both j (required "steps" (someList step) es)

/-- What an event asks of the branch. -/
def trigger : Checker (Option (List String)) := fun v => do
  let es ← record "TriggerDoc" v
  defaulted "branches" none (optional (list text)) es

/-- The events that start the workflow: one, a list, or a map with branch globs. -/
def events : Checker (Assoc (Option (List String))) := fun v =>
  let one := (text v).map fun e => [(e, none)]
  let many := (list text v).map fun es => Assoc.ofPairs (es.map fun e => (e, none))
  let branches := (map (optional trigger) v).map fun m => m.map fun p => (p.1, p.2.join)
  match one with
  | .ok x => .ok x
  | .error ps => match many with
    | .ok x => .ok x
    | .error qs => match branches with
      | .ok x => .ok x
      | .error rs =>
        .error (labelled "str" ps ++ labelled "list[str]" qs ++
          labelled "dict[str,nullable[TriggerDoc]]" rs)

/-- The gate section. -/
def gate : Checker GateDoc := fun v => do
  let es ← record "GateDoc" v
  let g := (defaulted "require" "success" (oneOf policies) es).map GateDoc.mk
  let g := both g (defaulted "critical" true bool es)
  let g := both g (defaulted "advisory" [] (list text) es)
  both (g.map fun g _ => g) (closed ["require", "critical", "advisory"] es)

/-- A whole document. -/
def workflow (es : List (Value × Value)) : Checked WorkflowDoc :=
  let w := (defaulted "name" "workflow" text es).map WorkflowDoc.mk
  let w := both w (defaulted "on" [] events es)
  let w := both w (env es)
  let w := both w (defaulted "gate" ⟨"success", true, []⟩ gate es)
  both w (required "jobs" (map (optional job)) es)

end MergeGate.Document
