/-
Matrix checks: axes have proper names and lists of distinct scalar values, no two axes export the
same variable, and every placeholder of the job names an axis.
-/
import MergeGate.Matrix.Placeholder
import MergeGate.Text.Capital
import MergeGate.Workflow

namespace MergeGate.Matrix

/-- The variable that exports an axis to the steps: its name in capitals, dashes as underscores. -/
def exported (axis : String) : String :=
  "MATRIX_" ++ String.ofList ((Text.upper axis).toList.map fun c => if c = '-' then '_' else c)

/-- A text that is there and not empty. -/
def nonEmpty (s? : Option String) : List String :=
  match s? with
  | none => []
  | some s => if s = "" then [] else [s]

/-- The texts of a step in which placeholders count. -/
def stepTexts (s : Step) : List String :=
  nonEmpty (some s.name) ++ nonEmpty s.run ++ nonEmpty s.cwd ++ s.env.map fun e => e.2.plain

/-- The texts of a job in which placeholders count. -/
def jobTexts (j : Job) : List String :=
  j.steps.flatMap stepTexts ++ (j.env.map fun e => e.2.plain) ++ nonEmpty j.name

/-- The values of a job's variables, those of its steps first. -/
def envValues (j : Job) : List Value :=
  (j.steps.flatMap fun s => s.env.map (·.2)) ++ j.env.map (·.2)

/-- Check one axis. -/
def checkAxis (key values : Value) : Except Cause Unit :=
  match key with
  | .text axis =>
    if !isAxisName axis.toList then .error (.axisName key)
    else match values with
      | .list _ | .tuple _ =>
        let items := values.itemsOf
        match items.find? fun v => !v.isScalar with
        | some v => .error (if v.isTooLong then .numberTooLong else .axisItem axis v)
        | none =>
          if items.any Value.isTooLong then .error .numberTooLong
          else match Text.repeated (items.map Value.plain) with
            | [] => .ok ()
            | dupes => .error (.axisDuplicates axis dupes)
      | v => .error (.axisNotList axis v.kindName)
  | _ => .error (if key.isTooLong then .numberTooLong else .axisName key)

/-- Check every axis in order. -/
def checkAxes : List (Value × Value) → Except Cause Unit
  | [] => .ok ()
  | (k, v) :: rest => (checkAxis k v).bind fun _ => checkAxes rest

/-- The text keys of a map's entries. -/
def axisNames (entries : List (Value × Value)) : List String :=
  entries.filterMap fun e => e.1.text?

/-- No two axes may export the same variable; `seen` holds the axes before. -/
def checkExports (seen : List String) : List String → Except Cause Unit
  | [] => .ok ()
  | axis :: rest => match seen.find? fun a => exported a == exported axis with
    | some first => .error (.exportClash first axis (exported axis))
    | none => checkExports (seen ++ [axis]) rest

/-- Check the matrix of a job and the placeholders that name its axes. -/
def checkCause (j : Job) : Except Cause Unit :=
  match j.matrix with
  | .map entries => do
    checkAxes entries
    let names := axisNames entries
    checkExports [] names
    if (envValues j).any Value.isTooLong then .error .numberTooLong
    else match ((jobTexts j).flatMap placeholders).find? fun a => !names.contains a with
      | some axis => .error (.undefinedAxis axis (Text.sorted names))
      | none => .ok ()
  | _ => .error .matrixNotMap

/-- Refuse malformed axes and placeholders that name no axis. -/
def check (j : Job) : Except Rejection Unit := (checkCause j).mapError (.ofJob j.id)

end MergeGate.Matrix
