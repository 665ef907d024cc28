/-
Workflows from documents. The document is checked against its shape; then its jobs are declared as
they stand in it, with the gate section deciding which of them are critical.
-/
import MergeGate.Document.Shape
import MergeGate.Graph.Build

namespace MergeGate.Document

/-- A variable's value as text; a truth value in lower case. -/
def envText : Value → String
  | .bool b => if b then "true" else "false"
  | v => v.plain

/-- Variables with text values. -/
def envTexts : Assoc Value → Except Rejection (Assoc Value)
  | [] => .ok []
  | (k, v) :: rest =>
    if v.isTooLong then .error ⟨.numberTooLong, none⟩
    else (envTexts rest).map ((k, .text (envText v)) :: ·)

/-- The first text that is there and not empty. -/
def firstOf (texts : List (Option String)) (default : String) : String :=
  ((texts.filterMap id).find? (· != "")).getD default

/-- The steps from the given position on; without a name a step goes by its command or action. -/
def toSteps (index : Nat) : List StepDoc → Except Rejection (List Step)
  | [] => .ok []
  | s :: rest => do
    let env ← envTexts s.env
    let more ← toSteps (index + 1) rest
    return {
      name := firstOf [s.name, s.run, s.uses] ("step-" ++ toString index)
      run := s.run, cwd := s.workingDirectory, uses := s.uses, env } :: more

/-- Whether the job decides the gate: a job listed as advisory does not, and must not say it does. -/
def criticality (advisory : List String) (id : String) (d : JobDoc) :
    Except Rejection (Option Bool) :=
  if advisory.contains id then
    if d.critical = some true then .error (.ofJob id (.criticalAdvisory id)) else .ok (some false)
  else .ok d.critical

/-- A job of a document. -/
def toJob (advisory : List String) (id : String) (d : JobDoc) : Except Rejection Job := do
  let steps ← toSteps 1 d.steps
  let critical ← criticality advisory id d
  let env ← envTexts d.env
  return {
    id
    steps
    needs := d.needs.map fun n => ⟨n.job, n.require⟩
    condition := .given d.condition
    matrix := .ofFields (d.matrix.getD [])
    env
    continueOnError := d.continueOnError
    critical
    name := d.name }

/-- The jobs of a document. -/
def toJobs (advisory : List String) : Assoc JobDoc → Except Rejection (List Job)
  | [] => .ok []
  | (id, d) :: rest => do
    let j ← toJob advisory id d
    let more ← toJobs advisory rest
    return j :: more

/-- No job may be empty. -/
def filled : Assoc (Option JobDoc) → Except Rejection (Assoc JobDoc)
  | [] => .ok []
  | (id, none) :: _ => .error (.ofJob id (.emptyJob id))
  | (id, some d) :: rest => (filled rest).map ((id, d) :: ·)

/-- A bare `on` is read as the truth value in some notations: give that entry its name back. -/
def nameEvents (es : List (Value × Value)) : List (Value × Value) :=
  if (Value.field? "on" es).isSome then es
  else match Value.lookup? (.bool true) es with
    | none => es
    | some v => (es.filter fun e => !Value.same e.1 (.bool true)) ++ [(.text "on", v)]

/-- The workflow that a checked document declares. -/
def declare (source : String) (d : WorkflowDoc) : Except Rejection Workflow := do
  if d.jobs.isEmpty then .error ⟨.noJobs source, none⟩
  let jobs ← filled d.jobs
  match Text.sortedDistinct (d.gate.advisory.filter fun a => !(d.jobs.map (·.1)).contains a) with
  | [] => pure ()
  | unknown => .error ⟨.unknownAdvisory unknown, none⟩
  let jobs ← toJobs d.gate.advisory jobs
  let env ← envTexts d.env
  return {
    name := d.name
    jobs
    triggers := d.triggers.map fun p => (p.1, p.2.map fun globs => globs.map .text)
    env
    defaultRequire := d.gate.require
    defaultCritical := d.gate.critical }

/-- The workflow that a document value declares; `source` names the document in messages. -/
def toWorkflow (source : String) (v : Value) : Except Rejection Workflow :=
  match v with
  | .map _ => match workflow (nameEvents v.entriesOf) with
    | .error problems => .error ⟨.documentInvalid source (problems.map (·.text)), none⟩
    | .ok d => declare source d
  | _ => .error ⟨.documentNotMap source, none⟩

end MergeGate.Document
