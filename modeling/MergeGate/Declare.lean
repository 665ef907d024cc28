/-
Declaring jobs and workflows in one expression or step by step. Values of variables become texts,
axes become lists, and a job must have a step.
-/
import MergeGate.Matrix.Expand

namespace MergeGate.Declare

/-- Why a declaration fails. -/
inductive Fault where
  | noStep (job : String)
  | buildWithoutStep (job : String)
  | notIterable (value : Value)
  /-- something else in the place of a map -/
  | noEntries (value : Value)

/-- The kind of the failure, as it is reported. -/
def Fault.kind : Fault → String
  | noStep _ | buildWithoutStep _ => "ValueError"
  | notIterable _ => "TypeError"
  | noEntries _ => "AttributeError"

/-- What went wrong, in words. -/
def Fault.message : Fault → String
  | noStep job => "job(" ++ Text.quoted job ++ ") must have at least one step"
  | buildWithoutStep job => "Job '" ++ job ++ "' has no steps"
  | notIterable v => "'" ++ v.fullKindName ++ "' object is not iterable"
  | noEntries v => "'" ++ v.fullKindName ++ "' object has no attribute 'items'"

/-- Variables with text values. -/
def envTexts (m : Assoc Value) : Assoc Value := m.map fun p => (p.1, .text p.2.plain)

/-- A step that runs a command. -/
def shell (name command : String) (cwd : Option String) (env : Assoc Value) : Step :=
  { name, run := some command, cwd, env := envTexts env }

/-- A step that only the hosting platform runs; it goes by its action unless it has a name. -/
def action (uses : String) (name : Option String) : Step :=
  { name := (name.filter (· != "")).getD uses, uses := some uses }

/-- The values of an axis as a list. -/
def axisValues (v : Value) : Except Fault Value :=
  match Matrix.items v with
  | .ok vs => .ok (.list vs)
  | .error _ => .error (.notIterable v)

/-- The entries of a map; what counts as false is an empty one. -/
def entriesOf (v : Value) : Except Fault (List (Value × Value)) :=
  match v with
  | .map es => .ok es
  | v => if v.truthy then .error (.noEntries v) else .ok []

/-- Axes with their values as lists. -/
def axes : List (Value × Value) → Except Fault (List (Value × Value))
  | [] => .ok []
  | (k, v) :: rest => do
    let vs ← axisValues v
    let more ← axes rest
    return (k, vs) :: more

/-- A job; steps without a directory get the job's. -/
def job (draft : Job) (cwd : Option String) : Except Fault Job := do
  if draft.steps.isEmpty then .error (.noStep draft.id)
  let steps := match cwd with
    | none => draft.steps
    | some _ => draft.steps.map fun s => if s.cwd.isSome then s else { s with cwd }
  let matrix ← (entriesOf draft.matrix).bind axes
  return { draft with steps, matrix := .map matrix, env := envTexts draft.env }

/-! Step by step -/

/-- A job under construction. -/
abbrev Builder := Job

namespace Builder

/-- Begin a job. -/
def start (id : String) : Builder := { id, steps := [], condition := .given .null }

/-- Give it a name. -/
def named (b : Builder) (name : Option String) : Builder := { b with name }

/-- Let it need other jobs. -/
def dependsOn (b : Builder) (jobs : List String) (require : Option String) : Builder :=
  { b with needs := b.needs ++ jobs.map fun j => ⟨j, require⟩ }

/-- Add a step. -/
def step (b : Builder) (s : Step) : Builder := { b with steps := b.steps ++ [s] }

/-- Give it a condition. -/
def when (b : Builder) (condition : Condition) : Builder := { b with condition }

/-- Set axes of its matrix. -/
def withMatrix (b : Builder) (es : List (Value × Value)) : Except Fault Builder := do
  let new ← axes es
  let old := match b.matrix with
    | .map old => old
    | _ => []
  return { b with matrix := .map (Value.joinEntries (old ++ new)) }

/-- Set variables. -/
def withEnv (b : Builder) (env : Assoc Value) : Builder :=
  { b with env := b.env.putAll (envTexts env) }

/-- Let it fail, or not. -/
def allowFailure (b : Builder) (enabled : Bool) : Builder := { b with continueOnError := enabled }

/-- Say whether it decides the gate. -/
def gating (b : Builder) (critical : Bool) : Builder := { b with critical := some critical }

/-- The finished job. -/
def build (b : Builder) : Except Fault Job :=
  if b.steps.isEmpty then .error (.buildWithoutStep b.id) else .ok b

end Builder

/-! Workflows -/

/-- Branch globs given as any sequence. -/
def globs : Value → Except Fault (Option (List Value))
  | .null => .ok none
  | v => match Matrix.items v with
    | .ok vs => .ok (some vs)
    | .error _ => .error (.notIterable v)

/-- The events that start a workflow. -/
def triggers : List (Value × Value) → Except Fault (Assoc (Option (List Value)))
  | [] => .ok []
  | (event, v) :: rest => do
    let gs ← globs v
    let more ← triggers rest
    return (event.plain, gs) :: more

/-- A workflow of jobs. -/
def workflow (jobs : List Job) (name : String) (on : Value) (env : Assoc Value) (require : String)
    (critical : Bool) : Except Fault Workflow := do
  let triggers ← (entriesOf on).bind triggers
  return {
    name, jobs, triggers
    env := envTexts env
    defaultRequire := require
    defaultCritical := critical }

end MergeGate.Declare
