/-
Matrix expansion: a job becomes one instance per combination of its axes' values, axes in
declaration order and the last one varying fastest. Placeholders are replaced by the values, and
each axis is exported as a variable.
-/
import MergeGate.Matrix.Check

namespace MergeGate

/-- One value per axis. -/
abbrev Coordinate := Assoc Value

/-- One unit of work: a job at one coordinate. -/
structure Instance where
  job : String
  coordinate : Coordinate
  index : Nat
  steps : List Step
  env : Assoc Value := []
  continueOnError : Bool := false
  deriving Inhabited

/-- The id of a job at a coordinate: the job, and the values in parentheses if there are any. -/
def instanceId (job : String) (coordinate : Coordinate) : String :=
  if coordinate.isEmpty then job
  else job ++ " (" ++ ", ".intercalate (coordinate.map fun c => c.1 ++ "=" ++ c.2.plain) ++ ")"

/-- The id of an instance. -/
def Instance.id (i : Instance) : String := instanceId i.job i.coordinate

namespace Matrix

/-- How the expansion of an unchecked job fails. -/
inductive Fault where
  | notIterable (value : Value)
  /-- a matrix that is a sequence, with an axis that is no place in it -/
  | noPlace (matrix axis : Value)
  /-- a matrix that is a sequence, with an axis beyond its ends -/
  | outOfRange (matrix : Value)
  | axisNotText (axis : Value)
  | unrendered (why : Unrendered)
  | notText (value : Value)

/-- The kind of the failure, as it is reported. -/
def Fault.kind : Fault → String
  | unrendered why => why.kind
  | axisNotText _ => "AttributeError"
  | outOfRange _ => "IndexError"
  | notIterable _ | noPlace .. | notText _ => "TypeError"

/-- What went wrong, in words. -/
def Fault.message : Fault → String
  | notIterable v => "'" ++ v.fullKindName ++ "' object is not iterable"
  | noPlace (.text _) axis => "string indices must be integers, not '" ++ axis.fullKindName ++ "'"
  | noPlace matrix axis =>
    matrix.kindName ++ " indices must be integers or slices, not " ++ axis.fullKindName
  | outOfRange (.bytes _) => "index out of range"
  | outOfRange matrix => matrix.kindName ++ " index out of range"
  | axisNotText v => "'" ++ v.fullKindName ++ "' object has no attribute 'upper'"
  | unrendered why => why.message
  | notText (.bytes _) => "cannot use a string pattern on a bytes-like object"
  | notText v => "expected string or bytes-like object, got '" ++ v.fullKindName ++ "'"

/-- The items of a value, one by one: a text gives its characters and a map its keys. -/
def items (v : Value) : Except Fault (List Value) :=
  match v with
  | .list _ | .tuple _ | .set _ => .ok v.itemsOf
  | .text s => .ok (s.toList.map fun c => .text c.toString)
  | .bytes bs => .ok (bs.map fun b => .int b.toNat)
  | .map es => .ok (es.map (·.1))
  | v => .error (.notIterable v)

/-- The place in a sequence that an integer or truth value names; negative ones count from the
end. -/
def place? (size : Nat) : Value → Option (Option Nat)
  | .int n => some (
    let n := if n < 0 then n + size else n
    if 0 ≤ n ∧ n < size then some n.toNat else none)
  | .bool b => some (if b.toNat < size then some b.toNat else none)
  | _ => none

/-- The axes of a matrix that is a sequence: each item names the place of its values. -/
def axesAt (matrix : Value) (all : List Value) : List Value → Except Fault (List (Value × Value))
  | [] => .ok []
  | axis :: rest => match place? all.length axis with
    | none => .error (.noPlace matrix axis)
    | some none => .error (.outOfRange matrix)
    | some (some i) => (axesAt matrix all rest).map ((axis, all.getD i .null) :: ·)

/-- The axes of a matrix value with what they hold. -/
def axisEntries (v : Value) : Except Fault (List (Value × Value)) :=
  match v with
  | .map _ => .ok v.entriesOf
  | v => (items v).bind fun vs => axesAt v vs vs

/-- The axes with their values one by one. -/
def axesOf : List (Value × Value) → Except Fault (List (Value × List Value))
  | [] => .ok []
  | (axis, v) :: rest => do
    let vs ← items v
    let more ← axesOf rest
    return (axis, vs) :: more

/-- The axes of a matrix value with their values. -/
def axes (v : Value) : Except Fault (List (Value × List Value)) := (axisEntries v).bind axesOf

/-- A coordinate of an unchecked matrix, whose axes may be anything. -/
abbrev RawCoordinate := List (Value × Value)

/-- All combinations, the last axis varying fastest. -/
def coordinates : List (Value × List Value) → List RawCoordinate
  | [] => [[]]
  | (axis, vs) :: rest => vs.flatMap fun v => (coordinates rest).map ((axis, v) :: ·)

/-- A coordinate whose axes are all texts, and whose values can all be written. -/
def named : RawCoordinate → Except Fault Coordinate
  | [] => .ok []
  | (.text axis, v) :: rest =>
    if v.isTooLong then .error (.unrendered .tooLong) else (named rest).map ((axis, v) :: ·)
  | (axis, _) :: _ => .error (.axisNotText axis)

/-- A text with the coordinate's values in it. -/
def renderText (c : RawCoordinate) (s : String) : Except Fault String :=
  (render (fun axis => Value.field? axis c) s).mapError .unrendered

/-- A text that may be missing. -/
def renderText? (c : RawCoordinate) : Option String → Except Fault (Option String)
  | none => .ok none
  | some s => (renderText c s).map some

/-- The value of a step's variable. -/
def renderValue (c : RawCoordinate) : Value → Except Fault Value
  | .null => .ok .null
  | .text s => (renderText c s).map .text
  | v => .error (.notText v)

/-- The variables of a step. -/
def renderStepEnv (c : RawCoordinate) : Assoc Value → Except Fault (Assoc Value)
  | [] => .ok []
  | (k, v) :: rest => do
    let v ← renderValue c v
    let more ← renderStepEnv c rest
    return (k, v) :: more

/-- The variables of a job: every value as text. -/
def renderJobEnv (c : RawCoordinate) : Assoc Value → Except Fault (Assoc Value)
  | [] => .ok []
  | (k, v) :: rest => do
    let s ← (written v).mapError .unrendered
    let t ← renderText c s
    let more ← renderJobEnv c rest
    return (k, .text t) :: more

/-- A step at a coordinate. -/
def renderStep (c : RawCoordinate) (s : Step) : Except Fault Step := do
  let name ← renderText c s.name
  let run ← renderText? c s.run
  let cwd ← renderText? c s.cwd
  let env ← renderStepEnv c s.env
  return { s with name, run, cwd, env }

/-- The steps at a coordinate. -/
def renderSteps (c : RawCoordinate) : List Step → Except Fault (List Step)
  | [] => .ok []
  | s :: rest => do
    let s ← renderStep c s
    let more ← renderSteps c rest
    return s :: more

/-- The variables that export a coordinate. -/
def exports (c : Coordinate) : Assoc Value := c.map fun p => (exported p.1, .text p.2.plain)

/-- Variables of an instance: the workflow's, over them the job's, over those the axes', by name. -/
def layerEnv (base job axes : Assoc Value) : Assoc Value :=
  ((base.putAll job).putAll axes).sortByKey

/-- The job at one coordinate. -/
def instanceAt (j : Job) (base : Assoc Value) (index : Nat) (raw : RawCoordinate) :
    Except Fault Instance := do
  let steps ← renderSteps raw j.steps
  let env ← renderJobEnv raw j.env
  let c ← named raw
  return {
    job := j.id
    coordinate := c
    index
    steps
    env := layerEnv base env (exports c)
    continueOnError := j.continueOnError }

/-- The job at several coordinates, numbered from `index` on. -/
def instancesFrom (j : Job) (base : Assoc Value) (index : Nat) :
    List RawCoordinate → Except Fault (List Instance)
  | [] => .ok []
  | c :: rest => do
    let i ← instanceAt j base index c
    let more ← instancesFrom j base (index + 1) rest
    return i :: more

/-- All instances of a job: one without a matrix, none when an axis is empty. -/
def expand (j : Job) (base : Assoc Value) : Except Fault (List Instance) := do
  let axes ← axes j.matrix
  instancesFrom j base 0 (coordinates axes)

end Matrix

end MergeGate
