/-
Run conditions as trees of tests on the trigger. A tree may come from anywhere, so its leaves hold
plain values; `check` refuses every tree that `evaluate` would not understand, and a checked tree
evaluates to the truth of its tests joined by and, or and not.
-/
import MergeGate.Glob
import MergeGate.Rejection

namespace MergeGate

/-- A condition as declared. -/
inductive Condition where
  | always (value : Value)
  /-- a field compared with a text by the named operator -/
  | compare (field : Value) (op : String) (operand : Value)
  /-- a field described by a glob pattern -/
  | glob (field : Value) (pattern : Value)
  | all (terms : List Condition)
  | any (terms : List Condition)
  | not (term : Condition)
  /-- any other value in the place of a condition, such as an expression not yet read -/
  | given (value : Value)
  deriving Inhabited

namespace Condition

/-- The condition that always holds. -/
def holds : Condition := always (.bool true)

/-- How the evaluation of an unchecked condition fails. -/
inductive Fault where
  | unknownNode (value : Value)
  | noField (name : String)
  | fieldNotText (field : Value)
  | patternNotText (pattern : Value)
  /-- a part of a pattern given in parts -/
  | partNotText (part : Value)
  /-- parts between brackets -/
  | partsInBrackets (withHyphen : Bool)
  /-- bytes among the parts, so many places after the last star -/
  | bytesAmongParts (place : Nat)

/-- The kind of the failure, as it is reported. -/
def Fault.kind : Fault → String
  | unknownNode v => (Cause.ofCondition (.unknownNode v)).kind
  | noField _ | partsInBrackets _ => "AttributeError"
  | fieldNotText _ | patternNotText _ | partNotText _ | bytesAmongParts _ => "TypeError"

/-- What went wrong, in words. -/
def Fault.message : Fault → String
  | unknownNode v => Rejection.text (.ofCondition (.unknownNode v) none)
  | noField name => "'TriggerContext' object has no attribute '" ++ name ++ "'"
  | fieldNotText v => "attribute name must be string, not '" ++ v.fullKindName ++ "'"
  | patternNotText (.bytes _) => "cannot use a bytes pattern on a string-like object"
  | patternNotText v => match v.noKey? with
    | none => "object of type '" ++ v.fullKindName ++ "' has no len()"
    | some part => "unhashable type: '" ++ part.kindName ++ "'"
  | partNotText v => "decoding to str: need a bytes-like object, " ++ v.fullKindName ++ " found"
  | partsInBrackets withHyphen =>
    "'tuple' object has no attribute '" ++ (if withHyphen then "find'" else "replace'")
  | bytesAmongParts place =>
    "sequence item " ++ toString place ++ ": expected str instance, bytes found"

/-- The text of the field that a condition names. -/
def readField (t : Trigger) : Value → Except Fault String
  | .text name => match Field.ofName? name with
    | some f => .ok (f.read t)
    | none => .error (.noField name)
  | v => .error (.fieldNotText v)

/-- Compare a field's text; every operator but equality asks for difference. -/
def compareText (actual op : String) (operand : Value) : Bool :=
  let equal := match operand with
    | .text s => actual == s
    | _ => false
  if op = "==" then equal else !equal

/-- A piece of a pattern given in parts: a star, or what stands for a text. -/
inductive PatternPart where
  | star
  | pieces (ps : List Glob.Piece)
  | bytes

/-- Are these two values the same text? -/
def isText (s : String) : Value → Bool
  | .text t => t == s
  | _ => false

/-- What the parts inside a bracket are, if it is closed: everything up to the closing bracket, of
which one at the very start, or right after the exclamation mark, is a member. -/
def bracketParts? (vs : List Value) : Option (List Value) :=
  let (mark, afterMark) := match vs with
    | v :: rest => if isText "!" v then ([v], rest) else ([], vs)
    | [] => ([], [])
  let (first, rest) := match afterMark with
    | v :: rest => if isText "]" v then ([v], rest) else ([], afterMark)
    | [] => ([], [])
  if rest.any (isText "]") then some (mark ++ first ++ rest.takeWhile fun v => !isText "]" v)
  else none

/-- The pieces of a pattern given in parts. -/
def patternParts : List Value → Except Fault (List PatternPart)
  | [] => .ok []
  | .text s :: rest => do
    let part ← match s with
      | "*" => .ok .star
      | "?" => .ok (.pieces [.one])
      | "[" => match bracketParts? rest with
        | some inside => .error (.partsInBrackets (inside.any (isText "-")))
        | none => .ok (.pieces [.exact '['])
      | s => .ok (PatternPart.pieces (s.toList.map .exact))
    (patternParts rest).map (part :: ·)
  | .bytes _ :: rest => (patternParts rest).map (.bytes :: ·)
  | v :: _ => .error (.partNotText v)

/-- Where bytes stand among the parts: counted from the first star before them, and before the first
star only if there are none after it. -/
def bytesPlace? (parts : List PatternPart) : Option Nat :=
  let first := segment parts
  (afterStars parts).or first
where
  /-- the place of bytes before the next star -/
  segment : List PatternPart → Option Nat
    | [] | .star :: _ => none
    | .bytes :: _ => some 0
    | .pieces _ :: rest => (segment rest).map (· + 1)
  /-- the place of bytes after a star -/
  afterStars : List PatternPart → Option Nat
    | [] => none
    | .star :: rest => (segment rest).or (afterStars rest)
    | _ :: rest => afterStars rest

/-- A field's text against a glob pattern. -/
def globText (actual : String) : Value → Except Fault Bool
  | .text p => .ok (Glob.matchText p actual)
  | .tuple vs =>
    if (Value.noKeyIn? vs).isSome then .error (.patternNotText (.tuple vs))
    else do
      let parts ← patternParts vs
      match bytesPlace? parts with
      | some place => .error (.bytesAmongParts place)
      | none =>
        let pieces : Glob.Pattern := parts.flatMap fun
          | .star => [.star]
          | .pieces ps => ps
          | .bytes => []
        return pieces.fits actual.toList
  | v => .error (.patternNotText v)

mutual

/-- The truth of a condition for a trigger. Terms are looked at from left to right, and no further
than needed. -/
def evaluate (t : Trigger) : Condition → Except Fault Bool
  | always v => .ok v.truthy
  | compare field op operand => (readField t field).map fun actual => compareText actual op operand
  | glob field pattern => (readField t field).bind fun actual => globText actual pattern
  | all terms => evaluateAll t terms
  | any terms => evaluateAny t terms
  | not term => (evaluate t term).map (!·)
  | given v => .error (.unknownNode v)

/-- Do all terms hold? -/
def evaluateAll (t : Trigger) : List Condition → Except Fault Bool
  | [] => .ok true
  | c :: rest => (evaluate t c).bind fun b => if b then evaluateAll t rest else .ok false

/-- Does some term hold? -/
def evaluateAny (t : Trigger) : List Condition → Except Fault Bool
  | [] => .ok false
  | c :: rest => (evaluate t c).bind fun b => if b then .ok true else evaluateAny t rest

end

/-- What evaluating a condition gives: its truth, or the very value that always holds. -/
def answer (t : Trigger) : Condition → Except Fault Value
  | always v => .ok v
  | c => (evaluate t c).map .bool

/-- Does the value name a field? -/
def isField : Value → Bool
  | .text name => (Field.ofName? name).isSome
  | _ => false

/-- The comparison operators. -/
def operators : List String := ["==", "!="]

/-- Check a leaf: a known field, and a text to compare it with. -/
def checkLeaf (field operand : Value) (op : Option String) : Except ConditionCause Unit :=
  if !isField field then .error (.undefinedField field)
  else match op.filter fun o => !operators.contains o with
    | some o => .error (.unsupportedOperator o)
    | none => match operand with
      | .text _ => .ok ()
      | v => .error (.operandNotText field v)

mutual

/-- Refuse every tree that `evaluate` would not understand. -/
def check : Condition → Except ConditionCause Unit
  | always _ => .ok ()
  | compare field op operand => checkLeaf field operand (some op)
  | glob field pattern => checkLeaf field pattern none
  | all terms => if terms.isEmpty then .error .emptyTerms else checkAll terms
  | any terms => if terms.isEmpty then .error .emptyTerms else checkAll terms
  | not term => check term
  | given v => .error (.notCondition v)

/-- Check terms from left to right. -/
def checkAll : List Condition → Except ConditionCause Unit
  | [] => .ok ()
  | c :: rest => (check c).bind fun _ => checkAll rest

end

end Condition

end MergeGate
