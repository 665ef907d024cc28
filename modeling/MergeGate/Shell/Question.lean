/-
The questions that `test` answers, about texts, numbers and files. Up to four arguments are read by
their number first, so that an operand may look like an operator; all else is an expression with
`!`, `-a`, `-o` and parentheses. An argument counts as a unary operator only if an operand follows
that does not itself make a binary operator of what comes after.
-/
import MergeGate.Shell.Number

namespace MergeGate.Shell.Question

/-- What can be known of a file. -/
structure Facts where
  isFolder : Bool
  isDevice : Bool := false
  /-- may it be read and written? -/
  usable : Bool := true
  executable : Bool
  size : Nat
  /-- when it was last changed, counted in changes -/
  changed : Nat := 0
  /-- what tells it from all other files -/
  identity : List String

/-- The role of an operator. -/
inductive Role where
  | unary
  | binary
  | not
  | both
  | either
  | opening
  | closing
  deriving DecidableEq, Repr

/-- The role of an argument, if it is an operator. -/
def role? (bs : Bytes) : Option Role :=
  match String.ofList bs with
  | "-r" | "-w" | "-x" | "-e" | "-f" | "-d" | "-c" | "-b" | "-p" | "-u" | "-g" | "-k" | "-s" | "-t"
  | "-z" | "-n" | "-h" | "-O" | "-G" | "-L" | "-S" => some .unary
  | "=" | "!=" | "<" | ">" | "-eq" | "-ne" | "-ge" | "-gt" | "-le" | "-lt" | "-nt" | "-ot"
  | "-ef" => some .binary
  | "!" => some .not
  | "-a" => some .both
  | "-o" => some .either
  | "(" => some .opening
  | ")" => some .closing
  | _ => none

/-- An evaluation: the arguments, where it stands, and what is known of files. -/
structure Work where
  arguments : Array Bytes
  position : Nat := 0
  facts : Bytes → Option Facts

/-- A step of the evaluation; its errors are messages. -/
abbrev Step := EStateM Bytes Work

/-- The role of the argument at a position; an operator that must be an operand has none. -/
def Work.roleAt (w : Work) (i : Nat) : Option Role :=
  match w.arguments[i]? with
  | none => none
  | some a => match role? a with
    | some .unary => match w.arguments[i + 1]?, w.arguments[i + 2]? with
      | none, _ => none
      | some _, none => some .unary
      | some b, some _ => if role? b == some .binary then none else some .unary
    | some .opening => if i + 1 < w.arguments.size then some .opening else none
    | r => r

/-- An operator without what it needs. -/
def complaint (operator : Bytes) (what : String) : Bytes :=
  if operator.isEmpty then Bytes.ofLiteral what else operator ++ Bytes.ofLiteral (": " ++ what)

/-- The number that an operand writes. -/
def numberOf (a : Bytes) : Step Int :=
  match Number.ofBytes? 10 a with
  | some n => return n
  | none => throw (Bytes.ofLiteral "Illegal number: " ++ a)

/-- Does one text come before another? -/
def before (a b : Bytes) : Bool := a.map Char.toNat < b.map Char.toNat

/-- The answer of a unary operator. -/
def unary (operator operand : Bytes) : Step Bool := do
  let facts := (← get).facts operand
  match String.ofList operator with
  | "-z" => return operand.isEmpty
  | "-n" => return !operand.isEmpty
  | "-t" => do
    discard (numberOf operand)
    return false
  | "-e" | "-O" | "-G" => return facts.isSome
  | "-r" | "-w" => return (facts.map (·.usable)).getD false
  | "-x" => return (facts.map (·.executable)).getD false
  | "-f" => return (facts.map fun f => !f.isFolder && !f.isDevice).getD false
  | "-d" => return (facts.map (·.isFolder)).getD false
  | "-c" => return (facts.map (·.isDevice)).getD false
  | "-s" => return (facts.map fun f => decide (0 < f.size)).getD false
  | _ => return false

/-- The answer of a binary operator. -/
def binary (operator a b : Bytes) : Step Bool := do
  let w ← get
  let compare (f : Int → Int → Bool) : Step Bool := do
    let x ← numberOf a
    let y ← numberOf b
    return f x y
  match String.ofList operator with
  | "=" => return a == b
  | "!=" => return a != b
  | "<" => return before a b
  | ">" => return before b a
  | "-eq" => compare fun x y => x == y
  | "-ne" => compare fun x y => x != y
  | "-ge" => compare fun x y => x ≥ y
  | "-gt" => compare fun x y => x > y
  | "-le" => compare fun x y => x ≤ y
  | "-lt" => compare fun x y => x < y
  | "-nt" => match w.facts a, w.facts b with
    | some x, some y => return x.changed > y.changed
    | _, _ => return false
  | "-ot" => match w.facts a, w.facts b with
    | some x, some y => return x.changed < y.changed
    | _, _ => return false
  | _ => match w.facts a, w.facts b with
    | some x, some y => return x.identity == y.identity
    | _, _ => return false

/-- Go on by some arguments. -/
def advance (n : Nat) : Step Unit := modify fun w => { w with position := w.position + n }

mutual

/-- Alternatives. `asOperand` tells that the first argument is an operand whatever it looks like. -/
def alternatives (fuel : Nat) (asOperand : Bool) : Step Bool :=
  match fuel with
  | 0 => return false
  | fuel + 1 => do
    let first ← conjunction fuel asOperand
    let w ← get
    if w.roleAt (w.position + 1) == some .either then do
      advance 2
      let rest ← alternatives fuel false
      return first || rest
    else return first

/-- Joint conditions. -/
def conjunction (fuel : Nat) (asOperand : Bool) : Step Bool :=
  match fuel with
  | 0 => return false
  | fuel + 1 => do
    let first ← negation fuel asOperand
    let w ← get
    if w.roleAt (w.position + 1) == some .both then do
      advance 2
      let rest ← conjunction fuel false
      return first && rest
    else return first

/-- A condition, perhaps negated. -/
def negation (fuel : Nat) (asOperand : Bool) : Step Bool :=
  match fuel with
  | 0 => return false
  | fuel + 1 => do
    let w ← get
    if !asOperand && w.roleAt w.position == some .not then do
      if w.position + 1 < w.arguments.size then do
        advance 1
        let b ← negation fuel false
        return !b
      else return true
    else primary fuel asOperand

/-- A single condition. -/
def primary (fuel : Nat) (asOperand : Bool) : Step Bool :=
  match fuel with
  | 0 => return false
  | fuel + 1 => do
    let w ← get
    let i := w.position
    let role := if asOperand then none else w.roleAt i
    match w.arguments[i]? with
    | none => return false
    | some a =>
      if role == some .opening then do
        advance 1
        let w ← get
        if w.roleAt w.position == some .closing then return false
        else do
          let b ← alternatives fuel false
          advance 1
          let w ← get
          if w.roleAt w.position == some .closing then return b
          else throw (Bytes.ofLiteral "closing paren expected")
      else if role == some .unary then do
        advance 1
        match w.arguments[i + 1]? with
        | some b => unary a b
        | none => throw (complaint a "argument expected")
      else if w.roleAt (i + 1) == some .binary then do
        advance 1
        let operator := (w.arguments[i + 1]?).getD []
        match w.arguments[i + 2]? with
        | some b => do
          advance 1
          binary operator a b
        | none => throw (complaint operator "argument expected")
      else return !a.isEmpty

end

/-- The answer to an expression, all of which must be used. -/
def whole (arguments : List Bytes) (facts : Bytes → Option Facts) (asOperand : Bool) :
    Except Bytes Bool :=
  let w : Work := { arguments := arguments.toArray, facts }
  let step : Step Bool := do
    let b ← alternatives (6 * arguments.length + 6) asOperand
    let w ← get
    match w.arguments[w.position]?, w.arguments[w.position + 1]? with
    | some a, some _ => throw (complaint a "unexpected operator")
    | _, _ => return b
  match step w with
  | .ok b _ => .ok b
  | .error m _ => .error m

/-- Is the answer to the arguments yes? An exclamation mark before two or three others negates the
answer, and a second one changes nothing more. -/
def answerFrom (facts : Bytes → Option Facts) (negated : Bool) : List Bytes → Except Bytes Bool
  | [] => .ok negated
  | [a, op, b] =>
    if role? op == some .binary then turn (whole [a, op, b] facts true)
    else if a == ['('] && b == [')'] then turn (whole [op] facts false)
    else if a == ['!'] then answerFrom facts true [op, b]
    else turn (whole [a, op, b] facts false)
  | [a, b, c, d] =>
    if a == ['('] && d == [')'] then turn (whole [b, c] facts false)
    else if a == ['!'] then answerFrom facts true [b, c, d]
    else turn (whole [a, b, c, d] facts false)
  | arguments => turn (whole arguments facts false)
where
  /-- the answer, negated if it has to be -/
  turn (r : Except Bytes Bool) : Except Bytes Bool := r.map fun b => if negated then !b else b

/-- Is the answer to the arguments yes? -/
def answer (facts : Bytes → Option Facts) (arguments : List Bytes) : Except Bytes Bool :=
  answerFrom facts false arguments

end MergeGate.Shell.Question
