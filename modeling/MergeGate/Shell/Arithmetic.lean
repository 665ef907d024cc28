/-
The arithmetic of scripts. An expression is cut into tokens and evaluated as it is parsed; parts that
do not count, such as the second operand of `&&` after a zero, are parsed and not evaluated. Values
are whole numbers of 64 bits, and assignments are collected in the order in which they are made.
-/
import MergeGate.Shell.Number

namespace MergeGate.Shell.Arithmetic

/-- An operator between two numbers. -/
inductive Operator where
  | times | divided | rest
  | plus | minus
  | left | right
  | less | atMost | greater | atLeast
  | equal | unequal
  | bitAnd | bitXor | bitOr
  deriving DecidableEq, Repr

/-- How loosely an operator binds. -/
def Operator.looseness : Operator → Nat
  | times | divided | rest => 0
  | plus | minus => 1
  | left | right => 2
  | less | atMost | greater | atLeast => 3
  | equal | unequal => 4
  | bitAnd => 5
  | bitXor => 6
  | bitOr => 7

/-- A token of an expression. -/
inductive Token where
  | number (n : Int)
  | name (n : Bytes)
  | operator (o : Operator)
  /-- an assignment, perhaps with an operator -/
  | assign (o : Option Operator)
  | both | either | not | invert
  | opening | closing | question | colon
  /-- a byte that means nothing -/
  | stray
  deriving DecidableEq, Repr

/-- Why an expression has no value. -/
inductive Fault where
  | noPrimary
  | noEnd
  | noClosing
  | noColon
  | divisionByZero
  /-- a variable whose value is no number -/
  | illegal (value : Bytes)
  deriving DecidableEq, Repr

/-- The fault in words; those of the expression itself show it. -/
def Fault.message (expression : Bytes) : Fault → Bytes
  | noPrimary => of "expecting primary"
  | noEnd => of "expecting EOF"
  | noClosing => of "expecting ')'"
  | noColon => of "expecting ':'"
  | divisionByZero => of "division by zero"
  | illegal value => Bytes.ofLiteral "Illegal number: " ++ value
where
  /-- what is wrong with the expression -/
  of (what : String) : Bytes :=
    Bytes.ofLiteral ("arithmetic expression: " ++ what ++ ": \"") ++ expression ++ ['"']

/-- A sign that may be followed by an equality sign, which makes it an assignment. -/
def assigning (o : Operator) (rest : Bytes) : Token × Bytes :=
  match rest with
  | '=' :: rest => (.assign (some o), rest)
  | rest => (.operator o, rest)

/-- The token that begins with a sign. -/
def sign (c : Char) (rest : Bytes) : Token × Bytes :=
  match c, rest with
  | '=', '=' :: rest => (.operator .equal, rest)
  | '=', rest => (.assign none, rest)
  | '!', '=' :: rest => (.operator .unequal, rest)
  | '!', rest => (.not, rest)
  | '>', '=' :: rest => (.operator .atLeast, rest)
  | '>', '>' :: rest => assigning .right rest
  | '>', rest => (.operator .greater, rest)
  | '<', '=' :: rest => (.operator .atMost, rest)
  | '<', '<' :: rest => assigning .left rest
  | '<', rest => (.operator .less, rest)
  | '|', '|' :: rest => (.either, rest)
  | '|', rest => assigning .bitOr rest
  | '&', '&' :: rest => (.both, rest)
  | '&', rest => assigning .bitAnd rest
  | '*', rest => assigning .times rest
  | '/', rest => assigning .divided rest
  | '%', rest => assigning .rest rest
  | '+', rest => assigning .plus rest
  | '-', rest => assigning .minus rest
  | '^', rest => assigning .bitXor rest
  | '~', rest => (.invert, rest)
  | '(', rest => (.opening, rest)
  | ')', rest => (.closing, rest)
  | '?', rest => (.question, rest)
  | ':', rest => (.colon, rest)
  | _, rest => (.stray, rest)

/-- The tokens of an expression. Every token takes a byte at least, so as much fuel as bytes is
enough. -/
def tokens (fuel : Nat) (bs : Bytes) : List Token :=
  match fuel, bs with
  | 0, _ | _, [] => []
  | fuel + 1, c :: rest =>
    if c == ' ' || c == '\t' || c == '\n' then tokens fuel rest
    else if isDigitByte c then
      let (n, _, rest) := Number.magnitude 0 bs
      .number (min n Number.greatest) :: tokens fuel rest
    else if isNameStart c then
      .name (bs.takeWhile isNameRest) :: tokens fuel (bs.dropWhile isNameRest)
    else
      let (t, rest) := sign c rest
      t :: tokens fuel rest

/-- The value of a truth. -/
def truth (b : Bool) : Int := if b then 1 else 0

/-- Two numbers combined bit by bit. -/
def bitwise (f : Nat → Nat → Nat) (a b : Int) : Int :=
  Number.wrap (f (Number.unsigned a) (Number.unsigned b))

/-- The value of an operator. -/
def Operator.apply (o : Operator) (a b : Int) : Except Fault Int :=
  let shift := Number.unsigned b % 64
  match o with
  | times => .ok (Number.wrap (a * b))
  | divided => if b = 0 then .error .divisionByZero else .ok (Number.wrap (a.tdiv b))
  | rest => if b = 0 then .error .divisionByZero else .ok (a.tmod b)
  | plus => .ok (Number.wrap (a + b))
  | minus => .ok (Number.wrap (a - b))
  | left => .ok (Number.wrap (a * Int.pow 2 shift))
  | right => .ok (a.fdiv (Int.pow 2 shift))
  | less => .ok (truth (a < b))
  | atMost => .ok (truth (a ≤ b))
  | greater => .ok (truth (b < a))
  | atLeast => .ok (truth (b ≤ a))
  | equal => .ok (truth (a = b))
  | unequal => .ok (truth (a ≠ b))
  | bitAnd => .ok (bitwise Nat.land a b)
  | bitXor => .ok (bitwise Nat.xor a b)
  | bitOr => .ok (bitwise Nat.lor a b)

/-- An evaluation at work: the tokens that are left and the assignments that were made, the last
first. -/
structure Work where
  left : List Token
  assigned : List (Bytes × Int) := []

/-- A step of the evaluation. -/
abbrev Step := EStateM Fault Work

/-- The next token. -/
def look : Step (Option Token) := return (← get).left.head?

/-- Pass the next token. -/
def pass : Step Unit := modify fun w => { w with left := w.left.tail }

/-- The value of a variable. -/
def valueOf (values : Bytes → Option Bytes) (name : Bytes) : Step Int := do
  match (← get).assigned.lookup name with
  | some n => return n
  | none =>
    let text := (values name).getD []
    match Number.ofBytes? 0 text with
    | some n => return n
    | none => throw (.illegal text)

/-- The value of an operator, if it counts. -/
def combine (counts : Bool) (o : Operator) (a b : Int) : Step Int :=
  if counts then
    match o.apply a b with
    | .ok n => return n
    | .error f => throw f
  else return b

mutual

/-- An assignment, or an expression without one. -/
def assignment (values : Bytes → Option Bytes) (fuel : Nat) (counts : Bool) : Step Int :=
  match fuel with
  | 0 => throw .noPrimary
  | fuel + 1 => do
    match (← get).left with
    | .name n :: .assign o :: _ => do
      pass
      pass
      let result ← assignment values fuel counts
      if counts then
        let v ← match o with
          | none => pure result
          | some o => do
            let old ← valueOf values n
            combine true o old result
        modify fun w => { w with assigned := (n, v) :: w.assigned }
        return v
      else return result
    | _ => conditional values fuel counts

/-- A choice between two values, or an expression without one. -/
def conditional (values : Bytes → Option Bytes) (fuel : Nat) (counts : Bool) : Step Int :=
  match fuel with
  | 0 => throw .noPrimary
  | fuel + 1 => do
    let a ← disjunction values fuel counts
    if (← look) != some .question then return a
    else do
      pass
      let b ← assignment values fuel (counts && a != 0)
      if (← look) != some .colon then throw .noColon
      pass
      let c ← conditional values fuel (counts && a == 0)
      return if a != 0 then b else c

/-- Alternatives. -/
def disjunction (values : Bytes → Option Bytes) (fuel : Nat) (counts : Bool) : Step Int :=
  match fuel with
  | 0 => throw .noPrimary
  | fuel + 1 => do
    let a ← conjunction values fuel counts
    if (← look) != some .either then return a
    else do
      pass
      let b ← disjunction values fuel (counts && a == 0)
      return truth (a != 0 || b != 0)

/-- Joint conditions. -/
def conjunction (values : Bytes → Option Bytes) (fuel : Nat) (counts : Bool) : Step Int :=
  match fuel with
  | 0 => throw .noPrimary
  | fuel + 1 => do
    let first ← primary values fuel counts
    let a ← operators values fuel counts 8 first
    if (← look) != some .both then return a
    else do
      pass
      let b ← conjunction values fuel (counts && a != 0)
      return truth (a != 0 && b != 0)

/-- The operators behind a number that bind more closely than the given looseness. -/
def operators (values : Bytes → Option Bytes) (fuel : Nat) (counts : Bool) (limit : Nat) (a : Int) :
    Step Int :=
  match fuel with
  | 0 => throw .noPrimary
  | fuel + 1 => do
    match ← look with
    | some (.operator o) =>
      if o.looseness < limit then do
        pass
        let first ← primary values fuel counts
        let b ← operators values fuel counts o.looseness first
        let c ← combine counts o a b
        operators values fuel counts limit c
      else return a
    | _ => return a

/-- A number, a variable, or an expression between parentheses, with signs before it. -/
def primary (values : Bytes → Option Bytes) (fuel : Nat) (counts : Bool) : Step Int :=
  match fuel with
  | 0 => throw .noPrimary
  | fuel + 1 => do
    match ← look with
    | some .opening => do
      pass
      let n ← assignment values fuel counts
      if (← look) != some .closing then throw .noClosing
      pass
      return n
    | some (.number n) => do
      pass
      return n
    | some (.name n) => do
      pass
      if counts then valueOf values n else return 0
    | some (.operator .plus) => do
      pass
      primary values fuel counts
    | some (.operator .minus) => do
      pass
      let n ← primary values fuel counts
      return Number.wrap (-n)
    | some .not => do
      pass
      let n ← primary values fuel counts
      return truth (n == 0)
    | some .invert => do
      pass
      let n ← primary values fuel counts
      return Number.wrap (-n - 1)
    | _ => throw .noPrimary

end

/-- What became of an expression: its value, and the assignments made in their order. -/
structure Answer where
  value : Except Fault Int
  assigned : List (Bytes × Int)

/-- Evaluate an expression with the given values of variables. -/
def evaluate (values : Bytes → Option Bytes) (expression : Bytes) : Answer :=
  let ts := tokens (expression.length + 1) expression
  let whole : Step Int := do
    let n ← assignment values (10 * ts.length + 10) true
    if (← look).isSome then throw .noEnd
    return n
  match whole { left := ts } with
  | .ok n w => ⟨.ok n, w.assigned.reverse⟩
  | .error f w => ⟨.error f, w.assigned.reverse⟩

end MergeGate.Shell.Arithmetic
