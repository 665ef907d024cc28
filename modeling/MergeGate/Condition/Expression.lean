/-
Condition expressions. The grammar:

    or      := and ('||' and)*
    and     := unary ('&&' unary)*
    unary   := '!' unary | primary
    primary := '(' or ')' | true | false
             | (matches | startsWith) '(' field ',' text ')'
             | field ('==' | '!=') text

A chain of two or more terms is one tree node. The whole may stand once inside `${{ }}`.
Every reading step leaves fewer tokens than it found, which is why reading ends.
-/
import MergeGate.Condition.Basic
import MergeGate.Condition.Token

namespace MergeGate.Condition

/-- Tokens left over, fewer than there were. -/
abbrev Fewer (ts : List Token) := { rest : List Token // rest.length < ts.length }

/-- A reading step's result. -/
abbrev Step (α : Type) (ts : List Token) := Except ConditionCause (α × Fewer ts)

/-- Read the given mark. -/
def expectMark (e : String) (m : Mark) : (ts : List Token) → Except ConditionCause (Fewer ts)
  | [] => .error (.unexpectedEnd e)
  | t :: rest =>
    if t = .mark m then .ok ⟨rest, by simp⟩ else .error (.expected m.text t.shown e)

/-- Read a text. -/
def expectText (e : String) : (ts : List Token) → Step String ts
  | [] => .error (.unexpectedEnd e)
  | .text s :: rest => .ok (s, ⟨rest, by simp⟩)
  | t :: _ => .error (.expected "str" t.shown e)

/-- The field with the given name. -/
def fieldNamed (e name : String) : Except ConditionCause Field :=
  match Field.ofAlias? name with
  | some f => .ok f
  | none => .error (.undefinedName name e)

/-- Read the name of a field. -/
def expectField (e : String) : (ts : List Token) → Step Field ts
  | [] => .error (.unexpectedEnd e)
  | .name n :: rest => (fieldNamed e n).map fun f => (f, ⟨rest, by simp⟩)
  | t :: _ => .error (.expected "name" t.shown e)

/-- Read a comparison operator, which stands after the given name. -/
def expectComparison (e name : String) : (ts : List Token) → Step Mark ts
  | [] => .error (.unexpectedEnd e)
  | .mark .eq :: rest => .ok (.eq, ⟨rest, by simp⟩)
  | .mark .ne :: rest => .ok (.ne, ⟨rest, by simp⟩)
  | t :: _ => .error (.expectedComparison name t.shown e)

/-- Read the arguments of a glob test; `pattern` makes the pattern of the text argument. -/
def readGlob (e : String) (pattern : String → String) (ts : List Token) : Step Condition ts := do
  let ⟨ts₁, h₁⟩ ← expectMark e .opening ts
  let (field, ⟨ts₂, h₂⟩) ← expectField e ts₁
  let ⟨ts₃, h₃⟩ ← expectMark e .comma ts₂
  let (arg, ⟨ts₄, h₄⟩) ← expectText e ts₃
  let ⟨ts₅, h₅⟩ ← expectMark e .closing ts₄
  return (.glob (.text field.name) (.text (pattern arg)), ⟨ts₅, by omega⟩)

/-- Read the rest of a comparison that begins with the given name. -/
def readComparison (e name : String) (ts : List Token) : Step Condition ts := do
  let field ← fieldNamed e name
  let (op, ⟨ts₁, h₁⟩) ← expectComparison e name ts
  let (s, ⟨ts₂, h₂⟩) ← expectText e ts₁
  return (.compare (.text field.name) op.text (.text s), ⟨ts₂, by omega⟩)

/-- Read a test that begins with the given name. -/
def readTest (e name : String) (ts : List Token) : Step Condition ts :=
  if name = "matches" then readGlob e id ts
  else if name = "startsWith" then readGlob e Glob.beginning ts
  else readComparison e name ts

/-- One term stands for itself, several are joined. -/
def joinTerms (join : List Condition → Condition) (first : Condition) :
    List Condition → Condition
  | [] => first
  | more => join (first :: more)

mutual

/-- Read a disjunction. -/
def readOr (e : String) (ts : List Token) : Step Condition ts := do
  let (first, ⟨ts₁, h₁⟩) ← readAnd e ts
  let (more, ⟨ts₂, h₂⟩) ← readOrRest e ts₁
  return (joinTerms .any first more, ⟨ts₂, by omega⟩)
termination_by (ts.length, 4)

/-- Read further terms of a disjunction. -/
def readOrRest (e : String) (ts : List Token) :
    Except ConditionCause (List Condition × { rest : List Token // rest.length ≤ ts.length }) :=
  match ts with
  | .mark .or :: rest => do
    let (term, ⟨ts₁, h₁⟩) ← readAnd e rest
    let (more, ⟨ts₂, h₂⟩) ← readOrRest e ts₁
    return (term :: more, ⟨ts₂, by simp; omega⟩)
  | ts => return ([], ⟨ts, Nat.le_refl _⟩)
termination_by (ts.length, 0)

/-- Read a conjunction. -/
def readAnd (e : String) (ts : List Token) : Step Condition ts := do
  let (first, ⟨ts₁, h₁⟩) ← readUnary e ts
  let (more, ⟨ts₂, h₂⟩) ← readAndRest e ts₁
  return (joinTerms .all first more, ⟨ts₂, by omega⟩)
termination_by (ts.length, 3)

/-- Read further terms of a conjunction. -/
def readAndRest (e : String) (ts : List Token) :
    Except ConditionCause (List Condition × { rest : List Token // rest.length ≤ ts.length }) :=
  match ts with
  | .mark .and :: rest => do
    let (term, ⟨ts₁, h₁⟩) ← readUnary e rest
    let (more, ⟨ts₂, h₂⟩) ← readAndRest e ts₁
    return (term :: more, ⟨ts₂, by simp; omega⟩)
  | ts => return ([], ⟨ts, Nat.le_refl _⟩)
termination_by (ts.length, 0)

/-- Read a negation or a primary. -/
def readUnary (e : String) (ts : List Token) : Step Condition ts :=
  match ts with
  | .mark .not :: rest => do
    let (term, ⟨ts₁, h₁⟩) ← readUnary e rest
    return (.not term, ⟨ts₁, by simp; omega⟩)
  | ts => readPrimary e ts
termination_by (ts.length, 2)

/-- Read a primary. -/
def readPrimary (e : String) (ts : List Token) : Step Condition ts :=
  match ts with
  | [] => .error (.emptyExpression e)
  | .mark .opening :: rest => do
    let (term, ⟨ts₁, h₁⟩) ← readOr e rest
    let ⟨ts₂, h₂⟩ ← expectMark e .closing ts₁
    return (term, ⟨ts₂, by simp; omega⟩)
  | .name n :: rest =>
    if n = "true" || n = "false" then .ok (.always (.bool (n == "true")), ⟨rest, by simp⟩)
    else do
      let (test, ⟨ts₁, h₁⟩) ← readTest e n rest
      return (test, ⟨ts₁, by simp; omega⟩)
  | t :: _ => .error (.unexpectedToken t.shown e)
termination_by (ts.length, 1)

end

/-- Read all tokens as one condition. -/
def readAll (e : String) (ts : List Token) : Except ConditionCause Condition := do
  let (c, ⟨rest, _⟩) ← readOr e ts
  match rest with
  | [] => return c
  | t :: _ => .error (.unexpectedToken t.shown e)

/-- The inside of `${{ }}`, when the text, blanks at its ends apart, is one such wrapper. -/
def unwrap? (cs : List Char) : Option (List Char) := do
  let inner ← Text.dropStart? ['$', '\x7b', '\x7b'] (Text.strip cs)
  let reversed ← Text.dropStart? ['\x7d', '\x7d'] inner.reverse
  return reversed.reverse

/-- Read an expression and check what was read. -/
def parse (s : String) : Except ConditionCause Condition := do
  let cs := Text.strip ((unwrap? s.toList).getD s.toList)
  let e := String.ofList cs
  match tokens cs with
  | .error left => .error (.unexpectedCharacter (cs.length - left) e)
  | .ok ts =>
    let c ← readAll e ts
    check c
    return c

/-- The condition that a declared one stands for: nothing holds always, a truth value is itself, a
text is read as an expression, and a tree is checked. -/
def resolve : Condition → Except ConditionCause Condition
  | given .null => .ok holds
  | given (.bool b) => .ok (always (.bool b))
  | given (.text s) => parse s
  | c => (check c).map fun _ => c

end MergeGate.Condition
