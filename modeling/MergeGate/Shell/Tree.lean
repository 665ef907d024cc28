/-
The syntax of scripts as trees. A word is a list of parts: bytes, quoted or not, and substitutions.
Quotation marks stay in the word, since they keep an empty word from vanishing and decide what is
split inside a substitution. The text of a here-document is kept in a table and named by its number,
because it is read after the command that it belongs to.
-/
import MergeGate.Shell.Bytes

namespace MergeGate.Shell

/-- What is done with the value of a parameter. -/
inductive Operation where
  | plain
  | length
  /-- the word instead of a missing value -/
  | minus
  /-- the word instead of a value that is there -/
  | plus
  /-- the word instead of a missing value, which becomes the value -/
  | assign
  /-- the word is the complaint about a missing value -/
  | question
  | dropRight
  | dropRightMost
  | dropLeft
  | dropLeftMost
  /-- the value, and behind it the word, with which everything ends -/
  | followed
  /-- no operation that is known -/
  | bad
  deriving DecidableEq, Repr

/-- The directions of a redirection to or from a file. -/
inductive Direction where
  | read
  | write
  | clobber
  | append
  | readWrite
  deriving DecidableEq, Repr

mutual

/-- A part of a word. -/
inductive Part where
  | byte (c : Char)
  | quoted (c : Char)
  /-- a quotation mark -/
  | mark
  /-- a parameter; with `nullToo` an empty value counts as missing -/
  | parameter (name : Bytes) (operation : Operation) (nullToo : Bool) (word : List Part)
  /-- the output of commands -/
  | output (commands : Option Tree)
  /-- the value of an expression -/
  | number (expression : List Part)

/-- A redirection of a stream. -/
inductive Redirection where
  | file (stream : Nat) (direction : Direction) (name : List Part)
  /-- the same as another stream, or closed -/
  | same (stream : Nat) (other : Option Nat)
  /-- the same as the stream that a word names -/
  | sameNamed (stream : Nat) (name : List Part)
  | here (stream : Nat) (document : Nat)

/-- A command. -/
inductive Tree where
  | simple (line : Nat) (assignments arguments : List (List Part)) (redirections : List Redirection)
  | pipe (background : Bool) (stages : List Tree)
  | redirected (line : Nat) (body : Tree) (redirections : List Redirection)
  | subshell (line : Nat) (body : Option Tree) (redirections : List Redirection)
  | background (line : Nat) (body : Tree) (redirections : List Redirection)
  | both (first second : Tree)
  | either (first second : Tree)
  | sequence (first second : Tree)
  | negated (body : Tree)
  | choice (test : Tree) (body : Option Tree) (otherwise : Option Tree)
  /-- with `until` the loop goes on as long as the test fails -/
  | loop ( until_ : Bool) (test : Tree) (body : Option Tree)
  | each (line : Nat) (name : Bytes) (words : List (List Part)) (body : Option Tree)
  | cases (line : Nat) (word : List Part) (arms : List (List (List Part) × Option Tree))
  | function (line : Nat) (name : Bytes) (body : Tree)

end

/-- A word. -/
abbrev Word := List Part

instance : Inhabited Tree := ⟨.simple 0 [] [] []⟩

instance : Inhabited Part := ⟨.mark⟩

/-- The bytes of a word in which nothing is quoted or substituted. -/
def Word.plain? : Word → Option Bytes
  | [] => some []
  | .byte c :: rest => (Word.plain? rest).map (c :: ·)
  | _ => none

/-- The name that a word assigns to, and its value: the name and the equality sign must be plain. -/
def Word.assignment? (w : Word) : Option (Bytes × Word) :=
  go [] w
where
  go (name : Bytes) : Word → Option (Bytes × Word)
    | .byte '=' :: rest => if name.isEmpty then none else some (name.reverse, rest)
    | .byte c :: rest =>
      if (if name.isEmpty then isNameStart c else isNameRest c) then go (c :: name) rest else none
    | _ => none

end MergeGate.Shell
