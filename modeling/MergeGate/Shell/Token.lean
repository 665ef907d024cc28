/-
The text of a script on its way through the parser: what is left of it, the line reached, the last
token and what is still owed, such as here-documents whose text begins on the next line. Aliases
stand in for words by being put in front of the text.
-/
import MergeGate.Shell.Tree

namespace MergeGate.Shell

/-- A token. The word of a word token stands in the parser's state. -/
inductive Token where
  | ending
  | newline
  | semicolon
  | background
  | both
  | either
  | pipe
  | opening
  | closing
  | endArm
  | redirection
  | word
  | keyword (name : String)
  deriving DecidableEq, Repr

/-- A token as messages name it. -/
def Token.text : Token → String
  | ending => "end of file"
  | newline => "newline"
  | semicolon => "\";\""
  | background => "\"&\""
  | both => "\"&&\""
  | either => "\"||\""
  | pipe => "\"|\""
  | opening => "\"(\""
  | closing => "\")\""
  | endArm => "\";;\""
  | redirection => "redirection"
  | word => "word"
  | keyword name => "\"" ++ name ++ "\""

/-- The words that are keywords where a command may begin. -/
def keywords : List String :=
  ["!", "case", "do", "done", "elif", "else", "esac", "fi", "for", "if", "in", "then", "until",
    "while", "\x7b", "\x7d"]

/-- The keywords that end a list of commands. -/
def closingKeywords : List String :=
  ["do", "done", "elif", "else", "esac", "fi", "then", "\x7d"]

/-- Does the token end a list of commands? -/
def Token.endsList : Token → Bool
  | ending | closing | endArm => true
  | keyword name => closingKeywords.contains name
  | _ => false

/-- What is wrong with the syntax of a script, and in which line. -/
structure SyntaxFault where
  line : Nat
  message : String
  deriving DecidableEq, Repr

/-- What the next token may be besides a plain word. -/
structure Expecting where
  newlines : Bool := false
  keywords : Bool := false
  aliases : Bool := false
  /-- the mark of a here-document, in which nothing is substituted -/
  endMark : Bool := false

/-- Either expectation. -/
def Expecting.or (a b : Expecting) : Expecting :=
  ⟨a.newlines || b.newlines, a.keywords || b.keywords, a.aliases || b.aliases,
    a.endMark || b.endMark⟩

/-- A redirection whose target has not been read. -/
inductive Aim where
  | file (stream : Nat) (direction : Direction)
  | same (stream : Nat)
  | here (stream : Nat) (stripTabs : Bool)

/-- A here-document whose text has not been read. -/
structure OpenDocument where
  number : Nat
  mark : Bytes
  stripTabs : Bool
  /-- is the text taken as it stands? -/
  literal : Bool

/-- A parser at work. -/
structure Parsing where
  /-- the text that is left, that of aliases first -/
  segments : List (Bytes × Option Bytes)
  line : Nat := 1
  aliases : List (Bytes × Bytes) := []
  pushedBack : Bool := false
  last : Token := .newline
  expecting : Expecting := {}
  word : Word := []
  /-- does the last word have quotes? -/
  quotes : Bool := false
  aim : Aim := .same 0
  owed : List OpenDocument := []
  /-- the texts of here-documents -/
  documents : Array Word := #[]

/-- A step of the parser. -/
abbrev Parse := EStateM SyntaxFault Parsing

namespace Parsing

/-- A parser at the start of a text. -/
def start (text : Bytes) (aliases : List (Bytes × Bytes)) (documents : Array Word) : Parsing :=
  { segments := [(text, none)], aliases, documents }

/-- Does a text end in a blank? -/
def endsBlank (bs : Bytes) : Bool :=
  match bs.getLast? with
  | some c => c == ' ' || c == '\t'
  | none => false

/-- Leave the texts of aliases that are used up. -/
def leave (aliases : List (Bytes × Bytes)) :
    List (Bytes × Option Bytes) → Bool → List (Bytes × Option Bytes) × Bool
  | ([], some name) :: rest, blank =>
    leave aliases rest (blank || endsBlank ((aliases.lookup name).getD []))
  | segments, blank => (segments, blank)

/-- Line feeds behind backslashes join lines: how many stand in front, and what follows them. -/
def joins : Bytes → Nat × Bytes
  | '\\' :: '\n' :: rest =>
    let (n, rest) := joins rest
    (n + 1, rest)
  | bs => (0, bs)

end Parsing

namespace Parse

/-- The syntax is wrong. -/
def fail {α : Type} (message : String) : Parse α := do
  throw ⟨(← get).line, "Syntax error: " ++ message⟩

/-- The next byte. -/
def next : Parse (Option Char) := do
  let p ← get
  let (segments, blank) := Parsing.leave p.aliases p.segments false
  let p := if blank then { p with expecting := { p.expecting with aliases := true } } else p
  match segments with
  | (c :: rest, name) :: more =>
    set { p with segments := (rest, name) :: more }
    return some c
  | segments =>
    set { p with segments }
    return none

/-- Put a byte back. -/
def back (c : Option Char) : Parse Unit :=
  modify fun p => match c, p.segments with
    | some c, (bs, name) :: more => { p with segments := (c :: bs, name) :: more }
    | some c, [] => { p with segments := [([c], none)] }
    | none, _ => p

/-- The next byte, joined lines taken as one. -/
def nextJoined : Parse (Option Char) := do
  modify fun p => match p.segments with
    | (bs, name) :: more =>
      let (n, bs) := Parsing.joins bs
      { p with segments := (bs, name) :: more, line := p.line + n }
    | [] => p
  next

/-- A line has ended. -/
def newLine : Parse Unit := modify fun p => { p with line := p.line + 1 }

/-- Take the last token as not read. -/
def pushBack : Parse Unit := modify fun p => { p with pushedBack := true }

/-- The token just read. -/
def found (t : Token) : Parse Token := do
  modify fun p => { p with last := t }
  return t

/-- Say what the next token may be. -/
def expect (e : Expecting) : Parse Unit := modify fun p => { p with expecting := e }

/-- The last token is not one that may stand here. -/
def unexpected {α : Type} : Parse α := do
  fail ((← get).last.text ++ " unexpected")

/-- The last token is not the one that must stand here. -/
def instead {α : Type} (t : Token) : Parse α := do
  fail ((← get).last.text ++ " unexpected (expecting " ++ t.text ++ ")")

/-- What a command may begin with. -/
def commandStart : Expecting := { keywords := true, aliases := true }

/-- What a command on a new line may begin with. -/
def lineStart : Expecting := { newlines := true, keywords := true, aliases := true }

end Parse

end MergeGate.Shell
