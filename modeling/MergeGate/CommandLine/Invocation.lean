/-
Command lines. Parameters in front of the command concern all commands; those behind it are first
told apart and only then read, in the order in which they were given, and after them those that a
variable stands in for. Words that are no parameters are not expected. Help is given as soon as the
words are told apart.
-/
import MergeGate.CommandLine.Help
import MergeGate.CommandLine.Suggestion
import MergeGate.Console

namespace MergeGate.CommandLine

/-- What is answered at once, without anything being done. -/
inductive Reply where
  /-- a message that stands alone -/
  | brief (message : String)
  /-- a message behind the usage of the program, or of one of its commands -/
  | full (command : Option String) (message : String)
  /-- a page of help, which was asked for or, if there were no words at all, was not -/
  | help (page : String) (asked : Bool)
  deriving DecidableEq, Repr

/-- The stream of a reply. -/
def Reply.stream : Reply → Stream
  | help _ true => .out
  | help _ false | brief _ | full .. => .err

/-- A reply as text. -/
def Reply.text : Reply → String
  | brief message => "Error: " ++ message ++ "\n"
  | full command message =>
    usage command ++ "\nTry '" ++ pathOf command ++ " " ++ helpParameter.name ++
      "' for help.\n\nError: " ++ message ++ "\n"
  | help page _ => page

/-- The status with which the program ends after a reply. -/
def Reply.exitCode : Reply → Nat
  | help _ true => 0
  | help _ false | brief _ | full .. => 2

/-- Words told apart: parameters with their values in the order in which they were given, and the
other words. -/
structure Sorted where
  given : List (Parameter × String) := []
  words : List String := []

/-- A word cut at its first equality sign. -/
def cutValue (word : String) : String × Option String :=
  let cs := word.toList
  match cs.dropWhile (· != '=') with
  | _ :: value => (String.ofList (cs.takeWhile (· != '=')), some (String.ofList value))
  | [] => (word, none)

/-- What is said about an unknown parameter: one that begins with a single dash is read letter by
letter, and only another may be a slip. -/
def unknownMessage (parameters : List Parameter) (word : String) : String :=
  let unknown (name : String) : String := "No such option " ++ Text.quoted name ++ "."
  match word.toList with
  | '-' :: '-' :: _ =>
    let name := (cutValue word).1
    unknown name ++ suggestion name (parameters.map (·.name))
  | '-' :: c :: _ => unknown (String.ofList ['-', c])
  | _ => unknown word

/-- Does the word look like a parameter? -/
def isDashed (word : String) : Bool :=
  match word.toList with
  | '-' :: _ :: _ => true
  | _ => false

/-- Tell words apart. With `early` the first word that is no parameter ends the search. -/
def sort (command : Option String) (parameters : List Parameter) (early : Bool) (s : Sorted) :
    List String → Except Reply Sorted
  | [] => .ok s
  | word :: rest =>
    if word = "--" then .ok { s with words := s.words ++ rest }
    else if !isDashed word then
      if early then .ok { s with words := s.words ++ word :: rest }
      else sort command parameters early { s with words := s.words ++ [word] } rest
    else
      let (name, value?) := cutValue word
      match parameters.find? (·.name == name) with
      | none => .error (.full command (unknownMessage parameters word))
      | some p =>
        match p.kind, value? with
        | .mark, none =>
          sort command parameters early { s with given := s.given ++ [(p, "")] } rest
        | .mark, some _ => .error (.brief ("Option " ++ Text.quoted name ++ " does not take a value."))
        | _, some v => sort command parameters early { s with given := s.given ++ [(p, v)] } rest
        | _, none => match rest with
          | v :: rest => sort command parameters early { s with given := s.given ++ [(p, v)] } rest
          | [] => .error (.brief ("Option " ++ Text.quoted name ++ " requires an argument."))

/-- The last value given for each parameter, in the order in which they were first given. -/
def Sorted.last (s : Sorted) : Assoc (Parameter × String) :=
  Assoc.ofPairs (s.given.map fun g => (g.1.name, g))

/-- The parameters that were not given and that a variable stands in for. -/
def standIns (env : Assoc String) (parameters : List Parameter) (given : Assoc (Parameter × String)) :
    List (Parameter × String) :=
  parameters.filterMap fun p => do
    let standIn ← p.standIn
    if (given.lookup p.name).isSome then none
    let value ← env.lookup standIn
    if value = "" then none else some (p, value)

/-- Read values one after the other. -/
def readAll (command : Option String) (f : Folder) : List (Parameter × String) → Except Reply Readings
  | [] => .ok []
  | (p, value) :: rest => do
    let reading ← (p.kind.read f value).mapError fun message =>
      .full command ("Invalid value for " ++ Text.quoted p.name ++ ": " ++ message)
    let more ← readAll command f rest
    return (p.name, reading) :: more

/-- Words that are not expected. -/
def extra (command : Option String) : List String → Except Reply Unit
  | [] => .ok ()
  | [word] => .error (.full command ("Got unexpected extra argument (" ++ word ++ ")"))
  | words =>
    .error (.full command ("Got unexpected extra arguments (" ++ " ".intercalate words ++ ")"))

/-- Was a parameter given? -/
def Sorted.has (s : Sorted) (name : String) : Bool := s.given.any (·.1.name == name)

/-- The values of a command's parameters. -/
def readings (command : Command) (f : Folder) (env : Assoc String) (words : List String) :
    Except Reply Readings := do
  let s ← sort (some command.name) command.parameters false {} words
  if s.has helpParameter.name then throw (.help (page (some command)) true)
  let given := s.last
  let rs ← readAll (some command.name) f (given.map (·.2) ++ standIns env command.parameters given)
  extra (some command.name) s.words
  return rs

/-- Which event a command line says has happened. -/
structure TriggerWords where
  event : EventKind := .push
  ref : Option String := none
  branch : Option String := none

/-- How a command line says a run is to go. -/
structure RunWords where
  workers : Option Int := none
  grace : Option Float := none
  statusUrl : Option String := none
  statusFile : Option String := none
  retries : Option Int := none

/-- What the program is asked to do. -/
inductive Action where
  | validate (workflow : Option String)
  | plan (workflow : Option String) (trigger : TriggerWords)
  | run (workflow : Option String) (trigger : TriggerWords) (limits : RunWords)

/-- A command line. -/
structure Invocation where
  console : Console
  action : Action

/-- The event that the values name. -/
def TriggerWords.ofReadings (rs : Readings) : TriggerWords :=
  { event := (event? rs "--event").getD .push, ref := text? rs "--ref"
    branch := text? rs "--branch" }

/-- The limits that the values set. -/
def RunWords.ofReadings (rs : Readings) : RunWords :=
  { workers := count? rs "--workers", grace := seconds? rs "--grace"
    statusUrl := text? rs "--status-url", statusFile := text? rs "--status-file"
    retries := count? rs "--retries" }

/-- The words of a whole command line, told apart up to the command. -/
def globally (words : List String) : Except Reply Sorted := do
  if words.isEmpty then throw (.help (page none) false)
  let s ← sort none globalParameters true {} words
  if s.has helpParameter.name then throw (.help (page none) true)
  return s

/-- The action of a command. -/
def actionOf (f : Folder) (env : Assoc String) (command : String) (words : List String) :
    Except Reply Action :=
  let workflow (rs : Readings) : Option String := text? rs workflowParameter.name
  match command with
  | "validate" => do
    let rs ← readings validateCommand f env words
    return .validate (workflow rs)
  | "plan" => do
    let rs ← readings planCommand f env words
    return .plan (workflow rs) (.ofReadings rs)
  | "run" => do
    let rs ← readings runCommand f env words
    return .run (workflow rs) (.ofReadings rs) (.ofReadings rs)
  | _ => do
    -- a word with a dash may still be a misused parameter
    if isDashed command then discard (globally (command :: words))
    .error (.full none ("No such command " ++ Text.quoted command ++ "." ++
      suggestion command (commands.map (·.name))))

/-- The invocation that a command line spells, given the files and variables around it. -/
def Invocation.ofWords (f : Folder) (env : Assoc String) (words : List String) :
    Except Reply Invocation := do
  let s ← globally words
  match s.words with
  | [] => .error (.full none "Missing command.")
  | command :: rest =>
    let action ← actionOf f env command rest
    return ⟨{ debug := s.has "--debug", quiet := s.has "--quiet" }, action⟩

end MergeGate.CommandLine
