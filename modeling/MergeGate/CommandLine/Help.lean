/-
Pages of help: the usage, what the program or the command is for, and its parameters. Each parameter
stands in two columns, what is written and what is told about it, of which the second is filled into
lines that fit the page.
-/
import MergeGate.CommandLine.Parameter

namespace MergeGate.CommandLine

/-- The name of the program. -/
def program : String := "gateci"

/-- What the program is for. -/
def about : String := "gateci: job-graph orchestrator with a merge-queue gate."

/-- The name of the program, or of one of its commands with it. -/
def pathOf : Option String → String
  | none => program
  | some command => program ++ " " ++ command

/-- How the program, or one of its commands, is used. -/
def usage (command : Option String) : String :=
  "Usage: " ++ pathOf command ++ " [OPTIONS]" ++ if command.isNone then " COMMAND [ARGS]..." else ""

/-- The sign that stands for a value of a kind. -/
def Kind.sign : Kind → String
  | mark => ""
  | text => " TEXT"
  | event => " [" ++ "|".intercalate (EventKind.all.map EventKind.name) ++ "]"
  | count _ => " INTEGER RANGE"
  | seconds => " FLOAT"
  | file => " FILE"

/-- What is told about a parameter, and what it is otherwise or no less than. -/
def Parameter.told (p : Parameter) : String :=
  let least := match p.kind with
    | .count n => some ("x>=" ++ toString n)
    | _ => none
  match (p.otherwise.map ("default: " ++ ·)).or least with
  | some extra => p.about ++ "  [" ++ extra ++ "]"
  | none => p.about

/-- The width of a page. -/
def pageWidth : Nat := 78

/-- The greatest width of the first column. -/
def maxColumn : Nat := 30

/-- Fill words into lines of a width; the first of them is begun already. -/
def fill (width : Nat) (line : String) : List String → List String
  | [] => [line]
  | word :: rest =>
    if line.length + 1 + word.length ≤ width then fill width (line ++ " " ++ word) rest
    else line :: fill width word rest

/-- A text in lines of a width. -/
def filled (width : Nat) (text : String) : List String :=
  match (Text.parts ' ' text.toList).map String.ofList with
  | [] => []
  | word :: rest => fill width word rest

/-- So many blanks. -/
def blanks (n : Nat) : String := String.ofList (List.replicate n ' ')

/-- Two columns, the first no wider than its greatest width; what is too wide for it stands on a line of
its own. -/
def table (rows : List (String × String)) : List String :=
  let column := min ((rows.map (·.1.length)).foldl max 0) maxColumn + 2
  rows.flatMap fun (head, text) =>
    let lines := (filled (pageWidth - column - 2) text).map (blanks (column + 2) ++ ·)
    if head.length + 2 ≤ column then
      match lines with
      | [] => [blanks 2 ++ head]
      | first :: rest =>
        (blanks 2 ++ head ++ String.ofList (first.toList.drop (head.length + 2))) :: rest
    else (blanks 2 ++ head) :: lines

/-- The page of help of the program, or of one of its commands. -/
def page (command : Option Command) : String :=
  let parameters := (command.map (·.parameters)).getD globalParameters
  let options := table (parameters.map fun p => (p.name ++ p.kind.sign, p.told))
  let others := match command with
    | some _ => []
    | none => ["", "Commands:"] ++ table (commands.map fun c => (c.name, c.about))
  "\n".intercalate ([usage (command.map (·.name)), "", "  " ++ (command.map (·.about)).getD about, "",
    "Options:"] ++ options ++ others) ++ "\n"

end MergeGate.CommandLine
