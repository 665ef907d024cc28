/-
Which workflow file is meant: the one that is named, or else the only one in the working folder
whose name says that it holds a workflow.
-/
import MergeGate.Console
import MergeGate.Folder.Basic
import MergeGate.Glob

namespace MergeGate.CommandLine

/-- The file that is listed first. -/
def defaultFile : String := "gateci_workflow.py"

/-- The names of workflow files. -/
def filePatterns : List String := ["*_workflow.py", "*_workflow.yml", "*_workflow.yaml"]

/-- The workflow files of the working folder: the default one first, then by pattern and name. -/
def workflowFiles (f : Folder) : List String :=
  let names := Text.sorted (f.names f.home)
  names.filter (· == defaultFile) ++
    filePatterns.flatMap fun p => names.filter fun n => Glob.matchText p n && n != defaultFile

/-- The complaint about a file that is named and is not there. -/
def missingFile (name : String) : Notice :=
  .error "Workflow file not found" ("Could not find workflow file: " ++ name) []
    (some "Specify a different path:\n  gateci run --workflow ci_workflow.yml")

/-- The complaint that there is no workflow file. -/
def noFile : Notice :=
  .error "No workflow file found" "Could not find any workflow files."
    ("Looked for:" :: ("  " ++ defaultFile) :: filePatterns.map ("  " ++ ·))
    (some "Create a workflow file or specify one explicitly:\n  gateci run --workflow ci.yml")

/-- The complaint that there are several. -/
def manyFiles (names : List String) : Notice :=
  .error "Multiple workflow files found"
    "Found multiple workflow files. Please specify which one to use:"
    ["\n".intercalate (names.map ("  " ++ ·))]
    (some "Specify a workflow explicitly:\n  gateci run --workflow gateci_workflow.py")

/-- Why no workflow file is meant. -/
inductive Lack where
  | complaint (notice : Notice)
  /-- a path cannot be looked up -/
  | obstacle (fault : Folder.Fault) (path : Path)

/-- Is something at a path? A null character stands in no file's name. -/
def lookUp (f : Folder) (path : Path) : Except Lack Bool :=
  if path.hasNull then .ok false
  else match f.obstacle? f.home path with
    | some fault => .error (.obstacle fault path)
    | none => .ok (f.holds f.home path)

/-- The file at a path that is given by name. -/
def findNamed (f : Folder) (name : String) : Except Lack Path := do
  let path := Path.ofText name
  if ← lookUp f path then return path
  else throw (.complaint (missingFile name))

/-- The only workflow file of the working folder. The default one is looked up before all are listed. -/
def findOnly (f : Folder) : Except Lack Path := do
  discard (lookUp f (.ofText defaultFile))
  match workflowFiles f with
  | [] => throw (.complaint noFile)
  | [name] => return .ofText name
  | names => throw (.complaint (manyFiles names))

/-- The workflow file that is meant, or why there is none. -/
def discover (f : Folder) (named : Option String) : Except Lack Path :=
  match named.filter (· != "") with
  | some name => findNamed f name
  | none => findOnly f

end MergeGate.CommandLine
