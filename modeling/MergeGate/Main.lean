/-
The program as it is started. It takes the files of the working folder and the variables of the
environment, does what the command line asks, prints, and writes back the files that have changed.
Steps run in the shell of this library, on the files as they were read; the status receiver is out
of reach.
-/
import MergeGate.CommandLine.Program

namespace MergeGate.CommandLine

/-- The variables that the program reads. -/
def variableNames : List String :=
  ["GATECI_EVENT", "GATECI_REF", "GATECI_BRANCH", "GATECI_MAX_WORKERS", "GATECI_CANCEL_GRACE",
    "GATECI_STATUS_URL", "GATECI_STATUS_FILE", "GATECI_REPORT_RETRIES"]

/-- The variables that are set. -/
def readVariables : IO (Assoc String) :=
  variableNames.filterMapM fun name => do
    let value ← IO.getEnv name
    return value.map fun v => (name, v)

/-- The text of a file, if it is there and is text. -/
def readText (path : String) : IO (Option String) :=
  try
    let text ← IO.FS.readFile path
    return some text
  catch _ => return none

/-- The bytes of a file, if it may be read. -/
def readBytes (path : String) : IO (Option (List UInt8)) :=
  try
    let bytes ← IO.FS.readBinFile path
    return some bytes.toList
  catch _ => return none

/-- The files of the working folder. -/
def readFolder : IO Folder := do
  let here ← IO.currentDir
  let home : Place := (Text.parts '/' here.toString.toList).map String.ofList
  let mut f : Folder := { home }
  for e in ← here.readDir do
    let place := home ++ [e.fileName]
    if ← e.path.isDir then f := f.put place .folder
    else match ← readBytes e.fileName with
      | some bytes => f := f.put place (.file bytes)
      | none => f := { f.put place (.file []) with barred := place :: f.barred }
  return f

/-- Write the files that have changed. -/
def writeFolder (before after : Folder) : IO Unit :=
  after.entries.forM fun (place, entry) =>
    match entry with
    | .folder => pure ()
    | .file bytes =>
      if before.find? place = some (.file bytes) then pure ()
      else do
        IO.FS.createDirAll (Folder.shown place.dropLast)
        IO.FS.writeBinFile (Folder.shown place) ⟨bytes.toArray⟩

/-- A new run id. -/
def newRunId : IO String := do
  let n ← IO.rand 0 (Nat.pow 16 32 - 1)
  return String.ofList (Text.hex 32 n)

end MergeGate.CommandLine

/-- Run the program. -/
def main (words : List String) : IO UInt32 := do
  let folder ← MergeGate.CommandLine.readFolder
  let env ← MergeGate.CommandLine.readVariables
  let head ← MergeGate.CommandLine.readText ".git/HEAD"
  let runId ← MergeGate.CommandLine.newRunId
  let e := MergeGate.CommandLine.Exit.ofWords
    { folder, env, runId
      git := MergeGate.Checkout.ofHead head
      answers := fun _ => .unreachable "no network"
      processors := none
      execute := MergeGate.CommandLine.executeByShell folder env } words
  IO.print e.out
  IO.eprint e.err
  if let some why := e.incident then IO.eprintln (why.kind ++ ": " ++ why.message)
  MergeGate.CommandLine.writeFolder folder e.folder
  return e.code.toUInt32
