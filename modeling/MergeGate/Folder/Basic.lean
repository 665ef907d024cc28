/-
Files below a working folder. A place is the list of names that lead to it; the first is the top. A
walk goes through folders that are there and may be entered; a resolved path need not be there. Files
hold bytes, and a text is written as its bytes.
-/
import MergeGate.Folder.Path
import MergeGate.Text.Quoted
import MergeGate.Text.Utf8

namespace MergeGate

/-- The names that lead to a file or folder, the top first. -/
abbrev Place := List String

/-- What stands at a place. -/
inductive Folder.Entry where
  | folder
  | file (bytes : List UInt8)
  deriving DecidableEq, Repr

/-- A working folder and all that is known around it. -/
structure Folder where
  /-- where the working folder is -/
  home : Place
  entries : List (Place × Folder.Entry) := []
  /-- the folders that may not be entered and the files that may not be opened -/
  barred : List Place := []

namespace Folder

/-- Why a file or folder cannot be used. -/
inductive Fault where
  | missing
  | taken
  | notFolder
  | isFolder
  | nameTooLong
  | denied
  deriving DecidableEq, Repr

/-- The fault in words. -/
def Fault.words : Fault → String
  | missing => "No such file or directory"
  | taken => "File exists"
  | notFolder => "Not a directory"
  | isFolder => "Is a directory"
  | nameTooLong => "File name too long"
  | denied => "Permission denied"

/-- The number by which the fault is known. -/
def Fault.number : Fault → Nat
  | missing => 2
  | taken => 17
  | notFolder => 20
  | isFolder => 21
  | nameTooLong => 36
  | denied => 13

/-- The kind under which the fault is reported. -/
def Fault.kind : Fault → String
  | missing => "FileNotFoundError"
  | taken => "FileExistsError"
  | notFolder => "NotADirectoryError"
  | isFolder => "IsADirectoryError"
  | nameTooLong => "OSError"
  | denied => "PermissionError"

/-- The fault at a path. -/
def Fault.message (fault : Fault) (path : String) : String :=
  "[Errno " ++ toString fault.number ++ "] " ++ fault.words ++ ": " ++ Text.quoted path

/-- A place as text. -/
def shown (p : Place) : String := if p = [""] then "/" else "/".intercalate p

/-- One name further; two dots lead back, though not beyond the top. -/
def onward (p : Place) (name : String) : Place :=
  if name ≠ ".." then p ++ [name]
  else if p.length ≤ 1 then p else p.dropLast

/-- The place where a path begins. -/
def origin (cwd : Place) (path : Path) : Place := if path.rooted then [""] else cwd

/-- The place that a path names, whether or not something is there. -/
def resolve (cwd : Place) (path : Path) : Place := path.names.foldl onward (origin cwd path)

/-- What stands at a place. The way to the working folder is always there. -/
def find? (f : Folder) (p : Place) : Option Entry :=
  if p.isPrefixOf f.home then some .folder else f.entries.lookup p

/-- Put an entry at a place. -/
def put (f : Folder) (p : Place) (e : Entry) : Folder :=
  { f with entries := (f.entries.filter fun x => x.1 != p) ++ [(p, e)] }

/-- The greatest number of bytes that a name may have. -/
def maxName : Nat := 255

/-- The number of bytes that a whole path must stay below. -/
def maxPath : Nat := 4096

/-- May the folder or file at a place not be used? -/
def bars (f : Folder) (p : Place) : Bool := f.barred.contains p

/-- Follow names from a place through folders that are there and may be entered. -/
def walk (f : Folder) (p : Place) : List String → Except Fault Place
  | [] => .ok p
  | n :: rest => match f.find? p with
    | some .folder =>
      if f.bars p then .error .denied
      else if maxName < n.utf8ByteSize then .error .nameTooLong
      else f.walk (onward p n) rest
    | some (.file _) => .error .notFolder
    | none => .error .missing

/-- The place to which a path leads through folders that are there and may be entered. -/
def follow (f : Folder) (cwd : Place) (path : Path) : Except Fault Place :=
  if maxPath ≤ path.text.utf8ByteSize then .error .nameTooLong
  else f.walk (origin cwd path) path.names

/-- What stands where a path leads. -/
def entry? (f : Folder) (cwd : Place) (path : Path) : Except Fault Entry := do
  let p ← f.follow cwd path
  match f.find? p with
  | some e => .ok e
  | none => .error .missing

/-- Is there something where the path leads? -/
def holds (f : Folder) (cwd : Place) (path : Path) : Bool := (f.entry? cwd path).isOk

/-- Does the fault say that nothing is there? -/
def Fault.isAbsence : Fault → Bool
  | missing | notFolder => true
  | _ => false

/-- Why a path cannot be looked up, whether or not something is there. -/
def obstacle? (f : Folder) (cwd : Place) (path : Path) : Option Fault :=
  match f.entry? cwd path with
  | .ok _ => none
  | .error fault => if fault.isAbsence then none else some fault

/-- Is there a folder where the path leads? -/
def holdsFolder (f : Folder) (cwd : Place) (path : Path) : Bool :=
  match f.entry? cwd path with
  | .ok .folder => true
  | _ => false

/-- Is there something where the path leads, that may not be used? -/
def holdsBarred (f : Folder) (cwd : Place) (path : Path) : Bool :=
  match f.follow cwd path with
  | .ok p => (f.find? p).isSome && f.bars p
  | .error _ => false

/-- The text that the bytes of a file encode, with a mark in place of what is no text. -/
def textOf (bytes : List UInt8) : String := String.ofList (Text.decodeAll bytes)

/-- The bytes of a text. -/
def bytesOf (text : String) : List UInt8 := Text.encode text.toList

/-- The bytes of the file at a place. -/
def bytesAt (f : Folder) (p : Place) : Except Fault (List UInt8) :=
  match f.find? p with
  | none => .error .missing
  | some e =>
    if f.bars p then .error .denied
    else match e with
    | .folder => .error .isFolder
    | .file bytes => .ok bytes

/-- The text of a file. -/
def read (f : Folder) (cwd : Place) (path : Path) : Except Fault String := do
  let p ← f.follow cwd path
  return textOf (← f.bytesAt p)

/-- Write a file whose folder is there. -/
def write (f : Folder) (cwd : Place) (path : Path) (text : String) : Except Fault Folder := do
  let p ← f.follow cwd path
  match f.find? p with
  | some .folder => .error .isFolder
  | some (.file _) => if f.bars p then .error .denied else .ok (f.put p (.file (bytesOf text)))
  | none => match f.find? p.dropLast with
    | some .folder => .ok (f.put p (.file (bytesOf text)))
    | some (.file _) => .error .notFolder
    | none => .error .missing

/-- Make a folder inside one that is there. -/
def makeFolder (f : Folder) (cwd : Place) (path : Path) : Except Fault Folder := do
  let p ← f.follow cwd path
  match f.find? p with
  | some _ => .error .taken
  | none => match f.find? p.dropLast with
    | some .folder => .ok (f.put p .folder)
    | some (.file _) => .error .notFolder
    | none => .error .missing

/-- Make the folder of a path, given by its names from the last to the first, and those it is in;
a folder that is there already will do. A fault comes with the path where it arose. -/
def makeFoldersFor (f : Folder) (cwd : Place) (rooted : Bool) :
    List String → Except (Fault × Path) Folder
  | [] => .ok f
  | n :: up =>
    let path : Path := ⟨rooted, (n :: up).reverse⟩
    let settle (f : Folder) (fault : Fault) : Except (Fault × Path) Folder :=
      if f.holdsFolder cwd path then .ok f else .error (fault, path)
    match f.makeFolder cwd path with
    | .ok f => .ok f
    | .error .missing => do
      let f ← f.makeFoldersFor cwd rooted up
      match f.makeFolder cwd path with
      | .ok f => .ok f
      | .error fault => settle f fault
    | .error fault => settle f fault

/-- Make the folder of a path and those it is in. -/
def makeFolders (f : Folder) (cwd : Place) (path : Path) : Except (Fault × Path) Folder :=
  f.makeFoldersFor cwd path.rooted path.names.reverse

/-- The folder with a folder at a path, and those it is in, as far as they can be made. -/
def withFolder (f : Folder) (path : Path) : Folder :=
  ((f.makeFolders f.home path).toOption).getD f

/-- The folder with a file at a path, and the folders it is in, as far as they can be made. -/
def withFile (f : Folder) (path : Path) (text : String) : Folder :=
  let f := f.withFolder path.parent
  ((f.write f.home path text).toOption).getD f

/-- The names in a folder. -/
def names (f : Folder) (p : Place) : List String :=
  (f.entries.filter fun e => e.1.dropLast == p).filterMap (·.1.getLast?)

end Folder

end MergeGate
