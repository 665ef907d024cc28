/-
Workflow files: a YAML document, or a script that builds the workflow. Which of the two it is shows
in the suffix of the file's name. What a script defines, or how it breaks off, is given; which of it
counts is decided here. The bytes of a document must be text, and are decoded as it is read.
-/
import MergeGate.Document.Yaml
import MergeGate.Folder.Basic

namespace MergeGate.WorkflowFile

/-- What a script offers as its workflow. -/
inductive Offer where
  | workflow (w : Workflow)
  | jobs (js : List Job)
  /-- something that is no workflow -/
  | other

/-- How a script breaks off. -/
inductive Halt where
  /-- it refuses the configuration that it builds -/
  | refusal (r : Rejection)
  /-- something goes wrong in it -/
  | incident (i : Incident)
  /-- it ends the whole program with a status, and says something before -/
  | exit (status : UInt8) (words : String)

/-- What a script defines, unless it breaks off. -/
structure Script where
  /-- how the script breaks off, if it does -/
  halt : Option Halt := none
  /-- what its `workflow` function gives, or how it breaks off -/
  function : Option (Except Halt Offer) := none
  /-- its list `JOBS` -/
  list : Option Offer := none

/-- What loading a file has to be told. -/
structure Readers where
  /-- what the script at a place defines -/
  script : Place → Script := fun _ => {}
  /-- what is found in a document that is no text only behind its first bytes: where it is none, as the
  reader counts, or nothing if what is read before is no YAML -/
  late : List UInt8 → Option Text.Undecodable := fun _ => none

/-- Why a file gives no workflow. -/
inductive Fault where
  /-- the path names the home of somebody who is not known -/
  | noHome
  | nullInPath
  /-- the file cannot be looked up or opened -/
  | unusable (fault : Folder.Fault) (path : String)
  | notFound (path : String)
  | folderScript (path : String)
  | garbled (u : Text.Undecodable)
  | document (fault : Document.Fault)
  /-- something went wrong in a script -/
  | incident (i : Incident)
  /-- a script ended the program -/
  | exit (status : UInt8) (words : String)

/-- The complaint of a function that was called with arguments it does not take is put in other
words: the name was most likely taken by a helper. -/
def collision : String :=
  "Your workflow() is being called with arguments (name collision with the helper). " ++
  "Use the 'wf' helper instead: `from gateci import wf, job, sh` then " ++
  "`def workflow(): return wf(job(...), job(...))`"

/-- The kind of complaint that a function makes about its arguments. -/
def complaintKind : String := "TypeError"

/-- How a function breaks off, as it is passed on. -/
def explained : Halt → Halt
  | .incident ⟨kind, message⟩ =>
    if kind = complaintKind && Text.hasPart "positional argument".toList message.toList then
      .incident ⟨kind, collision⟩
    else .incident ⟨kind, message⟩
  | halt => halt

/-- The kind of the failure, as it is reported. -/
def Fault.kind : Fault → String
  | noHome => "RuntimeError"
  | nullInPath => "ValueError"
  | unusable fault _ => fault.kind
  | notFound _ => "FileNotFoundError"
  | folderScript _ => "ImportError"
  | garbled _ => Text.Undecodable.kind
  | document fault => fault.kind
  | incident i => i.kind
  | exit .. => "SystemExit"

/-- What went wrong, in words. -/
def Fault.message : Fault → String
  | noHome => "Could not determine home directory."
  | nullInPath => Path.nullMessage
  | unusable fault path => fault.message path
  | notFound path => "Workflow file not found: " ++ path
  | folderScript path => "can't find '__main__' module in " ++ Text.quoted path
  | garbled u => u.message
  | document fault => fault.message
  | incident i => i.message
  | exit _ words => words

/-- A refused file. -/
def rejected (cause : Cause) : Fault := .document (.rejected ⟨cause, none⟩)

/-- Why a script that breaks off gives no workflow. -/
def Halt.fault : Halt → Fault
  | refusal r => .document (.rejected r)
  | incident i => .incident i
  | exit status words => .exit status words

/-- What a script offers: the result of its function, or else its list. -/
def Script.offer (s : Script) : Except Halt (Option Offer) :=
  match s.halt, s.function with
  | some halt, _ => .error halt
  | none, some result => (result.mapError explained).map some
  | none, none => .ok s.list

/-- The workflow of a script in the file of the given name. -/
def ofScript (name : String) (s : Script) : Except Fault Workflow :=
  match s.offer with
  | .error halt => .error halt.fault
  | .ok (some (.workflow w)) => .ok w
  | .ok (some (.jobs js)) => .ok { name := Path.stemOf name, jobs := js }
  | .ok _ => .error (rejected (.workflowContent name))

/-- The number of bytes that are decoded before a document is looked at. -/
def firstBytes : Nat := 8192

/-- Is it found among the first bytes that they are no text? That a character is not finished is found
only at the end of the file. -/
def isEarly (size : Nat) (u : Text.Undecodable) : Bool :=
  size ≤ firstBytes || (u.reason != .ended && u.position + u.length < firstBytes)

/-- Why a document that is no text gives no workflow. The end is decoded by itself. -/
def garbledFault (late : List UInt8 → Option Text.Undecodable) (source : String) (bytes : List UInt8)
    (u : Text.Undecodable) : Fault :=
  if isEarly bytes.length u then
    .garbled (if u.reason = .ended then { u with position := 0 } else u)
  else match late bytes with
    | some u => .garbled u
    | none => rejected (.malformed source)

/-- The workflow of a document. -/
def ofDocument (late : List UInt8 → Option Text.Undecodable) (source : String) (bytes : List UInt8) :
    Except Fault Workflow :=
  match Text.decode bytes with
  | .ok cs => (Document.ofYaml source (String.ofList cs)).mapError .document
  | .error u => .error (garbledFault late source bytes u)

/-- The homes of the accounts that every machine has; the empty name stands for the user. -/
def homes : Assoc String :=
  [("", "/root"), ("root", "/root"), ("daemon", "/usr/sbin"), ("bin", "/bin"), ("sys", "/dev"),
    ("sync", "/bin"), ("games", "/usr/games"), ("man", "/var/cache/man"), ("lp", "/var/spool/lpd"),
    ("mail", "/var/mail"), ("news", "/var/spool/news"), ("uucp", "/var/spool/uucp"),
    ("proxy", "/bin"), ("www-data", "/var/www"), ("backup", "/var/backups"), ("list", "/var/list"),
    ("irc", "/run/ircd"), ("_apt", "/nonexistent"), ("nobody", "/nonexistent")]

/-- A path in which a tilde and the name of an account stand for the account's home. -/
def expandHome (path : Path) : Except Fault Path :=
  match path.rooted, path.names with
  | false, first :: rest => match first.toList with
    | '~' :: account => match homes.lookup (String.ofList account) with
      | some home => .ok { rooted := true, names := (Path.ofText home).names ++ rest }
      | none => .error .noHome
    | _ => .ok path
  | _, _ => .ok path

/-- The workflow in the file at a place. -/
def loadAt (f : Folder) (readers : Readers) (place : Place) : Except Fault Workflow :=
  let shown := Folder.shown place
  let name := place.getLast?.getD ""
  let suffix := Path.suffixOf name
  if suffix = ".yml" || suffix = ".yaml" then
    match f.bytesAt place with
    | .error fault => .error (.unusable fault shown)
    | .ok bytes => ofDocument readers.late shown bytes
  else if suffix = ".py" then
    match f.bytesAt place, f.find? place with
    | _, some .folder => .error (.folderScript shown)
    | .error fault, _ => .error (.unusable fault shown)
    | .ok _, _ => ofScript name (readers.script place)
  else .error (rejected (.workflowSuffix name))

/-- The workflow in the file at a path. -/
def load (f : Folder) (readers : Readers) (path : Path) : Except Fault Workflow := do
  let path ← expandHome path
  if path.hasNull then throw .nullInPath
  let place := Folder.resolve f.home path
  let shown := Folder.shown place
  match f.walk (place.take 1) (place.drop 1), f.find? place with
  | .error .nameTooLong, _ => .error (.unusable .nameTooLong shown)
  | .error .denied, _ => .error (.unusable .denied shown)
  | _, none => .error (.notFound shown)
  | _, some _ => loadAt f readers place

/-- The checked workflow in the file at a path. -/
def loadGraph (f : Folder) (readers : Readers) (path : Path) : Except Fault JobGraph := do
  let w ← load f readers path
  (JobGraph.build w).mapError fun r => .document (.rejected r)

end MergeGate.WorkflowFile
