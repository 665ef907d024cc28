/-
Redirections. A stream is sent to or taken from a file, another stream or a text. What a stream was
before is kept at a number that no script can name, so that it can be put back.
-/
import MergeGate.Shell.Builtin

namespace MergeGate.Shell.Stream

open Script

/-- A redirection whose names are expanded; a text is expanded only when its turn comes. -/
inductive Target where
  | file (direction : Direction) (name : Bytes)
  | same (other : Option Nat)
  | text (w : Word)

/-- The least number at which streams are kept. -/
def firstKept : Nat := 10

/-- A number at which nothing is kept yet. -/
def freeNumber (s : System) (pid : Nat) : Nat :=
  let used := ((s.process? pid).map fun p => p.streams.map (·.1)).getD []
  ((List.range (used.length + 1)).find? fun n => !used.contains (firstKept + n)).getD used.length
    + firstKept

/-- The stream that a path of the system stands for. -/
def device? (name : Bytes) : Option Nat :=
  match String.ofList name with
  | "/dev/stdin" => some 0
  | "/dev/stdout" => some 1
  | "/dev/stderr" => some 2
  | path =>
    if path.startsWith "/dev/fd/" && (name.drop 8).all isDigitByte && 8 < name.length then
      some (natOfDigits (name.drop 8))
    else none

/-- A file that cannot be opened, in words. -/
def openFault (name : Bytes) (r : Refusal) (creating : Bool) : Bytes :=
  let why := if r.isMissing then if creating then "Directory nonexistent" else "No such file"
    else r.words
  Bytes.ofLiteral (if creating then "cannot create " else "cannot open ") ++ name ++
    Bytes.ofLiteral (": " ++ why)

/-- Open a file for reading. -/
def openRead (s : System) (cwd : Place) (name : Bytes) : Except Refusal (Opened × System) :=
  (s.source cwd name).map fun device => ({ device, reads := true }, s)

/-- Open a file for writing; it is made if it is not there. -/
def openWrite (s : System) (cwd : Place) (name : Bytes) (direction : Direction) (keep : Bool) :
    Except Refusal (Opened × System) := do
  let p ← s.follow cwd name
  let opened (device : Device) : Opened :=
    { device, writes := true, reads := direction == .readWrite, appends := direction == .append }
  match s.find? p with
  | some .folder => .error (.folder .isFolder)
  | some .nothing => .ok (opened .nothing, s)
  | some (.program _) => .error .denied
  | some (.file _) =>
    if name.getLast? == some '/' then .error (.folder .notFolder)
    else if keep && direction == .write then .error (.folder .taken)
    else if s.folder.bars p then .error .denied
    else if direction == .write || direction == .clobber then
      .ok (opened (.file p), s.setContent p [])
    else .ok (opened (.file p), s)
  | none =>
    if name.getLast? == some '/' then .error (.folder .isFolder)
    else match s.find? p.dropLast with
      | some .folder => .ok (opened (.file p), s.setContent p [])
      | some _ => .error (.folder .notFolder)
      | none => .error (.folder .missing)

/-- The open file of a target; nothing if the stream is to be closed. -/
def openTarget (run : Option Tree → Script Bytes) (t : Target) : Script (Option Nat) := do
  let i ← get
  let s ← system
  match t with
  | .same none => return none
  | .same (some n) => match s.stream? i.process n with
    | some o => return some o
    | none => fail (Bytes.ofNat n ++ Bytes.ofLiteral ": Bad file descriptor")
  | .text w => do
    let bs ← Expansion.text run { quoted := true } w
    let (r, _, s) := (← system).addPipe bs
    changeSystem fun _ => s
    return some r
  | .file direction name =>
    let creating := direction != .read
    match (device? name).map fun n => s.stream? i.process n with
    | some (some o) => return some o
    | some none => fail (openFault name (.folder .missing) creating)
    | none =>
      let opened := if creating then
          openWrite s i.cwd name direction (i.options.contains "noclobber")
        else openRead s i.cwd name
      match opened with
      | .error r => fail (openFault name r creating)
      | .ok (o, s) => do
        let (n, s) := s.add o
        changeSystem fun _ => s
        return some n

/-- Keep what a stream is, unless it is kept already. -/
def keep (stream : Nat) : Script Unit := do
  let i ← get
  match i.kept with
  | frame :: rest =>
    if frame.any fun k => k.1 == stream then return
    else do
      let s ← system
      match s.stream? i.process stream with
      | some o => do
        let n := freeNumber s i.process
        changeSystem fun s => s.setStream i.process n (some o)
        set { i with kept := ((stream, some n) :: frame) :: rest }
      | none => set { i with kept := ((stream, none) :: frame) :: rest }
  | [] => return

/-- Redirect streams one after the other; what they were is kept if that is asked. -/
def redirect (run : Option Tree → Script Bytes) (keeps : Bool) :
    List (Nat × Target) → Script Unit
  | [] => return
  | (stream, t) :: rest => do
    let o ← openTarget run t
    if keeps then keep stream
    let pid := (← get).process
    changeSystem fun s => s.setStream pid stream o
    redirect run keeps rest

/-- Begin to keep streams. -/
def pushKept : Script Unit := modify fun i => { i with kept := [] :: i.kept }

/-- Put streams back as they were before the last redirections, or only forget what they were. -/
def popKept (forget : Bool) : Script Unit := do
  let i ← get
  match i.kept with
  | [] => return
  | frame :: rest => do
    set { i with kept := rest }
    changeSystem fun s => frame.foldl (fun s (stream, n) =>
      match n with
      | some n =>
        let o := s.stream? i.process n
        let s := s.setStream i.process n none
        if forget then s else s.setStream i.process stream o
      | none => if forget then s else s.setStream i.process stream none) s

/-- Put all streams back until so many redirections are left. -/
def unwind (depth : Nat) : Script Unit := do
  let i ← get
  (List.range (i.kept.length - depth)).forM fun _ => popKept false

end MergeGate.Shell.Stream
