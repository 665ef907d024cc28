/-
The system on which scripts run: files, open files, pipes, processes and a clock. An open file has a
position that all streams share which were made from one another. A pipe has ended when no living
process can write to it, and is broken when none can read it. A process that has got a signal about
which it does nothing is over, whatever it was doing. Time passes only when every process waits.
-/
import MergeGate.Folder.Basic
import MergeGate.Shell.Signal

namespace MergeGate.Shell

/-- What bytes are read from or written to. -/
inductive Device where
  /-- the output of the script as a whole -/
  | output
  /-- takes everything and gives nothing -/
  | nothing
  | file (place : Place)
  | folder
  | pipe (number : Nat)
  deriving DecidableEq, Repr

/-- An open file. -/
structure Opened where
  device : Device
  position : Nat := 0
  reads : Bool := false
  writes : Bool := false
  /-- is always written at the end? -/
  appends : Bool := false
  deriving Repr

/-- The bytes in a pipe, in two parts of which the second is reversed. -/
structure Pipe where
  front : Bytes := []
  back : Bytes := []
  size : Nat := 0
  deriving Repr

namespace Pipe

/-- How many bytes a pipe holds. -/
def capacity : Nat := 65536

/-- Put bytes in. -/
def push (p : Pipe) (bs : Bytes) : Pipe :=
  { p with back := bs.reverse ++ p.back, size := p.size + bs.length }

/-- All bytes in order. -/
def toBytes (p : Pipe) : Bytes := p.front ++ p.back.reverse

/-- Take bytes out, at most so many. -/
def pop (p : Pipe) (most : Nat) : Bytes × Pipe :=
  let front := if p.front.length < most then p.toBytes else p.front
  let back := if p.front.length < most then [] else p.back
  let taken := front.take most
  (taken, { front := front.drop most, back, size := p.size - taken.length })

end Pipe

/-- How a process ended. -/
inductive Ending where
  | exit (code : Nat)
  | signal (s : Signal)
  deriving DecidableEq, Repr

/-- A process. Its streams name open files. -/
structure Process where
  parent : Nat
  streams : List (Nat × Nat)
  ignored : List Nat := []
  caught : List Nat := []
  pending : List Nat := []
  ending : Option Ending := none
  deriving Repr

/-- The system. -/
structure System where
  folder : Folder
  output : Array Char := #[]
  opened : Array Opened := #[]
  pipes : Array Pipe := #[]
  processes : List (Nat × Process) := []
  nextProcess : Nat
  /-- the time in millionths of a second -/
  clock : Nat := 0
  /-- signals on their way: they arrive as soon as their sender's turn is over -/
  sent : List (Nat × Signal) := []

/-- Why the system refuses something. -/
inductive Refusal where
  | folder (f : Folder.Fault)
  | denied
  | badStream
  | brokenPipe
  | noProcess
  | interrupted
  | noChange
  deriving DecidableEq, Repr

/-- The refusal in words. -/
def Refusal.words : Refusal → String
  | folder f => f.words
  | denied => "Permission denied"
  | badStream => "Bad file descriptor"
  | brokenPipe => "Broken pipe"
  | noProcess => "No such process"
  | interrupted => "Interrupted system call"
  | noChange => "Read-only file system"

/-- Is the refusal that there is no such file? -/
def Refusal.isMissing : Refusal → Bool
  | folder .missing | folder .notFolder => true
  | _ => false

/-- What stands at a place. -/
inductive Thing where
  | folder
  | file (bytes : List UInt8)
  /-- a program that can be run -/
  | program (name : String)
  /-- the device that takes everything and gives nothing -/
  | nothing
  deriving DecidableEq, Repr

/-- The programs that the system has. -/
def programs : List String :=
  ["[", "basename", "cat", "dash", "echo", "false", "printf", "sh", "sleep", "test", "true"]

/-- The folders that programs are in. -/
def programFolders : List Place := [["", "bin"], ["", "usr", "bin"]]

/-- The folders that every system has. -/
def systemFolders : List Place :=
  [[""], ["", "bin"], ["", "dev"], ["", "etc"], ["", "home"], ["", "root"], ["", "tmp"], ["", "usr"],
    ["", "usr", "bin"], ["", "var"]]

namespace System

/-- What stands at a place. -/
def find? (s : System) (p : Place) : Option Thing :=
  match s.folder.find? p with
  | some .folder => some .folder
  | some (.file bytes) => some (.file bytes)
  | none =>
    if systemFolders.contains p then some .folder
    else if p == ["", "dev", "null"] then some .nothing
    else if programFolders.contains p.dropLast then
      (p.getLast?.filter programs.contains).map .program
    else none

/-- The place where a path begins, and the names it goes on with. A path that begins as the working
folder is shown leads there. -/
def route (s : System) (cwd : Place) (path : String) : Place × List String :=
  let names (cs : List Char) : List String :=
    ((Text.parts '/' cs).map String.ofList).filter fun n => n != "" && n != "."
  let home := (Folder.shown s.folder.home).toList
  let cs := path.toList
  if home.isPrefixOf cs && ((cs.drop home.length).head?.map (· == '/')).getD true then
    (s.folder.home, names (cs.drop home.length))
  else if cs.head? == some '/' then ([""], names cs)
  else (cwd, names cs)

/-- Follow names through folders that are there and may be entered. -/
def walk (s : System) (p : Place) : List String → Except Refusal Place
  | [] => .ok p
  | n :: rest => match s.find? p with
    | some .folder =>
      if s.folder.bars p then .error .denied
      else if Folder.maxName < n.utf8ByteSize then .error (.folder .nameTooLong)
      else s.walk (Folder.onward p n) rest
    | some _ => .error (.folder .notFolder)
    | none => .error (.folder .missing)

/-- The place to which a path leads through folders that are there and may be entered. -/
def follow (s : System) (cwd : Place) (path : Bytes) : Except Refusal Place :=
  if path.isEmpty then .error (.folder .missing)
  else if Folder.maxPath ≤ path.length then .error (.folder .nameTooLong)
  else
    let (start, names) := s.route cwd (Bytes.toText path)
    s.walk start names

/-- What stands where a path leads, and where that is. A path that ends in a slash leads to a folder
only. -/
def thing (s : System) (cwd : Place) (path : Bytes) : Except Refusal (Thing × Place) := do
  let p ← s.follow cwd path
  match s.find? p with
  | none => .error (.folder .missing)
  | some .folder => .ok (.folder, p)
  | some t => if path.getLast? == some '/' then .error (.folder .notFolder) else .ok (t, p)

/-- What is read from where a path leads. -/
def source (s : System) (cwd : Place) (path : Bytes) : Except Refusal Device := do
  let (t, p) ← s.thing cwd path
  if s.folder.bars p then throw .denied
  return match t with
    | .folder => .folder
    | .file _ => .file p
    | .program _ | .nothing => .nothing

/-- The bytes of the file at a place. -/
def content (s : System) (p : Place) : List UInt8 :=
  match s.find? p with
  | some (.file bytes) => bytes
  | _ => []

/-- Write the file at a place anew. -/
def setContent (s : System) (p : Place) (bytes : List UInt8) : System :=
  { s with folder := s.folder.put p (.file bytes) }

/-- Bytes with others written over them from a position on; a gap is filled with zeros. -/
def overwrite (old new : List UInt8) (position : Nat) : List UInt8 :=
  old.take position ++ List.replicate (position - old.length) 0 ++ new ++
    old.drop (position + new.length)

/-- A process. -/
def process? (s : System) (pid : Nat) : Option Process := s.processes.lookup pid

/-- Change a process. -/
def change (s : System) (pid : Nat) (f : Process → Process) : System :=
  { s with processes := s.processes.map fun (n, p) => if n = pid then (n, f p) else (n, p) }

/-- Does a process live? -/
def lives (s : System) (pid : Nat) : Bool :=
  match s.process? pid with
  | some p => p.ending.isNone
  | none => false

/-- End a process. Its streams are closed. -/
def finish (s : System) (pid : Nat) (e : Ending) : System :=
  s.change pid fun p => if p.ending.isSome then p else { p with ending := some e, streams := [] }

/-- Forget a process that has ended. -/
def forget (s : System) (pid : Nat) : System :=
  { s with processes := s.processes.filter fun p => p.1 != pid }

/-- A new process that begins as a copy of another. -/
def spawn (s : System) (parent : Nat) : Nat × System :=
  let pid := s.nextProcess
  let p : Process := match s.process? parent with
    | some p => { p with parent, pending := [], ending := none }
    | none => { parent, streams := [] }
  (pid, { s with processes := s.processes ++ [(pid, p)], nextProcess := pid + 1 })

/-- Send a signal to a process. -/
def send (s : System) (pid : Nat) (signal : Signal) : System :=
  match s.process? pid with
  | none => s
  | some p =>
    if signal.number = 0 then s
    else if p.ignored.contains signal.number && !signal.isSovereign then s
    else if p.caught.contains signal.number && !signal.isSovereign then
      s.change pid fun p => { p with
        pending := if p.pending.contains signal.number then p.pending
          else p.pending ++ [signal.number] }
    else if signal.isHarmless then s
    else s.finish pid (.signal signal)

/-- The processes that live. -/
def living (s : System) : List Nat := (s.processes.filter fun p => p.2.ending.isNone).map (·.1)

/-- Send a signal to all processes. -/
def sendAll (s : System) (signal : Signal) : System :=
  s.living.foldl (fun s pid => s.send pid signal) s

/-- Let the signals that are on their way arrive. -/
def deliver (s : System) : System :=
  s.sent.foldl (fun s (pid, signal) => s.send pid signal) { s with sent := [] }

/-- Is there a living process with a stream to an open file that satisfies the condition? -/
def anyStream (s : System) (f : Opened → Bool) : Bool :=
  s.processes.any fun (_, p) => p.streams.any fun (_, n) => ((s.opened[n]?).map f).getD false

/-- Can something still be written to a pipe? -/
def hasWriter (s : System) (pipe : Nat) : Bool :=
  s.anyStream fun o => o.writes && o.device == .pipe pipe

/-- Can a pipe still be read? -/
def hasReader (s : System) (pipe : Nat) : Bool :=
  s.anyStream fun o => o.reads && o.device == .pipe pipe

/-- The bytes in a pipe. -/
def pipe (s : System) (n : Nat) : Pipe := (s.pipes[n]?).getD {}

/-- Open a file anew. -/
def add (s : System) (o : Opened) : Nat × System :=
  (s.opened.size, { s with opened := s.opened.push o })

/-- A new pipe, with the given bytes in it: its reading and its writing end. -/
def addPipe (s : System) (bs : Bytes) : Nat × Nat × System :=
  let n := s.pipes.size
  let s := { s with pipes := s.pipes.push (({} : Pipe).push bs) }
  let (r, s) := s.add { device := .pipe n, reads := true }
  let (w, s) := s.add { device := .pipe n, writes := true }
  (r, w, s)

/-- The open file of a process's stream. -/
def stream? (s : System) (pid stream : Nat) : Option Nat :=
  (s.process? pid).bind fun p => p.streams.lookup stream

/-- Give a process's stream another open file, or close it. -/
def setStream (s : System) (pid stream : Nat) (opened : Option Nat) : System :=
  s.change pid fun p =>
    let others := p.streams.filter fun x => x.1 != stream
    { p with streams := match opened with
        | some n => (stream, n) :: others
        | none => others }

/-- Move on in an open file. -/
def setPosition (s : System) (n position : Nat) : System :=
  { s with opened := s.opened.modify n fun o => { o with position } }

/-- What an open file reads from or writes to. -/
def device? (s : System) (n : Nat) : Option Device := (s.opened[n]?).map (·.device)

/-- Can bytes be taken from an open file without waiting, be it that there are none any more? -/
def readable (s : System) (n : Nat) : Bool :=
  match s.device? n with
  | some (.pipe p) => 0 < (s.pipe p).size || !s.hasWriter p
  | _ => true

/-- Take bytes from an open file, at most so many, and up to a line feed if that is asked. -/
def take (s : System) (n most : Nat) (line : Bool) : Except Refusal (Bytes × System) :=
  let cut (bs : Bytes) : Bytes :=
    if line then
      let before := bs.takeWhile (· != '\n')
      bs.take (min most (before.length + 1))
    else bs.take most
  match s.opened[n]? with
  | none => .error .badStream
  | some o =>
    if !o.reads then .error .badStream
    else match o.device with
      | .output | .nothing => .ok ([], s)
      | .folder => .error (.folder .isFolder)
      | .file p =>
        let bs := cut (Bytes.ofRaw ((s.content p).drop o.position))
        .ok (bs, s.setPosition n (o.position + bs.length))
      | .pipe p =>
        let bs := cut (s.pipe p).toBytes
        .ok (bs, { s with pipes := s.pipes.modify p fun q => (q.pop bs.length).2 })

/-- Can bytes be put to an open file without waiting? -/
def writable (s : System) (n : Nat) : Bool :=
  match s.device? n with
  | some (.pipe p) => (s.pipe p).size < Pipe.capacity || !s.hasReader p
  | _ => true

/-- Put bytes to an open file: those that did not fit are left over. -/
def store (s : System) (n : Nat) (bs : Bytes) : Except Refusal (Bytes × System) :=
  match s.opened[n]? with
  | none => .error .badStream
  | some o =>
    if !o.writes then .error .badStream
    else match o.device with
      | .output => .ok ([], { s with output := s.output.append bs.toArray })
      | .nothing | .folder => .ok ([], s)
      | .file p =>
        let old := s.content p
        let position := if o.appends then old.length else o.position
        let s := s.setContent p (overwrite old (Bytes.toRaw bs) position)
        .ok ([], s.setPosition n (position + bs.length))
      | .pipe p =>
        if !s.hasReader p then .error .brokenPipe
        else
          let room := Pipe.capacity - (s.pipe p).size
          .ok (bs.drop room, { s with pipes := s.pipes.modify p fun q => q.push (bs.take room) })

/-- Is the output of the script as a whole still open? -/
def outputIsOpen (s : System) : Bool := s.anyStream fun o => o.device == .output

end System

end MergeGate.Shell
