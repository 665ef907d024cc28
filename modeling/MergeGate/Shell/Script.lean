/-
Scripts as actions. Every process runs an action of its own, which goes on until it is done, stops,
or has to wait: then it hands back the system together with what it will do next, and other processes
take their turns. An action changes its own interpreter, which nobody else sees, and the system,
which all share.
-/
import MergeGate.Shell.Parser
import MergeGate.Shell.System

namespace MergeGate.Shell

/-- A variable; one without a value is known and not set. -/
structure Variable where
  value : Option Bytes
  exported : Bool := false
  constant : Bool := false
  deriving Repr

/-- What the rest of the commands are passed over for. -/
inductive Skip where
  | nothing
  | leaveLoop
  | nextRound
  /-- the function is left with a status of its own -/
  | function
  /-- the function is left with the status of its last command -/
  | functionAsIs
  deriving DecidableEq, Repr

/-- Processes that were started together. -/
structure Job where
  number : Nat
  processes : List (Nat × Option Ending)
  waited : Bool := false
  deriving Repr

/-- A function, and the line where it stands. -/
structure Function where
  line : Nat
  body : Tree

/-- One interpreter of scripts, in its process. -/
structure Interpreter where
  process : Nat
  /-- the process of the script itself, of which this may be a part -/
  root : Nat
  parentProcess : Nat
  /-- the name under which complaints are made -/
  name : Bytes
  parameters : List Bytes := []
  bindings : List (Bytes × Variable) := []
  functions : List (Bytes × Function) := []
  aliases : List (Bytes × Bytes) := []
  options : List String := []
  traps : List (Nat × Bytes) := []
  jobs : List Job := []
  lastBackground : Option Nat := none
  cwd : Place
  status : Nat := 0
  /-- the status before a trap began -/
  savedStatus : Option Nat := none
  /-- the status of the last substitution in the current command -/
  substituted : Nat := 0
  skip : Skip := .nothing
  skipCount : Nat := 0
  loops : Nat := 0
  functionDepth : Nat := 0
  /-- is this a part of a script, with a process of its own? -/
  isPart : Bool := false
  line : Nat := 1
  /-- the line up to which the text at work has been read -/
  readTo : Nat := 1
  /-- the built-in command at work -/
  command : Option Bytes := none
  /-- what the variables of the functions at work were outside them -/
  locals : List (List (Bytes × Option Variable)) := []
  documents : Array Word := #[]
  /-- what a built-in command has written and is not yet on its way -/
  buffer : Bytes := []
  /-- where the options of the parameters are read next: which word, and which byte of the word before
  it -/
  optionWord : Nat := 1
  optionByte : Option Nat := none
  /-- the programs that were found -/
  found : List Bytes := []
  mask : Nat := 0o022
  /-- where the streams are kept that redirections have changed, the last redirections first -/
  kept : List (List (Nat × Option Nat)) := []

/-- Why an action stops before its end. -/
inductive Stop where
  /-- a complaint has been made -/
  | failed
  /-- the commands are over -/
  | ended
  /-- it was asked for -/
  | asked
  /-- the process is over -/
  | dead
  /-- the script runs too long -/
  | spent
  deriving DecidableEq, Repr

/-- When a waiting process can go on: as soon as something holds, or at a time. -/
structure Wake where
  ready : System → Bool
  time : Option Nat := none

/-- The life of a process from some moment on. -/
inductive Life where
  | ended (s : System)
  | waits (wake : Wake) (s : System) (resume : System → Life)
  | forks (s : System) (pid : Nat) (child : System → Life) (resume : System → Life)

/-- A turn of an action: how far it comes. -/
inductive Turn (α : Type) where
  | done (value : α) (i : Interpreter) (s : System)
  | stopped (why : Stop) (i : Interpreter) (s : System)
  | waits (wake : Wake) (s : System) (resume : System → Turn α)
  | forks (s : System) (pid : Nat) (child : System → Life) (resume : System → Turn α)

variable {α β : Type}

/-- Go on with another action. -/
def Turn.andThen (t : Turn α) (f : α → Interpreter → System → Turn β) : Turn β :=
  match t with
  | .done a i s => f a i s
  | .stopped why i s => .stopped why i s
  | .waits wake s resume => .waits wake s fun s => (resume s).andThen f
  | .forks s pid child resume => .forks s pid child fun s => (resume s).andThen f

/-- Go on with another action where one stopped. -/
def Turn.orElse (t : Turn α) (f : Stop → Interpreter → System → Turn α) : Turn α :=
  match t with
  | .done a i s => .done a i s
  | .stopped why i s => f why i s
  | .waits wake s resume => .waits wake s fun s => (resume s).orElse f
  | .forks s pid child resume => .forks s pid child fun s => (resume s).orElse f

/-- The life of a process with an action that says how it ends. -/
def Turn.toLife (pid : Nat) : Turn Ending → Life
  | .done e _ s => .ended (s.finish pid e)
  | .stopped _ _ s => .ended (s.finish pid (.exit 2))
  | .waits wake s resume => .waits wake s fun s => (resume s).toLife pid
  | .forks s child life resume => .forks s child life fun s => (resume s).toLife pid

/-- An action of a process. -/
def Script (α : Type) := Interpreter → System → Turn α

namespace Script

instance : Monad Script where
  pure a := fun i s => .done a i s
  bind x f := fun i s => (x i s).andThen f

instance : MonadStateOf Interpreter Script where
  get := fun i s => .done i i s
  set i := fun _ s => .done () i s
  modifyGet f := fun i s => let (a, i) := f i; .done a i s

instance : Inhabited (Script α) := ⟨fun i s => .stopped .spent i s⟩

/-- Stop. -/
def stop (why : Stop) : Script α := fun i s => .stopped why i s

/-- Do something else where an action stops; nothing stops the end of a process. -/
def rescue (x : Script α) (f : Stop → Script α) : Script α := fun i s =>
  (x i s).orElse fun why i s => match why with
    | .dead | .spent => .stopped why i s
    | why => f why i s

/-- What an action comes to: its value, or why it stopped. -/
def attempt (x : Script α) : Script (Except Stop α) :=
  rescue (do return .ok (← x)) fun why => return .error why

/-- The system as it is. -/
def system : Script System := fun i s => .done s i s

/-- Change the system. -/
def changeSystem (f : System → System) : Script Unit := fun i s => .done () i (f s)

/-- Wait until something holds. -/
def waitUntil (ready : System → Bool) : Script Unit := fun i s =>
  if ready s then .done () i s else .waits { ready } s fun s => .done () i s

/-- Wait until a time, or until something holds. -/
def waitFor (time : Nat) (ready : System → Bool) : Script Unit := fun i s =>
  if time ≤ s.clock || ready s then .done () i s
  else .waits { ready := fun s => time ≤ s.clock || ready s, time := some time } s
    fun s => .done () i s

/-- Start a process that begins as a copy of this one. -/
def fork (child : Script Ending) : Script Nat := fun i s =>
  let (pid, s) := s.spawn i.process
  .forks s pid (fun s => (child { i with process := pid, parentProcess := i.process } s).toLife pid)
    fun s => .done pid i s

/-- Go on only if the process lives. -/
def checkAlive : Script Unit := fun i s =>
  if s.lives i.process then .done () i s else .stopped .dead i s

/-- Send a signal: to the process itself at once, to another on its way. -/
def send (pid : Nat) (signal : Signal) : Script Unit := do
  if pid == (← get).process then do
    changeSystem fun s => s.send pid signal
    checkAlive
  else changeSystem fun s => { s with sent := s.sent ++ [(pid, signal)] }

/-- Send a signal to all processes. -/
def sendAll (signal : Signal) : Script Unit := do
  let own := (← get).process
  changeSystem fun s => { s with
    sent := s.sent ++ (s.living.filter (· != own)).map fun pid => (pid, signal) }
  send own signal

/-- The signals that wait to be dealt with. -/
def pending : Script (List Nat) := do
  return (((← system).process? (← get).process).map (·.pending)).getD []

/-- Change the process. -/
def changeProcess (f : Process → Process) : Script Unit := do
  let pid := (← get).process
  changeSystem fun s => s.change pid f

/-- Write all bytes to an open file. As much fuel as bytes is enough. -/
def writeAll (fuel : Nat) (opened : Nat) (bs : Bytes) : Script (Option Refusal) :=
  match fuel, bs with
  | 0, _ | _, [] => return none
  | fuel + 1, bs => do
    waitUntil fun s => s.writable opened
    match (← system).store opened bs with
    | .ok (left, s) => do
      changeSystem fun _ => s
      writeAll fuel opened left
    | .error .brokenPipe => do
      send (← get).process .pipe
      return some .brokenPipe
    | .error r => return some r

/-- Write bytes to a stream. -/
def write (stream : Nat) (bs : Bytes) : Script (Option Refusal) := do
  if bs.isEmpty then return none
  else match (← system).stream? (← get).process stream with
    | none => return some .badStream
    | some n => writeAll (bs.length + 1) n bs

/-- Read bytes from a stream, at most so many, and up to a line feed if that is asked; none at the
end. -/
def read (stream most : Nat) (line : Bool) : Script (Except Refusal Bytes) := do
  let pid := (← get).process
  match (← system).stream? pid stream with
  | none => return .error .badStream
  | some n => do
    waitUntil fun s => s.readable n || !(((s.process? pid).map (·.pending)).getD []).isEmpty
    let s ← system
    if !s.readable n then return .error .interrupted
    else match s.take n most line with
      | .ok (bs, s) => do
        changeSystem fun _ => s
        return .ok bs
      | .error r => return .error r

/-- Read a stream to its end. -/
def readAll (fuel : Nat) (stream : Nat) (acc : List Bytes) : Script (Except Refusal Bytes) :=
  match fuel with
  | 0 => stop .spent
  | fuel + 1 => do
    match ← read stream Pipe.capacity false with
    | .ok [] => return .ok acc.reverse.flatten
    | .ok bs => readAll fuel stream (bs :: acc)
    | .error r => return .error r

/-- Write to the stream of complaints. -/
def warn (bs : Bytes) : Script Unit := discard (write 2 bs)

/-- Write to the output of a built-in command. -/
def say (bs : Bytes) : Script Unit := modify fun i => { i with buffer := i.buffer ++ bs }

/-- Complain, and go on. -/
def complain (message : Bytes) : Script Unit := do
  let i ← get
  let colon : Bytes := [':', ' ']
  let command := match i.command with
    | some c => c ++ colon
    | none => []
  warn (i.name ++ colon ++ Bytes.ofNat i.line ++ colon ++ command ++ message ++ ['\n'])

/-- Send off what a built-in command has written. -/
def flush : Script (Option Refusal) := do
  let i ← get
  set { i with buffer := [] }
  write 1 i.buffer

/-- Complain, and stop. -/
def fail (message : Bytes) : Script α := do
  complain message
  discard flush
  modify fun i => { i with status := 2 }
  stop .failed

/-- Complain in words of one byte a character, and stop. -/
def failWith (message : String) : Script α := fail (Bytes.ofLiteral message)

/-- Set the status of the last command. -/
def setStatus (n : Nat) : Script Unit := modify fun i => { i with status := n }

/-- Is an option on? -/
def option (name : String) : Script Bool := return (← get).options.contains name

end Script

namespace Interpreter

/-- A variable. -/
def find? (i : Interpreter) (name : Bytes) : Option Variable := i.bindings.lookup name

/-- The value of a variable. -/
def value? (i : Interpreter) (name : Bytes) : Option Bytes := (i.find? name).bind (·.value)

/-- The value of a variable with a plain name. -/
def valueOf? (i : Interpreter) (name : String) : Option Bytes := i.value? name.toList

/-- Put a variable. -/
def putVariable (i : Interpreter) (name : Bytes) (v : Option Variable) : Interpreter :=
  let others := i.bindings.filter fun x => x.1 != name
  { i with bindings := match v with
      | some v => (name, v) :: others
      | none => others }

/-- The separators of fields. -/
def separators (i : Interpreter) : Option Bytes := i.valueOf? "IFS"

/-- The separators of fields unless others are set. -/
def defaultSeparators : Bytes := [' ', '\t', '\n']

/-- The path along which programs are looked for unless another is set. -/
def defaultPath : String := "/usr/local/sbin:/usr/local/bin:/usr/sbin:/usr/bin:/sbin:/bin"

/-- The action of a trap. -/
def trap? (i : Interpreter) (signal : Nat) : Option Bytes := i.traps.lookup signal

/-- Is there a trap with something to do? -/
def hasTraps (i : Interpreter) : Bool := i.traps.any fun t => !t.2.isEmpty

/-- The variables that other programs are given. -/
def environment (i : Interpreter) : List (Bytes × Bytes) :=
  i.bindings.filterMap fun (name, v) =>
    if v.exported then v.value.map fun x => (name, x) else none

end Interpreter

namespace Script

/-- Set a variable, and perhaps export it. -/
def assign (name value : Bytes) (exported : Bool) : Script Unit := do
  let i ← get
  match i.find? name with
  | some v =>
    if v.constant then fail (name ++ Bytes.ofLiteral ": is read only")
    else set (i.putVariable name (some { v with
      value := some value
      exported := v.exported || exported || i.options.contains "allexport" }))
  | none => set (i.putVariable name (some
      { value := some value, exported := exported || i.options.contains "allexport" }))
  if name == "OPTIND".toList then
    modify fun i => { i with
      optionWord := max 1 (natOfDigits (value.takeWhile isDigitByte))
      optionByte := none }
  else if name == "PATH".toList then modify fun i => { i with found := [] }

/-- Set a variable whose name may not be one. What stands from an equals sign on is no part of the
name. -/
def assignNamed (name value : Bytes) (exported : Bool) : Script Unit :=
  let name := name.takeWhile (· != '=')
  if isName name then assign name value exported
  else fail (name ++ Bytes.ofLiteral ": bad variable name")

/-- Forget a variable. What stands from an equals sign on is no part of its name. -/
def unassign (name : Bytes) : Script Unit := do
  let name := name.takeWhile (· != '=')
  if !isName name then fail (name ++ Bytes.ofLiteral ": bad variable name")
  let i ← get
  match i.find? name with
  | some v =>
    if v.constant then fail (name ++ Bytes.ofLiteral ": is read only")
    else set (i.putVariable name none)
  | none => return

/-- Keep what a variable is, to be restored when the function is left. -/
def keepLocal (name : Bytes) : Script Unit :=
  modify fun i => match i.locals with
    | frame :: rest =>
      if frame.any fun x => x.1 == name then i
      else { i with locals := ((name, i.find? name) :: frame) :: rest }
    | [] => i

/-- Begin to keep variables. -/
def pushLocals : Script Unit := modify fun i => { i with locals := [] :: i.locals }

/-- Restore the variables that were kept, back to where there were so many frames. -/
def popLocals (depth : Nat) : Script Unit :=
  modify fun i =>
    let frames := i.locals.take (i.locals.length - depth)
    let i := { i with locals := i.locals.drop (i.locals.length - depth) }
    frames.foldl (fun i frame => frame.foldl (fun i (name, v) => i.putVariable name v) i) i

end Script

end MergeGate.Shell
