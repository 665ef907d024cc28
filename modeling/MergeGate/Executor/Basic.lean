/-
The run of one instance, as steps that others may come between. The run takes its own moves: it
reads the stop flag before each step, starts the step's process, registers it, waits for it and
takes it off the register. Anyone may ask it to stop at any time: the request sets the flag and
looks up the registered process, and a moment later signals that process if it still lives. A
process that is started after the request and before it is registered is signalled by the run
itself. Each constructor of `Act` is one move that nothing can interrupt.
-/
import MergeGate.Console
import MergeGate.Folder.Basic
import MergeGate.Shell.Signal

namespace MergeGate.Executor

open Shell (Signal)

/-- Why a run breaks off without a result. -/
inductive Breakage where
  /-- the folder of a step is no folder -/
  | notFolder (place : Place)
  /-- the folder of a step has too long a name -/
  | longName (place : Place)
  /-- the folder of a step may not be entered, or not be looked for -/
  | denied (place : Place)
  /-- a null character stands where none may -/
  | null
  /-- a variable whose name has an equality sign in it -/
  | variableName
  /-- the command or a variable is too long to be handed to a process -/
  | tooLong
  /-- the output of a process is no text -/
  | garbled (u : Text.Undecodable)
  deriving DecidableEq, Repr

namespace Breakage

/-- The kind of the breakage, as it is reported. -/
def kind : Breakage → String
  | notFolder _ => Folder.Fault.notFolder.kind
  | longName _ => Folder.Fault.nameTooLong.kind
  | denied _ => Folder.Fault.denied.kind
  | tooLong => "OSError"
  | null | variableName => "ValueError"
  | garbled _ => Text.Undecodable.kind

/-- The breakage in words. -/
def message : Breakage → String
  | notFolder p => Folder.Fault.notFolder.message (Folder.shown p)
  | longName p => Folder.Fault.nameTooLong.message (Folder.shown p)
  | denied p => Folder.Fault.denied.message (Folder.shown p)
  | null => Path.nullMessage
  | variableName => "illegal environment variable name"
  | tooLong => "[Errno 7] Argument list too long: '/bin/sh'"
  | garbled u => u.message

end Breakage

/-- What the run does next. -/
inductive Next where
  /-- read the stop flag and turn to the first of the steps that are left -/
  | check (steps : List Step)
  /-- look for the folder of a step -/
  | look (step : Step) (rest : List Step)
  /-- start the process of a step -/
  | launch (step : Step) (rest : List Step)
  /-- register the started process, and read the stop flag -/
  | register (step : Step) (rest : List Step)
  /-- the flag was set by then: set it again and look up the registered process -/
  | lookUp (step : Step) (rest : List Step)
  /-- signal the process, if it still lives -/
  | signal (step : Step) (rest : List Step)
  /-- wait for the process to end -/
  | await (step : Step) (rest : List Step)
  /-- take the process off the register -/
  | unregister (rest : List Step)
  /-- a process failed: read the stop flag -/
  | judge
  /-- clear the stop flag; `cut` tells whether the run was cut short by it -/
  | finish (cut : Bool)
  /-- the run has given its result -/
  | done (cut : Bool)
  /-- the run broke off -/
  | broken (why : Breakage)

/-- The run of an instance. Processes are known by the number of their start. -/
structure Machine where
  subject : Instance
  /-- where the folders of steps begin -/
  root : Place
  /-- how many characters of output are kept -/
  keep : Int
  next : Next
  stop : Bool := false
  registered : Option Nat := none
  alive : Option Nat := none
  /-- how the last started process ended, once it has -/
  ended : Option (Int × Except Text.Undecodable String) := none
  started : List Step := []
  signalled : List (Nat × Signal) := []
  /-- those who asked to stop, each with the process it found registered -/
  callers : List (Option Nat × Signal) := []
  exitCode : Int := 0
  output : String := ""
  notices : List Notice := []

/-- How the look for a folder turns out. -/
inductive Look where
  | there
  | missing
  /-- it cannot even be looked for -/
  | unusable (why : Breakage)
  deriving DecidableEq, Repr

/-- A move. -/
inductive Act where
  /-- the run's own next move -/
  | own
  /-- the run looks for the folder of a step -/
  | look (found : Look)
  /-- the process of a step cannot be started -/
  | refuse (why : Breakage)
  /-- the living process ends -/
  | exit (code : Int) (output : Except Text.Undecodable String)
  /-- someone asks to stop -/
  | request (s : Signal)
  /-- the caller at the given place signals the process it found -/
  | send (caller : Nat)

/-- The end of a text: its last characters, if a number above zero is to be kept; all of it for
zero; and without its first characters for a number below. -/
def tailOf (keep : Int) (cs : List Char) : List Char :=
  if 0 < keep then cs.drop (cs.length - keep.toNat) else cs.drop (-keep).toNat

/-- The folder of a step. -/
def folderOf (root : Place) (s : Step) : Place :=
  Folder.resolve root (.ofText ((s.cwd.filter (· != "")).getD "."))

namespace Machine

/-- A run that is about to begin. -/
def start (subject : Instance) (root : Place) (keep : Int) (stop : Bool) : Machine :=
  { subject, root, keep, stop, next := .check subject.steps }

/-- The run's own move. -/
def own (m : Machine) : Option Machine :=
  match m.next with
  | .check [] => some { m with next := .finish false }
  | .check (s :: rest) =>
    if m.stop then some { m with next := .finish true }
    else if s.run.isNone then
      let name := (s.uses.filter (· != "")).getD s.name
      some { m with
        next := .check rest
        notices := m.notices ++ [.debug ("[" ++ m.subject.id ++ "] skipping action step " ++ name)] }
    else
      some { m with
        next := .look s rest
        notices := m.notices ++ [.step m.subject.id s.name] }
  | .launch s rest =>
    some { m with
      next := .register s rest
      alive := some m.started.length
      ended := none
      started := m.started ++ [s] }
  | .register s rest =>
    some { m with
      next := if m.stop then .lookUp s rest else .await s rest
      registered := some (m.started.length - 1) }
  | .lookUp s rest => some { m with next := .signal s rest, stop := true }
  | .signal s rest =>
    some { m with
      next := .await s rest
      signalled := m.signalled ++ (m.alive.map fun p => (p, Signal.terminate)).toList }
  | .await _ rest =>
    m.ended.map fun e => match e.2 with
      | .ok output =>
        { m with
          next := .unregister rest
          exitCode := e.1
          output := String.ofList (tailOf m.keep (m.output.toList ++ output.toList)) }
      | .error u => { m with next := .broken (.garbled u), registered := none }
  | .unregister rest =>
    some { m with next := if m.exitCode = 0 then .check rest else .judge, registered := none }
  | .judge => some { m with next := .finish m.stop }
  | .finish cut => some { m with next := .done cut, stop := false }
  | .look .. | .done _ | .broken _ => none

/-- The run has looked for the folder of a step. -/
def looked (m : Machine) (s : Step) (rest : List Step) : Look → Machine
  | .there => { m with next := .launch s rest }
  | .missing =>
    { m with
      next := .finish false
      exitCode := 1
      output := m.output ++ "\n[" ++ m.subject.id ++ "] step '" ++ s.name ++ "' cwd not found: " ++
        Folder.shown (folderOf m.root s) }
  | .unusable why => { m with next := .broken why }

/-- One move, if it can be made. -/
def act (m : Machine) : Act → Option Machine
  | .own => m.own
  | .look found => match m.next with
    | .look s rest => some (m.looked s rest found)
    | _ => none
  | .refuse why => match m.next with
    | .launch .. => some { m with next := .broken why }
    | _ => none
  | .exit code output => match m.alive with
    | some _ => some { m with alive := none, ended := some (code, output) }
    | none => none
  | .request s => some { m with stop := true, callers := m.callers ++ [(m.registered, s)] }
  | .send i => match m.callers[i]? with
    | some (found, s) =>
      let hit := if found.isSome && found == m.alive then found else none
      some { m with
        callers := m.callers.eraseIdx i
        signalled := m.signalled ++ (hit.map fun p => (p, s)).toList }
    | none => none

/-- The result of a run that is done. -/
def result? (m : Machine) (duration : Float) : Option Result :=
  match m.next with
  | .done true =>
    let code := if m.exitCode = 0 then none else some m.exitCode
    some (.ofExit m.subject code duration (m.output ++ "\n[" ++ m.subject.id ++ "] cancelled")
      (some Reason.cancelled))
  | .done false => some (.ofExit m.subject (some m.exitCode) duration m.output (some Reason.exit))
  | _ => none

/-- Someone asks to stop and signals the process without delay. -/
def interrupt (m : Machine) (s : Signal) : Machine :=
  let asked := (m.act (.request s)).getD m
  (asked.act (.send (asked.callers.length - 1))).getD asked

/-- Several ask to stop one after the other. -/
def interruptAll (m : Machine) (ss : List Signal) : Machine := ss.foldl interrupt m

end Machine

/-- What surrounds a run. -/
structure Surroundings (σ : Type) where
  /-- the requests to stop that come before the next move -/
  requests : σ → Next → List Signal
  /-- look for a folder -/
  look : σ → Place → Look
  /-- why no process can be started for a step in a folder -/
  hindrance : σ → Step → Place → Option Breakage
  /-- the start of a process was refused -/
  refused : σ → σ
  /-- run a step's process in a folder, with the signals it has got, to its end -/
  perform : σ → Step → Place → List Signal → Int × Except Text.Undecodable String × σ

variable {σ : Type}

/-- The signals that the last started process has got. -/
def Machine.signals (m : Machine) : List Signal :=
  (m.signalled.filter fun x => x.1 + 1 == m.started.length).map (·.2)

/-- The next move of a run in its surroundings. -/
def Surroundings.move (e : Surroundings σ) (m : Machine) (w : σ) : Option (Machine × σ) :=
  let m := m.interruptAll (e.requests w m.next)
  match m.next with
  | .look s _ => (m.act (.look (e.look w (folderOf m.root s)))).map fun m => (m, w)
  | .launch s _ => match e.hindrance w s (folderOf m.root s) with
    | some why => (m.act (.refuse why)).map fun m => (m, e.refused w)
    | none => (m.act .own).map fun m => (m, w)
  | .await s _ => do
    let (code, output, w) := e.perform w s (folderOf m.root s) m.signals
    let m ← m.act (.exit code output)
    let m ← m.act .own
    return (m, w)
  | _ => (m.act .own).map fun m => (m, w)

/-- Moves until none can be made, at most `fuel`. -/
def Surroundings.drive (e : Surroundings σ) : Nat → Machine → σ → Machine × σ
  | 0, m, w => (m, w)
  | fuel + 1, m, w => match e.move m w with
    | some (m, w) => e.drive fuel m w
    | none => (m, w)

/-- Run to the end. No step takes more than eight moves. -/
def Surroundings.run (e : Surroundings σ) (m : Machine) (w : σ) : Machine × σ :=
  e.drive (8 * m.subject.steps.length + 4) m w

end MergeGate.Executor
