/-
Steps run by the shell, with the variables of the surroundings, the instance and the step. Requests
to stop may be planned: before the process of a step is started, while it runs, or when it has ended
and is still registered. Steps are counted over all runs.
-/
import MergeGate.Executor.Basic
import MergeGate.Schedule.Execute
import MergeGate.Shell.Run

namespace MergeGate.Executor

open Shell (Signal)

/-- The moment of a planned request. -/
inductive Moment where
  | launch
  | wait
  | exit
  deriving DecidableEq, Repr

/-- A planned request to stop. -/
structure Hook where
  moment : Moment
  step : Nat
  signal : Signal
  deriving DecidableEq, Repr

/-- Where steps run. -/
structure Ground where
  folder : Folder
  env : Assoc String := []
  hooks : List Hook := []
  /-- the number of processes that have run -/
  launched : Nat := 0

/-- The requests planned for a moment of the process with the given number. -/
def Ground.planned (g : Ground) (moment : Moment) (step : Nat) : List Signal :=
  (g.hooks.filter fun h => h.moment == moment && h.step == step).map (·.signal)

/-- The requests that come before the next move. -/
def Ground.requests (g : Ground) : Next → List Signal
  | .launch .. => g.planned .launch g.launched
  | .await .. => g.planned .wait g.launched
  | .unregister _ => g.planned .exit (g.launched - 1)
  | _ => []

/-- Does a null character stand in a text? -/
def hasNull (s : String) : Bool := s.toList.contains (Char.ofNat 0)

/-- Look for a folder. -/
def Ground.look (g : Ground) (p : Place) : Look :=
  if p.any hasNull then .unusable .null
  else match g.folder.walk (p.take 1) (p.drop 1) with
  | .error .denied => .unusable (.denied p)
  | reached =>
    if reached.toOption.isNone && p.any fun n => Folder.maxName < n.utf8ByteSize then
      .unusable (.longName p)
    else if (g.folder.find? p).isSome then .there
    else .missing

/-- Variables as texts. -/
def variableTexts (env : Assoc Value) : Assoc String := env.map fun v => (v.1, v.2.plain)

/-- The variables of a step's process. -/
def Ground.variables (g : Ground) (env : Assoc Value) (s : Step) : Assoc String :=
  Assoc.putAll (Assoc.putAll g.env (variableTexts env)) (variableTexts s.env)

/-- The number of bytes that a text handed to a process must stay below. -/
def maxHanded : Nat := 131072

/-- Why no process can be started for a step. The names of variables are looked at first. -/
def Ground.hindrance (env : Assoc Value) (g : Ground) (s : Step) (p : Place) : Option Breakage :=
  let vs := g.variables env s
  let command := s.run.getD ""
  if vs.any fun v => v.1.toList.contains '=' then some .variableName
  else if hasNull command || vs.any fun v => hasNull v.1 || hasNull v.2 then some .null
  else match g.folder.find? p with
    | some (.file _) => some (.notFolder p)
    | _ =>
      if g.folder.bars p then some (.denied p)
      else if maxHanded ≤ command.utf8ByteSize ||
          vs.any fun v => maxHanded ≤ v.1.utf8ByteSize + 1 + v.2.utf8ByteSize then some .tooLong
      else none

/-- Run the process of a step. Its output is text whose line ends are all alike. -/
def Ground.perform (env : Assoc Value) (g : Ground) (s : Step) (p : Place) (signals : List Signal) :
    Int × Except Text.Undecodable String × Ground :=
  let e := Shell.perform g.folder p (g.variables env s) signals (s.run.getD "")
  (e.code, (Text.decode e.output).map fun cs => String.ofList (Text.unifyLineFeeds cs),
    { g with folder := e.folder, launched := g.launched + 1 })

/-- The surroundings of an instance's run. -/
def surroundings (i : Instance) : Surroundings Ground where
  requests := Ground.requests
  look := Ground.look
  hindrance := Ground.hindrance i.env
  refused g := { g with launched := g.launched + 1 }
  perform := Ground.perform i.env

/-- How many characters of output are kept unless another number is asked for. -/
def defaultKeep : Int := 4000

/-- Run an instance; `stop` is the flag as earlier requests left it. -/
def runInstance (root : Place) (keep : Int) (stop : Bool) (i : Instance) (g : Ground) :
    Machine × Ground :=
  (surroundings i).run (.start i root keep stop) g

/-- What is done with an instance. -/
inductive Action where
  | run
  /-- ask it to stop while it does not run -/
  | stop
  deriving DecidableEq, Repr

/-- What came of actions: a result for each run, or why it broke off. -/
structure Session where
  results : List (Except Breakage Result) := []
  notices : List Notice := []
  ground : Ground

/-- How a run ended. -/
def Machine.outcome (m : Machine) : Except Breakage Result :=
  match m.next with
  | .broken why => .error why
  | _ => .ok ((m.result? 0.0).getD (.broken m.subject 0.0 ""))

/-- Do actions with an instance one after the other; `stop` is the flag as earlier ones left it. -/
def Session.act (root : Place) (keep : Int) (i : Instance) (stop : Bool) (s : Session) :
    List Action → Session
  | [] => s
  | .run :: rest =>
    let (m, ground) := runInstance root keep stop i s.ground
    Session.act root keep i m.stop
      { results := s.results ++ [m.outcome], notices := s.notices ++ m.notices, ground } rest
  | .stop :: rest => s.act root keep i true rest

/-- Do the same actions with every instance in turn. -/
def session (root : Place) (keep : Int) (actions : List Action) (g : Ground) (is : List Instance) :
    Session :=
  is.foldl (fun s i => s.act root keep i false actions) { ground := g }

/-- What the scheduler sees of the shell: instances run as soon as they start, and wait for the
scheduler to take their results. -/
structure Bench where
  ground : Ground
  root : Place
  finished : Schedule.Ended := []

/-- Start an instance. -/
def Bench.start (b : Bench) (i : Instance) : Bench × List Notice :=
  let (m, ground) := runInstance b.root defaultKeep false i b.ground
  let result := match m.outcome with
    | .error why => Result.broken i 0.0 (why.kind ++ ": " ++ why.message)
    | .ok r => r
  ({ b with ground, finished := b.finished ++ [(i, result)] }, m.notices)

/-- Take the results of the instances in flight. -/
def Bench.take (b : Bench) (flight : List Instance) : Bench × Schedule.Ended :=
  let inFlight (e : Instance × Result) : Bool := flight.any (·.id == e.1.id)
  ({ b with finished := b.finished.filter fun e => !inFlight e }, b.finished.filter inFlight)

/-- The shell as a world of the scheduler, with the grace period of its instances. Nobody cancels the
run. -/
def world (patience : Float) : Schedule.World Bench where
  start := Bench.start
  wait b _ flight := b.take flight
  cancelled _ := false
  stop b _ := b
  finished b i := b.finished.any (·.1.id == i.id)
  patience
  grace b _ flight := b.take flight
  kill b _ := b
  elapsed _ _ := 0.0

/-- Execute a planned run through the shell. Every turn ends an instance. -/
def execute (g : JobGraph) (r : Run) (workers : Nat) (patience : Float) (b : Bench) : Schedule.Machine Bench :=
  let f := Schedule.frame g r workers
  (world patience).execute f (f.instances.length + 2) r b

end MergeGate.Executor
