/-
The program: what it does for a command line, and the status with which it ends. The status is the
gate: zero if the run succeeded and everyone was told, two if there was nothing to run because the
settings, the workflow or the trigger were refused, and one in every other case; unless the script of
the workflow ends the program itself. What goes wrong in a run is told; what goes wrong before is not
foreseen, and ends the program.
-/
import MergeGate.Checkout
import MergeGate.CommandLine.Discovery
import MergeGate.CommandLine.Invocation
import MergeGate.Delivery.Reporter
import MergeGate.Executor.Shell
import MergeGate.Plan
import MergeGate.Settings
import MergeGate.WorkflowFile

namespace MergeGate.CommandLine

/-- A run that was executed. -/
structure Execution where
  run : Run
  folder : Folder
  notices : List Notice
  fault : Option Schedule.Fault := none

/-- What surrounds the program. -/
structure Surroundings where
  folder : Folder
  env : Assoc String := []
  /-- what loading a workflow file has to be told -/
  readers : WorkflowFile.Readers := {}
  git : Checkout.Program
  /-- what the status receiver answers -/
  answers : Nat → Delivery.Answer
  processors : Option Int
  runId : String
  /-- executes a planned run with the given number of workers and grace period -/
  execute : JobGraph → Run → Nat → Float → Execution

/-- Execute a planned run through the shell. -/
def executeByShell (f : Folder) (env : Assoc String) (g : JobGraph) (r : Run) (workers : Nat)
    (grace : Float) : Execution :=
  let m := Executor.execute g r workers grace { ground := { folder := f, env }, root := f.home }
  { run := m.state.run, folder := m.world.ground.folder, notices := m.notices, fault := m.fault }

/-- How a command ends. -/
inductive Ending where
  /-- all went well -/
  | passed
  /-- the gate stays closed -/
  | closed
  /-- the settings, the workflow or the trigger were refused -/
  | refused
  /-- the gate could not be reported -/
  | unreported
  /-- something went wrong in a run -/
  | broken
  /-- something went wrong that nobody foresaw -/
  | uncaught (why : Incident)
  /-- the script of the workflow ended the program, and said something before -/
  | left (status : UInt8) (words : String)
  deriving DecidableEq, Repr

/-- The status with which the program ends. -/
def Ending.exitCode : Ending → Nat
  | passed => 0
  | refused => 2
  | closed | unreported | broken | uncaught _ => 1
  | left status _ => status.toNat

/-- What nobody foresaw. -/
def Ending.incident? : Ending → Option Incident
  | uncaught why => some why
  | _ => none

/-- What a script says before it ends the program. -/
def Ending.lastWords : Ending → String
  | left _ words => words
  | _ => ""

/-- What a command has done. -/
structure Outcome where
  ending : Ending
  notices : List Notice := []
  folder : Folder
  calls : List Checkout.Call := []
  requests : List Delivery.Request := []
  pauses : List Delivery.Seconds := []
  /-- the run, once it was executed -/
  run : Option Run := none

/-- What is said about a workflow that is rejected. -/
def rejectionNotice (path : Path) (r : Rejection) : Notice :=
  .error "Invalid workflow" (path.text ++ " was rejected before any job ran.") (Text.lines r.text) none

/-- How the command ends if the workflow file cannot be loaded. -/
def unloaded (path : Path) : WorkflowFile.Fault → Ending × List Notice
  | .exit status words => (.left status words, [])
  | .document (.rejected r) =>
    if r.cause.isIncident then (.uncaught ⟨r.cause.kind, r.text⟩, [])
    else (.refused, [rejectionNotice path r])
  | fault => (.uncaught ⟨fault.kind, fault.message⟩, [])

/-- Load the workflow file that is meant; how the command ends if that fails. -/
def load (s : Surroundings) (named : Option String) :
    Except (Ending × List Notice) (Path × JobGraph) :=
  match discover s.folder named with
  | .error (.complaint notice) => .error (.refused, [notice])
  | .error (.obstacle fault path) => .error (.uncaught ⟨fault.kind, fault.message path.text⟩, [])
  | .ok path =>
    match WorkflowFile.loadGraph s.folder s.readers path with
    | .ok g => .ok (path, g)
    | .error fault => .error (unloaded path fault)

/-- A trigger, or how the command ends without one; what was said and asked on the way. -/
structure Triggering where
  trigger : Except Ending Trigger
  notices : List Notice := []
  calls : List Checkout.Call := []

/-- The complaint that no ref is known. -/
def noRef : Notice :=
  .error "Could not determine git ref"
    "No --ref given and the current directory is not a usable git checkout." []
    (some "Specify the trigger explicitly:\n  gateci run --event push --ref refs/heads/main")

/-- The trigger that the words name; without a ref, that of the checkout. -/
def triggering (s : Surroundings) (w : TriggerWords) : Triggering :=
  match w.ref.filter (· != "") with
  | some ref => { trigger := .ok (.ofRef w.event ref w.branch) }
  | none =>
    let a := Checkout.ref s.git none
    match a.result with
    | .ok ref =>
      { trigger := .ok (.ofRef w.event ref w.branch)
        notices := [.debug ("Using git ref: " ++ ref)], calls := a.calls }
    | .error fault => match fault.incident? with
      | some why => { trigger := .error (.uncaught why), calls := a.calls }
      | none => { trigger := .error .refused, notices := [noRef], calls := a.calls }

/-- What is said about a valid workflow. -/
def validNotices (path : Path) (g : JobGraph) : List Notice :=
  .info (path.text ++ ": OK (" ++ toString g.jobs.length ++ " jobs)") ::
    g.levels.mapIdx fun i level =>
      .info ("  stage " ++ toString (i + 1) ++ ": " ++ ", ".intercalate level)

/-- Check a workflow. -/
def validate (s : Surroundings) (named : Option String) : Outcome :=
  match load s named with
  | .error (ending, notices) => { ending, notices, folder := s.folder }
  | .ok (path, g) => { ending := .passed, notices := validNotices path g, folder := s.folder }

/-- The list of planned instances. -/
def planNotices (r : Run) : List Notice :=
  if r.instances.isEmpty then [.info "  (nothing to run)"]
  else r.instances.map fun i => .info ("  " ++ i.id)

/-- Show what a trigger would run. -/
def plan (s : Surroundings) (named : Option String) (w : TriggerWords) : Outcome :=
  match load s named with
  | .error (ending, notices) => { ending, notices, folder := s.folder }
  | .ok (_, g) =>
    let t := triggering s w
    match t.trigger with
    | .error ending => { ending, notices := t.notices, folder := s.folder, calls := t.calls }
    | .ok trigger =>
      let header := t.notices ++ [.header ("PLAN for " ++ trigger.event.name ++ " " ++ trigger.ref)]
      match Plan.plan g trigger s.runId with
      | .error fault =>
        { ending := .uncaught ⟨fault.kind, fault.message⟩
          notices := header ++ Plan.saidBefore g trigger s.runId, folder := s.folder, calls := t.calls }
      | .ok (r, notices) =>
        { ending := .passed, notices := header ++ notices ++ planNotices r, folder := s.folder
          calls := t.calls }

/-- What limits a run. -/
structure Limits where
  workers : Option Int
  grace : Float
  retries : Int

/-- The limits of a run: those given on the command line, or else those of the settings. -/
def Limits.of (settings : Settings) (w : RunWords) : Limits :=
  { workers := w.workers.or settings.maxWorkers
    grace := w.grace.getD settings.cancelGrace
    retries := w.retries.getD settings.reportRetries }

/-- The first text if it is not empty, else the second. -/
def preferred (first second : Option String) : Option String := (first.filter (· != "")).or second

/-- The reporters of a run: the terminal, and the file and the receiver that were asked for. -/
def reporters (s : Surroundings) (settings : Settings) (w : RunWords) (r : Run) :
    List (Delivery.Reporter Delivery.Site) :=
  Delivery.toConsole r ::
    ((preferred w.statusFile settings.statusFile).map fun path =>
      Delivery.toFile r (.ofText path)).toList ++
    ((preferred w.statusUrl settings.statusUrl).map fun url =>
      Delivery.toReceiver r url Delivery.defaultTimeout s.answers).toList

/-- What is said when a run starts. -/
def startNotice (path : Path) (g : JobGraph) (t : Trigger) : Notice :=
  .runStarted (g.workflow.name ++ " (" ++ path.name ++ ")") t.event.name t.branch t.ref g.jobs.length

/-- What is said when the gate could not be reported. -/
def unreportedNotice (f : Delivery.Failure) : Notice :=
  .error "Gate status could not be reported" f.text []
    (some "The run itself completed; re-reporting is safe once the receiver is reachable.")

/-- Report a run that was executed. -/
def report (s : Surroundings) (settings : Settings) (w : RunWords) (limits : Limits)
    (e : Execution) (gate : GateReport) : Outcome :=
  let site : Delivery.Site := { folder := e.folder }
  let d := Delivery.deliver limits.retries Delivery.defaultBackoff site (reporters s settings w e.run)
  let told := d.world.notices ++ d.notices
  let (ending, last) := match d.verdict with
    | .delivered =>
      (if gate.passed then Ending.passed else .closed, [Notice.info ("Run ID: " ++ e.run.id)])
    | .failed f => (.unreported, [unreportedNotice f])
    | .broken f => (.broken, [.failure f.kind f.message])
  { ending, notices := e.notices ++ told ++ last, folder := d.world.folder
    requests := d.world.requests, pauses := d.pauses, run := some e.run }

/-- Plan and execute a run, and report its gate. -/
def runPlanned (s : Surroundings) (settings : Settings) (w : RunWords) (g : JobGraph) (t : Trigger) :
    Outcome :=
  let broken (o : Outcome) (kind message : String) : Outcome :=
    { o with notices := o.notices ++ [.failure kind message] }
  let unstarted (notices : List Notice) : Outcome := { ending := .broken, notices, folder := s.folder }
  match Plan.plan g t s.runId with
  | .error fault => broken (unstarted (Plan.saidBefore g t s.runId)) fault.kind fault.message
  | .ok (r, planned) =>
    let limits := Limits.of settings w
    match Schedule.workers? limits.workers s.processors with
    | none => broken (unstarted planned) Schedule.workersKind Schedule.workersMessage
    | some workers =>
      let e := s.execute g r workers limits.grace
      let e := { e with notices := planned ++ e.notices }
      let stopped : Outcome :=
        { ending := .broken, notices := e.notices, folder := e.folder, run := some e.run }
      match e.fault with
      | some fault => broken stopped fault.kind fault.message
      | none =>
        match e.run.gateReport with
        | .error fault => broken stopped fault.kind fault.message
        | .ok (gate, r) => report s settings w limits { e with run := r } gate

/-- Run a workflow for a trigger. -/
def run (s : Surroundings) (named : Option String) (w : TriggerWords) (limits : RunWords) : Outcome :=
  match Settings.ofEnv s.env with
  | .error r =>
    { ending := .refused, notices := [.error "Invalid settings" r.text [] none], folder := s.folder }
  | .ok settings =>
    match load s named with
    | .error (ending, notices) => { ending, notices, folder := s.folder }
    | .ok (path, g) =>
      let t := triggering s w
      match t.trigger with
      | .error ending => { ending, notices := t.notices, folder := s.folder, calls := t.calls }
      | .ok trigger =>
        let o := runPlanned s settings limits g trigger
        { o with notices := t.notices ++ startNotice path g trigger :: o.notices, calls := t.calls }

/-- Do what the program is asked to do. -/
def perform (s : Surroundings) : Action → Outcome
  | .validate named => validate s named
  | .plan named w => plan s named w
  | .run named w limits => run s named w limits

/-- What the program leaves behind. -/
structure Exit where
  code : Nat
  out : String := ""
  err : String := ""
  /-- what nobody foresaw, if that is how it ends -/
  incident : Option Incident := none
  folder : Folder
  calls : List Checkout.Call := []
  requests : List Delivery.Request := []
  pauses : List Delivery.Seconds := []

/-- The whole program, from its words to its end. -/
def Exit.ofWords (s : Surroundings) (words : List String) : Exit :=
  match Invocation.ofWords s.folder s.env words with
  | .error reply =>
    let written (stream : Stream) : String := if reply.stream = stream then reply.text else ""
    { code := reply.exitCode, out := written .out, err := written .err, folder := s.folder }
  | .ok invocation =>
    let o := perform s invocation.action
    { code := o.ending.exitCode
      out := invocation.console.written .out o.notices
      err := invocation.console.written .err o.notices ++ o.ending.lastWords
      incident := o.ending.incident?
      folder := o.folder, calls := o.calls, requests := o.requests, pauses := o.pauses }

end MergeGate.CommandLine
