/-
Rehearsals: a run against a scripted world with a clock that counts ticks. The script says for each
instance, or for its whole job, how long it takes, how it ends and how it takes being stopped. Time
passes only while the scheduler waits.
-/
import MergeGate.Schedule.Execute

namespace MergeGate.Schedule.Rehearsal

/-- How an instance takes being stopped. -/
inductive OnStop where
  /-- it goes on -/
  | ignore
  /-- it ends after some ticks with a code, unless it would have ended by then anyway -/
  | ends (ticks : Int) (code : Option Int)

/-- How an instance goes. -/
structure Script where
  code : Option Int := some 0
  ticks : Int := 1
  tail : String := ""
  reason : Option String := some Reason.exit
  /-- the text of the failure, if the instance cannot be run -/
  breaks : Option String := none
  onStop : OnStop := .ends 0 (some 143)

/-- An instance in flight. -/
structure Task where
  id : String
  started : Int
  due : Int
  code : Option Int
  script : Script

/-- What is kept for the record. -/
inductive Entry where
  | start (now : Int) (id : String)
  | wait (now : Int) (phases : Assoc Phase)
  | cancel (now : Int) (id : String)
  | kill (now : Int) (id : String)

/-- The scripted world at one moment. -/
structure Stage where
  scripts : Assoc Script
  poll : Int
  grace : Int
  /-- the tick from which on the run is cancelled -/
  cancelAt : Option Int
  now : Int := 0
  cancelled : Bool := false
  tasks : List Task := []
  record : List Entry := []

namespace Stage

/-- The script of an instance: its own, or its job's, or the plain one. -/
def scriptOf (s : Stage) (i : Instance) : Script :=
  ((s.scripts.lookup i.id).or (s.scripts.lookup i.job)).getD {}

/-- The task of an instance in flight. -/
def task? (s : Stage) (i : Instance) : Option Task := s.tasks.find? (·.id == i.id)

/-- Start an instance. -/
def start (s : Stage) (i : Instance) : Stage × List Notice :=
  let script := s.scriptOf i
  let task : Task := ⟨i.id, s.now, s.now + script.ticks, script.code, script⟩
  ({ s with tasks := s.tasks ++ [task], record := s.record ++ [.start s.now i.id] }, [])

/-- The result of an instance whose task is due. -/
def result (now : Int) (i : Instance) (t : Task) : Result :=
  let duration := Float.ofInt (now - t.started)
  match t.script.breaks with
  | some message => .broken i duration message
  | none => .ofExit i t.code duration t.script.tail t.script.reason

/-- Let time pass up to a target, but no longer than `limit`; what is due by then has ended. -/
def pass (s : Stage) (phases : Assoc Phase) (flight : List Instance) (target limit : Int) :
    Stage × Ended :=
  let now := min target (s.now + limit)
  let ended := flight.filterMap fun i => match s.task? i with
    | some t => if t.due ≤ now then some (i, result now i t) else none
    | none => none
  let cancelled := s.cancelled || (s.cancelAt.map fun tick => decide (tick ≤ now)).getD false
  ({ s with
      now, cancelled
      tasks := s.tasks.filter fun t => !(ended.any fun e => e.1.id == t.id)
      record := s.record ++ [.wait s.now phases.sortByKey] }, ended)

/-- The due times of the instances in flight. -/
def dues (s : Stage) (flight : List Instance) : List Int :=
  flight.filterMap fun i => (s.task? i).map (·.due)

/-- The least of the given numbers, or `d` when there are none. -/
def least (d : Int) : List Int → Int
  | [] => d
  | x :: rest => rest.foldl min x

/-- The greatest of the given numbers, or `d` when there are none. -/
def greatest (d : Int) : List Int → Int
  | [] => d
  | x :: rest => rest.foldl max x

/-- Wait until the first instance is due. -/
def wait (s : Stage) (phases : Assoc Phase) (flight : List Instance) : Stage × Ended :=
  s.pass phases flight (least s.now (s.dues flight)) s.poll

/-- Wait until the last instance is due. -/
def waitAll (s : Stage) (phases : Assoc Phase) (flight : List Instance) : Stage × Ended :=
  s.pass phases flight (greatest s.now (s.dues flight)) s.grace

/-- A task that is asked to stop. -/
def Task.stop (now : Int) (t : Task) : Task :=
  match t.script.onStop with
  | .ignore => t
  | .ends ticks code => if now + ticks < t.due then { t with due := now + ticks, code } else t

/-- Ask an instance to stop. -/
def stop (s : Stage) (i : Instance) : Stage :=
  { s with
    tasks := s.tasks.map fun t => if t.id = i.id then Task.stop s.now t else t
    record := s.record ++ [.cancel s.now i.id] }

/-- Stopping by force only leaves a trace. -/
def kill (s : Stage) (i : Instance) : Stage :=
  { s with record := s.record ++ [.kill s.now i.id] }

/-- Time since an instance was started. -/
def elapsed (s : Stage) (i : Instance) : Float :=
  match s.task? i with
  | some t => Float.ofInt (s.now - t.started)
  | none => 0.0

/-- Has an instance ended? One that is in flight and due is reported at the next wait. -/
def finished (s : Stage) (i : Instance) : Bool := (s.task? i).all fun t => decide (t.due ≤ s.now)

end Stage

/-- The scripted world. Its clock counts ticks, and can wait for any number of them. -/
def world : World Stage where
  start := Stage.start
  wait := Stage.wait
  cancelled := Stage.cancelled
  stop := Stage.stop
  finished := Stage.finished
  patience := 0.0
  grace := Stage.waitAll
  kill := Stage.kill
  elapsed := Stage.elapsed

/-- Enough turns: each ends an instance or lets a tick pass, and only the end of an instance that
was due before it began turns the clock back. -/
def turns (s : Stage) (f : Frame) : Nat :=
  f.instances.foldl (fun n i => n + (2 * (s.scriptOf i).ticks.natAbs + 1)) 2

/-- Rehearse a planned run. -/
def rehearse (g : JobGraph) (r : Run) (workers : Nat) (s : Stage) : Machine Stage :=
  let f := frame g r workers
  world.execute f (turns s f) r s

end MergeGate.Schedule.Rehearsal
