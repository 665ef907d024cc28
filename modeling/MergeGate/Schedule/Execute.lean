/-
The scheduler's loop against a world that runs instances. The world starts an instance, lets time
pass until some instance in flight has ended or a while has gone by, and stops instances when the
run is cancelled. Everything the scheduler decides is decided here, whatever the world does.
-/
import MergeGate.Schedule.Basic

namespace MergeGate.Schedule

/-- Instances that ended, each with its result. -/
abbrev Ended := List (Instance × Result)

/-- What runs the instances. -/
structure World (σ : Type) where
  /-- start an instance -/
  start : σ → Instance → σ × List Notice
  /-- wait for the instances in flight; the phases are shown for the record -/
  wait : σ → Assoc Phase → List Instance → σ × Ended
  /-- has the run been cancelled? -/
  cancelled : σ → Bool
  /-- ask an instance to stop -/
  stop : σ → Instance → σ
  /-- has an instance that was started ended? -/
  finished : σ → Instance → Bool
  /-- the grace period of stopped instances, in seconds -/
  patience : Float
  /-- wait for stopped instances, no longer than the grace period -/
  grace : σ → Assoc Phase → List Instance → σ × Ended
  /-- stop an instance by force -/
  kill : σ → Instance → σ
  /-- time since an instance was started -/
  elapsed : σ → Instance → Float

/-- Why scheduling ends without a complete run. -/
inductive Fault where
  | run (fault : Run.Fault)
  | unresolved (ids : List String)
  /-- the grace period is longer than anything can be waited for -/
  | graceTooLong
  | outOfTurns

/-- The kind of the fault. -/
def Fault.kind : Fault → String
  | run fault => fault.kind
  | graceTooLong => "OverflowError"
  | unresolved _ | outOfTurns => "RuntimeError"

/-- What went wrong, in words. -/
def Fault.message : Fault → String
  | run fault => fault.message
  | unresolved ids => "Scheduler stopped with unresolved instances: " ++ Text.quotedList ids
  | graceTooLong => "timestamp out of range for platform time_t"
  | outOfTurns => "Scheduler ran out of turns"

/-- Is a period too long to be waited for? It is counted in nanoseconds, in a signed word. A period that is
not above zero, not-a-number among them, is not waited for at all. -/
def isTooLong (seconds : Float) : Bool := (9223372036854775808.0 : Float) ≤ seconds * 1000000000.0

theorem isTooLong_zero : isTooLong 0.0 = false := by decide

/-- The scheduler together with the world. -/
structure Machine (σ : Type) where
  state : State
  /-- the running instances in the order of their start -/
  flight : List Instance := []
  world : σ
  notices : List Notice := []
  fault : Option Fault := none

variable {σ : Type}

/-- Say something. -/
def Machine.tell (m : Machine σ) (ns : List Notice) : Machine σ :=
  { m with notices := m.notices ++ ns }

/-- Break off. -/
def Machine.fail (m : Machine σ) (fault : Fault) : Machine σ := { m with fault := some fault }

/-- Start instances one after the other. -/
def World.startAll (w : World σ) (m : Machine σ) : List Instance → Machine σ
  | [] => m
  | i :: rest =>
    let (world, ns) := w.start m.world i
    w.startAll
      { m with world, flight := m.flight ++ [i], notices := m.notices ++ .jobStart i.id :: ns } rest

/-- Ended instances in the order of their start. -/
def Frame.endedInOrder (f : Frame) (es : Ended) : Ended :=
  es.mergeSort fun a b => before f.graph a.1 b.1

/-- Record the results of ended instances. -/
def Machine.finishAll (m : Machine σ) : Ended → Machine σ
  | [] => m
  | (i, x) :: rest =>
    match m.state.record x with
    | .error fault => m.fail (.run fault)
    | .ok state =>
      Machine.finishAll
        { m with
          state
          flight := m.flight.filter (·.id ≠ i.id)
          notices := m.notices ++ [.jobResult x] } rest

/-- Ask the running instances to stop. -/
def World.stopAll (w : World σ) (m : Machine σ) : List Instance → Machine σ
  | [] => m
  | i :: rest =>
    w.stopAll
      { m with
        world := w.stop m.world i
        notices := m.notices ++ [.info ("[" ++ i.id ++ "] cancellation requested")] } rest

/-- Kill instances that did not stop in time, each measured at the same moment. -/
def World.killAll (w : World σ) (m : Machine σ) : List Instance → Machine σ
  | [] => m
  | i :: rest =>
    let x := Result.timedOut i (w.elapsed m.world i)
    let m := { m with world := w.kill m.world i }
    match m.state.record x with
    | .error fault => m.fail (.run fault)
    | .ok state => w.killAll { m with state, notices := m.notices ++ [.jobResult x] } rest

/-- Something in flight has not ended, and the grace period is too long to wait for it. -/
def World.cannotWait (w : World σ) (m : Machine σ) : Bool :=
  isTooLong w.patience && m.flight.any fun i => !w.finished m.world i

/-- End a cancelled run: what waits is skipped, what runs is stopped, and what does not stop in time
is killed. -/
def World.cancelAll (w : World σ) (f : Frame) (m : Machine σ) : Machine σ :=
  let state := { m.state with run := { m.state.run with cancelled := true } }
  match state.skipWaiting f.instances with
  | .error fault => m.fail (.run fault)
  | .ok state =>
    let m := { m with state }
    if m.flight.isEmpty then m
    else
      let m := w.stopAll m m.flight
      if w.cannotWait m then m.fail .graceTooLong
      else
        let (world, ended) := w.grace m.world m.state.phases m.flight
        let stopped := f.endedInOrder (ended.map fun e => (e.1, e.2.stopped))
        let hung := inOrder f.graph (m.flight.filter fun i => !(ended.any fun e => e.1.id == i.id))
        let m := Machine.finishAll { m with world } stopped
        if m.fault.isSome then m else { w.killAll m hung with flight := [] }

/-- How one turn of the loop ends. -/
inductive Turn (σ : Type) where
  | again (m : Machine σ)
  | finished (m : Machine σ)

/-- One turn: cancel if asked to; else make ready, start, and wait for what is running. -/
def World.turn (w : World σ) (f : Frame) (m : Machine σ) : Turn σ :=
  if w.cancelled m.world then .finished (w.cancelAll f m)
  else match f.promote m.state with
    | .error fault => .finished (m.fail (.run fault))
    | .ok (state, ns) =>
      let (state, chosen) := f.choose state m.flight.length f.instances
      let m := w.startAll ({ m with state }.tell ns) chosen
      if m.flight.isEmpty then .finished m
      else
        let (world, ended) := w.wait m.world m.state.phases m.flight
        let m := Machine.finishAll { m with world } (f.endedInOrder ended)
        if m.fault.isSome then .finished m else .again m

/-- Turns until the loop ends, at most `fuel`. -/
def World.loop (w : World σ) (f : Frame) : Nat → Machine σ → Machine σ
  | 0, m => m.fail .outOfTurns
  | fuel + 1, m => match w.turn f m with
    | .finished m => m
    | .again m => w.loop f fuel m

/-- Execute a planned run: the loop, and then no instance may be left without a result. -/
def World.execute (w : World σ) (f : Frame) (fuel : Nat) (r : Run) (world : σ) : Machine σ :=
  let m := w.loop f fuel { state := f.start r, world }
  if m.fault.isSome || m.state.phases.isEmpty then m
  else m.fail (.unresolved (Text.sorted m.state.phases.keys))

/-- The number of workers when none is asked for: one less than there are processors, which count
as two when their number is not known. -/
def defaultWorkers (processors : Option Int) : Int :=
  let c := match processors with
    | none => 2
    | some c => if c = 0 then 2 else c
  max 1 (c - 1)

/-- The number of workers asked for, or the default; fewer than one cannot be asked for. -/
def workers? (asked processors : Option Int) : Option Nat :=
  match asked with
  | some n => if n < 1 then none else some n.toNat
  | none => some (defaultWorkers processors).toNat

/-- The kind of complaint about fewer than one worker. -/
def workersKind : String := "ValueError"

/-- What is said to someone who asks for fewer than one worker. -/
def workersMessage : String := "max_workers must be >= 1"

end MergeGate.Schedule
