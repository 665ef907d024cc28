/-
The scheduler's state and its moves. Every instance without a result is pending, ready or running.
An instance becomes ready when all jobs it needs have ended as it asks; it is skipped as blocked as
soon as one of them has ended otherwise. Ready instances start in declaration order, then in matrix
order, as long as a worker is free.
-/
import MergeGate.Console
import MergeGate.Run.Basic

namespace MergeGate.Schedule

/-- Where an instance without a result stands. -/
inductive Phase where
  | pending
  | ready
  | running
  deriving DecidableEq, Repr

/-- The word for a phase. -/
def Phase.word : Phase → String
  | pending => "pending"
  | ready => "ready"
  | running => "running"

/-- What does not change while a run is scheduled. -/
structure Frame where
  graph : JobGraph
  /-- in declaration order, then in matrix order -/
  instances : List Instance
  workers : Nat

/-- What changes while a run is scheduled. -/
structure State where
  phases : Assoc Phase
  run : Run

/-- Does the first instance start before the second, or at the same place? -/
def before (g : JobGraph) (a b : Instance) : Bool :=
  let p := g.order a.job
  let q := g.order b.job
  decide (p < q) || (p == q && decide (a.index ≤ b.index))

/-- Instances in the order in which they start. -/
def inOrder (g : JobGraph) (is : List Instance) : List Instance := is.mergeSort (before g)

/-- The frame of a planned run. -/
def frame (g : JobGraph) (r : Run) (workers : Nat) : Frame := ⟨g, inOrder g r.instances, workers⟩

/-- The first state: every instance without a result is pending. -/
def Frame.start (f : Frame) (r : Run) : State :=
  let waiting := f.instances.filter fun i => (r.result? i.id).isNone
  ⟨.ofPairs (waiting.map fun i => (i.id, .pending)), r⟩

/-- The ids of a job's instances. -/
def Frame.idsOf (f : Frame) (job : String) : List String :=
  (f.instances.filter (·.job == job)).map (·.id)

/-- The results a need looks at: those of all instances of the needed job, or that of the job
itself when it has none. -/
def Frame.needed (f : Frame) (r : Run) (job : String) : List (Option Result) :=
  let ids := f.idsOf job
  if ids.isEmpty then [r.result? job] else ids.map r.result?

/-- What an instance's needs say about it. -/
inductive Readiness where
  | wait
  | ok
  | blocked
  deriving DecidableEq, Repr

/-- What one need says. -/
def Frame.edgeState (f : Frame) (r : Run) (e : Edge) : Readiness :=
  let results := f.needed r e.job
  if results.any Option.isNone then .wait
  else if results.all fun x => (x.map (·.satisfies e.policy)).getD false then .ok
  else .blocked

/-- What the needs say, in their order: the first that is not satisfied decides. -/
def Frame.readiness (f : Frame) (r : Run) : List Edge → Readiness
  | [] => .ok
  | e :: rest => match f.edgeState r e with
    | .ok => f.readiness r rest
    | other => other

/-- What an instance's needs say about it. -/
def Frame.readinessOf (f : Frame) (r : Run) (i : Instance) : Readiness :=
  f.readiness r (f.graph.needsOf i.job)

/-- Record a result: its instance has no phase any more. -/
def State.record (s : State) (x : Result) : Except Run.Fault State := do
  let run ← s.run.record x
  return { phases := s.phases.erase x.instanceId, run }

/-- Give an instance a phase. -/
def State.setPhase (s : State) (id : String) (p : Phase) : State :=
  { s with phases := s.phases.put id p }

/-- What is said about a blocked instance. -/
def blockedNotice (i : Instance) : Notice := .jobSkipped i.id "dependency not satisfied"

/-- What a sweep over the instances did. -/
structure Sweep where
  state : State
  notices : List Notice := []
  /-- was an instance found blocked? -/
  changed : Bool := false

/-- Look at one instance. -/
def Frame.visit (f : Frame) (w : Sweep) (i : Instance) : Except Run.Fault Sweep :=
  if w.state.phases.lookup i.id ≠ some .pending then .ok w
  else match f.readinessOf w.state.run i with
    | .wait => .ok w
    | .ok => .ok { w with state := w.state.setPhase i.id .ready }
    | .blocked => do
      let state ← w.state.record (.skip i Reason.blocked)
      return { state, notices := w.notices ++ [blockedNotice i], changed := true }

/-- Look at instances one after the other. -/
def Frame.sweep (f : Frame) (w : Sweep) : List Instance → Except Run.Fault Sweep
  | [] => .ok w
  | i :: rest => (f.visit w i).bind fun w => f.sweep w rest

/-- Sweep until no instance is found blocked, at most `fuel` times. -/
def Frame.promoteFor (f : Frame) : Nat → State → Except Run.Fault (State × List Notice)
  | 0, s => .ok (s, [])
  | fuel + 1, s => do
    let w ← f.sweep { state := s } f.instances
    if w.changed then
      let (s, more) ← f.promoteFor fuel w.state
      return (s, w.notices ++ more)
    else return (w.state, w.notices)

/-- Make instances ready or blocked as far as the results say. Each sweep but the last takes a phase
away, so one more sweep than there are phases is enough. -/
def Frame.promote (f : Frame) (s : State) : Except Run.Fault (State × List Notice) :=
  f.promoteFor (s.phases.length + 1) s

/-- Start one instance. -/
def State.dispatch (s : State) (i : Instance) : State :=
  { phases := s.phases.put i.id .running
    run := { s.run with dispatched := s.run.dispatched ++ [i.id] } }

/-- Choose the instances that start now: ready ones in order, while fewer than all workers are
busy. -/
def Frame.choose (f : Frame) (s : State) (busy : Nat) : List Instance → State × List Instance
  | [] => (s, [])
  | i :: rest =>
    if f.workers ≤ busy then (s, [])
    else if s.phases.lookup i.id = some .ready then
      let (s, more) := f.choose (s.dispatch i) (busy + 1) rest
      (s, i :: more)
    else f.choose s busy rest

/-- Skip everything that has not started, because the run is cancelled. -/
def State.skipWaiting (s : State) : List Instance → Except Run.Fault State
  | [] => .ok s
  | i :: rest =>
    match s.phases.lookup i.id with
    | some .pending | some .ready =>
      (s.record (.skip i Reason.cancelled)).bind fun s => s.skipWaiting rest
    | _ => s.skipWaiting rest

end MergeGate.Schedule
