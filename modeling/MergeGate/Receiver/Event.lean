/-
What happens at the receiver while a request is taken: other requests take steps, and marks get too
old. A request that comes with a body is answered with a status code.
-/
import MergeGate.Receiver.Task

namespace MergeGate.Receiver

/-- Something else that happens at the receiver. -/
inductive Event where
  /-- another request takes a step -/
  | step (r : StatusReport) (t : Task)
  /-- the mark of a run gets too old -/
  | expire (runId : String)

namespace Event

/-- The run that an event is about. -/
def runId : Event → String
  | step _ (.write w) => w.row.runId
  | step r _ => r.runId
  | expire runId => runId

/-- The store after an event. -/
def after (s : Store) : Event → Store
  | step r t => (t.step r s).2
  | expire runId => s.expire runId

end Event

namespace Store

/-- The store after some events. -/
def afterAll (s : Store) (events : List Event) : Store := events.foldl Event.after s

/-- A request takes so many steps; `events n` happen before the step that leaves it `n` more. -/
def among (events : Nat → List Event) (r : StatusReport) : Nat → Task → Store → Task × Store
  | 0, t, s => (t, s)
  | n + 1, t, s =>
    let (t, s) := t.step r (s.afterAll (events n))
    among events r n t s

/-- Answer a request with the given body: the status code. -/
def answer (decode : String → Option Value) (events : Nat → List Event) (body : String) (s : Store) :
    Nat × Store :=
  match (decode body).map report with
  | some (.ok r) =>
    let (t, s) := s.among events r 4 .read
    (t.code?.getD 500, s)
  | _ => (422, s)

end Store

end MergeGate.Receiver
