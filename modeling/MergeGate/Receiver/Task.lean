/-
A report that is being taken, step by step. It reads the row of its run, writes, marks the run as
published and, if nobody had done so, puts it on the queue. Steps of other requests may come between
any two of these.
-/
import MergeGate.Receiver.Store

namespace MergeGate.Receiver

/-- What a request does next, or how it has ended. -/
inductive Task where
  | read
  | write (w : Write)
  | mark (created : Bool)
  | push (created : Bool)
  | accepted (a : Accepted)
  | refused (r : Refusal)

namespace Task

/-- The next step of a request with the given report. -/
def step (r : StatusReport) (s : Store) : Task → Task × Store
  | read => match Store.decide (s.row? r.runId) r with
    | .error refusal => (refused refusal, s)
    | .ok w => (write w, s)
  | write w => match s.commit w with
    | .error refusal => (refused refusal, s)
    | .ok s => (mark w.creates, s)
  | mark created => match s.mark r.runId with
    | (true, s) => (push created, s)
    | (false, s) => (accepted ⟨r.runId, created, false⟩, s)
  | push created => (accepted ⟨r.runId, created, true⟩, s.push r.runId)
  | ended => (ended, s)

/-- The status code of the answer, once there is one. -/
def code? : Task → Option Nat
  | accepted _ => some 200
  | refused r => some r.code
  | _ => none

/-- Steps with nothing in between. -/
def steps (r : StatusReport) : Nat → Task → Store → Task × Store
  | 0, t, s => (t, s)
  | n + 1, t, s =>
    let (t, s) := t.step r s
    steps r n t s

/-- Without anything in between, four steps take the report. -/
theorem steps_read (r : StatusReport) (s : Store) :
    steps r 4 .read s = match s.post r with
      | .ok (a, s) => (.accepted a, s)
      | .error refusal => (.refused refusal, s) := by
  simp only [steps, step, Store.post, Store.publish, bind, Except.bind, pure, Except.pure]
  cases Store.decide (s.row? r.runId) r with
  | error refusal => rfl
  | ok w =>
    dsimp only
    cases s.commit w with
    | error refusal => rfl
    | ok s =>
      dsimp only
      rcases s.mark r.runId with ⟨first, s⟩
      cases first <;> rfl

end Task

end MergeGate.Receiver
