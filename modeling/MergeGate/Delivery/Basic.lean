/-
Delivery of a gate report. Reporters are tried in order. One that fails is tried again after a
pause, each pause longer than the one before, until it has used up its retries; then delivery ends
with its last failure. A fault that trying again would not mend ends delivery at once.
-/
import MergeGate.Console
import MergeGate.Delivery.Host
import MergeGate.Folder.Path
import MergeGate.Run.Basic
import MergeGate.Text.Utf8

namespace MergeGate.Delivery

/-- A failure to report that may pass. -/
structure Failure where
  reporter : String
  runId : String
  message : String
  deriving DecidableEq, Repr

/-- A failure as text. -/
def Failure.text (f : Failure) : String :=
  "ReportingFailure: [" ++ f.reporter ++ "] run=" ++ f.runId ++ ": " ++ f.message

/-- A fault that trying again would not mend. -/
inductive Fault where
  /-- the run gives no report -/
  | noReport (fault : Run.Fault)
  /-- the receiver's address does not say how to reach it -/
  | address (url : String)
  /-- the host in the receiver's address is none -/
  | host (flaw : Host.Flaw)
  /-- the path of the status file has a null character in it -/
  | path
  /-- the connection broke while the answer was awaited or read -/
  | lost (message : String)
  /-- the body of the answer is no text -/
  | body (u : Text.Undecodable)
  /-- the reporter does not know how to report -/
  | unable
  deriving DecidableEq, Repr

/-- The kind of the failure, as it is reported. -/
def Fault.kind : Fault → String
  | noReport fault => fault.kind
  | address _ | host _ | path => "ValueError"
  | lost _ => "OSError"
  | body _ => Text.Undecodable.kind
  | unable => "NotImplementedError"

/-- What went wrong, in words. -/
def Fault.message : Fault → String
  | noReport fault => fault.message
  | address url => "unknown url type: " ++ Text.quoted url
  | host flaw => flaw.message
  | path => Path.nullMessage
  | lost message => message
  | body u => u.message
  | unable => ""

/-- How an attempt to report ends. -/
inductive Verdict where
  | delivered
  | failed (failure : Failure)
  | broken (fault : Fault)
  deriving DecidableEq, Repr

/-- A length of time in seconds. -/
inductive Seconds where
  | whole (n : Int)
  | real (x : Float)
  deriving DecidableEq, Repr

/-- So many times as long. -/
def Seconds.times : Seconds → Nat → Seconds
  | whole s, n => .whole (s * n)
  | real s, n => .real (s * Float.ofNat n)

/-- The first pause before a retry, unless another is asked for. -/
def defaultBackoff : Seconds := .real 1.0

/-- A reporter: what its attempts, counted from zero, do to the world and how they end. -/
abbrev Reporter (σ : Type) := Nat → σ → Verdict × σ

/-- What became of one reporter. -/
structure Trial (σ : Type) where
  verdict : Verdict
  /-- the number of attempts -/
  attempts : Nat
  /-- the pauses between them -/
  pauses : List Seconds
  notices : List Notice
  world : σ

variable {σ : Type}

/-- What is said before the retry of the given number. -/
def retryNotice (f : Failure) (number : Nat) (retries : Int) : Notice :=
  .debug (f.text ++ " (retry " ++ toString number ++ "/" ++ toString retries ++ ")")

/-- Try a reporter that was tried `count` times and may be tried again `left` times after this attempt. The
first pause is the backoff, the next twice that, and so on. -/
def attemptFrom (retries : Int) (backoff : Seconds) (r : Reporter σ) (w : σ) (count : Nat) : (left : Nat) → Trial σ
  | 0 =>
    let (verdict, world) := r count w
    { verdict, attempts := count + 1, pauses := [], notices := [], world }
  | left + 1 =>
    let (verdict, world) := r count w
    match verdict with
    | .failed f =>
      let t := attemptFrom retries backoff r world (count + 1) left
      { t with
        pauses := backoff.times (count + 1) :: t.pauses
        notices := retryNotice f (count + 1) retries :: t.notices }
    | verdict => { verdict, attempts := count + 1, pauses := [], notices := [], world }

/-- Try a reporter. -/
def attempt (retries : Int) (backoff : Seconds) (r : Reporter σ) (w : σ) : Trial σ :=
  attemptFrom retries backoff r w 0 retries.toNat

/-- What became of a delivery. -/
structure Delivered (σ : Type) where
  verdict : Verdict
  /-- the number of attempts of each reporter -/
  attempts : List Nat
  /-- all pauses -/
  pauses : List Seconds
  notices : List Notice
  world : σ

/-- Deliver through every reporter in order. -/
def deliver (retries : Int) (backoff : Seconds) (w : σ) : List (Reporter σ) → Delivered σ
  | [] => { verdict := .delivered, attempts := [], pauses := [], notices := [], world := w }
  | r :: rest =>
    let t := attempt retries backoff r w
    match t.verdict with
    | .delivered =>
      let d := deliver retries backoff t.world rest
      { d with
        attempts := t.attempts :: d.attempts
        pauses := t.pauses ++ d.pauses
        notices := t.notices ++ d.notices }
    | verdict =>
      { verdict, attempts := t.attempts :: rest.map fun _ => 0, pauses := t.pauses
        notices := t.notices, world := t.world }

end MergeGate.Delivery
