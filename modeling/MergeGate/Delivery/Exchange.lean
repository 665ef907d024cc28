/-
A delivery together with the receiver it reaches. A post may be lost on its way; one that arrives is
taken step by step, with other things happening at the receiver before each step, and its answer may
be lost on its way back.
-/
import MergeGate.Delivery.Reporter
import MergeGate.Receiver.Event

namespace MergeGate.Delivery

open Receiver

/-- What becomes of a post. -/
inductive Fate where
  /-- it does not reach the receiver -/
  | lost (reason : String)
  /-- the receiver takes it, and its answer is lost -/
  | unanswered (reason : String)
  | answered

/-- Posts to a receiver: its address, what becomes of the post of each attempt, and what else happens at
the receiver before each of the steps in which it is taken. -/
structure Post where
  base : String
  timeout : Value := defaultTimeout
  fate : Nat → Fate
  events : Nat → Nat → List Event

/-- Both sides of a delivery. -/
structure Scene where
  site : Site
  store : Store
  /-- the status codes with which the receiver answered the posts that it took -/
  codes : List Nat := []

namespace Post

/-- The request that is sent for a run, if the run has a report and the address can be used. -/
def request? (p : Post) (run : Run) : Option Request :=
  match run.gateReport with
  | .error _ => none
  | .ok (report, _) => (request p.base p.timeout report).toOption

/-- The receiver's part in an attempt: the status code, if the post reaches it. -/
def arrive (decode : String → Option Value) (p : Post) (run : Run) (count : Nat) (s : Store) :
    Option Nat × Store :=
  match p.fate count, p.request? run with
  | .lost _, _ | _, none => (none, s)
  | _, some sent =>
    let (code, s) := s.answer decode (p.events count) sent.body
    (some code, s)

/-- What comes of an attempt for the sender. -/
def outcome (p : Post) (count : Nat) (code? : Option Nat) : Answer :=
  match p.fate count with
  | .lost reason | .unanswered reason => .unreachable reason
  | .answered => match code? with
    | none | some 200 => .ok
    | some code => .refused code "" []

/-- Report by posts. -/
def reporter (decode : String → Option Value) (run : Run) (p : Post) : Reporter Scene := fun count w =>
  let (code?, store) := p.arrive decode run count w.store
  let (verdict, site) := toReceiver run p.base p.timeout (fun _ => p.outcome count code?) count w.site
  (verdict, { site, store, codes := w.codes ++ code?.toList })

end Post

/-- A way to report. -/
inductive Channel where
  /-- on the sender's side: the terminal, or a file -/
  | atSite (r : Reporter Site)
  | post (p : Post)

/-- Report by a channel. -/
def Channel.reporter (decode : String → Option Value) (run : Run) : Channel → Reporter Scene
  | atSite r => fun count w =>
    let (verdict, site) := r count w.site
    (verdict, { w with site })
  | post p => p.reporter decode run

end MergeGate.Delivery
