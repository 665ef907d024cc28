/-
The status receiver. A report is stored under its run id: a first report makes a row, the same
report again is counted, a different one is refused. An accepted report is then published: the run
id is marked as published, and whoever marks it first puts it on the merge queue. Reading, writing,
marking and queueing are separate steps, because other requests may come between them.
-/
import MergeGate.Receiver.Contract

namespace MergeGate.Receiver

/-- What is stored of a run. -/
structure Row where
  runId : String
  workflow : String
  overall : Status
  ref : Value
  payload : Value
  reports : Nat := 1

/-- Commands that were given to the queue's server. -/
inductive Command where
  /-- mark a run as published, for some seconds -/
  | mark (key : String) (seconds : Nat)
  /-- put a run on the queue -/
  | push (queue runId : String)
  deriving DecidableEq, Repr

/-- Everything the receiver keeps. -/
structure Store where
  rows : List Row := []
  published : List String := []
  queue : List String := []
  log : List Command := []

/-- A request that is turned down. -/
inductive Refusal where
  | conflict (runId : String) (overall : Status)
  | notReported
  | duplicateKey (runId : String)
  /-- bytes of the report are no text -/
  | undecodable (byte : UInt8) (position : Nat)
  deriving DecidableEq, Repr

namespace Refusal

/-- The status code of the answer. -/
def code : Refusal → Nat
  | conflict .. => 409
  | notReported => 404
  | duplicateKey _ | undecodable .. => 500

/-- The text of the answer. -/
def message : Refusal → String
  | conflict runId overall => "Run " ++ runId ++ " was already reported as " ++ overall.word
  | notReported => "Run not reported"
  | duplicateKey runId => "Run " ++ runId ++ " was stored by another request"
  | undecodable byte position =>
    "'utf-8' codec can't decode byte 0x" ++ String.ofList (Text.hex 2 byte.toNat) ++
      " in position " ++ toString position ++ ": invalid utf-8"

end Refusal

/-- What an accepted report is answered. -/
structure Accepted where
  runId : String
  created : Bool
  published : Bool
  deriving DecidableEq, Repr

/-- What is known of a reported run. -/
structure Known where
  row : Row
  report : StatusReport

/-- How long a run stays marked as published: a week. -/
def publishedSeconds : Nat := 604800

/-- The name of the merge queue. -/
def queueName : String := "gateci:merge-queue"

/-- The key under which a run is marked as published. -/
def publishedKey (runId : String) : String := "gateci:published:" ++ runId

/-- What a request writes after it has read. -/
inductive Write where
  | insert (row : Row)
  | update (row : Row)

/-- The row that is written. -/
def Write.row : Write → Row
  | insert row | update row => row

/-- Does the request make a new row? -/
def Write.creates : Write → Bool
  | insert _ => true
  | update _ => false

/-- The row of a first report. -/
def Row.ofReport (r : StatusReport) (payload : Value) : Row :=
  { runId := r.runId, workflow := r.workflow, overall := r.overall,
    ref := (r.context.lookup "ref").getD .null, payload }

/-- What is stored of a report. -/
def StatusReport.payload (r : StatusReport) : Except Refusal Value :=
  r.toValue.mapError fun u => .undecodable u.byte u.position

namespace Store

/-- Read the row of a run. -/
def row? (s : Store) (runId : String) : Option Row := s.rows.find? (·.runId == runId)

/-- Decide what to write, from the row that was read. -/
def decide (row : Option Row) (r : StatusReport) : Except Refusal Write :=
  r.payload.bind fun payload => match row with
  | none => .ok (.insert (.ofReport r payload))
  | some row =>
    if Value.same row.payload payload then .ok (.update { row with reports := row.reports + 1 })
    else .error (.conflict r.runId row.overall)

/-- Write: a new row must not be there yet, an old one is written as it was read and changed. -/
def commit (s : Store) : Write → Except Refusal Store
  | .insert row =>
    if (s.row? row.runId).isSome then .error (.duplicateKey row.runId)
    else .ok { s with rows := s.rows ++ [row] }
  | .update row =>
    .ok { s with rows := s.rows.map fun old => if old.runId = row.runId then row else old }

/-- Mark a run as published, unless it is; says whether it was not. -/
def mark (s : Store) (runId : String) : Bool × Store :=
  let s := { s with log := s.log ++ [.mark (publishedKey runId) publishedSeconds] }
  if s.published.contains runId then (false, s)
  else (true, { s with published := s.published ++ [runId] })

/-- Put a run on the queue. -/
def push (s : Store) (runId : String) : Store :=
  { s with queue := s.queue ++ [runId], log := s.log ++ [.push queueName runId] }

/-- Publish a run: the first to mark it puts it on the queue. -/
def publish (s : Store) (runId : String) : Bool × Store :=
  let (first, s) := s.mark runId
  if first then (true, s.push runId) else (false, s)

/-- Take a report, with no other request in between. -/
def post (s : Store) (r : StatusReport) : Except Refusal (Accepted × Store) := do
  let write ← decide (s.row? r.runId) r
  let s ← s.commit write
  let (published, s) := s.publish r.runId
  return (⟨r.runId, write.creates, published⟩, s)

/-- What is known of a run. -/
def get (s : Store) (runId : String) : Except (Refusal ⊕ List Schema.Problem) Known :=
  match s.row? runId with
  | none => .error (.inl .notReported)
  | some row => match report row.payload with
    | .ok r => .ok ⟨row, r⟩
    | .error problems => .error (.inr problems)

/-- A mark that is too old is gone. -/
def expire (s : Store) (runId : String) : Store :=
  { s with published := s.published.filter (· != runId) }

end Store

end MergeGate.Receiver
