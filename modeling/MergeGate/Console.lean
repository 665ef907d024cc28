/-
What the user is told. The parts of the program give notices; a console turns each into lines on
one of the two output streams. A quiet console leaves the progress of jobs out, a debugging one
adds what is only of use when looking for a fault.
-/
import MergeGate.Decimal.Fixed
import MergeGate.Run.Report
import MergeGate.Text.Capital

namespace MergeGate

/-- Something to tell the user. -/
inductive Notice where
  | header (title : String)
  | runStarted (workflow event branch ref : String) (jobs : Int)
  | planJob (name reason : String)
  | planSkipped (name reason : String)
  | jobStart (name : String)
  | step (job name : String)
  | jobSkipped (name reason : String)
  | jobResult (result : Result)
  | gate (report : GateReport)
  | error (title message : String) (details : List String) (suggestion : Option String)
  /-- an unforeseen failure, with the name of its kind -/
  | failure (kind message : String)
  | info (message : String)
  | debug (message : String)

/-- The two output streams. -/
inductive Stream where
  | out
  | err
  deriving DecidableEq, Repr

/-- How much is told. -/
structure Console where
  debug : Bool := false
  quiet : Bool := false

namespace Console

/-- The stream of a notice: faults and what helps to find them go to the second one. -/
def stream : Notice → Stream
  | .error .. | .failure .. | .debug _ => .err
  | _ => .out

/-- A reason in parentheses, unless there is none or the status is success. -/
def reasonText (status : Status) (reason : Option String) : String :=
  match reason with
  | none => ""
  | some r => if r = "" || status = .succeeded then "" else " (" ++ r ++ ")"

/-- The number of lines of output shown after a failure. -/
def tailLines : Nat := 20

/-- The lines of output shown after a failure: the last ones, an empty one at their end left out,
or all of them when debugging. -/
def outputLines (debug : Bool) (output : String) : List String :=
  let all := Text.lines output
  if debug then all else Text.lines ("\n".intercalate (all.drop (all.length - tailLines)))

/-- The lines about a finished instance. -/
def resultLines (debug : Bool) (r : Result) : List String :=
  let exitLine := match r.exitCode with
    | none => []
    | some n => if n = 0 then [] else ["Exit code: " ++ toString n]
  let output :=
    if r.status = .failed && r.outputTail ≠ "" then
      "Output (tail):" :: (outputLines debug r.outputTail).map ("  " ++ ·)
    else []
  ["\nJOB FINISHED: " ++ r.instanceId,
    "STATUS: " ++ r.status.word ++ reasonText r.status r.reason ++
      (if r.allowed then " [continue-on-error]" else "")] ++
  exitLine ++ ["Duration: " ++ Decimal.writeFixed 1 r.duration ++ "s"] ++ output

/-- The line about one job in the gate summary. -/
def outcomeLine (o : Outcome) : String :=
  "  " ++ o.id ++ ": " ++ Text.upper o.status.word ++ reasonText o.status o.reason ++
    (if o.allowedFailures = 0 then ""
      else " [" ++ toString o.allowedFailures ++ " allowed failure(s)]") ++
    (if o.critical then " [critical]" else " [advisory]")

/-- The gate summary. -/
def gateLines (r : GateReport) : List String :=
  let rule := "========================================"
  ["\n" ++ rule, "GATE", rule] ++ r.definitions.map outcomeLine ++
  (if r.cancelTimeouts.isEmpty then []
    else ["  did not stop when cancelled: " ++ ", ".intercalate r.cancelTimeouts]) ++
  ["OVERALL: " ++ Text.upper r.overall.word]

/-- Are the notices of this kind left out by a quiet console? -/
def isProgress : Notice → Bool
  | .planJob .. | .planSkipped .. | .jobStart _ | .step .. | .jobSkipped .. | .jobResult _ => true
  | _ => false

/-- The lines of a notice, before anything is left out. -/
def allLines (debug : Bool) : Notice → List String
  | .header title => ["\n" ++ title, String.ofList (List.replicate title.length '-')]
  | .runStarted workflow event branch ref jobs =>
    ["\nRUN STARTED", "Workflow: " ++ workflow,
      "Trigger: " ++ event ++ " " ++ ref ++ " (branch " ++ branch ++ ")",
      "Jobs: " ++ toString jobs, ""]
  | .planJob name reason => ["  " ++ name ++ " (" ++ reason ++ ")"]
  | .planSkipped name reason => ["  " ++ name ++ " (skipped: " ++ reason ++ ")"]
  | .jobStart name => ["\nJOB STARTED: " ++ name]
  | .step job name => ["[" ++ job ++ "] STEP: " ++ name]
  | .jobSkipped name reason =>
    ["\nJOB SKIPPED: " ++ name, "STATUS: skipped (" ++ reason ++ ")"]
  | .jobResult r => resultLines debug r
  | .gate r => gateLines r
  | .error title message details suggestion =>
    let hint := match suggestion with
      | none => []
      | some s => if s = "" then [] else ["\n" ++ s]
    ["\nERROR: " ++ title, message] ++ details.map ("  " ++ ·) ++ hint
  | .failure kind message =>
    if debug then [if message = "" then kind else kind ++ ": " ++ message]
    else ["Error: " ++ message]
  | .info message => [message]
  | .debug message => if debug then ["[DEBUG] " ++ message] else []

/-- The lines that a console writes for a notice. -/
def lines (c : Console) (n : Notice) : List String :=
  if c.quiet && isProgress n then [] else allLines c.debug n

/-- What a console writes to a stream. -/
def written (c : Console) (s : Stream) (notices : List Notice) : String :=
  String.join ((notices.filter (stream · == s)).flatMap fun n => (c.lines n).map (· ++ "\n"))

end Console

end MergeGate
