/-
The reporters: the terminal, a status file and a status receiver. The file is replaced as a whole.
The receiver takes a status by its run, so sending it once more does no harm.
-/
import MergeGate.Delivery.Address
import MergeGate.Delivery.Basic
import MergeGate.Folder.Basic

namespace MergeGate.Delivery

/-- A request to the status receiver. -/
structure Request where
  url : String
  timeout : Value
  runId : String
  body : String

/-- The method of a request. -/
def Request.method : String := "POST"

/-- The headers of a request, by name. -/
def Request.headers (r : Request) : List (String × String) :=
  [("Content-type", "application/json"), ("Idempotency-key", r.runId)]

/-- What comes of a request. -/
inductive Answer where
  | ok
  /-- the receiver refuses -/
  | refused (code : Int) (reason : String) (body : List UInt8)
  /-- the receiver cannot be reached -/
  | unreachable (reason : String)
  /-- the connection breaks while the answer is awaited or read -/
  | lost (message : String)
  deriving DecidableEq, Repr

/-- What reporters change. -/
structure Site where
  folder : Folder
  requests : List Request := []
  notices : List Notice := []

/-- Report what a run reports; a run without a report cannot be reported. -/
def reporting (run : Run) (send : GateReport → Reporter Site) : Reporter Site := fun count w =>
  match run.gateReport with
  | .error fault => (.broken (.noReport fault), w)
  | .ok (report, _) => send report count w

/-- Show the gate on the terminal. -/
def toConsole (run : Run) : Reporter Site :=
  reporting run fun report _ w =>
    (.delivered, { w with notices := w.notices ++ [.gate report] })

/-- Write the status to a file, making the folders it is in. -/
def toFile (run : Run) (path : Path) : Reporter Site :=
  reporting run fun report _ w =>
    let failed (message : String) : Verdict := .failed ⟨"file", report.runId, message⟩
    if path.parent.hasNull then (.broken .path, w)
    else match w.folder.makeFolders w.folder.home path.parent with
    | .error (fault, place) => (failed (fault.message place.text), w)
    | .ok folder =>
      if path.hasNull then (.broken .path, { w with folder })
      else match folder.write folder.home path (Json.pretty report.toValue) with
      | .error fault => (failed (fault.message path.text), { w with folder })
      | .ok folder => (.delivered, { w with folder })

/-- How long an answer is waited for, in seconds. -/
def defaultTimeout : Value := .float 10.0

/-- The request that sends a status below a base address. -/
def request (base : String) (timeout : Value) (report : GateReport) : Except Fault Request :=
  let bare := (base.toList.reverse.dropWhile (· == '/')).reverse
  let b := Address.Base.ofText (bare ++ ['/'])
  let url := Text.strip (b.join "statuses".toList)
  match Host.flaw? b.host with
  | some flaw => .error (.host flaw)
  | none =>
  if Address.isReachable url then
    .ok { url := String.ofList url, timeout, runId := report.runId, body := report.toJson }
  else .error (.address (String.ofList url))

/-- How an attempt ends that was answered. -/
def Answer.verdict (runId : String) : Answer → Verdict
  | ok => .delivered
  | refused code reason body =>
    match Text.decode body with
    | .error u => .broken (.body u)
    | .ok cs =>
      .failed ⟨"http", runId, "HTTP " ++ toString code ++ " " ++ reason ++ ". " ++ String.ofList cs⟩
  | unreachable reason => .failed ⟨"http", runId, "Network error: " ++ reason⟩
  | lost message => .broken (.lost message)

/-- Send the status to a receiver that answers the attempts as given. -/
def toReceiver (run : Run) (base : String) (timeout : Value) (answers : Nat → Answer) :
    Reporter Site :=
  reporting run fun report count w =>
    match request base timeout report with
    | .error fault => (.broken fault, w)
    | .ok r => ((answers count).verdict report.runId, { w with requests := w.requests ++ [r] })

end MergeGate.Delivery
