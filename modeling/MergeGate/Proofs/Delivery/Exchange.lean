/-
Deliveries to a receiver that takes every report of a run as the same one. Whatever posts and answers
are lost, and whatever else happens at the receiver that is not about the run, every post that is taken
is answered with success and counted, and the run is queued with the first (`delivered_once`). It takes
that the run has an id, and that its mark does not get too old in between (`queued_twice_or_refused`).
-/
import MergeGate.Delivery.Exchange
import MergeGate.Proofs.Delivery.Attempts
import MergeGate.Proofs.Receiver.Agreement
import MergeGate.Proofs.Receiver.Event
import MergeGate.Proofs.Receiver.Payload

namespace MergeGate.Delivery

open Receiver

/-! ## What is sent and stored -/

/-- The report of a run can be sent, is read as it was sent, and is stored as it was written. -/
structure Sends (decode : String → Option Value) (run : Run) (gate : GateReport) : Prop where
  report : ∃ r', run.gateReport = .ok (gate, r')
  read : (decode gate.toJson).map Receiver.report = some (.ok gate.received)
  stored : gate.received.payload = .ok gate.toValue
  same : Value.same gate.toValue gate.toValue = true

theorem payload_received (gate : GateReport) : gate.received.payload = .ok gate.toValue := by
  have hplain : StatusReport.plainFields gate.received.context = .ok gate.received.context := by
    rw [StatusReport.plainFields_eq, Value.finiteFields_eq]
    · exact List.forall_mem_map.2 fun c _ => rfl
    · exact List.forall_mem_map.2 fun c _ => rfl
  rw [StatusReport.payload, StatusReport.toValue, hplain, GateReport.toValue_eq]
  rfl

theorem sends_of_complete {decode : String → Option Value} {run : Run} {g : JobGraph}
    (hgraph : run.graph = some g) (hcomplete : run.complete = true) (hid : run.id ≠ "")
    (hkept : ∀ made, run.report = some made → made = run.reportOf g)
    (hdecode : decode (run.reportOf g).toJson = some (run.reportOf g).document) :
    Sends decode run (run.reportOf g) where
  report := gateReport_complete hgraph hcomplete hkept
  read := by rw [hdecode, Option.map_some, report_document hid]
  stored := payload_received _
  same := by
    rw [GateReport.toValue_eq]
    exact received_document.same_self

/-! ## Attempts -/

/-- Every post that was taken was answered with success and counted. -/
structure Scene.Settled (gate : GateReport) (w : Scene) : Prop where
  codes : ∀ code ∈ w.codes, code = 200
  counts : w.store.Counts gate.received gate.toValue w.codes.length

section

variable {decode : String → Option Value} {run : Run} {gate : GateReport} {s : Store} {k count : Nat}
  {p : Post} {w : Scene}

theorem Sends.answer (h : Sends decode run gate) {events : Nat → List Event}
    (hevents : ∀ n, ∀ e ∈ events n, e.runId ≠ gate.runId) (hs : s.Counts gate.received gate.toValue k) :
    ∃ s', s.answer decode events gate.toJson = (200, s') ∧ s'.Counts gate.received gate.toValue (k + 1) := by
  obtain ⟨a, s', hs', hcounts⟩ := among_read hevents h.stored h.same hs
  refine ⟨s', ?_, hcounts⟩
  simp only [Store.answer, h.read, hs']
  rfl

theorem request_body {base : String} {timeout : Value} {sent : Request}
    (h : request base timeout gate = .ok sent) : sent.body = gate.toJson := by
  simp only [request] at h
  split at h
  · simp only [reduceCtorEq] at h
  · split at h
    · rw [← Except.ok.inj h]
    · simp only [reduceCtorEq] at h

theorem Sends.request?_eq (h : Sends decode run gate) :
    p.request? run = (request p.base p.timeout gate).toOption := by
  obtain ⟨r', hreport⟩ := h.report
  rw [Post.request?, hreport]

/-- A post does not reach the receiver, or it is answered with success and counted. -/
theorem Sends.arrive (h : Sends decode run gate) (hevents : ∀ n, ∀ e ∈ p.events count n, e.runId ≠ gate.runId)
    (hs : s.Counts gate.received gate.toValue k) :
    p.arrive decode run count s = (none, s) ∨
      ∃ s', p.arrive decode run count s = (some 200, s') ∧ s'.Counts gate.received gate.toValue (k + 1) := by
  rw [Post.arrive, h.request?_eq]
  cases hsent : request p.base p.timeout gate with
  | error fault => cases p.fate count <;> exact .inl rfl
  | ok sent =>
    obtain ⟨s', hanswer, hcounts⟩ := h.answer hevents hs
    rw [← request_body hsent] at hanswer
    cases p.fate count with
    | lost reason => exact .inl rfl
    | unanswered reason | answered =>
      refine .inr ⟨s', ?_, hcounts⟩
      simp only [Except.toOption, hanswer]

/-- **An attempt leaves every post that was taken answered and counted.** -/
theorem Sends.post (h : Sends decode run gate) (hevents : ∀ n, ∀ e ∈ p.events count n, e.runId ≠ gate.runId)
    (hw : w.Settled gate) : ((p.reporter decode run count w).2).Settled gate := by
  obtain harrive | ⟨s', harrive, hcounts⟩ := h.arrive hevents hw.counts
  · simp only [Post.reporter, harrive]
    exact ⟨by simpa using hw.codes, by simpa using hw.counts⟩
  · simp only [Post.reporter, harrive]
    refine ⟨?_, by simpa using hcounts⟩
    simp only [Option.toList_some, List.mem_append, List.mem_singleton]
    rintro code (hcode | rfl)
    · exact hw.codes code hcode
    · rfl

theorem reporter_post (decode : String → Option Value) (run : Run) (p : Post) :
    (Channel.post p).reporter decode run = p.reporter decode run := rfl

theorem verdict_delivered {runId : String} {a : Answer} (h : a.verdict runId = .delivered) : a = .ok := by
  cases a with
  | ok => rfl
  | refused code reason body =>
    rw [Answer.verdict] at h
    split at h <;> cases h
  | unreachable _ | lost _ => cases h

theorem outcome_ok {code? : Option Nat} (h : p.outcome count code? = .ok) : p.fate count = .answered := by
  cases hfate : p.fate count with
  | answered => rfl
  | lost _ | unanswered _ =>
    simp only [Post.outcome, hfate] at h
    cases h

/-- An attempt that succeeds was answered, so its post was taken. -/
theorem Sends.codes_ne_nil (h : Sends decode run gate)
    (hverdict : (p.reporter decode run count w).1 = .delivered) :
    (p.reporter decode run count w).2.codes ≠ [] := by
  obtain ⟨r', hreport⟩ := h.report
  simp only [Post.reporter, toReceiver, reporting, hreport] at hverdict
  cases hsent : request p.base p.timeout gate with
  | error fault =>
    simp only [hsent] at hverdict
    cases hverdict
  | ok sent =>
    simp only [hsent] at hverdict
    have hfate := outcome_ok (verdict_delivered hverdict)
    have harrive : (p.arrive decode run count w.store).1 =
        some (w.store.answer decode (p.events count) sent.body).1 := by
      rw [Post.arrive, h.request?_eq, hsent, hfate]
      rfl
    simp only [Post.reporter, harrive]
    simp

end

/-! ## Deliveries -/

/-- What a delivery leaves of its run at the receiver: if posts were taken, a row with the run's report that
counts each of them, and one entry on the queue. -/
structure Once (gate : GateReport) (w : Scene) : Prop where
  codes : ∀ code ∈ w.codes, code = 200
  row : w.codes ≠ [] → ∃ row, w.store.row? gate.runId = some row ∧ row.payload = gate.toValue ∧
    row.reports = w.codes.length
  queue : w.store.queue.count gate.runId = if w.codes = [] then 0 else 1

theorem Scene.Settled.once {gate : GateReport} {w : Scene} (h : w.Settled gate) : Once gate w where
  codes := h.codes
  row := fun hne => by
    have hlength : w.codes.length ≠ 0 := mt List.length_eq_zero_iff.1 hne
    have hrow := h.counts.row
    rw [rowAt?, if_neg hlength] at hrow
    exact ⟨_, hrow, rfl, rfl⟩
  queue := by
    refine h.counts.queue.trans ?_
    cases w.codes with
    | nil => rfl
    | cons code codes => simp

variable {decode : String → Option Value} {run : Run} {g : JobGraph} {s : Store}

/-- **A delivery queues its run once.** The receiver has not heard of the run, and whatever else happens
there is not about it. Then every post that is taken is answered with success and counted in the row that
holds the run's report, the run is queued with the first, and a delivery by posts does not succeed without
one, whatever is lost and however often it may be tried. -/
theorem delivered_once (hgraph : run.graph = some g) (hcomplete : run.complete = true) (hid : run.id ≠ "")
    (hkept : ∀ made, run.report = some made → made = run.reportOf g)
    (hdecode : decode (run.reportOf g).toJson = some (run.reportOf g).document) (hblank : s.Blank run.id)
    {channels : List Channel}
    (hevents : ∀ p, .post p ∈ channels → ∀ count n, ∀ e ∈ p.events count n, e.runId ≠ run.id)
    (retries : Int) (backoff : Seconds) (site : Site) :
    let d := deliver retries backoff ⟨site, s, []⟩ (channels.map (·.reporter decode run))
    Once (run.reportOf g) d.world ∧
      (d.verdict = .delivered → (∃ p, .post p ∈ channels) → d.world.codes ≠ []) := by
  have hsends := sends_of_complete hgraph hcomplete hid hkept hdecode
  have hstart : (Scene.mk site s []).Settled (run.reportOf g) :=
    ⟨by simp, hblank.row, iff_of_false hblank.mark (not_not.2 rfl), hblank.queue⟩
  have hkeep : ∀ r ∈ channels.map (·.reporter decode run), ∀ count (w : Scene),
      w.Settled (run.reportOf g) → (r count w).2.Settled (run.reportOf g) := by
    refine List.forall_mem_map.2 fun c hc count w hw => ?_
    cases c with
    | atSite r => exact ⟨hw.codes, hw.counts⟩
    | post p =>
      rw [reporter_post]
      exact hsends.post (hevents p hc count) hw
  refine ⟨(deliver_keeps hkeep hstart).once, fun hverdict ⟨p, hp⟩ => ?_⟩
  have hstay : ∀ r ∈ channels.map (·.reporter decode run), ∀ count (w : Scene),
      w.codes ≠ [] → (r count w).2.codes ≠ [] := by
    refine List.forall_mem_map.2 fun c hc count w hw => ?_
    cases c with
    | atSite r => exact hw
    | post p => exact List.append_ne_nil_of_left_ne_nil hw _
  have hanswered : ∀ count (w : Scene), ((Channel.post p).reporter decode run count w).1 = .delivered →
      ((Channel.post p).reporter decode run count w).2.codes ≠ [] := by
    rw [reporter_post]
    exact fun count w hdelivered => hsends.codes_ne_nil hdelivered
  exact deliver_of_mem hkeep hstay (List.mem_map_of_mem hp) (fun count w _ => hanswered count w) hstart hverdict

/-! ### Some deliveries -/

/-- What is read has a part in a delivery only by how it is answered. -/
theorem reporter_congr {read read' : String → Option Value} {run : Run}
    (h : ∀ events body s, Store.answer read events body s = Store.answer read' events body s) :
    Channel.reporter read run = Channel.reporter read' run := by
  have harrive : ∀ p count s, Post.arrive read p run count s = Post.arrive read' p run count s := by
    intro p count s
    simp only [Post.arrive, h]
  funext c
  cases c with
  | atSite r => rfl
  | post p =>
    funext count w
    simp only [Channel.reporter, Post.reporter, harrive]

/-- The checked workflow of the runs below. -/
def oneJob : JobGraph where
  workflow := { name := "gate", jobs := [] }
  jobs := [{ id := "test", steps := [] }]
  needs := []
  dependents := []
  levels := [["test"]]

/-- A run of one job that succeeded, with the given id. -/
def passedRun (id : String) : Run where
  workflow := "gate"
  trigger := .ofRef .push "refs/heads/main" none
  id
  instances := [⟨"test", [], 0, [], [], false⟩]
  results := [.ofExit ⟨"test", [], 0, [], [], false⟩ (some 0) 1.5 "" none]
  graph := some oneJob

/-- Reads the report of one run. -/
def readReport (run : Run) (_ : String) : Option Value := some (run.reportOf oneJob).document

/-- Both sides before a delivery. -/
def sceneSample : Scene := { site := { folder := { home := ["", "work"] } }, store := {} }

/-- The first post is lost and the second one's answer, while another run is put on the queue. -/
def lossyPost : Post where
  base := "http://gate"
  fate := fun
    | 0 => .lost "refused"
    | 1 => .unanswered "timed out"
    | _ => .answered
  events := fun _ n =>
    if n = 1 then [.step { runId := "2", overall := .failed, definitions := [] } (.push true)] else []

theorem reporter_readReport : Channel.reporter (readReport (passedRun "1")) (passedRun "1") =
    Channel.reporter (fun _ => some ((passedRun "1").reportOf oneJob).toValue) (passedRun "1") := by
  refine reporter_congr fun events body s => ?_
  have hread : report ((passedRun "1").reportOf oneJob).document =
      .ok ((passedRun "1").reportOf oneJob).received := report_document (by decide)
  have hread' : report ((passedRun "1").reportOf oneJob).toValue =
      .ok ((passedRun "1").reportOf oneJob).received := by
    rw [GateReport.toValue_eq]
    exact (received_sound (P := fun _ => True) (by decide)).report_withContext keys_received
      (List.forall_mem_map.2 fun _ _ => .text _)
  simp only [Store.answer, readReport, Option.map_some, hread, hread']

theorem delivered_once_sample :
    let run := passedRun "1"
    let d := deliver 3 defaultBackoff sceneSample
      ([.atSite (toConsole run), .post lossyPost].map (Channel.reporter (readReport run) run))
    run.complete = true ∧ run.id ≠ "" ∧ Store.Blank {} run.id ∧ d.verdict = .delivered ∧
      d.world.codes = [200, 200] ∧ d.world.store.queue = ["2", "1", "2"] ∧ Once (run.reportOf oneJob) d.world := by
  intro run d
  have hcomplete : run.complete = true := by decide +kernel
  have hid : run.id ≠ "" := by decide
  have hblank : Store.Blank {} run.id := ⟨rfl, by simp, rfl⟩
  have hevents : ∀ p, .post p ∈ [Channel.atSite (toConsole run), .post lossyPost] →
      ∀ count n, ∀ e ∈ p.events count n, e.runId ≠ run.id := by
    intro p hp count n e he
    obtain rfl : p = lossyPost := by simpa using hp
    simp only [lossyPost] at he
    split at he
    · obtain rfl := List.mem_singleton.1 he
      decide
    · simp at he
  have hruns : d.verdict = .delivered ∧ d.world.codes = [200, 200] ∧ d.world.store.queue = ["2", "1", "2"] := by
    simp only [d, run, reporter_readReport]
    decide +kernel
  exact ⟨hcomplete, hid, hblank, hruns.1, hruns.2.1, hruns.2.2,
    (delivered_once rfl hcomplete hid (fun made h => by cases h) rfl hblank hevents 3 defaultBackoff
      sceneSample.site).1⟩

/-- The answer of the first post is lost, and the mark of the run is too old when the second is taken. -/
def latePost : Post where
  base := "http://gate"
  fate := fun
    | 0 => .unanswered "timed out"
    | _ => .answered
  events := fun count n => if count = 1 ∧ n = 3 then [.expire "1"] else []

/-- Where the mark of a run gets too old between two posts that are taken, the run is on the queue twice;
and the post of a run without an id is refused. -/
theorem queued_twice_or_refused :
    let late := deliver 1 defaultBackoff sceneSample
      [Channel.reporter (readReport (passedRun "1")) (passedRun "1") (.post latePost)]
    let nameless := deliver 1 defaultBackoff sceneSample
      [Channel.reporter (readReport (passedRun "")) (passedRun "") (.post latePost)]
    (late.verdict = .delivered ∧ late.world.codes = [200, 200] ∧ late.world.store.queue = ["1", "1"]) ∧
      nameless.world.codes = [422, 422] ∧ nameless.world.store.queue = [] := by
  intro late nameless
  have hnameless : Channel.reporter (readReport (passedRun "")) (passedRun "") =
      Channel.reporter (fun _ => none) (passedRun "") := by
    refine reporter_congr fun events body s => ?_
    obtain ⟨problems, hread⟩ := report_document_nameless (r := passedRun "") (g := oneJob) rfl
    simp only [Store.answer, readReport, Option.map_some, hread, Option.map_none]
  simp only [late, nameless, reporter_readReport, hnameless]
  decide +kernel

end MergeGate.Delivery
