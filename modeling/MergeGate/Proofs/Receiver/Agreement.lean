/-
The two sides of the status contract. A finished run's report, written and read again, is taken by the
receiver with nothing changed (`report_document`), and the receiver's rule for the jobs that kept the
gate closed is the rule by which the run closed it (`blocking_received`).
-/
import MergeGate.Proofs.Outcome
import MergeGate.Proofs.Receiver.Ordered
import MergeGate.Proofs.Receiver.Report
import MergeGate.Proofs.Run

namespace MergeGate

open Receiver

/-- A job's outcome as the receiver holds it. -/
def Outcome.received (o : Outcome) : Definition := ⟨o.id, o.status, o.critical, o.reason, o.allowedFailures⟩

namespace GateReport

/-- The report as the receiver holds it: with every field as it is. -/
def received (r : GateReport) : StatusReport :=
  { runId := r.runId
    overall := r.overall
    definitions := r.definitions.map (·.received)
    workflow := r.workflow
    triggered := r.triggered
    cancelled := r.cancelled
    cancelTimeouts := r.cancelTimeouts
    context := r.context.map fun c => (c.1, .text c.2) }

/-- What the written form says when it is read. -/
def document (r : GateReport) : Value := r.toValue.ordered

/-- Both sides have one written form. -/
theorem toValue_eq (r : GateReport) : r.toValue = r.received.withContext r.received.context := by
  simp only [toValue, StatusReport.withContext, received, List.map_map, Function.comp_def]
  rfl

end GateReport

namespace Receiver

open Schema

variable {P : Float → Prop}

/-! ## Reading what is in order -/

namespace StatusReport

theorem ordered_texts (xs : List String) : (Value.texts xs).ordered = Value.texts xs := by
  rw [Value.texts, Value.ordered, Value.orderedAll_eq_map, List.map_map]
  rfl

theorem definition_ordered {d : Definition}
    (h : d.status = .succeeded ∨ d.status = .failed ∨ d.status = .skipped) :
    definition (definitionValue d).ordered = .ok d := by
  have hdocument := (definitionValue_document (P := fun _ => True) d).ordered
  rw [definitionValue, Value.ordered_ofFields] at hdocument ⊢
  refine definition_eq_ok.2 ⟨_, record_fields hdocument, ?_⟩
  simp only [required_eq_ok, defaulted_eq_ok]
  repeat rw [Value.field?_ordered (by simp [Assoc.keys])]
  refine ⟨⟨_, rfl, rfl⟩, ⟨_, rfl, statusOf_word ?_ ?_⟩, ⟨_, rfl, rfl⟩, .inr ⟨_, rfl, ?_⟩, .inr ⟨_, rfl, rfl⟩⟩
  · rcases h with h | h | h <;> rw [h] <;> decide
  · rcases h with h | h | h <;> rw [h] <;> rfl
  · cases d.reason <;> rfl

theorem definitions_ordered {ds : List Definition}
    (h : ∀ d ∈ ds, d.status = .succeeded ∨ d.status = .failed ∨ d.status = .skipped) :
    list definition (Value.list (ds.map definitionValue)).ordered = .ok ds := by
  rw [Value.ordered, Value.orderedAll_eq_map, List.map_map]
  refine list_map (P := fun _ => True) (.list (List.forall_mem_map.2 fun d _ => ?_)) fun d hd =>
    definition_ordered (h d hd)
  exact (definitionValue_document d).ordered

/-- **A sound report is read back from its written form in order.** -/
theorem Sound.report_ordered {r : StatusReport} (hr : r.Sound P) :
    report (r.withContext r.context).ordered = .ok { r with context := Value.orderedFields r.context } := by
  have hcontext := (Value.IsDocument.object hr.keys hr.context).ordered
  have hdocument := (r.withContext_document hr.keys hr.context).ordered
  rw [withContext, Value.ordered_ofFields] at hdocument ⊢
  refine report_eq_ok.2 ⟨_, record_fields hdocument, ?_⟩
  simp only [required_eq_ok, defaulted_eq_ok]
  repeat rw [Value.field?_ordered (by simp [Assoc.keys])]
  refine ⟨⟨_, rfl, if_neg hr.runId⟩, ⟨_, rfl, statusOf_word ?_ ?_⟩, ⟨_, rfl, definitions_ordered hr.statuses⟩,
    .inr ⟨_, rfl, rfl⟩, .inr ⟨_, rfl, rfl⟩, .inr ⟨_, rfl, ?_⟩, .inr ⟨_, rfl, ?_⟩, .inr ⟨_, rfl, ?_⟩⟩
  · rcases hr.overall with h | h <;> rw [h] <;> decide
  · rcases hr.overall with h | h <;> rw [h] <;> rfl
  · rw [ordered_texts, list_texts]
  · rw [ordered_texts, list_texts]
  · change (Value.ofFields r.context).ordered.IsDocument P at hcontext
    rw [Value.ordered_ofFields] at hcontext ⊢
    exact map_anything hcontext ((Value.keys_orderedFields r.context).nodup_iff.2 hr.keys)

end StatusReport

/-! ## The report of a run -/

section

variable {r : Run} {g : JobGraph}

theorem context_ordered (t : Trigger) :
    Value.orderedFields (t.fields.map fun c => (c.1, .text c.2)) = t.fields.map fun c => (c.1, .text c.2) := by
  have hsorted : t.fields.Pairwise fun a b => (!decide (b.1 < a.1)) = true := by
    simp only [Trigger.fields, List.pairwise_cons, List.mem_cons, List.not_mem_nil, or_false,
      forall_eq_or_imp, forall_eq, false_imp_iff, implies_true, List.Pairwise.nil, and_true]
    change ((!decide ("event_kind" < "branch")) = true ∧ (!decide ("ref" < "branch")) = true) ∧
      (!decide ("ref" < "event_kind")) = true
    decide +kernel
  rw [Value.orderedFields, Assoc.sortByKey_map, List.map_map, Assoc.sortByKey_eq_self hsorted]
  rfl

theorem keys_received : (Assoc.keys (r.reportOf g).received.context).Nodup := by
  simp [GateReport.received, Run.reportOf, Trigger.fields, Assoc.keys]

/-- What a run reports is a document. -/
theorem received_document :
    ((r.reportOf g).received.withContext (r.reportOf g).received.context).IsDocument P :=
  (r.reportOf g).received.withContext_document keys_received (List.forall_mem_map.2 fun _ _ => .text _)

theorem received_sound (hid : r.id ≠ "") : (r.reportOf g).received.Sound P where
  runId := hid
  overall := by
    change Outcome.overall _ = _ ∨ Outcome.overall _ = _
    by_cases h : Outcome.overall (r.outcomes g) = .succeeded
    · exact .inl h
    · exact .inr (Outcome.overall_eq_failed_iff.2 h)
  statuses := by
    refine List.forall_mem_map.2 (List.forall_mem_map.2 fun j _ => ?_)
    exact Outcome.fold_status
  keys := keys_received
  context := List.forall_mem_map.2 fun c _ => .text c.2

/-- **The receiver takes what a run reports**, and holds it as it was. -/
theorem report_document (hid : r.id ≠ "") :
    report (r.reportOf g).document = .ok (r.reportOf g).received := by
  rw [GateReport.document, GateReport.toValue_eq, (received_sound (P := fun _ => True) hid).report_ordered]
  congr 2
  exact context_ordered r.trigger

/-- The receiver takes no report of a run without an id. -/
theorem report_document_nameless (hid : r.id = "") : ∃ problems, report (r.reportOf g).document = .error problems := by
  cases hreport : report (r.reportOf g).document with
  | error problems => exact ⟨problems, rfl⟩
  | ok s =>
    have hdocument := (received_document (P := fun _ => True) (r := r) (g := g)).ordered
    rw [GateReport.document, GateReport.toValue_eq] at hreport
    rw [StatusReport.withContext, Value.ordered_ofFields] at hdocument hreport
    obtain ⟨es, hes, hrunId, -⟩ := report_eq_ok.1 hreport
    rw [record_fields hdocument] at hes
    obtain rfl := Except.ok.inj hes
    rw [required_eq_ok, Value.field?_ordered (by simp [Assoc.keys])] at hrunId
    obtain ⟨v, hv, hrunId⟩ := hrunId
    obtain rfl : Value.text r.id = v := Option.some.inj hv
    rw [hid] at hrunId
    cases hrunId

/-- The document has the text that the run reports. -/
theorem compact_document : Json.compact (r.reportOf g).document = (r.reportOf g).toJson := by
  have hdocument := received_document (P := fun _ => True) (r := r) (g := g)
  rw [← GateReport.toValue_eq] at hdocument
  exact Json.write_ordered hdocument .compact 0

/-- **Both rules are one.** A job kept the gate closed if it is critical and did not pass. -/
theorem blocks_received (o : Outcome) : o.received.blocks = (o.critical && !o.passed) := by
  simp only [Definition.blocks, Outcome.received, Outcome.passed, Bool.not_or, Bool.and_assoc, bne]

theorem blocking_received (report : GateReport) : report.received.blocking =
    (report.definitions.filter fun o => o.critical && !o.passed).map (·.id) := by
  rw [StatusReport.blocking, GateReport.received, List.filter_map, List.map_map]
  simp only [Function.comp_def, blocks_received]
  rfl

theorem blocking_eq_nil_iff {r : Run} {g : JobGraph} :
    (r.reportOf g).received.blocking = [] ↔ (r.reportOf g).overall = .succeeded := by
  rw [blocking_received, List.map_eq_nil_iff, List.filter_eq_nil_iff]
  change _ ↔ Outcome.overall (r.outcomes g) = .succeeded
  simp only [Outcome.overall_eq_succeeded_iff, Run.reportOf, Bool.and_eq_true, not_and, Bool.not_eq_true',
    Bool.not_eq_false]

/-- What a complete run reports, at once or again. -/
theorem gateReport_complete (hgraph : r.graph = some g) (hcomplete : r.complete = true)
    (hkept : ∀ made, r.report = some made → made = r.reportOf g) :
    ∃ r', r.gateReport = .ok (r.reportOf g, r') := by
  cases hreport : r.report with
  | none => exact ⟨_, Run.gateReport_of_complete hreport hgraph hcomplete⟩
  | some made => exact ⟨r, by rw [Run.gateReport, hreport, hkept made hreport]⟩

/-- **Reporter and receiver agree.** Whatever the results of a complete run are, its report as JSON text
holds a document that the receiver takes as it is, and for the receiver the critical jobs that did not
pass kept the gate closed, in declaration order: none if the gate is open, and some if it is not. -/
theorem contract_agreed {decode : String → Option Value} (hgraph : r.graph = some g)
    (hcomplete : r.complete = true) (hid : r.id ≠ "")
    (hkept : ∀ made, r.report = some made → made = r.reportOf g)
    (hdecode : decode (r.reportOf g).toJson = some (r.reportOf g).document) :
    ∃ gate r' body s, r.gateReport = .ok (gate, r') ∧ decode gate.toJson = some body ∧
      Json.compact body = gate.toJson ∧ report body = .ok s ∧ s = gate.received ∧ gate.definitions = r.outcomes g ∧
      s.blocking = (((r.outcomes g).filter fun o => o.critical && !o.passed).map (·.id)) ∧
      (s.blocking = [] ↔ gate.overall = .succeeded) := by
  obtain ⟨r', hgate⟩ := gateReport_complete hgraph hcomplete hkept
  exact ⟨_, r', _, _, hgate, hdecode, compact_document, report_document hid, rfl, rfl,
    blocking_received _, blocking_eq_nil_iff⟩

end

/-! ### A finished run -/

/-- The checked workflow of the run below. -/
def graphSample : JobGraph where
  workflow := { name := "gate", jobs := [] }
  jobs := [{ id := "lint", steps := [] }, { id := "test", steps := [] }, { id := "release", steps := [] }]
  needs := []
  dependents := []
  levels := [["lint", "test", "release"]]

/-- A job that may fail did, a job in two variants had one of them cancelled, and a job was left out. -/
def finishedSample : Run where
  workflow := "gate"
  trigger := .ofRef .push "refs/heads/main" none
  id := "1"
  instances := [⟨"lint", [], 0, [], [], true⟩, ⟨"test", [("os", .text "linux")], 0, [], [], false⟩,
    ⟨"test", [("os", .text "mac")], 1, [], [], false⟩]
  results := [
    .absent "release" Reason.condition,
    .ofExit ⟨"lint", [], 0, [], [], true⟩ (some 2) 0.5 "" (some Reason.exit),
    .ofExit ⟨"test", [("os", .text "linux")], 0, [], [], false⟩ (some 0) 1.5 "" none,
    .skip ⟨"test", [("os", .text "mac")], 1, [], [], false⟩ Reason.cancelled]
  graph := some graphSample

theorem contract_agreed_sample : ∃ (decode : String → Option Value) (gate : GateReport) (r' : Run)
    (body : Value) (s : StatusReport),
    finishedSample.complete = true ∧ finishedSample.id ≠ "" ∧
      decode (finishedSample.reportOf graphSample).toJson = some (finishedSample.reportOf graphSample).document ∧
      finishedSample.gateReport = .ok (gate, r') ∧ decode gate.toJson = some body ∧ report body = .ok s ∧
      s = gate.received ∧ s.blocking = ["test"] ∧ gate.overall = .failed := by
  let gate := finishedSample.reportOf graphSample
  let decode (s : String) : Option Value := if s = gate.toJson then some gate.document else none
  have hcomplete : finishedSample.complete = true := by decide +kernel
  have hid : finishedSample.id ≠ "" := by decide
  have hdecode : decode gate.toJson = some gate.document := if_pos rfl
  have hblocking : gate.received.blocking = ["test"] ∧ gate.overall = .failed := by decide +kernel
  obtain ⟨gate', r', body, s, hgate, hbody, -, hs, hreceived, -⟩ :=
    contract_agreed (r := finishedSample) (g := graphSample) rfl hcomplete hid (fun made h => by cases h) hdecode
  obtain rfl : gate = gate' := by
    rw [Run.gateReport_of_complete rfl rfl hcomplete] at hgate
    exact congrArg Prod.fst (Except.ok.inj hgate)
  exact ⟨decode, gate, r', body, s, hcomplete, hid, hdecode, hgate, hbody, hs, hreceived,
    hreceived ▸ hblocking.1, hblocking.2⟩

end Receiver

end MergeGate
