/-
Runs under calls. Results are recorded and the report is asked for in any order, and each call may be
refused. A call does one of four things (`call_called`). What was recorded stands for good, and the report
that a run keeps is that of its results (`Kept`): it is made of all of them, and from then on the run does
not change any more (`after_of_report`).
-/
import MergeGate.Proofs.Run

namespace MergeGate.Run

/-- A call on a run. -/
inductive Call where
  /-- record a result -/
  | record (x : Result)
  /-- ask for the report -/
  | report

/-- What a call gives, a report if it asks for one, and the run after it. A run that refuses a call stays
as it is. -/
def call (r : Run) : Call → Except Fault (Option GateReport) × Run
  | .record x => match r.record x with
    | .ok r' => (.ok none, r')
    | .error fault => (.error fault, r)
  | .report => match r.gateReport with
    | .ok (report, r') => (.ok (some report), r')
    | .error fault => (.error fault, r)

/-- The run after several calls. -/
def after (r : Run) (calls : List Call) : Run := calls.foldl (fun r c => (r.call c).2) r

/-- The run refuses the call. -/
def Refuses (r : Run) (c : Call) : Prop := ∃ fault, (r.call c).1 = .error fault

/-- The report was there from the start, or one of the calls has made it. -/
def Reported (r : Run) (calls : List Call) : Prop :=
  r.report.isSome ∨ ∃ before later report, calls = before ++ .report :: later ∧
    ((r.after before).call .report).1 = .ok (some report)

/-- The run has this graph, and a report that it keeps is that of its results, with none missing. -/
structure Kept (g : JobGraph) (r : Run) : Prop where
  graph : r.graph = some g
  report : ∀ report, r.report = some report → r.complete = true ∧ report = r.reportOf g

/-- The results are new to the run, and no instance is left without one when they are recorded. -/
structure Fills (r : Run) (xs : List Result) : Prop where
  distinct : (xs.map (·.instanceId)).Nodup
  new : ∀ x ∈ xs, r.result? x.instanceId = none
  all : ∀ i ∈ r.instances, r.result? i.id = none → ∃ x ∈ xs, x.instanceId = i.id

/-! ## One call -/

/-- What a call does: what it gives, and the run after it. -/
inductive Called (r : Run) : Call → Except Fault (Option GateReport) → Run → Prop
  | unrecorded {x : Result} {fault : Fault}
    (why : r.report.isSome ∨ (r.result? x.instanceId).isSome) : Called r (.record x) (.error fault) r
  | recorded {x : Result} (unreported : r.report = none) (new : r.result? x.instanceId = none) :
    Called r (.record x) (.ok none) { r with results := r.results ++ [x] }
  | unmade {fault : Fault} (unreported : r.report = none)
    (why : ∀ g, r.graph = some g → r.complete = false) : Called r .report (.error fault) r
  | made {g : JobGraph} (unreported : r.report = none) (graph : r.graph = some g)
    (complete : r.complete = true) :
    Called r .report (.ok (some (r.reportOf g))) { r with report := some (r.reportOf g) }
  | kept {report : GateReport} (there : r.report = some report) : Called r .report (.ok (some report)) r

variable {r r' : Run} {g : JobGraph} {c : Call} {x : Result} {xs : List Result} {report : GateReport}
  {calls more : List Call}

theorem record_called (r : Run) (x : Result) :
    Called r (.record x) (r.call (.record x)).1 (r.call (.record x)).2 := by
  have hcall : r.call (.record x) = match r.record x with
    | .ok r' => (.ok none, r')
    | .error fault => (.error fault, r) := rfl
  by_cases hreported : r.report.isSome = true
  · have hrecord : r.record x = .error (.frozen r.id) := by simp [record, hreported]
    rw [hcall, hrecord]
    exact .unrecorded (.inl hreported)
  by_cases hknown : (r.result? x.instanceId).isSome = true
  · have hrecord : r.record x = .error (.recorded x.instanceId) := by simp [record, hreported, hknown]
    rw [hcall, hrecord]
    exact .unrecorded (.inr hknown)
  have hopen : r.report = none := by simpa using hreported
  have hnew : r.result? x.instanceId = none := by simpa using hknown
  rw [hcall, record_eq_ok_iff.2 ⟨hopen, hnew, rfl⟩]
  exact .recorded hopen hnew

theorem report_called (r : Run) : Called r .report (r.call .report).1 (r.call .report).2 := by
  have hcall : r.call .report = match r.gateReport with
    | .ok (report, r') => (.ok (some report), r')
    | .error fault => (.error fault, r) := rfl
  cases hreport : r.report with
  | some report =>
    have hgate : r.gateReport = .ok (report, r) := by simp [gateReport, hreport]
    rw [hcall, hgate]
    exact .kept hreport
  | none =>
    cases hgraph : r.graph with
    | none =>
      have hgate : r.gateReport = .error (.noGraph r.id) := by simp [gateReport, hreport, hgraph]
      rw [hcall, hgate]
      exact .unmade hreport fun g h => by simp [hgraph] at h
    | some g =>
      by_cases hdone : r.complete = true
      · rw [hcall, gateReport_of_complete hreport hgraph hdone]
        exact .made hreport hgraph hdone
      · rw [hcall, gateReport_open hreport hgraph, if_neg hdone]
        exact .unmade hreport fun _ _ => by simpa using hdone

theorem call_called (r : Run) : ∀ c, Called r c (r.call c).1 (r.call c).2
  | .record x => record_called r x
  | .report => report_called r

theorem refuses_record_iff :
    r.Refuses (.record x) ↔ r.report.isSome ∨ (r.result? x.instanceId).isSome := by
  have hcalled := call_called r (.record x)
  rw [Refuses]
  generalize (r.call (.record x)).1 = answer, (r.call (.record x)).2 = r' at hcalled
  cases hcalled with
  | unrecorded why => simp [why]
  | recorded unreported new => simp [unreported, new]

/-- A run that refuses a call stays as it is. -/
theorem Refuses.call_eq (h : r.Refuses c) : (r.call c).2 = r := by
  obtain ⟨fault, hfault⟩ := h
  have hcalled := call_called r c
  rw [hfault] at hcalled
  generalize (r.call c).2 = r' at hcalled
  cases hcalled with
  | unrecorded => rfl
  | unmade => rfl

/-- A result that is not refused is added, and nothing else is changed. -/
theorem call_record_of_not_refuses (h : ¬ r.Refuses (.record x)) :
    r.call (.record x) = (.ok none, { r with results := r.results ++ [x] }) := by
  have hcalled := call_called r (.record x)
  rw [refuses_record_iff, not_or] at h
  rw [← Prod.mk.eta (p := r.call (.record x))]
  generalize (r.call (.record x)).1 = answer, (r.call (.record x)).2 = r' at hcalled ⊢
  cases hcalled with
  | unrecorded why => exact absurd why (not_or.2 h)
  | recorded => rfl

/-- A run that has a report gives it, and refuses all results: it does not change. -/
theorem call_of_report (h : r.report = some report) (c : Call) : (r.call c).2 = r := by
  have hcalled := call_called r c
  generalize (r.call c).1 = answer, (r.call c).2 = r' at hcalled ⊢
  cases hcalled with
  | unrecorded => rfl
  | recorded unreported => simp [h] at unreported
  | unmade => rfl
  | made unreported => simp [h] at unreported
  | kept => rfl

/-- Results stay where they are, and no call changes what the run consists of. -/
theorem call_extends (r : Run) (c : Call) : r.results <+: (r.call c).2.results ∧
    (r.call c).2.instances = r.instances ∧ (r.call c).2.graph = r.graph := by
  have hcalled := call_called r c
  generalize (r.call c).1 = answer, (r.call c).2 = r' at hcalled ⊢
  cases hcalled with
  | recorded => exact ⟨List.prefix_append _ _, rfl, rfl⟩
  | _ => exact ⟨List.prefix_refl _, rfl, rfl⟩

namespace Kept

theorem call (h : Kept g r) (c : Call) : Kept g (r.call c).2 := by
  have hcalled := call_called r c
  generalize (r.call c).1 = answer, (r.call c).2 = r' at hcalled ⊢
  cases hcalled with
  | unrecorded => exact h
  | recorded unreported =>
    refine ⟨h.graph, fun report hreport => ?_⟩
    have hnone : r.report = some report := hreport
    simp [unreported] at hnone
  | unmade => exact h
  | @made g' unreported graph complete =>
    have hg : g' = g := by simpa [h.graph] using graph.symm
    refine ⟨h.graph, fun report hreport => ⟨complete, ?_⟩⟩
    rw [← Option.some.inj hreport, hg]
    rfl
  | kept => exact h

/-- A report is refused as long as an instance has no result, and then only. -/
theorem refuses_report_iff (h : Kept g r) :
    r.Refuses .report ↔ ∃ i ∈ r.instances, r.result? i.id = none := by
  have hmissing : (∃ i ∈ r.instances, r.result? i.id = none) ↔ r.complete = false := by
    rw [← Bool.not_eq_true, complete_iff]
    push Not
    simp
  have hcalled := call_called r .report
  rw [hmissing, Refuses]
  generalize (r.call .report).1 = answer, (r.call .report).2 = r' at hcalled
  cases hcalled with
  | unmade unreported why => simp [why g h.graph]
  | made unreported graph complete => simp [complete]
  | kept there => simp [(h.report _ there).1]

end Kept

/-- A report that is given is kept. -/
theorem report_of_call (h : (r.call .report).1 = .ok (some report)) :
    (r.call .report).2.report = some report := by
  have hcalled := call_called r .report
  rw [h] at hcalled
  generalize (r.call .report).2 = r' at hcalled ⊢
  cases hcalled with
  | made => rfl
  | kept there => exact there

theorem exists_report_of_not_refuses (h : ¬ r.Refuses .report) :
    ∃ report, (r.call .report).1 = .ok (some report) := by
  have hcalled := call_called r .report
  rw [Refuses] at h
  generalize (r.call .report).1 = answer, (r.call .report).2 = r' at hcalled h
  cases hcalled with
  | unmade => exact absurd ⟨_, rfl⟩ h
  | made => exact ⟨_, rfl⟩
  | kept => exact ⟨_, rfl⟩

theorem call_report_of_report (h : r.report = some report) : (r.call .report).1 = .ok (some report) := by
  have hgate : r.gateReport = .ok (report, r) := by simp [gateReport, h]
  simp [Run.call, hgate]

/-! ## Several calls -/

@[simp] theorem after_nil (r : Run) : r.after [] = r := rfl

theorem after_cons (r : Run) (c : Call) (calls : List Call) :
    r.after (c :: calls) = (r.call c).2.after calls := rfl

theorem after_append (r : Run) (calls more : List Call) :
    r.after (calls ++ more) = (r.after calls).after more := by
  rw [after, List.foldl_append]
  rfl

theorem after_concat (r : Run) (calls : List Call) (c : Call) :
    r.after (calls ++ [c]) = ((r.after calls).call c).2 := after_append r calls [c]

/-- From its report on, a run does not change. -/
theorem after_of_report (h : r.report = some report) : ∀ calls, r.after calls = r
  | [] => rfl
  | c :: calls => by
    rw [after_cons, call_of_report h c]
    exact after_of_report h calls

theorem after_extends : ∀ (calls : List Call) (r : Run), r.results <+: (r.after calls).results ∧
    (r.after calls).instances = r.instances ∧ (r.after calls).graph = r.graph
  | [], r => ⟨List.prefix_refl _, rfl, rfl⟩
  | c :: calls, r => by
    obtain ⟨hresults, hinstances, hgraph⟩ := call_extends r c
    obtain ⟨hresults', hinstances', hgraph'⟩ := after_extends calls (r.call c).2
    rw [after_cons]
    exact ⟨hresults.trans hresults', hinstances'.trans hinstances, hgraph'.trans hgraph⟩

theorem Kept.after : ∀ {calls : List Call} {r : Run}, Kept g r → Kept g (r.after calls)
  | [], _, h => h
  | c :: _, _, h => (h.call c).after

theorem report_call_iff (r : Run) (c : Call) : (r.call c).2.report.isSome ↔
    r.report.isSome ∨ c = .report ∧ ∃ report, (r.call .report).1 = .ok (some report) := by
  constructor
  · intro h
    have hcalled := call_called r c
    generalize hanswer : (r.call c).1 = answer, (r.call c).2 = r' at hcalled h
    cases hcalled with
    | made => exact .inr ⟨rfl, _, hanswer⟩
    | _ => exact .inl h
  · intro h
    rcases h with h | ⟨rfl, report, hreport⟩
    · obtain ⟨report, hreport⟩ := Option.isSome_iff_exists.1 h
      rw [call_of_report hreport]
      exact h
    · rw [report_of_call hreport]
      rfl

theorem reported_cons : r.Reported (c :: calls) ↔ (r.call c).2.Reported calls := by
  rw [Reported, Reported, report_call_iff, or_assoc]
  refine or_congr_right ⟨fun h => ?_, fun h => ?_⟩
  · obtain ⟨before, later, report, hcalls, hreport⟩ := h
    cases before with
    | nil =>
      obtain ⟨rfl, rfl⟩ := List.cons.inj hcalls
      exact .inl ⟨rfl, report, hreport⟩
    | cons _ before =>
      obtain ⟨rfl, rfl⟩ := List.cons.inj hcalls
      exact .inr ⟨before, later, report, rfl, hreport⟩
  · rcases h with ⟨rfl, report, hreport⟩ | ⟨before, later, report, rfl, hreport⟩
    · exact ⟨[], calls, report, rfl, hreport⟩
    · exact ⟨c :: before, later, report, rfl, hreport⟩

/-- A run has a report exactly when one was there or has been made. -/
theorem report_after_iff : ∀ {calls : List Call} {r : Run},
    (r.after calls).report.isSome ↔ r.Reported calls
  | [], r => by simp [Reported]
  | c :: calls, r => by rw [after_cons, reported_cons, report_after_iff]

/-- Recording the first of the results leaves the others to be recorded. -/
theorem Fills.tail (h : r.Fills (x :: xs)) : Fills { r with results := r.results ++ [x] } xs := by
  obtain ⟨hx, hxs⟩ := List.nodup_cons.1 h.distinct
  refine ⟨hxs, fun y hy => ?_, fun i hi hnone => ?_⟩
  · have hne : x.instanceId ≠ y.instanceId := by
      intro he
      exact hx (List.mem_map.2 ⟨y, hy, he.symm⟩)
    rw [result?_append, h.new y (List.mem_cons_of_mem _ hy)]
    simp [hne]
  · rw [result?_append, Option.or_eq_none_iff] at hnone
    obtain ⟨y, hy, hid⟩ := h.all i hi hnone.1
    rcases List.mem_cons.1 hy with rfl | hy
    · simp [hid] at hnone
    · exact ⟨y, hy, hid⟩

/-- A run is complete when what was missing has been recorded. -/
theorem complete_of_fills : ∀ {xs : List Result} {r : Run}, r.report = none → r.Fills xs →
    (r.after (xs.map .record)).complete = true
  | [], r, _, h => by
    refine complete_iff.2 fun i hi => ?_
    by_contra hnone
    obtain ⟨y, hy, -⟩ := h.all i hi (by simpa using hnone)
    cases hy
  | x :: xs, r, hopen, h => by
    have hnew : r.result? x.instanceId = none := h.new x List.mem_cons_self
    have haccepted : ¬ r.Refuses (.record x) := by
      rw [refuses_record_iff]
      simp [hopen, hnew]
    rw [List.map_cons, after_cons, call_record_of_not_refuses haccepted]
    exact complete_of_fills hopen h.tail

theorem Kept.not_refuses_of_fills (h : Kept g r) (hfills : r.Fills xs) :
    ¬ (r.after (xs.map .record)).Refuses .report := by
  have hdone : (r.after (xs.map .record)).complete = true := by
    cases hreport : r.report with
    | none => exact complete_of_fills hreport hfills
    | some report =>
      rw [after_of_report hreport]
      exact (h.report report hreport).1
  rw [h.after.refuses_report_iff]
  intro ⟨i, hi, hnone⟩
  have hsome := complete_iff.1 hdone i hi
  simp [hnone] at hsome

end MergeGate.Run

namespace MergeGate

open Run (Call Kept Reported)

/-- **Results are written once and frozen by the report.** Whatever is called on a run that has a graph:
what was recorded stays; a result is refused exactly when a report has been made or the instance has a
result, and else it is added; a report is refused exactly when an instance has no result, which can be
mended; and once a report is given, every later one is the same, and is that of the current results.
What is refused changes nothing. -/
theorem results_stand {g : JobGraph} {r : Run} (h : Kept g r) (calls : List Call) :
    (∀ more, (r.after calls).results <+: (r.after (calls ++ more)).results ∧
      ∀ id x, (r.after calls).result? id = some x → (r.after (calls ++ more)).result? id = some x) ∧
    (∀ c, (r.after calls).Refuses c → r.after (calls ++ [c]) = r.after calls) ∧
    (∀ x, ((r.after calls).Refuses (.record x) ↔
        Reported r calls ∨ ((r.after calls).result? x.instanceId).isSome) ∧
      (¬ (r.after calls).Refuses (.record x) → r.after (calls ++ [.record x]) =
        { r.after calls with results := (r.after calls).results ++ [x] })) ∧
    ((r.after calls).Refuses .report ↔
      ∃ i ∈ (r.after calls).instances, (r.after calls).result? i.id = none) ∧
    (∀ xs, (r.after calls).Fills xs → ¬ (r.after (calls ++ xs.map .record)).Refuses .report) ∧
    (∀ report, ((r.after calls).call .report).1 = .ok (some report) → ∀ more,
      ((r.after (calls ++ .report :: more)).call .report).1 = .ok (some report) ∧
        report = (r.after (calls ++ .report :: more)).reportOf g) := by
  have hkept : Kept g (r.after calls) := h.after
  refine ⟨fun more => ?_, fun c hc => ?_, fun x => ⟨?_, fun hx => ?_⟩, hkept.refuses_report_iff,
    fun xs hxs => ?_, fun report hreport more => ?_⟩
  · have hextends : (r.after calls).results <+: (r.after (calls ++ more)).results := by
      rw [Run.after_append]
      exact (Run.after_extends more _).1
    exact ⟨hextends, fun id x => Run.result?_mono hextends⟩
  · rw [Run.after_concat]
    exact hc.call_eq
  · rw [Run.refuses_record_iff, Run.report_after_iff]
  · rw [Run.after_concat, Run.call_record_of_not_refuses hx]
  · rw [Run.after_append]
    exact hkept.not_refuses_of_fills hxs
  · have hthere : ((r.after calls).call .report).2.report = some report := Run.report_of_call hreport
    have hsame : r.after (calls ++ .report :: more) = ((r.after calls).call .report).2 := by
      rw [Run.after_append, Run.after_cons, Run.after_of_report hthere]
    rw [hsame]
    exact ⟨Run.call_report_of_report hthere, ((hkept.call .report).report report hthere).2⟩

/-- Two jobs of which nothing is known yet. -/
def openRun : Run where
  workflow := "ci"
  trigger := .ofRef .push "refs/heads/main" none
  id := "1"
  instances := [⟨"lint", [], 0, [], [], false⟩, ⟨"test", [], 0, [], [], false⟩]
  graph := some {
    workflow := { name := "ci", jobs := [] }
    jobs := [{ id := "lint", steps := [] }, { id := "test", steps := [] }]
    needs := [], dependents := [], levels := [["lint", "test"]] }

/-- The first report comes too early, the second is given, and a late result does not change it. -/
theorem results_stand_openRun :
    let calls : List Call := [.record (.absent "lint" Reason.condition), .report,
      .record (.absent "test" Reason.blocked)]
    let late : Call := .record (.absent "deploy" Reason.blocked)
    (openRun.after (calls.take 1)).Refuses .report ∧ ∃ g report, Kept g openRun ∧
      ((openRun.after calls).call .report).1 = .ok (some report) ∧
      ((openRun.after (calls ++ [.report, late])).call .report).1 = .ok (some report) ∧
      (openRun.after (calls ++ [.report])).Refuses late := by
  intro calls late
  obtain ⟨g, hg⟩ : ∃ g, openRun.graph = some g := ⟨_, rfl⟩
  have hkept : Kept g openRun := ⟨hg, by simp [openRun]⟩
  have hearly : (openRun.after (calls.take 1)).Refuses .report :=
    (results_stand hkept (calls.take 1)).2.2.2.1.2 ⟨_, .tail _ (.head _), rfl⟩
  obtain ⟨-, -, -, hcomplete, -, hsame⟩ := results_stand hkept calls
  have hdone : ¬ (openRun.after calls).Refuses .report := by
    rw [hcomplete]
    decide
  obtain ⟨report, hreport⟩ := Run.exists_report_of_not_refuses hdone
  have hmade : Reported openRun (calls ++ [.report]) := .inr ⟨calls, [], report, rfl, hreport⟩
  have hlate := (results_stand hkept (calls ++ [.report])).2.2.1 (.absent "deploy" Reason.blocked)
  exact ⟨hearly, g, report, hkept, hreport, (hsame report hreport [late]).1, hlate.1.2 (.inl hmade)⟩

end MergeGate
