/-
What the gate section of a document means. The graph of a document says what is read off the document
(`Means`): which jobs there are and which of them decide the gate, what they need and under which policy,
and what their steps and variables are.
-/
import MergeGate.Proofs.Document.Refusal
import MergeGate.Proofs.Graph.Acceptance

namespace MergeGate.Document

open Schema

variable {v : Value}

/-- What a document says of the graph of its workflow. -/
structure Means (v : Value) (g : JobGraph) : Prop where
  ids : g.jobs.map (·.id) = (jobsIn v).keys
  critical : ∀ p ∈ jobsIn v, g.critical p.1 =
    if p.1 ∈ advisoryIn v then false else (ownCritical p.2).getD (gateCritical v)
  needs : ∀ p ∈ jobsIn v, List.Forall₂
    (fun n e => e.job = n.job ∧ e.policy.name = n.require.getD (gateRequire v)) (needsIn p.2) (g.needsOf p.1)
  steps : List.Forall₂ (fun p j => List.Forall₂ StepMeans (stepsIn p.2) j.steps) (jobsIn v) g.jobs
  env : g.workflow.env = envIn v.entriesOf ∧
    List.Forall₂ (fun p j => j.env = envIn p.2.entriesOf) (jobsIn v) g.jobs

/-- The jobs of the graph are those of the document, save that their conditions have been read. -/
theorem graph_jobs {w : Workflow} {g : JobGraph} (hw : Declares v w) (hg : g.Represents w) :
    List.Forall₂ (fun p k => ∃ j, JobMeans v p j ∧ k = { j with condition := k.condition }) (jobsIn v) g.jobs := by
  refine forall₂_trans ?_ hw.jobs hg.jobs
  intro p j k hp hk
  exact ⟨j, hp, hk.2⟩

/-- Under distinct ids, a job decides the gate as it says itself, or else as the workflow does. -/
theorem critical_of_mem {g : JobGraph} (hd : (g.jobs.map (·.id)).Nodup) {k : Job} (hk : k ∈ g.jobs) :
    g.critical k.id = k.critical.getD g.workflow.defaultCritical := by
  have hfind : g.job? k.id = some k := by
    cases hjob : g.job? k.id with
    | none =>
      rw [JobGraph.job?, List.find?_eq_none] at hjob
      exact absurd (beq_self_eq_true k.id) (hjob k hk)
    | some k' =>
      have hid : k'.id = k.id := by simpa using List.find?_some hjob
      rw [List.inj_on_of_nodup_map hd (List.mem_of_find?_eq_some hjob) hk hid]
  rw [JobGraph.critical, hfind]
  rfl

theorem graph_means {source : String} {g : JobGraph}
    (h : (toWorkflow source v >>= JobGraph.build) = .ok g) : Means v g := by
  obtain ⟨w, hw, hg⟩ := bind_eq_ok.1 h
  have hdeclares := toWorkflow_declares hw
  have hrep := JobGraph.build_represents hg
  have hjobs := graph_jobs hdeclares hrep
  constructor
  · symm
    apply map_eq_of_forall₂ hjobs
    intro p k ⟨j, hj, hk⟩
    rw [hk]
    exact hj.id.symm
  · intro p hp
    obtain ⟨k, hk, j, hj, hkj⟩ := exists_of_forall₂ hjobs hp
    have hid : k.id = p.1 := by rw [hkj]; exact hj.id
    have hcritical : k.critical = j.critical := by rw [hkj]
    rw [← hid, critical_of_mem (JobGraph.build_accepted hg).distinct hk, hrep.workflow, hdeclares.critical,
      hcritical, hj.critical, hid]
    by_cases hlisted : p.1 ∈ advisoryIn v
    · simp [hlisted]
    · simp [hlisted]
  · intro p hp
    obtain ⟨j, hj, hmeans⟩ := exists_of_forall₂ hdeclares.jobs hp
    have hneeds := hrep.needs j hj
    rw [hmeans.id, hmeans.needs, hdeclares.require] at hneeds
    refine ((List.forall₂_and_left _ _).2 ⟨require_of_needsIn, hneeds⟩).imp ?_
    intro n e ⟨hrequire, hjob, hpolicy⟩
    exact ⟨hjob, by rw [hpolicy, hrequire]⟩
  · exact hjobs.imp fun p k ⟨j, hj, hk⟩ => by rw [hk]; exact hj.steps
  · refine ⟨by rw [hrep.workflow]; exact hdeclares.env, ?_⟩
    exact hjobs.imp fun p k ⟨j, hj, hk⟩ => by rw [hk]; exact hj.env

/-- **The gate section.** Of every document: if it has a graph, then the graph's jobs are those of the document
in their order; a job that is listed as advisory does not decide the gate, and any other one does as it says
itself or else as the gate section says; it has its needs in their order, each with its own policy or else
that of the gate section; each of its steps has a command or an action, and not both; and all variables are
texts. A document that lists an unknown job as advisory, or one that says it decides the gate, is refused.
What is refused is refused for one of the reasons in `Refused`, and, numbers that are too long apart, as a
configuration. -/
theorem gate_section_means (source : String) (v : Value) :
    (∀ g, (toWorkflow source v >>= JobGraph.build) = .ok g → Means v g) ∧
    (∀ id ∈ advisoryIn v, (id ∉ (jobsIn v).keys ∨ ∃ j, (id, j) ∈ jobsIn v ∧ ownCritical j = some true) →
      ∃ e, toWorkflow source v = .error e) ∧
    ∀ e, toWorkflow source v = .error e → Refused source v e.cause ∧
      (e.cause.kind = "ConfigurationError" ∨ v.isTooLong = true ∧ e.cause = .numberTooLong) := by
  refine ⟨fun g => graph_means, ?_, fun e he => ⟨toWorkflow_refused he, (toWorkflow_refused he).kind⟩⟩
  intro id hid hbad
  cases hw : toWorkflow source v with
  | ok w =>
    exfalso
    have hdeclares := toWorkflow_declares hw
    rcases hbad with hunknown | ⟨j, hj, hflag⟩
    · exact hunknown (hdeclares.advisory id hid)
    · obtain ⟨k, -, hk⟩ := exists_of_forall₂ hdeclares.jobs hj
      exact hk.agrees hid hflag
  | error e => exact ⟨e, rfl⟩

/-- Three jobs: one that decides the gate, one that is listed as advisory, and one that says nothing. -/
def gatedDocument : Value :=
  let step : Value := .list [.map [(.text "run", .text "make")]]
  .map [
    (.text "gate", .map [(.text "critical", .bool false), (.text "advisory", .list [.text "lint"]),
      (.text "require", .text "completion")]),
    (.text "jobs", .map [
      (.text "build", .map [(.text "critical", .bool true), (.text "steps", step)]),
      (.text "lint", .map [(.text "needs", .text "build"), (.text "steps", step)]),
      (.text "docs", .map [(.text "steps", step)])])]

theorem gate_section_means_gatedDocument :
    ∃ g, (toWorkflow "gate.yml" gatedDocument >>= JobGraph.build) = .ok g ∧ Means gatedDocument g ∧
      (jobsIn gatedDocument).keys = ["build", "lint", "docs"] ∧ advisoryIn gatedDocument = ["lint"] ∧
      gateCritical gatedDocument = false ∧ gateRequire gatedDocument = "completion" ∧
      g.critical "build" = true ∧ g.critical "lint" = false ∧ g.critical "docs" = false := by
  have hloads : (toWorkflow "gate.yml" gatedDocument >>= JobGraph.build).toBool = true := by decide +kernel
  have hjobs : jobsIn gatedDocument = [("build", _), ("lint", _), ("docs", _)] := rfl
  cases hload : (toWorkflow "gate.yml" gatedDocument >>= JobGraph.build) with
  | error e => simp [hload, Except.toBool] at hloads
  | ok g =>
    have hmeans := (gate_section_means "gate.yml" gatedDocument).1 g hload
    have hcritical := hmeans.critical
    simp only [hjobs, List.forall_mem_cons] at hcritical
    obtain ⟨hbuild, hlint, hdocs, -⟩ := hcritical
    refine ⟨g, rfl, hmeans, by decide +kernel, by decide +kernel, by decide +kernel, by decide +kernel, ?_, ?_, ?_⟩
    · exact hbuild.trans (by decide +kernel)
    · exact hlint.trans (by decide +kernel)
    · exact hdocs.trans (by decide +kernel)

end MergeGate.Document
