/-
Which workflows have a graph, and what their graph says. The checks are spread over staging, conditions,
matrices and needs, and each was put into words of its own; together they are `WellFormed`
(`exists_build_iff`). The graph of a well-formed workflow represents it (`build_represents`).
-/
import MergeGate.Proofs.Condition.Evaluation
import MergeGate.Proofs.Graph.Cycles
import MergeGate.Proofs.Refusal

namespace MergeGate

/-- The declared condition is nothing, a truth value, the text of a condition, or a tree that passes its
check. -/
def Condition.Readable (c : Condition) : Prop :=
  c = .given .null ∨ (∃ b, c = .given (.bool b)) ∨
    (∃ s d, c = .given (.text s) ∧ parse s = .ok d) ∨ check c = .ok ()

theorem Condition.exists_resolve_iff {c : Condition} : (∃ d, resolve c = .ok d) ↔ c.Readable := by
  have htree : (∃ d, (check c).map (fun _ => c) = .ok d) ↔ check c = .ok () := by
    cases check c <;> simp [Except.map]
  cases c with
  | given v =>
    cases v with
    | null => simp [resolve, Readable]
    | bool b => simp [resolve, Readable]
    | text s => simp [resolve, Readable, check]
    | _ => simpa [resolve, Readable, check] using htree
  | _ => simpa [resolve, Readable] using htree

/-- A workflow without a fault. -/
structure Workflow.WellFormed (w : Workflow) : Prop where
  default : w.defaultRequire = "success" ∨ w.defaultRequire = "completion"
  distinct : (w.jobs.map (·.id)).Nodup
  declared : ∀ j ∈ w.jobs, ∀ n ∈ j.needs, n.job ≠ j.id ∧ ∃ k ∈ w.jobs, k.id = n.job
  once : ∀ j ∈ w.jobs, (j.needs.map (·.job)).Nodup
  acyclic : Staging.Acyclic w.jobs
  steps : ∀ j ∈ w.jobs, j.steps ≠ []
  conditions : ∀ j ∈ w.jobs, j.condition.Readable
  matrices : ∀ j ∈ w.jobs, Matrix.check j = .ok ()
  policies : ∀ j ∈ w.jobs, ∀ n ∈ j.needs,
    n.require = none ∨ n.require = some "" ∨ n.require = some "success" ∨ n.require = some "completion"

theorem Policy.isSome_ofName?_iff {s : String} :
    (ofName? s).isSome ↔ s = "success" ∨ s = "completion" := by
  rw [ofName?]
  split
  · next h => simp [h]
  · next h => split <;> simp_all

theorem Policy.ofName?_eq_some {s : String} {p : Policy} (h : ofName? s = some p) : p.name = s := by
  rw [ofName?] at h
  split at h
  · next hs => cases h; exact hs.symm
  · split at h
    · next hs => cases h; exact hs.symm
    · cases h

namespace JobGraph

/-- Where the default is a policy, so is what a need asks for, unless it names another one. -/
theorem isSome_policy_iff {default : String} (h : (Policy.ofName? default).isSome) (n : Need) :
    (Policy.ofName? (policyName default n)).isSome ↔ n.require = none ∨ n.require = some "" ∨
      n.require = some "success" ∨ n.require = some "completion" := by
  rw [policyName]
  cases hr : n.require with
  | none => simp [h]
  | some r =>
    by_cases hempty : r = ""
    · simp [hempty, h]
    · simp [hempty, Policy.isSome_ofName?_iff]

theorem exists_edges_iff {default : String} : ∀ ns : List Need,
    (∃ es, List.Forall₂ (Resolves default) ns es) ↔
      ∀ n ∈ ns, (Policy.ofName? (policyName default n)).isSome
  | [] => by simp
  | n :: ns => by
    simp only [List.forall₂_cons_left_iff, List.forall_mem_cons, ← exists_edges_iff ns]
    constructor
    · rintro ⟨_, e, es, ⟨-, he⟩, hes, -⟩
      exact ⟨by simp [he], es, hes⟩
    · rintro ⟨hn, es, hes⟩
      obtain ⟨p, hp⟩ := Option.isSome_iff_exists.1 hn
      exact ⟨_, ⟨n.job, p⟩, es, ⟨rfl, hp⟩, hes, rfl⟩

theorem exists_checks_iff {default : String} {j : Job} : (∃ c, Checks default j c) ↔
    j.steps ≠ [] ∧ j.condition.Readable ∧ Matrix.check j = .ok () ∧ (j.needs.map (·.job)).Nodup ∧
      ∀ n ∈ j.needs, (Policy.ofName? (policyName default n)).isSome := by
  rw [← exists_edges_iff, ← Condition.exists_resolve_iff, Matrix.check, mapError_eq_ok]
  constructor
  · rintro ⟨c, h⟩
    exact ⟨h.steps, ⟨_, h.condition⟩, h.matrix, h.once, _, h.edges⟩
  · rintro ⟨hsteps, ⟨condition, hcondition⟩, hmatrix, honce, es, hes⟩
    exact ⟨({ j with condition }, es), hsteps, hcondition, rfl, hmatrix, hes, honce⟩

theorem exists_allChecks_iff {default : String} : ∀ jobs : List Job,
    (∃ cs, List.Forall₂ (Checks default) jobs cs) ↔ ∀ j ∈ jobs, ∃ c, Checks default j c
  | [] => by simp
  | j :: jobs => by
    simp only [List.forall₂_cons_left_iff, List.forall_mem_cons, ← exists_allChecks_iff jobs]
    constructor
    · rintro ⟨_, c, cs, hc, hcs, -⟩
      exact ⟨⟨c, hc⟩, cs, hcs⟩
    · rintro ⟨⟨c, hc⟩, cs, hcs⟩
      exact ⟨_, c, cs, hc, hcs, rfl⟩

/-- A workflow has a graph exactly when nothing is wrong with it. -/
theorem exists_build_iff {w : Workflow} : (∃ g, build w = .ok g) ↔ w.WellFormed := by
  have hbuild : (∃ g, build w = .ok g) ↔ (Policy.ofName? w.defaultRequire).isSome ∧
      Staging.Sound w.jobs ∧ Staging.Acyclic w.jobs ∧ ∀ j ∈ w.jobs, ∃ c, Checks w.defaultRequire j c := by
    simp only [build_eq_ok, ← exists_allChecks_iff]
    constructor
    · rintro ⟨_, hdefault, hsound, levels, cs, hlevels, hcs, -⟩
      have hdone := ((Staging.stages_eq_ok hsound.distinct).1 hlevels).1
      exact ⟨hdefault, hsound, (Staging.place_done_iff hsound).1 hdone, cs, hcs⟩
    · rintro ⟨hdefault, hsound, hacyclic, cs, hcs⟩
      have hdone := (Staging.place_done_iff hsound).2 hacyclic
      exact ⟨_, hdefault, hsound, _, cs, (Staging.stages_eq_ok hsound.distinct).2 ⟨hdone, rfl⟩, hcs, rfl⟩
  rw [hbuild]
  constructor
  · rintro ⟨hdefault, hsound, hacyclic, hchecks⟩
    have hjobs := fun j hj => exists_checks_iff.1 (hchecks j hj)
    exact {
      default := Policy.isSome_ofName?_iff.1 hdefault
      distinct := hsound.distinct
      declared := fun j hj n hn => ⟨hsound.others j hj n hn, by simpa using hsound.declared j hj n hn⟩
      once := fun j hj => (hjobs j hj).2.2.2.1
      acyclic := hacyclic
      steps := fun j hj => (hjobs j hj).1
      conditions := fun j hj => (hjobs j hj).2.1
      matrices := fun j hj => (hjobs j hj).2.2.1
      policies := fun j hj n hn => (isSome_policy_iff hdefault n).1 ((hjobs j hj).2.2.2.2 n hn) }
  · intro h
    have hdefault := Policy.isSome_ofName?_iff.2 h.default
    have hsound : Staging.Sound w.jobs := {
      distinct := h.distinct
      declared := fun j hj n hn => by simpa using (h.declared j hj n hn).2
      others := fun j hj n hn => (h.declared j hj n hn).1 }
    refine ⟨hdefault, hsound, h.acyclic, fun j hj => exists_checks_iff.2 ?_⟩
    exact ⟨h.steps j hj, h.conditions j hj, h.matrices j hj, h.once j hj,
      fun n hn => (isSome_policy_iff hdefault n).2 (h.policies j hj n hn)⟩

/-! ## What a graph says -/

/-- The graph says what the workflow says: its jobs in their order with their conditions read, for each
job its needs in their order with a policy, and the same relation from the other side. -/
structure Represents (g : JobGraph) (w : Workflow) : Prop where
  workflow : g.workflow = w
  jobs : List.Forall₂ (fun j k => j.condition.resolve = .ok k.condition ∧
    k = { j with condition := k.condition }) w.jobs g.jobs
  order : ∀ i, (h : i < w.jobs.length) → g.order w.jobs[i].id = i
  keys : g.needs.keys = w.jobs.map (·.id) ∧ g.dependents.keys = w.jobs.map (·.id)
  needs : ∀ j ∈ w.jobs, List.Forall₂ (fun n e => e.job = n.job ∧
    e.policy.name = (n.require.filter (· != "")).getD w.defaultRequire) j.needs (g.needsOf j.id)
  dependents : ∀ a b, b ∈ (g.dependents.lookup a).getD [] ↔ Staging.Needs w.jobs b a
  single : ∀ a, ((g.dependents.lookup a).getD []).Nodup
  conditions : ∀ k ∈ g.jobs, k.condition.check = .ok ()
  levels : Staging.Layered w.jobs g.levels

theorem policyName_eq (default : String) (n : Need) :
    policyName default n = (n.require.filter (· != "")).getD default := by
  rw [policyName]
  cases n.require with
  | none => rfl
  | some r => by_cases h : r = "" <;> simp [Option.filter, h]

theorem order_eq {w : Workflow} {g : JobGraph} (hd : (w.jobs.map (·.id)).Nodup)
    (hids : g.jobs.map (·.id) = w.jobs.map (·.id)) (i : Nat) (h : i < w.jobs.length) :
    g.order w.jobs[i].id = i := by
  have hposition : g.order w.jobs[i].id = Staging.position g.jobs w.jobs[i].id := rfl
  have hi : i < (w.jobs.map (·.id)).length := by simpa using h
  have hget : w.jobs[i].id = (w.jobs.map (·.id))[i] := by simp
  rw [hposition, Staging.position_eq_idxOf, hids, hget, hd.idxOf_getElem i hi]

theorem mem_dependents_iff {jobs : List Job} (hs : Staging.Sound jobs) {a b : String} :
    b ∈ ((Staging.dependents jobs).lookup a).getD [] ↔ Staging.Needs jobs b a := by
  constructor
  · intro hb
    by_cases ha : a ∈ jobs.map (·.id)
    · obtain ⟨j, hj, haj, hid⟩ := ((Staging.Reordered.refl _).mem ha).1 hb
      obtain ⟨n, hn, hna⟩ := Job.mem_needIds.1 haj
      exact ⟨j, hj, hid, n, hn, hna⟩
    · rw [Staging.lookup_dependents, if_neg ha] at hb
      simp at hb
  · rintro ⟨j, hj, hid, n, hn, rfl⟩
    refine ((Staging.Reordered.refl _).mem (hs.declared j hj n hn)).2 ⟨j, hj, ?_, hid⟩
    exact Job.mem_needIds.2 ⟨n, hn, rfl⟩

theorem build_represents {w : Workflow} {g : JobGraph} (h : build w = .ok g) : g.Represents w := by
  obtain ⟨-, hsound, levels, cs, hlevels, hcs, rfl⟩ := build_eq_ok.1 h
  have hids := ids_of_checks hcs
  have hd : (cs.map (·.1.id)).Nodup := hids ▸ hsound.distinct
  obtain ⟨hdone, rfl⟩ := (Staging.stages_eq_ok hsound.distinct).1 hlevels
  constructor
  · rfl
  · rw [assemble, List.forall₂_map_right_iff]
    exact hcs.imp fun j c hc => ⟨hc.condition, hc.job⟩
  · exact order_eq hsound.distinct (by simpa [assemble, Function.comp_def] using hids)
  · exact ⟨by simpa [assemble, Assoc.keys, Function.comp_def] using hids,
      by simp [assemble, Staging.dependents, Assoc.keys, Function.comp_def]⟩
  · intro j hj
    obtain ⟨c, hc, hchecks⟩ := exists_checks_of_mem hcs hj
    rw [← hchecks.id, assemble_needsOf hd hc]
    exact hchecks.edges.imp fun n e he => ⟨he.1, policyName_eq _ n ▸ Policy.ofName?_eq_some he.2⟩
  · exact fun a b => mem_dependents_iff hsound
  · exact (Staging.Reordered.refl _).nodup hsound.distinct
  · intro k hk
    obtain ⟨j, -, condition, hcondition, rfl, -⟩ := build_checked h k hk
    exact Condition.check_of_resolve hcondition
  · exact Staging.place_layered hsound hdone

end JobGraph

/-- **Acceptance.** A workflow has a graph exactly when nothing is wrong with it, and the graph represents
it. All else is refused as a configuration or a condition; only where a check has to write an integer
that is too long to be written, it can fail for that. -/
theorem build_accepts_wellFormed (w : Workflow) :
    ((∃ g, JobGraph.build w = .ok g) ↔ w.WellFormed) ∧
    (∀ g, JobGraph.build w = .ok g → g.Represents w) ∧
    ∀ e, JobGraph.build w = .error e →
      e.cause.kind = "ConfigurationError" ∨ e.cause.kind = "ConditionError" ∨
        e.cause = .numberTooLong ∧ ∃ j ∈ w.jobs, ¬ j.Short := by
  refine ⟨JobGraph.exists_build_iff, fun g => JobGraph.build_represents, fun e he => ?_⟩
  cases hincident : e.cause.isIncident with
  | false => exact (Cause.kind_of_not_isIncident hincident).imp_right .inl
  | true =>
    refine .inr (.inr ⟨Cause.isIncident_iff.1 hincident, ?_⟩)
    by_contra hshort
    push Not at hshort
    simp [JobGraph.build_calm hshort e he] at hincident

/-- A workflow with an axis value that has one digit more than can be written. -/
def longMatrix : Workflow where
  name := "ci"
  jobs := [{
    id := "build", steps := [{ name := "make" }]
    matrix := .map [(.text "seed", .list [.int (Nat.pow 10 Decimal.maxDigits)])] }]

/-- A workflow can fail to be accepted and be refused neither as a configuration nor as a condition. -/
theorem build_fails_on_longMatrix :
    ∃ e, JobGraph.build longMatrix = .error e ∧ e.cause.kind = "ValueError" := by
  have hkind : (match JobGraph.build longMatrix with
      | .error e => e.cause.kind
      | .ok _ => "") = "ValueError" := by
    decide +kernel
  cases hbuild : JobGraph.build longMatrix with
  | error e => exact ⟨e, rfl, by simpa [hbuild] using hkind⟩
  | ok g => simp [hbuild] at hkind

end MergeGate
