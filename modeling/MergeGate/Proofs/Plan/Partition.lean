/-
What planning makes of the jobs of a graph, told without planning: the jobs whose condition is true and
whose axes all have a value own the instances of the run, in declaration order, and each of the others
stands in it as absent (`plan_partitions`).
-/
import MergeGate.Proofs.Graph.Acceptance
import MergeGate.Proofs.Loading
import MergeGate.Proofs.Schedule.Order

namespace MergeGate

/-! ## The instances of one job -/

namespace Matrix

/-- A grid has no point exactly when some axis has no value. -/
theorem grid_eq_nil_iff {axes : List (String × List Value)} : grid axes = [] ↔ ∃ a ∈ axes, a.2 = [] := by
  induction axes with
  | nil => simp [grid]
  | cons a axes ih =>
    obtain ⟨axis, vs⟩ := a
    simp only [grid, List.flatMap_eq_nil_iff, List.map_eq_nil_iff, ih, List.exists_mem_cons_iff]
    constructor
    · intro h
      cases vs with
      | nil => exact .inl rfl
      | cons v vs => exact .inr (h v (.head _))
    · rintro (rfl | h) v hv
      · cases hv
      · exact h

/-- Does every axis of the job's matrix have a value? -/
def hasValues (j : Job) : Bool :=
  match axes j.matrix with
  | .ok as => as.all fun a => !a.2.isEmpty
  | .error _ => false

theorem Grid.hasValues_iff {j : Job} {axes : List (String × List Value)} (h : Grid j axes)
    {base : Assoc Value} {is : List Instance} (his : expand j base = .ok is) :
    hasValues j = true ↔ is ≠ [] := by
  have hall : hasValues j = true ↔ ∀ a ∈ axes, a.2 ≠ [] := by
    simp [hasValues, h.read]
  have hnil : is = [] ↔ grid axes = [] := by
    rw [← h.expand_coordinates his, List.map_eq_nil_iff]
  rw [hall, ne_eq, hnil, grid_eq_nil_iff]
  simp only [not_exists, not_and, ne_eq]

/-- The instances of a job are numbered in their order. -/
theorem expand_index {j : Job} {base : Assoc Value} {is : List Instance} (h : expand j base = .ok is) :
    is.Pairwise fun a b => a.index < b.index := by
  obtain ⟨axes, hread, -⟩ := expand_eq_ok.1 h
  have hindices : is.map (·.index) = List.range' 0 (coordinates axes).length := by
    simpa [Function.comp_def] using congrArg (List.map (·.2)) (expand_numbered hread h)
  rw [← List.pairwise_map, hindices]
  exact List.pairwise_lt_range'

end Matrix

namespace Plan

/-! ## The choice about one job -/

/-- Is the job's condition true of the trigger? -/
def wanted (t : Trigger) (j : Job) : Bool :=
  match j.condition.evaluate t with
  | .ok b => b
  | .error _ => false

/-- Does the job run? -/
def runs (t : Trigger) (j : Job) : Bool := wanted t j && Matrix.hasValues j

/-- The record of a job that does not run. -/
def absence (t : Trigger) (j : Job) : Result :=
  .absent j.id (if wanted t j then Reason.emptyMatrix else Reason.condition)

theorem Plannable.evaluate {j : Job} (h : Plannable j) (t : Trigger) :
    j.condition.evaluate t = .ok (wanted t j) := by
  obtain ⟨b, hb⟩ := Condition.evaluate_total t h.condition
  rw [wanted, hb]

/-- A job that runs is expanded to at least one instance, and any other is absent. -/
theorem Plannable.choose_eq {j : Job} (h : Plannable j) {env : Assoc Value} {t : Trigger} {c : Choice}
    (hc : choose env t j = .ok c) :
    (runs t j = true ∧ ∃ is, is ≠ [] ∧ Matrix.expand j env = .ok is ∧ c = .instances is) ∨
      (runs t j = false ∧ ∃ reason, c = .absent reason ∧ .absent j.id reason = absence t j) := by
  obtain ⟨axes, hgrid⟩ := h.matrix
  obtain ⟨is, his⟩ := hgrid.expand_total h.steps env
  have hvalues := hgrid.hasValues_iff his
  simp only [choose, h.evaluate t, his, Except.mapError, bind, Except.bind, pure, Except.pure] at hc
  cases hw : wanted t j with
  | false =>
    obtain rfl : .absent Reason.condition = c := by simpa [hw] using hc
    exact .inr ⟨by simp [runs, hw], _, rfl, by simp [absence, hw]⟩
  | true =>
    by_cases hnil : is = []
    · obtain rfl : .absent Reason.emptyMatrix = c := by simpa [hw, hnil] using hc
      have hempty : Matrix.hasValues j = false := by simpa [hnil] using hvalues
      exact .inr ⟨by simp [runs, hw, hempty], _, rfl, by simp [absence, hw]⟩
    · obtain rfl : .instances is = c := by simpa [hw, hnil] using hc
      exact .inl ⟨by simp [runs, hw, hvalues.2 hnil], is, hnil, his, rfl⟩

/-! ## The choices about all jobs -/

/-- The instances of several jobs, each job's behind those of the jobs before it. -/
def Expands (env : Assoc Value) (jobs : List Job) (is : List Instance) : Prop :=
  ∃ parts, List.Forall₂ (fun j part => Matrix.expand j env = .ok part) jobs parts ∧ is = parts.flatten

theorem Expands.cons {env : Assoc Value} {j : Job} {jobs : List Job} {part is : List Instance}
    (hj : Matrix.expand j env = .ok part) (h : Expands env jobs is) :
    Expands env (j :: jobs) (part ++ is) := by
  obtain ⟨parts, hparts, rfl⟩ := h
  exact ⟨part :: parts, .cons hj hparts, rfl⟩

theorem Expands.owner {env : Assoc Value} {jobs : List Job} {is : List Instance}
    (h : Expands env jobs is) : ∀ i ∈ is, ∃ j ∈ jobs, j.id = i.job := by
  obtain ⟨parts, hparts, rfl⟩ := h
  induction hparts with
  | nil => simp
  | @cons j part jobs parts hpart _ ih =>
    rw [List.flatten_cons, List.forall_mem_append]
    refine ⟨fun i hi => ⟨j, .head _, (Matrix.expand_job hpart i hi).symm⟩, fun i hi => ?_⟩
    obtain ⟨k, hk, hki⟩ := ih i hi
    exact ⟨k, .tail _ hk, hki⟩

/-- Planning further jobs adds the instances of those that run and the records of the others. -/
theorem planJobs_splits {env : Assoc Value} : ∀ {rest : List Job} {r r' : Run} {ns : List Notice},
    (∀ j ∈ rest, Plannable j) → planJobs env r rest = .ok (r', ns) →
      r'.triggered = r.triggered ∧ r'.results = r.results ++
          (rest.filter fun j => !runs r.trigger j).map (absence r.trigger) ∧
        ∃ is, Expands env (rest.filter (runs r.trigger)) is ∧ r'.instances = r.instances ++ is
  | [], r, r', ns, _, h => by
    simp only [planJobs, Except.ok.injEq, Prod.mk.injEq] at h
    obtain ⟨rfl, -⟩ := h
    exact ⟨rfl, by simp, [], ⟨[], .nil, rfl⟩, by simp⟩
  | j :: rest, r, r', ns, hj, h => by
    simp only [planJobs, bind_eq_ok, pure_eq_ok, Prod.mk.injEq] at h
    obtain ⟨c, hc, ⟨r₁, n⟩, he, ⟨r₂, more⟩, hrest, rfl, -⟩ := h
    obtain ⟨hplan, hplans⟩ := List.forall_mem_cons.1 hj
    obtain ⟨htriggered, hresults, is, his, hinstances⟩ := planJobs_splits hplans hrest
    rcases hplan.choose_eq hc with ⟨hruns, part, -, hpart, rfl⟩ | ⟨hruns, reason, rfl, habsent⟩
    · simp only [enter, Except.ok.injEq, Prod.mk.injEq] at he
      obtain ⟨rfl, -⟩ := he
      refine ⟨htriggered, ?_, part ++ is, ?_, ?_⟩
      · simpa [List.filter_cons, hruns] using hresults
      · rw [List.filter_cons, if_pos hruns]
        exact his.cons hpart
      · rw [hinstances, List.append_assoc]
    · simp only [enter, bind_eq_ok, mapError_eq_ok, pure_eq_ok, Prod.mk.injEq] at he
      obtain ⟨_, hrec, rfl, -⟩ := he
      obtain ⟨-, -, rfl⟩ := Run.record_eq_ok_iff.1 hrec
      refine ⟨htriggered, ?_, is, ?_, hinstances⟩
      · simpa [List.filter_cons, hruns, habsent] using hresults
      · simpa [List.filter_cons, hruns] using his

theorem absentAll_splits : ∀ {rest : List Job} {r r' : Run}, absentAll r rest = .ok r' →
    r'.triggered = r.triggered ∧ r'.instances = r.instances ∧
      r'.results = r.results ++ rest.map fun j => .absent j.id Reason.condition
  | [], r, r', h => by
    obtain rfl : r = r' := Except.ok.inj h
    simp
  | j :: rest, r, r', h => by
    simp only [absentAll, bind_eq_ok, mapError_eq_ok] at h
    obtain ⟨r₁, hrec, hrest⟩ := h
    obtain ⟨-, -, rfl⟩ := Run.record_eq_ok_iff.1 hrec
    obtain ⟨htriggered, hinstances, hresults⟩ := absentAll_splits hrest
    exact ⟨htriggered, hinstances, by simp [hresults]⟩

/-! ## The order of the instances -/

/-- Jobs in declaration order expand to instances in the order in which they start. -/
theorem Expands.pairwise {g : JobGraph} {env : Assoc Value} {jobs : List Job} {is : List Instance}
    (h : Expands env jobs is) (hjobs : jobs.Pairwise fun j k => g.order j.id < g.order k.id) :
    is.Pairwise fun a b => Schedule.before g a b = true := by
  obtain ⟨parts, hparts, rfl⟩ := h
  induction hparts with
  | nil => exact .nil
  | @cons j part jobs parts hpart hrest ih =>
    obtain ⟨hfirst, hothers⟩ := List.pairwise_cons.1 hjobs
    have howner := Matrix.expand_job hpart
    rw [List.flatten_cons, List.pairwise_append]
    refine ⟨?_, ih hothers, ?_⟩
    · refine (Matrix.expand_index hpart).imp_of_mem fun {a b} ha hb hlt => Schedule.before_iff.2 (.inr ?_)
      exact ⟨by rw [howner a ha, howner b hb], Nat.le_of_lt hlt⟩
    · -- the instances of a later job start later
      intro a ha b hb
      obtain ⟨k, hk, hkb⟩ := Expands.owner ⟨parts, hrest, rfl⟩ b hb
      rw [Schedule.before_iff, howner a ha, ← hkb]
      exact .inl (hfirst k hk)

/-! ## Classes -/

/-- Each job either owns instances or has one record, which says that it is absent. -/
structure Classed (g : JobGraph) (r : Run) : Prop where
  classes : ∀ j ∈ g.jobs, (∃ i ∈ r.instances, i.job = j.id) ∧ r.resultsFor j.id = [] ∨
    (∀ i ∈ r.instances, i.job ≠ j.id) ∧ ∃ reason, r.resultsFor j.id = [.absent j.id reason]
  apart : ∀ x ∈ r.results, ∀ i ∈ r.instances, i.job ≠ x.job

theorem Planned.classed {g : JobGraph} {r : Run} (h : Planned g r) : Classed g r where
  classes := by
    intro j hj
    rcases h.decided j hj with ⟨i, hi, hij⟩ | ⟨reason, -, hfound⟩
    · refine .inl ⟨⟨i, hi, hij⟩, List.filter_eq_nil_iff.2 fun x hx hjob => ?_⟩
      obtain ⟨k, -, why, -, rfl, hnone⟩ := h.absent x hx
      exact hnone i hi (hij.trans (beq_iff_eq.1 hjob).symm)
    · obtain ⟨hrecord, -⟩ := Run.result?_eq_some hfound
      obtain ⟨k, -, why, -, heq, hnone⟩ := h.absent _ hrecord
      have hid : j.id = k.id := congrArg Result.job heq
      refine .inr ⟨hid ▸ hnone, reason, Run.resultsFor_eq_singleton h.once hrecord fun x hx hjob => ?_⟩
      obtain ⟨l, -, why', -, rfl, -⟩ := h.absent x hx
      exact hjob
  apart := by
    intro x hx
    obtain ⟨k, -, why, -, rfl, hnone⟩ := h.absent x hx
    exact hnone

/-! ## The whole plan -/

/-- The jobs of a graph stand in declaration order. -/
theorem pairwise_order {g : JobGraph} (hd : (g.jobs.map (·.id)).Nodup) :
    g.jobs.Pairwise fun j k => g.order j.id < g.order k.id := by
  have hids := Staging.pairwise_position hd (List.Sublist.refl _)
  rw [List.pairwise_map] at hids
  exact hids

/-- What a triggered run holds: the instances of the jobs that run, and a record of each other job. -/
structure Partitioned (g : JobGraph) (t : Trigger) (r : Run) : Prop where
  triggered : r.triggered = true
  evaluated : ∀ j ∈ g.jobs, j.condition.evaluate t = .ok (wanted t j)
  spread : ∀ j ∈ g.jobs, ∃ axes, Matrix.axes j.matrix = .ok axes
  instances : Expands g.workflow.env (g.jobs.filter (runs t)) r.instances
  records : r.results = (g.jobs.filter fun j => !runs t j).map (absence t)

/-- What a run holds that is not triggered: a record of each job and nothing else. -/
structure Untriggered (g : JobGraph) (r : Run) : Prop where
  triggered : r.triggered = false
  instances : r.instances = []
  records : r.results = g.jobs.map fun j => .absent j.id Reason.condition

theorem plan_splits {g : JobGraph} (hj : ∀ j ∈ g.jobs, Plannable j) {t : Trigger} {runId : String} {r : Run}
    {ns : List Notice} (hp : plan g t runId = .ok (r, ns)) :
    (g.workflow.accepts t = true → Partitioned g t r) ∧
      (g.workflow.accepts t = false → Untriggered g r) := by
  rw [plan] at hp
  split at hp
  · next haccepts =>
    obtain ⟨htriggered, hresults, is, his, hinstances⟩ := planJobs_splits hj hp
    refine ⟨fun _ => ⟨htriggered, fun j hmem => (hj j hmem).evaluate t, fun j hmem => ?_, ?_, ?_⟩, ?_⟩
    · obtain ⟨axes, hgrid⟩ := (hj j hmem).matrix
      exact ⟨_, hgrid.read⟩
    · rw [hinstances]
      exact his
    · exact hresults
    · simp [haccepts]
  · next haccepts =>
    simp only [bind_eq_ok, pure_eq_ok, Prod.mk.injEq] at hp
    obtain ⟨_, hall, rfl, -⟩ := hp
    obtain ⟨htriggered, hinstances, hresults⟩ := absentAll_splits hall
    exact ⟨fun h => absurd h haccepts, fun _ => ⟨htriggered, hinstances, hresults⟩⟩

/-- The instances of a plan stand in the order in which they start. -/
theorem plan_inOrder {g : JobGraph} (hd : (g.jobs.map (·.id)).Nodup) (hj : ∀ j ∈ g.jobs, Plannable j)
    {t : Trigger} {runId : String} {r : Run} {ns : List Notice} (hp : plan g t runId = .ok (r, ns)) :
    Schedule.inOrder g r.instances = r.instances := by
  obtain ⟨hyes, hno⟩ := plan_splits hj hp
  cases haccepts : g.workflow.accepts t with
  | true =>
    have hjobs := (pairwise_order hd).sublist (List.filter_sublist (p := runs t))
    exact Schedule.inOrder_eq_self ((hyes haccepts).instances.pairwise hjobs)
  | false =>
    rw [(hno haccepts).instances]
    exact Schedule.inOrder_eq_self .nil

theorem build_ids {wf : Workflow} {g : JobGraph} (hg : JobGraph.build wf = .ok g) :
    g.jobs.map (·.id) = wf.jobs.map (·.id) := by
  obtain ⟨-, -, levels, cs, -, hcs, rfl⟩ := JobGraph.build_eq_ok.1 hg
  simpa [JobGraph.assemble, Function.comp_def] using JobGraph.ids_of_checks hcs

/-- **Planning partitions the jobs.** A graph that was built can be planned for every trigger. If the
workflow answers the trigger, the jobs that run own the instances, expanded one after the other in
declaration order, and each other job has a record that says why it is absent. If it does not, there is
only a record of each job. No job is in both classes or in neither, and the instances stand in the order
in which they start. -/
theorem plan_partitions {wf : Workflow} {g : JobGraph} (hg : JobGraph.build wf = .ok g)
    (hw : ∀ j ∈ wf.jobs, ∀ s ∈ j.steps, Matrix.Worded s.env) (t : Trigger) (runId : String) :
    g.workflow = wf ∧ g.jobs.map (·.id) = wf.jobs.map (·.id) ∧
      ∃ r ns, plan g t runId = .ok (r, ns) ∧
        (wf.accepts t = true → Partitioned g t r) ∧
        (wf.accepts t = false → Untriggered g r) ∧
        Classed g r ∧ Schedule.inOrder g r.instances = r.instances := by
  have hworkflow : g.workflow = wf := (JobGraph.build_represents hg).workflow
  have hacc := JobGraph.build_accepted hg
  have hj : ∀ j ∈ g.jobs, Plannable j := by
    intro k hk
    obtain ⟨j, hj, condition, hcondition, rfl, hmatrix⟩ := JobGraph.build_checked hg k hk
    exact ⟨Condition.check_of_resolve hcondition, Matrix.checkCause_ok hmatrix, hw j hj⟩
  obtain ⟨r, ns, hp⟩ := plan_total hacc.distinct hj t runId
  obtain ⟨hyes, hno⟩ := plan_splits hj hp
  refine ⟨hworkflow, build_ids hg, r, ns, hp, hworkflow ▸ hyes, hworkflow ▸ hno, ?_, ?_⟩
  · exact (plan_planned hacc hp).classed
  · exact plan_inOrder hacc.distinct hj hp

/-- The sample workflow, pushed to the main branch. -/
theorem plan_partitions_sample : ∃ g r ns, JobGraph.build sample = .ok g ∧
    plan g samplePush "1" = .ok (r, ns) ∧ Partitioned g samplePush r ∧ Classed g r ∧
    Schedule.inOrder g r.instances = r.instances := by
  obtain ⟨g, _, _, hg, -, -⟩ := sample_planned
  have hw : ∀ j ∈ sample.jobs, ∀ s ∈ j.steps, Matrix.Worded s.env := by
    simp [sample, Matrix.Worded]
  obtain ⟨-, -, r, ns, hp, hyes, -, hclassed, hsorted⟩ := plan_partitions hg hw samplePush "1"
  exact ⟨g, r, ns, hg, hp, hyes (by decide), hclassed, hsorted⟩

end Plan

end MergeGate
