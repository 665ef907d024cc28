/-
Loading a document. Either it is refused for what is wrong with the configuration, or its graph can
be planned for every trigger. One thing is neither: an integer with too many digits to be written.
Refusals are followed from the document to its jobs (`Calm`), and what a document hands on to them is
what the checks and planning need: conditions and matrices without such an integer, and steps whose
variables are texts.
-/
import MergeGate.Document.Workflow
import MergeGate.Proofs.Condition.Evaluation
import MergeGate.Proofs.Matrix
import MergeGate.Proofs.Plan
import MergeGate.Proofs.Refusal

namespace MergeGate

/-! ## Declaring a document -/

namespace Document

open Schema

/-- The variables of a step, a job or a workflow can be written. -/
def EnvShort (m : Assoc Value) : Prop := ∀ p ∈ m, p.2.Short

theorem scalar_keeps : Keeps Value.Short scalar := by
  intro v a hv ha
  cases v with
  | bytes bs =>
    simp only [scalar] at ha
    split at ha
    · cases ha
      rfl
    · cases ha
  | _ =>
    simp only [scalar] at ha
    split at ha
    · cases ha
      exact hv
    · cases ha

theorem env_short {es : List (Value × Value)} (hes : Value.ShortIn es) {m : Assoc Value}
    (hm : env es = .ok m) : EnvShort m :=
  scalar_keeps.map.defaulted (by simp) hes hm

theorem step_keeps : Keeps (fun s => EnvShort s.env) step := by
  intro v s hv hs
  simp only [step, bind_eq_ok] at hs
  obtain ⟨es, hrecord, s', hfields, hs⟩ := hs
  split at hs
  · cases hs
  · cases hs
    have hes := record_eq_ok hrecord hv
    simp only [stepFields, both_eq_ok, map_eq_ok] at hfields
    obtain ⟨_, m, ⟨_, _, ⟨_, _, ⟨_, _, ⟨_, _, rfl⟩, _, rfl⟩, _, rfl⟩, _, rfl⟩, hm, rfl⟩ := hfields
    exact env_short hes hm

/-- A condition is nothing, a truth value or a text. -/
theorem condition_keeps : Keeps Value.Short condition := by
  have hread : ∀ v a : Value, orElse ("bool", "str") ((bool v).map .bool) ((text v).map .text) = .ok a →
      a.Short := by
    intro v a ha
    rcases orElse_eq_ok ha with h | h
    · obtain ⟨b, -, rfl⟩ := map_eq_ok.1 h
      rfl
    · obtain ⟨s, -, rfl⟩ := map_eq_ok.1 h
      rfl
  intro v a _ ha
  unfold condition at ha
  split at ha
  · cases ha
    rfl
  · cases ha
    rfl
  · exact hread _ a ha

theorem matrix_keeps : Keeps EnvShort matrix := by
  intro v m hv hm
  simp only [matrix, bind_eq_ok] at hm
  obtain ⟨axes, haxes, hm⟩ := hm
  have hkeep : Keeps Value.Short anything := by
    rintro v _ hv ⟨⟩
    exact hv
  split at hm
  · cases hm
    exact hkeep.map hv haxes
  · cases hm

theorem strategy_keeps : Keeps EnvShort strategy := by
  intro v m hv hm
  simp only [strategy, bind_eq_ok] at hm
  obtain ⟨es, hrecord, hm⟩ := hm
  exact matrix_keeps.defaulted (by simp [EnvShort]) (record_eq_ok hrecord hv) hm

/-- A job of a document that can be written. -/
structure JobDoc.Short (d : JobDoc) : Prop where
  env : EnvShort d.env
  steps : ∀ s ∈ d.steps, EnvShort s.env
  condition : d.condition.Short
  matrix : ∀ m, d.matrix = some m → EnvShort m

theorem job_keeps : Keeps JobDoc.Short job := by
  intro v d hv hd
  simp only [job, bind_eq_ok, both_eq_ok, map_eq_ok] at hd
  obtain ⟨es, hrecord, _, steps, ⟨_, vars, ⟨_, _, ⟨_, _, ⟨_, axes, ⟨_, condition, ⟨_, _, ⟨_, _, rfl⟩,
    _, rfl⟩, hcondition, rfl⟩, haxes, rfl⟩, _, rfl⟩, _, rfl⟩, hvars, rfl⟩, hsteps, rfl⟩ := hd
  have hes := record_eq_ok hrecord hv
  exact ⟨env_short hes hvars, step_keeps.someList.required hes hsteps,
    condition_keeps.fieldNamed (by rintro _ ⟨⟩; rfl) hes hcondition,
    strategy_keeps.optional.defaulted (by simp) hes haxes⟩

/-- A document that can be written. -/
structure WorkflowDoc.Short (d : WorkflowDoc) : Prop where
  env : EnvShort d.env
  jobs : ∀ p ∈ d.jobs, ∀ j, p.2 = some j → j.Short

theorem workflow_short {es : List (Value × Value)} (hes : Value.ShortIn es) {d : WorkflowDoc}
    (hd : workflow es = .ok d) : d.Short := by
  simp only [workflow, both_eq_ok, map_eq_ok] at hd
  obtain ⟨_, jobs, ⟨_, _, ⟨_, vars, ⟨_, _, ⟨_, _, rfl⟩, _, rfl⟩, hvars, rfl⟩, _, rfl⟩, hjobs, rfl⟩ := hd
  exact ⟨env_short hes hvars, job_keeps.optional.map.required hes hjobs⟩

theorem nameEvents_short {es : List (Value × Value)} (h : Value.ShortIn es) :
    Value.ShortIn (nameEvents es) := by
  rw [nameEvents]
  split
  · exact h
  · split
    · exact h
    · next v hv =>
      obtain ⟨e, he, rfl⟩ := Option.map_eq_some_iff.1 hv
      refine List.forall_mem_append.2 ⟨fun x hx => h x (List.mem_of_mem_filter hx), ?_⟩
      simpa using h e (List.mem_of_find?_eq_some he)

/-- Variables become texts. -/
theorem envTexts_worded : ∀ {m m' : Assoc Value}, envTexts m = .ok m' → Matrix.Worded m'
  | [], m', h => by
    cases h
    simp [Matrix.Worded]
  | (k, v) :: m, m', h => by
    rw [envTexts] at h
    split at h
    · cases h
    · obtain ⟨rest, hrest, rfl⟩ := map_eq_ok.1 h
      exact List.forall_mem_cons.2 ⟨.inr ⟨_, rfl⟩, envTexts_worded hrest⟩

/-- Texts can be written. -/
theorem envValues_short {j : Job} (hsteps : ∀ s ∈ j.steps, Matrix.Worded s.env)
    (henv : Matrix.Worded j.env) : ∀ v ∈ Matrix.envValues j, v.Short := by
  have hworded : ∀ {m : Assoc Value}, Matrix.Worded m → ∀ p ∈ m, p.2.Short := by
    intro m hm p hp
    rcases hm p hp with h | ⟨t, h⟩
    · rw [h]; rfl
    · rw [h]; rfl
  simp only [Matrix.envValues, List.forall_mem_append, List.mem_flatMap, List.mem_map]
  constructor
  · rintro v ⟨s, hs, p, hp, rfl⟩
    exact hworded (hsteps s hs) p hp
  · rintro v ⟨p, hp, rfl⟩
    exact hworded henv p hp

theorem envTexts_calm : ∀ {m : Assoc Value}, EnvShort m → Calm Rejection.cause (envTexts m)
  | [], _ => .ok
  | (k, v) :: m, h => by
    simp only [EnvShort, List.forall_mem_cons] at h
    have hv : v.isTooLong = false := h.1
    rw [envTexts, if_neg (by simp [hv])]
    exact (envTexts_calm h.2).map

theorem toSteps_worded : ∀ {ds : List StepDoc} {n : Nat} {ss : List Step},
    toSteps n ds = .ok ss → ∀ s ∈ ss, Matrix.Worded s.env
  | [], n, ss, h => by
    cases h
    simp
  | d :: ds, n, ss, h => by
    simp only [toSteps, bind_eq_ok, pure_eq_ok] at h
    obtain ⟨vars, hvars, rest, hrest, rfl⟩ := h
    exact List.forall_mem_cons.2 ⟨envTexts_worded hvars, toSteps_worded hrest⟩

theorem toSteps_calm : ∀ {ds : List StepDoc} {n : Nat}, (∀ s ∈ ds, EnvShort s.env) →
    Calm Rejection.cause (toSteps n ds)
  | [], _, _ => .ok
  | d :: ds, n, h => by
    simp only [List.forall_mem_cons] at h
    exact (envTexts_calm h.1).bind fun _ _ => (toSteps_calm h.2).bind fun _ _ => .ok

theorem criticality_calm {advisory : List String} {id : String} {d : JobDoc} :
    Calm Rejection.cause (criticality advisory id d) := by
  rw [criticality]
  split
  · split
    · exact .error rfl
    · exact .ok
  · exact .ok

theorem toJob_calm {advisory : List String} {id : String} {d : JobDoc} (h : d.Short) :
    Calm Rejection.cause (toJob advisory id d) :=
  (toSteps_calm h.steps).bind fun _ _ => criticality_calm.bind fun _ _ =>
    (envTexts_calm h.env).bind fun _ _ => .ok

theorem toJob_ok {advisory : List String} {id : String} {d : JobDoc} {j : Job}
    (h : toJob advisory id d = .ok j) :
    (∀ s ∈ j.steps, Matrix.Worded s.env) ∧ Matrix.Worded j.env ∧ j.condition = .given d.condition ∧
      j.matrix = .ofFields (d.matrix.getD []) := by
  simp only [toJob, bind_eq_ok, pure_eq_ok] at h
  obtain ⟨steps, hsteps, _, _, env, henv, rfl⟩ := h
  exact ⟨toSteps_worded hsteps, envTexts_worded henv, rfl, rfl⟩

theorem toJobs_calm {advisory : List String} : ∀ {ds : Assoc JobDoc}, (∀ p ∈ ds, p.2.Short) →
    Calm Rejection.cause (toJobs advisory ds)
  | [], _ => .ok
  | (id, d) :: ds, h => by
    simp only [List.forall_mem_cons] at h
    exact (toJob_calm h.1).bind fun _ _ => (toJobs_calm h.2).bind fun _ _ => .ok

/-- Each declared job comes from a job of the document. -/
theorem toJobs_ok {advisory : List String} : ∀ {ds : Assoc JobDoc} {js : List Job},
    toJobs advisory ds = .ok js → ∀ j ∈ js, ∃ p ∈ ds, toJob advisory p.1 p.2 = .ok j
  | [], js, h => by
    cases h
    simp
  | (id, d) :: ds, js, h => by
    simp only [toJobs, bind_eq_ok, pure_eq_ok] at h
    obtain ⟨j, hj, rest, hrest, rfl⟩ := h
    refine List.forall_mem_cons.2 ⟨⟨(id, d), by simp, hj⟩, fun k hk => ?_⟩
    obtain ⟨p, hp, hjob⟩ := toJobs_ok hrest k hk
    exact ⟨p, by simp [hp], hjob⟩

theorem filled_calm : ∀ {ds : Assoc (Option JobDoc)}, Calm Rejection.cause (filled ds)
  | [] => .ok
  | (_, none) :: _ => .error rfl
  | (_, some _) :: _ => filled_calm.map

theorem filled_ok : ∀ {ds : Assoc (Option JobDoc)} {js : Assoc JobDoc}, filled ds = .ok js →
    ∀ p ∈ js, (p.1, some p.2) ∈ ds
  | [], js, h => by
    cases h
    simp
  | (id, none) :: ds, js, h => by cases h
  | (id, some d) :: ds, js, h => by
    obtain ⟨rest, hrest, rfl⟩ := map_eq_ok.1 h
    refine List.forall_mem_cons.2 ⟨by simp, fun p hp => ?_⟩
    exact List.mem_cons_of_mem _ (filled_ok hrest p hp)

theorem declare_calm {source : String} {d : WorkflowDoc} (h : d.Short) :
    Calm Rejection.cause (declare source d) := by
  have hfilled : ∀ jobs, filled d.jobs = .ok jobs → ∀ p ∈ jobs, p.2.Short := fun jobs hjobs p hp =>
    h.jobs _ (filled_ok hjobs p hp) _ rfl
  rw [declare]
  split
  · exact .error rfl
  · refine filled_calm.bind fun jobs hjobs => ?_
    split
    · exact (toJobs_calm (hfilled jobs hjobs)).bind fun _ _ => (envTexts_calm h.env).bind fun _ _ => .ok
    · exact .error rfl

theorem declare_ok {source : String} {d : WorkflowDoc} {w : Workflow} (h : declare source d = .ok w) :
    ∀ j ∈ w.jobs, ∃ p : String × JobDoc, (p.1, some p.2) ∈ d.jobs ∧
      toJob d.gate.advisory p.1 p.2 = .ok j := by
  simp only [declare] at h
  split at h
  · obtain ⟨_, h', _⟩ := bind_eq_ok.1 h
    cases h'
  · simp only [bind_eq_ok] at h
    obtain ⟨jobs, hjobs, h⟩ := h
    split at h
    · simp only [bind_eq_ok, pure_eq_ok] at h
      obtain ⟨js, hjs, _, -, rfl⟩ := h
      intro j hj
      obtain ⟨p, hp, hjob⟩ := toJobs_ok hjs j hj
      exact ⟨p, filled_ok hjobs p hp, hjob⟩
    · obtain ⟨_, h', _⟩ := bind_eq_ok.1 h
      cases h'

/-- A workflow from a document comes from its checked form. -/
theorem toWorkflow_ok {source : String} {v : Value} {w : Workflow} (h : toWorkflow source v = .ok w) :
    ∃ d, workflow (nameEvents v.entriesOf) = .ok d ∧ declare source d = .ok w := by
  cases v with
  | map es =>
    -- Its equation would be derived by running the whole schema.
    delta toWorkflow at h
    dsimp only at h
    split at h
    · cases h
    · next d hd => exact ⟨d, hd, h⟩
  | _ => cases h

theorem toWorkflow_worded {source : String} {v : Value} {w : Workflow}
    (h : toWorkflow source v = .ok w) : ∀ j ∈ w.jobs, ∀ s ∈ j.steps, Matrix.Worded s.env := by
  obtain ⟨d, -, hw⟩ := toWorkflow_ok h
  intro j hj
  obtain ⟨p, -, hjob⟩ := declare_ok hw j hj
  exact (toJob_ok hjob).1

/-- The jobs of a document that can be written can be written. -/
theorem toWorkflow_short {source : String} {v : Value} {w : Workflow} (hv : v.Short)
    (h : toWorkflow source v = .ok w) : ∀ j ∈ w.jobs, j.Short := by
  obtain ⟨d, hd, hw⟩ := toWorkflow_ok h
  intro j hj
  obtain ⟨p, hp, hjob⟩ := declare_ok hw j hj
  have hshort := (workflow_short (nameEvents_short hv.entriesOf) hd).jobs _ hp _ rfl
  have hfields : EnvShort (p.2.matrix.getD []) := by
    cases hm : p.2.matrix with
    | none => simp [EnvShort]
    | some m => exact hshort.matrix m hm
  obtain ⟨hsteps, henv, hcondition, hmatrix⟩ := toJob_ok hjob
  refine ⟨by rw [hcondition]; exact hshort.condition, ?_, envValues_short hsteps henv⟩
  rw [hmatrix, Value.ofFields, Value.Short, Value.isTooLong, Value.anyTooLongIn_eq_false]
  intro e he
  obtain ⟨f, hf, rfl⟩ := List.mem_map.1 he
  exact ⟨rfl, hfields f hf⟩

theorem toWorkflow_calm {source : String} {v : Value} (hv : v.Short) :
    Calm Rejection.cause (toWorkflow source v) := by
  cases v with
  | map es =>
    delta toWorkflow
    dsimp only
    split
    · exact .error rfl
    · next d hd => exact declare_calm (workflow_short (nameEvents_short hv.entriesOf) hd)
  | _ => exact .error rfl

end Document

/-! ## Planning a graph -/

namespace Plan

/-- A job that planning cannot fail on. -/
structure Plannable (j : Job) : Prop where
  condition : j.condition.check = .ok ()
  matrix : ∃ axes, Matrix.Grid j axes
  steps : ∀ s ∈ j.steps, Matrix.Worded s.env

theorem choose_total {j : Job} (h : Plannable j) (env : Assoc Value) (t : Trigger) :
    ∃ c, choose env t j = .ok c := by
  obtain ⟨b, hb⟩ := Condition.evaluate_total t h.condition
  obtain ⟨axes, hgrid⟩ := h.matrix
  obtain ⟨is, his⟩ := hgrid.expand_total h.steps env
  cases b with
  | true => simp [choose, hb, his, Except.mapError, bind, Except.bind, pure, Except.pure]
  | false => simp [choose, hb, Except.mapError, bind, Except.bind, pure, Except.pure]

section

variable {jobs : List Job} {r : Run}

/-- A job that was not planned before has no record yet. -/
theorem Covers.record_total (h : Covers jobs r) {j : Job} (hj : j.id ∉ jobs.map (·.id))
    (reason : String) : ∃ r', r.record (.absent j.id reason) = .ok r' := by
  refine ⟨_, Run.record_eq_ok_iff.2 ⟨h.unreported, ?_, rfl⟩⟩
  rw [Run.result?_eq_none_iff]
  intro x hx hid
  obtain ⟨k, hk, _, -, rfl, -⟩ := h.absent x hx
  exact hj (List.mem_map.2 ⟨k, hk, hid⟩)

theorem enter_total (h : Covers jobs r) {j : Job} (hj : j.id ∉ jobs.map (·.id)) (c : Choice) :
    ∃ r' n, enter r j c = .ok (r', n) := by
  cases c with
  | absent reason =>
    obtain ⟨r', hr'⟩ := h.record_total hj reason
    simp [enter, hr', Except.mapError, bind, Except.bind, pure, Except.pure]
  | instances is => exact ⟨_, _, rfl⟩

end

theorem planJobs_total {env : Assoc Value} : ∀ {rest jobs : List Job} {r : Run}, Covers jobs r →
    ((jobs ++ rest).map (·.id)).Nodup → (∀ j ∈ rest, Plannable j) →
      ∃ r' ns, planJobs env r rest = .ok (r', ns)
  | [], _, r, _, _, _ => ⟨r, [], rfl⟩
  | j :: rest, jobs, r, h, hd, hj => by
    simp only [List.forall_mem_cons] at hj
    obtain ⟨c, hc⟩ := choose_total hj.1 env r.trigger
    obtain ⟨r₁, n, he⟩ := enter_total h (not_planned hd) c
    obtain ⟨h₁, _⟩ := enter_covers h (not_planned hd) hc he
    have hsplit : jobs ++ j :: rest = jobs ++ [j] ++ rest := by simp
    rw [hsplit] at hd
    obtain ⟨r₂, ns, hrest⟩ : ∃ r₂ ns, planJobs env r₁ rest = .ok (r₂, ns) := planJobs_total h₁ hd hj.2
    exact ⟨r₂, n :: ns, by simp [planJobs, hc, he, hrest, bind, Except.bind, pure, Except.pure]⟩

theorem absentAll_total : ∀ {rest jobs : List Job} {r : Run}, Covers jobs r →
    ((jobs ++ rest).map (·.id)).Nodup → ∃ r', absentAll r rest = .ok r'
  | [], _, r, _, _ => ⟨r, rfl⟩
  | j :: rest, jobs, r, h, hd => by
    obtain ⟨r₁, hr₁⟩ := h.record_total (not_planned hd) Reason.condition
    have h₁ := h.record_absent (not_planned hd) (by decide) hr₁
    have hsplit : jobs ++ j :: rest = jobs ++ [j] ++ rest := by simp
    rw [hsplit] at hd
    obtain ⟨r₂, hrest⟩ := absentAll_total h₁ hd
    exact ⟨r₂, by simp [absentAll, hr₁, hrest, Except.mapError, bind, Except.bind]⟩

/-- A graph of plannable jobs with distinct ids can be planned. -/
theorem plan_total {g : JobGraph} (hd : (g.jobs.map (·.id)).Nodup) (hj : ∀ j ∈ g.jobs, Plannable j)
    (t : Trigger) (runId : String) : ∃ r ns, plan g t runId = .ok (r, ns) := by
  have hd' : ((([] : List Job) ++ g.jobs).map (·.id)).Nodup := by simpa using hd
  rw [plan]
  split
  · exact planJobs_total (.nil rfl rfl rfl rfl rfl) hd' hj
  · have hnil : Covers [] {
        workflow := g.workflow.name, trigger := t, id := runId, triggered := false, graph := some g } :=
      .nil rfl rfl rfl rfl rfl
    obtain ⟨r, hr⟩ := absentAll_total hnil hd'
    exact ⟨r, _, by rw [hr]; rfl⟩

end Plan

/-! ## Loading -/

/-- A graph built from a document's workflow holds plannable jobs only. -/
theorem Document.plannable {source : String} {v : Value} {w : Workflow} {g : JobGraph}
    (hw : toWorkflow source v = .ok w) (hg : JobGraph.build w = .ok g) :
    ∀ j ∈ g.jobs, Plan.Plannable j := by
  intro k hk
  obtain ⟨j, hj, condition, hcondition, rfl, hmatrix⟩ := JobGraph.build_checked hg k hk
  exact ⟨Condition.check_of_resolve hcondition, Matrix.checkCause_ok hmatrix,
    toWorkflow_worded hw j hj⟩

/-- Building the graph of a document fails for a fault of the configuration, unless the document holds
an integer that is too long to be written. -/
theorem Document.kind_of_build_error {source : String} {v : Value} {e : Rejection}
    (h : (toWorkflow source v >>= JobGraph.build) = .error e) :
    (e.cause.kind = "ConfigurationError" ∨ e.cause.kind = "ConditionError") ∨
      v.isTooLong = true ∧ e.cause = .numberTooLong := by
  by_cases hincident : e.cause.isIncident = true
  · refine .inr ⟨?_, Cause.isIncident_iff.1 hincident⟩
    by_contra hlong
    have hv : v.Short := by simpa [Value.Short] using hlong
    have hcalm : Calm Rejection.cause (toWorkflow source v >>= JobGraph.build) := by
      apply (toWorkflow_calm hv).bind
      intro w hw
      exact JobGraph.build_calm (toWorkflow_short hv hw)
    rw [hcalm e h] at hincident
    simp at hincident
  · exact .inl (Cause.kind_of_not_isIncident (Bool.eq_false_iff.2 hincident))

/-- **Loading.** Of every document value: its workflow is refused as a configuration or a condition,
or its graph can be planned for every trigger. Only a document with an integer that is too long to be
written can fail otherwise, and then it fails for that. -/
theorem load_refused_or_plannable (source : String) (v : Value) :
    (∃ e, (Document.toWorkflow source v >>= JobGraph.build) = .error e ∧
      (e.cause.kind = "ConfigurationError" ∨ e.cause.kind = "ConditionError" ∨
        v.isTooLong = true ∧ e.cause = .numberTooLong)) ∨
    ∃ g, (Document.toWorkflow source v >>= JobGraph.build) = .ok g ∧
      ∀ t runId, ∃ r ns, Plan.plan g t runId = .ok (r, ns) := by
  cases hload : (Document.toWorkflow source v >>= JobGraph.build) with
  | error e =>
    refine .inl ⟨e, rfl, ?_⟩
    cases hincident : e.cause.isIncident with
    | false => exact (Cause.kind_of_not_isIncident hincident).imp_right .inl
    | true =>
      refine .inr (.inr ⟨?_, Cause.isIncident_iff.1 hincident⟩)
      by_contra hshort
      have hv : v.Short := by simpa [Value.Short] using hshort
      have hcalm : Calm Rejection.cause (Document.toWorkflow source v >>= JobGraph.build) :=
        (Document.toWorkflow_calm hv).bind fun w hw =>
          JobGraph.build_calm (Document.toWorkflow_short hv hw)
      simp [hcalm e hload] at hincident
  | ok g =>
    obtain ⟨w, hw, hg⟩ := bind_eq_ok.1 hload
    exact .inr ⟨g, rfl, Plan.plan_total (JobGraph.build_accepted hg).distinct
      (Document.plannable hw hg)⟩

/-- A document with a variable whose value has one digit more than can be written. -/
def longDocument : Value :=
  .map [(.text "env", .map [(.text "SEED", .int (Nat.pow 10 Decimal.maxDigits))]),
    (.text "jobs", .map [(.text "build",
      .map [(.text "steps", .list [.map [(.text "run", .text "make")]])])])]

/-- A document can fail to load and be refused neither as a configuration nor as a condition. -/
theorem load_fails_on_longDocument :
    ∃ e, (Document.toWorkflow "gate.yml" longDocument >>= JobGraph.build) = .error e ∧
      e.cause.kind = "ValueError" := by
  have hkind : (match Document.toWorkflow "gate.yml" longDocument >>= JobGraph.build with
      | .error e => e.cause.kind
      | .ok _ => "") = "ValueError" := by
    decide +kernel
  cases hload : (Document.toWorkflow "gate.yml" longDocument >>= JobGraph.build) with
  | error e => exact ⟨e, rfl, by simpa [hload] using hkind⟩
  | ok g => simp [hload] at hkind

end MergeGate
