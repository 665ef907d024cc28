/-
What planning leaves: every job either owns instances of the run or stands in it as absent, with
exactly one record, and nothing has started. All of it is carried along the jobs planned so far
(`Plan.Covers`): entering the choice about one more job keeps it, whichever way the choice goes.
-/
import MergeGate.Plan
import MergeGate.Proofs.Graph
import MergeGate.Proofs.Matrix
import MergeGate.Proofs.Run

namespace MergeGate

namespace Matrix

theorem expand_job {j : Job} {base : Assoc Value} {is : List Instance} (h : expand j base = .ok is) :
    ∀ i ∈ is, i.job = j.id := by
  intro i hi
  obtain ⟨_, hat⟩ := exists_instanceAt h hi
  obtain ⟨_, _, -, -, -, hi⟩ := instanceAt_eq_ok.1 hat
  rw [hi]

end Matrix

namespace Plan

/-- The run decides about exactly these jobs, and nothing has started. -/
structure Covers (jobs : List Job) (r : Run) : Prop where
  unreported : r.report = none
  unstarted : r.dispatched = []
  live : r.cancelled = false
  owner : ∀ i ∈ r.instances, ∃ j ∈ jobs, j.id = i.job
  absent : ∀ x ∈ r.results, ∃ j ∈ jobs, ∃ reason, Reason.isAbsence (some reason) = true ∧
    x = .absent j.id reason ∧ ∀ i ∈ r.instances, i.job ≠ j.id
  decided : ∀ j ∈ jobs, (∃ i ∈ r.instances, i.job = j.id) ∨
    ∃ reason, Reason.isAbsence (some reason) = true ∧ r.result? j.id = some (.absent j.id reason)
  once : (r.results.map (·.instanceId)).Nodup

theorem Covers.nil {r : Run} (hreport : r.report = none) (hstart : r.dispatched = [])
    (hlive : r.cancelled = false) (hinst : r.instances = []) (hres : r.results = []) :
    Covers [] r :=
  ⟨hreport, hstart, hlive, by simp [hinst], by simp [hres], by simp, by simp [hres]⟩

/-- No job of the run has an absent job's id among its instances' owners. -/
theorem Covers.record_absent {jobs : List Job} {r r' : Run} (h : Covers jobs r) {j : Job}
    (hj : j.id ∉ jobs.map (·.id)) {reason : String} (hreason : Reason.isAbsence (some reason) = true)
    (hrec : r.record (.absent j.id reason) = .ok r') : Covers (jobs ++ [j]) r' := by
  obtain ⟨_, hnew, rfl⟩ := Run.record_eq_ok_iff.mp hrec
  have hnone : ∀ i ∈ r.instances, i.job ≠ j.id := by
    intro i hi he
    obtain ⟨k, hk, hki⟩ := h.owner i hi
    exact hj (List.mem_map.mpr ⟨k, hk, hki.trans he⟩)
  refine ⟨h.unreported, h.unstarted, h.live, ?_, ?_, ?_, ?_⟩
  · intro i hi
    obtain ⟨k, hk, hki⟩ := h.owner i hi
    exact ⟨k, List.mem_append_left _ hk, hki⟩
  · intro x hx
    rcases List.mem_append.mp hx with hx | hx
    · obtain ⟨k, hk, rest⟩ := h.absent x hx
      exact ⟨k, List.mem_append_left _ hk, rest⟩
    · exact ⟨j, by simp, reason, hreason, by simpa using hx, hnone⟩
  · intro k hk
    rcases List.mem_append.mp hk with hk | hk
    · rcases h.decided k hk with hinst | ⟨why, hwhy, hfound⟩
      · exact .inl hinst
      · exact .inr ⟨why, hwhy, by rw [Run.result?_append, hfound, Option.some_or]⟩
    · obtain rfl : k = j := by simpa using hk
      refine .inr ⟨reason, hreason, ?_⟩
      rw [Run.result?_append, show r.result? k.id = none from hnew, Option.none_or]
      exact if_pos rfl
  · rw [List.map_append, List.nodup_append]
    refine ⟨h.once, by simp, ?_⟩
    intro a ha b hb he
    obtain ⟨x, hx, rfl⟩ := List.mem_map.mp ha
    obtain rfl : b = j.id := by simpa [Result.absent] using hb
    exact Run.result?_eq_none_iff.mp hnew x hx he

theorem Covers.add_instances {jobs : List Job} {r : Run} (h : Covers jobs r) {j : Job}
    (hj : j.id ∉ jobs.map (·.id)) {is : List Instance} (hne : is ≠ [])
    (his : ∀ i ∈ is, i.job = j.id) :
    Covers (jobs ++ [j]) { r with instances := r.instances ++ is } := by
  refine ⟨h.unreported, h.unstarted, h.live, ?_, ?_, ?_, h.once⟩
  · intro i hi
    rcases List.mem_append.mp hi with hi | hi
    · obtain ⟨k, hk, hki⟩ := h.owner i hi
      exact ⟨k, List.mem_append_left _ hk, hki⟩
    · exact ⟨j, by simp, (his i hi).symm⟩
  · intro x hx
    obtain ⟨k, hk, reason, hreason, hxk, hnone⟩ := h.absent x hx
    refine ⟨k, List.mem_append_left _ hk, reason, hreason, hxk, fun i hi => ?_⟩
    rcases List.mem_append.mp hi with hi | hi
    · exact hnone i hi
    · intro he
      exact hj (List.mem_map.mpr ⟨k, hk, he.symm.trans (his i hi)⟩)
  · intro k hk
    rcases List.mem_append.mp hk with hk | hk
    · rcases h.decided k hk with ⟨i, hi, hik⟩ | hfound
      · exact .inl ⟨i, List.mem_append_left _ hi, hik⟩
      · exact .inr hfound
    · obtain rfl : k = j := by simpa using hk
      obtain ⟨i, hi⟩ := List.exists_mem_of_ne_nil is hne
      exact .inl ⟨i, List.mem_append_right _ hi, his i hi⟩

theorem choose_ok {env : Assoc Value} {t : Trigger} {j : Job} {c : Choice}
    (h : choose env t j = .ok c) :
    (∃ reason, Reason.isAbsence (some reason) = true ∧ c = .absent reason) ∨
      ∃ is, is ≠ [] ∧ (∀ i ∈ is, i.job = j.id) ∧ c = .instances is := by
  simp only [choose, bind_eq_ok] at h
  obtain ⟨runs, _, h⟩ := h
  split at h
  · simp only [bind_eq_ok, mapError_eq_ok, pure_eq_ok] at h
    obtain ⟨is, his, rfl⟩ := h
    by_cases hnil : is = []
    · exact .inl ⟨Reason.emptyMatrix, by decide, by simp [hnil]⟩
    · exact .inr ⟨is, hnil, Matrix.expand_job his, by simp [hnil]⟩
  · simp only [pure_eq_ok] at h
    exact .inl ⟨Reason.condition, by decide, h.symm⟩

/-- Entering a choice changes instances and results only. -/
theorem enter_covers {jobs : List Job} {r r' : Run} (h : Covers jobs r) {j : Job}
    (hj : j.id ∉ jobs.map (·.id)) {env : Assoc Value} {t : Trigger} {c : Choice} {n : Notice}
    (hc : choose env t j = .ok c) (he : enter r j c = .ok (r', n)) :
    Covers (jobs ++ [j]) r' ∧ r'.graph = r.graph := by
  rcases choose_ok hc with ⟨reason, hreason, rfl⟩ | ⟨is, hne, his, rfl⟩
  · simp only [enter, bind_eq_ok, mapError_eq_ok, pure_eq_ok, Prod.mk.injEq] at he
    obtain ⟨r'', hrec, rfl, _⟩ := he
    refine ⟨h.record_absent hj hreason hrec, ?_⟩
    obtain ⟨_, _, rfl⟩ := Run.record_eq_ok_iff.mp hrec
    rfl
  · simp only [enter, Except.ok.injEq, Prod.mk.injEq] at he
    obtain ⟨rfl, _⟩ := he
    exact ⟨h.add_instances hj hne his, rfl⟩

/-- The next job is none of those planned before it. -/
theorem not_planned {jobs rest : List Job} {j : Job} (hd : ((jobs ++ j :: rest).map (·.id)).Nodup) :
    j.id ∉ jobs.map (·.id) := by
  intro hmem
  rw [List.map_append, List.nodup_append] at hd
  exact hd.2.2 _ hmem _ (by simp) rfl

theorem planJobs_covers {env : Assoc Value} : ∀ {rest jobs : List Job} {r r' : Run} {ns : List Notice},
    Covers jobs r → ((jobs ++ rest).map (·.id)).Nodup → planJobs env r rest = .ok (r', ns) →
      Covers (jobs ++ rest) r' ∧ r'.graph = r.graph
  | [], jobs, r, r', ns, h, _, hp => by
    simp only [planJobs, Except.ok.injEq, Prod.mk.injEq] at hp
    obtain ⟨rfl, _⟩ := hp
    simpa using h
  | j :: rest, jobs, r, r', ns, h, hd, hp => by
    simp only [planJobs, bind_eq_ok, pure_eq_ok, Prod.mk.injEq] at hp
    obtain ⟨c, hc, ⟨r₁, n⟩, he, ⟨r₂, more⟩, hrest, rfl, _⟩ := hp
    have hj := not_planned hd
    obtain ⟨h₁, hg₁⟩ := enter_covers h hj hc he
    have hsplit : jobs ++ j :: rest = jobs ++ [j] ++ rest := by simp
    rw [hsplit] at hd ⊢
    obtain ⟨h₂, hg₂⟩ := planJobs_covers h₁ hd hrest
    exact ⟨h₂, hg₂.trans hg₁⟩

theorem absentAll_covers : ∀ {rest jobs : List Job} {r r' : Run}, Covers jobs r →
    ((jobs ++ rest).map (·.id)).Nodup → absentAll r rest = .ok r' →
      Covers (jobs ++ rest) r' ∧ r'.graph = r.graph
  | [], jobs, r, r', h, _, hp => by
    simp only [absentAll, Except.ok.injEq] at hp
    subst hp
    simpa using h
  | j :: rest, jobs, r, r', h, hd, hp => by
    simp only [absentAll, bind_eq_ok, mapError_eq_ok] at hp
    obtain ⟨r₁, hrec, hrest⟩ := hp
    have hj := not_planned hd
    have hreason : Reason.isAbsence (some Reason.condition) = true := by decide
    have h₁ := h.record_absent hj hreason hrec
    have hsplit : jobs ++ j :: rest = jobs ++ [j] ++ rest := by simp
    rw [hsplit] at hd ⊢
    obtain ⟨h₂, hg₂⟩ := absentAll_covers h₁ hd hrest
    obtain ⟨_, _, rfl⟩ := Run.record_eq_ok_iff.mp hrec
    exact ⟨h₂, hg₂⟩

/-- A planned run: it belongs to the graph and decides about exactly the graph's jobs. -/
structure Planned (g : JobGraph) (r : Run) : Prop extends Covers g.jobs r where
  graph : r.graph = some g

theorem plan_planned {g : JobGraph} (hg : g.Accepted) {t : Trigger} {runId : String} {r : Run}
    {ns : List Notice} (h : plan g t runId = .ok (r, ns)) : Planned g r := by
  have hd : ((([] : List Job) ++ g.jobs).map (·.id)).Nodup := by simpa using hg.distinct
  rw [plan] at h
  split at h
  · obtain ⟨hc, hgraph⟩ := planJobs_covers (.nil rfl rfl rfl rfl rfl) hd h
    exact ⟨by simpa using hc, hgraph⟩
  · simp only [bind_eq_ok, pure_eq_ok, Prod.mk.injEq] at h
    obtain ⟨r₁, hall, rfl, _⟩ := h
    obtain ⟨hc, hgraph⟩ := absentAll_covers (.nil rfl rfl rfl rfl rfl) hd hall
    exact ⟨by simpa using hc, hgraph⟩

/-! ## What is said when planning fails -/

theorem planJobs_cons (env : Assoc Value) (r : Run) (j : Job) (rest : List Job) :
    planJobs env r (j :: rest) = (choose env r.trigger j >>= enter r j) >>= fun p =>
      (planJobs env p.1 rest).map fun q => (q.1, p.2 :: q.2) := by
  rw [planJobs]
  cases choose env r.trigger j with
  | error fault => rfl
  | ok choice =>
    simp only [bind, Except.bind]
    cases enter r j choice with
    | error fault => rfl
    | ok p => rfl

/-- Until planning fails, it says what planning the jobs in front of the failing one says. -/
theorem planJobs_said {env : Assoc Value} : ∀ (js : List Job) (r : Run),
    (∃ r', planJobs env r js = .ok (r', said env r js)) ∨
      ∃ done j rest r' fault, js = done ++ j :: rest ∧ planJobs env r done = .ok (r', said env r js) ∧
        (choose env r'.trigger j >>= enter r' j) = .error fault
  | [], r => .inl ⟨r, rfl⟩
  | j :: rest, r => by
    cases h : choose env r.trigger j >>= enter r j with
    | error fault =>
      refine .inr ⟨[], j, rest, r, fault, rfl, ?_, h⟩
      rw [said, h]
      rfl
    | ok p =>
      have hsaid : said env r (j :: rest) = p.2 :: said env p.1 rest := by rw [said, h]
      have hcons : ∀ js, planJobs env r (j :: js) = (planJobs env p.1 js).map fun q => (q.1, p.2 :: q.2) := by
        intro js
        rw [planJobs_cons, h]
        rfl
      rcases planJobs_said rest p.1 with ⟨r', hr'⟩ | ⟨done, k, behind, r', fault, rfl, hdone, hfault⟩
      · exact .inl ⟨r', by rw [hcons, hr', hsaid]; rfl⟩
      · exact .inr ⟨j :: done, k, behind, r', fault, rfl, by rw [hcons, hdone, hsaid]; rfl, hfault⟩

/-- Distinct instances that have no result yet. -/
structure Fresh (r : Run) : Prop where
  distinct : (r.instances.map (·.id)).Nodup
  unrecorded : ∀ i ∈ r.instances, r.result? i.id = none

/-! ## A planned run -/

/-- A workflow with a job that may fail, a job in two variants that asks for its completion, and a
job for one branch only. -/
def sample : Workflow where
  name := "gate"
  jobs := [
    { id := "lint", steps := [{ name := "lint", run := some "lint" }], continueOnError := true },
    { id := "test", steps := [{ name := "test", run := some "test" }],
      needs := [{ job := "lint", require := some "completion" }],
      matrix := .map [(.text "os", .list [.text "linux", .text "mac"])] },
    { id := "release", steps := [{ name := "release", run := some "release" }],
      needs := [{ job := "test" }], condition := .glob (.text "branch") (.text "release") }]

/-- A push to the main branch. -/
def samplePush : Trigger := .ofRef .push "refs/heads/main" none

theorem sample_planned : ∃ g r ns, JobGraph.build sample = .ok g ∧ plan g samplePush "1" = .ok (r, ns) ∧
    Fresh r := by
  have hall : ((JobGraph.build sample).toOption.bind fun g => (plan g samplePush "1").toOption.map fun p =>
      (p.1.instances.map (·.id), p.1.results.map (·.instanceId))) =
      some (["lint", "test (os=linux)", "test (os=mac)"], ["release"]) := by decide +kernel
  cases hg : JobGraph.build sample with
  | error e => simp [hg, Except.toOption] at hall
  | ok g =>
    cases hp : plan g samplePush "1" with
    | error e => simp [hg, hp, Except.toOption] at hall
    | ok p =>
      simp only [hg, hp, Except.toOption, Option.bind_some, Option.map_some, Option.some.injEq,
        Prod.mk.injEq] at hall
      obtain ⟨hids, hresults⟩ := hall
      refine ⟨g, p.1, p.2, rfl, hp, hids ▸ by decide, fun i hi => ?_⟩
      refine Run.result?_eq_none_iff.mpr fun x hx he => ?_
      have hi' : i.id ∈ p.1.instances.map (·.id) := List.mem_map_of_mem hi
      have hx' : x.instanceId ∈ p.1.results.map (·.instanceId) := List.mem_map_of_mem hx
      rw [hids] at hi'
      rw [he, hresults, List.mem_singleton] at hx'
      simp [hx'] at hi'

end Plan

end MergeGate
