/-
Runs in which the instances of some jobs end otherwise. A job that is none of these and relies on none of
them, directly or through others, ends with the same results, although both runs share their workers among
all jobs; and a gate that no such job can reach through a critical one is the same (`untouched_same`).
-/
import Mathlib.Logic.Relation
import MergeGate.Proofs.Schedule.Comparison

namespace MergeGate

/-- Results that differ in their durations at most. -/
theorem Result.eq_of_timeless {x y : Result} (h : x.timeless = y.timeless) :
    y = { x with duration := y.duration } := by
  cases x
  cases y
  simp only [Result.timeless, Result.mk.injEq, true_and] at h ⊢
  simp [h]

namespace JobGraph

/-- The first job needs the second, directly or through others. -/
def Relies (g : JobGraph) : String → String → Prop :=
  Relation.TransGen fun j k => ∃ e ∈ g.needsOf j, e.job = k

/-- The job is none of these and relies on none of them. -/
def Untouched (g : JobGraph) (D : Set String) (job : String) : Prop :=
  job ∉ D ∧ ∀ k ∈ D, ¬ g.Relies job k

/-- What an untouched job needs is untouched. -/
theorem Untouched.need {g : JobGraph} {D : Set String} {job : String} (h : g.Untouched D job) {e : Edge}
    (he : e ∈ g.needsOf job) : g.Untouched D e.job :=
  ⟨fun hmem => h.2 e.job hmem (.single ⟨e, he, rfl⟩),
    fun k hk hrelies => h.2 k hk (.head ⟨e, he, rfl⟩ hrelies)⟩

end JobGraph

namespace Schedule

variable {g : JobGraph} {r a b : Run} {o₁ o₂ : Instance → Finish}

/-- **What the differing jobs cannot reach ends alike.** By induction along the needs. -/
theorem alike_of_untouched (hg : g.Accepted) (hplan : Plan.Planned g r) (ha : Settles g r o₁ a)
    (hb : Settles g r o₂ b) {D : Set String}
    (hsame : ∀ i ∈ r.instances, i.job ∉ D → (o₁ i).result i 0.0 = (o₂ i).result i 0.0) :
    ∀ i ∈ r.instances, g.Untouched D i.job →
      (i.id ∈ a.dispatched ↔ i.id ∈ b.dispatched) ∧ AlikeAt a b i := by
  have hall : ∀ j ∈ g.jobs, g.Untouched D j.id → ∀ i ∈ r.instances, i.job = j.id →
      (i.id ∈ a.dispatched ↔ i.id ∈ b.dispatched) ∧ AlikeAt a b i := by
    refine hg.induction (C := fun job => g.Untouched D job → ∀ i ∈ r.instances, i.job = job →
      (i.id ∈ a.dispatched ↔ i.id ∈ b.dispatched) ∧ AlikeAt a b i) ?_
    intro j hj ih huntouched i hi hij
    have hneeds : (∀ e ∈ g.needsOf i.job, NeedMet r.instances a e) ↔
        ∀ e ∈ g.needsOf i.job, NeedMet r.instances b e := by
      refine forall₂_congr fun e he => ?_
      rw [hij] at he
      have hdecl := hg.declared j hj e he
      have halike : ∀ k ∈ r.instances, k.job = e.job → AlikeAt a b k := fun k hk hke =>
        (ih e he (huntouched.need he) k hk hke).2
      exact ⟨.carry hplan ha.planned hb.planned hdecl fun k hk hke => (halike k hk hke).upheldAt,
        .carry hplan hb.planned ha.planned hdecl fun k hk hke => (halike k hk hke).symm.upheldAt⟩
    rcases ha.fate hi with ⟨x, hold, hx, hnot⟩ | ⟨hnew, hmet, hbegun, d, hx⟩ | ⟨hnew, hunmet, hnot, hx⟩
    · have hy := Run.result?_mono hb.planned hold
      refine ⟨iff_of_false hnot fun hmem => ?_, x, x, hx, hy, rfl⟩
      obtain ⟨k, _, hnew, hid⟩ := hb.started i.id hmem
      rw [hid, hold] at hnew
      cases hnew
    · obtain ⟨hbegun', d', hy⟩ := hb.ran i hi hnew (hneeds.mp hmet)
      refine ⟨iff_of_true hbegun hbegun', _, _, hx, hy, ?_⟩
      rw [Finish.result_timeless, Finish.result_timeless]
      exact hsame i hi (hij ▸ huntouched.1)
    · obtain ⟨hnot', hy⟩ := hb.blocked i hi hnew (mt hneeds.mpr hunmet)
      exact ⟨iff_of_false hnot hnot', _, _, hx, hy, rfl⟩
  intro i hi huntouched
  obtain ⟨j, hj, hji⟩ := hplan.owner i hi
  exact hall j hj (hji ▸ huntouched) i hi hji.symm

/-- **Locality.** Of two runs of one plan that are not cancelled, let the instances end alike but for those
of some jobs `D`. A job that is none of these and relies on none of them ends with the same results, save
for the durations that were measured; and where no critical job is one of them or relies on one, the gates
are the same. -/
theorem untouched_same {wf : Workflow} {t : Trigger} {id : String} {ns : List Notice}
    (hb : JobGraph.build wf = .ok g) (hp : Plan.plan g t id = .ok (r, ns))
    (hd : (r.instances.map (·.id)).Nodup) {D : Set String}
    (hsame : ∀ i ∈ r.instances, i.job ∉ D → (o₁ i).result i 0.0 = (o₂ i).result i 0.0)
    (ha : Carried g r o₁ a) (hb' : Carried g r o₂ b) :
    (∀ j ∈ g.jobs, g.Untouched D j.id →
      (∀ i ∈ r.instances, i.job = j.id → (i.id ∈ a.dispatched ↔ i.id ∈ b.dispatched) ∧
        ∃ x d, a.result? i.id = some x ∧ b.result? i.id = some { x with duration := d }) ∧
      ((a.resultsFor j.id).map (·.timeless)).Perm ((b.resultsFor j.id).map (·.timeless))) ∧
    ∃ ra ca rb cb, a.gateReport = .ok (ra, ca) ∧ b.gateReport = .ok (rb, cb) ∧
      ((∀ j ∈ g.jobs, g.critical j.id = true → g.Untouched D j.id) → ra.overall = rb.overall) := by
  have hg := JobGraph.build_accepted hb
  have hplan := Plan.plan_planned hg hp
  obtain ⟨hsa, ca, hca⟩ := ha.settles hb hp hd
  obtain ⟨hsb, cb, hcb⟩ := hb'.settles hb hp hd
  have halike := alike_of_untouched hg hplan hsa hsb hsame
  have hperm : ∀ {job : String}, g.Untouched D job →
      ((a.resultsFor job).map (·.timeless)).Perm ((b.resultsFor job).map (·.timeless)) := fun huntouched =>
    resultsFor_perm hsa hsb fun i hi hij => (halike i hi (hij ▸ huntouched)).2
  refine ⟨fun j _ huntouched => ⟨fun i hi hij => ?_, hperm huntouched⟩, _, ca, _, cb, hca, hcb, fun hfree => ?_⟩
  · obtain ⟨hstarted, x, y, hx, hy, heq⟩ := halike i hi (hij ▸ huntouched)
    exact ⟨hstarted, x, y.duration, hx, Result.eq_of_timeless heq ▸ hy⟩
  · have hiff : (a.reportOf g).overall = .succeeded ↔ (b.reportOf g).overall = .succeeded := by
      simp only [Run.reportOf, Outcome.overall_eq_succeeded_iff, Run.outcomes, List.forall_mem_map,
        Outcome.fold_critical]
      exact forall₂_congr fun j hj => forall_congr' fun hcritical => by
        rw [Outcome.fold_congr (hperm (hfree j hj hcritical))]
    by_cases hopen : (a.reportOf g).overall = .succeeded
    · rw [hopen, hiff.mp hopen]
    · have hclosed := Outcome.overall_eq_failed_iff.mpr hopen
      have hclosed' := Outcome.overall_eq_failed_iff.mpr (mt hiff.mpr hopen)
      exact hclosed.trans hclosed'.symm

/-- As in the sample, but the tests fail. -/
def failingFinish (i : Instance) : Finish :=
  if i.job = "test" then .exit (some 1) "" (some Reason.exit) else sampleFinish i

theorem untouched_same_sample : ∃ g r ns a b, JobGraph.build Plan.sample = .ok g ∧
    Plan.plan g Plan.samplePush "1" = .ok (r, ns) ∧ (r.instances.map (·.id)).Nodup ∧
    (∀ i ∈ r.instances, i.job ∉ ({"test"} : Set String) →
      (sampleFinish i).result i 0.0 = (failingFinish i).result i 0.0) ∧
    Carried g r sampleFinish a ∧ Carried g r failingFinish b ∧
    (∃ j ∈ g.jobs, j.id = "lint" ∧ g.Untouched {"test"} j.id) ∧
    ∀ j ∈ g.jobs, g.Untouched {"test"} j.id →
      ((a.resultsFor j.id).map (·.timeless)).Perm ((b.resultsFor j.id).map (·.timeless)) := by
  obtain ⟨g, r, ns, hb, hp, hr⟩ := Plan.sample_planned
  obtain ⟨_, ha⟩ := exists_carried sampleFinish 0 (Setting.of_plan hb hp (Nat.le_refl 1))
  obtain ⟨_, hb'⟩ := exists_carried failingFinish 4 (Setting.of_plan hb hp (show 1 ≤ 3 by decide))
  have hsame : ∀ i ∈ r.instances, i.job ∉ ({"test"} : Set String) →
      (sampleFinish i).result i 0.0 = (failingFinish i).result i 0.0 := by
    intro i _ hi
    have hne : i.job ≠ "test" := hi
    rw [failingFinish, if_neg hne]
  have hlint : ∃ j ∈ g.jobs, j.id = "lint" ∧ g.Untouched {"test"} j.id := by
    have hall : (JobGraph.build Plan.sample).toOption.map (fun g => (g.jobs.map (·.id), g.needsOf "lint")) =
        some (["lint", "test", "release"], []) := by decide +kernel
    simp only [hb, Except.toOption, Option.map_some, Option.some.injEq, Prod.mk.injEq] at hall
    have hmem : "lint" ∈ g.jobs.map (·.id) := by simp [hall.1]
    obtain ⟨j, hj, hid⟩ := List.mem_map.mp hmem
    refine ⟨j, hj, hid, fun hmem => ?_, fun k _ hrelies => ?_⟩
    · have htest : "lint" = "test" := hid.symm.trans hmem
      exact absurd htest (by decide)
    obtain ⟨_, ⟨e, he, _⟩, _⟩ := Relation.TransGen.head'_iff.mp hrelies
    rw [hid, hall.2] at he
    cases he
  exact ⟨g, r, ns, _, _, hb, hp, hr.distinct, hsame, ha, hb', hlint, fun j hj huntouched =>
    ((untouched_same hb hp hr.distinct hsame ha hb').1 j hj huntouched).2⟩

end Schedule

end MergeGate
