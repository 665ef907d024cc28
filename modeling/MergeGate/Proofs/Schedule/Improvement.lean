/-
Runs in which instances end no worse. A result is no worse than another if it satisfies every policy which
that one satisfies (`Result.Upheld`); instances that end no worse themselves then lead to results that are
no worse anywhere, although some may run now that were blocked, and end badly. Everything that was started
is started again, and an open gate stays open (`gate_monotone`).
-/
import MergeGate.Proofs.Schedule.Comparison

namespace MergeGate

/-- A result of an instance that had its turn passes exactly when it lets jobs run that ask for its
completion: it is no absence. -/
theorem Result.Decided.passing_iff {x : Result} (h : x.Decided) :
    x.Passing ↔ x.satisfies .completion = true := by
  simp [Result.Passing, Result.satisfies, Outcome.not_absent_of_decided h]

/-- A blocked instance satisfies nothing that any other result does not. -/
theorem Result.upheld_of_blocked (i : Instance) (y : Result) : (Result.skip i Reason.blocked).Upheld y := by
  intro p hp
  rw [Result.not_satisfies_blocked] at hp
  cases hp

namespace Schedule

variable {g : JobGraph} {r a b : Run} {o₁ o₂ : Instance → Finish} {i : Instance}

/-- The instance succeeds where it did, and passes where its failure was allowed. -/
structure Improves (o₁ o₂ : Instance → Finish) (i : Instance) : Prop where
  succeeded : ((o₁ i).result i 0.0).status = .succeeded → ((o₂ i).result i 0.0).status = .succeeded
  allowed : ((o₁ i).result i 0.0).status = .failed ∧ ((o₁ i).result i 0.0).allowed = true →
    ((o₂ i).result i 0.0).status = .succeeded ∨
      ((o₂ i).result i 0.0).status = .failed ∧ ((o₂ i).result i 0.0).allowed = true

theorem Finish.decided (y : Finish) : (y.result i 0.0).Decided :=
  (Formed.status ⟨0.0, y, rfl⟩).imp_right .inl

theorem Improves.upheld (h : Improves o₁ o₂ i) (d d' : Float) :
    ((o₁ i).result i d).Upheld ((o₂ i).result i d') := by
  intro p hp
  rw [← Result.satisfies_timeless, Finish.result_timeless] at hp ⊢
  cases p with
  | success =>
    simp only [Result.satisfies, beq_iff_eq] at hp ⊢
    exact h.succeeded hp
  | completion =>
    rw [← (Finish.decided _).passing_iff] at hp ⊢
    exact hp.elim (fun hs => .inl (h.succeeded hs)) h.allowed

section Improved

variable (hg : g.Accepted) (hplan : Plan.Planned g r) (ha : Settles g r o₁ a) (hb : Settles g r o₂ b)
  (himp : ∀ i ∈ r.instances, Improves o₁ o₂ i)
include hg hplan ha hb himp

/-- **No result gets worse.** By induction along the needs. -/
theorem upheld_of_improves : ∀ i ∈ r.instances, UpheldAt a b i := by
  have hall : ∀ j ∈ g.jobs, ∀ i ∈ r.instances, i.job = j.id → UpheldAt a b i := by
    refine hg.induction (C := fun job => ∀ i ∈ r.instances, i.job = job → UpheldAt a b i) ?_
    intro j hj ih i hi hij
    rcases ha.fate hi with ⟨x, hold, hx, _⟩ | ⟨hnew, hmet, _, d, hx⟩ | ⟨_, _, _, hx⟩
    · exact ⟨x, x, hx, Run.result?_mono hb.planned hold, fun _ hp => hp⟩
    · have hmet' : ∀ e ∈ g.needsOf i.job, NeedMet r.instances b e := fun e he =>
        (hmet e he).carry hplan ha.planned hb.planned (hg.declared j hj e (hij ▸ he)) (ih e (hij ▸ he))
      obtain ⟨_, d', hy⟩ := hb.ran i hi hnew hmet'
      exact ⟨_, _, hx, hy, (himp i hi).upheld d d'⟩
    · obtain ⟨y, hy⟩ := hb.found hi
      exact ⟨_, y, hx, hy, Result.upheld_of_blocked i y⟩
  intro i hi
  obtain ⟨j, hj, hji⟩ := hplan.owner i hi
  exact hall j hj i hi hji.symm

theorem dispatched_of_improves : a.dispatched ⊆ b.dispatched := by
  intro id hid
  obtain ⟨i, hi, hnew, rfl⟩ := ha.started id hid
  rcases ha.fate hi with ⟨_, _, _, hnot⟩ | ⟨_, hmet, _⟩ | ⟨_, _, hnot, _⟩
  · exact absurd hid hnot
  · obtain ⟨j, hj, hji⟩ := hplan.owner i hi
    refine (hb.ran i hi hnew fun e he => ?_).1
    exact (hmet e he).carry hplan ha.planned hb.planned (hg.declared j hj e (hji ▸ he)) fun k hk _ =>
      upheld_of_improves hg hplan ha hb himp k hk
  · exact absurd hid hnot

end Improved

/-- A job with instances has no planned results. -/
theorem not_mem_planned (hplan : Plan.Planned g r) {job : String} (hsome : ∃ i ∈ r.instances, i.job = job)
    (x : Result) : x ∉ r.resultsFor job := by
  intro hx
  obtain ⟨hmem, hjob⟩ := List.mem_filter.mp hx
  obtain ⟨j, _, reason, _, rfl, hnone⟩ := hplan.absent x hmem
  obtain ⟨i, hi, hij⟩ := hsome
  exact hnone i hi (hij.trans (beq_iff_eq.mp hjob).symm)

/-- Where no result of its instances gets worse, a job that passed passes. -/
theorem passed_of_upheld (hplan : Plan.Planned g r) (ha : Settles g r o₁ a) (hb : Settles g r o₂ b)
    (h : ∀ i ∈ r.instances, UpheldAt a b i) {job : String} {critical : Bool}
    (hpass : (Outcome.fold job critical (a.resultsFor job)).passed = true) :
    (Outcome.fold job critical (b.resultsFor job)).passed = true := by
  by_cases hsome : ∃ i ∈ r.instances, i.job = job
  · have hmem : ∀ {o : Instance → Finish} {c : Run}, Settles g r o c → ∀ {x : Result},
        x ∈ c.resultsFor job ↔
          ∃ i ∈ r.instances, i.job = job ∧ r.result? i.id = none ∧ c.result? i.id = some x := fun hc x =>
      hc.mem_resultsFor.trans (or_iff_right (not_mem_planned hplan hsome x))
    have hdecided : ∀ {o : Instance → Finish} {c : Run}, Settles g r o c →
        ∀ x ∈ c.resultsFor job, x.Decided := by
      intro o c hc x hx
      obtain ⟨i, hi, _, hnew, hfound⟩ := (hmem hc).mp hx
      exact (hc.turn hi hnew hfound).2
    rw [Outcome.fold_passed_iff (hdecided ha)] at hpass
    rw [Outcome.fold_passed_iff (hdecided hb)]
    obtain ⟨hne, hall⟩ := hpass
    constructor
    · obtain ⟨x, hx⟩ := List.exists_mem_of_ne_nil _ hne
      obtain ⟨i, hi, hij, hnew, _⟩ := (hmem ha).mp hx
      obtain ⟨y, hy⟩ := hb.found hi
      exact List.ne_nil_of_mem ((hmem hb).mpr ⟨i, hi, hij, hnew, hy⟩)
    · intro y hy
      obtain ⟨i, hi, hij, hnew, hfound⟩ := (hmem hb).mp hy
      obtain ⟨x, y', hx, hy', hxy⟩ := h i hi
      obtain rfl := Option.some.inj (hfound.symm.trans hy')
      have hxmem := (hmem ha).mpr ⟨i, hi, hij, hnew, hx⟩
      rw [(hdecided hb y hy).passing_iff]
      exact hxy _ ((hdecided ha x hxmem).passing_iff.mp (hall x hxmem))
  · have hnone : ∀ i ∈ r.instances, i.job = job → AlikeAt a b i := fun i hi hij => absurd ⟨i, hi, hij⟩ hsome
    rw [← Outcome.fold_congr (resultsFor_perm ha hb hnone)]
    exact hpass

/-- **Fixing a job never closes the gate.** Of two runs of one plan that are not cancelled, let the
instances of the second succeed wherever those of the first do, and pass wherever their failure was
allowed. Then the second run starts everything that the first one started, and its gate is open if that of
the first is. -/
theorem gate_monotone {wf : Workflow} {t : Trigger} {id : String} {ns : List Notice}
    (hb : JobGraph.build wf = .ok g) (hp : Plan.plan g t id = .ok (r, ns))
    (hd : (r.instances.map (·.id)).Nodup) (himp : ∀ i ∈ r.instances, Improves o₁ o₂ i)
    (ha : Carried g r o₁ a) (hb' : Carried g r o₂ b) :
    a.dispatched ⊆ b.dispatched ∧
    ∃ ra ca rb cb, a.gateReport = .ok (ra, ca) ∧ b.gateReport = .ok (rb, cb) ∧
      (ra.overall = .succeeded → rb.overall = .succeeded) := by
  have hg := JobGraph.build_accepted hb
  have hplan := Plan.plan_planned hg hp
  obtain ⟨hsa, ca, hca⟩ := ha.settles hb hp hd
  obtain ⟨hsb, cb, hcb⟩ := hb'.settles hb hp hd
  refine ⟨dispatched_of_improves hg hplan hsa hsb himp, _, ca, _, cb, hca, hcb, fun hopen => ?_⟩
  have hup := upheld_of_improves hg hplan hsa hsb himp
  simp only [Run.reportOf, Outcome.overall_eq_succeeded_iff, Run.outcomes, List.forall_mem_map,
    Outcome.fold_critical] at hopen ⊢
  exact fun j hj hcritical => passed_of_upheld hplan hsa hsb hup (hopen j hj hcritical)

theorem gate_monotone_sample : ∃ g r ns a b, JobGraph.build Plan.sample = .ok g ∧
    Plan.plan g Plan.samplePush "1" = .ok (r, ns) ∧ (r.instances.map (·.id)).Nodup ∧
    (∀ i ∈ r.instances, Improves sampleFinish (fun _ => .exit (some 0) "" none) i) ∧
    Carried g r sampleFinish a ∧ Carried g r (fun _ => .exit (some 0) "" none) b ∧
    a.dispatched ⊆ b.dispatched ∧
    ∃ ra ca rb cb, a.gateReport = .ok (ra, ca) ∧ b.gateReport = .ok (rb, cb) ∧
      (ra.overall = .succeeded → rb.overall = .succeeded) := by
  obtain ⟨g, r, ns, hb, hp, hr⟩ := Plan.sample_planned
  obtain ⟨_, ha⟩ := exists_carried sampleFinish 0 (Setting.of_plan hb hp (Nat.le_refl 1))
  obtain ⟨_, hb'⟩ := exists_carried (fun _ => .exit (some 0) "" none) 4
    (Setting.of_plan hb hp (show 1 ≤ 3 by decide))
  have himp : ∀ i ∈ r.instances, Improves sampleFinish (fun _ => .exit (some 0) "" none) i :=
    fun i _ => ⟨fun _ => rfl, fun _ => .inl rfl⟩
  exact ⟨g, r, ns, _, _, hb, hp, hr.distinct, himp, ha, hb', gate_monotone hb hp hr.distinct himp ha hb'⟩

end Schedule

end MergeGate
