/-
The gate of a finished execution. A critical job lets the gate open when it is rightly absent, or when
each of its instances was started and succeeded, or failed where that is allowed. Whatever keeps an
instance from that (a need that is not met, a cancellation before or after it started, or its being
killed) leaves a result with which the job does not pass.
-/
import MergeGate.Proofs.Outcome
import MergeGate.Proofs.Schedule.Progress
import MergeGate.Proofs.Schedule.Settled

namespace MergeGate.Schedule

variable {σ : Type} {w : World σ} {f : Frame} {r₀ : Run} {g : JobGraph} {m : Machine σ} {world : σ}

/-! ## Results and their origins -/

theorem Formed.status {i : Instance} {x : Result} (h : Formed i x) :
    x.status = .succeeded ∨ x.status = .failed := by
  obtain ⟨d, y, rfl⟩ := h
  cases y with
  | exit code tail reason =>
    simp only [Finish.result, Result.ofExit]
    split <;> simp
  | broken message => exact .inr rfl

/-- What was cancelled does not pass, even where it may fail. -/
theorem Formed.not_passing {i : Instance} {x : Result} (h : Formed i x)
    (hreason : x.reason = some Reason.cancelled) : ¬ x.Passing := by
  obtain ⟨d, y, rfl⟩ := h
  cases y with
  | exit code tail reason =>
    simp only [Finish.result, Result.ofExit] at hreason ⊢
    by_cases hok : (code == some 0) = true
    · simp [hok] at hreason
    · have hgiven : reason = some Reason.cancelled := by simpa [hok] using hreason
      simp [Result.Passing, hok, hgiven]
  | broken message =>
    have hne : Reason.error ≠ Reason.cancelled := by decide
    exact absurd (Option.some.inj hreason) hne

theorem Ending.status {b : Bool} {i : Instance} {x : Result} (h : Ending Formed b i x) :
    x.status = .succeeded ∨ x.status = .failed := by
  cases h with
  | own given => exact given.status
  | stopped given seen =>
    rw [Result.stopped]
    split
    · next hs => exact .inl hs
    · exact .inr rfl
  | killed => exact .inr rfl

theorem Ending.not_passing {b : Bool} {i : Instance} {x : Result} (h : Ending Formed b i x)
    (hreason : x.reason = some Reason.cancelled) : ¬ x.Passing := by
  cases h with
  | own given => exact given.not_passing hreason
  | @stopped y given seen =>
    rw [Result.stopped] at hreason ⊢
    split at hreason
    · next hs =>
      rw [if_pos hs]
      exact given.not_passing hreason
    · next hs =>
      rw [if_neg hs]
      simp [Result.Passing]
  | killed =>
    have hne : Reason.cancelTimeout ≠ Reason.cancelled := by decide
    exact absurd (Option.some.inj hreason) hne

theorem Skipped.decided {r : Run} {i : Instance} {x : Result} (h : Skipped f r i x) :
    x.Decided ∧ ¬ x.Passing := by
  cases h with
  | blocked => exact ⟨.inr (.inr ⟨rfl, .inl rfl⟩), by simp [Result.Passing, Result.skip]⟩
  | cancelled => exact ⟨.inr (.inr ⟨rfl, .inr rfl⟩), by simp [Result.Passing, Result.skip]⟩

theorem Origin.decided {r : Run} {i : Instance} {x : Result} (h : Origin f Formed r i x) : x.Decided := by
  cases h with
  | skipped why _ => exact why.decided.1
  | ran how _ => exact how.status.imp_right .inl

/-- Only what was started passes. -/
theorem Origin.dispatched {r : Run} {i : Instance} {x : Result} (h : Origin f Formed r i x)
    (hx : x.Passing) : i.id ∈ r.dispatched := by
  cases h with
  | skipped why _ => exact absurd hx why.decided.2
  | ran _ begun => exact begun

theorem Origin.not_passing {r : Run} {i : Instance} {x : Result} (h : Origin f Formed r i x)
    (hreason : x.reason = some Reason.cancelled) : ¬ x.Passing := by
  cases h with
  | skipped why _ => exact why.decided.2
  | ran how _ => exact how.not_passing hreason

/-! ## Jobs -/

/-- The job lets the gate open: it has no instances and was recorded as absent when the run was
planned, or each of its instances was started and passes. -/
def LetsPass (planned final : Run) (job : String) : Prop :=
  ((∀ i ∈ planned.instances, i.job ≠ job) ∧ ∃ reason, Reason.isAbsence (some reason) = true ∧
    planned.result? job = some (.absent job reason)) ∨
  (∃ i ∈ planned.instances, i.job = job) ∧ ∀ i ∈ planned.instances, i.job = job →
    i.id ∈ final.dispatched ∧ ∃ x, final.result? i.id = some x ∧ x.Passing

/-- Something kept the instance from its end: it was never started, it was skipped, it was cancelled,
or it was killed. -/
def Foiled (final : Run) (i : Instance) : Prop :=
  i.id ∉ final.dispatched ∨ (∃ reason, final.result? i.id = some (.skip i reason)) ∨
    (∃ x, final.result? i.id = some x ∧ x.reason = some Reason.cancelled) ∨
    ∃ d, final.result? i.id = some (.timedOut i d)

section Ended

variable (hset : Setting g r₀ f) (hr : Plan.Fresh r₀) (h : Sound f Formed r₀ ⟨.ended, m⟩)
include hset hr h

theorem Sound.passed_iff {j : Job} (hj : j ∈ g.jobs) :
    (Outcome.fold j.id (g.critical j.id) (m.state.run.resultsFor j.id)).passed = true ↔
      LetsPass r₀ m.state.run j.id := by
  have hjob : ∀ i x, Formed i x → x.job = i.job := fun _ _ => Formed.job
  by_cases hsome : ∃ i ∈ r₀.instances, i.job = j.id
  · have hmem := fun x => h.mem_resultsFor hset hr hjob hsome (x := x)
    have hdecided : ∀ x ∈ m.state.run.resultsFor j.id, x.Decided := by
      intro x hx
      obtain ⟨i, hi, _, hfound⟩ := (hmem x).mp hx
      exact (h.inv.ledger.origin hset hr.distinct hi (hr.unrecorded i hi) hfound).decided
    rw [Outcome.fold_passed_iff hdecided]
    constructor
    · rintro ⟨_, hall⟩
      refine .inr ⟨hsome, fun i hi hij => ?_⟩
      obtain ⟨x, hx, horigin⟩ := h.origin hset hr hi
      have hpass := hall x ((hmem x).mpr ⟨i, hi, hij, hx⟩)
      exact ⟨horigin.dispatched hpass, x, hx, hpass⟩
    · rintro (⟨hnone, _⟩ | ⟨_, hall⟩)
      · obtain ⟨i, hi, hij⟩ := hsome
        exact absurd hij (hnone i hi)
      · constructor
        · obtain ⟨i, hi, hij⟩ := hsome
          obtain ⟨x, hx, _⟩ := h.origin hset hr hi
          exact List.ne_nil_of_mem ((hmem x).mpr ⟨i, hi, hij, hx⟩)
        · intro x hx
          obtain ⟨i, hi, hij, hfound⟩ := (hmem x).mp hx
          obtain ⟨_, y, hy, hpass⟩ := hall i hi hij
          exact Option.some.inj (hy.symm.trans hfound) ▸ hpass
  · have hnone : ∀ i ∈ r₀.instances, i.job ≠ j.id := fun i hi hij => hsome ⟨i, hi, hij⟩
    obtain ⟨reason, hreason, hfound, heq⟩ := h.resultsFor_absent hset hjob hj hnone
    rw [heq]
    exact ⟨fun _ => .inl ⟨hnone, reason, hreason, hfound⟩, fun _ => Outcome.fold_absent_passed hreason⟩

theorem Sound.overall_iff : (m.state.run.reportOf g).overall = .succeeded ↔
    ∀ j ∈ g.jobs, g.critical j.id = true → LetsPass r₀ m.state.run j.id := by
  have hover : (m.state.run.reportOf g).overall = Outcome.overall (m.state.run.outcomes g) := rfl
  rw [hover, Outcome.overall_eq_succeeded_iff]
  simp only [Run.outcomes, List.forall_mem_map, Outcome.fold_critical]
  exact forall₂_congr fun j hj => forall_congr' fun _ => h.passed_iff hset hr hj

theorem Sound.not_letsPass {i : Instance} (hi : i ∈ r₀.instances) (hf : Foiled m.state.run i) :
    ¬ LetsPass r₀ m.state.run i.job := by
  rintro (⟨hnone, _⟩ | ⟨_, hall⟩)
  · exact hnone i hi rfl
  obtain ⟨hstarted, x, hx, hpass⟩ := hall i hi rfl
  rcases hf with hnever | ⟨reason, hskip⟩ | ⟨y, hy, hreason⟩ | ⟨d, hkill⟩
  · exact hnever hstarted
  · obtain rfl := Option.some.inj (hx.symm.trans hskip)
    simp [Result.Passing, Result.skip] at hpass
  · obtain rfl := Option.some.inj (hx.symm.trans hy)
    exact (h.inv.ledger.origin hset hr.distinct hi (hr.unrecorded i hi) hx).not_passing hreason hpass
  · obtain rfl := Option.some.inj (hx.symm.trans hkill)
    simp [Result.Passing, Result.timedOut] at hpass

end Ended

/-- **The gate.** When an execution of a planned run has returned, the gate is open exactly when every
critical job lets it open; and an instance of a critical job that was foiled closes it. -/
theorem gate_opens_iff {wf : Workflow} {t : Trigger} {id : String} {r : Run} {ns : List Notice} {workers : Nat}
    (hb : JobGraph.build wf = .ok g) (hp : Plan.plan g t id = .ok (r, ns)) (hr : Plan.Fresh r) (hn : 1 ≤ workers)
    (hw : w.Yields (frame g r workers) ((frame g r workers).outset r world) Formed) {fuel : Nat}
    (hret : (w.execute (frame g r workers) fuel r world).fault ≠ some .outOfTurns)
    (hwaits : (w.execute (frame g r workers) fuel r world).fault ≠ some .graceTooLong) :
    (w.execute (frame g r workers) fuel r world).fault = none ∧
    ∃ report closed,
      (w.execute (frame g r workers) fuel r world).state.run.gateReport = .ok (report, closed) ∧
      (report.overall = .succeeded ↔ ∀ j ∈ g.jobs, g.critical j.id = true →
        LetsPass r (w.execute (frame g r workers) fuel r world).state.run j.id) ∧
      ∀ i ∈ r.instances, g.critical i.job = true →
        Foiled (w.execute (frame g r workers) fuel r world).state.run i → report.overall = .failed := by
  have hset := Setting.of_plan hb hp hn
  have hsound := (execute_ended hset hw (fun _ _ => Formed.instanceId) hret hwaits).2
  have hiff := hsound.overall_iff hset hr
  refine ⟨hsound.faultless, _, _, (hsound.closed hset).2, hiff, fun i hi hcritical hfoiled => ?_⟩
  obtain ⟨j, hj, hji⟩ := hset.planned.owner i hi
  refine Outcome.overall_eq_failed_iff.mpr fun hopen => ?_
  have hpass := hiff.mp hopen j hj (hji ▸ hcritical)
  exact hsound.not_letsPass hset hr hi hfoiled (hji ▸ hpass)

theorem gate_opens_iff_sample : ∃ g r ns fuel, JobGraph.build Plan.sample = .ok g ∧
    Plan.plan g Plan.samplePush "1" = .ok (r, ns) ∧ Plan.Fresh r ∧
    (World.hostile.execute (frame g r 2) fuel r 0).fault = none ∧
    ∃ report closed, (World.hostile.execute (frame g r 2) fuel r 0).state.run.gateReport = .ok (report, closed) ∧
      (report.overall = .succeeded ↔ ∀ j ∈ g.jobs, g.critical j.id = true →
        LetsPass r (World.hostile.execute (frame g r 2) fuel r 0).state.run j.id) := by
  obtain ⟨g, r, ns, hb, hp, hr⟩ := Plan.sample_planned
  have hw : World.hostile.Yields (frame g r 2) ((frame g r 2).outset r 0) Formed :=
    World.patient_yields fun _ => ⟨_, .broken "", rfl⟩
  obtain ⟨fuel, hfuel⟩ := exists_execute_faultless (Setting.of_plan hb hp (by decide)) hw
    (fun _ _ => Formed.instanceId) (World.patient_timely _) isTooLong_zero
  have hret : (World.hostile.execute (frame g r 2) fuel r 0).fault ≠ some .outOfTurns := by simp [hfuel]
  obtain ⟨hfault, report, closed, hreport, hiff, _⟩ :=
    gate_opens_iff hb hp hr (by decide) hw hret (by simp [hfuel])
  exact ⟨g, r, ns, fuel, hb, hp, hr, hfault, report, closed, hreport, hiff⟩

end MergeGate.Schedule
