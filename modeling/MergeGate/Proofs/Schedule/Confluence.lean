/-
Confluence. Where every instance ends as it would end by itself, the results of a run that is not
cancelled are those of a recursion over the graph (`expected`) which knows nothing of workers, turns or
the order in which instances end: an instance whose needs the expected results meet ends as it does,
and any other is blocked. The scheduler blocks an instance at a moment that depends on the schedule,
but a need once met or broken stays so; that an instance is started exactly when its needs are met in
the end is what makes the recursion hold of the final results.
-/
import MergeGate.Proofs.Outcome
import MergeGate.Proofs.Schedule.Progress
import MergeGate.Proofs.Schedule.Safety
import MergeGate.Proofs.Schedule.Settled
import MergeGate.Proofs.Schedule.Upkeep

namespace MergeGate.Schedule

/-- Each instance ends in one way, after whatever time. -/
def EndsAs (o : Instance → Finish) (i : Instance) (x : Result) : Prop := ∃ d, x = (o i).result i d

theorem EndsAs.formed {o : Instance → Finish} {i : Instance} {x : Result} (h : EndsAs o i x) : Formed i x := by
  obtain ⟨d, hx⟩ := h
  exact ⟨d, o i, hx⟩

theorem endsAs_instanceId {o : Instance → Finish} (i : Instance) (x : Result) (h : EndsAs o i x) :
    x.instanceId = i.id :=
  h.formed.instanceId

/-! ## The recursion over the graph -/

/-- Do these results, or the record of the needed job's absence, meet the need? -/
def meets (r : Run) (result : Instance → Result) (e : Edge) : Bool :=
  let needed := r.instances.filter (·.job == e.job)
  if needed.isEmpty then ((r.result? e.job).map (·.satisfies e.policy)).getD false
  else needed.all fun i => (result i).satisfies e.policy

/-- The expected result of an instance, its needs followed over `n` stages. -/
def expectedFor (g : JobGraph) (r : Run) (o : Instance → Finish) : Nat → Instance → Result
  | 0, i => .skip i Reason.blocked
  | n + 1, i =>
    if (g.needsOf i.job).all (meets r (expectedFor g r o n)) then (o i).result i 0.0
    else .skip i Reason.blocked

/-- The expected result of an instance. -/
def expected (g : JobGraph) (r : Run) (o : Instance → Finish) (i : Instance) : Result :=
  expectedFor g r o g.levels.length i

/-- The expected results of a run: those it was planned with, and one for each instance. -/
def expectedResults (g : JobGraph) (r : Run) (o : Instance → Finish) : List Result :=
  r.results ++ r.instances.map (expected g r o)

variable {g : JobGraph} {r : Run} {o : Instance → Finish} {i : Instance}

theorem meets_congr {result result' : Instance → Result} {e : Edge}
    (h : ∀ k ∈ r.instances, k.job = e.job → result k = result' k) : meets r result e = meets r result' e := by
  have hall : (r.instances.filter (·.job == e.job)).all (fun k => (result k).satisfies e.policy) =
      (r.instances.filter (·.job == e.job)).all fun k => (result' k).satisfies e.policy := by
    rw [Bool.eq_iff_iff, List.all_eq_true, List.all_eq_true]
    refine forall₂_congr fun k hk => ?_
    simp only [List.mem_filter, beq_iff_eq] at hk
    rw [h k hk.1 hk.2]
  simp only [meets, hall]

/-- Following the needs beyond the stage of the job changes nothing. -/
theorem expectedFor_stable (hg : g.Accepted) (hr : Plan.Planned g r) : ∀ (n : Nat) {i : Instance},
    i ∈ r.instances → g.depth i.job < n → expectedFor g r o (n + 1) i = expectedFor g r o n i
  | 0, _, _, h => by omega
  | n + 1, i, hi, h => by
    obtain ⟨j, hj, hji⟩ := hr.owner i hi
    have hneeds : ∀ e ∈ g.needsOf i.job,
        meets r (expectedFor g r o (n + 1)) e = meets r (expectedFor g r o n) e := by
      intro e he
      refine meets_congr fun k hk hke => expectedFor_stable hg hr n hk ?_
      have hless := hg.earlier j hj e (hji ▸ he)
      rw [hke]
      rw [hji] at hless
      omega
    have hall : (g.needsOf i.job).all (meets r (expectedFor g r o (n + 1))) =
        (g.needsOf i.job).all (meets r (expectedFor g r o n)) := by
      rw [Bool.eq_iff_iff, List.all_eq_true, List.all_eq_true]
      exact forall₂_congr fun e he => by rw [hneeds e he]
    rw [expectedFor, hall]
    rfl

/-- **The recursion.** -/
theorem expected_eq (hg : g.Accepted) (hr : Plan.Planned g r) (hi : i ∈ r.instances) : expected g r o i =
    if (g.needsOf i.job).all (meets r (expected g r o)) then (o i).result i 0.0
    else .skip i Reason.blocked := by
  obtain ⟨j, hj, hji⟩ := hr.owner i hi
  have hdepth : g.depth i.job < g.levels.length := hji ▸ hg.staged j hj
  rw [expected, ← expectedFor_stable hg hr _ hi hdepth]
  rfl

theorem expectedFor_instanceId (n : Nat) : (expectedFor g r o n i).instanceId = i.id := by
  cases n with
  | zero => rfl
  | succ n =>
    rw [expectedFor]
    split
    · cases o i <;> rfl
    · rfl

/-! ## Final results -/

/-- What a run that is not cancelled leaves of its instances. Whatever was planned stands; of the other
instances, those whose needs the final results meet were started once and ended as they do, and the rest
were blocked and never started. -/
structure Settles (g : JobGraph) (r : Run) (o : Instance → Finish) (final : Run) : Prop where
  planned : r.results <+: final.results
  once : (final.results.map (·.instanceId)).Nodup
  added : ∀ x ∈ final.results, x ∈ r.results ∨
    ∃ i ∈ r.instances, r.result? i.id = none ∧ x.instanceId = i.id
  orderly : final.dispatched.Nodup
  started : ∀ id ∈ final.dispatched, ∃ i ∈ r.instances, r.result? i.id = none ∧ i.id = id
  ran : ∀ i ∈ r.instances, r.result? i.id = none → (∀ e ∈ g.needsOf i.job, NeedMet r.instances final e) →
    i.id ∈ final.dispatched ∧ ∃ d, final.result? i.id = some ((o i).result i d)
  blocked : ∀ i ∈ r.instances, r.result? i.id = none →
    (¬ ∀ e ∈ g.needsOf i.job, NeedMet r.instances final e) →
    i.id ∉ final.dispatched ∧ final.result? i.id = some (.skip i Reason.blocked)

/-- Each instance was started once and ended as it does when the final results meet its needs, and
otherwise it was blocked and never started. -/
structure Follows (g : JobGraph) (r : Run) (o : Instance → Finish) (final : Run) : Prop where
  ran : ∀ i ∈ r.instances, (∀ e ∈ g.needsOf i.job, NeedMet r.instances final e) →
    final.dispatched.count i.id = 1 ∧ ∃ d, final.result? i.id = some ((o i).result i d)
  blocked : ∀ i ∈ r.instances, (¬ ∀ e ∈ g.needsOf i.job, NeedMet r.instances final e) →
    i.id ∉ final.dispatched ∧ final.result? i.id = some (.skip i Reason.blocked)

variable {f : Frame} {final : Run}

/-- In a run that is not cancelled, an instance is skipped only when it is blocked. -/
theorem Origin.live {x : Result} (h : Origin f (EndsAs o) final i x) (hlive : final.cancelled = false) :
    (f.readinessOf final i = .blocked ∧ x = .skip i Reason.blocked ∧ i.id ∉ final.dispatched) ∨
      EndsAs o i x ∧ i.id ∈ final.dispatched := by
  cases h with
  | skipped why never =>
    cases why with
    | blocked unmet => exact .inl ⟨unmet, rfl, never⟩
    | cancelled seen => simp [hlive] at seen
  | ran how begun =>
    cases how with
    | own given => exact .inr ⟨given, begun⟩
    | stopped given seen => simp [hlive] at seen
    | killed seen => simp [hlive] at seen

theorem NeedMet.all_iff (hset : Setting g r f) : (∀ e ∈ g.needsOf i.job, NeedMet r.instances final e) ↔
    f.readinessOf final i = .ok := by
  rw [Frame.readinessOf_eq_ok_iff, hset.graph]
  exact forall₂_congr fun e _ => ⟨NeedMet.congr fun k => (hset.mem k).symm, NeedMet.congr hset.mem⟩

variable {σ : Type} {m : Machine σ}

/-- Whatever was started had its needs met, and whatever was not is blocked. -/
theorem Sound.settles (hset : Setting g r f) (hd : (r.instances.map (·.id)).Nodup)
    (h : Sound f (EndsAs o) r ⟨.ended, m⟩) (hlive : m.state.run.cancelled = false) (hclear : Cleared f m.config)
    (hstarted : ∀ id ∈ m.state.run.dispatched, ∃ i ∈ r.instances, r.result? i.id = none ∧ i.id = id) :
    Settles g r o m.state.run := by
  have hledger := h.inv.ledger
  have hplanned : r.results <+: m.state.run.results := hledger.planned
  have horigin : ∀ i ∈ r.instances, r.result? i.id = none →
      ∃ x, m.state.run.result? i.id = some x ∧ Origin f (EndsAs o) m.state.run i x := by
    intro i hi hnew
    obtain ⟨x, hx⟩ := Option.isSome_iff_exists.mp (h.recorded ((hset.mem i).mpr hi))
    exact ⟨x, hx, hledger.origin hset hd hi hnew hx⟩
  refine ⟨hplanned, hledger.once, fun x hx => ?_, h.inv.begun.orderly, hstarted, ?_, ?_⟩
  · refine (hledger.traced x hx).elim .inl fun ⟨i, hi, hid, _⟩ => ?_
    cases hold : r.result? i.id with
    | none => exact .inr ⟨i, (hset.mem i).mp hi, hold, hid⟩
    | some y =>
      obtain ⟨hy, hyi⟩ := Run.result?_eq_some hold
      have heq : x = y := List.inj_on_of_nodup_map hledger.once hx (hplanned.subset hy) (hid.trans hyi.symm)
      exact .inl (heq ▸ hy)
  · intro i hi hnew hmet
    obtain ⟨x, hx, horigin⟩ := horigin i hi hnew
    rw [NeedMet.all_iff hset] at hmet
    rcases horigin.live hlive with ⟨hblocked, _⟩ | ⟨⟨d, rfl⟩, hbegun⟩
    · rw [hmet] at hblocked
      cases hblocked
    · exact ⟨hbegun, d, hx⟩
  · intro i hi hnew hunmet
    obtain ⟨x, hx, horigin⟩ := horigin i hi hnew
    rw [NeedMet.all_iff hset] at hunmet
    rcases horigin.live hlive with ⟨_, rfl, hnever⟩ | ⟨_, hbegun⟩
    · exact ⟨hnever, hx⟩
    · exact absurd (hclear i ((hset.mem i).mpr hi) (.inr hbegun)) hunmet

/-- Where no instance has a planned result, this is so of every instance. -/
theorem Settles.follows (h : Settles g r o final) (hr : Plan.Fresh r) : Follows g r o final := by
  constructor
  · intro i hi hmet
    obtain ⟨hbegun, hended⟩ := h.ran i hi (hr.unrecorded i hi) hmet
    exact ⟨List.count_eq_one_of_mem h.orderly hbegun, hended⟩
  · exact fun i hi => h.blocked i hi (hr.unrecorded i hi)

/-- A need is met as far as the results of the needed job's instances are known; the record of a job
without instances is the one it was planned with. -/
theorem needMet_iff (hset : Setting g r f) (hgrown : r.results <+: final.results)
    {result : Instance → Result} {e : Edge} (hdecl : ∃ k ∈ g.jobs, k.id = e.job)
    (hres : ∀ k ∈ r.instances, k.job = e.job →
      ((∃ x, final.result? k.id = some x ∧ x.satisfies e.policy = true) ↔
        (result k).satisfies e.policy = true)) :
    NeedMet r.instances final e ↔ meets r result e = true := by
  simp only [meets, List.isEmpty_iff]
  split
  · next hempty =>
    have hnone : ∀ k ∈ r.instances, k.job ≠ e.job := by
      simpa [List.filter_eq_nil_iff] using hempty
    obtain ⟨j, hj, hje⟩ := hdecl
    rcases hset.planned.decided j hj with ⟨k, hk, hkj⟩ | ⟨reason, _, hfound⟩
    · exact absurd (hkj.trans hje) (hnone k hk)
    rw [hje] at hfound
    have hfinal := Run.result?_mono hgrown hfound
    constructor
    · rintro ⟨_, hmet⟩
      obtain ⟨x, hx, hsat⟩ := hmet hnone
      obtain rfl := Option.some.inj (hfinal.symm.trans hx)
      simp [hfound, hsat]
    · intro hmet
      refine ⟨fun k hk hke => absurd hke (hnone k hk), fun _ => ⟨_, hfinal, ?_⟩⟩
      simpa [hfound] using hmet
  · next hsome =>
    obtain ⟨k₀, hk₀⟩ := List.exists_mem_of_ne_nil _ hsome
    simp only [List.mem_filter, beq_iff_eq] at hk₀
    simp only [List.all_eq_true, List.mem_filter, beq_iff_eq, and_imp]
    constructor
    · rintro ⟨hmet, _⟩ k hk hke
      exact (hres k hk hke).mp (hmet k hk hke)
    · intro hmet
      exact ⟨fun k hk hke => (hres k hk hke).mpr (hmet k hk hke), fun hnone => absurd hk₀.2 (hnone k₀ hk₀.1)⟩

/-- Where all results of the needed job are the expected ones, so is the need. -/
theorem needMet_iff_meets (hset : Setting g r f) (hgrown : r.results <+: final.results)
    {e : Edge} (hdecl : ∃ k ∈ g.jobs, k.id = e.job)
    (hres : ∀ k ∈ r.instances, k.job = e.job →
      (final.result? k.id).map (·.timeless) = some (expected g r o k)) :
    NeedMet r.instances final e ↔ meets r (expected g r o) e = true := by
  refine needMet_iff hset hgrown hdecl fun k hk hke => ?_
  obtain ⟨x, hx, heq⟩ := Option.map_eq_some_iff.mp (hres k hk hke)
  rw [← heq]
  constructor
  · rintro ⟨y, hy, hsat⟩
    obtain rfl := Option.some.inj (hx.symm.trans hy)
    exact hsat
  · intro hsat
    exact ⟨x, hx, hsat⟩

/-- **The final results are the expected ones.** By induction along the stages of the graph. -/
theorem Follows.expected (hset : Setting g r f) (hgrown : r.results <+: final.results)
    (h : Follows g r o final) (hi : i ∈ r.instances) :
    (final.result? i.id).map (·.timeless) = some (expected g r o i) := by
  have hall : ∀ j ∈ g.jobs, ∀ i ∈ r.instances, i.job = j.id →
      (final.result? i.id).map (·.timeless) = some (Schedule.expected g r o i) := by
    refine hset.accepted.induction
      (C := fun job => ∀ i ∈ r.instances, i.job = job →
        (final.result? i.id).map (·.timeless) = some (Schedule.expected g r o i)) ?_
    intro j hj ih i hi hij
    have hneeds : (∀ e ∈ g.needsOf i.job, NeedMet r.instances final e) ↔
        (g.needsOf i.job).all (meets r (Schedule.expected g r o)) = true := by
      rw [List.all_eq_true]
      refine forall₂_congr fun e he => ?_
      rw [hij] at he
      exact needMet_iff_meets hset hgrown (hset.accepted.declared j hj e he) (ih e he)
    rw [expected_eq hset.accepted hset.planned hi]
    by_cases hmet : ∀ e ∈ g.needsOf i.job, NeedMet r.instances final e
    · obtain ⟨_, d, hx⟩ := h.ran i hi hmet
      rw [if_pos (hneeds.mp hmet), hx, Option.map_some]
      cases o i <;> rfl
    · rw [if_neg (mt hneeds.mpr hmet), (h.blocked i hi hmet).2]
      rfl
  obtain ⟨j, hj, hji⟩ := hset.planned.owner i hi
  exact hall j hj i hi hji.symm

theorem expectedResults_nodup (hset : Setting g r f) (hr : Plan.Fresh r) : (expectedResults g r o).Nodup := by
  refine List.Nodup.of_map (·.instanceId) ?_
  have hids : (r.instances.map (expected g r o)).map (·.instanceId) = r.instances.map (·.id) := by
    rw [List.map_map]
    exact List.map_congr_left fun i _ => expectedFor_instanceId _
  rw [expectedResults, List.map_append, hids, List.nodup_append]
  refine ⟨hset.planned.once, hr.distinct, fun a ha b hb he => ?_⟩
  obtain ⟨x, hx, rfl⟩ := List.mem_map.mp ha
  obtain ⟨i, hi, rfl⟩ := List.mem_map.mp hb
  exact Run.result?_eq_none_iff.mp (hr.unrecorded i hi) x hx he

/-- Up to order and durations, the final results are the expected ones. -/
theorem Settles.results_perm (hset : Setting g r f) (hr : Plan.Fresh r) (h : Settles g r o final) :
    (final.results.map (·.timeless)).Perm (expectedResults g r o) := by
  have hf := h.follows hr
  have hplanned : ∀ x ∈ r.results, x.timeless = x := by
    intro x hx
    obtain ⟨j, _, reason, _, rfl, _⟩ := hset.planned.absent x hx
    rfl
  have hnodup : (final.results.map (·.timeless)).Nodup := by
    refine List.Nodup.of_map (·.instanceId) ?_
    rw [List.map_map]
    exact h.once
  refine (List.perm_ext_iff_of_nodup hnodup (expectedResults_nodup hset hr)).mpr fun y => ?_
  rw [expectedResults, List.mem_append]
  constructor
  · intro hy
    obtain ⟨x, hx, rfl⟩ := List.mem_map.mp hy
    rcases h.added x hx with hold | ⟨i, hi, _, hid⟩
    · exact .inl ((hplanned x hold).symm ▸ hold)
    · have hfound : final.result? i.id = some x := hid ▸ Run.result?_of_mem h.once hx
      have heq := hf.expected hset h.planned hi
      simp only [hfound, Option.map_some, Option.some.injEq] at heq
      exact .inr (heq ▸ List.mem_map_of_mem hi)
  · rintro (hy | hy)
    · exact List.mem_map.mpr ⟨y, h.planned.subset hy, hplanned y hy⟩
    · obtain ⟨i, hi, rfl⟩ := List.mem_map.mp hy
      obtain ⟨x, hx, heq⟩ := Option.map_eq_some_iff.mp (hf.expected hset h.planned hi)
      exact List.mem_map.mpr ⟨x, (Run.result?_eq_some hx).1, heq⟩

/-- Runs with the same results, up to order and durations, have the same outcomes. -/
theorem outcomes_congr {a b : Run} (h : (a.results.map (·.timeless)).Perm (b.results.map (·.timeless))) :
    a.outcomes g = b.outcomes g := by
  have hfor : ∀ (c : Run) (job : String), (c.resultsFor job).map (·.timeless) =
      (c.results.map (·.timeless)).filter (·.job == job) := by
    intro c job
    rw [Run.resultsFor, List.filter_map]
    rfl
  refine List.map_congr_left fun j _ => Outcome.fold_congr ?_
  rw [hfor, hfor]
  exact h.filter _

/-! ## Runs that are not cancelled -/

theorem visit_cancelled {s v : Sweep} (h : f.visit s i = .ok v) :
    v.state.run.cancelled = s.state.run.cancelled := by
  obtain ⟨results, hrun⟩ := visit_run h
  rw [hrun]

theorem finishAll_cancelled (m : Machine σ) (e : Instance × Result) :
    (m.finishAll [e]).state.run.cancelled = m.state.run.cancelled := by
  obtain ⟨results, hrun⟩ := finishAll_run m e
  rw [hrun]

/-- Where no turn begins with a cancellation, the run is never marked as cancelled. -/
theorem reaches_live {P : Instance → Result → Prop} {w : World σ} {world : σ} {p : Point σ}
    (hset : Setting g r f) (hw : w.Yields f (f.outset r world) P) (hP : ∀ i x, P i x → x.instanceId = i.id)
    (hunseen : ∀ m, w.Reaches f (f.outset r world) ⟨.top, m⟩ → w.cancelled m.world = false)
    (hp : w.Reaches f (f.outset r world) p) : p.machine.state.run.cancelled = false := by
  induction hp with
  | refl => exact hset.planned.live
  | @next q hq ih =>
    have hstanding := (reaches_sound hset hw hP hq).standing
    obtain ⟨place, m⟩ := q
    -- The places of a cancelled run are those where the run is marked, so none of them is reached.
    have hlive : m.config.run.cancelled ≠ true := by simp [show m.config.run.cancelled = false from ih]
    cases place with
    | top => simpa [World.step, hunseen m hq] using ih
    | sweep changed rest =>
      cases rest with
      | nil => cases changed <;> exact ih
      | cons k rest =>
        simp only [World.step]
        split
        · exact ih
        · next hv => exact (visit_cancelled hv).trans ih
    | start rest =>
      cases rest <;> simp only [World.step] <;> repeat' split
      all_goals exact ih
    | wait => exact ih
    | finish rest =>
      cases rest with
      | nil => exact ih
      | cons e rest =>
        simp only [World.step, Machine.goOn_machine, finishAll_cancelled]
        exact ih
    | skip => exact absurd hstanding.1 hlive
    | stop => exact absurd hstanding.1 hlive
    | grace => exact absurd hstanding.1 hlive
    | stranded => exact absurd hstanding.1 hlive
    | settle => exact absurd hstanding.1 hlive
    | kill => exact absurd hstanding.1 hlive
    | ended => exact ih

/-- A planned run executed to its end, where no cancellation is seen and each instance ends as `o`
says: in whatever world, by however many workers, and in whatever order the instances end. -/
def Carried (g : JobGraph) (r : Run) (o : Instance → Finish) (final : Run) : Prop :=
  ∃ (σ : Type) (w : World σ) (world : σ) (workers fuel : Nat), 1 ≤ workers ∧
    w.Yields (frame g r workers) ((frame g r workers).outset r world) (EndsAs o) ∧
    (∀ m, w.Reaches (frame g r workers) ((frame g r workers).outset r world) ⟨.top, m⟩ →
      w.cancelled m.world = false) ∧
    (w.execute (frame g r workers) fuel r world).fault ≠ some .outOfTurns ∧
    (w.execute (frame g r workers) fuel r world).state.run = final

/-- What is left of a run that was carried out: it is settled, and it can be reported. -/
theorem Carried.settles {wf : Workflow} {t : Trigger} {id : String} {ns : List Notice}
    (hb : JobGraph.build wf = .ok g) (hp : Plan.plan g t id = .ok (r, ns))
    (hd : (r.instances.map (·.id)).Nodup) (h : Carried g r o final) : Settles g r o final ∧
      ∃ closed, final.gateReport = .ok (final.reportOf g, closed) := by
  obtain ⟨σ, w, world, workers, fuel, hn, hw, hunseen, hret, rfl⟩ := h
  have hset := Setting.of_plan hb hp hn
  obtain ⟨p, hreached, hstate, _⟩ := execute_reached hset hw endsAs_instanceId fuel
  have hlive := reaches_live hset hw endsAs_instanceId hunseen hreached
  rw [hstate] at hlive
  obtain ⟨hreach, hsound⟩ := execute_ended_of_live hset hw endsAs_instanceId hret hlive
  have hclear := reaches_cleared hset hw endsAs_instanceId (hset.eq_of_id hd) hreach
  have hstarted := reaches_unrecorded hset hw endsAs_instanceId hreach
  exact ⟨hsound.settles hset hd hlive hclear hstarted, _, (hsound.closed hset).2⟩

theorem Carried.ended {wf : Workflow} {t : Trigger} {id : String} {ns : List Notice}
    (hb : JobGraph.build wf = .ok g) (hp : Plan.plan g t id = .ok (r, ns)) (hr : Plan.Fresh r)
    (h : Carried g r o final) : Follows g r o final ∧
      (∀ i ∈ r.instances, (final.result? i.id).map (·.timeless) = some (expected g r o i)) ∧
      (final.results.map (·.timeless)).Perm (expectedResults g r o) ∧
      ∃ closed, final.gateReport = .ok (final.reportOf g, closed) := by
  obtain ⟨hsettles, hclosed⟩ := h.settles hb hp hr.distinct
  have hset := Setting.of_plan hb hp (Nat.le_refl 1)
  have hfollows := hsettles.follows hr
  exact ⟨hfollows, fun i hi => hfollows.expected hset hsettles.planned hi,
    hsettles.results_perm hset hr, hclosed⟩

/-- A world in which everything ends after a while carries the run out. -/
theorem exists_carried (o : Instance → Finish) (delay : Nat) {workers : Nat}
    (hset : Setting g r (frame g r workers)) :
    ∃ fuel, Carried g r o ((World.patient delay none fun i => (o i).result i 0.0).execute
      (frame g r workers) fuel r 0).state.run := by
  let w := World.patient delay none fun i => (o i).result i 0.0
  have hw : w.Yields (frame g r workers) ((frame g r workers).outset r 0) (EndsAs o) :=
    World.patient_yields fun _ => ⟨0.0, rfl⟩
  obtain ⟨fuel, hfuel⟩ := exists_execute_faultless hset hw endsAs_instanceId (World.patient_timely _) isTooLong_zero
  exact ⟨fuel, Nat, w, 0, workers, fuel, hset.workers, hw, fun _ _ => rfl, by simp [hfuel], rfl⟩

/-- **Confluence.** However a planned run is carried out without being cancelled, each instance is
started once and ends as it does, or is blocked, as the final results of what it needs say; these are
the results of a recursion over the graph; and any two ways give the same results, up to their order
and durations, and the same report of the jobs and of the gate. -/
theorem execute_confluent {wf : Workflow} {t : Trigger} {id : String} {ns : List Notice}
    (hb : JobGraph.build wf = .ok g) (hp : Plan.plan g t id = .ok (r, ns)) (hr : Plan.Fresh r) :
    (∀ i ∈ r.instances, expected g r o i =
      if (g.needsOf i.job).all (meets r (expected g r o)) then (o i).result i 0.0
      else .skip i Reason.blocked) ∧
    (∀ a, Carried g r o a → Follows g r o a ∧
      ∀ i ∈ r.instances, (a.result? i.id).map (·.timeless) = some (expected g r o i)) ∧
    ∀ a b, Carried g r o a → Carried g r o b →
      (a.results.map (·.timeless)).Perm (b.results.map (·.timeless)) ∧
      ∃ ra ca rb cb, a.gateReport = .ok (ra, ca) ∧ b.gateReport = .ok (rb, cb) ∧
        ra.definitions = rb.definitions ∧ ra.overall = rb.overall := by
  have hg := JobGraph.build_accepted hb
  refine ⟨fun i hi => expected_eq hg (Plan.plan_planned hg hp) hi, fun a ha => ?_, fun a b ha hb' => ?_⟩
  · obtain ⟨hfollows, hexpected, _⟩ := ha.ended hb hp hr
    exact ⟨hfollows, hexpected⟩
  · obtain ⟨_, _, hperm, ca, hca⟩ := ha.ended hb hp hr
    obtain ⟨_, _, hperm', cb, hcb⟩ := hb'.ended hb hp hr
    have hsame := hperm.trans hperm'.symm
    have hout : a.outcomes g = b.outcomes g := outcomes_congr hsame
    exact ⟨hsame, _, ca, _, cb, hca, hcb, hout, congrArg Outcome.overall hout⟩

/-- The first job of the sample cannot be run, and all others succeed. -/
def sampleFinish (i : Instance) : Finish :=
  if i.job = "lint" then .broken "not found" else .exit (some 0) "" none

theorem execute_confluent_sample : ∃ g r ns a b, JobGraph.build Plan.sample = .ok g ∧
    Plan.plan g Plan.samplePush "1" = .ok (r, ns) ∧ Plan.Fresh r ∧
    Carried g r sampleFinish a ∧ Carried g r sampleFinish b ∧
    Follows g r sampleFinish a ∧ (a.results.map (·.timeless)).Perm (b.results.map (·.timeless)) ∧
    ∃ ra ca rb cb, a.gateReport = .ok (ra, ca) ∧ b.gateReport = .ok (rb, cb) ∧
      ra.definitions = rb.definitions ∧ ra.overall = rb.overall := by
  obtain ⟨g, r, ns, hb, hp, hr⟩ := Plan.sample_planned
  -- One worker and no delay; three workers and a delay of four ticks.
  obtain ⟨_, ha⟩ := exists_carried sampleFinish 0 (Setting.of_plan hb hp (Nat.le_refl 1))
  obtain ⟨_, hb'⟩ := exists_carried sampleFinish 4 (Setting.of_plan hb hp (show 1 ≤ 3 by decide))
  obtain ⟨_, hfollows, hsame⟩ := execute_confluent (o := sampleFinish) hb hp hr
  exact ⟨g, r, ns, _, _, hb, hp, hr, ha, hb', (hfollows _ ha).1, hsame _ _ ha hb'⟩

end MergeGate.Schedule
