/-
One worker. With a single worker an instance is started only when all that were started before it have
ended, so what is started next is decided by the instances started so far and by how each of them ends:
it is the first, in the order of the instances, whose needs these results meet (`nextSerial`). No clock
has a part in it. The instances that were started are therefore, at every moment, the first entries of
one list (`serialOrder`), and at the end of a run that is not cancelled they are all of it.
-/
import MergeGate.Proofs.Schedule.Comparison
import MergeGate.Proofs.Schedule.Priority

namespace MergeGate.Schedule

/-! ## The order -/

/-- The result of an instance when those in `done`, and no others, were started and have ended. One that
was not started counts as blocked, which meets no need. -/
def resultAfter (r : Run) (o : Instance → Finish) (done : List String) (i : Instance) : Result :=
  match r.result? i.id with
  | some x => x
  | none => if i.id ∈ done then (o i).result i 0.0 else .skip i Reason.blocked

/-- May the instance be started after those in `done`? -/
def enabledAfter (g : JobGraph) (r : Run) (o : Instance → Finish) (done : List String) (i : Instance) : Bool :=
  (r.result? i.id).isNone && !done.contains i.id &&
    (g.needsOf i.job).all (meets r (resultAfter r o done))

/-- The instance that is started after those in `done`. -/
def nextSerial (g : JobGraph) (r : Run) (o : Instance → Finish) (done : List String) : Option Instance :=
  (inOrder g r.instances).find? (enabledAfter g r o done)

/-- One more instance is started, if there is one. -/
def serialStep (g : JobGraph) (r : Run) (o : Instance → Finish) (done : List String) : List String :=
  match nextSerial g r o done with
  | none => done
  | some i => done ++ [i.id]

/-- The order in which a single worker takes the instances of a run. -/
def serialOrder (g : JobGraph) (r : Run) (o : Instance → Finish) : List String :=
  (serialStep g r o)^[r.instances.length] []

variable {g : JobGraph} {r : Run} {o : Instance → Finish} {i : Instance} {done : List String}

theorem prefix_serialStep (done : List String) : done <+: serialStep g r o done := by
  rw [serialStep]
  split
  · exact List.prefix_refl _
  · exact List.prefix_append _ _

theorem prefix_iterate_serialStep (done : List String) : ∀ n : Nat, done <+: (serialStep g r o)^[n] done
  | 0 => List.prefix_refl _
  | n + 1 => by
    rw [Function.iterate_succ_apply']
    exact (prefix_iterate_serialStep done n).trans (prefix_serialStep _)

/-- What was reached in as many steps as it has entries comes first in the order. -/
theorem serialOrder_eq (hstep : (serialStep g r o)^[done.length] [] = done)
    (hle : done.length ≤ r.instances.length) :
    serialOrder g r o = (serialStep g r o)^[r.instances.length - done.length] done := by
  rw [serialOrder, ← Nat.sub_add_cancel hle, Function.iterate_add_apply, hstep, Nat.add_sub_cancel]

/-! ## One moment -/

section Idle

variable {f : Frame} {c : Config} (hset : Setting g r f) (hd : (r.instances.map (·.id)).Nodup)
  (h : Inv f (EndsAs o) r c) (hlive : c.run.cancelled = false) (hflight : c.flight = [])
include hset hd h hlive hflight

/-- With nothing in flight, the results that meet a need are those of the instances started so far. -/
theorem Inv.satisfied_iff {k : Instance} (hk : k ∈ r.instances) (p : Policy) :
    (∃ x, c.run.result? k.id = some x ∧ x.satisfies p = true) ↔
      (resultAfter r o c.run.dispatched k).satisfies p = true := by
  rw [resultAfter]
  cases hold : r.result? k.id with
  | some x => simp [Run.result?_mono h.ledger.planned hold]
  | none =>
    by_cases hmem : k.id ∈ c.run.dispatched
    · have hres := (h.begun.settled k.id hmem).resolve_left (h.aloft.not_running hflight k.id)
      obtain ⟨x, hx⟩ := Option.isSome_iff_exists.mp hres
      rcases (h.ledger.origin hset hd hk hold hx).live hlive with ⟨_, _, hnever⟩ | ⟨⟨d, rfl⟩, _⟩
      · exact absurd hmem hnever
      · rw [if_pos hmem, ← Finish.result_timeless _ d, Result.satisfies_timeless]
        simp [hx]
    · simp only [if_neg hmem, Result.not_satisfies_blocked, Bool.false_eq_true, iff_false]
      rintro ⟨x, hx, hsat⟩
      rcases (h.ledger.origin hset hd hk hold hx).live hlive with ⟨_, rfl, _⟩ | ⟨_, hbegun⟩
      · rw [Result.not_satisfies_blocked] at hsat
        cases hsat
      · exact hmem hbegun

/-- The needs of an instance are met exactly when those started so far meet them. -/
theorem Inv.met_iff (hi : i ∈ r.instances) : f.readinessOf c.run i = .ok ↔
    (g.needsOf i.job).all (meets r (resultAfter r o c.run.dispatched)) = true := by
  obtain ⟨j, hj, hji⟩ := hset.planned.owner i hi
  rw [← NeedMet.all_iff hset, List.all_eq_true]
  refine forall₂_congr fun e he => ?_
  have hdecl := hset.accepted.declared j hj e (hji ▸ he)
  exact needMet_iff hset h.ledger.planned hdecl fun k hk _ => h.satisfied_iff hset hd hlive hflight hk _

/-- With nothing in flight, an instance may be started when it has not been and its needs are met. -/
theorem Inv.enabled_iff (hi : i ∈ r.instances) : enabledAfter g r o c.run.dispatched i = true ↔
    Waiting c i ∧ f.readinessOf c.run i = .ok := by
  rw [enabledAfter, Bool.and_eq_true, Bool.and_eq_true, Option.isNone_iff_eq_none, Bool.not_eq_true',
    ← h.met_iff hset hd hlive hflight hi, List.contains_eq_mem, decide_eq_false_iff_not]
  constructor
  · rintro ⟨⟨hnew, hnot⟩, hok⟩
    refine ⟨?_, hok⟩
    cases hphase : c.phase? i.id with
    | none =>
      -- it has a result, so it was started, or it is blocked for good
      obtain ⟨x, hx⟩ := Option.isSome_iff_exists.mp (h.phased.covered i ((hset.mem i).mpr hi) hphase)
      rcases (h.ledger.origin hset hd hi hnew hx).live hlive with ⟨hblocked, _⟩ | ⟨_, hbegun⟩
      · rw [hok] at hblocked
        cases hblocked
      · exact absurd hbegun hnot
    | some p =>
      cases p with
      | pending => exact .inl hphase
      | ready => exact .inr hphase
      | running => exact absurd hphase (h.aloft.not_running hflight i.id)
  · rintro ⟨hwaiting, hok⟩
    exact ⟨⟨h.unplanned hwaiting.isSome, h.begun.not_dispatched h.phased hwaiting⟩, hok⟩

end Idle

/-! ## All moments of a run with one worker -/

section Runs

variable {σ : Type} {w : World σ} {world : σ} {p : Point σ} {m : Machine σ}

/-- The instance that a single worker takes is the next in the order. -/
theorem Sound.nextSerial_eq {rest : List Instance} (hset : Setting g r (frame g r 1))
    (hd : (r.instances.map (·.id)).Nodup) (h : Sound (frame g r 1) (EndsAs o) r ⟨.start (i :: rest), m⟩)
    (hclear : Cleared (frame g r 1) m.config) (hrest : i :: rest <:+ (frame g r 1).instances)
    (hroom : m.flight.length < 1) (hready : m.config.phase? i.id = some .ready) :
    nextSerial g r o m.state.run.dispatched = some i := by
  have hflight : m.config.flight = [] := List.eq_nil_of_length_eq_zero (Nat.lt_one_iff.mp hroom)
  obtain ⟨hlive, -, hwait, -⟩ := h.standing
  have henabled : ∀ k ∈ (frame g r 1).instances,
      (enabledAfter g r o m.state.run.dispatched k = true ↔ m.config.phase? k.id = some .ready) := by
    intro k hk
    refine (h.inv.enabled_iff hset hd hlive hflight ((hset.mem k).mp hk)).trans ⟨?_, fun hr => ?_⟩
    · rintro ⟨hpending | hready, hok⟩
      · rw [hwait k hk hpending] at hok
        cases hok
      · exact hready
    · exact ⟨.inr hr, hclear k hk (.inl hr)⟩
  obtain ⟨earlier, hsplit⟩ := hrest
  have hnodup : (earlier ++ i :: rest).Nodup := by
    rw [hsplit]
    exact (inOrder_perm _).nodup_iff.mpr hd.of_map
  have hall : inOrder g r.instances = earlier ++ i :: rest := hsplit.symm
  refine List.find?_eq_some_iff_append.mpr
    ⟨(henabled i (hsplit ▸ by simp)).mpr hready, earlier, rest, hall, fun a ha => ?_⟩
  -- what comes earlier was looked at, and is not ready
  rw [Bool.not_eq_true', ← Bool.not_eq_true, henabled a (hsplit ▸ List.mem_append_left _ ha)]
  intro hr
  have hlater := (h.first (pairwise_inOrder _) ⟨earlier, hsplit⟩ hroom a (hsplit ▸ by simp [ha]) hr).1
  exact (List.nodup_append.mp hnodup).2.2 a ha a hlater rfl

variable (hset : Setting g r (frame g r 1)) (hd : (r.instances.map (·.id)).Nodup)
  (hw : w.Yields (frame g r 1) ((frame g r 1).outset r world) (EndsAs o))
include hset hd hw

/-- What was started is what the order gives in as many steps. By induction on the steps of the run. -/
theorem reaches_serial (hp : w.Reaches (frame g r 1) ((frame g r 1).outset r world) p) :
    (serialStep g r o)^[p.machine.state.run.dispatched.length] [] = p.machine.state.run.dispatched := by
  induction hp with
  | refl =>
    have hnone : ((frame g r 1).outset r world).machine.state.run.dispatched = [] := hset.planned.unstarted
    rw [hnone]
    rfl
  | @next q hq ih =>
    rcases step_dispatched (w := w) (f := frame g r 1) q with hsame | ⟨i, rest, hplace, hroom, hready, hadded⟩
    · rw [hsame]
      exact ih
    · obtain ⟨place, m⟩ := q
      obtain rfl : place = .start (i :: rest) := hplace
      have hclear := reaches_cleared hset hw endsAs_instanceId (hset.eq_of_id hd) hq
      have hsound := reaches_sound hset hw endsAs_instanceId hq
      have hnext := hsound.nextSerial_eq hset hd hclear (reaches_start hq _ rfl) hroom hready
      rw [hadded, List.length_append, List.length_singleton, Function.iterate_succ_apply', ih, serialStep,
        hnext]

omit hd in
theorem reaches_length_dispatched (hp : w.Reaches (frame g r 1) ((frame g r 1).outset r world) p) :
    p.machine.state.run.dispatched.length ≤ r.instances.length := by
  have hsound := reaches_sound hset hw endsAs_instanceId hp
  have horderly : p.machine.state.run.dispatched.Nodup := hsound.inv.begun.orderly
  have hsub : p.machine.state.run.dispatched ⊆ r.instances.map (·.id) := by
    intro id hid
    obtain ⟨i, hi, _, rfl⟩ := reaches_unrecorded hset hw endsAs_instanceId hp id hid
    exact List.mem_map_of_mem hi
  exact (List.subperm_of_subset horderly hsub).length_le.trans_eq (List.length_map _)

/-- At every moment the instances that were started are the first of the order. -/
theorem reaches_prefix_serialOrder (hp : w.Reaches (frame g r 1) ((frame g r 1).outset r world) p) :
    p.machine.state.run.dispatched <+: serialOrder g r o := by
  rw [serialOrder_eq (reaches_serial hset hd hw hp) (reaches_length_dispatched hset hw hp)]
  exact prefix_iterate_serialStep _ _

/-- When a run that was not cancelled has ended, they are all of it. -/
theorem ended_eq_serialOrder (hp : w.Reaches (frame g r 1) ((frame g r 1).outset r world) ⟨.ended, m⟩)
    (hlive : m.state.run.cancelled = false) : m.state.run.dispatched = serialOrder g r o := by
  have hsound := reaches_sound hset hw endsAs_instanceId hp
  have hphase : ∀ id, m.config.phase? id = none := by
    intro id
    rw [Config.phase?, show m.config.state.phases = [] from hsound.standing]
    rfl
  have hflight : m.config.flight = [] := List.eq_nil_iff_forall_not_mem.mpr fun i hi => by
    have hrun := hsound.inv.aloft.running_of_flying hi
    rw [hphase] at hrun
    cases hrun
  have hnext : nextSerial g r o m.state.run.dispatched = none := by
    refine List.find?_eq_none.mpr fun i hi henabled => ?_
    have hwaiting := ((hsound.inv.enabled_iff hset hd hlive hflight ((hset.mem i).mp hi)).mp henabled).1
    simpa [hphase] using hwaiting.isSome
  have hfixed : serialStep g r o m.state.run.dispatched = m.state.run.dispatched := by
    rw [serialStep, hnext]
  rw [serialOrder_eq (reaches_serial hset hd hw hp) (reaches_length_dispatched hset hw hp)]
  exact (Function.iterate_fixed hfixed _).symm

end Runs

/-- **What is started, and when.** At every moment of a scheduled run an instance is started only when
none that comes before it is ready, and nothing is waited for while work could be done; and a single
worker takes the instances in an order that the plan and the ends of the instances determine, whatever
time anything takes. -/
theorem dispatch_in_order {σ : Type} {w : World σ} {world : σ} {wf : Workflow} {t : Trigger} {id : String}
    {ns : List Notice} {workers : Nat}
    (hb : JobGraph.build wf = .ok g) (hp : Plan.plan g t id = .ok (r, ns))
    (hd : (r.instances.map (·.id)).Nodup) (hn : 1 ≤ workers)
    (hw : w.Yields (frame g r workers) ((frame g r workers).outset r world) fun i x => x.instanceId = i.id) :
    (∀ fuel, ∃ p, w.Reaches (frame g r workers) ((frame g r workers).outset r world) p ∧
      p.machine.state = (w.execute (frame g r workers) fuel r world).state) ∧
    (∀ p, w.Reaches (frame g r workers) ((frame g r workers).outset r world) p →
      Diligent w (frame g r workers) r p) ∧
    (workers = 1 → ∀ o, w.Yields (frame g r 1) ((frame g r 1).outset r world) (EndsAs o) →
      (∀ p, w.Reaches (frame g r 1) ((frame g r 1).outset r world) p →
        p.machine.state.run.dispatched <+: serialOrder g r o) ∧
      ∀ fuel, (w.execute (frame g r 1) fuel r world).fault ≠ some .outOfTurns →
        (w.execute (frame g r 1) fuel r world).state.run.cancelled = false →
        (w.execute (frame g r 1) fuel r world).state.run.dispatched = serialOrder g r o) := by
  have hset := Setting.of_plan hb hp hn
  refine ⟨fun fuel => ?_, fun p hreach => ?_, ?_⟩
  · obtain ⟨p, hreach, hstate, _⟩ := execute_reached hset hw (fun _ _ h => h) fuel
    exact ⟨p, hreach, hstate⟩
  · exact reaches_diligent hset hd (pairwise_inOrder _) hw (fun _ _ h => h) hreach
  · rintro rfl o ho
    refine ⟨fun p hreach => reaches_prefix_serialOrder hset hd ho hreach, fun fuel hret hlive => ?_⟩
    have hreach := (execute_ended_of_live hset ho endsAs_instanceId hret hlive).1
    exact ended_eq_serialOrder hset hd ho hreach hlive

/-- A world in which the instances of the sample end after a while, and nobody cancels. -/
def sampleWorld (delay : Nat) : World Nat := .patient delay none fun i => (sampleFinish i).result i 0.0

/-- However long the instances of the sample take, one worker starts them in the same order. -/
theorem dispatch_in_order_sample : ∃ g r ns, JobGraph.build Plan.sample = .ok g ∧
    Plan.plan g Plan.samplePush "1" = .ok (r, ns) ∧ ∀ delay,
      (∀ p, (sampleWorld delay).Reaches (frame g r 1) ((frame g r 1).outset r 0) p →
        Diligent (sampleWorld delay) (frame g r 1) r p) ∧
      ∃ turns, ((sampleWorld delay).execute (frame g r 1) turns r 0).state.run.dispatched =
        serialOrder g r sampleFinish := by
  obtain ⟨g, r, ns, hb, hp, hr⟩ := Plan.sample_planned
  refine ⟨g, r, ns, hb, hp, fun delay => ?_⟩
  have hset := Setting.of_plan hb hp (Nat.le_refl 1)
  have ho : (sampleWorld delay).Yields (frame g r 1) ((frame g r 1).outset r 0) (EndsAs sampleFinish) :=
    World.patient_yields fun _ => ⟨0.0, rfl⟩
  have hw : (sampleWorld delay).Yields (frame g r 1) ((frame g r 1).outset r 0) fun i x => x.instanceId = i.id :=
    World.patient_yields fun i => endsAs_instanceId i _ ⟨0.0, rfl⟩
  obtain ⟨-, hdiligent, hserial⟩ := dispatch_in_order hb hp hr.distinct (Nat.le_refl 1) hw
  obtain ⟨turns, hfault⟩ :=
    exists_execute_faultless hset ho endsAs_instanceId (World.patient_timely _) isTooLong_zero
  have hret : ((sampleWorld delay).execute (frame g r 1) turns r 0).fault ≠ some .outOfTurns := by
    simp [hfault]
  have hreach := (execute_ended hset ho endsAs_instanceId hret (by simp [hfault])).1
  have hlive := reaches_live hset ho endsAs_instanceId (fun _ _ => rfl) hreach
  exact ⟨hdiligent, turns, (hserial rfl sampleFinish ho).2 turns hret hlive⟩

end MergeGate.Schedule
