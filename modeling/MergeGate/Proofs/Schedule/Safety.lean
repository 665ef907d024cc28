/-
Safety of dispatch. An instance is made ready when its needs are met, and started perhaps many results
later. Needs once met stay met (`Cleared`), so they are met when it starts; and a run that is marked as
cancelled starts nothing any more.
-/
import MergeGate.Proofs.Schedule.Invariant

namespace MergeGate.Schedule

variable {σ : Type} {w : World σ} {f : Frame} {P : Instance → Result → Prop} {r₀ : Run} {g : JobGraph}
  {p q : Point σ} {c c' : Config} {world : σ}

/-- The needs of whatever is ready or has been started are met. -/
def Cleared (f : Frame) (c : Config) : Prop :=
  ∀ i ∈ f.instances, c.phase? i.id = some .ready ∨ i.id ∈ c.run.dispatched → f.readinessOf c.run i = .ok

/-- Results that are added leave cleared what was cleared. -/
theorem Cleared.mono (h : Cleared f c) (hgrows : c.run.results <+: c'.run.results) {i : Instance}
    (hi : i ∈ f.instances) (hc : c.phase? i.id = some .ready ∨ i.id ∈ c.run.dispatched) :
    f.readinessOf c'.run i = .ok := by
  have hok := h i hi hc
  rw [Frame.readinessOf_mono hgrows (by simp [hok]), hok]

theorem Move.cleared (hd : ∀ i ∈ f.instances, ∀ k ∈ f.instances, i.id = k.id → i = k)
    (hm : Move f P c c') (h : Cleared f c) : Cleared f c' := by
  have hgrows := hm.grows.results
  intro k hk hkc
  cases hm with
  | @ready i mem pending met =>
    by_cases he : k.id = i.id
    · obtain rfl := hd k hk i mem he
      rw [Frame.readinessOf_mono hgrows (by simp [met]), met]
    · rw [Config.phase?_readied, if_neg he] at hkc
      exact h.mono hgrows hk hkc
  | skip mem waiting why =>
    refine h.mono hgrows hk (hkc.imp_left fun hready => ?_)
    rw [Config.phase?_recorded] at hready
    split at hready
    · cases hready
    · exact hready
  | @dispatch i mem ready room live =>
    by_cases he : k.id = i.id
    · exact h.mono hgrows hk (.inl (he ▸ ready))
    · refine h.mono hgrows hk ?_
      rw [Config.phase?_launched, if_neg he] at hkc
      refine hkc.imp_right fun hmem => ?_
      rcases List.mem_append.mp hmem with hmem | hmem
      · exact hmem
      · exact absurd (by simpa using hmem) he
  | finish flying how =>
    refine h.mono hgrows hk (hkc.imp_left fun hready => ?_)
    rw [Config.phase?_landed] at hready
    split at hready
    · cases hready
    · exact hready
  | cancel => exact h.mono hgrows hk hkc

theorem NeedMet.congr {is is' : List Instance} {r : Run} {e : Edge} (hmem : ∀ i, i ∈ is ↔ i ∈ is')
    (h : NeedMet is r e) : NeedMet is' r e :=
  ⟨fun i hi => h.1 i ((hmem i).mpr hi), fun hno => h.2 fun i hi => hno i ((hmem i).mp hi)⟩

/-- A move that starts an instance starts one that is ready, in a run that is not cancelled. -/
theorem Move.of_dispatched (hm : Move f P c c') {id : String} (hnot : id ∉ c.run.dispatched)
    (hnow : id ∈ c'.run.dispatched) : c.phase? id = some .ready ∧ c.run.cancelled = false := by
  cases hm with
  | @dispatch i mem ready room live =>
    rcases List.mem_append.mp hnow with hmem | hmem
    · exact absurd hmem hnot
    · obtain rfl : id = i.id := by simpa using hmem
      exact ⟨ready, live⟩
  | _ => exact absurd hnow hnot

theorem Move.dispatched_of_cancelled (hm : Move f P c c') (hc : c.run.cancelled = true) :
    c'.run.dispatched = c.run.dispatched := by
  cases hm with
  | dispatch mem ready room live =>
    rw [live] at hc
    cases hc
  | _ => rfl

section Runs

variable (hset : Setting g r₀ f) (hw : w.Yields f (f.outset r₀ world) P)
  (hP : ∀ i x, P i x → x.instanceId = i.id)
include hset hw hP

theorem reaches_cleared (hd : ∀ i ∈ f.instances, ∀ k ∈ f.instances, i.id = k.id → i = k)
    (hp : w.Reaches f (f.outset r₀ world) p) : Cleared f p.machine.config := by
  induction hp with
  | refl =>
    intro i hi hc
    rcases hc with hready | hmem
    · rw [phase?_outset] at hready
      split at hready <;> cases hready
    · have hnone : (f.outset r₀ world).machine.config.run.dispatched = [] := hset.planned.unstarted
      simp [hnone] at hmem
  | next hp ih =>
    rcases reaches_moved hset hw hP hp with heq | hmove
    · exact heq ▸ ih
    · exact hmove.cleared hd ih

/-- Only instances that had no result when the run was planned are started. -/
theorem reaches_unrecorded (hp : w.Reaches f (f.outset r₀ world) p) :
    ∀ id ∈ p.machine.state.run.dispatched, ∃ i ∈ r₀.instances, r₀.result? i.id = none ∧ i.id = id := by
  induction hp with
  | refl =>
    have hnone : (f.outset r₀ world).machine.state.run.dispatched = [] := hset.planned.unstarted
    simp [hnone]
  | @next q hq ih =>
    intro id hid
    by_cases hold : id ∈ q.machine.state.run.dispatched
    · exact ih id hold
    rcases reaches_moved hset hw hP hq with heq | hmove
    · exact absurd (congrArg (·.run.dispatched) heq ▸ hid) hold
    have hinv := (reaches_sound hset hw hP hq).inv
    have hphase : (q.machine.config.phase? id).isSome := by simp [(hmove.of_dispatched hold hid).1]
    obtain ⟨i, hi, rfl⟩ := hinv.phased.owned id hphase
    exact ⟨i, (hset.mem i).mp hi, hinv.unplanned hphase, rfl⟩

theorem dispatched_of_cancelled (hp : w.Reaches f (f.outset r₀ world) p)
    (hc : p.machine.state.run.cancelled = true) (hq : w.Reaches f p q) :
    q.machine.state.run.dispatched = p.machine.state.run.dispatched := by
  induction hq with
  | refl => rfl
  | next hq ih =>
    have hc' : _ = true := (reaches_grows hset hw hP hp hq).cancelled hc
    rcases reaches_moved hset hw hP (hp.trans hq) with heq | hmove
    · exact (congrArg (·.run.dispatched) heq).trans ih
    · exact (hmove.dispatched_of_cancelled hc').trans ih

/-- The loop marks the run as cancelled before it does anything else. -/
theorem dispatched_of_seen (hp : w.Reaches f (f.outset r₀ world) p) (htop : p.place = .top)
    (hc : w.cancelled p.machine.world = true) (hq : w.Reaches f p q) :
    q.machine.state.run.dispatched = p.machine.state.run.dispatched := by
  have hstep : w.step f p = ⟨.skip f.instances, p.machine.markCancelled⟩ := by
    simp [World.step, htop, hc]
  rcases hq.eq_or_next with rfl | hnext
  · rfl
  · have hfixed := dispatched_of_cancelled hset hw hP hp.next (by rw [hstep]; rfl) hnext
    rw [hfixed, hstep]
    rfl

theorem met_of_dispatched (hd : ∀ i ∈ f.instances, ∀ k ∈ f.instances, i.id = k.id → i = k)
    (hp : w.Reaches f (f.outset r₀ world) p) {i : Instance} (hi : i ∈ f.instances)
    (hnot : i.id ∉ p.machine.state.run.dispatched)
    (hnow : i.id ∈ (w.step f p).machine.state.run.dispatched) :
    ∀ e ∈ f.graph.needsOf i.job, NeedMet f.instances p.machine.state.run e := by
  rcases reaches_moved hset hw hP hp with heq | hmove
  · have hsame : (w.step f p).machine.state.run.dispatched = p.machine.state.run.dispatched :=
      congrArg (·.run.dispatched) heq
    exact absurd (hsame ▸ hnow) hnot
  · have hready := (hmove.of_dispatched hnot hnow).1
    exact Frame.readinessOf_eq_ok_iff.mp (reaches_cleared hset hw hP hd hp i hi (.inl hready))

end Runs

/-- What is promised of a moment of a scheduled run and of all that follows it. -/
structure Safe (w : World σ) (f : Frame) (r : Run) (p : Point σ) : Prop where
  apart : ∀ id ∈ p.machine.state.phases.keys, id ∉ p.machine.state.run.results.map (·.instanceId)
  covered : ∀ i ∈ r.instances, i.id ∈ p.machine.state.phases.keys ∨
    i.id ∈ p.machine.state.run.results.map (·.instanceId)
  flying : ∀ i, i ∈ p.machine.flight ↔
    i ∈ r.instances ∧ p.machine.state.phases.lookup i.id = some .running
  single : p.machine.flight.Nodup
  room : p.machine.flight.length ≤ f.workers
  /-- no instance is started twice -/
  orderly : p.machine.state.run.dispatched.Nodup
  /-- a result never changes -/
  kept : ∀ q, w.Reaches f p q → ∀ id x, p.machine.state.run.result? id = some x →
    q.machine.state.run.result? id = some x
  /-- when an instance is started, its needs are met -/
  met : ∀ i ∈ r.instances, i.id ∉ p.machine.state.run.dispatched →
    i.id ∈ (w.step f p).machine.state.run.dispatched →
      ∀ e ∈ f.graph.needsOf i.job, NeedMet r.instances p.machine.state.run e
  /-- once the loop has seen that the run is cancelled, nothing is started -/
  halted : p.place = .top → w.cancelled p.machine.world = true → ∀ q, w.Reaches f p q →
    q.machine.state.run.dispatched = p.machine.state.run.dispatched

theorem Inv.mem_flight (h : Inv f P r₀ c) (hd : ∀ i ∈ f.instances, ∀ k ∈ f.instances, i.id = k.id → i = k)
    (i : Instance) : i ∈ c.flight ↔ i ∈ f.instances ∧ c.phase? i.id = some .running := by
  constructor
  · exact fun hi => ⟨h.aloft.flying i hi, h.aloft.running_of_flying hi⟩
  · rintro ⟨hi, hrun⟩
    obtain ⟨k, hk, hki⟩ := List.mem_map.mp ((h.aloft.running i.id).mp hrun)
    exact hd k (h.aloft.flying k hk) i hi hki ▸ hk

/-- **Dispatch is safe.** Whatever ends and in whatever order, and whenever the run is cancelled, every
moment that an execution of a planned run passes through is safe. -/
theorem execute_safe {wf : Workflow} {t : Trigger} {id : String} {r : Run} {ns : List Notice} {workers : Nat}
    (hb : JobGraph.build wf = .ok g) (hp : Plan.plan g t id = .ok (r, ns))
    (hd : (r.instances.map (·.id)).Nodup) (hn : 1 ≤ workers)
    (hw : w.Yields (frame g r workers) ((frame g r workers).outset r world) fun i x => x.instanceId = i.id) :
    (∀ fuel, ∃ p, w.Reaches (frame g r workers) ((frame g r workers).outset r world) p ∧
      p.machine.state = (w.execute (frame g r workers) fuel r world).state ∧
      p.machine.flight = (w.execute (frame g r workers) fuel r world).flight) ∧
    ∀ p, w.Reaches (frame g r workers) ((frame g r workers).outset r world) p →
      Safe w (frame g r workers) r p := by
  have hset := Setting.of_plan hb hp hn
  have hP : ∀ (i : Instance) (x : Result), x.instanceId = i.id → x.instanceId = i.id := fun _ _ h => h
  refine ⟨execute_reached hset hw hP, fun p hp => ?_⟩
  have hinv := (reaches_sound hset hw hP hp).inv
  have hinj := hset.eq_of_id hd
  refine ⟨?_, ?_, ?_, hinv.aloft.single.of_map, hinv.aloft.room, hinv.begun.orderly, ?_, ?_, ?_⟩
  · intro id hid hmem
    have hnone := hinv.phased.apart id (Assoc.isSome_lookup_iff.mpr hid)
    obtain ⟨x, hx, hxid⟩ := List.mem_map.mp hmem
    exact Run.result?_eq_none_iff.mp hnone x hx hxid
  · intro i hi
    by_cases hphase : (p.machine.config.phase? i.id).isSome
    · exact .inl (Assoc.isSome_lookup_iff.mp hphase)
    · have hres := hinv.phased.covered i ((hset.mem i).mpr hi) (by simpa using hphase)
      obtain ⟨x, hx, hxid⟩ := Run.result?_isSome_iff.mp hres
      exact .inr (hxid ▸ List.mem_map_of_mem hx)
  · intro i
    rw [← hset.mem]
    exact hinv.mem_flight hinj i
  · exact fun q hq id x => Run.result?_mono (reaches_grows hset hw hP hp hq).results
  · exact fun i hi hnot hnow e he =>
      (met_of_dispatched hset hw hP hinj hp ((hset.mem i).mpr hi) hnot hnow e he).congr hset.mem
  · exact fun htop hc q => dispatched_of_seen hset hw hP hp htop hc

theorem execute_safe_sample : ∃ g r ns, JobGraph.build Plan.sample = .ok g ∧
    Plan.plan g Plan.samplePush "1" = .ok (r, ns) ∧
    ∀ p, World.hostile.Reaches (frame g r 2) ((frame g r 2).outset r 0) p →
      Safe World.hostile (frame g r 2) r p := by
  obtain ⟨g, r, ns, hb, hp, hr⟩ := Plan.sample_planned
  have hw : World.hostile.Yields (frame g r 2) ((frame g r 2).outset r 0) fun i x => x.instanceId = i.id :=
    World.patient_yields fun _ => rfl
  have hsafe := execute_safe hb hp hr.distinct (by decide) hw
  exact ⟨g, r, ns, hb, hp, hsafe.2⟩

end MergeGate.Schedule
