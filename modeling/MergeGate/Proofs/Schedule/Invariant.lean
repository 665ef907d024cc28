/-
The invariant at every place of the loop. `Standing` says what holds where the loop stands beyond
what moves keep: while promoting, which pending instances are known to wait; while starting, which
ready ones are still to be looked at; while cancelling, that whatever has a phase runs, and is either
among those that stopped or among those to be killed; and at the end, that no phase is left.

A step changes nothing or is one move (`step_advances`), so every reached moment is sound
(`reaches_sound`). The last point, that no instance is left over, rests on the graph: an instance
that waits does so for one of an earlier stage. Only what cannot be waited for is left over
(`Stranded`).
-/
import MergeGate.Proofs.Plan
import MergeGate.Proofs.Schedule.Moves

namespace MergeGate.Schedule

/-- What is reported as ended: instances that were in flight, each once, with results that their
execution may give. -/
structure Batch (P : Instance → Result → Prop) (flight : List Instance) (es : Ended) : Prop where
  given : ∀ e ∈ es, e.1 ∈ flight ∧ P e.1 e.2
  single : (es.map (·.1.id)).Nodup

variable {σ : Type}

/-- Whenever it is waited for what is in flight, the world reports nothing else as ended, nothing
twice, and results that `P` admits. -/
structure World.Yields (w : World σ) (f : Frame) (start : Point σ) (P : Instance → Result → Prop) :
    Prop where
  wait : ∀ m, w.Reaches f start ⟨.wait, m⟩ → (m.flight.map (·.id)).Nodup →
    Batch P m.flight (w.wait m.world m.state.phases m.flight).2
  grace : ∀ m, w.Reaches f start ⟨.grace, m⟩ → (m.flight.map (·.id)).Nodup →
    Batch P m.flight (w.grace m.world m.state.phases m.flight).2

/-- A world in which a wait lasts one tick, nothing ends before tick `k` and then everything does, and
nothing stops when it is asked to; the run is cancelled at tick `c`, or never. -/
def World.patient (k : Nat) (c : Option Nat) (result : Instance → Result) (patience : Float := 0.0) :
    World Nat where
  start now _ := (now, [])
  wait now _ flight := (now + 1, if now < k then [] else flight.map fun i => (i, result i))
  cancelled now := c.any fun tick => decide (tick ≤ now)
  stop now _ := now
  finished _ _ := false
  patience
  grace now _ _ := (now + 1, [])
  kill now _ := now
  elapsed _ _ := 0.0

theorem World.patient_yields {k : Nat} {c : Option Nat} {result : Instance → Result} {patience : Float}
    {f : Frame} {start : Point Nat} {P : Instance → Result → Prop} (hP : ∀ i, P i (result i)) :
    (World.patient k c result patience).Yields f start P := by
  refine ⟨fun m _ hnodup => ?_, fun m _ _ => ⟨by simp [World.patient], by simp [World.patient]⟩⟩
  simp only [World.patient]
  split
  · exact ⟨by simp, by simp⟩
  · refine ⟨fun e he => ?_, by simpa [List.map_map, Function.comp_def] using hnodup⟩
    obtain ⟨i, hi, rfl⟩ := List.mem_map.mp he
    exact ⟨hi, hP i⟩

/-- A world in which nothing can be run, and the run is cancelled before all is tried. -/
def World.hostile : World Nat := .patient 1 (some 2) fun i => .broken i 0.0 ""

/-- A planned run of an accepted workflow, and its frame. -/
structure Setting (g : JobGraph) (r₀ : Run) (f : Frame) : Prop where
  accepted : g.Accepted
  planned : Plan.Planned g r₀
  graph : f.graph = g
  mem : ∀ i, i ∈ f.instances ↔ i ∈ r₀.instances
  workers : 1 ≤ f.workers

theorem Setting.of_plan {wf : Workflow} {g : JobGraph} {t : Trigger} {id : String} {r : Run}
    {ns : List Notice} {workers : Nat} (hb : JobGraph.build wf = .ok g)
    (hp : Plan.plan g t id = .ok (r, ns)) (hw : 1 ≤ workers) : Setting g r (frame g r workers) :=
  ⟨JobGraph.build_accepted hb, Plan.plan_planned (JobGraph.build_accepted hb) hp, rfl,
    fun _ => List.mem_mergeSort, hw⟩

/-- The ids of a planned run tell the instances of its frame apart. -/
theorem Setting.eq_of_id {g : JobGraph} {r₀ : Run} {f : Frame} (hset : Setting g r₀ f)
    (hd : (r₀.instances.map (·.id)).Nodup) :
    ∀ i ∈ f.instances, ∀ k ∈ f.instances, i.id = k.id → i = k := by
  intro i hi k hk hid
  exact List.inj_on_of_nodup_map hd ((hset.mem i).mp hi) ((hset.mem k).mp hk) hid

/-- Whatever has a phase runs. -/
def AllRunning (c : Config) : Prop := ∀ id p, c.phase? id = some p → p = .running

/-- What holds at a place of the loop. -/
def Standing (f : Frame) (P : Instance → Result → Prop) (c : Config) : Place → Prop
  | .top => c.run.cancelled = false
  | .sweep changed rest => c.run.cancelled = false ∧ (∀ i ∈ rest, i ∈ f.instances) ∧
    (changed = false → ∀ i ∈ f.instances, c.phase? i.id = some .pending →
      i ∈ rest ∨ f.readinessOf c.run i = .wait)
  | .start rest => c.run.cancelled = false ∧ (∀ i ∈ rest, i ∈ f.instances) ∧
    (∀ i ∈ f.instances, c.phase? i.id = some .pending → f.readinessOf c.run i = .wait) ∧
    (f.workers ≤ c.flight.length ∨ ∀ i ∈ f.instances, c.phase? i.id = some .ready → i ∈ rest)
  | .wait => c.run.cancelled = false ∧ c.flight ≠ []
  | .finish rest => c.run.cancelled = false ∧ Batch P c.flight rest
  | .skip rest => c.run.cancelled = true ∧ (∀ i ∈ rest, i ∈ f.instances) ∧
    ∀ i ∈ f.instances, Waiting c i → i ∈ rest
  | .stop _ => c.run.cancelled = true ∧ AllRunning c
  | .grace => c.run.cancelled = true ∧ AllRunning c
  | .stranded => c.run.cancelled = true ∧ AllRunning c
  | .settle rest hung => c.run.cancelled = true ∧ AllRunning c ∧
    Batch (fun i x => ∃ y, P i y ∧ x = y.stopped) c.flight rest ∧ (∀ i ∈ hung, i ∈ c.flight) ∧
    (hung.map (·.id)).Nodup ∧ (∀ e ∈ rest, e.1.id ∉ hung.map (·.id)) ∧
    ∀ i ∈ c.flight, i.id ∈ rest.map (·.1.id) ∨ i.id ∈ hung.map (·.id)
  | .kill rest => c.run.cancelled = true ∧ AllRunning c ∧ (∀ i ∈ rest, i ∈ c.flight) ∧
    (rest.map (·.id)).Nodup ∧ ∀ i ∈ c.flight, i.id ∈ rest.map (·.id)
  | .ended => c.state.phases = []

/-- What the machine of a moment has in hand. -/
def Machine.config (m : Machine σ) : Config := ⟨m.state, m.flight⟩

/-- Nothing went wrong, and everything is as it should be. -/
structure Sound (f : Frame) (P : Instance → Result → Prop) (r₀ : Run) (p : Point σ) : Prop where
  faultless : p.machine.fault = none
  inv : Inv f P r₀ p.machine.config
  standing : Standing f P p.machine.config p.place

/-- From one moment to the next: nothing changes or one move is made, and all stays sound. -/
structure Advances (f : Frame) (P : Instance → Result → Prop) (r₀ : Run) (p q : Point σ) : Prop where
  sound : Sound f P r₀ q
  moved : q.machine.config = p.machine.config ∨ Move f P p.machine.config q.machine.config

variable {w : World σ} {f : Frame} {P : Instance → Result → Prop} {r₀ : Run} {g : JobGraph}
  {p q : Point σ} {c : Config} {m : Machine σ}

theorem Advances.same (h : Sound f P r₀ p) (hc : q.machine.config = p.machine.config)
    (hf : q.machine.fault = none) (hs : Standing f P p.machine.config q.place) : Advances f P r₀ p q :=
  ⟨⟨hf, hc ▸ h.inv, hc ▸ hs⟩, .inl hc⟩

theorem Advances.move (hP : ∀ i x, P i x → x.instanceId = i.id) (h : Sound f P r₀ p)
    (hm : Move f P p.machine.config q.machine.config) (hf : q.machine.fault = none)
    (hs : Standing f P q.machine.config q.place) : Advances f P r₀ p q :=
  ⟨⟨hf, hm.inv hP h.inv, hs⟩, .inr hm⟩

/-- The result of an instance with a phase can be recorded. -/
theorem Inv.record_ok (h : Inv f P r₀ c) {x : Result} (hx : (c.phase? x.instanceId).isSome) :
    c.state.record x = .ok (c.recorded x).state := by
  have hrun : c.run.record x = .ok { c.run with results := c.run.results ++ [x] } :=
    Run.record_eq_ok_iff.mpr ⟨h.ledger.unreported, h.phased.apart _ hx, rfl⟩
  simp only [State.record, hrun]
  rfl

/-- Whatever has a phase had no result when the run was planned. -/
theorem Inv.unplanned (h : Inv f P r₀ c) {id : String} (hid : (c.phase? id).isSome) : r₀.result? id = none := by
  cases hplanned : r₀.result? id with
  | none => rfl
  | some x =>
    have hnone := h.phased.apart id hid
    rw [Run.result?_mono h.ledger.planned hplanned] at hnone
    cases hnone

theorem Inv.no_phase (h : Inv f P r₀ c) (hnone : ∀ i ∈ f.instances, c.phase? i.id = none) :
    c.state.phases = [] := by
  refine Assoc.eq_nil_of_lookup_eq_none fun id => ?_
  cases hid : c.phase? id with
  | none => exact hid
  | some p =>
    obtain ⟨i, hi, rfl⟩ := h.phased.owned id (by simp [hid])
    simp [hnone i hi] at hid

/-! ## The top of a turn -/

theorem top_advances (h : Sound f P r₀ ⟨.top, m⟩) (hP : ∀ i x, P i x → x.instanceId = i.id) :
    Advances f P r₀ ⟨.top, m⟩ (w.step f ⟨.top, m⟩) := by
  have hlive : m.config.run.cancelled = false := h.standing
  by_cases hcancel : w.cancelled m.world
  · have hstep : w.step f ⟨.top, m⟩ = ⟨.skip f.instances, m.markCancelled⟩ := by
      simp [World.step, hcancel]
    rw [hstep]
    exact .move hP h (Move.cancel (c := m.config)) h.faultless ⟨rfl, fun _ hi => hi, fun _ hi _ => hi⟩
  · have hstep : w.step f ⟨.top, m⟩ = ⟨.sweep false f.instances, m⟩ := by simp [World.step, hcancel]
    rw [hstep]
    exact .same h rfl h.faultless ⟨hlive, fun _ hi => hi, fun _ _ hi _ => .inl hi⟩

/-! ## Promotion -/

/-- What a visit does, by what it finds. -/
theorem visit_cases (h : Inv f P r₀ m.config) (changed : Bool) (i : Instance) :
    (∃ s, f.visit { state := m.state, changed } i = .ok s ∧ s.state = m.state ∧ s.changed = changed ∧
      (m.config.phase? i.id = some .pending → f.readinessOf m.state.run i = .wait)) ∨
    (∃ s, f.visit { state := m.state, changed } i = .ok s ∧ m.config.phase? i.id = some .pending ∧
      f.readinessOf m.state.run i = .ok ∧ s.state = (m.config.readied i).state ∧ s.changed = changed) ∨
    ∃ s, f.visit { state := m.state, changed } i = .ok s ∧ m.config.phase? i.id = some .pending ∧
      f.readinessOf m.state.run i = .blocked ∧
      s.state = (m.config.recorded (.skip i Reason.blocked)).state ∧ s.changed = true := by
  simp only [Frame.visit]
  by_cases hpending : m.state.phases.lookup i.id = some .pending
  · rw [if_neg (not_not.mpr hpending)]
    cases hr : f.readinessOf m.state.run i with
    | wait => exact .inl ⟨_, rfl, rfl, rfl, fun _ => rfl⟩
    | ok => exact .inr (.inl ⟨_, rfl, hpending, rfl, rfl, rfl⟩)
    | blocked =>
      have hrec : m.state.record (.skip i Reason.blocked) =
          .ok (m.config.recorded (.skip i Reason.blocked)).state :=
        h.record_ok (Waiting.isSome (.inl hpending))
      rw [hrec]
      exact .inr (.inr ⟨_, rfl, hpending, rfl, rfl, rfl⟩)
  · rw [if_pos hpending]
    exact .inl ⟨_, rfl, rfl, rfl, fun hp => absurd hp hpending⟩

theorem sweep_advances {changed : Bool} {i : Instance} {rest : List Instance}
    (h : Sound f P r₀ ⟨.sweep changed (i :: rest), m⟩) (hP : ∀ i x, P i x → x.instanceId = i.id) :
    Advances f P r₀ ⟨.sweep changed (i :: rest), m⟩ (w.step f ⟨.sweep changed (i :: rest), m⟩) := by
  obtain ⟨hlive, hsub, hwait⟩ := h.standing
  have hi : i ∈ f.instances := hsub i (by simp)
  have hrest : ∀ k ∈ rest, k ∈ f.instances := fun k hk => hsub k (List.mem_cons_of_mem _ hk)
  rcases visit_cases h.inv changed i with ⟨s, hv, hs, hc, hstuck⟩ | ⟨s, hv, hpending, hok, hs, hc⟩ |
    ⟨s, hv, hpending, hblocked, hs, hc⟩
  all_goals
    have hstep : w.step f ⟨.sweep changed (i :: rest), m⟩ =
        ⟨.sweep s.changed rest, { m with state := s.state }.tell s.notices⟩ := by
      simp [World.step, hv]
    rw [hstep]
  · refine .same h (by simp [Machine.config, Machine.tell, hs]) h.faultless ⟨hlive, hrest, ?_⟩
    intro hch k hk hkp
    rcases hwait (hc ▸ hch) k hk hkp with hmem | hw
    · rcases List.mem_cons.mp hmem with rfl | hmem
      · exact .inr (hstuck hkp)
      · exact .inl hmem
    · exact .inr hw
  · have hconf : ({ m with state := s.state }.tell s.notices).config = m.config.readied i := by
      simp [Machine.config, Machine.tell, hs, Config.readied]
    refine .move hP h ?_ h.faultless ?_
    · exact hconf ▸ Move.ready (c := m.config) hi hpending hok
    · show Standing f P _ (.sweep s.changed rest)
      rw [hconf]
      refine ⟨hlive, hrest, fun hch k hk hkp => ?_⟩
      rw [Config.phase?_readied] at hkp
      split at hkp
      · cases hkp
      · next hne =>
        rcases hwait (hc ▸ hch) k hk hkp with hmem | hw
        · rcases List.mem_cons.mp hmem with rfl | hmem
          · exact absurd rfl hne
          · exact .inl hmem
        · exact .inr hw
  · have hconf : ({ m with state := s.state }.tell s.notices).config =
        m.config.recorded (.skip i Reason.blocked) := by
      simp [Machine.config, Machine.tell, hs, Config.recorded]
    refine .move hP h ?_ h.faultless ?_
    · exact hconf ▸ Move.skip (c := m.config) hi (.inl hpending) (.blocked hblocked)
    · show Standing f P _ (.sweep s.changed rest)
      rw [hconf, hc]
      exact ⟨hlive, hrest, fun hch => by cases hch⟩

theorem swept_advances {changed : Bool} (h : Sound f P r₀ ⟨.sweep changed [], m⟩) :
    Advances f P r₀ ⟨.sweep changed [], m⟩ (w.step f ⟨.sweep changed [], m⟩) := by
  obtain ⟨hlive, _, hwait⟩ := h.standing
  cases changed with
  | true => exact .same h rfl h.faultless ⟨hlive, fun _ hi => hi, fun _ _ hi _ => .inl hi⟩
  | false =>
    refine .same h rfl h.faultless ⟨hlive, fun _ hi => hi, fun i hi hp => ?_, .inr fun _ hi _ => hi⟩
    rcases hwait rfl i hi hp with hmem | hw
    · cases hmem
    · exact hw

/-! ## Starting -/

/-- An instance that waits does so for one that has no result yet. -/
theorem Setting.missing_of_wait (hset : Setting g r₀ f) (h : Inv f P r₀ c) {i : Instance}
    (hi : i ∈ f.instances) (hwait : f.readinessOf c.run i = .wait) :
    ∃ e ∈ g.needsOf i.job, ∃ k ∈ f.instances, k.job = e.job ∧ c.run.result? k.id = none := by
  obtain ⟨e, he, hmissing⟩ := Frame.missing_of_wait hwait
  rw [hset.graph] at he
  refine ⟨e, he, ?_⟩
  rcases hmissing with hsome | ⟨hno, hnone⟩
  · exact hsome
  · -- A needed job without instances was recorded as absent when the run was planned.
    obtain ⟨j, hj, hji⟩ := hset.planned.owner i ((hset.mem i).mp hi)
    obtain ⟨k, hk, hke⟩ := hset.accepted.declared j hj e (hji ▸ he)
    rcases hset.planned.decided k hk with ⟨i', hi', hik⟩ | ⟨reason, _, hfound⟩
    · exact absurd (hik.trans hke) (hno i' ((hset.mem i').mpr hi'))
    · rw [hke] at hfound
      rw [Run.result?_mono h.ledger.planned hfound] at hnone
      cases hnone

/-- **Nothing is stuck.** When nothing runs or is ready and every pending instance waits for a
result, no instance is left: one that waits does so for an instance of an earlier stage. -/
theorem Setting.no_phase_of_waiting (hset : Setting g r₀ f) (h : Inv f P r₀ c) (hflight : c.flight = [])
    (hwait : ∀ i ∈ f.instances, c.phase? i.id = some .pending → f.readinessOf c.run i = .wait)
    (hready : ∀ i ∈ f.instances, c.phase? i.id ≠ some .ready) : c.state.phases = [] := by
  have hall : ∀ j ∈ g.jobs, ∀ i ∈ f.instances, i.job = j.id → c.phase? i.id = none := by
    refine hset.accepted.induction (C := fun job => ∀ i ∈ f.instances, i.job = job → c.phase? i.id = none) ?_
    intro j hj ih i hi hij
    cases hphase : c.phase? i.id with
    | none => rfl
    | some p =>
      exfalso
      cases p with
      | ready => exact hready i hi hphase
      | running => exact h.aloft.not_running hflight i.id hphase
      | pending =>
        obtain ⟨e, he, k, hk, hke, hnone⟩ := hset.missing_of_wait h hi (hwait i hi hphase)
        have hres := h.phased.covered k hk (ih e (hij ▸ he) k hk hke)
        simp [hnone] at hres
  refine h.no_phase fun i hi => ?_
  obtain ⟨j, hj, hji⟩ := hset.planned.owner i ((hset.mem i).mp hi)
  exact hall j hj i hi hji.symm

theorem started_advances (hset : Setting g r₀ f) (h : Sound f P r₀ ⟨.start [], m⟩) :
    Advances f P r₀ ⟨.start [], m⟩ (w.step f ⟨.start [], m⟩) := by
  obtain ⟨hlive, _, hwait, hready⟩ := h.standing
  by_cases hempty : m.flight = []
  · have hstep : w.step f ⟨.start [], m⟩ = ⟨.ended, m⟩ := by simp [World.step, hempty]
    rw [hstep]
    refine .same h rfl h.faultless (hset.no_phase_of_waiting h.inv hempty hwait fun i hi hr => ?_)
    rcases hready with hfull | hready
    · have hworkers := hset.workers
      simp only [Machine.config, hempty, List.length_nil] at hfull
      omega
    · cases hready i hi hr
  · have hstep : w.step f ⟨.start [], m⟩ = ⟨.wait, m⟩ := by simp [World.step, hempty]
    rw [hstep]
    exact .same h rfl h.faultless ⟨hlive, hempty⟩

theorem start_advances {i : Instance} {rest : List Instance}
    (h : Sound f P r₀ ⟨.start (i :: rest), m⟩) (hP : ∀ i x, P i x → x.instanceId = i.id) :
    Advances f P r₀ ⟨.start (i :: rest), m⟩ (w.step f ⟨.start (i :: rest), m⟩) := by
  obtain ⟨hlive, hsub, hwait, hready⟩ := h.standing
  have hrest : ∀ k ∈ rest, k ∈ f.instances := fun k hk => hsub k (List.mem_cons_of_mem _ hk)
  by_cases hfull : f.workers ≤ m.flight.length
  · have hstep : w.step f ⟨.start (i :: rest), m⟩ = ⟨.start [], m⟩ := by simp [World.step, hfull]
    rw [hstep]
    exact .same h rfl h.faultless ⟨hlive, by simp, hwait, .inl hfull⟩
  have hleft : ∀ k ∈ f.instances, m.config.phase? k.id = some .ready → k ∈ i :: rest :=
    hready.resolve_left hfull
  by_cases hri : m.state.phases.lookup i.id = some .ready
  · have hstep : w.step f ⟨.start (i :: rest), m⟩ =
        ⟨.start rest, w.startAll { m with state := m.state.dispatch i } [i]⟩ := by
      simp [World.step, hfull, hri]
    have hconf : (w.startAll { m with state := m.state.dispatch i } [i]).config =
        m.config.launched i := rfl
    rw [hstep]
    refine .move hP h ?_ h.faultless ?_
    · exact hconf ▸ Move.dispatch (c := m.config) (hsub i (by simp)) hri (Nat.lt_of_not_le hfull) hlive
    · show Standing f P _ (.start rest)
      rw [hconf]
      refine ⟨hlive, hrest, fun k hk hkp => ?_, .inr fun k hk hkr => ?_⟩
      · rw [Config.phase?_launched] at hkp
        split at hkp
        · cases hkp
        · have hsame : ∀ id, (m.config.launched i).run.result? id = m.config.run.result? id :=
            fun _ => rfl
          rw [Frame.readinessOf_congr rfl (fun _ => Iff.rfl) hsame k]
          exact hwait k hk hkp
      · rw [Config.phase?_launched] at hkr
        split at hkr
        · cases hkr
        · next hne =>
          rcases List.mem_cons.mp (hleft k hk hkr) with rfl | hmem
          · exact absurd rfl hne
          · exact hmem
  · have hstep : w.step f ⟨.start (i :: rest), m⟩ = ⟨.start rest, m⟩ := by
      simp [World.step, hfull, hri]
    rw [hstep]
    refine .same h rfl h.faultless ⟨hlive, hrest, hwait, .inr fun k hk hkr => ?_⟩
    rcases List.mem_cons.mp (hleft k hk hkr) with rfl | hmem
    · exact absurd hkr hri
    · exact hmem

/-! ## Waiting and recording -/

theorem Batch.inOrder {flight : List Instance} {es : Ended} (h : Batch P flight es) :
    Batch P flight (f.endedInOrder es) := by
  have hperm : (f.endedInOrder es).Perm es := List.mergeSort_perm _ _
  exact ⟨fun e he => h.given e (hperm.mem_iff.mp he), (hperm.map _).nodup_iff.mpr h.single⟩

/-- When the first has landed, the others are still in flight. -/
theorem Batch.tail {e : Instance × Result} {rest : Ended} (h : Batch P c.flight (e :: rest)) (x : Result) :
    Batch P (c.landed e.1 x).flight rest := by
  obtain ⟨hgiven, hsingle⟩ := h
  rw [List.map_cons, List.nodup_cons] at hsingle
  refine ⟨fun e' he' => ?_, hsingle.2⟩
  obtain ⟨hfly, hP⟩ := hgiven e' (List.mem_cons_of_mem _ he')
  refine ⟨(Config.mem_landed_flight c).mpr ⟨hfly, fun he => hsingle.1 ?_⟩, hP⟩
  exact he ▸ List.mem_map_of_mem (f := fun e : Instance × Result => e.1.id) he'

theorem Machine.goOn_of_faultless (h : m.fault = none) (place : Place) : m.goOn place = ⟨place, m⟩ := by
  simp [Machine.goOn, h]

/-- The result of an instance in flight is recorded, and the instance is in flight no more. -/
theorem Inv.finishAll_one (h : Inv f P r₀ m.config) (hm : m.fault = none) {i : Instance} {x : Result}
    (hi : i ∈ m.flight) (hx : x.instanceId = i.id) :
    (m.finishAll [(i, x)]).config = m.config.landed i x ∧ (m.finishAll [(i, x)]).fault = none := by
  have hrun := h.aloft.running_of_flying hi
  have hrec : m.state.record x = .ok (m.config.recorded x).state := h.record_ok (by simp [hx, hrun])
  simp only [Machine.finishAll, hrec]
  exact ⟨rfl, hm⟩

theorem wait_advances (h : Sound f P r₀ ⟨.wait, m⟩)
    (hbatch : Batch P m.flight (w.wait m.world m.state.phases m.flight).2) :
    Advances f P r₀ ⟨.wait, m⟩ (w.step f ⟨.wait, m⟩) :=
  .same h rfl h.faultless ⟨h.standing.1, hbatch.inOrder⟩

theorem finish_advances {e : Instance × Result} {rest : Ended}
    (h : Sound f P r₀ ⟨.finish (e :: rest), m⟩) (hP : ∀ i x, P i x → x.instanceId = i.id) :
    Advances f P r₀ ⟨.finish (e :: rest), m⟩ (w.step f ⟨.finish (e :: rest), m⟩) := by
  obtain ⟨i, x⟩ := e
  obtain ⟨hlive, hbatch⟩ := h.standing
  obtain ⟨hi, hx⟩ := hbatch.given (i, x) (by simp)
  obtain ⟨hconf, hfault⟩ := h.inv.finishAll_one h.faultless hi (hP i x hx)
  have hstep : w.step f ⟨.finish ((i, x) :: rest), m⟩ = ⟨.finish rest, m.finishAll [(i, x)]⟩ :=
    Machine.goOn_of_faultless hfault _
  rw [hstep]
  refine .move hP h ?_ hfault ?_
  · exact hconf ▸ Move.finish (c := m.config) hi (.own hx)
  · show Standing f P _ (.finish rest)
    rw [hconf]
    exact ⟨hlive, hbatch.tail x⟩

/-! ## Cancelling -/

/-- Without instances in flight, a run in which whatever has a phase runs has none. -/
theorem Inv.no_phase_of_running (h : Inv f P r₀ c) (hall : AllRunning c) (hflight : c.flight = []) :
    c.state.phases = [] := by
  refine h.no_phase fun i _ => ?_
  cases hphase : c.phase? i.id with
  | none => rfl
  | some p => exact absurd (hall _ p hphase ▸ hphase) (h.aloft.not_running hflight i.id)

theorem AllRunning.landed (h : AllRunning c) (i : Instance) (x : Result) : AllRunning (c.landed i x) := by
  intro id p hp
  rw [Config.phase?_landed] at hp
  split at hp
  · cases hp
  · exact h id p hp

/-- What waits after a result has been recorded waited before, and is not what was recorded. -/
theorem Waiting.of_recorded {i : Instance} {x : Result} (h : Waiting (c.recorded x) i) :
    Waiting c i ∧ i.id ≠ x.instanceId := by
  rw [Waiting, Config.phase?_recorded] at h
  split at h
  · simp at h
  · next hne => exact ⟨h, hne⟩

theorem skip_advances {i : Instance} {rest : List Instance}
    (h : Sound f P r₀ ⟨.skip (i :: rest), m⟩) (hP : ∀ i x, P i x → x.instanceId = i.id) :
    Advances f P r₀ ⟨.skip (i :: rest), m⟩ (w.step f ⟨.skip (i :: rest), m⟩) := by
  obtain ⟨hcancel, hsub, hleft⟩ := h.standing
  have hrest : ∀ k ∈ rest, k ∈ f.instances := fun k hk => hsub k (List.mem_cons_of_mem _ hk)
  by_cases hwaiting : Waiting m.config i
  · have hrec : m.state.record (.skip i Reason.cancelled) =
        .ok (m.config.recorded (.skip i Reason.cancelled)).state := h.inv.record_ok hwaiting.isSome
    have hskip : m.state.skipWaiting [i] = .ok (m.config.recorded (.skip i Reason.cancelled)).state := by
      simp only [State.skipWaiting]
      rcases hwaiting with hp | hp <;> rw [show m.state.phases.lookup i.id = _ from hp] <;>
        simp [hrec, Except.bind]
    have hstep : w.step f ⟨.skip (i :: rest), m⟩ =
        ⟨.skip rest, { m with state := (m.config.recorded (.skip i Reason.cancelled)).state }⟩ := by
      simp [World.step, hskip]
    rw [hstep]
    refine .move hP h (Move.skip (c := m.config) (hsub i (by simp)) hwaiting (.cancelled hcancel))
      h.faultless ⟨hcancel, hrest, fun k hk hkw => ?_⟩
    have hk' : Waiting m.config k ∧ k.id ≠ i.id := Waiting.of_recorded hkw
    rcases List.mem_cons.mp (hleft k hk hk'.1) with rfl | hmem
    · exact absurd rfl hk'.2
    · exact hmem
  · have hskip : m.state.skipWaiting [i] = .ok m.state := by
      simp only [State.skipWaiting]
      split
      · next hp => exact absurd (.inl hp) hwaiting
      · next hp => exact absurd (.inr hp) hwaiting
      · rfl
    have hstep : w.step f ⟨.skip (i :: rest), m⟩ = ⟨.skip rest, m⟩ := by simp [World.step, hskip]
    rw [hstep]
    refine .same h rfl h.faultless ⟨hcancel, hrest, fun k hk hkw => ?_⟩
    rcases List.mem_cons.mp (hleft k hk hkw) with rfl | hmem
    · exact absurd hkw hwaiting
    · exact hmem

theorem skipped_advances (h : Sound f P r₀ ⟨.skip [], m⟩) :
    Advances f P r₀ ⟨.skip [], m⟩ (w.step f ⟨.skip [], m⟩) := by
  obtain ⟨hcancel, _, hleft⟩ := h.standing
  have hall : AllRunning m.config := by
    intro id p hp
    obtain ⟨i, hi, rfl⟩ := h.inv.phased.owned id (by simp [hp])
    cases p with
    | running => rfl
    | pending => cases hleft i hi (.inl hp)
    | ready => cases hleft i hi (.inr hp)
  by_cases hempty : m.flight = []
  · have hstep : w.step f ⟨.skip [], m⟩ = ⟨.ended, m⟩ := by simp [World.step, hempty]
    rw [hstep]
    exact .same h rfl h.faultless (h.inv.no_phase_of_running hall hempty)
  · have hstep : w.step f ⟨.skip [], m⟩ = ⟨.stop m.flight, m⟩ := by simp [World.step, hempty]
    rw [hstep]
    exact .same h rfl h.faultless ⟨hcancel, hall⟩

theorem grace_advances (h : Sound f P r₀ ⟨.grace, m⟩)
    (hbatch : Batch P m.flight (w.grace m.world m.state.phases m.flight).2) :
    Advances f P r₀ ⟨.grace, m⟩ (w.step f ⟨.grace, m⟩) := by
  obtain ⟨hcancel, hall⟩ := h.standing
  let es := (w.grace m.world m.state.phases m.flight).2
  let stopped : Ended := es.map fun e => (e.1, e.2.stopped)
  let left := m.flight.filter fun i => !(es.any fun e => e.1.id == i.id)
  have hids : stopped.map (·.1.id) = es.map (·.1.id) := by simp [stopped, List.map_map, Function.comp_def]
  have hmem : ∀ id, id ∈ (f.endedInOrder stopped).map (·.1.id) ↔ id ∈ es.map (·.1.id) := by
    intro id
    rw [← hids]
    exact ((List.mergeSort_perm _ _).map _).mem_iff
  have hstopped : Batch (fun i x => ∃ y, P i y ∧ x = y.stopped) m.flight stopped := by
    refine ⟨fun e he => ?_, hids ▸ hbatch.single⟩
    obtain ⟨e', he', rfl⟩ := List.mem_map.mp he
    exact ⟨(hbatch.given e' he').1, e'.2, (hbatch.given e' he').2, rfl⟩
  have hhung : (inOrder f.graph left).Perm left := List.mergeSort_perm _ _
  have hleft : ∀ i, i ∈ left ↔ i ∈ m.flight ∧ i.id ∉ es.map (·.1.id) := by
    intro i
    simp only [left, List.mem_filter, Bool.not_eq_eq_eq_not, Bool.not_true, List.any_eq_false, beq_iff_eq,
      List.mem_map, not_exists, not_and]
  have hnodup : ((inOrder f.graph left).map (·.id)).Nodup :=
    (hhung.map _).nodup_iff.mpr (h.inv.aloft.single.sublist (List.filter_sublist.map _))
  refine .same h rfl h.faultless ⟨hcancel, hall, hstopped.inOrder, fun i hi => ?_, hnodup, fun e he hm => ?_,
    fun i hi => ?_⟩
  · exact ((hleft i).mp (hhung.mem_iff.mp hi)).1
  · obtain ⟨i, hi, hie⟩ := List.mem_map.mp hm
    have hnot := ((hleft i).mp (hhung.mem_iff.mp hi)).2
    exact hnot (hie ▸ (hmem _).mp (List.mem_map_of_mem (f := fun e : Instance × Result => e.1.id) he))
  · by_cases hi' : i.id ∈ es.map (·.1.id)
    · exact .inl ((hmem _).mpr hi')
    · exact .inr (List.mem_map_of_mem (hhung.mem_iff.mpr ((hleft i).mpr ⟨hi, hi'⟩)))

theorem settle_advances {e : Instance × Result} {rest : Ended} {hung : List Instance}
    (h : Sound f P r₀ ⟨.settle (e :: rest) hung, m⟩) (hP : ∀ i x, P i x → x.instanceId = i.id) :
    Advances f P r₀ ⟨.settle (e :: rest) hung, m⟩ (w.step f ⟨.settle (e :: rest) hung, m⟩) := by
  obtain ⟨i, x⟩ := e
  obtain ⟨hcancel, hall, hbatch, hfly, hnodup, hapart, hcover⟩ := h.standing
  obtain ⟨hi, y, hy, rfl⟩ := hbatch.given (i, x) (by simp)
  have hid : y.stopped.instanceId = i.id := (Result.stopped_instanceId y).trans (hP i y hy)
  obtain ⟨hconf, hfault⟩ := h.inv.finishAll_one h.faultless hi hid
  have hstep : w.step f ⟨.settle ((i, y.stopped) :: rest) hung, m⟩ =
      ⟨.settle rest hung, m.finishAll [(i, y.stopped)]⟩ := Machine.goOn_of_faultless hfault _
  rw [hstep]
  refine .move hP h ?_ hfault ?_
  · exact hconf ▸ Move.finish (c := m.config) hi (.stopped hy hcancel)
  · show Standing f P _ (.settle rest hung)
    rw [hconf]
    refine ⟨hcancel, hall.landed _ _, hbatch.tail _, fun k hk => ?_, hnodup,
      fun e he => hapart e (List.mem_cons_of_mem _ he), fun k hk => ?_⟩
    · refine (Config.mem_landed_flight _).mpr ⟨hfly k hk, fun he => ?_⟩
      exact hapart (i, y.stopped) (by simp) (he ▸ List.mem_map_of_mem hk)
    · obtain ⟨hk, hne⟩ := (Config.mem_landed_flight _).mp hk
      refine (hcover k hk).imp_left fun hmem => ?_
      rw [List.map_cons, List.mem_cons] at hmem
      exact hmem.resolve_left hne

theorem kill_advances {i : Instance} {rest : List Instance}
    (h : Sound f P r₀ ⟨.kill (i :: rest), m⟩) (hP : ∀ i x, P i x → x.instanceId = i.id) :
    Advances f P r₀ ⟨.kill (i :: rest), m⟩ (w.step f ⟨.kill (i :: rest), m⟩) := by
  obtain ⟨hcancel, hall, hfly, hnodup, hcover⟩ := h.standing
  have hi : i ∈ m.flight := hfly i (by simp)
  let x := Result.timedOut i (w.elapsed m.world i)
  have hrec : m.state.record x = .ok (m.config.recorded x).state := by
    have hrun := h.inv.aloft.running_of_flying hi
    exact h.inv.record_ok (by rw [show x.instanceId = i.id from rfl, hrun]; rfl)
  let m' := (w.killAll m [i]).withFlight (m.flight.filter (·.id ≠ i.id))
  have hm' : m'.config = m.config.landed i x ∧ m'.fault = none := by
    simp only [m', World.killAll]
    rw [show m.state.record (Result.timedOut i (w.elapsed m.world i)) = _ from hrec]
    exact ⟨rfl, h.faultless⟩
  have hstep : w.step f ⟨.kill (i :: rest), m⟩ = ⟨.kill rest, m'⟩ := Machine.goOn_of_faultless hm'.2 _
  rw [hstep]
  rw [List.map_cons, List.nodup_cons] at hnodup
  refine .move hP h ?_ hm'.2 ?_
  · exact hm'.1 ▸ Move.finish (c := m.config) hi (.killed hcancel)
  · show Standing f P _ (.kill rest)
    rw [hm'.1]
    refine ⟨hcancel, hall.landed _ _, fun k hk => ?_, hnodup.2, fun k hk => ?_⟩
    · refine (Config.mem_landed_flight _).mpr ⟨hfly k (List.mem_cons_of_mem _ hk), fun he => ?_⟩
      exact hnodup.1 (he ▸ List.mem_map_of_mem hk)
    · obtain ⟨hk, hne⟩ := (Config.mem_landed_flight _).mp hk
      have hmem := hcover k hk
      rw [List.map_cons, List.mem_cons] at hmem
      exact hmem.resolve_left hne

theorem killed_advances (h : Sound f P r₀ ⟨.kill [], m⟩) :
    Advances f P r₀ ⟨.kill [], m⟩ (w.step f ⟨.kill [], m⟩) := by
  obtain ⟨_, hall, _, _, hcover⟩ := h.standing
  have hempty : m.flight = [] := List.eq_nil_iff_forall_not_mem.mpr fun i hi => by
    simpa using hcover i hi
  have hconf : (m.withFlight []).config = m.config := by
    rw [Machine.config, Machine.config, hempty]
    rfl
  exact .same h hconf h.faultless (h.inv.no_phase_of_running hall hempty)

/-! ## Every step -/

/-- **One step.** Every step of the loop changes nothing or makes one move, and keeps all sound. -/
theorem step_advances {start : Point σ} (hset : Setting g r₀ f) (hw : w.Yields f start P)
    (hP : ∀ i x, P i x → x.instanceId = i.id) (hp : w.Reaches f start p) (h : Sound f P r₀ p) :
    Advances f P r₀ p (w.step f p) := by
  obtain ⟨place, m⟩ := p
  cases place with
  | top => exact top_advances h hP
  | sweep changed rest =>
    cases rest with
    | nil => exact swept_advances h
    | cons i rest => exact sweep_advances h hP
  | start rest =>
    cases rest with
    | nil => exact started_advances hset h
    | cons i rest => exact start_advances h hP
  | wait => exact wait_advances h (hw.wait m hp h.inv.aloft.single)
  | finish rest =>
    cases rest with
    | nil => exact .same h rfl h.faultless h.standing.1
    | cons e rest => exact finish_advances h hP
  | skip rest =>
    cases rest with
    | nil => exact skipped_advances h
    | cons i rest => exact skip_advances h hP
  | stop rest =>
    cases rest with
    | nil =>
      simp only [World.step]
      split <;> exact .same h rfl h.faultless h.standing
    | cons i rest => exact .same h rfl h.faultless h.standing
  | grace => exact grace_advances h (hw.grace m hp h.inv.aloft.single)
  | settle rest hung =>
    cases rest with
    | nil =>
      obtain ⟨hcancel, hall, _, hfly, hnodup, _, hcover⟩ := h.standing
      exact .same h rfl h.faultless ⟨hcancel, hall, hfly, hnodup, fun i hi => by simpa using hcover i hi⟩
    | cons e rest => exact settle_advances h hP
  | kill rest =>
    cases rest with
    | nil => exact killed_advances h
    | cons i rest => exact kill_advances h hP
  | stranded => exact .same h rfl h.faultless h.standing
  | ended => exact .same h rfl h.faultless h.standing

theorem phase?_outset (r : Run) (world : σ) (id : String) :
    (f.outset r world).machine.config.phase? id =
      if id ∈ (f.instances.filter fun i => (r.result? i.id).isNone).map (·.id) then some .pending
      else none :=
  Assoc.lookup_ofPairs_const Instance.id Phase.pending _ id

theorem mem_waiting {r : Run} {id : String} :
    id ∈ (f.instances.filter fun i => (r.result? i.id).isNone).map (·.id) ↔
      (∃ i ∈ f.instances, i.id = id) ∧ r.result? id = none := by
  simp only [List.mem_map, List.mem_filter, Option.isNone_iff_eq_none]
  constructor
  · rintro ⟨i, ⟨hi, hnone⟩, rfl⟩
    exact ⟨⟨i, hi, rfl⟩, hnone⟩
  · rintro ⟨⟨i, hi, rfl⟩, hnone⟩
    exact ⟨i, ⟨hi, hnone⟩, rfl⟩

theorem outset_sound (hset : Setting g r₀ f) (world : σ) : Sound f P r₀ (f.outset r₀ world) := by
  have hphase := phase?_outset (f := f) r₀ world
  have hsome : ∀ id, ((f.outset r₀ world).machine.config.phase? id).isSome →
      (∃ i ∈ f.instances, i.id = id) ∧ r₀.result? id = none := by
    intro id hid
    rw [hphase] at hid
    split at hid
    · next hmem => exact mem_waiting.mp hmem
    · simp at hid
  have hidle : ∀ id, (f.outset r₀ world).machine.config.phase? id ≠ some .running := by
    intro id
    rw [hphase]
    split <;> simp
  refine ⟨rfl, ⟨⟨fun id hid => (hsome id hid).1, fun i hi hnone => ?_, fun id hid => (hsome id hid).2⟩,
    ⟨by simp [Frame.outset, Machine.config], fun id => ?_, List.nodup_nil, Nat.zero_le _⟩, ?_, ?_⟩,
    hset.planned.live⟩
  · rw [hphase] at hnone
    split at hnone
    · cases hnone
    · next hmem =>
      rw [mem_waiting, not_and] at hmem
      exact Option.isSome_iff_ne_none.mpr (hmem ⟨i, hi, rfl⟩)
  · exact ⟨fun hrun => absurd hrun (hidle id), fun hmem => by simp [Frame.outset, Machine.config] at hmem⟩
  · have hnone : (f.outset r₀ world).machine.config.run.dispatched = [] := hset.planned.unstarted
    exact ⟨hnone ▸ List.nodup_nil, by simp [hnone], fun id hrun => absurd hrun (hidle id)⟩
  · exact ⟨hset.planned.unreported, rfl, rfl, List.prefix_refl _, hset.planned.once, fun x hx => .inl hx⟩

section Runs

variable {world : σ} (hset : Setting g r₀ f) (hw : w.Yields f (f.outset r₀ world) P)
  (hP : ∀ i x, P i x → x.instanceId = i.id)
include hset hw hP

/-- **Every run.** Whatever an execution reaches is sound. -/
theorem reaches_sound (hp : w.Reaches f (f.outset r₀ world) p) : Sound f P r₀ p := by
  induction hp with
  | refl => exact outset_sound hset world
  | next hp ih => exact (step_advances hset hw hP hp ih).sound

theorem not_faulty (hp : w.Reaches f (f.outset r₀ world) p) : ¬ w.Faulty f p := by
  rintro ⟨q, hq, hfault⟩
  have hsound : Sound f P r₀ q := reaches_sound hset hw hP (hp.trans hq)
  simp [hsound.faultless] at hfault

theorem reaches_moved (hp : w.Reaches f (f.outset r₀ world) p) :
    (w.step f p).machine.config = p.machine.config ∨
      Move f P p.machine.config (w.step f p).machine.config :=
  (step_advances hset hw hP hp (reaches_sound hset hw hP hp)).moved

theorem reaches_grows (hp : w.Reaches f (f.outset r₀ world) p) (hq : w.Reaches f p q) :
    Grows p.machine.config q.machine.config := by
  induction hq with
  | refl => exact .refl _
  | next hq ih =>
    rcases reaches_moved hset hw hP (hp.trans hq) with heq | hmove
    · exact heq ▸ ih
    · exact ih.trans hmove.grows

/-- **How an execution ends.** An execution reaches its end with every result recorded, or is left with
something in flight for which it cannot wait, or uses up its turns on the way. -/
theorem execute_cases (fuel : Nat) :
    (w.Reaches f (f.outset r₀ world) ⟨.ended, w.execute f fuel r₀ world⟩ ∧
      Sound f P r₀ ⟨.ended, w.execute f fuel r₀ world⟩) ∨
    (∃ m, w.Reaches f (f.outset r₀ world) ⟨.stranded, m⟩ ∧ w.cannotWait m = true ∧
      w.execute f fuel r₀ world = m.fail .graceTooLong) ∨
    ∃ m, w.Reaches f (f.outset r₀ world) ⟨.top, m⟩ ∧ w.execute f fuel r₀ world = m.fail .outOfTurns := by
  let m₀ := (f.outset r₀ world).machine
  have hexec : w.execute f fuel r₀ world =
      if (w.loop f fuel m₀).fault.isSome || (w.loop f fuel m₀).state.phases.isEmpty then w.loop f fuel m₀
      else (w.loop f fuel m₀).fail (.unresolved (Text.sorted (w.loop f fuel m₀).state.phases.keys)) := rfl
  rcases loop_reaches (w := w) (f := f) fuel m₀ rfl with hbad | hleaves | ⟨m, htop, hout⟩
  · exact absurd hbad (not_faulty hset hw hP .refl)
  · rw [hexec]
    generalize w.loop f fuel m₀ = m at hleaves
    cases hleaves with
    | ended hover =>
      have hsound : Sound f P r₀ ⟨.ended, m⟩ := reaches_sound hset hw hP hover
      have hdone : m.state.phases = [] := hsound.standing
      rw [hdone]
      simp only [List.isEmpty_nil, Bool.or_true, if_true]
      exact .inl ⟨hover, hsound⟩
    | stranded hleft hstuck => exact .inr (.inl ⟨_, hleft, hstuck, rfl⟩)
  · rw [hexec, hout]
    exact .inr (.inr ⟨m, htop, rfl⟩)

/-- An execution that returns has reached its end. -/
theorem execute_ended {fuel : Nat} (hret : (w.execute f fuel r₀ world).fault ≠ some .outOfTurns)
    (hwaits : (w.execute f fuel r₀ world).fault ≠ some .graceTooLong) :
    w.Reaches f (f.outset r₀ world) ⟨.ended, w.execute f fuel r₀ world⟩ ∧
      Sound f P r₀ ⟨.ended, w.execute f fuel r₀ world⟩ := by
  rcases execute_cases hset hw hP fuel with hover | ⟨m, _, _, heq⟩ | ⟨m, _, heq⟩
  · exact hover
  · exact absurd (heq ▸ rfl) hwaits
  · exact absurd (heq ▸ rfl) hret

/-- An execution of a run that is not cancelled waits for nothing but what runs. -/
theorem execute_ended_of_live {fuel : Nat} (hret : (w.execute f fuel r₀ world).fault ≠ some .outOfTurns)
    (hlive : (w.execute f fuel r₀ world).state.run.cancelled = false) :
    w.Reaches f (f.outset r₀ world) ⟨.ended, w.execute f fuel r₀ world⟩ ∧
      Sound f P r₀ ⟨.ended, w.execute f fuel r₀ world⟩ := by
  refine execute_ended hset hw hP hret fun hlong => ?_
  rcases execute_cases hset hw hP fuel with ⟨_, hsound⟩ | ⟨m, hleft, _, heq⟩ | ⟨m, _, heq⟩
  · simp [show (w.execute f fuel r₀ world).fault = none from hsound.faultless] at hlong
  · have hcancelled : m.state.run.cancelled = true := (reaches_sound hset hw hP hleft).standing.1
    rw [heq] at hlive
    exact absurd (hcancelled.symm.trans hlive) (by decide)
  · exact hret (heq ▸ rfl)

/-- The state with which an execution ends is one that it reaches. -/
theorem execute_reached (fuel : Nat) : ∃ p, w.Reaches f (f.outset r₀ world) p ∧
    p.machine.state = (w.execute f fuel r₀ world).state ∧ p.machine.flight = (w.execute f fuel r₀ world).flight := by
  rcases execute_cases hset hw hP fuel with ⟨hover, _⟩ | ⟨m, hleft, _, heq⟩ | ⟨m, htop, heq⟩
  · exact ⟨_, hover, rfl, rfl⟩
  · exact ⟨_, hleft, heq ▸ rfl, heq ▸ rfl⟩
  · exact ⟨_, htop, heq ▸ rfl, heq ▸ rfl⟩

end Runs

/-- At a sound end every instance has a result. -/
theorem Sound.recorded (h : Sound f P r₀ ⟨.ended, m⟩) {i : Instance} (hi : i ∈ f.instances) :
    (m.state.run.result? i.id).isSome := by
  have hdone : m.config.state.phases = [] := h.standing
  refine h.inv.phased.covered i hi ?_
  rw [Config.phase?, hdone]
  rfl

/-- What a sound end leaves: a run that is complete and can be reported. -/
theorem Sound.closed (hset : Setting g r₀ f) (h : Sound f P r₀ ⟨.ended, m⟩) :
    m.state.run.complete = true ∧
      m.state.run.gateReport = .ok (m.state.run.reportOf g,
        { m.state.run with report := some (m.state.run.reportOf g) }) := by
  have hledger := h.inv.ledger
  have hcomplete : m.state.run.complete = true := by
    refine Run.complete_iff.mpr fun i hi => h.recorded ?_
    exact (hset.mem i).mpr (hledger.instances ▸ hi)
  exact ⟨hcomplete, Run.gateReport_of_complete hledger.unreported
    (hledger.graph.trans hset.planned.graph) hcomplete⟩

/-- What was in flight when the run was cancelled has been asked to stop and is left alone, since the
grace period is too long to be waited for: it keeps its phases, has no results, and there is no report. -/
structure Stranded (w : World σ) (r : Run) (m : Machine σ) : Prop where
  fault : m.fault = some .graceTooLong
  overlong : isTooLong w.patience = true
  cancelled : m.state.run.cancelled = true
  flying : ∀ i ∈ m.flight, i ∈ r.instances
  busy : ∃ i ∈ m.flight, w.finished m.world i = false
  left : ∀ id, (m.state.phases.lookup id).isSome ↔ id ∈ m.flight.map (·.id)
  recorded : ∀ i ∈ r.instances, (m.state.run.result? i.id).isSome ↔ i.id ∉ m.flight.map (·.id)
  unreported : m.state.run.gateReport = .error (.incomplete m.state.run.id m.state.run.missing)

theorem World.busy_of_cannotWait (h : w.cannotWait m = true) :
    isTooLong w.patience = true ∧ ∃ i ∈ m.flight, w.finished m.world i = false := by
  simpa [World.cannotWait] using h

/-- Where the loop is left before its end, only what was in flight lacks a result. -/
theorem Sound.stranded (hset : Setting g r₀ f) (h : Sound f P r₀ ⟨.stranded, m⟩)
    (hstuck : w.cannotWait m = true) : Stranded w r₀ (m.fail .graceTooLong) := by
  obtain ⟨hcancelled, hall⟩ := h.standing
  obtain ⟨hlong, i, hi, hbusy⟩ := World.busy_of_cannotWait hstuck
  have hledger := h.inv.ledger
  have hflying : ∀ i ∈ m.flight, i ∈ r₀.instances := fun i hi => (hset.mem i).mp (h.inv.aloft.flying i hi)
  have hleft : ∀ id, (m.state.phases.lookup id).isSome ↔ id ∈ m.flight.map (·.id) := by
    intro id
    refine Iff.trans ⟨fun hsome => ?_, fun hrun => ?_⟩ (h.inv.aloft.running id)
    · obtain ⟨p, hp⟩ := Option.isSome_iff_exists.mp hsome
      exact hall id p hp ▸ hp
    · exact Option.isSome_iff_exists.mpr ⟨_, hrun⟩
  have hrecorded : ∀ i ∈ r₀.instances, (m.state.run.result? i.id).isSome ↔ i.id ∉ m.flight.map (·.id) := by
    intro i hi
    rw [← hleft]
    refine ⟨fun hres hphase => ?_, fun hno => ?_⟩
    · have hnone := h.inv.phased.apart i.id hphase
      simp [show m.state.run.result? i.id = none from hnone] at hres
    · exact h.inv.phased.covered i ((hset.mem i).mpr hi) (Option.not_isSome_iff_eq_none.mp hno)
  refine ⟨rfl, hlong, hcancelled, hflying, ⟨i, hi, hbusy⟩, hleft, hrecorded, ?_⟩
  have hincomplete : ¬ m.state.run.complete = true := by
    intro hcomplete
    have hmem : i ∈ m.state.run.instances := hledger.instances ▸ hflying i hi
    exact (hrecorded i (hflying i hi)).mp (Run.complete_iff.mp hcomplete i hmem) (List.mem_map_of_mem hi)
  exact (Run.gateReport_open hledger.unreported (hledger.graph.trans hset.planned.graph)).trans
    (if_neg hincomplete)

end MergeGate.Schedule
