/-
Progress. A turn that goes on has waited for something: either an instance ended, and a phase is gone,
or time has passed that some instance in flight needs to end. So the phases that are left and the ticks
until everything in flight must have ended go down together with every turn, and the loop ends; what it
ends with does not depend on how many turns more it was allowed.
-/
import Mathlib.Algebra.Order.BigOperators.Group.List
import MergeGate.Proofs.Schedule.Cancellation

namespace MergeGate.Schedule

variable {σ : Type} {w : World σ} {f : Frame} {P : Instance → Result → Prop} {r₀ : Run} {g : JobGraph}
  {p q : Point σ} {c c' : Config} {m m' : Machine σ} {world : σ} {now : σ → Nat}

/-- A clock: it never goes back, a wait that reports nothing lasts a tick at least, and every instance
in flight ends after finitely many ticks. -/
structure World.Timely (w : World σ) (f : Frame) (start : Point σ) (now : σ → Nat) : Prop where
  forward : ∀ p, w.Reaches f start p → now p.machine.world ≤ now (w.step f p).machine.world
  poll : ∀ m, w.Reaches f start ⟨.wait, m⟩ → (w.wait m.world m.state.phases m.flight).2 = [] →
    now m.world < now (w.wait m.world m.state.phases m.flight).1
  ends : ∀ i ∈ f.instances, ∃ tick, ∀ m, w.Reaches f start ⟨.wait, m⟩ → i ∈ m.flight →
    tick ≤ now (w.wait m.world m.state.phases m.flight).1 →
      i ∈ (w.wait m.world m.state.phases m.flight).2.map (·.1)

/-- From the deadline on, a wait reports everything that is in flight. -/
def World.Deadline (w : World σ) (f : Frame) (start : Point σ) (now : σ → Nat) (tick : Nat) : Prop :=
  ∀ m, w.Reaches f start ⟨.wait, m⟩ → ∀ i ∈ m.flight, i ∈ f.instances →
    tick ≤ now (w.wait m.world m.state.phases m.flight).1 →
      i ∈ (w.wait m.world m.state.phases m.flight).2.map (·.1)

theorem World.Timely.exists_deadline {start : Point σ} (h : w.Timely f start now) :
    ∃ tick, w.Deadline f start now tick := by
  choose! due hdue using h.ends
  refine ⟨(f.instances.map due).sum, fun m hm i hfly hi hle => hdue i hi m hm hfly ?_⟩
  exact Nat.le_trans (List.le_sum_of_mem (List.mem_map_of_mem hi)) hle

/-! ## The measure -/

theorem Move.length_le (hm : Move f P c c') : c'.state.phases.length ≤ c.state.phases.length := by
  cases hm with
  | ready mem pending met =>
    have hsome : (c.phase? _).isSome := Option.isSome_iff_exists.mpr ⟨_, pending⟩
    exact Nat.le_of_eq (Assoc.length_put_of_isSome _ hsome)
  | skip => exact Assoc.length_erase_le _ _
  | dispatch mem ready room live =>
    have hsome : (c.phase? _).isSome := Option.isSome_iff_exists.mpr ⟨_, ready⟩
    exact Nat.le_of_eq (Assoc.length_put_of_isSome _ hsome)
  | finish => exact Assoc.length_erase_le _ _
  | cancel => exact Nat.le_refl _

theorem World.Timely.reaches {start : Point σ} (h : w.Timely f start now) (hp : w.Reaches f start p)
    (hq : w.Reaches f p q) : now p.machine.world ≤ now q.machine.world := by
  induction hq with
  | refl => exact Nat.le_refl _
  | next hq ih => exact Nat.le_trans ih (h.forward _ (hp.trans hq))

/-- What is left to do: the phases, and the ticks up to the deadline. -/
def remaining (now : σ → Nat) (deadline : Nat) (m : Machine σ) : Nat :=
  m.state.phases.length + (deadline - now m.world)

section Runs

variable (hset : Setting g r₀ f) (hw : w.Yields f (f.outset r₀ world) P)
  (hP : ∀ i x, P i x → x.instanceId = i.id)
include hset hw hP

theorem reaches_length_le (hp : w.Reaches f (f.outset r₀ world) p) (hq : w.Reaches f p q) :
    q.machine.state.phases.length ≤ p.machine.state.phases.length := by
  induction hq with
  | refl => exact Nat.le_refl _
  | next hq ih =>
    rcases reaches_moved hset hw hP (hp.trans hq) with heq | hmove
    · exact Nat.le_trans (Nat.le_of_eq (congrArg (·.state.phases.length) heq)) ih
    · exact Nat.le_trans hmove.length_le ih

/-- Recording what has ended takes a phase away. -/
theorem finish_length_lt {e : Instance × Result} {rest : Ended}
    (hp : w.Reaches f (f.outset r₀ world) ⟨.finish (e :: rest), m⟩)
    (hq : w.Reaches f ⟨.finish (e :: rest), m⟩ ⟨.finish [], m'⟩) :
    m'.state.phases.length < m.state.phases.length := by
  have hsound := reaches_sound hset hw hP hp
  obtain ⟨i, x⟩ := e
  obtain ⟨hi, hx⟩ := hsound.standing.2.given (i, x) (by simp)
  obtain ⟨hconf, hfault⟩ := hsound.inv.finishAll_one hsound.faultless hi (hP i x hx)
  have hstep : w.step f ⟨.finish ((i, x) :: rest), m⟩ = ⟨.finish rest, m.finishAll [(i, x)]⟩ :=
    Machine.goOn_of_faultless hfault _
  rcases hq.eq_or_next with heq | hnext
  · cases heq
  have hle := reaches_length_le hset hw hP hp.next hnext
  rw [hstep] at hle
  have hrun := hsound.inv.aloft.running_of_flying hi
  have hlt : (m.config.landed i x).state.phases.length < m.config.state.phases.length :=
    Assoc.length_erase_lt (Option.isSome_iff_exists.mpr ⟨.running, (hP i x hx).symm ▸ hrun⟩)
  rw [← hconf] at hlt
  exact Nat.lt_of_le_of_lt hle hlt

/-- **A turn makes progress.** -/
theorem turn_progress (ht : w.Timely f (f.outset r₀ world) now) {deadline : Nat}
    (hd : w.Deadline f (f.outset r₀ world) now deadline) (hp : w.Reaches f (f.outset r₀ world) ⟨.top, m⟩)
    (hturn : w.Turned f ⟨.top, m⟩ (.again m')) : remaining now deadline m' < remaining now deadline m := by
  obtain ⟨_, m₁, hwait, hfinish⟩ := hturn
  have hp₁ := hp.trans hwait
  have hsound := reaches_sound hset hw hP hp₁
  let ended := (w.wait m₁.world m₁.state.phases m₁.flight).2
  let m₂ : Machine σ := { m₁ with world := (w.wait m₁.world m₁.state.phases m₁.flight).1 }
  have hstep : w.step f ⟨.wait, m₁⟩ = ⟨.finish (f.endedInOrder ended), m₂⟩ := rfl
  have hlen : m₁.state.phases.length ≤ m.state.phases.length := reaches_length_le hset hw hP hp hwait
  have hlen' : m'.state.phases.length ≤ m₁.state.phases.length :=
    reaches_length_le hset hw hP hp₁.next hfinish
  have hnow : now m.world ≤ now m₁.world := ht.reaches hp hwait
  have hnow₁ : now m₁.world ≤ now m₂.world := ht.forward _ hp₁
  have hnow₂ : now m₂.world ≤ now m'.world := ht.reaches hp₁.next hfinish
  simp only [remaining]
  cases hended : f.endedInOrder ended with
  | nil =>
    have hnil : ended = [] :=
      List.nil_perm.mp (hended ▸ List.mergeSort_perm ended fun a b => before f.graph a.1 b.1)
    have hpoll : now m₁.world < now m₂.world := ht.poll m₁ hp₁ hnil
    -- Something is in flight and has not ended, so the deadline is still ahead.
    obtain ⟨i, hi⟩ := List.exists_mem_of_ne_nil _ hsound.standing.2
    have hahead : now m₂.world < deadline := by
      refine Nat.lt_of_not_le fun hle => ?_
      have hmem : i ∈ ended.map (·.1) := hd m₁ hp₁ i hi (hsound.inv.aloft.flying i hi) hle
      simp [hnil] at hmem
    omega
  | cons e rest =>
    rw [hstep, hended] at hfinish
    have hp₂ : w.Reaches f (f.outset r₀ world) ⟨.finish (e :: rest), m₂⟩ := hended ▸ hp₁.next
    have hlt : m'.state.phases.length < m₂.state.phases.length := finish_length_lt hset hw hP hp₂ hfinish
    have hsame : m₂.state.phases.length = m₁.state.phases.length := rfl
    omega

/-- With a turn for everything that is left to do, the loop does not run out of turns. -/
theorem loop_returns (ht : w.Timely f (f.outset r₀ world) now) {deadline : Nat}
    (hd : w.Deadline f (f.outset r₀ world) now deadline) : ∀ (fuel : Nat) (m : Machine σ),
    w.Reaches f (f.outset r₀ world) ⟨.top, m⟩ → remaining now deadline m < fuel →
      (w.loop f fuel m).fault ≠ some .outOfTurns
  | 0, m, _, h => by omega
  | fuel + 1, m, hp, h => by
    have hm := (reaches_sound hset hw hP hp).faultless
    rw [World.loop]
    rcases turn_reaches (w := w) (f := f) m hm with hbad | hturned
    · exact absurd hbad (not_faulty hset hw hP hp)
    cases hturn : w.turn f m with
    | finished m' =>
      rw [hturn] at hturned
      cases hturned with
      | ended reached =>
        have hok : m'.fault = none := (reaches_sound hset hw hP (hp.trans reached)).faultless
        simp [hok]
      | stranded left stuck => simp [Machine.fail]
    | again m' =>
      rw [hturn] at hturned
      have hless := turn_progress hset hw hP ht hd hp hturned
      exact loop_returns ht hd fuel m' (hp.trans hturned.top) (by omega)

end Runs

/-! ## Turns that are not needed -/

theorem loop_mono : ∀ {n k : Nat} {m : Machine σ}, n ≤ k → (w.loop f n m).fault ≠ some .outOfTurns →
    w.loop f k m = w.loop f n m
  | 0, _, m, _, h => absurd rfl h
  | n + 1, 0, m, hle, _ => by omega
  | n + 1, k + 1, m, hle, h => by
    rw [World.loop] at h ⊢
    rw [World.loop]
    cases hturn : w.turn f m with
    | finished m' => rfl
    | again m' =>
      simp only [hturn] at h
      exact loop_mono (Nat.le_of_succ_le_succ hle) h

theorem execute_outOfTurns_iff {n : Nat} : (w.execute f n r₀ world).fault = some .outOfTurns ↔
    (w.loop f n { state := f.start r₀, world }).fault = some .outOfTurns := by
  rw [World.execute]
  split
  · rfl
  · next hended =>
    have hnone : (w.loop f n { state := f.start r₀, world }).fault = none := by simp_all
    simp [Machine.fail, hnone]

/-- An execution that does not run out of turns ends the same with any number of turns more. -/
theorem execute_mono {n k : Nat} (hle : n ≤ k) (h : (w.execute f n r₀ world).fault ≠ some .outOfTurns) :
    w.execute f k r₀ world = w.execute f n r₀ world := by
  simp only [World.execute, loop_mono hle (mt execute_outOfTurns_iff.mpr h)]

/-! ## Clocks -/

theorem Machine.finishAll_world : ∀ (es : Ended) (m : Machine σ), (m.finishAll es).world = m.world
  | [], _ => rfl
  | (i, x) :: rest, m => by
    rw [Machine.finishAll]
    split
    · rfl
    · exact finishAll_world rest _

/-- A clock that no call of the world turns back never goes back. -/
theorem World.step_forward (hstart : ∀ s i, now s ≤ now (w.start s i).1)
    (hwait : ∀ s phases flight, now s ≤ now (w.wait s phases flight).1)
    (hstop : ∀ s i, now s ≤ now (w.stop s i))
    (hgrace : ∀ s phases flight, now s ≤ now (w.grace s phases flight).1)
    (hkill : ∀ s i, now s ≤ now (w.kill s i)) (p : Point σ) :
    now p.machine.world ≤ now (w.step f p).machine.world := by
  obtain ⟨place, m⟩ := p
  cases place with
  | top =>
    simp only [World.step]
    split <;> exact Nat.le_refl _
  | sweep changed rest =>
    cases rest with
    | nil => cases changed <;> exact Nat.le_refl _
    | cons i rest =>
      simp only [World.step]
      split <;> exact Nat.le_refl _
  | start rest =>
    cases rest with
    | nil =>
      simp only [World.step]
      split <;> exact Nat.le_refl _
    | cons i rest =>
      simp only [World.step]
      split
      · exact Nat.le_refl _
      · split
        · exact hstart _ _
        · exact Nat.le_refl _
  | wait => exact hwait _ _ _
  | finish rest =>
    cases rest with
    | nil => exact Nat.le_refl _
    | cons e rest => simp only [World.step, Machine.goOn_machine, Machine.finishAll_world, Nat.le_refl]
  | skip rest =>
    cases rest <;> simp only [World.step] <;> split <;> exact Nat.le_refl _
  | stop rest =>
    cases rest with
    | nil =>
      simp only [World.step]
      split <;> exact Nat.le_refl _
    | cons i rest => exact hstop _ _
  | grace => exact hgrace _ _ _
  | stranded => exact Nat.le_refl _
  | settle rest hung =>
    cases rest with
    | nil => exact Nat.le_refl _
    | cons e rest => simp only [World.step, Machine.goOn_machine, Machine.finishAll_world, Nat.le_refl]
  | kill rest =>
    cases rest with
    | nil => exact Nat.le_refl _
    | cons i rest =>
      simp only [World.step, Machine.goOn_machine, Machine.withFlight, World.killAll]
      split <;> exact hkill _ _
  | ended => exact Nat.le_refl _

theorem World.patient_timely {k : Nat} {c : Option Nat} {result : Instance → Result} {patience : Float}
    (start : Point Nat) : (World.patient k c result patience).Timely f start id where
  forward p _ := World.step_forward (fun _ _ => Nat.le_refl _) (fun _ _ _ => Nat.le_succ _)
    (fun _ _ => Nat.le_refl _) (fun _ _ _ => Nat.le_succ _) (fun _ _ => Nat.le_refl _) p
  poll m _ _ := Nat.lt_succ_self _
  ends i _ := ⟨k + 1, fun m _ hfly hle => by
    have hk : ¬ m.world < k := Nat.not_lt.mpr (Nat.le_of_succ_le_succ hle)
    simp [World.patient, hk, hfly]⟩

/-! ## Executions that return -/

section Returns

variable (hset : Setting g r₀ f) (hw : w.Yields f (f.outset r₀ world) P)
  (hP : ∀ i x, P i x → x.instanceId = i.id) (ht : w.Timely f (f.outset r₀ world) now)
include hset hw hP ht

theorem exists_execute_not_outOfTurns : ∃ turns, (w.execute f turns r₀ world).fault ≠ some .outOfTurns := by
  obtain ⟨deadline, hd⟩ := ht.exists_deadline
  let turns := remaining now deadline (f.outset r₀ world).machine + 1
  have hloop := loop_returns hset hw hP ht hd turns _ .refl (Nat.lt_succ_self _)
  exact ⟨turns, mt execute_outOfTurns_iff.mp hloop⟩

/-- With a grace period that can be waited for, nothing goes wrong. -/
theorem exists_execute_faultless (hshort : isTooLong w.patience = false) :
    ∃ turns, (w.execute f turns r₀ world).fault = none := by
  obtain ⟨turns, hturns⟩ := exists_execute_not_outOfTurns hset hw hP ht
  refine ⟨turns, ?_⟩
  rcases execute_cases hset hw hP turns with ⟨_, hsound⟩ | ⟨m, _, hstuck, _⟩ | ⟨m, _, heq⟩
  · exact hsound.faultless
  · have hlong := (World.busy_of_cannotWait hstuck).1
    simp [hshort] at hlong
  · exact absurd (heq ▸ rfl) hturns

end Returns

/-- What an execution that returns leaves: every instance has a result, and the run can be reported. -/
structure Returned (m : Machine σ) : Prop where
  faultless : m.fault = none
  settled : m.state.phases = []
  complete : m.state.run.complete = true
  reported : ∃ report closed, m.state.run.gateReport = .ok (report, closed)

/-- **No deadlock.** Every execution of a planned run ends, whatever ends and in whatever order, and
whenever the run is cancelled: no result is recorded twice, and it returns with no instance left over and
a report, unless its grace period is too long to be waited for and something is in flight by then. -/
theorem execute_ends {wf : Workflow} {t : Trigger} {id : String} {r : Run} {ns : List Notice} {workers : Nat}
    (hb : JobGraph.build wf = .ok g) (hp : Plan.plan g t id = .ok (r, ns)) (hn : 1 ≤ workers)
    (hw : w.Yields (frame g r workers) ((frame g r workers).outset r world) fun i x => x.instanceId = i.id)
    (ht : w.Timely (frame g r workers) ((frame g r workers).outset r world) now) :
    (∀ fuel, (w.execute (frame g r workers) fuel r world).fault = none ∨
      (w.execute (frame g r workers) fuel r world).fault = some .graceTooLong ∨
      (w.execute (frame g r workers) fuel r world).fault = some .outOfTurns) ∧
    ∃ turns m, (∀ fuel ≥ turns, w.execute (frame g r workers) fuel r world = m) ∧
      (Returned m ∨ Stranded w r m) ∧ (isTooLong w.patience = false → Returned m) := by
  have hset := Setting.of_plan hb hp hn
  have hP : ∀ (i : Instance) (x : Result), x.instanceId = i.id → x.instanceId = i.id := fun _ _ h => h
  have hcases := execute_cases hset hw hP
  constructor
  · intro fuel
    rcases hcases fuel with ⟨_, hsound⟩ | ⟨m, _, _, heq⟩ | ⟨m, _, heq⟩
    · exact .inl hsound.faultless
    · exact .inr (.inl (heq ▸ rfl))
    · exact .inr (.inr (heq ▸ rfl))
  obtain ⟨turns, hturns⟩ := exists_execute_not_outOfTurns hset hw hP ht
  refine ⟨turns, _, fun fuel hfuel => execute_mono hfuel hturns, ?_⟩
  rcases hcases turns with ⟨_, hsound⟩ | ⟨m, hleft, hstuck, heq⟩ | ⟨m, _, heq⟩
  · obtain ⟨hcomplete, hreport⟩ := hsound.closed hset
    have hreturned : Returned (w.execute (frame g r workers) turns r world) :=
      ⟨hsound.faultless, hsound.standing, hcomplete, _, _, hreport⟩
    exact ⟨.inl hreturned, fun _ => hreturned⟩
  · have hstranded := (reaches_sound hset hw hP hleft).stranded hset hstuck
    rw [heq]
    exact ⟨.inr hstranded, fun hshort => absurd hstranded.overlong (by simp [hshort])⟩
  · exact absurd (heq ▸ rfl) hturns

theorem execute_ends_sample : ∃ g r ns, JobGraph.build Plan.sample = .ok g ∧
    Plan.plan g Plan.samplePush "1" = .ok (r, ns) ∧
    ∃ turns m, (∀ fuel ≥ turns, World.hostile.execute (frame g r 2) fuel r 0 = m) ∧ Returned m := by
  obtain ⟨g, r, ns, hb, hp, _⟩ := Plan.sample_planned
  have hw : World.hostile.Yields (frame g r 2) ((frame g r 2).outset r 0) fun i x => x.instanceId = i.id :=
    World.patient_yields fun _ => rfl
  have ht : World.hostile.Timely (frame g r 2) ((frame g r 2).outset r 0) id := World.patient_timely _
  obtain ⟨turns, m, hm, _, hreturned⟩ := (execute_ends hb hp (by decide) hw ht).2
  exact ⟨g, r, ns, hb, hp, turns, m, hm, hreturned (by decide)⟩

/-- A run that is cancelled with a grace period without end breaks off with an instance in flight. It is
not complete then, and cannot be reported. -/
theorem endless_grace_breaks_off : ∃ g r ns, JobGraph.build Plan.sample = .ok g ∧
    Plan.plan g Plan.samplePush "1" = .ok (r, ns) ∧ 0.0 ≤ endless ∧
    (World.deaf endless).Yields (frame g r 2) ((frame g r 2).outset r 0) (fun i x => x.instanceId = i.id) ∧
    (World.deaf endless).Timely (frame g r 2) ((frame g r 2).outset r 0) id ∧
    ∃ turns m, (∀ fuel ≥ turns, (World.deaf endless).execute (frame g r 2) fuel r 0 = m) ∧
      m.fault = some .graceTooLong ∧ m.state.phases ≠ [] ∧
      m.state.run.gateReport = .error (.incomplete m.state.run.id m.state.run.missing) := by
  obtain ⟨g, r, ns, m, hb, hp, _, _, _, hflight, m', log, hleft, turns, hturns⟩ := endless_leftBehind
  have hw : (World.deaf endless).Yields (frame g r 2) ((frame g r 2).outset r 0) fun i x => x.instanceId = i.id :=
    World.patient_yields fun _ => rfl
  refine ⟨g, r, ns, hb, hp, zero_le_endless, hw, World.patient_timely _, turns, m',
    fun fuel hfuel => (hturns fuel hfuel).1, hleft.stranded.fault, fun hnone => ?_, hleft.stranded.unreported⟩
  obtain ⟨i, hi⟩ := List.exists_mem_of_ne_nil _ hflight
  have hphase := (hleft.stranded.left i.id).mpr (List.mem_map_of_mem (hleft.flight ▸ hi))
  simp [hnone] at hphase

end MergeGate.Schedule
