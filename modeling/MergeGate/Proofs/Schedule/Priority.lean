/-
Which instance is started, and when nothing is. Starting goes once through the instances in order, so
what is still to be looked at is the end of that order (`reaches_start`), and whatever is ready is among
it; the first of it that is ready comes before all others. The loop waits only when it has come to the
end of the order or has no free worker (`reaches_wait`), and whatever is pending then waits for a
result.
-/
import MergeGate.Proofs.Schedule.Invariant
import MergeGate.Proofs.Schedule.Order
import MergeGate.Proofs.Schedule.Upkeep

namespace MergeGate.Schedule

variable {σ : Type} {w : World σ} {f : Frame} {p q : Point σ} {m : Machine σ}

/-! ## One step -/

/-- One step starts nothing, or the first of the instances it is looking at, which is ready while a
worker is free. -/
theorem step_dispatched (p : Point σ) :
    (w.step f p).machine.state.run.dispatched = p.machine.state.run.dispatched ∨
      ∃ i rest, p.place = .start (i :: rest) ∧ p.machine.flight.length < f.workers ∧
        p.machine.config.phase? i.id = some .ready ∧
        (w.step f p).machine.state.run.dispatched = p.machine.state.run.dispatched ++ [i.id] := by
  obtain ⟨place, m⟩ := p
  cases place with
  | top =>
    simp only [World.step]
    split <;> exact .inl rfl
  | sweep changed rest =>
    cases rest with
    | nil => cases changed <;> exact .inl rfl
    | cons i rest =>
      simp only [World.step]
      split
      · exact .inl rfl
      · next hv =>
        obtain ⟨results, hrun⟩ := visit_run hv
        exact .inl ((congrArg Run.dispatched hrun).trans rfl)
  | start rest =>
    cases rest with
    | nil =>
      simp only [World.step]
      split <;> exact .inl rfl
    | cons i rest =>
      simp only [World.step]
      split
      · exact .inl rfl
      · next hfree =>
        split
        · next hready => exact .inr ⟨i, rest, rfl, Nat.lt_of_not_le hfree, hready, rfl⟩
        · exact .inl rfl
  | wait => exact .inl rfl
  | finish rest =>
    cases rest with
    | nil => exact .inl rfl
    | cons e rest =>
      obtain ⟨results, hrun⟩ := finishAll_run m e
      simp only [World.step, Machine.goOn_machine]
      exact .inl ((congrArg Run.dispatched hrun).trans rfl)
  | skip rest =>
    cases rest with
    | nil =>
      simp only [World.step]
      split <;> exact .inl rfl
    | cons i rest =>
      simp only [World.step]
      split
      · exact .inl rfl
      · next hskip =>
        obtain ⟨results, hrun⟩ := skipWaiting_run hskip
        exact .inl ((congrArg Run.dispatched hrun).trans rfl)
  | stop rest =>
    cases rest with
    | nil =>
      simp only [World.step]
      split <;> exact .inl rfl
    | cons i rest => exact .inl rfl
  | grace => exact .inl rfl
  | stranded => exact .inl rfl
  | settle rest hung =>
    cases rest with
    | nil => exact .inl rfl
    | cons e rest =>
      obtain ⟨results, hrun⟩ := finishAll_run m e
      simp only [World.step, Machine.goOn_machine]
      exact .inl ((congrArg Run.dispatched hrun).trans rfl)
  | kill rest =>
    cases rest with
    | nil => exact .inl rfl
    | cons i rest =>
      obtain ⟨results, hrun⟩ := killAll_run (w := w) m i
      simp only [World.step, Machine.goOn_machine]
      exact .inl ((congrArg Run.dispatched hrun).trans rfl)
  | ended => exact .inl rfl

theorem Machine.goOn_place (m : Machine σ) (place : Place) :
    (m.goOn place).place = .ended ∨ (m.goOn place).place = place := by
  rw [Machine.goOn]
  split
  · exact .inl rfl
  · exact .inr rfl

/-- What comes before a moment at which instances are still to be looked at, or it is about to be
waited. -/
theorem step_place (p : Point σ) :
    (∀ rest, (w.step f p).place = .start rest →
      rest = f.instances ∨ rest = [] ∨ ∃ i, p.place = .start (i :: rest)) ∧
    ((w.step f p).place = .wait → p = ⟨.start [], (w.step f p).machine⟩) := by
  obtain ⟨place, m⟩ := p
  cases place with
  | top =>
    simp only [World.step]
    split <;> simp
  | sweep changed rest =>
    cases rest with
    | nil => cases changed <;> simp [World.step]
    | cons i rest =>
      simp only [World.step]
      split <;> simp
  | start rest =>
    cases rest with
    | nil =>
      simp only [World.step]
      split <;> simp
    | cons i rest =>
      simp only [World.step]
      split
      · simp
      · split <;> simp
  | wait => simp [World.step]
  | finish rest =>
    cases rest with
    | nil => simp [World.step]
    | cons e rest =>
      simp only [World.step]
      rcases (m.finishAll [e]).goOn_place (.finish rest) with h | h <;> simp [h]
  | skip rest =>
    cases rest with
    | nil =>
      simp only [World.step]
      split <;> simp
    | cons i rest =>
      simp only [World.step]
      split <;> simp
  | stop rest =>
    cases rest with
    | nil =>
      simp only [World.step]
      split <;> simp
    | cons i rest => simp [World.step]
  | grace => simp [World.step]
  | stranded => simp [World.step]
  | settle rest hung =>
    cases rest with
    | nil => simp [World.step]
    | cons e rest =>
      simp only [World.step]
      rcases (m.finishAll [e]).goOn_place (.settle rest hung) with h | h <;> simp [h]
  | kill rest =>
    cases rest with
    | nil => simp [World.step]
    | cons i rest =>
      simp only [World.step]
      rcases Machine.goOn_place ((w.killAll m [i]).withFlight (m.flight.filter (·.id ≠ i.id)))
        (.kill rest) with h | h <;> rw [h] <;> simp
  | ended => simp [World.step]

/-! ## All steps -/

section Runs

variable {r : Run} {world : σ}

/-- What is still to be looked at is the end of the order. -/
theorem reaches_start (hp : w.Reaches f (f.outset r world) p) :
    ∀ rest, p.place = .start rest → rest <:+ f.instances := by
  induction hp with
  | refl => simp [Frame.outset]
  | @next q hq ih =>
    intro rest hrest
    rcases (step_place q).1 rest hrest with rfl | rfl | ⟨i, hi⟩
    · exact List.suffix_refl _
    · exact List.nil_suffix
    · exact (List.suffix_cons i rest).trans (ih _ hi)

/-- Before it is waited, the loop has looked at all it is going to look at. -/
theorem reaches_wait (hp : w.Reaches f (f.outset r world) ⟨.wait, m⟩) :
    w.Reaches f (f.outset r world) ⟨.start [], m⟩ := by
  generalize hs : (⟨.wait, m⟩ : Point σ) = s at hp
  cases hp with
  | refl => cases congrArg Point.place hs
  | @next q hq =>
    have hplace : (w.step f q).place = .wait := congrArg Point.place hs.symm
    have hmachine : (w.step f q).machine = m := congrArg Point.machine hs.symm
    have heq := (step_place q).2 hplace
    rw [hmachine] at heq
    exact heq ▸ hq

variable {g : JobGraph} {P : Instance → Result → Prop}

/-- While instances are started, whatever is ready comes no earlier than the first that is still to be
looked at. -/
theorem Sound.first {i : Instance} {rest : List Instance} (h : Sound f P r ⟨.start (i :: rest), m⟩)
    (hsorted : f.instances.Pairwise fun a b => before g a b = true) (hrest : i :: rest <:+ f.instances)
    (hroom : m.flight.length < f.workers) :
    ∀ k ∈ f.instances, m.config.phase? k.id = some .ready → k ∈ i :: rest ∧ before g i k = true := by
  obtain ⟨-, -, -, hready⟩ := h.standing
  have hleft := hready.resolve_left (Nat.not_le_of_lt hroom)
  have hfirst := (List.pairwise_cons.mp (hsorted.sublist hrest.sublist)).1
  intro k hk hphase
  have hmem := hleft k hk hphase
  refine ⟨hmem, ?_⟩
  rcases List.mem_cons.mp hmem with rfl | hmem
  · exact before_refl k
  · exact hfirst k hmem

/-- When it is waited, all workers are busy or nothing is ready, and whatever is pending needs a job
with an instance that has no result yet. -/
theorem Sound.idle (hset : Setting g r f) (h : Sound f P r ⟨.start [], m⟩) :
    (m.flight.length = f.workers ∨ ∀ i ∈ r.instances, m.config.phase? i.id ≠ some .ready) ∧
      ∀ i ∈ r.instances, m.config.phase? i.id = some .pending →
        ∃ e ∈ g.needsOf i.job, ∃ k ∈ r.instances, k.job = e.job ∧ m.state.run.result? k.id = none := by
  obtain ⟨-, -, hwait, hready⟩ := h.standing
  constructor
  · rcases hready with hfull | hnone
    · exact .inl (Nat.le_antisymm h.inv.aloft.room hfull)
    · exact .inr fun i hi hphase => List.not_mem_nil (hnone i ((hset.mem i).mpr hi) hphase)
  · intro i hi hphase
    have hi' := (hset.mem i).mpr hi
    obtain ⟨e, he, k, hk, hke, hnone⟩ := hset.missing_of_wait h.inv hi' (hwait i hi' hphase)
    exact ⟨e, he, k, (hset.mem k).mp hk, hke, hnone⟩

/-- What is started, and what is not, at a moment of a scheduled run. -/
structure Diligent (w : World σ) (f : Frame) (r : Run) (p : Point σ) : Prop where
  /-- when an instance is started, none that comes before it is ready -/
  priority : ∀ i ∈ r.instances, i.id ∉ p.machine.state.run.dispatched →
    i.id ∈ (w.step f p).machine.state.run.dispatched →
      ∀ k ∈ r.instances, Precedes f.graph k i → p.machine.state.phases.lookup k.id ≠ some .ready
  /-- when it is waited, no worker is left without work that could be done -/
  conserving : p.place = .wait →
    (p.machine.flight.length = f.workers ∨
      ∀ i ∈ r.instances, p.machine.state.phases.lookup i.id ≠ some .ready) ∧
    ∀ i ∈ r.instances, p.machine.state.phases.lookup i.id = some .pending →
      ∃ e ∈ f.graph.needsOf i.job, ∃ k ∈ r.instances, k.job = e.job ∧
        p.machine.state.run.result? k.id = none

theorem reaches_diligent (hset : Setting g r f) (hd : (r.instances.map (·.id)).Nodup)
    (hsorted : f.instances.Pairwise fun a b => before g a b = true)
    (hw : w.Yields f (f.outset r world) P) (hP : ∀ i x, P i x → x.instanceId = i.id)
    (hp : w.Reaches f (f.outset r world) p) : Diligent w f r p := by
  constructor
  · intro i hi hnot hnow k hk hearlier hready
    rcases step_dispatched (w := w) (f := f) p with hsame | ⟨i', rest, hplace, hroom, -, hadded⟩
    · exact hnot (hsame ▸ hnow)
    obtain ⟨place, m⟩ := p
    obtain rfl : place = .start (i' :: rest) := hplace
    have hrest : i' :: rest <:+ f.instances := reaches_start hp _ rfl
    have hid : i.id = i'.id := by
      rw [hadded, List.mem_append, List.mem_singleton] at hnow
      exact hnow.resolve_left hnot
    obtain rfl : i = i' :=
      hset.eq_of_id hd i ((hset.mem i).mpr hi) i' (hrest.subset (by simp)) hid
    have hfirst := (reaches_sound hset hw hP hp).first hsorted hrest hroom k ((hset.mem k).mpr hk) hready
    exact (hset.graph ▸ hearlier).not_before hfirst.2
  · intro hplace
    obtain ⟨place, m⟩ := p
    obtain rfl : place = .wait := hplace
    rw [hset.graph]
    exact (reaches_sound hset hw hP (reaches_wait hp)).idle hset

end Runs

end MergeGate.Schedule
