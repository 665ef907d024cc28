/-
What a finished execution leaves. Every instance has one result, and its origin is known: it was
skipped, or it was started and ended (`Sound.origin`). The results of a job are those of its instances,
or, where it has none, the record of its absence; nothing else counts for it.
-/
import MergeGate.Proofs.Schedule.Invariant

namespace MergeGate.Schedule

/-- How the execution of an instance ends, its duration aside. -/
inductive Finish where
  | exit (code : Option Int) (tail : String) (reason : Option String)
  /-- it could not be run -/
  | broken (message : String)

/-- The result of an instance whose execution ended so. -/
def Finish.result (i : Instance) (duration : Float) : Finish → Result
  | exit code tail reason => .ofExit i code duration tail reason
  | broken message => .broken i duration message

/-- A result as the executions of an instance give it. -/
def Formed (i : Instance) (x : Result) : Prop := ∃ d, ∃ y : Finish, x = y.result i d

theorem Formed.instanceId {i : Instance} {x : Result} (h : Formed i x) : x.instanceId = i.id := by
  obtain ⟨d, y, rfl⟩ := h
  cases y <;> rfl

theorem Formed.job {i : Instance} {x : Result} (h : Formed i x) : x.job = i.job := by
  obtain ⟨d, y, rfl⟩ := h
  cases y <;> rfl

variable {σ : Type} {f : Frame} {P : Instance → Result → Prop} {r₀ : Run} {g : JobGraph} {m : Machine σ}

/-- An origin tells which job a result counts for. -/
theorem Origin.job (hP : ∀ i x, P i x → x.job = i.job) {r : Run} {i : Instance} {x : Result}
    (h : Origin f P r i x) : x.job = i.job := by
  cases h with
  | skipped why _ => cases why <;> rfl
  | ran how _ =>
    cases how with
    | own given => exact hP i x given
    | @stopped y given seen =>
      rw [← hP i y given, Result.stopped]
      split <;> rfl
    | killed => rfl

/-- The result of an instance that had none when the run was planned has an origin. -/
theorem Ledger.origin (hset : Setting g r₀ f) (hd : (r₀.instances.map (·.id)).Nodup) {c : Config}
    (h : Ledger f P r₀ c) {i : Instance} (hi : i ∈ r₀.instances) (hnew : r₀.result? i.id = none)
    {x : Result} (hx : c.run.result? i.id = some x) : Origin f P c.run i x := by
  obtain ⟨hmem, hid⟩ := Run.result?_eq_some hx
  rcases h.traced x hmem with hold | ⟨k, hk, hxk, horigin⟩
  · exact absurd hid (Run.result?_eq_none_iff.mp hnew x hold)
  · obtain rfl := hset.eq_of_id hd i ((hset.mem i).mpr hi) k hk (hid.symm.trans hxk)
    exact horigin

section Ended

variable (hset : Setting g r₀ f) (hr : Plan.Fresh r₀) (h : Sound f P r₀ ⟨.ended, m⟩)
include hset hr h

theorem Sound.origin {i : Instance} (hi : i ∈ r₀.instances) :
    ∃ x, m.state.run.result? i.id = some x ∧ Origin f P m.state.run i x := by
  obtain ⟨x, hx⟩ := Option.isSome_iff_exists.mp (h.recorded ((hset.mem i).mpr hi))
  exact ⟨x, hx, h.inv.ledger.origin hset hr.distinct hi (hr.unrecorded i hi) hx⟩

theorem Sound.mem_resultsFor (hP : ∀ i x, P i x → x.job = i.job) {job : String}
    (hsome : ∃ i ∈ r₀.instances, i.job = job) {x : Result} : x ∈ m.state.run.resultsFor job ↔
      ∃ i ∈ r₀.instances, i.job = job ∧ m.state.run.result? i.id = some x := by
  have hledger := h.inv.ledger
  rw [Run.resultsFor, List.mem_filter, beq_iff_eq]
  constructor
  · rintro ⟨hmem, hjob⟩
    rcases hledger.traced x hmem with hold | ⟨i, hi, hid, horigin⟩
    · obtain ⟨j, _, reason, _, rfl, hnone⟩ := hset.planned.absent x hold
      obtain ⟨i, hi, hij⟩ := hsome
      exact absurd (hij.trans hjob.symm) (hnone i hi)
    · exact ⟨i, (hset.mem i).mp hi, (horigin.job hP).symm.trans hjob,
        hid ▸ Run.result?_of_mem hledger.once hmem⟩
  · rintro ⟨i, hi, hij, hx⟩
    exact ⟨(Run.result?_eq_some hx).1, ((hledger.origin hset hr.distinct hi (hr.unrecorded i hi) hx).job hP).trans hij⟩

omit hr in
theorem Sound.resultsFor_absent (hP : ∀ i x, P i x → x.job = i.job) {j : Job} (hj : j ∈ g.jobs)
    (hnone : ∀ i ∈ r₀.instances, i.job ≠ j.id) :
    ∃ reason, Reason.isAbsence (some reason) = true ∧ r₀.result? j.id = some (.absent j.id reason) ∧
      m.state.run.resultsFor j.id = [.absent j.id reason] := by
  have hledger := h.inv.ledger
  rcases hset.planned.decided j hj with ⟨i, hi, hij⟩ | ⟨reason, hreason, hfound⟩
  · exact absurd hij (hnone i hi)
  have hrecord := hledger.planned.subset (Run.result?_eq_some hfound).1
  refine ⟨reason, hreason, hfound, Run.resultsFor_eq_singleton hledger.once hrecord fun x hx hjob => ?_⟩
  rcases hledger.traced x hx with hold | ⟨i, hi, _, horigin⟩
  · obtain ⟨k, _, why, _, rfl, _⟩ := hset.planned.absent x hold
    exact hjob
  · exact absurd ((horigin.job hP).symm.trans hjob) (hnone i ((hset.mem i).mp hi))

end Ended

end MergeGate.Schedule
