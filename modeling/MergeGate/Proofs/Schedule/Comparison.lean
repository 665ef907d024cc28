/-
Two runs of one plan. What an instance comes to depends on how it ends itself and on the results of what
it needs (`Settles.fate`), so two runs that are not cancelled can be compared along the needs, whatever
their workers and the order in which their instances ended. A need that one run meets is met in the other
as soon as the needed results satisfy there what they satisfy here (`NeedMet.carry`), and a job whose
instances have the same results has the same outcome.
-/
import MergeGate.Proofs.Schedule.Confluence
import MergeGate.Proofs.Schedule.Gate

namespace MergeGate

/-- Whatever policy the first result satisfies, the second does. -/
def Result.Upheld (x y : Result) : Prop := ∀ p, x.satisfies p = true → y.satisfies p = true

/-- Durations have no part in what a result satisfies. -/
theorem Result.satisfies_timeless {x : Result} {p : Policy} : x.timeless.satisfies p = x.satisfies p := by
  cases p <;> rfl

/-- A blocked instance satisfies no policy. -/
theorem Result.not_satisfies_blocked (i : Instance) (p : Policy) :
    (Result.skip i Reason.blocked).satisfies p = false := by
  cases p <;> rfl

theorem Result.upheld_of_timeless {x y : Result} (h : x.timeless = y.timeless) : x.Upheld y := by
  intro p hp
  rw [← Result.satisfies_timeless, ← h, Result.satisfies_timeless]
  exact hp

namespace Schedule

variable {g : JobGraph} {r a b : Run} {o o₁ o₂ : Instance → Finish} {i : Instance} {final : Run}

/-! ## One run -/

/-- What becomes of an instance. -/
theorem Settles.fate (h : Settles g r o final) (hi : i ∈ r.instances) :
    (∃ x, r.result? i.id = some x ∧ final.result? i.id = some x ∧ i.id ∉ final.dispatched) ∨
    (r.result? i.id = none ∧ (∀ e ∈ g.needsOf i.job, NeedMet r.instances final e) ∧
      i.id ∈ final.dispatched ∧ ∃ d, final.result? i.id = some ((o i).result i d)) ∨
    r.result? i.id = none ∧ (¬ ∀ e ∈ g.needsOf i.job, NeedMet r.instances final e) ∧
      i.id ∉ final.dispatched ∧ final.result? i.id = some (.skip i Reason.blocked) := by
  cases hold : r.result? i.id with
  | some x =>
    refine .inl ⟨x, rfl, Run.result?_mono h.planned hold, fun hmem => ?_⟩
    obtain ⟨k, _, hnew, hid⟩ := h.started i.id hmem
    rw [hid, hold] at hnew
    cases hnew
  | none =>
    by_cases hmet : ∀ e ∈ g.needsOf i.job, NeedMet r.instances final e
    · exact .inr (.inl ⟨rfl, hmet, h.ran i hi hold hmet⟩)
    · exact .inr (.inr ⟨rfl, hmet, h.blocked i hi hold hmet⟩)

theorem Settles.found (h : Settles g r o final) (hi : i ∈ r.instances) : ∃ x, final.result? i.id = some x := by
  rcases h.fate hi with ⟨x, _, hx, _⟩ | ⟨_, _, _, _, hx⟩ | ⟨_, _, _, hx⟩ <;> exact ⟨_, hx⟩

theorem Finish.result_job (y : Finish) (d : Float) : (y.result i d).job = i.job := by
  cases y <;> rfl

/-- A result that was not planned belongs to the job of its instance, and the instance had its turn. -/
theorem Settles.turn (h : Settles g r o final) (hi : i ∈ r.instances) (hnew : r.result? i.id = none) {x : Result}
    (hx : final.result? i.id = some x) : x.job = i.job ∧ x.Decided := by
  rcases h.fate hi with ⟨y, hold, _⟩ | ⟨_, _, _, d, hy⟩ | ⟨_, _, _, hy⟩
  · rw [hnew] at hold
    cases hold
  · obtain rfl := Option.some.inj (hx.symm.trans hy)
    exact ⟨(o i).result_job d, (Formed.status ⟨d, o i, rfl⟩).imp_right .inl⟩
  · obtain rfl := Option.some.inj (hx.symm.trans hy)
    exact ⟨rfl, .inr (.inr ⟨rfl, .inl rfl⟩)⟩

/-- The results of a job are those it was planned with, and those of its other instances. -/
theorem Settles.mem_resultsFor (h : Settles g r o final) {job : String} {x : Result} : x ∈ final.resultsFor job ↔
      x ∈ r.resultsFor job ∨
        ∃ i ∈ r.instances, i.job = job ∧ r.result? i.id = none ∧ final.result? i.id = some x := by
  simp only [Run.resultsFor, List.mem_filter, beq_iff_eq]
  constructor
  · rintro ⟨hx, hjob⟩
    rcases h.added x hx with hold | ⟨i, hi, hnew, hid⟩
    · exact .inl ⟨hold, hjob⟩
    · have hfound : final.result? i.id = some x := hid ▸ Run.result?_of_mem h.once hx
      exact .inr ⟨i, hi, (h.turn hi hnew hfound).1.symm.trans hjob, hnew, hfound⟩
  · rintro (⟨hold, hjob⟩ | ⟨i, hi, hjob, hnew, hfound⟩)
    · exact ⟨h.planned.subset hold, hjob⟩
    · exact ⟨(Run.result?_eq_some hfound).1, (h.turn hi hnew hfound).1.trans hjob⟩

/-! ## Two runs -/

/-- Whatever policy the instance's result satisfies in the first run, its result in the second does. -/
def UpheldAt (a b : Run) (i : Instance) : Prop :=
  ∃ x y, a.result? i.id = some x ∧ b.result? i.id = some y ∧ x.Upheld y

/-- The instance has the same result in both runs, its duration aside. -/
def AlikeAt (a b : Run) (i : Instance) : Prop :=
  ∃ x y, a.result? i.id = some x ∧ b.result? i.id = some y ∧ x.timeless = y.timeless

theorem AlikeAt.symm (h : AlikeAt a b i) : AlikeAt b a i := by
  obtain ⟨x, y, hx, hy, heq⟩ := h
  exact ⟨y, x, hy, hx, heq.symm⟩

theorem AlikeAt.upheldAt (h : AlikeAt a b i) : UpheldAt a b i := by
  obtain ⟨x, y, hx, hy, heq⟩ := h
  exact ⟨x, y, hx, hy, Result.upheld_of_timeless heq⟩

/-- A need that the first run meets, the second does; a job that is absent is so in both. -/
theorem NeedMet.carry (hplan : Plan.Planned g r) (ha : r.results <+: a.results) (hb : r.results <+: b.results)
    {e : Edge} (hdecl : ∃ j ∈ g.jobs, j.id = e.job)
    (h : ∀ k ∈ r.instances, k.job = e.job → UpheldAt a b k) (hmet : NeedMet r.instances a e) :
    NeedMet r.instances b e := by
  constructor
  · intro k hk hke
    obtain ⟨x, y, hx, hy, hxy⟩ := h k hk hke
    obtain ⟨x', hx', hsat⟩ := hmet.1 k hk hke
    obtain rfl := Option.some.inj (hx.symm.trans hx')
    exact ⟨y, hy, hxy _ hsat⟩
  · intro hnone
    obtain ⟨j, hj, hje⟩ := hdecl
    rcases hplan.decided j hj with ⟨k, hk, hkj⟩ | ⟨reason, _, hfound⟩
    · exact absurd (hkj.trans hje) (hnone k hk)
    · obtain ⟨x, hx, hsat⟩ := hmet.2 hnone
      rw [← hje, Run.result?_mono ha hfound] at hx
      exact ⟨x, hje ▸ (Run.result?_mono hb hfound).trans hx, hsat⟩

/-- Where the results of a job's instances are the same but for their durations, so are the results of
the job but for their order. -/
theorem resultsFor_perm (ha : Settles g r o₁ a) (hb : Settles g r o₂ b) {job : String}
    (h : ∀ i ∈ r.instances, i.job = job → AlikeAt a b i) :
    ((a.resultsFor job).map (·.timeless)).Perm ((b.resultsFor job).map (·.timeless)) := by
  have hnodup : ∀ {o : Instance → Finish} {c : Run}, Settles g r o c →
      ((c.resultsFor job).map (·.timeless)).Nodup := by
    intro o c hc
    refine List.Nodup.of_map (·.instanceId) ?_
    rw [List.map_map]
    exact hc.once.sublist (List.filter_sublist.map _)
  have hsub : ∀ {o o' : Instance → Finish} {c c' : Run}, Settles g r o c → Settles g r o' c' →
      (∀ i ∈ r.instances, i.job = job → AlikeAt c c' i) → ∀ x ∈ c.resultsFor job,
        x.timeless ∈ (c'.resultsFor job).map (·.timeless) := by
    intro o o' c c' hc hc' hall x hx
    rcases hc.mem_resultsFor.mp hx with hold | ⟨i, hi, hij, hnew, hfound⟩
    · exact List.mem_map_of_mem (hc'.mem_resultsFor.mpr (.inl hold))
    · obtain ⟨x', y, hx', hy, heq⟩ := hall i hi hij
      obtain rfl := Option.some.inj (hfound.symm.trans hx')
      exact heq ▸ List.mem_map_of_mem (hc'.mem_resultsFor.mpr (.inr ⟨i, hi, hij, hnew, hy⟩))
  refine (List.perm_ext_iff_of_nodup (hnodup ha) (hnodup hb)).mpr fun z => ?_
  constructor
  · intro hz
    obtain ⟨x, hx, rfl⟩ := List.mem_map.mp hz
    exact hsub ha hb h x hx
  · intro hz
    obtain ⟨y, hy, rfl⟩ := List.mem_map.mp hz
    exact hsub hb ha (fun i hi hij => (h i hi hij).symm) y hy

theorem Finish.result_timeless (y : Finish) (d : Float) : (y.result i d).timeless = y.result i 0.0 := by
  cases y <;> rfl

end Schedule

end MergeGate
