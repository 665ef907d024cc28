/-
What an instance's needs say. A need is met when every instance of the needed job, or else the record
of its absence, has a result that the need's policy accepts. The scheduler's word on an instance is
`ok` exactly when all its needs are met, and `wait` only while a needed result is missing; any other
word than `wait` is final, since results are only ever added.
-/
import MergeGate.Proofs.Run
import MergeGate.Schedule.Basic

namespace MergeGate.Schedule

/-- The results recorded so far meet the need. -/
def NeedMet (is : List Instance) (r : Run) (e : Edge) : Prop :=
  (∀ i ∈ is, i.job = e.job → ∃ x, r.result? i.id = some x ∧ x.satisfies e.policy = true) ∧
  ((∀ i ∈ is, i.job ≠ e.job) → ∃ x, r.result? e.job = some x ∧ x.satisfies e.policy = true)

namespace Frame

variable {f : Frame} {r r' : Run}

theorem mem_idsOf {job id : String} : id ∈ f.idsOf job ↔ ∃ i ∈ f.instances, i.job = job ∧ i.id = id := by
  simp [idsOf, List.mem_map, List.mem_filter, and_assoc]

theorem idsOf_eq_nil_iff {job : String} : f.idsOf job = [] ↔ ∀ i ∈ f.instances, i.job ≠ job := by
  simp [idsOf, List.filter_eq_nil_iff]

theorem mem_needed {job : String} {a : Option Result} : a ∈ f.needed r job ↔
    (∃ i ∈ f.instances, i.job = job ∧ r.result? i.id = a) ∨
      (∀ i ∈ f.instances, i.job ≠ job) ∧ r.result? job = a := by
  simp only [needed, List.isEmpty_iff]
  split
  · next hnil =>
    have hnone := idsOf_eq_nil_iff.mp hnil
    rw [List.mem_singleton]
    constructor
    · intro h
      exact .inr ⟨hnone, h.symm⟩
    · rintro (⟨i, hi, hij, _⟩ | ⟨_, h⟩)
      · exact absurd hij (hnone i hi)
      · exact h.symm
  · next hne =>
    rw [List.mem_map]
    constructor
    · rintro ⟨id, hid, ha⟩
      obtain ⟨i, hi, hij, rfl⟩ := mem_idsOf.mp hid
      exact .inl ⟨i, hi, hij, ha⟩
    · rintro (⟨i, hi, hij, ha⟩ | ⟨hnone, _⟩)
      · exact ⟨i.id, mem_idsOf.mpr ⟨i, hi, hij, rfl⟩, ha⟩
      · exact absurd (idsOf_eq_nil_iff.mpr hnone) hne

/-- Once no needed result is missing, nothing changes where all results are found again. -/
theorem needed_of_found (h : ∀ id x, r.result? id = some x → r'.result? id = some x) {job : String}
    (hall : none ∉ f.needed r job) : f.needed r' job = f.needed r job := by
  have hkeep : ∀ id, r.result? id ∈ f.needed r job → r'.result? id = r.result? id := by
    intro id hid
    cases hx : r.result? id with
    | none => exact absurd (hx ▸ hid) hall
    | some x => exact h id x hx
  simp only [needed, List.isEmpty_iff] at hkeep ⊢
  split
  · next hnil => rw [hkeep job (by simp [hnil])]
  · next hne =>
    refine List.map_congr_left fun id hid => hkeep id ?_
    rw [if_neg hne]
    exact List.mem_map_of_mem hid

theorem edgeState_eq_wait_iff {e : Edge} : f.edgeState r e = .wait ↔ none ∈ f.needed r e.job := by
  simp only [edgeState]
  split
  · next h =>
    obtain ⟨a, ha, hnone⟩ := List.any_eq_true.mp h
    simp only [Option.isNone_iff_eq_none] at hnone
    simpa [hnone] using ha
  · next h =>
    have hno : none ∉ f.needed r e.job := fun hm => h (List.any_eq_true.mpr ⟨none, hm, rfl⟩)
    split <;> simp [hno]

theorem edgeState_eq_ok_iff {e : Edge} : f.edgeState r e = .ok ↔
    ∀ a ∈ f.needed r e.job, ∃ x, a = some x ∧ x.satisfies e.policy = true := by
  simp only [edgeState]
  split
  · next h =>
    obtain ⟨a, ha, hnone⟩ := List.any_eq_true.mp h
    simp only [Option.isNone_iff_eq_none] at hnone
    subst hnone
    simp only [reduceCtorEq, false_iff]
    intro hall
    obtain ⟨x, hx, _⟩ := hall none ha
    cases hx
  · next h =>
    have hiff : ((f.needed r e.job).all fun x => (x.map (·.satisfies e.policy)).getD false) = true ↔
        ∀ a ∈ f.needed r e.job, ∃ x, a = some x ∧ x.satisfies e.policy = true := by
      rw [List.all_eq_true]
      refine forall₂_congr fun a _ => ?_
      cases a <;> simp
    rw [← hiff]
    split <;> simp_all

theorem edgeState_eq_ok_iff_needMet {e : Edge} :
    f.edgeState r e = .ok ↔ NeedMet f.instances r e := by
  rw [edgeState_eq_ok_iff, NeedMet]
  constructor
  · intro h
    exact ⟨fun i hi hij => h _ (mem_needed.mpr (.inl ⟨i, hi, hij, rfl⟩)),
      fun hnone => h _ (mem_needed.mpr (.inr ⟨hnone, rfl⟩))⟩
  · rintro ⟨hinst, habsent⟩ a ha
    rcases mem_needed.mp ha with ⟨i, hi, hij, rfl⟩ | ⟨hnone, rfl⟩
    · exact hinst i hi hij
    · exact habsent hnone

theorem edgeState_of_found (h : ∀ id x, r.result? id = some x → r'.result? id = some x) {e : Edge}
    (hne : f.edgeState r e ≠ .wait) : f.edgeState r' e = f.edgeState r e := by
  have hall : none ∉ f.needed r e.job := fun hm => hne (edgeState_eq_wait_iff.mpr hm)
  simp only [edgeState, needed_of_found h hall]

theorem readiness_eq_ok_iff : ∀ {es : List Edge},
    f.readiness r es = .ok ↔ ∀ e ∈ es, f.edgeState r e = .ok
  | [] => by simp [readiness]
  | e :: es => by
    simp only [readiness, List.mem_cons, forall_eq_or_imp]
    split
    · next h => simp [h, readiness_eq_ok_iff]
    · next h => exact ⟨fun he => absurd he h, fun he => he.1⟩

/-- A need that is not met decides as soon as those before it are. -/
theorem exists_of_readiness_ne_ok : ∀ {es : List Edge}, f.readiness r es ≠ .ok →
    ∃ e ∈ es, f.edgeState r e = f.readiness r es
  | [], h => by simp [readiness] at h
  | e :: es, h => by
    simp only [readiness] at h ⊢
    split at h
    · next he =>
      obtain ⟨e', he', heq⟩ := exists_of_readiness_ne_ok h
      exact ⟨e', List.mem_cons_of_mem _ he', heq⟩
    · next he => exact ⟨e, by simp, rfl⟩

theorem readiness_of_found (h : ∀ id x, r.result? id = some x → r'.result? id = some x) :
    ∀ {es : List Edge}, f.readiness r es ≠ .wait → f.readiness r' es = f.readiness r es
  | [], _ => rfl
  | e :: es, hne => by
    simp only [readiness] at hne ⊢
    cases he : f.edgeState r e with
    | wait => simp [he] at hne
    | ok =>
      rw [edgeState_of_found h (by simp [he]), he]
      simp only [he] at hne
      exact readiness_of_found h hne
    | blocked => rw [edgeState_of_found h (by simp [he]), he]

theorem readinessOf_of_found (h : ∀ id x, r.result? id = some x → r'.result? id = some x) {i : Instance}
    (hne : f.readinessOf r i ≠ .wait) : f.readinessOf r' i = f.readinessOf r i :=
  readiness_of_found h hne

/-- Later results change no word that has been spoken. -/
theorem readinessOf_mono (h : r.results <+: r'.results) {i : Instance}
    (hne : f.readinessOf r i ≠ .wait) : f.readinessOf r' i = f.readinessOf r i :=
  readinessOf_of_found (fun _ _ => Run.result?_mono h) hne

/-- Which instances there are and which results they have decides, and nothing else. -/
theorem readinessOf_congr {f' : Frame} (hgraph : f'.graph = f.graph)
    (hmem : ∀ i, i ∈ f'.instances ↔ i ∈ f.instances) (h : ∀ id, r'.result? id = r.result? id)
    (i : Instance) : f'.readinessOf r' i = f.readinessOf r i := by
  have hneeded : ∀ job a, a ∈ f'.needed r' job ↔ a ∈ f.needed r job := by
    intro job a
    simp only [mem_needed, hmem, h]
  have hedge : ∀ e, f'.edgeState r' e = f.edgeState r e := by
    intro e
    have hwait : f'.edgeState r' e = .wait ↔ f.edgeState r e = .wait := by
      rw [edgeState_eq_wait_iff, edgeState_eq_wait_iff, hneeded]
    have hok : f'.edgeState r' e = .ok ↔ f.edgeState r e = .ok := by
      simp only [edgeState_eq_ok_iff, hneeded]
    cases he : f.edgeState r e with
    | wait => exact hwait.mpr he
    | ok => exact hok.mpr he
    | blocked =>
      rw [he] at hwait hok
      cases he' : f'.edgeState r' e with
      | wait => cases hwait.mp he'
      | ok => cases hok.mp he'
      | blocked => rfl
  have hall : ∀ es, f'.readiness r' es = f.readiness r es := by
    intro es
    induction es with
    | nil => rfl
    | cons e es ih => simp only [readiness, hedge, ih]
  rw [readinessOf, readinessOf, hgraph, hall]

theorem readinessOf_eq_ok_iff {i : Instance} :
    f.readinessOf r i = .ok ↔ ∀ e ∈ f.graph.needsOf i.job, NeedMet f.instances r e := by
  rw [readinessOf, readiness_eq_ok_iff]
  exact forall₂_congr fun e _ => edgeState_eq_ok_iff_needMet

/-- An instance that waits does so for a result of a job it needs. -/
theorem missing_of_wait {i : Instance} (h : f.readinessOf r i = .wait) :
    ∃ e ∈ f.graph.needsOf i.job,
      (∃ k ∈ f.instances, k.job = e.job ∧ r.result? k.id = none) ∨
        (∀ k ∈ f.instances, k.job ≠ e.job) ∧ r.result? e.job = none := by
  rw [readinessOf] at h
  have hne : f.readiness r (f.graph.needsOf i.job) ≠ .ok := by simp [h]
  obtain ⟨e, he, heq⟩ := exists_of_readiness_ne_ok hne
  rw [h] at heq
  exact ⟨e, he, mem_needed.mp (edgeState_eq_wait_iff.mp heq)⟩

end Frame

end MergeGate.Schedule
