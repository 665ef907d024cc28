/-
Promotion, by itself. A sweep looks at the instances in their order, and a dependent may stand before
what it needs; so promotion sweeps until a sweep finds nothing blocked. Whatever the order, the same
instances are skipped: those that are blocked by the results there are, those that are blocked once these
are skipped, and so on (`Doomed`). A visit skips only such instances (`Promoting`), since a word other than
`wait` never changes; and where no pending instance could be visited to any effect (`AtRest`), all of them
have been skipped (`Promoting.skipped_of_doomed`). So what is left at rest depends on nothing but the state
that promotion began with (`Promoting.alike`).

All this needs of the state is that results can be recorded (`Orderly`); which moments of a run have such a
state, and whether the run has been cancelled, does not matter.
-/
import MergeGate.Proofs.Schedule.Invariant
import MergeGate.Proofs.Schedule.Order

namespace MergeGate.Schedule

variable {f : Frame} {s t t' : State} {i : Instance}

/-! ## Instances bound to be blocked -/

/-- The run with these instances skipped as blocked. -/
def barring (r : Run) (ks : List Instance) : Run :=
  { r with results := r.results ++ ks.map (Result.skip · Reason.blocked) }

/-- A pending instance that is blocked when some others are skipped that are bound to be blocked. -/
inductive Doomed (f : Frame) (s : State) : Instance → Prop
  | intro {i : Instance} (ks : List Instance) (mem : i ∈ f.instances)
      (pending : s.phases.lookup i.id = some .pending) (barred : ∀ k ∈ ks, Doomed f s k)
      (unmet : f.readinessOf (barring s.run ks) i = .blocked) : Doomed f s i

theorem Doomed.mem (h : Doomed f s i) : i ∈ f.instances := by
  cases h with
  | intro ks mem pending barred unmet => exact mem

theorem Doomed.pending (h : Doomed f s i) : s.phases.lookup i.id = some .pending := by
  cases h with
  | intro ks mem pending barred unmet => exact pending

theorem result?_barring {r : Run} {ks : List Instance} {id : String} {x : Result}
    (h : (barring r ks).result? id = some x) :
    r.result? id = some x ∨ ∃ k ∈ ks, k.id = id ∧ x = .skip k Reason.blocked := by
  rw [barring, Run.result?, List.find?_append, Option.or_eq_some_iff] at h
  rcases h with hold | ⟨-, hnew⟩
  · exact .inl hold
  · obtain ⟨k, hk, rfl⟩ := List.mem_map.mp (List.mem_of_find?_eq_some hnew)
    exact .inr ⟨k, hk, by simpa [Result.skip] using List.find?_some hnew, rfl⟩

/-- A result under another id than those of the instances skipped is the old one. -/
theorem result?_barring_of_not_mem {r : Run} {ks : List Instance} {id : String} (h : ∀ k ∈ ks, k.id ≠ id) :
    (barring r ks).result? id = r.result? id := by
  have hnone : (ks.map (Result.skip · Reason.blocked)).find? (·.instanceId == id) = none := by
    simpa [List.find?_eq_none, Result.skip] using h
  rw [barring, Run.result?, List.find?_append, hnone, Option.or_none]
  rfl

/-! ## Visits -/

/-- A state in which what has a phase can be given a result. -/
structure Orderly (s : State) : Prop where
  unreported : s.run.report = none
  apart : ∀ id, (s.phases.lookup id).isSome → s.run.result? id = none
  once : (s.run.results.map (·.instanceId)).Nodup

/-- What visits make of a state: instances bound to be blocked are skipped, and of the other pending
ones some become ready, as their needs say. -/
structure Promoting (f : Frame) (s t : State) : Prop where
  run : ∃ ks, (∀ k ∈ ks, Doomed f s k) ∧ t.run = barring s.run ks
  kept : ∀ id, s.phases.lookup id ≠ some .pending → t.phases.lookup id = s.phases.lookup id
  fate : ∀ i ∈ f.instances, s.phases.lookup i.id = some .pending →
    t.phases.lookup i.id = some .pending ∨
    (t.phases.lookup i.id = some .ready ∧ f.readinessOf t.run i = .ok) ∨
    (t.phases.lookup i.id = none ∧ f.readinessOf t.run i = .blocked ∧
      t.run.result? i.id = some (.skip i Reason.blocked))

/-- No visit would change anything: every pending instance waits. -/
def AtRest (f : Frame) (s : State) : Prop :=
  ∀ i ∈ f.instances, s.phases.lookup i.id = some .pending → f.readinessOf s.run i = .wait

/-- What was skipped while visiting, recorded behind the rest. -/
def State.skipped (s : State) (i : Instance) : State :=
  ⟨s.phases.erase i.id, { s.run with results := s.run.results ++ [.skip i Reason.blocked] }⟩

theorem Orderly.record (h : Orderly s) (hi : (s.phases.lookup i.id).isSome) :
    s.record (.skip i Reason.blocked) = .ok (s.skipped i) := by
  have hrun : s.run.record (.skip i Reason.blocked) = .ok (s.skipped i).run :=
    Run.record_eq_ok_iff.mpr ⟨h.unreported, h.apart _ hi, rfl⟩
  rw [State.record, hrun]
  rfl

theorem Orderly.skipped (h : Orderly s) (hi : (s.phases.lookup i.id).isSome) : Orderly (s.skipped i) := by
  have hnone : s.run.result? i.id = none := h.apart _ hi
  refine ⟨h.unreported, fun id hid => ?_, ?_⟩
  · simp only [State.skipped, Assoc.lookup_erase] at hid
    split at hid
    · simp at hid
    · next hne =>
      simp only [State.skipped, Run.result?_append, h.apart id hid]
      exact if_neg fun he => hne he.symm
  · simp only [State.skipped, List.map_append, List.map_cons, List.map_nil]
    refine List.nodup_append.mpr ⟨h.once, by simp, fun a ha b hb he => ?_⟩
    obtain ⟨x, hx, rfl⟩ := List.mem_map.mp ha
    obtain rfl : b = i.id := List.mem_singleton.mp hb
    exact Run.result?_eq_none_iff.mp hnone x hx he

theorem Orderly.readied (h : Orderly s) (hi : (s.phases.lookup i.id).isSome) :
    Orderly (s.setPhase i.id .ready) := by
  refine ⟨h.unreported, fun id hid => h.apart id ?_, h.once⟩
  simp only [State.setPhase, Assoc.lookup_put] at hid
  split at hid
  · next he => exact he ▸ hi
  · exact hid

namespace Promoting

theorem refl (f : Frame) (s : State) : Promoting f s s :=
  ⟨⟨[], by simp, by simp [barring]⟩, fun _ _ => rfl, fun _ _ hp => .inl hp⟩

/-- What is pending was pending before. -/
theorem pending (h : Promoting f s t) {id : String} (ht : t.phases.lookup id = some .pending) :
    s.phases.lookup id = some .pending := by
  by_contra hs
  rw [h.kept id hs] at ht
  exact hs ht

theorem prefix_results (h : Promoting f s t) : s.run.results <+: t.run.results := by
  obtain ⟨ks, -, hrun⟩ := h.run
  rw [hrun]
  exact List.prefix_append _ _

section

variable (hd : ∀ i ∈ f.instances, ∀ k ∈ f.instances, i.id = k.id → i = k)
include hd

theorem readied (h : Promoting f s t) (hi : i ∈ f.instances) (hp : t.phases.lookup i.id = some .pending)
    (hmet : f.readinessOf t.run i = .ok) : Promoting f s (t.setPhase i.id .ready) := by
  refine ⟨h.run, fun id hid => ?_, fun k hk hkp => ?_⟩
  · have hne : id ≠ i.id := fun he => hid (he ▸ h.pending hp)
    simp only [State.setPhase, Assoc.lookup_put, if_neg hne]
    exact h.kept id hid
  · by_cases he : k.id = i.id
    · obtain rfl := hd k hk i hi he
      exact .inr (.inl ⟨Assoc.lookup_put_self _ _ _, hmet⟩)
    · simp only [State.setPhase, Assoc.lookup_put, if_neg he]
      exact h.fate k hk hkp

theorem skipped (h : Promoting f s t) (ho : Orderly t) (hi : i ∈ f.instances)
    (hp : t.phases.lookup i.id = some .pending) (hunmet : f.readinessOf t.run i = .blocked) :
    Promoting f s (t.skipped i) := by
  have hnone : t.run.result? i.id = none := ho.apart i.id (by simp [hp])
  have hmono : ∀ {k}, f.readinessOf t.run k ≠ .wait →
      f.readinessOf (t.skipped i).run k = f.readinessOf t.run k :=
    Frame.readinessOf_mono (List.prefix_append _ _)
  refine ⟨?_, fun id hid => ?_, fun k hk hkp => ?_⟩
  · obtain ⟨ks, hks, hrun⟩ := h.run
    have hnew : Doomed f s i := .intro ks hi (h.pending hp) hks (hrun ▸ hunmet)
    refine ⟨ks ++ [i], fun k hk => ?_, ?_⟩
    · rcases List.mem_append.mp hk with hk | hk
      · exact hks k hk
      · obtain rfl : k = i := by simpa using hk
        exact hnew
    · simp [State.skipped, hrun, barring]
  · have hne : id ≠ i.id := fun he => hid (he ▸ h.pending hp)
    simp only [State.skipped, Assoc.lookup_erase, if_neg hne]
    exact h.kept id hid
  · by_cases he : k.id = i.id
    · obtain rfl := hd k hk i hi he
      refine .inr (.inr ⟨by simp [State.skipped, Assoc.lookup_erase], ?_, ?_⟩)
      · rw [hmono (by simp [hunmet]), hunmet]
      · simp [State.skipped, Run.result?_append, hnone, Result.skip]
    · have hphase : (t.skipped i).phases.lookup k.id = t.phases.lookup k.id := by
        simp [State.skipped, Assoc.lookup_erase, he]
      rw [hphase]
      refine (h.fate k hk hkp).imp_right (Or.imp (fun hready => ?_) fun hskipped => ?_)
      · exact ⟨hready.1, by rw [hmono (by simp [hready.2]), hready.2]⟩
      · exact ⟨hskipped.1, by rw [hmono (by simp [hskipped.2.1]), hskipped.2.1],
          Run.result?_mono (List.prefix_append _ _) hskipped.2.2⟩

/-- **One visit.** A visit never fails, and goes on with what the visits before it have done. -/
theorem visit {w : Sweep} (h : Promoting f s w.state) (ho : Orderly w.state) (hi : i ∈ f.instances) :
    ∃ v, f.visit w i = .ok v ∧ Orderly v.state ∧ Promoting f s v.state := by
  by_cases hp : w.state.phases.lookup i.id = some .pending
  · have hsome : (w.state.phases.lookup i.id).isSome := by simp [hp]
    simp only [Frame.visit, hp]
    cases hr : f.readinessOf w.state.run i with
    | wait => exact ⟨w, by simp, ho, h⟩
    | ok => exact ⟨_, by simp; rfl, ho.readied hsome, h.readied hd hi hp hr⟩
    | blocked =>
      simp only [ho.record hsome]
      exact ⟨_, by simp; rfl, ho.skipped hsome, h.skipped hd ho hi hp hr⟩
  · exact ⟨w, by simp [Frame.visit, hp], ho, h⟩

/-- **Any visits,** in whatever order. -/
theorem sweep : ∀ {is : List Instance} {w : Sweep}, Promoting f s w.state → Orderly w.state →
    (∀ i ∈ is, i ∈ f.instances) → ∃ v, f.sweep w is = .ok v ∧ Orderly v.state ∧ Promoting f s v.state
  | [], w, h, ho, _ => ⟨w, rfl, ho, h⟩
  | i :: rest, w, h, ho, his => by
    have hrest : ∀ k ∈ rest, k ∈ f.instances := fun k hk => his k (List.mem_cons_of_mem _ hk)
    obtain ⟨u, hu, hou, hpu⟩ := h.visit hd ho (his i (by simp))
    obtain ⟨v, hv, hov, hpv⟩ := hpu.sweep hou hrest
    exact ⟨v, by rw [Frame.sweep, hu]; exact hv, hov, hpv⟩

end

/-! ## Where visits end -/

/-- Instances bound to be blocked have been skipped. -/
theorem skipped_of_doomed (h : Promoting f s t) (hrest : AtRest f t) (hi : Doomed f s i) :
    t.phases.lookup i.id = none ∧ t.run.result? i.id = some (.skip i Reason.blocked) := by
  induction hi with
  | @intro i ks mem pending barred unmet ih =>
    -- the skips that block it have all been made, and no result made since can take that back
    have hfound : ∀ id x, (barring s.run ks).result? id = some x → t.run.result? id = some x := by
      intro id x hx
      rcases result?_barring hx with hold | ⟨k, hk, rfl, rfl⟩
      · exact Run.result?_mono h.prefix_results hold
      · exact (ih k hk).2
    have hblocked : f.readinessOf t.run i = .blocked := by
      rw [Frame.readinessOf_of_found hfound (by simp [unmet]), unmet]
    rcases h.fate i mem pending with hp | ⟨_, hok⟩ | ⟨hnone, _, hres⟩
    · rw [hrest i mem hp] at hblocked
      cases hblocked
    · rw [hok] at hblocked
      cases hblocked
    · exact ⟨hnone, hres⟩

/-- At rest, the phase of what was pending is what its needs say. -/
theorem phase_eq (h : Promoting f s t) (hrest : AtRest f t) (hi : i ∈ f.instances)
    (hp : s.phases.lookup i.id = some .pending) : t.phases.lookup i.id =
      match f.readinessOf t.run i with
      | .wait => some .pending
      | .ok => some .ready
      | .blocked => none := by
  rcases h.fate i hi hp with hpending | ⟨hready, hok⟩ | ⟨hnone, hblocked, _⟩
  · rw [hrest i hi hpending, hpending]
  · rw [hok, hready]
  · rw [hblocked, hnone]

/-- Whatever result visits have led to, they lead to whenever they come to rest. -/
theorem found (h : Promoting f s t) (h' : Promoting f s t') (hrest : AtRest f t') (id : String) (x : Result)
    (hx : t.run.result? id = some x) : t'.run.result? id = some x := by
  obtain ⟨ks, hks, hrun⟩ := h.run
  rw [hrun] at hx
  rcases result?_barring hx with hold | ⟨k, hk, rfl, rfl⟩
  · exact Run.result?_mono h'.prefix_results hold
  · exact (h'.skipped_of_doomed hrest (hks k hk)).2

end Promoting

/-- The same phases, and the same results in some order; all else is the same. -/
structure Alike (s t : State) : Prop where
  phases : ∀ id, s.phases.lookup id = t.phases.lookup id
  results : s.run.results.Perm t.run.results
  rest : s.run = { t.run with results := s.run.results }

/-- **One outcome.** Visits that come to rest lead to one state, in whatever order they are made. -/
theorem Promoting.alike (hs : ∀ id, (s.phases.lookup id).isSome → ∃ i ∈ f.instances, i.id = id)
    (h : Promoting f s t) (ho : Orderly t) (hrest : AtRest f t)
    (h' : Promoting f s t') (ho' : Orderly t') (hrest' : AtRest f t') : Alike t t' := by
  have hsame : ∀ id, t.run.result? id = t'.run.result? id := by
    intro id
    cases hx : t.run.result? id with
    | some x => exact (h.found h' hrest' id x hx).symm
    | none =>
      cases hy : t'.run.result? id with
      | none => rfl
      | some y =>
        rw [h'.found h hrest id y hy] at hx
        cases hx
  constructor
  · intro id
    by_cases hp : s.phases.lookup id = some .pending
    · obtain ⟨i, hi, rfl⟩ := hs id (by simp [hp])
      have hword : f.readinessOf t.run i = f.readinessOf t'.run i :=
        Frame.readinessOf_congr rfl (fun _ => Iff.rfl) hsame i
      rw [h.phase_eq hrest hi hp, h'.phase_eq hrest' hi hp, hword]
    · rw [h.kept id hp, h'.kept id hp]
  · refine (List.perm_ext_iff_of_nodup ho.once.of_map ho'.once.of_map).mpr fun x => ?_
    constructor
    · intro hx
      have hfound := Run.result?_of_mem ho.once hx
      rw [hsame] at hfound
      exact (Run.result?_eq_some hfound).1
    · intro hx
      have hfound := Run.result?_of_mem ho'.once hx
      rw [← hsame] at hfound
      exact (Run.result?_eq_some hfound).1
  · obtain ⟨ks, _, hrun⟩ := h.run
    obtain ⟨ks', _, hrun'⟩ := h'.run
    rw [hrun, hrun']
    rfl

/-! ## The sweeps of one promotion -/

/-- Sweeps until one finds nothing blocked, as many as it takes. -/
inductive Frame.Sweeps (f : Frame) : State → State → List Notice → Prop
  | last {s : State} {v : Sweep} (swept : f.sweep { state := s } f.instances = .ok v)
      (quiet : v.changed = false) : Sweeps f s v.state v.notices
  | again {s t : State} {v : Sweep} {ns : List Notice}
      (swept : f.sweep { state := s } f.instances = .ok v) (found : v.changed = true)
      (next : Sweeps f v.state t ns) : Sweeps f s t (v.notices ++ ns)

/-- What a visit has not changed. -/
theorem visit_quiet {w v : Sweep} (h : f.visit w i = .ok v) (hv : v.changed = false) :
    w.changed = false ∧ v.state.run = w.state.run ∧
      (∀ id, v.state.phases.lookup id = some .pending → w.state.phases.lookup id = some .pending) ∧
      (v.state.phases.lookup i.id = some .pending → f.readinessOf v.state.run i = .wait) := by
  unfold Frame.visit at h
  split at h
  · next hp =>
    cases h
    exact ⟨hv, rfl, fun _ => id, fun hpending => absurd hpending hp⟩
  · split at h
    · next hwait =>
      cases h
      exact ⟨hv, rfl, fun _ => id, fun _ => hwait⟩
    · cases h
      refine ⟨hv, rfl, fun id hid => ?_, fun hpending => ?_⟩
      · simp only [State.setPhase, Assoc.lookup_put] at hid
        split at hid
        · cases hid
        · exact hid
      · simp [State.setPhase, Assoc.lookup_put] at hpending
    · simp only [bind_eq_ok, pure_eq_ok] at h
      obtain ⟨state, -, rfl⟩ := h
      cases hv

/-- A sweep that finds nothing blocked leaves what it has visited waiting, if it is pending still. -/
theorem sweep_quiet : ∀ {is : List Instance} {w v : Sweep}, f.sweep w is = .ok v → v.changed = false →
    w.changed = false ∧ v.state.run = w.state.run ∧
      (∀ id, v.state.phases.lookup id = some .pending → w.state.phases.lookup id = some .pending) ∧
      ∀ i ∈ is, v.state.phases.lookup i.id = some .pending → f.readinessOf v.state.run i = .wait
  | [], w, v, h, hv => by
    cases h
    exact ⟨hv, rfl, fun _ => id, by simp⟩
  | i :: rest, w, v, h, hv => by
    simp only [Frame.sweep, Except.bind_eq_ok] at h
    obtain ⟨u, hu, h⟩ := h
    obtain ⟨hch, hrun, hpending, hrest⟩ := sweep_quiet h hv
    obtain ⟨hch', hrun', hpending', hi⟩ := visit_quiet hu hch
    refine ⟨hch', hrun.trans hrun', fun id hid => hpending' id (hpending id hid), fun k hk hkp => ?_⟩
    rcases List.mem_cons.mp hk with rfl | hk
    · rw [hrun]
      exact hi (hpending _ hkp)
    · exact hrest k hk hkp

/-- **A promotion.** A sweep that finds something blocked takes a phase away, so the sweeps come to an end,
and no limit on their number that allows for one more than there are phases is felt. -/
theorem promoteFor_sweeps (hd : ∀ i ∈ f.instances, ∀ k ∈ f.instances, i.id = k.id → i = k) :
    ∀ {fuel : Nat} {u : State}, u.phases.length < fuel → Promoting f s u → Orderly u →
      ∃ t ns, f.promoteFor fuel u = .ok (t, ns) ∧ f.Sweeps u t ns ∧ Orderly t ∧ Promoting f s t ∧ AtRest f t
  | 0, u, hfuel, _, _ => by omega
  | fuel + 1, u, hfuel, h, ho => by
    obtain ⟨v, hv, hov, hpv⟩ := Promoting.sweep hd (w := { state := u }) h ho fun i hi => hi
    rw [promoteFor_succ hv]
    cases hc : v.changed with
    | false =>
      obtain ⟨-, -, -, hrest⟩ := sweep_quiet hv hc
      exact ⟨v.state, v.notices, rfl, .last hv hc, hov, hpv, hrest⟩
    | true =>
      -- `changed` says that something was skipped, and so lost its phase
      have hless : v.state.phases.length < u.phases.length := by
        rcases (sweep_length hv).2 hc with hc | hlt
        · cases hc
        · exact hlt
      have hfuel' : v.state.phases.length < fuel := by omega
      obtain ⟨t, ns, ht, hsweeps, hot, hpt, hrest⟩ := promoteFor_sweeps hd hfuel' hpv hov
      refine ⟨t, v.notices ++ ns, ?_, .again hv hc hsweeps, hot, hpt, hrest⟩
      simp [ht, Except.map]

/-- What one promotion makes of a state. -/
structure Promoted (f : Frame) (s t : State) : Prop where
  /-- the instances bound to be blocked get their results, and nothing else changes in the run -/
  run : ∃ ks : List Instance, ks.Nodup ∧ (∀ k, k ∈ ks ↔ Doomed f s k) ∧ t.run = barring s.run ks
  /-- what was not pending is left alone -/
  kept : ∀ id, s.phases.lookup id ≠ some .pending →
    t.phases.lookup id = s.phases.lookup id ∧ t.run.result? id = s.run.result? id
  /-- what was pending is pending still, is ready or has been skipped, as its needs say in the end -/
  fate : ∀ i ∈ f.instances, s.phases.lookup i.id = some .pending →
    match f.readinessOf t.run i with
    | .wait => t.phases.lookup i.id = some .pending ∧ t.run.result? i.id = none
    | .ok => t.phases.lookup i.id = some .ready ∧ t.run.result? i.id = none
    | .blocked => t.phases.lookup i.id = none ∧ t.run.result? i.id = some (.skip i Reason.blocked)
  /-- nothing is left to do -/
  rest : AtRest f t

theorem Promoting.promoted (hd : ∀ i ∈ f.instances, ∀ k ∈ f.instances, i.id = k.id → i = k)
    (hs : Orderly s) (h : Promoting f s t) (ho : Orderly t) (hrest : AtRest f t) : Promoted f s t := by
  obtain ⟨ks, hks, hrun⟩ := h.run
  refine ⟨⟨ks, ?_, fun k => ⟨hks k, fun hk => ?_⟩, hrun⟩, fun id hid => ⟨h.kept id hid, ?_⟩,
    fun i hi hp => ?_, hrest⟩
  -- no id has two results, so no instance is skipped twice
  · have honce := ho.once
    rw [hrun, barring, List.map_append, List.map_map] at honce
    exact (List.nodup_append.mp honce).2.1.of_map
  -- what is bound to be blocked has its result in the end and had none before: it is one of those skipped
  · have hnone : s.run.result? k.id = none := hs.apart k.id (by simp [hk.pending])
    have hfound := (h.skipped_of_doomed hrest hk).2
    rw [hrun] at hfound
    rcases result?_barring hfound with hold | ⟨k', hk', hid, -⟩
    · rw [hnone] at hold
      cases hold
    · exact hd k' (hks k' hk').mem k hk.mem hid ▸ hk'
  · rw [hrun]
    exact result?_barring_of_not_mem fun k hk he => hid (he ▸ (hks k hk).pending)
  · rcases h.fate i hi hp with hpending | ⟨hready, hok⟩ | ⟨hnone, hblocked, hres⟩
    · rw [hrest i hi hpending]
      exact ⟨hpending, ho.apart i.id (by simp [hpending])⟩
    · rw [hok]
      exact ⟨hready, ho.apart i.id (by simp [hready])⟩
    · rw [hblocked]
      exact ⟨hnone, hres⟩

/-! ## Another listing -/

/-- The same graph and the same instances, listed in another order. -/
structure Frame.Relists (f' f : Frame) : Prop where
  graph : f'.graph = f.graph
  mem : ∀ i, i ∈ f'.instances ↔ i ∈ f.instances

section

variable {f' : Frame} (hf : f'.Relists f)
include hf

theorem Frame.Relists.readinessOf_eq (r : Run) (i : Instance) : f'.readinessOf r i = f.readinessOf r i :=
  Frame.readinessOf_congr hf.graph hf.mem (fun _ => rfl) i

theorem Doomed.relisted (h : Doomed f' s i) : Doomed f s i := by
  induction h with
  | intro ks mem pending barred unmet ih =>
    rw [hf.readinessOf_eq] at unmet
    exact .intro ks ((hf.mem _).mp mem) pending ih unmet

theorem Promoting.relisted (h : Promoting f' s t) : Promoting f s t := by
  obtain ⟨ks, hks, hrun⟩ := h.run
  refine ⟨⟨ks, fun k hk => (hks k hk).relisted hf, hrun⟩, h.kept, fun i hi hp => ?_⟩
  rw [← hf.readinessOf_eq]
  exact h.fate i ((hf.mem i).mpr hi) hp

theorem AtRest.relisted (h : AtRest f' s) : AtRest f s := by
  intro i hi hp
  rw [← hf.readinessOf_eq]
  exact h i ((hf.mem i).mpr hi) hp

end

/-! ## Scheduled runs -/

theorem Inv.orderly {P : Instance → Result → Prop} {r₀ : Run} {c : Config} (h : Inv f P r₀ c) :
    Orderly c.state :=
  ⟨h.ledger.unreported, h.phased.apart, h.ledger.once⟩

/-- **One promotion is enough.** At any moment of a planned run promotion succeeds, and its sweeps come to
an end. It changes pending instances only, and leaves none that could become ready or be skipped: chains of
dependents are skipped to their ends. The order does not matter: any visits that leave nothing to do lead to
the same phases and results, and so does promotion where the instances are listed in another order. -/
theorem promote_settles {σ : Type} {w : World σ} {world : σ} {wf : Workflow} {g : JobGraph}
    {trigger : Trigger} {id : String} {r : Run} {ns : List Notice} {workers : Nat}
    (hb : JobGraph.build wf = .ok g) (hp : Plan.plan g trigger id = .ok (r, ns))
    (hd : (r.instances.map (·.id)).Nodup) (hn : 1 ≤ workers)
    (hw : w.Yields (frame g r workers) ((frame g r workers).outset r world) fun i x => x.instanceId = i.id)
    {p : Point σ} (hreach : w.Reaches (frame g r workers) ((frame g r workers).outset r world) p) :
    ∃ t notices, (frame g r workers).promote p.machine.state = .ok (t, notices) ∧
      (frame g r workers).Sweeps p.machine.state t notices ∧
      Promoted (frame g r workers) p.machine.state t ∧
      (∀ order : List Instance, (∀ i ∈ order, i ∈ r.instances) →
        ∃ v, (frame g r workers).sweep { state := p.machine.state } order = .ok v ∧
          (AtRest (frame g r workers) v.state → Alike v.state t)) ∧
      ∀ order : List Instance, order.Perm r.instances →
        ∃ t' notices', Frame.promote { frame g r workers with instances := order } p.machine.state =
          .ok (t', notices') ∧ Alike t' t := by
  have hset := Setting.of_plan hb hp hn
  have hinj := hset.eq_of_id hd
  have hinv := (reaches_sound hset hw (fun _ _ h => h) hreach).inv
  have howned : ∀ id, (p.machine.state.phases.lookup id).isSome →
      ∃ i ∈ (frame g r workers).instances, i.id = id := hinv.phased.owned
  have ho : Orderly p.machine.state := hinv.orderly
  obtain ⟨t, notices, ht, hsweeps, hot, hpt, hrest⟩ :=
    promoteFor_sweeps hinj (Nat.lt_succ_self _) (.refl _ p.machine.state) ho
  have hpromoted : Promoted (frame g r workers) p.machine.state t := hpt.promoted hinj ho hot hrest
  refine ⟨t, notices, ht, hsweeps, hpromoted, fun order horder => ?_, fun order horder => ?_⟩
  · obtain ⟨v, hv, hov, hpv⟩ := Promoting.sweep hinj (w := { state := p.machine.state }) (.refl _ _) ho
      fun i hi => (hset.mem i).mpr (horder i hi)
    exact ⟨v, hv, fun hvrest => hpv.alike howned hov hvrest hpt hot hrest⟩
  · have hrelists : Frame.Relists { frame g r workers with instances := order } (frame g r workers) :=
      ⟨rfl, fun i => horder.mem_iff.trans (hset.mem i).symm⟩
    obtain ⟨t', notices', ht', -, hot', hpt', hrest'⟩ :=
      promoteFor_sweeps (f := { frame g r workers with instances := order })
        (fun i hi k hk => hinj i ((hrelists.mem i).mp hi) k ((hrelists.mem k).mp hk))
        (Nat.lt_succ_self _) (.refl _ p.machine.state) ho
    have hsame : Alike t' t :=
      (hpt'.relisted hrelists).alike howned hot' (hrest'.relisted hrelists) hpt hot hrest
    exact ⟨t', notices', ht', hsame⟩

/-- A chain declared from its end, on a branch for which its first job does not run. -/
def chainSample : Workflow where
  name := "gate"
  jobs := [
    { id := "deploy", steps := [{ name := "deploy", run := some "deploy" }], needs := [{ job := "build" }] },
    { id := "build", steps := [{ name := "build", run := some "build" }], needs := [{ job := "fetch" }] },
    { id := "fetch", steps := [{ name := "fetch", run := some "fetch" }],
      condition := .glob (.text "branch") (.text "release") },
    { id := "lint", steps := [{ name := "lint", run := some "lint" }] },
    { id := "notify", steps := [{ name := "notify", run := some "notify" }],
      needs := [{ job := "lint", require := some "completion" }] }]

/-- The whole chain is skipped in one promotion, although each job stands before the one it needs. -/
theorem promote_settles_chain : ∃ g r ns t notices, JobGraph.build chainSample = .ok g ∧
    Plan.plan g Plan.samplePush "1" = .ok (r, ns) ∧ (r.instances.map (·.id)).Nodup ∧
    (frame g r 2).promote ((frame g r 2).start r) = .ok (t, notices) ∧
    Promoted (frame g r 2) ((frame g r 2).start r) t ∧
    t.run.results.map (·.instanceId) = ["fetch", "build", "deploy"] ∧
    t.phases = [("lint", .ready), ("notify", .pending)] := by
  have hall : ((JobGraph.build chainSample).toOption.bind fun g =>
      (Plan.plan g Plan.samplePush "1").toOption.bind fun p =>
        let f : Frame := ⟨g, p.1.instances, 2⟩
        (f.promote (f.start p.1)).toOption.map fun q =>
          (decide (f.instances.Pairwise fun a b => before g a b), p.1.instances.map (·.id),
            q.1.run.results.map (·.instanceId), q.1.phases)) =
      some (true, ["deploy", "build", "lint", "notify"], ["fetch", "build", "deploy"],
        [("lint", .ready), ("notify", .pending)]) := by decide +kernel
  obtain ⟨g, hg, hall⟩ := Option.bind_eq_some_iff.mp hall
  obtain ⟨⟨r, ns⟩, hr, hall⟩ := Option.bind_eq_some_iff.mp hall
  obtain ⟨⟨u, more⟩, hu, hall⟩ := Option.map_eq_some_iff.mp hall
  simp only [Prod.mk.injEq, decide_eq_true_eq] at hall
  obtain ⟨hsorted, hids, hresults, hphases⟩ := hall
  have hframe : frame g r 2 = ⟨g, r.instances, 2⟩ := by
    rw [frame, inOrder_eq_self hsorted]
  rw [← hframe] at hu
  have hb := eq_ok_of_toOption hg
  have hp := eq_ok_of_toOption hr
  have hd : (r.instances.map (·.id)).Nodup := hids ▸ by decide
  have hw : World.hostile.Yields (frame g r 2) ((frame g r 2).outset r 0) fun i x => x.instanceId = i.id :=
    World.patient_yields fun _ => rfl
  obtain ⟨t, notices, ht, -, hpromoted, -⟩ := promote_settles hb hp hd (show 1 ≤ 2 by decide) hw .refl
  obtain ⟨rfl, rfl⟩ : u = t ∧ more = notices := by
    have hsame := (eq_ok_of_toOption hu).symm.trans ht
    simpa using hsame
  exact ⟨g, r, ns, u, more, hb, hp, hd, ht, hpromoted, hresults, hphases⟩

end MergeGate.Schedule
