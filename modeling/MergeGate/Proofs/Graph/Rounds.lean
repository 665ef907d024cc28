/-
Staging by counting down is staging by needs. `place` is the plain version: a stage holds the jobs
whose needs are all placed. Counting finds the same stages, because after each round a job's count is
the number of its needs that are not placed yet (`rounds_eq_place`). In which order the dependents of a
job are gone through has no part in it (`stagesAlong_eq_place`).
-/
import Mathlib.Data.List.Sort
import MergeGate.Graph.Staging
import MergeGate.Proofs.Assoc
import MergeGate.Proofs.Basic

namespace MergeGate.Staging

/-! ## Staging by needs -/

/-- Is everything the job needs among the placed jobs? -/
def isReady (placed : List String) (j : Job) : Bool := j.needIds.all placed.contains

/-- The remaining jobs that can be placed. -/
def ready (placed : List String) (remaining : List Job) : List Job :=
  remaining.filter (isReady placed)

/-- The remaining jobs that cannot be placed yet. -/
def waiting (placed : List String) (remaining : List Job) : List Job :=
  remaining.filter fun j => !isReady placed j

theorem waiting_length_lt {placed : List String} {remaining : List Job}
    (h : ready placed remaining ≠ []) :
    (waiting placed remaining).length < remaining.length := by
  obtain ⟨j, hj⟩ := List.exists_mem_of_ne_nil _ h
  have hj' := List.mem_filter.1 hj
  exact List.length_filter_lt_length_iff_exists.2 ⟨j, hj'.1, by simp [hj'.2]⟩

/-- Place the remaining jobs stage by stage: the stages, and the jobs that no stage can take. -/
def place (placed : List String) (remaining : List Job) : List (List String) × List String :=
  if _h : (ready placed remaining).isEmpty then ([], remaining.map (·.id))
  else
    let stage := (ready placed remaining).map (·.id)
    let (stages, stuck) := place (placed ++ stage) (waiting placed remaining)
    (stage :: stages, stuck)
termination_by remaining.length
decreasing_by exact waiting_length_lt (by simpa using _h)

theorem isReady_iff {placed : List String} {j : Job} :
    isReady placed j = true ↔ ∀ n ∈ j.needIds, n ∈ placed := by
  simp [isReady, List.all_eq_true]

theorem isReady_mono {placed more : List String} (h : placed ⊆ more) {j : Job}
    (hj : isReady placed j = true) : isReady more j = true :=
  isReady_iff.2 fun n hn => h (isReady_iff.1 hj n hn)

theorem mem_ready {placed : List String} {remaining : List Job} {j : Job} :
    j ∈ ready placed remaining ↔ j ∈ remaining ∧ ∀ n ∈ j.needIds, n ∈ placed := by
  rw [ready, List.mem_filter, isReady_iff]

theorem mem_waiting {placed : List String} {remaining : List Job} {j : Job} :
    j ∈ waiting placed remaining ↔ j ∈ remaining ∧ ¬ ∀ n ∈ j.needIds, n ∈ placed := by
  rw [waiting, List.mem_filter, Bool.not_eq_true', ← Bool.not_eq_true, isReady_iff]

/-- A job that waits is not in the stage being placed: its id is nobody else's. -/
theorem waiting_not_mem_stage {placed : List String} {remaining : List Job}
    (hd : (remaining.map (·.id)).Nodup) {j : Job} (hj : j ∈ waiting placed remaining) :
    j.id ∉ (ready placed remaining).map (·.id) := by
  intro hmem
  obtain ⟨k, hk, hid⟩ := List.mem_map.mp hmem
  obtain ⟨hjr, hjn⟩ := mem_waiting.mp hj
  obtain ⟨hkr, hkn⟩ := mem_ready.mp hk
  have hjk : k = j := List.inj_on_of_nodup_map hd hkr hjr hid
  exact hjn (hjk ▸ hkn)

/-! ## Counts -/

/-- How many of a job's needs are not placed. -/
def unmet (placed : List String) (j : Job) : Nat := j.needIds.countP fun n => !placed.contains n

/-- The counts of all jobs when these are placed. -/
def countsAt (jobs : List Job) (placed : List String) : Assoc Nat :=
  jobs.map fun j => (j.id, unmet placed j)

section

variable {jobs : List Job} {placed : List String}

theorem needCounts_eq (jobs : List Job) : needCounts jobs = countsAt jobs [] := by
  simp [needCounts, countsAt, unmet]

theorem keys_countsAt : (countsAt jobs placed).keys = jobs.map (·.id) := by
  simp [countsAt, Assoc.keys, Function.comp_def]

theorem unmet_eq_zero_iff {j : Job} : unmet placed j = 0 ↔ isReady placed j = true := by
  rw [unmet, List.countP_eq_zero, isReady_iff]
  simp

theorem stuck_countsAt : stuck (countsAt jobs placed) = (waiting placed jobs).map (·.id) := by
  have hbool : ∀ j, (unmet placed j != 0) = !isReady placed j := fun j => by
    rw [Bool.eq_iff_iff, bne_iff_ne, ne_eq, unmet_eq_zero_iff, Bool.not_eq_true, Bool.not_eq_true']
  simp [stuck, countsAt, Assoc.keys, List.filter_map, Function.comp_def, waiting, hbool]

theorem free_countsAt : free (countsAt jobs placed) = (ready placed jobs).map (·.id) := by
  have hbool : ∀ j, (unmet placed j == 0) = isReady placed j := fun j => by
    rw [Bool.eq_iff_iff, beq_iff_eq, unmet_eq_zero_iff]
  simp [free, countsAt, Assoc.keys, List.filter_map, Function.comp_def, ready, hbool]

/-- Placing one more job lowers the count of those that need it, by one. -/
theorem unmet_append {j : Job} {a : String} (ha : a ∉ placed) :
    unmet (placed ++ [a]) j = if a ∈ j.needIds then unmet placed j - 1 else unmet placed j := by
  have hcount : ∀ l : List String, l.Nodup →
      l.countP (fun n => !(placed ++ [a]).contains n) + (if a ∈ l then 1 else 0) =
        l.countP fun n => !placed.contains n := by
    intro l hl
    induction l with
    | nil => simp
    | cons n l ih =>
      have ih := ih hl.of_cons
      have hn := (List.nodup_cons.1 hl).1
      by_cases hna : n = a
      · subst hna
        simp [ha, hn] at ih ⊢
        omega
      · by_cases hp : n ∈ placed <;>
          simp [hna, Ne.symm hna, hp] at ih ⊢ <;> omega
  have h := hcount j.needIds (Text.nodup_eraseDups _)
  unfold unmet
  split at h
  · next hmem =>
    rw [if_pos hmem]
    omega
  · next hmem =>
    rw [if_neg hmem]
    omega

/-- What placing one more job sets free is what waited for that job only. -/
theorem freed_iff {j : Job} {a : String} (ha : a ∉ placed) : a ∈ j.needIds ∧ unmet placed j = 1 ↔
    isReady (placed ++ [a]) j = true ∧ isReady placed j = false := by
  rw [← unmet_eq_zero_iff, unmet_append ha, Bool.eq_false_iff, ne_eq, ← unmet_eq_zero_iff]
  by_cases haj : a ∈ j.needIds
  · simp only [haj, true_and, if_true]
    omega
  · simp only [haj, false_and, if_false, false_iff]
    omega

theorem lookup_countsAt (hd : (jobs.map (·.id)).Nodup) {j : Job} (hj : j ∈ jobs) :
    (countsAt jobs placed).lookup j.id = some (unmet placed j) := by
  rw [Assoc.lookup_eq_some_iff (by rw [keys_countsAt]; exact hd)]
  exact List.mem_map.2 ⟨j, hj, rfl⟩

end

/-! ## A job is placed -/

theorem Tally.lower_eq {t : Tally} {c : String} {n : Nat} (hd : t.counts.keys.Nodup)
    (hn : t.counts.lookup c = some n) : t.lower c =
      { counts := t.counts.map fun p => (p.1, if p.1 = c then p.2 - 1 else p.2)
        freed := if n = 1 then t.freed ++ [c] else t.freed } := by
  have hc : c ∈ t.counts.keys := Assoc.isSome_lookup_iff.1 (by rw [hn]; rfl)
  have hput : Assoc.put c (n - 1) t.counts =
      t.counts.map fun p => (p.1, if p.1 = c then p.2 - 1 else p.2) := by
    rw [Assoc.put_eq_map _ hd hc]
    refine List.map_congr_left fun p hp => ?_
    by_cases he : p.1 = c
    · have hp' : t.counts.lookup c = some p.2 := (Assoc.lookup_eq_some_iff hd).2 (he ▸ hp)
      rw [hn, Option.some.injEq] at hp'
      simp [he, hp']
    · simp [he]
  simp only [lower, hn, hput]

/-- Lowering distinct jobs takes one from the count of each, and sets those free that waited for one
job only. -/
theorem Tally.lowerAll {cs : List String} (hcs : cs.Nodup) : ∀ {t : Tally}, t.counts.keys.Nodup →
    (∀ c ∈ cs, c ∈ t.counts.keys) → cs.foldl Tally.lower t =
      { counts := t.counts.map fun p => (p.1, if p.1 ∈ cs then p.2 - 1 else p.2)
        freed := t.freed ++ cs.filter fun c => t.counts.lookup c == some 1 } := by
  induction cs with
  | nil => simp
  | cons c cs ih =>
    intro t hd hmem
    obtain ⟨hc, hcs⟩ := List.nodup_cons.1 hcs
    obtain ⟨n, hn⟩ := Option.isSome_iff_exists.1 (Assoc.isSome_lookup_iff.2 (hmem c (by simp)))
    have hlower := lower_eq hd hn
    have hkeys : (t.lower c).counts.keys = t.counts.keys := by
      simp [hlower, Assoc.keys, Function.comp_def]
    have hother : ∀ d ∈ cs, (t.lower c).counts.lookup d = t.counts.lookup d := fun d hdc => by
      have hne : d ≠ c := fun he => hc (he ▸ hdc)
      simp only [lower, hn, Assoc.lookup_put, if_neg hne]
    have hfilter : cs.filter (fun d => (t.lower c).counts.lookup d == some 1) =
        cs.filter fun d => t.counts.lookup d == some 1 :=
      List.filter_congr fun d hdc => by rw [hother d hdc]
    rw [List.foldl_cons, ih hcs (hkeys ▸ hd) fun d hdc => hkeys ▸ hmem d (by simp [hdc]), hfilter, hlower]
    have hcounts : ∀ p : String × Nat, (if p.1 ∈ cs then (if p.1 = c then p.2 - 1 else p.2) - 1
        else if p.1 = c then p.2 - 1 else p.2) = if p.1 ∈ c :: cs then p.2 - 1 else p.2 := fun p => by
      by_cases he : p.1 = c
      · simp [he, hc]
      · simp [he]
    simp only [List.map_map, Function.comp_def, hcounts, Tally.mk.injEq, true_and]
    by_cases h1 : n = 1 <;> simp [hn, h1]

/-- Lists of dependents in whatever order: what two maps hold for each job are the same jobs. -/
def Reordered (deps deps' : Assoc (List String)) : Prop :=
  ∀ a, ((deps.lookup a).getD []).Perm ((deps'.lookup a).getD [])

section

variable {jobs : List Job} {deps : Assoc (List String)}

theorem lookup_dependents (jobs : List Job) (a : String) : (dependents jobs).lookup a =
    if a ∈ jobs.map (·.id) then some ((jobs.filter fun k => k.needIds.contains a).map (·.id)) else none := by
  rw [dependents]
  exact Assoc.lookup_keyed _ (fun id => (jobs.filter fun k => k.needIds.contains id).map (·.id)) a jobs

theorem Reordered.nodup (h : Reordered deps (dependents jobs)) (hd : (jobs.map (·.id)).Nodup) (a : String) :
    ((deps.lookup a).getD []).Nodup := by
  rw [(h a).nodup_iff, lookup_dependents]
  split
  · exact hd.sublist (List.filter_sublist.map _)
  · simp

theorem Reordered.mem (h : Reordered deps (dependents jobs)) {a : String} (ha : a ∈ jobs.map (·.id))
    {c : String} : c ∈ (deps.lookup a).getD [] ↔ ∃ j ∈ jobs, a ∈ j.needIds ∧ j.id = c := by
  rw [(h a).mem_iff, lookup_dependents, if_pos ha]
  simp [and_assoc]

/-- These are, each once, the jobs that can be placed after and could not be before. -/
structure Freed (jobs : List Job) (before after freed : List String) : Prop where
  nodup : freed.Nodup
  mem : ∀ c, c ∈ freed ↔ ∃ j ∈ jobs, j.id = c ∧ isReady after j = true ∧ isReady before j = false

theorem Freed.refl (jobs : List Job) (placed : List String) : Freed jobs placed placed [] :=
  ⟨List.nodup_nil, fun c => by simp⟩

theorem Freed.trans (hd : (jobs.map (·.id)).Nodup) {before placed after xs ys : List String}
    (h₁ : before ⊆ placed) (h₂ : placed ⊆ after) (hx : Freed jobs before placed xs)
    (hy : Freed jobs placed after ys) : Freed jobs before after (xs ++ ys) := by
  refine ⟨List.nodup_append.2 ⟨hx.nodup, hy.nodup, ?_⟩, fun c => ?_⟩
  · rintro c hcx _ hcy rfl
    obtain ⟨j, hj, hjc, hjr, -⟩ := (hx.mem c).1 hcx
    obtain ⟨k, hk, hkc, -, hkr⟩ := (hy.mem c).1 hcy
    obtain rfl := List.inj_on_of_nodup_map hd hj hk (hjc.trans hkc.symm)
    simp [hjr] at hkr
  · rw [List.mem_append, hx.mem, hy.mem]
    constructor
    · rintro (⟨j, hj, hid, hr, hb⟩ | ⟨j, hj, hid, hr, hb⟩)
      · exact ⟨j, hj, hid, isReady_mono h₂ hr, hb⟩
      · refine ⟨j, hj, hid, hr, ?_⟩
        by_contra hne
        rw [isReady_mono h₁ (by simpa using hne)] at hb
        cases hb
    · rintro ⟨j, hj, hid, hr, hb⟩
      cases hp : isReady placed j with
      | true => exact .inl ⟨j, hj, hid, hp, hb⟩
      | false => exact .inr ⟨j, hj, hid, hr, hp⟩

/-- Placing a job that was not placed yet. -/
theorem Tally.place_eq (hd : (jobs.map (·.id)).Nodup) (h : Reordered deps (dependents jobs))
    {placed : List String} {a : String} (ha : a ∉ placed) (hid : a ∈ jobs.map (·.id)) {t : Tally}
    (ht : t.counts = countsAt jobs placed) : (t.place deps a).counts = countsAt jobs (placed ++ [a]) ∧
      ∃ freed, (t.place deps a).freed = t.freed ++ freed ∧ Freed jobs placed (placed ++ [a]) freed := by
  have hkeys : t.counts.keys = jobs.map (·.id) := by rw [ht, keys_countsAt]
  have hmem : ∀ j ∈ jobs, (j.id ∈ (deps.lookup a).getD [] ↔ a ∈ j.needIds) := by
    intro j hj
    rw [h.mem hid]
    refine ⟨fun ⟨k, hk, hak, hkj⟩ => ?_, fun haj => ⟨j, hj, haj, rfl⟩⟩
    obtain rfl := List.inj_on_of_nodup_map hd hk hj hkj
    exact hak
  rw [Tally.place, Tally.lowerAll (h.nodup hd a) (hkeys ▸ hd) fun c hc => ?_]
  · refine ⟨?_, _, rfl, (h.nodup hd a).filter _, fun c => ?_⟩
    · rw [ht, countsAt, countsAt, List.map_map]
      refine List.map_congr_left fun j hj => ?_
      simp [hmem j hj, unmet_append ha]
    · rw [List.mem_filter, h.mem hid, ht]
      constructor
      · rintro ⟨⟨j, hj, haj, rfl⟩, hone⟩
        rw [lookup_countsAt hd hj, beq_iff_eq, Option.some.injEq] at hone
        exact ⟨j, hj, rfl, (freed_iff ha).1 ⟨haj, hone⟩⟩
      · rintro ⟨j, hj, rfl, hfree⟩
        obtain ⟨haj, hone⟩ := (freed_iff ha).2 hfree
        exact ⟨⟨j, hj, haj, rfl⟩, by simp [lookup_countsAt hd hj, hone]⟩
  · obtain ⟨j, hj, -, rfl⟩ := (h.mem hid).1 hc
    rw [hkeys]
    exact List.mem_map_of_mem hj

theorem Tally.placeAll (hd : (jobs.map (·.id)).Nodup) (h : Reordered deps (dependents jobs))
    {before : List String} : ∀ {stage placed : List String} {t : Tally}, (placed ++ stage).Nodup →
      (∀ a ∈ stage, a ∈ jobs.map (·.id)) → before ⊆ placed →
      t.counts = countsAt jobs placed → Freed jobs before placed t.freed →
      (stage.foldl (Tally.place deps) t).counts = countsAt jobs (placed ++ stage) ∧
        Freed jobs before (placed ++ stage) (stage.foldl (Tally.place deps) t).freed
  | [], placed, t, _, _, _, ht, hf => by simpa using ⟨ht, hf⟩
  | a :: stage, placed, t, hn, hmem, hb, ht, hf => by
    have ha : a ∉ placed := fun hap => by
      rw [List.nodup_append] at hn
      exact hn.2.2 a hap a (by simp) rfl
    have hsplit : placed ++ a :: stage = placed ++ [a] ++ stage := by simp
    obtain ⟨hcounts, freed, hfreed, hnew⟩ := place_eq hd h ha (hmem a (by simp)) ht
    have hgrow : placed ⊆ placed ++ [a] := List.subset_append_left _ _
    rw [List.foldl_cons, hsplit]
    refine placeAll hd h (hsplit ▸ hn) (fun b hbs => hmem b (by simp [hbs]))
      (List.Subset.trans hb hgrow) hcounts ?_
    rw [hfreed]
    exact hf.trans hd hb hgrow hnew

/-- Placing a stage lowers the counts to those of the jobs placed by then. -/
theorem release_countsAt (hd : (jobs.map (·.id)).Nodup) (h : Reordered deps (dependents jobs))
    {placed stage : List String} (hn : (placed ++ stage).Nodup) (hmem : ∀ a ∈ stage, a ∈ jobs.map (·.id)) :
    (release deps (countsAt jobs placed) stage).counts = countsAt jobs (placed ++ stage) ∧
      Freed jobs placed (placed ++ stage) (release deps (countsAt jobs placed) stage).freed :=
  Tally.placeAll hd h hn hmem (List.Subset.refl placed) rfl (.refl jobs placed)

/-! ## Declaration order -/

theorem position_eq_idxOf (jobs : List Job) (job : String) :
    position jobs job = (jobs.map (·.id)).idxOf job := by
  rw [position, List.idxOf, List.findIdx_map]
  rfl

theorem pairwise_position (hd : (jobs.map (·.id)).Nodup) {ids : List String}
    (h : ids.Sublist (jobs.map (·.id))) :
    ids.Pairwise fun a b => position jobs a < position jobs b := by
  simp only [position_eq_idxOf]
  refine List.Pairwise.sublist h (List.pairwise_iff_getElem.2 fun i j hi hj hij => ?_)
  rw [hd.idxOf_getElem i hi, hd.idxOf_getElem j hj]
  exact hij

theorem inOrder_eq_insertionSort (order : String → Nat) (ids : List String) :
    inOrder order ids = ids.insertionSort fun a b => order a ≤ order b := by
  have hinsert : ∀ job rest, insertInOrder order job rest =
      rest.orderedInsert (fun a b => order a ≤ order b) job := by
    intro job rest
    induction rest with
    | nil => rfl
    | cons k rest ih => rw [insertInOrder, List.orderedInsert_cons, ih]
  induction ids with
  | nil => rfl
  | cons job ids ih => rw [List.insertionSort_cons, ← ih, ← hinsert, inOrder, List.foldr_cons, inOrder]

/-- Putting the ids of a part of the jobs in order gives that part. -/
theorem inOrder_eq (hd : (jobs.map (·.id)).Nodup) {ids part : List String}
    (hpart : part.Sublist (jobs.map (·.id))) (hids : ids.Nodup) (hmem : ∀ c, c ∈ ids ↔ c ∈ part) :
    inOrder (position jobs) ids = part := by
  have hperm : (inOrder (position jobs) ids).Perm part := by
    rw [inOrder_eq_insertionSort]
    exact (List.perm_insertionSort _ ids).trans
      ((List.perm_ext_iff_of_nodup hids (hd.sublist hpart)).2 hmem)
  have hsorted : (inOrder (position jobs) ids).Pairwise fun a b => position jobs a ≤ position jobs b := by
    rw [inOrder_eq_insertionSort]
    exact List.pairwise_insertionSort _ ids
  refine List.Perm.eq_of_pairwise (fun a b ha hb hab hba => ?_) hsorted
    ((pairwise_position hd hpart).imp fun hab => Nat.le_of_lt hab) hperm
  have ha' : a ∈ jobs.map (·.id) := hpart.subset (hperm.mem_iff.1 ha)
  have heq : position jobs a = position jobs b := Nat.le_antisymm hab hba
  rw [position_eq_idxOf, position_eq_idxOf] at heq
  exact (List.idxOf_inj ha').1 heq

/-! ## Rounds -/

theorem ready_append {placed remaining stage} (hwait : waiting placed remaining = waiting placed jobs) :
    ready (placed ++ stage) (waiting placed remaining) =
      jobs.filter fun j => isReady (placed ++ stage) j && !isReady placed j := by
  rw [hwait, ready, waiting, List.filter_filter]

theorem waiting_append {placed remaining stage} (hwait : waiting placed remaining = waiting placed jobs) :
    waiting (placed ++ stage) (waiting placed remaining) = waiting (placed ++ stage) jobs := by
  rw [hwait, waiting, waiting, waiting, List.filter_filter]
  refine List.filter_congr fun j _ => ?_
  cases hp : isReady placed j with
  | true => simp [isReady_mono (List.subset_append_left _ _) hp]
  | false => simp

/-- **Counting finds the stages.** -/
theorem rounds_eq_place (hd : (jobs.map (·.id)).Nodup) (h : Reordered deps (dependents jobs))
    (placed : List String) (remaining : List Job) (hsub : remaining.Sublist jobs)
    (hnew : ∀ j ∈ remaining, j.id ∉ placed) (hplaced : placed.Nodup)
    (hwait : waiting placed remaining = waiting placed jobs) :
    rounds deps (position jobs) (countsAt jobs placed) ((ready placed remaining).map (·.id)) =
      ((place placed remaining).1, countsAt jobs (placed ++ (place placed remaining).1.flatten)) := by
  fun_induction place placed remaining with
  | case1 placed remaining hnone =>
    rw [rounds]
    simp [List.isEmpty_iff.1 hnone]
  | case2 placed remaining hsome stage stages stuck hrest ih =>
    have hstage : stage.Sublist (jobs.map (·.id)) := (List.filter_sublist.trans hsub).map _
    have hnodup : (placed ++ stage).Nodup := by
      refine List.nodup_append.2 ⟨hplaced, hd.sublist hstage, ?_⟩
      rintro a ha _ hb rfl
      obtain ⟨j, hj, rfl⟩ := List.mem_map.1 hb
      exact hnew j (mem_ready.1 hj).1 ha
    obtain ⟨hcounts, hfreed⟩ := release_countsAt hd h hnodup fun a ha => hstage.subset ha
    have hlater : (waiting placed remaining).Sublist jobs := List.filter_sublist.trans hsub
    have horder : inOrder (position jobs) (release deps (countsAt jobs placed) stage).freed =
        (ready (placed ++ stage) (waiting placed remaining)).map (·.id) := by
      refine inOrder_eq hd ((List.filter_sublist.trans hlater).map _) hfreed.nodup fun c => ?_
      rw [hfreed.mem, ready_append hwait]
      simp only [List.mem_map, List.mem_filter, Bool.and_eq_true, Bool.not_eq_true']
      exact ⟨fun ⟨j, hj, hid, hr⟩ => ⟨j, ⟨hj, hr⟩, hid⟩, fun ⟨j, ⟨hj, hr⟩, hid⟩ => ⟨j, hj, hid, hr⟩⟩
    have hih := ih hlater (fun j hj hmem => ?_) hnodup (waiting_append hwait)
    · rw [hrest] at hih
      rw [rounds, dif_neg (by simpa [stage] using hsome)]
      simp only [stage] at hcounts horder hih ⊢
      rw [hcounts, horder, hih]
      simp
    · rcases List.mem_append.1 hmem with hp | hs
      · exact hnew j (mem_waiting.1 hj).1 hp
      · exact waiting_not_mem_stage (hd.sublist (hsub.map _)) hj hs

/-- Every remaining job is placed or stuck. -/
theorem place_perm (placed : List String) (remaining : List Job) :
    ((place placed remaining).1.flatten ++ (place placed remaining).2).Perm (remaining.map (·.id)) := by
  fun_induction place placed remaining with
  | case1 placed remaining hnone => simp
  | case2 placed remaining hsome stage stages stuck hrest ih =>
    rw [hrest] at ih
    have hsplit : ((ready placed remaining) ++ (waiting placed remaining)).Perm remaining :=
      List.filter_append_perm _ _
    calc ((stage :: stages).flatten ++ stuck) = stage ++ (stages.flatten ++ stuck) := by simp
      List.Perm _ (stage ++ (waiting placed remaining).map (·.id)) := ih.append_left stage
      List.Perm _ (remaining.map (·.id)) := by simpa [stage] using hsplit.map (·.id)

/-- The jobs that are stuck are those that wait for others when all stages are placed. -/
theorem place_stuck (placed : List String) (remaining : List Job)
    (hwait : waiting placed remaining = waiting placed jobs) : (place placed remaining).2 =
      (waiting (placed ++ (place placed remaining).1.flatten) jobs).map (·.id) := by
  fun_induction place placed remaining with
  | case1 placed remaining hnone =>
    have hall : waiting placed remaining = remaining := by
      refine List.filter_eq_self.2 fun j hj => ?_
      have hnot := List.filter_eq_nil_iff.1 (List.isEmpty_iff.1 hnone) j hj
      simpa using hnot
    rw [List.flatten_nil, List.append_nil, ← hwait, hall]
  | case2 placed remaining hsome stage stages stuck hrest ih =>
    have hih := ih (waiting_append hwait)
    rw [hrest] at hih
    simpa using hih

/-- After all stages, exactly the jobs that still wait for others are stuck. -/
theorem stuck_eq_waiting (jobs : List Job) :
    (place [] jobs).2 = (waiting (place [] jobs).1.flatten jobs).map (·.id) := by
  have h : (place [] jobs).2 = (waiting ([] ++ (place [] jobs).1.flatten) jobs).map (·.id) :=
    place_stuck [] jobs rfl
  rwa [List.nil_append] at h

theorem stuck_sublist (jobs : List Job) : (place [] jobs).2.Sublist (jobs.map (·.id)) := by
  rw [stuck_eq_waiting]
  exact List.filter_sublist.map _

/-- **Staging by counts is staging by needs**, in whatever order dependents are gone through. -/
theorem stagesAlong_eq_place (hd : (jobs.map (·.id)).Nodup) (h : Reordered deps (dependents jobs)) :
    stagesAlong deps (needCounts jobs) (position jobs) =
      if (place [] jobs).2 = [] then .ok (place [] jobs).1
      else .error ⟨.cycle (place [] jobs).2, none⟩ := by
  have hrounds := rounds_eq_place hd h [] jobs (List.Sublist.refl jobs) (by simp) List.nodup_nil rfl
  have hfirst : inOrder (position jobs) (free (countsAt jobs [])) = (ready [] jobs).map (·.id) := by
    have hsub : ((ready [] jobs).map (·.id)).Sublist (jobs.map (·.id)) := List.filter_sublist.map _
    rw [free_countsAt]
    exact inOrder_eq hd hsub (hd.sublist hsub) fun c => Iff.rfl
  have hlast : inOrder (position jobs) (stuck (countsAt jobs (place [] jobs).1.flatten)) =
      (place [] jobs).2 := by
    have hsub := stuck_sublist jobs
    rw [stuck_countsAt, ← stuck_eq_waiting]
    exact inOrder_eq hd hsub (hd.sublist hsub) fun c => Iff.rfl
  have hdone : (place [] jobs).1.flatten.length = (countsAt jobs []).length ↔ (place [] jobs).2 = [] := by
    have hlength := (place_perm [] jobs).length_eq
    rw [List.length_append, List.length_map] at hlength
    rw [← List.length_eq_zero_iff, countsAt, List.length_map]
    omega
  rw [stagesAlong, needCounts_eq, hfirst, hrounds]
  simp only [List.nil_append, hlast, hdone]

theorem Reordered.refl (deps : Assoc (List String)) : Reordered deps deps := fun _ => List.Perm.refl _

theorem stages_eq_ok (hd : (jobs.map (·.id)).Nodup) {stages : List (List String)} :
    Staging.stages jobs = .ok stages ↔ (place [] jobs).2 = [] ∧ (place [] jobs).1 = stages := by
  rw [Staging.stages, stagesAlong_eq_place hd (.refl _)]
  split
  · next h => simp [h]
  · next h => simp [h]

end

end MergeGate.Staging
