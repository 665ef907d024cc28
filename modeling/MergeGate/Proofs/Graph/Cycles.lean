/-
Stages against cycles and chains of needs. What no stage takes is what lies on a cycle of needs or
leads to one (`mem_stuck_iff`): every stuck job needs another stuck job, so among finitely many some
come back; and needs of placed jobs go down in depth, so they never do. The stage of a job is then the
length of the longest chain of needs below it (`depthIn_isGreatest`).
-/
import Mathlib.Data.Set.Finite.Basic
import Mathlib.Logic.Relation
import Mathlib.Order.Bounds.Basic
import MergeGate.Proofs.Graph

namespace MergeGate.Staging

open Relation (ReflTransGen TransGen)

/-- The first job lists the second among its needs. -/
def Needs (jobs : List Job) (a b : String) : Prop := ∃ j ∈ jobs, j.id = a ∧ ∃ n ∈ j.needs, n.job = b

/-- No job needs itself, however far around. -/
def Acyclic (jobs : List Job) : Prop := ∀ a, ¬ TransGen (Needs jobs) a a

/-- The job lies on a cycle of needs, or needs, however far around, a job on one. -/
def Stuck (jobs : List Job) (a : String) : Prop :=
  ∃ b, ReflTransGen (Needs jobs) a b ∧ TransGen (Needs jobs) b b

/-- So many needs lead down from the job, one after the other. -/
inductive Chain (jobs : List Job) : Nat → String → Prop
  | nil (a : String) : Chain jobs 0 a
  | cons {n : Nat} {a b : String} (h : Needs jobs a b) (t : Chain jobs n b) : Chain jobs (n + 1) a

/-- Where each of finitely many leads to another, each leads to a cycle. -/
theorem exists_cycle {α : Type} {r : α → α → Prop} {s : List α} (h : ∀ a ∈ s, ∃ b ∈ s, r a b) {a : α}
    (ha : a ∈ s) : ∃ b, ReflTransGen r a b ∧ TransGen r b b := by
  by_contra hnone
  -- Without a cycle, following `r` from `a` inside the list would have to end.
  let reached : Set α := { b | b ∈ s ∧ ReflTransGen r a b }
  let next : reached → reached → Prop := fun x y => TransGen r y.1 x.1
  have hfinite : Finite reached := (s.finite_toSet.subset fun _ hb => hb.1).to_subtype
  have htrans : IsTrans reached next := ⟨fun _ _ _ hxy hyz => hyz.trans hxy⟩
  have hirrefl : Std.Irrefl next := ⟨fun x hx => hnone ⟨x.1, x.2.2, hx⟩⟩
  have hwf : WellFounded next := Finite.wellFounded_of_trans_of_irrefl next
  have hend : ∀ x : reached, False := fun x => by
    induction x using hwf.induction with
    | h x ih =>
      obtain ⟨b, hb, hxb⟩ := h x.1 x.2.1
      exact ih ⟨b, hb, x.2.2.tail hxb⟩ (TransGen.single hxb)
  exact hend ⟨a, ha, .refl⟩

/-! ## Depth -/

theorem place_first {placed : List String} {remaining : List Job} {j : Job} (hj : j ∈ remaining)
    (hready : isReady placed j = true) : depthIn (place placed remaining).1 j.id = 0 := by
  have hmem : j ∈ ready placed remaining := List.mem_filter.2 ⟨hj, hready⟩
  have hid : j.id ∈ (ready placed remaining).map (·.id) := List.mem_map_of_mem hmem
  rw [place, dif_neg (by simpa using List.ne_nil_of_mem hmem)]
  simp only
  rw [depthIn_cons, if_pos hid]

/-- A job that has to wait is placed right after one of its needs. -/
theorem place_tight {placed : List String} {remaining : List Job}
    (hd : (remaining.map (·.id)).Nodup) : ∀ j ∈ remaining, j.id ∉ (place placed remaining).2 →
      isReady placed j = false → ∃ n ∈ j.needIds, n ∉ placed ∧
        depthIn (place placed remaining).1 j.id = depthIn (place placed remaining).1 n + 1 := by
  fun_induction place placed remaining with
  | case1 placed remaining hnone =>
    intro j hj hdone
    exact absurd (List.mem_map_of_mem hj) hdone
  | case2 placed remaining hsome stage stages stuck hrest ih =>
    intro j hj hdone hready
    have hneeds : ¬ ∀ n ∈ j.needIds, n ∈ placed := fun h => by simp [isReady_iff.2 h] at hready
    have hwait : j ∈ waiting placed remaining := mem_waiting.2 ⟨hj, hneeds⟩
    have hnot : j.id ∉ stage := waiting_not_mem_stage hd hwait
    cases hnext : isReady (placed ++ stage) j with
    | true =>
      have hfirst := place_first hwait hnext
      rw [hrest] at hfirst
      push Not at hneeds
      obtain ⟨n, hn, hnp⟩ := hneeds
      have hns : n ∈ stage := (List.mem_append.1 (isReady_iff.1 hnext n hn)).resolve_left hnp
      exact ⟨n, hn, hnp, by rw [depthIn_cons, depthIn_cons, if_neg hnot, if_pos hns, hfirst]⟩
    | false =>
      have hlater := ih (hd.sublist (List.filter_sublist.map _)) j hwait
      simp only [hrest] at hlater
      obtain ⟨n, hn, hnp, hdepth⟩ := hlater hdone hnext
      simp only [List.mem_append, not_or] at hnp
      exact ⟨n, hn, hnp.1, by rw [depthIn_cons, depthIn_cons, if_neg hnot, if_neg hnp.2, hdepth]⟩

theorem depthIn_lt_length_iff {stages : List (List String)} {a : String} :
    depthIn stages a < stages.length ↔ a ∈ stages.flatten := by
  rw [depthIn, List.findIdx_lt_length, List.mem_flatten]
  simp

section

variable {jobs : List Job} (hs : Sound jobs) {a b : String}

include hs

/-- What a placed job needs is placed, and earlier. -/
theorem Needs.earlier (h : Needs jobs a b) (ha : a ∉ (place [] jobs).2) :
    b ∉ (place [] jobs).2 ∧ depthIn (place [] jobs).1 b < depthIn (place [] jobs).1 a := by
  obtain ⟨j, hj, rfl, n, hn, rfl⟩ := h
  obtain ⟨hlength, hneeds⟩ := place_depth hs.distinct j hj ha
  have hless : depthIn (place [] jobs).1 n.job < depthIn (place [] jobs).1 j.id := by
    simpa using hneeds n.job (Job.mem_needIds.2 ⟨n, hn, rfl⟩)
  have hplaced : n.job ∈ (place [] jobs).1.flatten := depthIn_lt_length_iff.1 (hless.trans hlength)
  have hnodup := (place_perm [] jobs).nodup_iff.2 hs.distinct
  exact ⟨fun hstuck => (List.nodup_append.1 hnodup).2.2 _ hplaced _ hstuck rfl, hless⟩

theorem placed_of_reflTransGen (ha : a ∉ (place [] jobs).2) (h : ReflTransGen (Needs jobs) a b) :
    b ∉ (place [] jobs).2 := by
  induction h with
  | refl => exact ha
  | tail _ hneed ih => exact (hneed.earlier hs ih).1

theorem depthIn_lt_of_transGen (ha : a ∉ (place [] jobs).2) (h : TransGen (Needs jobs) a b) :
    depthIn (place [] jobs).1 b < depthIn (place [] jobs).1 a := by
  induction h with
  | single hneed => exact (hneed.earlier hs ha).2
  | tail hpath hneed ih =>
    exact (hneed.earlier hs (placed_of_reflTransGen hs ha hpath.to_reflTransGen)).2.trans ih

/-- A stuck job needs a stuck job. -/
theorem exists_needs_stuck (ha : a ∈ (place [] jobs).2) : ∃ b ∈ (place [] jobs).2, Needs jobs a b := by
  rw [stuck_eq_waiting] at ha
  obtain ⟨j, hj, rfl⟩ := List.mem_map.1 ha
  obtain ⟨hj, hwait⟩ := mem_waiting.1 hj
  push Not at hwait
  obtain ⟨b, hb, hbp⟩ := hwait
  obtain ⟨n, hn, rfl⟩ := Job.mem_needIds.1 hb
  have hmem := (place_perm [] jobs).mem_iff.2 (hs.declared j hj n hn)
  exact ⟨n.job, (List.mem_append.1 hmem).resolve_left hbp, j, hj, rfl, n, hn, rfl⟩

/-- The jobs that no stage takes are those that lead to a cycle. -/
theorem mem_stuck_iff : a ∈ (place [] jobs).2 ↔ Stuck jobs a := by
  constructor
  · exact exists_cycle fun b hb => exists_needs_stuck hs hb
  · rintro ⟨b, hab, hbb⟩
    by_contra ha
    -- Around a cycle of placed jobs the depth would fall below itself.
    exact Nat.lt_irrefl _ (depthIn_lt_of_transGen hs (placed_of_reflTransGen hs ha hab) hbb)

theorem place_done_iff : (place [] jobs).2 = [] ↔ Acyclic jobs := by
  simp only [List.eq_nil_iff_forall_not_mem, mem_stuck_iff hs]
  exact ⟨fun h a ha => h a ⟨a, .refl, ha⟩, fun h _ ⟨b, _, hb⟩ => h b hb⟩

/-! ## Chains of needs -/

theorem Chain.le_depthIn {n : Nat} (h : Chain jobs n a) (ha : a ∉ (place [] jobs).2) :
    n ≤ depthIn (place [] jobs).1 a := by
  induction h with
  | nil => exact Nat.zero_le _
  | cons hneed _ ih =>
    obtain ⟨hb, hless⟩ := hneed.earlier hs ha
    have hn := ih hb
    omega

/-- A job that is not in the first stage is right after one that it needs. -/
theorem exists_need_before {j : Job} (hj : j ∈ jobs) (hdone : j.id ∉ (place [] jobs).2)
    (hlater : depthIn (place [] jobs).1 j.id ≠ 0) : ∃ n ∈ j.needs,
      depthIn (place [] jobs).1 j.id = depthIn (place [] jobs).1 n.job + 1 := by
  have hready : isReady [] j = false := by
    cases hready : isReady [] j with
    | true => exact absurd (place_first hj hready) hlater
    | false => rfl
  obtain ⟨b, hb, -, htight⟩ := place_tight hs.distinct j hj hdone hready
  obtain ⟨n, hn, rfl⟩ := Job.mem_needIds.1 hb
  exact ⟨n, hn, htight⟩

theorem chain_depthIn {d : Nat} : ∀ {j : Job}, j ∈ jobs → j.id ∉ (place [] jobs).2 →
    depthIn (place [] jobs).1 j.id = d → Chain jobs d j.id := by
  induction d with
  | zero => exact fun _ _ _ => .nil _
  | succ d ih =>
    intro j hj hdone hdepth
    obtain ⟨n, hn, htight⟩ := exists_need_before hs hj hdone (by omega)
    obtain ⟨k, hk, hkn⟩ := List.mem_map.1 (hs.declared j hj n hn)
    have hneed : Needs jobs j.id k.id := ⟨j, hj, rfl, n, hn, hkn.symm⟩
    rw [← hkn] at htight
    exact .cons hneed (ih hk (hneed.earlier hs hdone).1 (by omega))

/-- A placed job stands as deep as the longest chain of needs below it. -/
theorem depthIn_isGreatest {j : Job} (hj : j ∈ jobs) (hdone : j.id ∉ (place [] jobs).2) :
    IsGreatest { n | Chain jobs n j.id } (depthIn (place [] jobs).1 j.id) :=
  ⟨chain_depthIn hs hj hdone rfl, fun _ h => h.le_depthIn hs hdone⟩

/-- A job without needs stands first, any other one right after the deepest job it needs. -/
theorem depthIn_eq_max {j : Job} (hj : j ∈ jobs) (hdone : j.id ∉ (place [] jobs).2) :
    depthIn (place [] jobs).1 j.id =
      ((j.needs.map fun n => 1 + depthIn (place [] jobs).1 n.job).max?).getD 0 := by
  have hless : ∀ n ∈ j.needs, depthIn (place [] jobs).1 n.job < depthIn (place [] jobs).1 j.id :=
    fun n hn => (Needs.earlier hs ⟨j, hj, rfl, n, hn, rfl⟩ hdone).2
  by_cases hfirst : depthIn (place [] jobs).1 j.id = 0
  · have hneeds : j.needs = [] := by
      rw [List.eq_nil_iff_forall_not_mem]
      intro n hn
      have hn := hless n hn
      omega
    simp [hneeds, hfirst]
  · obtain ⟨n, hn, htight⟩ := exists_need_before hs hj hdone hfirst
    have hmax : (j.needs.map fun n => 1 + depthIn (place [] jobs).1 n.job).max? =
        some (depthIn (place [] jobs).1 j.id) := by
      rw [List.max?_eq_some_iff]
      refine ⟨List.mem_map.2 ⟨n, hn, by omega⟩, fun d hd => ?_⟩
      obtain ⟨m, hm, rfl⟩ := List.mem_map.1 hd
      have hm := hless m hm
      omega
    rw [hmax, Option.getD_some]

end

/-! ## The stages of acyclic jobs -/

theorem mem_level_iff {a : String} : ∀ {levels : List (List String)} {i : Nat}, levels.flatten.Nodup →
    a ∈ levels.flatten → ((∃ level, levels[i]? = some level ∧ a ∈ level) ↔ depthIn levels a = i)
  | [], _, _, ha => by simp at ha
  | level :: levels, i, hn, ha => by
    rw [List.flatten_cons, List.nodup_append] at hn
    rw [depthIn_cons]
    by_cases hl : a ∈ level
    · have hlater : a ∉ levels.flatten := fun h => hn.2.2 a hl a h rfl
      rw [if_pos hl]
      cases i with
      | zero => simp [hl]
      | succ i =>
        refine iff_of_false (fun ⟨l, hget, hal⟩ => hlater ?_) (by omega)
        exact List.mem_flatten.2 ⟨l, List.mem_of_getElem? hget, hal⟩
    · have hlater : a ∈ levels.flatten := by simpa [hl] using ha
      rw [if_neg hl]
      cases i with
      | zero => simp [hl]
      | succ i => simpa using mem_level_iff hn.2.1 hlater

/-- Every job stands in one stage, at the length of the longest chain of needs below it, and every
stage is there for some job and in declaration order. -/
structure Layered (jobs : List Job) (levels : List (List String)) : Prop where
  once : levels.flatten.Perm (jobs.map (·.id))
  filled : ∀ level ∈ levels, level ≠ []
  ordered : ∀ level ∈ levels, level.Pairwise fun a b => position jobs a < position jobs b
  longest : ∀ j ∈ jobs, ∀ i, (∃ level, levels[i]? = some level ∧ j.id ∈ level) ↔
    IsGreatest { n | Chain jobs n j.id } i
  after : ∀ j ∈ jobs, depthIn levels j.id = ((j.needs.map fun n => 1 + depthIn levels n.job).max?).getD 0

theorem place_filled (placed : List String) (remaining : List Job) :
    ∀ level ∈ (place placed remaining).1, level ≠ [] ∧ level.Sublist (remaining.map (·.id)) := by
  fun_induction place placed remaining with
  | case1 placed remaining hnone => simp
  | case2 placed remaining hsome stage stages stuck hrest ih =>
    rw [hrest] at ih
    refine List.forall_mem_cons.2 ⟨⟨by simpa [stage] using hsome, List.filter_sublist.map _⟩, ?_⟩
    exact fun level hl => ⟨(ih level hl).1, (ih level hl).2.trans (List.filter_sublist.map _)⟩

theorem place_layered {jobs : List Job} (hs : Sound jobs) (hdone : (place [] jobs).2 = []) :
    Layered jobs (place [] jobs).1 := by
  have hperm := place_perm [] jobs
  rw [hdone, List.append_nil] at hperm
  have hplaced : ∀ a, a ∉ (place [] jobs).2 := by simp [hdone]
  constructor
  · exact hperm
  · exact fun level hl => (place_filled [] jobs level hl).1
  · exact fun level hl => pairwise_position hs.distinct (place_filled [] jobs level hl).2
  · intro j hj i
    have hgreatest := depthIn_isGreatest hs hj (hplaced _)
    rw [mem_level_iff (hperm.nodup_iff.2 hs.distinct) (hperm.mem_iff.2 (List.mem_map_of_mem hj))]
    exact ⟨fun h => h ▸ hgreatest, fun h => hgreatest.unique h⟩
  · exact fun j hj => depthIn_eq_max hs hj (hplaced _)

namespace Layered

variable {jobs : List Job} {levels levels' : List (List String)}

theorem mem_next (h : Layered jobs levels) (h' : Layered jobs levels') {i : Nat} {level : List String}
    (hget : levels[i]? = some level) : ∀ a ∈ level, ∃ level', levels'[i]? = some level' ∧ a ∈ level' := by
  intro a ha
  have hmem : a ∈ jobs.map (·.id) :=
    h.once.subset (List.mem_flatten.2 ⟨level, List.mem_of_getElem? hget, ha⟩)
  obtain ⟨j, hj, rfl⟩ := List.mem_map.1 hmem
  exact (h'.longest j hj i).2 ((h.longest j hj i).1 ⟨level, hget, ha⟩)

theorem getElem?_eq (h : Layered jobs levels) (h' : Layered jobs levels') {i : Nat} {level : List String}
    (hget : levels[i]? = some level) : levels'[i]? = some level := by
  obtain ⟨a, ha⟩ := List.exists_mem_of_ne_nil _ (h.filled level (List.mem_of_getElem? hget))
  obtain ⟨level', hget', -⟩ := h.mem_next h' hget a ha
  have hto : ∀ b ∈ level, b ∈ level' := fun b hb => by
    obtain ⟨l, hl, hbl⟩ := h.mem_next h' hget b hb
    exact Option.some.inj (hl.symm.trans hget') ▸ hbl
  have hfrom : ∀ b ∈ level', b ∈ level := fun b hb => by
    obtain ⟨l, hl, hbl⟩ := h'.mem_next h hget' b hb
    exact Option.some.inj (hl.symm.trans hget) ▸ hbl
  have hord := h.ordered level (List.mem_of_getElem? hget)
  have hord' := h'.ordered level' (List.mem_of_getElem? hget')
  have hnodup : ∀ {l : List String}, (l.Pairwise fun a b => position jobs a < position jobs b) →
      l.Nodup := fun hl => hl.imp fun hab he => by subst he; omega
  have hperm : level.Perm level' :=
    (List.perm_ext_iff_of_nodup (hnodup hord) (hnodup hord')).2 fun b => ⟨hto b, hfrom b⟩
  rw [hget', hperm.eq_of_pairwise (fun b c _ _ hbc hcb => by omega) hord hord']

/-- The jobs decide the stages. -/
theorem unique (h : Layered jobs levels) (h' : Layered jobs levels') : levels = levels' := by
  refine List.ext_getElem? fun i => ?_
  cases hget : levels[i]? with
  | some level => exact (h.getElem?_eq h' hget).symm
  | none =>
    cases hget' : levels'[i]? with
    | none => rfl
    | some level => rw [h'.getElem?_eq h hget'] at hget; cases hget

end Layered

/-- **Staging.** Checked jobs have stages exactly when no need comes back around. These are then the
stages in which every job stands once, at the length of the longest chain of needs below it, each in
declaration order. It makes no difference in which order the dependents of a job are gone through. -/
theorem stages_eq_ok_iff_layered {jobs : List Job} (h : check jobs = .ok ()) :
    ((∃ levels, stages jobs = .ok levels) ↔ Acyclic jobs) ∧
    (∀ levels, stages jobs = .ok levels ↔ Acyclic jobs ∧ Layered jobs levels) ∧
    ∀ deps, Reordered deps (dependents jobs) →
      stagesAlong deps (needCounts jobs) (position jobs) = stages jobs := by
  have hs := check_eq_ok.1 h
  have hstages : ∀ levels, stages jobs = .ok levels ↔ Acyclic jobs ∧ Layered jobs levels := by
    intro levels
    rw [stages_eq_ok hs.distinct, ← place_done_iff hs]
    constructor
    · rintro ⟨hdone, rfl⟩
      exact ⟨hdone, place_layered hs hdone⟩
    · rintro ⟨hdone, hlayered⟩
      exact ⟨hdone, (place_layered hs hdone).unique hlayered⟩
  refine ⟨⟨fun ⟨levels, hl⟩ => ((hstages levels).1 hl).1, fun hacyclic => ?_⟩, hstages, fun deps hdeps => ?_⟩
  · exact ⟨_, (hstages _).2 ⟨hacyclic, place_layered hs ((place_done_iff hs).2 hacyclic)⟩⟩
  · rw [stages, stagesAlong_eq_place hs.distinct hdeps, stagesAlong_eq_place hs.distinct (.refl _)]

/-- Four jobs, the last on two that need the first, one of them twice. -/
def diamond : List Job :=
  [{ id := "lint", steps := [] },
    { id := "test", steps := [], needs := [⟨"lint", none⟩, ⟨"lint", some "success"⟩] },
    { id := "build", steps := [], needs := [⟨"lint", none⟩] },
    { id := "ship", steps := [], needs := [⟨"build", none⟩, ⟨"test", none⟩] }]

theorem stages_eq_ok_iff_layered_diamond : check diamond = .ok () ∧
    ((∃ levels, stages diamond = .ok levels) ↔ Acyclic diamond) :=
  have hcheck : check diamond = .ok () := by cbv
  ⟨hcheck, (stages_eq_ok_iff_layered hcheck).1⟩

example : stages diamond = .ok [["lint"], ["test", "build"], ["ship"]] := by cbv

/-! ## Cycles -/

/-- **Cycles.** Checked jobs with a cycle of needs are refused, and the refusal lists, each once and in
declaration order, the jobs that lie on a cycle or lead to one. -/
theorem stages_refuses_stuck {jobs : List Job} (h : check jobs = .ok ())
    (hcycle : ∃ a, TransGen (Needs jobs) a a) {deps : Assoc (List String)}
    (hdeps : Reordered deps (dependents jobs)) :
    ∃ stuck, stages jobs = .error ⟨.cycle stuck, none⟩ ∧
      stagesAlong deps (needCounts jobs) (position jobs) = .error ⟨.cycle stuck, none⟩ ∧
      (Cause.cycle stuck).kind = "ConfigurationError" ∧
      (Cause.cycle stuck).details = [("stuck_jobs", .texts stuck)] ∧
      (∀ a, a ∈ stuck ↔ Stuck jobs a) ∧ stuck.Nodup ∧
      stuck.Pairwise fun a b => position jobs a < position jobs b := by
  have hs := check_eq_ok.1 h
  have hstuck : (place [] jobs).2 ≠ [] := by
    obtain ⟨a, ha⟩ := hcycle
    exact List.ne_nil_of_mem ((mem_stuck_iff hs).2 ⟨a, .refl, ha⟩)
  have hsub := stuck_sublist jobs
  refine ⟨(place [] jobs).2, ?_, ?_, rfl, rfl, fun a => mem_stuck_iff hs, hs.distinct.sublist hsub,
    pairwise_position hs.distinct hsub⟩
  · rw [stages, stagesAlong_eq_place hs.distinct (.refl _), if_neg hstuck]
  · rw [stagesAlong_eq_place hs.distinct hdeps, if_neg hstuck]

/-- Two jobs that need each other, one behind them and one beside them. -/
def knot : List Job :=
  [{ id := "lint", steps := [] },
    { id := "ship", steps := [], needs := [⟨"build", none⟩] },
    { id := "test", steps := [], needs := [⟨"lint", none⟩, ⟨"build", none⟩] },
    { id := "build", steps := [], needs := [⟨"test", none⟩] }]

theorem stages_refuses_stuck_knot : check knot = .ok () ∧ (∃ a, TransGen (Needs knot) a a) ∧
    ∃ stuck, stages knot = .error ⟨.cycle stuck, none⟩ ∧ ∀ a, a ∈ stuck ↔ Stuck knot a := by
  have hcheck : check knot = .ok () := by cbv
  have htest : Needs knot "test" "build" := ⟨knot[2], by simp [knot], rfl, ⟨"build", none⟩, by simp [knot], rfl⟩
  have hbuild : Needs knot "build" "test" := ⟨knot[3], by simp [knot], rfl, ⟨"test", none⟩, by simp [knot], rfl⟩
  have hcycle : ∃ a, TransGen (Needs knot) a a := ⟨"test", .tail (.single htest) hbuild⟩
  obtain ⟨stuck, hstages, -, -, -, hmem, -⟩ := stages_refuses_stuck hcheck hcycle (.refl _)
  exact ⟨hcheck, hcycle, stuck, hstages, hmem⟩

example : stages knot = .error ⟨.cycle ["ship", "test", "build"], none⟩ := by cbv

end MergeGate.Staging
