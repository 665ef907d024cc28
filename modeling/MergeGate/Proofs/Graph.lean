/-
What the graph of an accepted workflow is like: job ids are distinct, every need leads to a declared
job, and it leads to an earlier stage. The stage of a job is the measure by which everything about
dependencies is proved: whatever holds of a job as soon as it holds of all jobs it needs holds of
every job.
-/
import MergeGate.Graph.Build
import MergeGate.Proofs.Graph.Rounds

namespace MergeGate

theorem Job.mem_needIds {j : Job} {a : String} : a ∈ j.needIds ↔ ∃ n ∈ j.needs, n.job = a := by
  rw [needIds, List.mem_eraseDups, List.mem_map]

namespace Staging

/-- The number of the stage that holds a job. -/
def depthIn (stages : List (List String)) (job : String) : Nat := stages.findIdx (·.contains job)

theorem depthIn_cons (stage : List String) (stages : List (List String)) (job : String) :
    depthIn (stage :: stages) job = if job ∈ stage then 0 else depthIn stages job + 1 := by
  rw [depthIn, List.findIdx_cons]
  by_cases h : job ∈ stage <;> simp [h, depthIn]

/-- What a placed job needs was placed before or lies in an earlier stage. -/
theorem place_depth {placed : List String} {remaining : List Job}
    (hd : (remaining.map (·.id)).Nodup) : ∀ j ∈ remaining, j.id ∉ (place placed remaining).2 →
      depthIn (place placed remaining).1 j.id < (place placed remaining).1.length ∧
      ∀ n ∈ j.needIds, n ∈ placed ∨
        depthIn (place placed remaining).1 n < depthIn (place placed remaining).1 j.id := by
  fun_induction place placed remaining with
  | case1 placed remaining hnone =>
    intro j hj hdone
    exact absurd (List.mem_map_of_mem hj) hdone
  | case2 placed remaining hsome stage stages stuck hrest ih =>
    intro j hj hdone
    have hdw : ((waiting placed remaining).map (·.id)).Nodup :=
      hd.sublist (List.filter_sublist.map _)
    have hlater := ih hdw
    simp only [hrest] at hlater
    by_cases hready : ∀ n ∈ j.needIds, n ∈ placed
    · have hmem : j.id ∈ stage := List.mem_map_of_mem (mem_ready.mpr ⟨hj, hready⟩)
      refine ⟨by simp [depthIn_cons, hmem], fun n hn => .inl (hready n hn)⟩
    · have hwait : j ∈ waiting placed remaining := mem_waiting.mpr ⟨hj, hready⟩
      have hnot : j.id ∉ stage := waiting_not_mem_stage hd hwait
      obtain ⟨hlt, hneeds⟩ := hlater j hwait hdone
      simp only [depthIn_cons, if_neg hnot, List.length_cons]
      refine ⟨by omega, fun n hn => ?_⟩
      by_cases hstage : n ∈ stage
      · exact .inr (by simp [hstage])
      · rw [if_neg hstage]
        rcases hneeds n hn with hplaced | hdeep
        · rcases List.mem_append.mp hplaced with h | h
          · exact .inl h
          · exact absurd h hstage
        · exact .inr (by omega)

theorem stages_depth {jobs : List Job} {stages : List (List String)}
    (hd : (jobs.map (·.id)).Nodup) (h : Staging.stages jobs = .ok stages) : ∀ j ∈ jobs,
      depthIn stages j.id < stages.length ∧
      ∀ n ∈ j.needs, depthIn stages n.job < depthIn stages j.id := by
  intro j hj
  obtain ⟨hnone, rfl⟩ := (stages_eq_ok hd).1 h
  have hdone : j.id ∉ (place [] jobs).2 := by simp [hnone]
  obtain ⟨hlt, hneeds⟩ := place_depth hd j hj hdone
  refine ⟨hlt, fun n hn => ?_⟩
  have hid : n.job ∈ j.needIds := Job.mem_needIds.2 ⟨n, hn, rfl⟩
  simpa using hneeds n.job hid

theorem checkNeeds_eq_ok {known : List String} {j : Job} : ∀ {ns : List Need},
    checkNeeds known j ns = .ok () ↔ ∀ n ∈ ns, n.job ∈ known ∧ n.job ≠ j.id
  | [] => by simp [checkNeeds]
  | n :: ns => by
    rw [checkNeeds, List.forall_mem_cons, ← checkNeeds_eq_ok]
    by_cases hknown : n.job ∈ known
    · rw [if_neg (by simp [hknown])]
      by_cases hself : n.job = j.id <;> simp [hknown, hself]
    · simp [hknown]

theorem checkAllNeeds_eq_ok {known : List String} : ∀ {jobs : List Job},
    checkAllNeeds known jobs = .ok () ↔ ∀ j ∈ jobs, ∀ n ∈ j.needs, n.job ∈ known ∧ n.job ≠ j.id
  | [] => by simp [checkAllNeeds]
  | j :: jobs => by
    rw [checkAllNeeds, Except.bind_eq_ok, List.forall_mem_cons, ← checkNeeds_eq_ok,
      ← checkAllNeeds_eq_ok]
    exact ⟨fun ⟨⟨⟩, hj, hjobs⟩ => ⟨hj, hjobs⟩, fun ⟨hj, hjobs⟩ => ⟨(), hj, hjobs⟩⟩

/-- What staging builds on: ids are distinct, and needs name other jobs that are declared. -/
structure Sound (jobs : List Job) : Prop where
  distinct : (jobs.map (·.id)).Nodup
  declared : ∀ j ∈ jobs, ∀ n ∈ j.needs, n.job ∈ jobs.map (·.id)
  others : ∀ j ∈ jobs, ∀ n ∈ j.needs, n.job ≠ j.id

theorem check_eq_ok {jobs : List Job} : check jobs = .ok () ↔ Sound jobs := by
  rw [check]
  split
  · next hdup =>
    rw [checkAllNeeds_eq_ok]
    constructor
    · intro h
      exact ⟨Text.repeated_eq_nil_iff.1 hdup, fun j hj n hn => (h j hj n hn).1,
        fun j hj n hn => (h j hj n hn).2⟩
    · exact fun h j hj n hn => ⟨h.declared j hj n hn, h.others j hj n hn⟩
  · next hdup =>
    constructor
    · intro h
      cases h
    · exact fun h => absurd (Text.repeated_eq_nil_iff.2 h.distinct) hdup

end Staging

namespace JobGraph

/-- The number of the stage that holds a job. -/
def depth (g : JobGraph) (job : String) : Nat := Staging.depthIn g.levels job

/-- What acceptance gives: distinct ids, and needs that lead to declared jobs of earlier stages. -/
structure Accepted (g : JobGraph) : Prop where
  distinct : (g.jobs.map (·.id)).Nodup
  declared : ∀ j ∈ g.jobs, ∀ e ∈ g.needsOf j.id, ∃ k ∈ g.jobs, k.id = e.job
  staged : ∀ j ∈ g.jobs, g.depth j.id < g.levels.length
  earlier : ∀ j ∈ g.jobs, ∀ e ∈ g.needsOf j.id, g.depth e.job < g.depth j.id

/-- An edge is a need with its policy. -/
def Resolves (default : String) (n : Need) (e : Edge) : Prop :=
  e.job = n.job ∧ Policy.ofName? (policyName default n) = some e.policy

theorem checkEdges_eq_ok {default job : String} : ∀ {ns : List Need} {seen : List String}
    {es : List Edge}, checkEdges default job seen ns = .ok es ↔
      List.Forall₂ (Resolves default) ns es ∧ (ns.map (·.job)).Nodup ∧ ∀ n ∈ ns, n.job ∉ seen
  | [], seen, es => by simp [checkEdges, eq_comm]
  | n :: ns, seen, es => by
    simp only [checkEdges, List.forall₂_cons_left_iff, List.map_cons, List.nodup_cons,
      List.forall_mem_cons, Resolves]
    cases hpolicy : Policy.ofName? (policyName default n) with
    | none => simp
    | some policy =>
      by_cases hseen : n.job ∈ seen
      · simp [hseen]
      · simp only [List.contains_eq_mem, hseen, decide_false, Bool.false_eq_true, if_false, map_eq_ok,
          checkEdges_eq_ok, not_false_eq_true, true_and, Option.some.injEq]
        constructor
        · rintro ⟨rest, ⟨hrest, hdistinct, hfresh⟩, rfl⟩
          refine ⟨⟨_, rest, ⟨rfl, rfl⟩, hrest, rfl⟩, ⟨fun hmem => ?_, hdistinct⟩, fun m hm hms => ?_⟩
          · obtain ⟨m, hm, hmn⟩ := List.mem_map.1 hmem
            exact hfresh m hm (by simp [hmn])
          · exact hfresh m hm (by simp [hms])
        · rintro ⟨⟨e, rest, ⟨hjob, hp⟩, hrest, rfl⟩, ⟨hn, hdistinct⟩, hfresh⟩
          refine ⟨rest, ⟨hrest, hdistinct, fun m hm hms => ?_⟩, by rw [← hjob, hp]⟩
          rcases List.mem_cons.1 hms with he | hms
          · exact hn (List.mem_map.2 ⟨m, hm, he⟩)
          · exact hfresh m hm hms

/-- What a declared job is checked for, and its checked form. -/
structure Checks (default : String) (j : Job) (c : Job × List Edge) : Prop where
  steps : j.steps ≠ []
  condition : j.condition.resolve = .ok c.1.condition
  job : c.1 = { j with condition := c.1.condition }
  matrix : Matrix.checkCause j = .ok ()
  edges : List.Forall₂ (Resolves default) j.needs c.2
  once : (j.needs.map (·.job)).Nodup

theorem checkJob_eq_ok {default : String} {j : Job} {c : Job × List Edge} :
    checkJob default j = .ok c ↔ Checks default j c := by
  simp only [checkJob]
  split
  · next hsteps =>
    constructor
    · intro h
      obtain ⟨_, h', _⟩ := bind_eq_ok.1 h
      cases h'
    · exact fun h => absurd (List.isEmpty_iff.1 hsteps) h.steps
  · next hsteps =>
    simp only [bind_eq_ok, pure_eq_ok, mapError_eq_ok, Matrix.check, checkEdges_eq_ok]
    constructor
    · rintro ⟨condition, hcondition, ⟨⟩, hmatrix, edges, ⟨hedges, honce, -⟩, rfl⟩
      exact ⟨by simpa using hsteps, hcondition, rfl, hmatrix, hedges, honce⟩
    · intro h
      refine ⟨c.1.condition, h.condition, (), h.matrix, c.2, ⟨h.edges, h.once, by simp⟩, ?_⟩
      rw [← h.job]

theorem Checks.id {default : String} {j : Job} {c : Job × List Edge} (h : Checks default j c) :
    c.1.id = j.id := by
  rw [h.job]

theorem Checks.needs {default : String} {j : Job} {c : Job × List Edge} (h : Checks default j c) :
    c.2.map (·.job) = j.needs.map (·.job) := by
  have hedges := h.edges
  generalize j.needs = ns, c.2 = es at hedges
  induction hedges with
  | nil => rfl
  | cons he _ ih => rw [List.map_cons, List.map_cons, he.1, ih]

theorem checkJobs_eq_ok {default : String} : ∀ {jobs : List Job} {cs : List (Job × List Edge)},
    checkJobs default jobs = .ok cs ↔ List.Forall₂ (Checks default) jobs cs
  | [], cs => by simp [checkJobs, eq_comm]
  | j :: jobs, cs => by
    simp only [checkJobs, bind_eq_ok, pure_eq_ok, checkJob_eq_ok, checkJobs_eq_ok,
      List.forall₂_cons_left_iff]
    constructor
    · rintro ⟨c, hc, rest, hrest, rfl⟩
      exact ⟨c, rest, hc, hrest, rfl⟩
    · rintro ⟨c, rest, hc, hrest, rfl⟩
      exact ⟨c, hc, rest, hrest, rfl⟩

/-- The graph of a workflow, from the stages of its jobs and their checked forms. -/
def assemble (w : Workflow) (levels : List (List String)) (cs : List (Job × List Edge)) : JobGraph where
  workflow := w
  jobs := cs.map (·.1)
  needs := cs.map fun c => (c.1.id, c.2)
  dependents := Staging.dependents w.jobs
  levels := levels

theorem build_eq_ok {w : Workflow} {g : JobGraph} : build w = .ok g ↔
    (Policy.ofName? w.defaultRequire).isSome ∧ Staging.Sound w.jobs ∧
      ∃ levels cs, Staging.stages w.jobs = .ok levels ∧
        List.Forall₂ (Checks w.defaultRequire) w.jobs cs ∧ g = assemble w levels cs := by
  simp only [build]
  split
  · next hdefault =>
    constructor
    · intro h
      obtain ⟨_, h', _⟩ := bind_eq_ok.1 h
      cases h'
    · rintro ⟨hsome, -⟩
      simp [Option.isNone_iff_eq_none.1 hdefault] at hsome
  · next hdefault =>
    simp only [bind_eq_ok, pure_eq_ok, checkJobs_eq_ok, ← Staging.check_eq_ok]
    constructor
    · rintro ⟨⟨⟩, hsound, levels, hlevels, cs, hcs, rfl⟩
      exact ⟨by simpa [Option.isSome_iff_ne_none] using hdefault, hsound, levels, cs, hlevels, hcs, rfl⟩
    · rintro ⟨-, hsound, levels, cs, hlevels, hcs, rfl⟩
      exact ⟨(), hsound, levels, hlevels, cs, hcs, rfl⟩

section

variable {default : String} {jobs : List Job} {cs : List (Job × List Edge)}

theorem ids_of_checks (h : List.Forall₂ (Checks default) jobs cs) :
    cs.map (·.1.id) = jobs.map (·.id) := by
  induction h with
  | nil => rfl
  | cons hc _ ih => rw [List.map_cons, List.map_cons, hc.id, ih]

/-- Every checked form comes from a declared job. -/
theorem exists_of_checks (h : List.Forall₂ (Checks default) jobs cs) {c : Job × List Edge}
    (hc : c ∈ cs) : ∃ j ∈ jobs, Checks default j c := by
  induction h with
  | nil => simp at hc
  | cons hd _ ih =>
    rcases List.mem_cons.1 hc with rfl | hc
    · exact ⟨_, by simp, hd⟩
    · obtain ⟨j, hj, hjc⟩ := ih hc
      exact ⟨j, by simp [hj], hjc⟩

/-- Every declared job has a checked form. -/
theorem exists_checks_of_mem (h : List.Forall₂ (Checks default) jobs cs) {j : Job} (hj : j ∈ jobs) :
    ∃ c ∈ cs, Checks default j c := by
  induction h with
  | nil => simp at hj
  | cons hd _ ih =>
    rcases List.mem_cons.1 hj with rfl | hj
    · exact ⟨_, by simp, hd⟩
    · obtain ⟨c, hc, hjc⟩ := ih hj
      exact ⟨c, by simp [hc], hjc⟩

end

/-- With distinct ids, a job's checked needs are those stored with it. -/
theorem lookup_of_mem {cs : List (Job × List Edge)} (hd : (cs.map (·.1.id)).Nodup)
    {c : Job × List Edge} (hc : c ∈ cs) :
    List.lookup c.1.id (cs.map fun c => (c.1.id, c.2)) = some c.2 := by
  rw [Assoc.lookup_eq_some_iff (by simpa [Assoc.keys, Function.comp_def] using hd)]
  exact List.mem_map_of_mem hc

theorem assemble_needsOf {w : Workflow} {levels : List (List String)} {cs : List (Job × List Edge)}
    (hd : (cs.map (·.1.id)).Nodup) {c : Job × List Edge} (hc : c ∈ cs) :
    (assemble w levels cs).needsOf c.1.id = c.2 := by
  rw [needsOf, assemble, lookup_of_mem hd hc, Option.getD_some]

theorem build_checked {w : Workflow} {g : JobGraph} (h : build w = .ok g) :
    ∀ k ∈ g.jobs, ∃ j ∈ w.jobs, ∃ condition, j.condition.resolve = .ok condition ∧
      k = { j with condition } ∧ Matrix.checkCause k = .ok () := by
  obtain ⟨-, -, levels, cs, -, hcs, rfl⟩ := build_eq_ok.1 h
  intro k hk
  obtain ⟨c, hc, rfl⟩ := List.mem_map.1 hk
  obtain ⟨j, hj, hchecks⟩ := exists_of_checks hcs hc
  refine ⟨j, hj, _, hchecks.condition, hchecks.job, ?_⟩
  rw [hchecks.job]
  exact hchecks.matrix

theorem build_accepted {w : Workflow} {g : JobGraph} (h : build w = .ok g) : g.Accepted := by
  obtain ⟨-, hsound, levels, cs, hlevels, hcs, rfl⟩ := build_eq_ok.1 h
  have hids := ids_of_checks hcs
  have hd : (cs.map (·.1.id)).Nodup := hids ▸ hsound.distinct
  have hstage := Staging.stages_depth hsound.distinct hlevels
  -- Each edge of a checked job comes from a need of the declared one.
  have hneed : ∀ c ∈ cs, ∀ e ∈ c.2, ∃ j ∈ w.jobs, j.id = c.1.id ∧ ∃ n ∈ j.needs, n.job = e.job := by
    intro c hc e he
    obtain ⟨j, hj, hchecks⟩ := exists_of_checks hcs hc
    have hmem : e.job ∈ j.needs.map (·.job) := hchecks.needs ▸ List.mem_map_of_mem he
    obtain ⟨n, hn, hne⟩ := List.mem_map.1 hmem
    exact ⟨j, hj, hchecks.id.symm, n, hn, hne⟩
  constructor
  · simpa [assemble, List.map_map, Function.comp_def] using hd
  · intro k hk e he
    obtain ⟨c, hc, rfl⟩ := List.mem_map.1 hk
    obtain ⟨j, hj, -, n, hn, hne⟩ := hneed c hc e (assemble_needsOf hd hc ▸ he)
    have hmem : e.job ∈ cs.map (·.1.id) := by
      rw [hids, ← hne]
      exact hsound.declared j hj n hn
    obtain ⟨d, hd', hde⟩ := List.mem_map.1 hmem
    exact ⟨d.1, List.mem_map_of_mem hd', hde⟩
  · intro k hk
    obtain ⟨c, hc, rfl⟩ := List.mem_map.1 hk
    obtain ⟨j, hj, hchecks⟩ := exists_of_checks hcs hc
    rw [hchecks.id]
    exact (hstage j hj).1
  · intro k hk e he
    obtain ⟨c, hc, rfl⟩ := List.mem_map.1 hk
    obtain ⟨j, hj, hid, n, hn, hne⟩ := hneed c hc e (assemble_needsOf hd hc ▸ he)
    rw [← hid, ← hne]
    exact (hstage j hj).2 n hn

/-- What a job inherits from the jobs it needs, every job has. -/
theorem Accepted.induction {g : JobGraph} (h : g.Accepted) {C : String → Prop}
    (step : ∀ j ∈ g.jobs, (∀ e ∈ g.needsOf j.id, C e.job) → C j.id) : ∀ j ∈ g.jobs, C j.id := by
  have hdepth : ∀ n, ∀ j ∈ g.jobs, g.depth j.id < n → C j.id := by
    intro n
    induction n with
    | zero => intro j _ hlt; omega
    | succ n ih =>
      intro j hj hlt
      refine step j hj fun e he => ?_
      obtain ⟨k, hk, hke⟩ := h.declared j hj e he
      have hless := h.earlier j hj e he
      rw [← hke] at hless ⊢
      exact ih k hk (by omega)
  exact fun j hj => hdepth _ j hj (h.staged j hj)

end JobGraph

end MergeGate
