/-
When the ids of a run tell its instances apart. An id is text: the job, and in brackets the axes with
the texts of their values. It can be read back as long as no job's id begins with another one and an
opening bracket, and no value contains the text that begins the next axis (`JobGraph.Legible`); then
a planned run is fresh (`plan_fresh`). Nothing checks either of the two, and where a value contains
the beginning of an axis, two points of one matrix can share an id (`instanceIds_collide`).
-/
import Mathlib.Data.List.Chain
import Mathlib.Data.List.Infix
import Mathlib.Data.List.TakeWhile
import MergeGate.Proofs.Matrix
import MergeGate.Proofs.Plan

namespace MergeGate

/-! ## Texts with a separator -/

/-- A separator that begins with a character it does not hold again cannot overlap itself. -/
theorem isPrefix_of_separator {c : Char} {tail m x x' : List Char} (hc : c ∉ tail) (hm : m ≠ [])
    (h : c :: tail ++ x = m ++ (c :: tail ++ x')) : c :: tail <+: m := by
  rcases List.append_eq_append_iff.1 h with ⟨rest, rfl, -⟩ | ⟨rest, hsep, hrest⟩
  · exact List.prefix_append _ _
  · obtain ⟨a, m, rfl⟩ := List.exists_cons_of_ne_nil hm
    cases rest with
    | nil => rw [hsep, List.append_nil]
    | cons b rest =>
      have hb : c = b := (List.cons.inj hrest).1
      have htail : tail = m ++ b :: rest := (List.cons.inj hsep).2
      exact absurd (by simp [htail, hb]) hc

/-- What stands before a separator can be read off, when it does not contain the separator. -/
theorem eq_of_append_separator {c : Char} {tail v v' x x' : List Char} (hc : c ∉ tail)
    (hv : ¬ c :: tail <:+: v) (hv' : ¬ c :: tail <:+: v')
    (h : v ++ (c :: tail ++ x) = v' ++ (c :: tail ++ x')) : v = v' ∧ x = x' := by
  have hlonger : ∀ {v m x x' : List Char}, ¬ c :: tail <:+: v ++ m →
      c :: tail ++ x = m ++ (c :: tail ++ x') → m = [] := by
    intro v m x x' hnot heq
    by_contra hm
    exact hnot ((isPrefix_of_separator hc hm heq).isInfix.trans (List.suffix_append v m).isInfix)
  rcases List.append_eq_append_iff.1 h with ⟨m, rfl, heq⟩ | ⟨m, rfl, heq⟩
  · obtain rfl := hlonger hv' heq
    simpa using heq
  · obtain rfl := hlonger hv heq
    simpa [eq_comm] using heq

/-! ## Ids of one job -/

namespace Matrix

/-- The texts in the brackets of an id. -/
def labels (c : Coordinate) : List Char :=
  (", ".intercalate (c.map fun p => p.1 ++ "=" ++ p.2.plain)).toList

/-- The text by which an axis begins behind another one. -/
def axisMark (axis : String) : List Char := (", " ++ axis ++ "=").toList

theorem labels_singleton (p : String × Value) :
    labels [p] = p.1.toList ++ ('=' :: p.2.plain.toList) := by
  simp [labels]

theorem labels_cons (p q : String × Value) (c : Coordinate) :
    labels (p :: q :: c) = p.1.toList ++ ('=' :: (p.2.plain.toList ++ [',', ' '] ++ labels (q :: c))) := by
  simp [labels, String.intercalate_cons_cons]

/-- The labels of a coordinate begin with the name of its first axis. -/
theorem exists_labels (p : String × Value) (c : Coordinate) :
    ∃ rest, labels (p :: c) = p.1.toList ++ '=' :: rest := by
  cases c with
  | nil => exact ⟨_, labels_singleton p⟩
  | cons q c => exact ⟨_, labels_cons p q c⟩

theorem comma_not_mem_axisName {axis : String} (h : isAxisName axis.toList = true) :
    ',' ∉ axis.toList := by
  intro hmem
  cases hs : axis.toList with
  | nil => simp [hs] at hmem
  | cons c rest =>
    rw [hs] at h hmem
    simp only [isAxisName, Bool.and_eq_true] at h
    have hrest : ∀ d ∈ rest, isAxisRest d = true ∨ d = '\n' := by
      intro d hd
      rw [← rest.takeWhile_append_dropWhile (p := isAxisRest), List.mem_append] at hd
      rcases hd with hd | hd
      · exact .inl (List.mem_takeWhile_imp hd)
      · split at h
        · next hnil => simp [hnil] at hd
        · next hline => exact .inr (by simpa [hline] using hd)
        · simp at h
    rcases List.mem_cons.1 hmem with rfl | hmem
    · exact absurd h.1 (by decide)
    · exact absurd (hrest _ hmem) (by decide)

theorem axisMark_eq (axis : String) : axisMark axis = ',' :: (' ' :: axis.toList ++ ['=']) := by
  simp [axisMark]

/-- Axes whose values do not contain the text that begins the axis behind them. -/
def Unmixed (axes : List (String × List Value)) : Prop :=
  axes.IsChain fun a b => ∀ v ∈ a.2, ¬ axisMark b.1 <:+: v.plain.toList

/-- The labels of a point give back its texts. -/
theorem texts_of_labels {axes : List (String × List Value)}
    (hproper : ∀ a ∈ axes, isAxisName a.1.toList = true) (hun : Unmixed axes) {c c' : Coordinate}
    (hc : c ∈ grid axes) (hc' : c' ∈ grid axes) (h : labels c = labels c') :
    c.map (·.2.plain) = c'.map (·.2.plain) := by
  rw [mem_grid] at hc hc'
  induction axes generalizing c c' with
  | nil => simp_all
  | cons a axes ih =>
    obtain ⟨⟨_, v⟩, d, ⟨rfl, hv⟩, hd, rfl⟩ := List.forall₂_cons_right_iff.1 hc
    obtain ⟨⟨_, v'⟩, d', ⟨rfl, hv'⟩, hd', rfl⟩ := List.forall₂_cons_right_iff.1 hc'
    simp only [List.forall_mem_cons] at hproper
    cases axes with
    | nil =>
      obtain rfl : d = [] := by simpa using hd
      obtain rfl : d' = [] := by simpa using hd'
      rw [labels_singleton, labels_singleton] at h
      simpa [String.toList_inj] using h
    | cons b axes =>
      have hmix := (List.isChain_cons_cons.1 hun).1
      have ih' := ih hproper.2 (List.isChain_cons_cons.1 hun).2 hd hd'
      obtain ⟨⟨_, w⟩, e, ⟨rfl, -⟩, -, rfl⟩ := List.forall₂_cons_right_iff.1 hd
      obtain ⟨⟨_, w'⟩, e', ⟨rfl, -⟩, -, rfl⟩ := List.forall₂_cons_right_iff.1 hd'
      obtain ⟨x, hx⟩ := exists_labels (b.1, w) e
      obtain ⟨x', hx'⟩ := exists_labels (b.1, w') e'
      -- behind the first value stands the text that begins the second axis
      have hsep : v.plain.toList ++ (',' :: (' ' :: b.1.toList ++ ['=']) ++ x) =
          v'.plain.toList ++ (',' :: (' ' :: b.1.toList ++ ['=']) ++ x') := by
        rw [labels_cons, labels_cons, hx, hx'] at h
        simpa using h
      have hcomma : ',' ∉ ' ' :: b.1.toList ++ ['='] := by
        simpa using comma_not_mem_axisName (hproper.2 b (by simp))
      simp only [axisMark_eq] at hmix
      obtain ⟨hvalue, hrest⟩ := eq_of_append_separator hcomma (hmix v hv) (hmix v' hv') hsep
      rw [hx, hx', hrest] at ih'
      exact congrArg₂ List.cons (String.toList_inj.1 hvalue) (ih' rfl)

/-- The id of a job without axes is the job's; otherwise the labels stand in brackets behind it. -/
theorem instanceId_toList (job : String) {c : Coordinate} (hc : c ≠ []) :
    (instanceId job c).toList = job.toList ++ ([' ', '('] ++ (labels c ++ [')'])) := by
  simp [instanceId, hc, labels]

/-- Points of one matrix that share an id are the same point. -/
theorem Grid.eq_of_instanceId {j : Job} {axes : List (String × List Value)} (h : Grid j axes)
    (hun : Unmixed axes) {c c' : Coordinate} (hc : c ∈ grid axes) (hc' : c' ∈ grid axes)
    (hid : instanceId j.id c = instanceId j.id c') : c = c' := by
  have htexts : c.map (·.2.plain) = c'.map (·.2.plain) := by
    have hkeys := (keys_of_mem_grid hc).trans (keys_of_mem_grid hc').symm
    by_cases hnil : c = []
    · subst hnil
      obtain rfl : c' = [] := by simpa using hkeys.symm
      rfl
    · have hnil' : c' ≠ [] := by
        rintro rfl
        exact hnil (by simpa using hkeys)
      refine texts_of_labels h.proper hun hc hc' ?_
      have hlist := congrArg String.toList hid
      rw [instanceId_toList _ hnil, instanceId_toList _ hnil'] at hlist
      simpa using hlist
  exact List.inj_on_of_nodup_map (grid_texts_nodup h.distinct) hc hc' htexts

/-- The instances of one job have distinct ids. -/
theorem Grid.expand_distinct {j : Job} {axes : List (String × List Value)} (h : Grid j axes)
    (hun : Unmixed axes) {base : Assoc Value} {is : List Instance} (his : expand j base = .ok is) :
    (is.map (·.id)).Nodup := by
  have hids : is.map (·.id) = (grid axes).map (instanceId j.id) := by
    rw [← h.expand_coordinates his, List.map_map]
    refine List.map_congr_left fun i hi => ?_
    rw [Instance.id, expand_job his i hi, Function.comp_apply]
  rw [hids]
  exact (List.Nodup.of_map _ (grid_texts_nodup h.distinct)).map_on
    fun c hc c' hc' => h.eq_of_instanceId hun hc hc'

end Matrix

/-! ## Ids of several jobs -/

/-- An id is its job's, or begins with the job's and an opening bracket. -/
theorem Instance.id_cases (i : Instance) :
    i.id = i.job ∨ (i.job ++ " (").toList <+: i.id.toList := by
  by_cases hc : i.coordinate = []
  · exact .inl (by simp [Instance.id, instanceId, hc])
  · refine .inr ⟨Matrix.labels i.coordinate ++ [')'], ?_⟩
    rw [Instance.id, Matrix.instanceId_toList _ hc]
    simp

/-- One id and an opening bracket begin another id and its bracket only if they begin the id itself,
or the ids are the same. -/
theorem isPrefix_of_bracket {a b : List Char} (h : a ++ [' ', '('] <+: b ++ [' ', '(']) :
    a = b ∨ a ++ [' ', '('] <+: b := by
  obtain ⟨t, ht⟩ := h
  rcases List.eq_nil_or_concat' t with rfl | ⟨t, x, rfl⟩
  · exact .inl (by simpa using ht)
  · rcases List.eq_nil_or_concat' t with rfl | ⟨t, y, rfl⟩
    · have hlast : a ++ [' ', '(', x] = b ++ [' ', '('] := by simpa using ht
      have h' : (a ++ [' ']) ++ ['(', x] = b ++ [' ', '('] := by simpa using hlast
      have := (List.append_inj' h' rfl).2
      simp at this
    · refine .inr ⟨t, ?_⟩
      have h' : (a ++ [' ', '('] ++ t) ++ [y, x] = b ++ [' ', '('] := by simpa using ht
      exact (List.append_inj' h' rfl).1

/-- Instances share an id only within a job, when no job's id and an opening bracket begin
another's. -/
theorem job_eq_of_id_eq {i k : Instance} (hik : ¬ (i.job ++ " (").toList <+: k.job.toList)
    (hki : ¬ (k.job ++ " (").toList <+: i.job.toList) (h : i.id = k.id) : i.job = k.job := by
  rcases i.id_cases with hi | hi
  · rcases k.id_cases with hk | hk
    · rw [← hi, ← hk, h]
    · rw [← h, hi] at hk
      exact absurd hk hki
  · rcases k.id_cases with hk | hk
    · rw [h, hk] at hi
      exact absurd hi hik
    · rw [h] at hi
      simp only [String.toList_append] at hi hk hik hki
      rcases List.prefix_or_prefix_of_prefix hi hk with hpre | hpre
      · rcases isPrefix_of_bracket hpre with heq | hpre
        · exact String.toList_inj.1 heq
        · exact absurd hpre hik
      · rcases isPrefix_of_bracket hpre with heq | hpre
        · exact (String.toList_inj.1 heq).symm
        · exact absurd hpre hki

namespace JobGraph

/-- Ids that can be read back: no job's id begins with another one and an opening bracket, and no
value of an axis contains the text that begins the next axis. -/
structure Legible (g : JobGraph) : Prop where
  jobs : ∀ j ∈ g.jobs, ∀ k ∈ g.jobs, ¬ (j.id ++ " (").toList <+: k.id.toList
  values : ∀ j ∈ g.jobs, ∀ axes : List (String × List Value),
    Matrix.axes j.matrix = .ok (axes.map fun a => (.text a.1, a.2)) → Matrix.Unmixed axes

end JobGraph

namespace Plan

theorem expand_of_choose {env : Assoc Value} {t : Trigger} {j : Job} {is : List Instance}
    (h : choose env t j = .ok (.instances is)) : Matrix.expand j env = .ok is := by
  simp only [choose, bind_eq_ok] at h
  obtain ⟨runs, _, h⟩ := h
  split at h
  · simp only [bind_eq_ok, mapError_eq_ok, pure_eq_ok] at h
    obtain ⟨is', his', h⟩ := h
    split at h
    · cases h
    · cases h
      exact his'
  · cases h

section

variable {env : Assoc Value} {jobs rest : List Job} {r r' : Run}

/-- Planning one more job keeps the ids distinct. -/
theorem enter_distinct (h : Covers jobs r) {j : Job} (hj : j.id ∉ jobs.map (·.id))
    (hapart : ∀ k ∈ jobs, ¬ (j.id ++ " (").toList <+: k.id.toList ∧
      ¬ (k.id ++ " (").toList <+: j.id.toList)
    (hown : ∀ is, Matrix.expand j env = .ok is → (is.map (·.id)).Nodup)
    (hr : (r.instances.map (·.id)).Nodup) {t : Trigger} {c : Choice} {n : Notice}
    (hc : choose env t j = .ok c) (he : enter r j c = .ok (r', n)) :
    (r'.instances.map (·.id)).Nodup := by
  cases c with
  | absent reason =>
    simp only [enter, bind_eq_ok, mapError_eq_ok, pure_eq_ok, Prod.mk.injEq] at he
    obtain ⟨r'', hrec, rfl, _⟩ := he
    obtain ⟨_, _, rfl⟩ := Run.record_eq_ok_iff.mp hrec
    exact hr
  | instances is =>
    have his := expand_of_choose hc
    simp only [enter, Except.ok.injEq, Prod.mk.injEq] at he
    obtain ⟨rfl, _⟩ := he
    rw [List.map_append, List.nodup_append]
    refine ⟨hr, hown is his, ?_⟩
    rintro _ hmem _ hmem' heq
    obtain ⟨i, hi, rfl⟩ := List.mem_map.1 hmem
    obtain ⟨i', hi', rfl⟩ := List.mem_map.1 hmem'
    obtain ⟨k, hk, hki⟩ := h.owner i hi
    have hjob := Matrix.expand_job his i' hi'
    have hsame : i.job = i'.job := by
      apply job_eq_of_id_eq _ _ heq
      · rw [← hki, hjob]
        exact (hapart k hk).2
      · rw [← hki, hjob]
        exact (hapart k hk).1
    exact hj (List.mem_map.2 ⟨k, hk, by rw [hki, hsame, hjob]⟩)

theorem planJobs_distinct : ∀ {rest jobs : List Job} {r r' : Run} {ns : List Notice},
    Covers jobs r → ((jobs ++ rest).map (·.id)).Nodup →
    (∀ j ∈ jobs ++ rest, ∀ k ∈ jobs ++ rest, ¬ (j.id ++ " (").toList <+: k.id.toList) →
    (∀ j ∈ rest, ∀ is, Matrix.expand j env = .ok is → (is.map (·.id)).Nodup) →
    (r.instances.map (·.id)).Nodup → planJobs env r rest = .ok (r', ns) →
      (r'.instances.map (·.id)).Nodup
  | [], jobs, r, r', ns, _, _, _, _, hr, hp => by
    simp only [planJobs, Except.ok.injEq, Prod.mk.injEq] at hp
    exact hp.1 ▸ hr
  | j :: rest, jobs, r, r', ns, h, hd, hapart, hown, hr, hp => by
    simp only [planJobs, bind_eq_ok, pure_eq_ok, Prod.mk.injEq] at hp
    obtain ⟨c, hc, ⟨r₁, n⟩, he, ⟨r₂, more⟩, hrest, rfl, _⟩ := hp
    have hj := not_planned hd
    obtain ⟨h₁, _⟩ := enter_covers h hj hc he
    have hr₁ : (r₁.instances.map (·.id)).Nodup := by
      refine enter_distinct h hj (fun k hk => ?_) (hown j (by simp)) hr hc he
      exact ⟨hapart j (by simp) k (by simp [hk]), hapart k (by simp [hk]) j (by simp)⟩
    have hsplit : jobs ++ j :: rest = jobs ++ [j] ++ rest := by simp
    rw [hsplit] at hd hapart
    exact planJobs_distinct h₁ hd hapart (fun k hk => hown k (by simp [hk])) hr₁ hrest

theorem absentAll_instances : ∀ {jobs : List Job} {r r' : Run},
    absentAll r jobs = .ok r' → r'.instances = r.instances
  | [], r, r', h => by
    simp only [absentAll, Except.ok.injEq] at h
    rw [h]
  | j :: jobs, r, r', h => by
    simp only [absentAll, bind_eq_ok, mapError_eq_ok] at h
    obtain ⟨r₁, hrec, hrest⟩ := h
    obtain ⟨_, _, rfl⟩ := Run.record_eq_ok_iff.mp hrec
    have hkept := absentAll_instances hrest
    exact hkept

end

/-- Where no id begins another's brackets, an absent job's record is under nobody's id. -/
theorem Planned.unrecorded {g : JobGraph} {r : Run} (h : Planned g r)
    (hapart : ∀ j ∈ g.jobs, ∀ k ∈ g.jobs, ¬ (j.id ++ " (").toList <+: k.id.toList) :
    ∀ i ∈ r.instances, r.result? i.id = none := by
  intro i hi
  rw [Run.result?_eq_none_iff]
  intro x hx hid
  obtain ⟨k, hk, reason, -, rfl, hnone⟩ := h.absent x hx
  obtain ⟨j, hj, hij⟩ := h.owner i hi
  rcases i.id_cases with hown | hpre
  · exact hnone i hi (by rw [← hown, ← hid]; rfl)
  · rw [← hij, ← hid] at hpre
    exact hapart j hj k hk hpre

/-- **Instance ids.** In a planned run of an accepted workflow whose ids can be read back, no two
instances share an id, and none has the id under which an absent job is recorded. -/
theorem plan_fresh {w : Workflow} {g : JobGraph} (hg : JobGraph.build w = .ok g) (hl : g.Legible)
    {t : Trigger} {runId : String} {r : Run} {ns : List Notice}
    (hp : plan g t runId = .ok (r, ns)) : Fresh r := by
  have hacc := JobGraph.build_accepted hg
  refine ⟨?_, (plan_planned hacc hp).unrecorded hl.jobs⟩
  rw [plan] at hp
  split at hp
  · refine planJobs_distinct (.nil rfl rfl rfl rfl rfl) (by simpa using hacc.distinct) hl.jobs ?_
      (by simp) hp
    intro j hj is his
    obtain ⟨_, _, _, _, _, hcheck⟩ := JobGraph.build_checked hg j hj
    obtain ⟨axes, hgrid⟩ := Matrix.checkCause_ok hcheck
    exact hgrid.expand_distinct (hl.values j hj axes hgrid.read) his
  · simp only [bind_eq_ok, pure_eq_ok, Prod.mk.injEq] at hp
    obtain ⟨r₁, hall, rfl, _⟩ := hp
    simp [absentAll_instances hall]

/-- A workflow with a comma in a value and a bracket in a job's id, both harmless. -/
def legibleSample : Workflow where
  name := "gate"
  jobs := [
    { id := "test", steps := [{ name := "test", run := some "test" }],
      matrix := .map [(.text "os", .list [.text "linux", .text "mac, arm"]),
        (.text "py", .list [.text "3.11", .text "3.12"])] },
    { id := "lint (fast)", steps := [{ name := "lint", run := some "lint" }] },
    { id := "release", steps := [{ name := "release", run := some "release" }],
      condition := .glob (.text "branch") (.text "release") }]

theorem legibleSample_legible {g : JobGraph} (h : JobGraph.build legibleSample = .ok g) : g.Legible := by
  have hsource : ∀ k ∈ g.jobs, ∃ j ∈ legibleSample.jobs, k.id = j.id ∧ k.matrix = j.matrix := by
    intro k hk
    obtain ⟨j, hj, condition, _, rfl, _⟩ := JobGraph.build_checked h k hk
    exact ⟨j, hj, rfl, rfl⟩
  constructor
  · intro j hj k hk
    obtain ⟨j', hj', hid, _⟩ := hsource j hj
    obtain ⟨k', hk', hid', _⟩ := hsource k hk
    have hids : ∀ a ∈ legibleSample.jobs.map (·.id), ∀ b ∈ legibleSample.jobs.map (·.id),
        ¬ (a ++ " (").toList <+: b.toList := by decide
    rw [hid, hid']
    exact hids _ (List.mem_map_of_mem hj') _ (List.mem_map_of_mem hk')
  · intro j hj axes haxes
    obtain ⟨j', hj', _, hmatrix⟩ := hsource j hj
    rw [hmatrix] at haxes
    simp only [legibleSample, List.mem_cons, List.not_mem_nil, or_false] at hj'
    rcases hj' with rfl | rfl | rfl
    · have hread : axes.map (fun a => (Value.text a.1, a.2)) =
          [(.text "os", [.text "linux", .text "mac, arm"]), (.text "py", [.text "3.11", .text "3.12"])] :=
        (Except.ok.inj haxes).symm
      obtain rfl : axes = [("os", [.text "linux", .text "mac, arm"]),
          ("py", [.text "3.11", .text "3.12"])] := by
        refine List.map_injective_iff.2 ?_ hread
        rintro ⟨a, vs⟩ ⟨b, ws⟩ h
        simpa using h
      refine List.isChain_cons_cons.2 ⟨?_, .singleton _⟩
      simp only [List.forall_mem_cons, Value.plain_text]
      exact ⟨by decide, by decide, by simp⟩
    · obtain rfl : axes = [] := by simpa using (Except.ok.inj haxes).symm
      exact .nil
    · obtain rfl : axes = [] := by simpa using (Except.ok.inj haxes).symm
      exact .nil

theorem plan_fresh_legibleSample : ∃ g r ns, JobGraph.build legibleSample = .ok g ∧ g.Legible ∧
    plan g samplePush "1" = .ok (r, ns) ∧ r.instances.length = 5 ∧ Fresh r := by
  have hall : ((JobGraph.build legibleSample).toOption.bind fun g =>
      (plan g samplePush "1").toOption.map fun p => p.1.instances.length) = some 5 := by
    decide +kernel
  cases hg : JobGraph.build legibleSample with
  | error e => simp [hg, Except.toOption] at hall
  | ok g =>
    cases hp : plan g samplePush "1" with
    | error e => simp [hg, hp, Except.toOption] at hall
    | ok p =>
      have hl := legibleSample_legible hg
      have hlength : p.1.instances.length = 5 := by simpa [hg, hp, Except.toOption] using hall
      exact ⟨g, p.1, p.2, rfl, hl, hp, hlength, plan_fresh hg hl hp⟩

/-- A workflow in which values of the first axis contain the text that begins the second. -/
def collidingSample : Workflow where
  name := "gate"
  jobs := [
    { id := "test", steps := [{ name := "test", run := some "test" }],
      matrix := .map [(.text "a", .list [.text "1", .text "1, b=2"]),
        (.text "b", .list [.text "2, b=3", .text "3"])] }]

/-- An accepted workflow can have two instances at different points with the same id. -/
theorem instanceIds_collide : ∃ g r ns, JobGraph.build collidingSample = .ok g ∧
    plan g samplePush "1" = .ok (r, ns) ∧ ∃ i ∈ r.instances, ∃ k ∈ r.instances,
      i.id = k.id ∧ i.coordinate ≠ k.coordinate := by
  have hall : ((JobGraph.build collidingSample).toOption.bind fun g =>
      (plan g samplePush "1").toOption.map fun p =>
        p.1.instances.map fun i => (i.id, i.coordinate.map (·.2.plain))) =
      some [("test (a=1, b=2, b=3)", ["1", "2, b=3"]), ("test (a=1, b=3)", ["1", "3"]),
        ("test (a=1, b=2, b=2, b=3)", ["1, b=2", "2, b=3"]),
        ("test (a=1, b=2, b=3)", ["1, b=2", "3"])] := by
    decide +kernel
  cases hg : JobGraph.build collidingSample with
  | error e => simp [hg, Except.toOption] at hall
  | ok g =>
    cases hp : plan g samplePush "1" with
    | error e => simp [hg, hp, Except.toOption] at hall
    | ok p =>
      simp only [hg, hp, Except.toOption, Option.bind_some, Option.map_some, Option.some.injEq] at hall
      have hfind : ∀ x ∈ p.1.instances.map fun i => (i.id, i.coordinate.map (·.2.plain)),
          ∃ i ∈ p.1.instances, i.id = x.1 ∧ i.coordinate.map (·.2.plain) = x.2 := by
        intro x hx
        obtain ⟨i, hi, rfl⟩ := List.mem_map.1 hx
        exact ⟨i, hi, rfl, rfl⟩
      rw [hall] at hfind
      obtain ⟨i, hi, hid, htexts⟩ := hfind ("test (a=1, b=2, b=3)", ["1", "2, b=3"]) (by simp)
      obtain ⟨k, hk, hid', htexts'⟩ := hfind ("test (a=1, b=2, b=3)", ["1, b=2", "3"]) (by simp)
      refine ⟨g, p.1, p.2, rfl, hp, i, hi, k, hk, hid.trans hid'.symm, ?_⟩
      intro heq
      rw [heq, htexts'] at htexts
      exact absurd htexts (by decide)

end Plan

end MergeGate
