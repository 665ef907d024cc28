/-
The variables of an instance, key by key. Three maps are written one over the other: the workflow's
variables, the job's with their placeholders rendered, and one variable for each axis. `Layered` says
which of them decides which key, and `env_layered` that every instance of a checked job is so; the
variables of the steps stay with the steps.
-/
import MergeGate.Proofs.Matrix

namespace MergeGate.Matrix

open Assoc (keys lookup_eq_some_iff)

/-! ## Rendered variables -/

/-- The value with the coordinate's values in the place of its placeholders. -/
def Rendered (c : Coordinate) (v w : Value) : Prop :=
  ∃ t, render (fun a => List.lookup a c) v.plain = .ok t ∧ w = .text t

theorem renderText_raw (c : Coordinate) (s t : String) :
    renderText (raw c) s = .ok t ↔ render (fun a => List.lookup a c) s = .ok t := by
  simp only [renderText, field?_raw, mapError_eq_ok]

theorem renderJobEnv_rendered {c : Coordinate} : ∀ {env e : Assoc Value},
    renderJobEnv (raw c) env = .ok e → List.Forall₂ (fun p q => p.1 = q.1 ∧ Rendered c p.2 q.2) env e
  | [], e, h => by
    cases h
    exact .nil
  | (k, v) :: env, e, h => by
    simp only [renderJobEnv, bind_eq_ok, pure_eq_ok, mapError_eq_ok, written_eq_ok, renderText_raw] at h
    obtain ⟨_, ⟨-, rfl⟩, t, ht, more, hmore, rfl⟩ := h
    exact .cons ⟨rfl, t, ht, rfl⟩ (renderJobEnv_rendered hmore)

/-- The rendered map has the same keys, each with its own value rendered. -/
theorem lookup_rendered {c : Coordinate} {env e : Assoc Value} (k : String)
    (h : List.Forall₂ (fun p q => p.1 = q.1 ∧ Rendered c p.2 q.2) env e) :
    (∀ v, List.lookup k env = some v → ∃ w, Rendered c v w ∧ List.lookup k e = some w) ∧
      (List.lookup k env = none → List.lookup k e = none) := by
  induction h with
  | nil => simp
  | @cons p q env e hpq _ ih =>
    obtain ⟨hkey, hvalue⟩ := hpq
    rw [Assoc.lookup_cons, Assoc.lookup_cons, ← hkey]
    by_cases hk : k = p.1
    · simpa [hk] using hvalue
    · simpa [hk] using ih

theorem keys_rendered {c : Coordinate} {env e : Assoc Value}
    (h : List.Forall₂ (fun p q => p.1 = q.1 ∧ Rendered c p.2 q.2) env e) : keys e = keys env := by
  induction h with
  | nil => rfl
  | cons hpq _ ih =>
    simp only [keys, List.map_cons] at ih ⊢
    rw [ih, hpq.1]

/-! ## Three layers -/

/-- The variables of an instance at the coordinate: the keys ascend; the variable of an axis holds the
text of the axis's value, and no other axis has the same variable; any other variable is the job's, with
its placeholders rendered, if the job has it, and else as in the map below, or absent like there. -/
structure Layered (j : Job) (base : Assoc Value) (c : Coordinate) (env : Assoc Value) : Prop where
  ascending : (keys env).Pairwise (· < ·)
  ofAxis : ∀ a v, (a, v) ∈ c → List.lookup (exported a) env = some (.text v.plain)
  alone : ∀ a ∈ keys c, ∀ b ∈ keys c, exported a = exported b → a = b
  ofJob : ∀ k v, (∀ a ∈ keys c, exported a ≠ k) → List.lookup k j.env = some v →
    ∃ w, Rendered c v w ∧ List.lookup k env = some w
  below : ∀ k, (∀ a ∈ keys c, exported a ≠ k) → List.lookup k j.env = none →
    List.lookup k env = List.lookup k base

theorem keys_exports (c : Coordinate) : keys (exports c) = (keys c).map exported := by
  simp [keys, exports, Function.comp_def]

theorem lookup_layerEnv {base job axes : Assoc Value} (hbase : (keys base).Nodup) (hjob : (keys job).Nodup)
    (haxes : (keys axes).Nodup) (k : String) :
    List.lookup k (layerEnv base job axes) =
      (List.lookup k axes).or ((List.lookup k job).or (List.lookup k base)) := by
  rw [layerEnv, Assoc.lookup_sortByKey (Assoc.nodup_putAll (Assoc.nodup_putAll hbase)),
    Assoc.lookup_putAll_of_nodup haxes, Assoc.lookup_putAll_of_nodup hjob]

theorem layered_of_rendered {j : Job} {base e : Assoc Value} {c : Coordinate} (hbase : (keys base).Nodup)
    (hjob : (keys j.env).Nodup) (hexports : ((keys c).map exported).Nodup)
    (he : List.Forall₂ (fun p q => p.1 = q.1 ∧ Rendered c p.2 q.2) j.env e) :
    Layered j base c (layerEnv base e (exports c)) := by
  have he' : (keys e).Nodup := by rwa [keys_rendered he]
  have haxes : (keys (exports c)).Nodup := by rwa [keys_exports]
  have hlookup := lookup_layerEnv hbase he' haxes
  have hother : ∀ k, (∀ a ∈ keys c, exported a ≠ k) → List.lookup k (exports c) = none := by
    intro k hk
    rw [← Option.not_isSome_iff_eq_none, Assoc.isSome_lookup_iff, keys_exports]
    rintro hmem
    obtain ⟨a, ha, rfl⟩ := List.mem_map.1 hmem
    exact hk a ha rfl
  constructor
  · exact Assoc.pairwise_keys_sortByKey (Assoc.nodup_putAll (Assoc.nodup_putAll hbase))
  · intro a v hav
    have hmem : (exported a, Value.text v.plain) ∈ exports c := List.mem_map.2 ⟨(a, v), hav, rfl⟩
    rw [hlookup, (lookup_eq_some_iff haxes).2 hmem]
    rfl
  · exact fun a ha b hb hab => List.inj_on_of_nodup_map hexports ha hb hab
  · intro k v hk hv
    obtain ⟨w, hw, hwe⟩ := (lookup_rendered k he).1 v hv
    exact ⟨w, hw, by rw [hlookup, hother k hk, hwe]; rfl⟩
  · intro k hk hv
    rw [hlookup, hother k hk, (lookup_rendered k he).2 hv]
    rfl

/-! ## Steps -/

theorem renderSteps_eq_ok {r : RawCoordinate} : ∀ {ss ss' : List Step},
    renderSteps r ss = .ok ss' ↔ List.Forall₂ (fun s s' => renderStep r s = .ok s') ss ss'
  | [], ss' => by simp [renderSteps, eq_comm]
  | s :: ss, ss' => by
    simp only [renderSteps, bind_eq_ok, pure_eq_ok, renderSteps_eq_ok, List.forall₂_cons_left_iff]
    constructor
    · rintro ⟨s', hs, more, hmore, rfl⟩
      exact ⟨s', more, hs, hmore, rfl⟩
    · rintro ⟨s', more, hs, hmore, rfl⟩
      exact ⟨s', hs, more, hmore, rfl⟩

/-- The variable has its name, and its text has the placeholders rendered; without a text it is as it
was. -/
def KeepsVariable (c : Coordinate) (p q : String × Value) : Prop :=
  p.1 = q.1 ∧ ((p.2 = .null ∧ q.2 = .null) ∨ ∃ t, p.2 = .text t ∧ Rendered c p.2 q.2)

theorem renderValue_keeps {c : Coordinate} {k : String} {v w : Value} (h : renderValue (raw c) v = .ok w) :
    KeepsVariable c (k, v) (k, w) := by
  refine ⟨rfl, ?_⟩
  cases v with
  | null => exact .inl ⟨rfl, (Except.ok.inj h).symm⟩
  | text t =>
    obtain ⟨u, hu, rfl⟩ := map_eq_ok.1 h
    exact .inr ⟨t, rfl, u, (renderText_raw c t u).1 hu, rfl⟩
  | _ => cases h

theorem renderStepEnv_keeps {c : Coordinate} : ∀ {env e : Assoc Value},
    renderStepEnv (raw c) env = .ok e → List.Forall₂ (KeepsVariable c) env e
  | [], e, h => by
    obtain rfl : [] = e := Except.ok.inj h
    exact .nil
  | (k, v) :: env, e, h => by
    simp only [renderStepEnv, bind_eq_ok, pure_eq_ok] at h
    obtain ⟨w, hw, more, hmore, rfl⟩ := h
    exact .cons (renderValue_keeps hw) (renderStepEnv_keeps hmore)

/-- The rendered step has the same variables in the same order. -/
def KeepsEnv (c : Coordinate) (s s' : Step) : Prop := List.Forall₂ (KeepsVariable c) s.env s'.env

theorem renderSteps_keep {c : Coordinate} {ss ss' : List Step} (h : renderSteps (raw c) ss = .ok ss') :
    List.Forall₂ (KeepsEnv c) ss ss' := by
  refine (renderSteps_eq_ok.1 h).imp fun s s' hs => ?_
  simp only [renderStep, bind_eq_ok, pure_eq_ok] at hs
  obtain ⟨_, _, _, _, _, _, env, henv, rfl⟩ := hs
  exact renderStepEnv_keeps henv

/-! ## Instances -/

/-- The variables of an instance do not come from its steps. -/
theorem env_of_steps {j : Job} {base : Assoc Value} {steps : List Step} {n : Nat} {r : RawCoordinate}
    {i i' : Instance} (h : instanceAt j base n r = .ok i)
    (h' : instanceAt { j with steps := steps } base n r = .ok i') : i'.env = i.env := by
  obtain ⟨_, e, -, he, ⟨hr, -⟩, hi⟩ := instanceAt_eq_ok.1 h
  obtain ⟨_, e', -, he', ⟨hr', -⟩, hi'⟩ := instanceAt_eq_ok.1 h'
  have hcoordinate : i'.coordinate = i.coordinate := raw_injective (hr'.symm.trans hr)
  have hrendered : e' = e := Except.ok.inj (he'.symm.trans he)
  rw [hi', hi, hcoordinate, hrendered]

theorem expand_env_of_steps {j : Job} {base : Assoc Value} {steps : List Step} {is is' : List Instance}
    (h : expand j base = .ok is) (h' : expand { j with steps := steps } base = .ok is') :
    is'.map (·.env) = is.map (·.env) := by
  obtain ⟨axes, haxes, hinstances⟩ := expand_eq_ok.1 h
  obtain ⟨axes', haxes', hinstances'⟩ := expand_eq_ok.1 h'
  obtain rfl : axes = axes' := Except.ok.inj (haxes.symm.trans haxes')
  clear h h'
  generalize (coordinates axes).zipIdx = numbered at hinstances hinstances'
  induction hinstances generalizing is' with
  | nil =>
    cases hinstances'
    rfl
  | cons hi _ ih =>
    obtain ⟨i', rest, hi', hrest, rfl⟩ := List.forall₂_cons_left_iff.1 hinstances'
    rw [List.map_cons, List.map_cons, ih hrest, env_of_steps hi hi']

theorem Layered.of_instanceAt {j : Job} {axes : List (String × List Value)} {base : Assoc Value} {n : Nat}
    {c : Coordinate} {i : Instance} (hbase : (keys base).Nodup) (hjob : (keys j.env).Nodup)
    (hexports : (axes.map fun a => exported a.1).Nodup) (hc : c ∈ grid axes)
    (h : instanceAt j base n (raw c) = .ok i) :
    Layered j base i.coordinate i.env ∧ List.Forall₂ (KeepsEnv i.coordinate) j.steps i.steps := by
  obtain ⟨steps, e, hsteps, he, ⟨hr, -⟩, hi⟩ := instanceAt_eq_ok.1 h
  obtain rfl : c = i.coordinate := raw_injective hr
  have hnodup : ((keys i.coordinate).map exported).Nodup := by
    have hkeys : keys i.coordinate = axes.map (·.1) := keys_of_mem_grid hc
    rw [hkeys, List.map_map]
    exact hexports
  rw [hi]
  exact ⟨layered_of_rendered hbase hjob hnodup (renderJobEnv_rendered he), renderSteps_keep hsteps⟩

/-- **The variables of an instance.** A checked job whose steps' variables are texts can be expanded. In
whatever a checked job is expanded to, each instance lists the axes of the matrix; the variables of the
axes lie over those of the job, and these over the ones below; each step has the variables it had, in
their order and with their placeholders rendered; and with other steps the variables of the instances
would be the same. -/
theorem env_layered {j : Job} (hcheck : check j = .ok ()) (hjob : (keys j.env).Nodup) {base : Assoc Value}
    (hbase : (keys base).Nodup) :
    ((∀ s ∈ j.steps, Worded s.env) → ∃ is, expand j base = .ok is) ∧
    ∀ is, expand j base = .ok is →
      (∃ axes, Matrix.axes j.matrix = .ok axes ∧
        ∀ i ∈ is, (keys i.coordinate).map .text = axes.map (·.1) ∧
          Layered j base i.coordinate i.env ∧ List.Forall₂ (KeepsEnv i.coordinate) j.steps i.steps) ∧
      ∀ steps is', expand { j with steps := steps } base = .ok is' → is'.map (·.env) = is.map (·.env) := by
  obtain ⟨axes, hgrid, hexports⟩ := checkCause_exports (mapError_eq_ok.1 hcheck)
  refine ⟨fun hw => hgrid.expand_total hw base, fun is his => ?_⟩
  refine ⟨⟨_, hgrid.read, fun i hi => ?_⟩, fun steps is' => expand_env_of_steps his⟩
  have hmem : i.coordinate ∈ grid axes := hgrid.expand_coordinates his ▸ List.mem_map_of_mem hi
  have hkeys : keys i.coordinate = axes.map (·.1) := keys_of_mem_grid hmem
  refine ⟨by rw [hkeys, List.map_map, List.map_map]; rfl, ?_⟩
  obtain ⟨n, hat⟩ := exists_instanceAt his hi
  exact Layered.of_instanceAt hbase hjob hexports hmem hat

/-- A job with a variable of the axis's name, one that names the axis, and one of its step. -/
def shadowing : Job where
  id := "build"
  steps := [{ name := "compile", run := some "make",
              env := [("MODE", .text "$\x7b\x7bmatrix.os\x7d\x7d"), ("CI", .null)] }]
  matrix := .map [(.text "os", .list [.text "linux", .text "macos"])]
  env := [("TARGET", .text "$\x7b\x7b matrix.os \x7d\x7d"), ("MATRIX_OS", .text "any")]

theorem env_layered_shadowing : check shadowing = .ok () ∧ ∃ is,
    expand shadowing [("TARGET", .text "none"), ("CI", .text "true")] = .ok is ∧ is.length = 2 ∧
    ∀ i ∈ is, (keys i.env).Pairwise (· < ·) ∧ List.lookup "CI" i.env = some (.text "true") ∧
      List.lookup "MODE" i.env = none ∧ ∃ os, i.coordinate = [("os", os)] ∧
        List.lookup "MATRIX_OS" i.env = some (.text os.plain) ∧
        List.lookup "TARGET" i.env = some (.text os.plain) := by
  have hcheck : check shadowing = .ok () := eq_ok_of_toOption (by decide +kernel)
  have hbase : (keys [("TARGET", Value.text "none"), ("CI", .text "true")]).Nodup := by decide
  obtain ⟨hreturns, hone⟩ := env_layered hcheck (by decide) hbase
  have hworded : ∀ s ∈ shadowing.steps, Worded s.env := List.forall_mem_singleton.2
    (List.forall_mem_cons.2 ⟨.inr ⟨_, rfl⟩, List.forall_mem_singleton.2 (.inl rfl)⟩)
  obtain ⟨is, his⟩ := hreturns hworded
  obtain ⟨⟨axes, haxes, hlayered⟩, -⟩ := hone is his
  refine ⟨hcheck, is, his, ?_, fun i hi => ?_⟩
  · have hnumbered := congrArg List.length (expand_numbered rfl his)
    rw [List.length_map] at hnumbered
    exact hnumbered
  obtain rfl : axes = [(.text "os", [.text "linux", .text "macos"])] := (Except.ok.inj haxes).symm
  obtain ⟨hkeys, h, -⟩ := hlayered i hi
  obtain ⟨os, hos⟩ : ∃ os, i.coordinate = [("os", os)] := by
    generalize i.coordinate = c at hkeys
    match c with
    | [] => simp [keys] at hkeys
    | [(a, v)] => exact ⟨v, by simpa [keys] using hkeys⟩
    | _ :: _ :: _ => simp [keys] at hkeys
  rw [hos] at h
  have haxis : exported "os" = "MATRIX_OS" := by decide +kernel
  have hother : ∀ k, "MATRIX_OS" ≠ k → ∀ a ∈ keys [("os", os)], exported a ≠ k := by
    intro k hk a ha
    obtain rfl : a = "os" := by simpa [keys] using ha
    rwa [haxis]
  obtain ⟨_, ⟨t, ht, rfl⟩, htarget⟩ := h.ofJob "TARGET" _ (hother _ (by decide)) rfl
  have hseg : segments "$\x7b\x7b matrix.os \x7d\x7d".toList = [.axis "os"] := by decide +kernel
  obtain rfl : os.plain = t := by
    rw [Value.plain_text, render, hseg] at ht
    cases hos : textFor (fun a => List.lookup a [("os", os)]) "os" with
    | error e => simp [renderAll, Segment.render, hos, bind, Except.bind, Except.map] at ht
    | ok u =>
      obtain ⟨v, hv, -, rfl⟩ := textFor_eq_ok.1 hos
      obtain rfl : os = v := Option.some.inj hv
      simpa [renderAll, Segment.render, hos, bind, Except.bind, pure, Except.pure, Except.map] using ht
  have hci := h.below "CI" (hother _ (by decide)) rfl
  have hmode := h.below "MODE" (hother _ (by decide)) rfl
  exact ⟨h.ascending, hci, hmode, os, hos, haxis ▸ h.ofAxis "os" os (by simp), htarget⟩

end MergeGate.Matrix
