/-
What a checked matrix is like and what its expansion does. `Grid` puts the check into words: axes
with proper and distinct names, values whose texts are distinct on each axis, and no placeholder
without an axis. A checked job expands to one instance per point of its grid (`expand_coordinates`),
and it does expand as soon as its steps' variables are texts (`Grid.expand_total`).
-/
import Mathlib.Data.List.Forall2
import MergeGate.Matrix.Expand
import MergeGate.Proofs.Assoc
import MergeGate.Proofs.Matrix.Placeholder

namespace MergeGate

/-! ## Marks -/

namespace Value

/-- What stays a scalar with something put into it holds no mark. -/
theorem hasMark_of_isScalar_insert {whole v : Value} {level : Nat} (hw : whole.isScalar = false)
    (h : (insert whole level v).isScalar = true) : v.hasMark = false := by
  cases v with
  | again n isMap =>
    rw [insert] at h
    split at h
    · simp [hw] at h
    · simp [isScalar] at h
  | list items => simp [insert, isScalar] at h
  | tuple items => simp [insert, isScalar] at h
  | set items => simp [insert, isScalar] at h
  | map entries => simp [insert, isScalar] at h
  | _ => rfl

theorem anyMark_of_isScalar_insertAll {whole : Value} {level : Nat} (hw : whole.isScalar = false) :
    ∀ {items : List Value}, (∀ v ∈ insertAll whole level items, v.isScalar = true) →
      anyMark items = false
  | [], _ => rfl
  | v :: items, h => by
    simp only [insertAll, List.forall_mem_cons] at h
    simp [anyMark, hasMark_of_isScalar_insert hw h.1, anyMark_of_isScalar_insertAll hw h.2]

/-- A list or tuple of scalars holds no mark. -/
theorem hasMark_of_scalars {v : Value} {items : List Value} (hv : v = .list items ∨ v = .tuple items)
    (h : ∀ x ∈ v.itemsOf, x.isScalar = true) : v.hasMark = false := by
  have hmark : v.hasMark = anyMark items := by rcases hv with rfl | rfl <;> rfl
  have hscalar : v.isScalar = false := by rcases hv with rfl | rfl <;> rfl
  have hitems : v.itemsOf = if anyMark items then insertAll v 0 items else items := by
    rcases hv with rfl | rfl <;> rfl
  by_contra hne
  have hany : anyMark items = true := by simpa [hmark] using hne
  rw [hitems, if_pos hany] at h
  simp [anyMark_of_isScalar_insertAll hscalar h] at hany

theorem anyMarkIn_eq_false {es : List (Value × Value)} (h : ∀ e ∈ es, e.2.hasMark = false) :
    anyMarkIn es = false := by
  induction es with
  | nil => rfl
  | cons e es ih =>
    obtain ⟨k, v⟩ := e
    simp only [List.forall_mem_cons] at h
    simp [anyMarkIn, h.1, ih h.2]

end Value

namespace Matrix

/-! ## Points of a grid -/

/-- All combinations of the axes' values, the last axis varying fastest. -/
def grid : List (String × List Value) → List Coordinate
  | [] => [[]]
  | (axis, vs) :: rest => vs.flatMap fun v => (grid rest).map ((axis, v) :: ·)

/-- A coordinate as the expansion carries it, its axes as values. -/
def raw (c : Coordinate) : RawCoordinate := c.map fun p => (.text p.1, p.2)

/-- A point has one value of each axis, in the order of the axes. -/
theorem mem_grid {axes : List (String × List Value)} {c : Coordinate} :
    c ∈ grid axes ↔ List.Forall₂ (fun p a => p.1 = a.1 ∧ p.2 ∈ a.2) c axes := by
  induction axes generalizing c with
  | nil => simp [grid]
  | cons a axes ih =>
    obtain ⟨axis, vs⟩ := a
    simp only [grid, List.mem_flatMap, List.mem_map, List.forall₂_cons_right_iff, ih]
    constructor
    · rintro ⟨v, hv, rest, hrest, rfl⟩
      exact ⟨(axis, v), rest, ⟨rfl, hv⟩, hrest, rfl⟩
    · rintro ⟨⟨_, v⟩, rest, ⟨rfl, hv⟩, hrest, rfl⟩
      exact ⟨v, hv, rest, hrest, rfl⟩

theorem keys_of_mem_grid {axes : List (String × List Value)} {c : Coordinate} (h : c ∈ grid axes) :
    c.map (·.1) = axes.map (·.1) := by
  rw [mem_grid] at h
  induction h with
  | nil => rfl
  | cons hp _ ih => rw [List.map_cons, List.map_cons, hp.1, ih]

/-- Points that differ have different texts somewhere. -/
theorem grid_texts_nodup : ∀ {axes : List (String × List Value)},
    (∀ a ∈ axes, (a.2.map Value.plain).Nodup) →
      ((grid axes).map fun c => c.map (·.2.plain)).Nodup
  | [], _ => by simp [grid]
  | (axis, vs) :: axes, h => by
    simp only [List.forall_mem_cons] at h
    have htexts : (grid ((axis, vs) :: axes)).map (fun c => c.map (·.2.plain)) =
        (vs.map Value.plain).flatMap fun s =>
          ((grid axes).map fun c => c.map (·.2.plain)).map (s :: ·) := by
      simp [grid, List.map_flatMap, List.flatMap_map, Function.comp_def]
    rw [htexts, List.nodup_flatMap]
    refine ⟨fun s _ => (grid_texts_nodup h.2).map (List.cons_injective), ?_⟩
    refine h.1.imp fun hne => ?_
    simp only [Function.onFun, List.disjoint_left, List.mem_map]
    rintro _ ⟨t, _, rfl⟩ ⟨u, _, heq⟩
    exact hne (List.cons.inj heq).1.symm

theorem coordinates_text (axes : List (String × List Value)) :
    coordinates (axes.map fun a => (.text a.1, a.2)) = (grid axes).map raw := by
  induction axes with
  | nil => rfl
  | cons a axes ih =>
    obtain ⟨axis, vs⟩ := a
    simp [coordinates, grid, ih, List.map_flatMap, raw, Function.comp_def]

/-- The values of a coordinate can be written. -/
def Writable (c : Coordinate) : Prop := ∀ p ∈ c, p.2.isTooLong = false

theorem named_raw : ∀ {c : Coordinate}, Writable c → named (raw c) = .ok c
  | [], _ => rfl
  | (a, v) :: c, h => by
    obtain ⟨hv, hrest⟩ := List.forall_mem_cons.1 h
    have hnamed := named_raw hrest
    simp only [raw] at hnamed
    simp [raw, named, show v.isTooLong = false from hv, hnamed, Except.map]

theorem named_eq_ok : ∀ {r : RawCoordinate} {c : Coordinate}, named r = .ok c ↔ r = raw c ∧ Writable c
  | [], c => by cases c <;> simp [named, raw, Writable]
  | (k, v) :: r, c => by
    constructor
    · intro h
      cases k with
      | text a =>
        rw [named] at h
        split at h
        · cases h
        · next hv =>
          obtain ⟨d, hnamed, rfl⟩ := map_eq_ok.1 h
          obtain ⟨rfl, hd⟩ := named_eq_ok.1 hnamed
          exact ⟨rfl, List.forall_mem_cons.2 ⟨Bool.eq_false_iff.2 hv, hd⟩⟩
      | _ => cases h
    · rintro ⟨h, hc⟩
      rw [h, named_raw hc]

/-! ## The check -/

/-- A job whose matrix has these axes. -/
structure Grid (j : Job) (axes : List (String × List Value)) : Prop where
  read : Matrix.axes j.matrix = .ok (axes.map fun a => (.text a.1, a.2))
  proper : ∀ a ∈ axes, isAxisName a.1.toList = true
  distinct : ∀ a ∈ axes, (a.2.map Value.plain).Nodup
  writable : ∀ a ∈ axes, ∀ v ∈ a.2, v.isTooLong = false
  env : ∀ v ∈ envValues j, v.isTooLong = false
  names : (axes.map (·.1)).Nodup
  covered : ∀ s ∈ jobTexts j, ∀ a ∈ placeholders s, a ∈ axes.map (·.1)

theorem checkAxis_ok {key values : Value} (h : checkAxis key values = .ok ()) :
    ∃ axis vs, key = .text axis ∧ isAxisName axis.toList = true ∧ items values = .ok vs ∧
      values.hasMark = false ∧ (vs.map Value.plain).Nodup ∧ ∀ v ∈ vs, v.isTooLong = false := by
  cases key with
  | text axis =>
    simp only [checkAxis] at h
    split at h
    · cases h
    · next hname =>
      have hsequence : ∃ xs, values = .list xs ∨ values = .tuple xs := by
        cases values with
        | list xs => exact ⟨xs, .inl rfl⟩
        | tuple xs => exact ⟨xs, .inr rfl⟩
        | _ => simp at h
      obtain ⟨xs, hxs⟩ := hsequence
      have hitems : items values = .ok values.itemsOf := by rcases hxs with rfl | rfl <;> rfl
      have hrest : (∀ v ∈ values.itemsOf, v.isScalar = true) ∧
          Text.repeated (values.itemsOf.map Value.plain) = [] ∧ ∀ v ∈ values.itemsOf, v.isTooLong = false := by
        rcases hxs with rfl | rfl
        all_goals
          simp only at h
          split at h
          · cases h
          · next hscalar =>
            split at h
            · cases h
            · next hlong =>
              split at h
              · next hdup => exact ⟨by simpa using hscalar, hdup, by simpa using hlong⟩
              · cases h
      exact ⟨axis, values.itemsOf, rfl, by simpa using hname, hitems,
        Value.hasMark_of_scalars hxs hrest.1, Text.repeated_eq_nil_iff.1 hrest.2.1, hrest.2.2⟩
  | _ => simp [checkAxis] at h

theorem checkAxes_ok : ∀ {es : List (Value × Value)}, checkAxes es = .ok () →
    ∃ axes : List (String × List Value), axesOf es = .ok (axes.map fun a => (.text a.1, a.2)) ∧
      axisNames es = axes.map (·.1) ∧ (∀ e ∈ es, e.2.hasMark = false) ∧
      ∀ a ∈ axes, isAxisName a.1.toList = true ∧ (a.2.map Value.plain).Nodup ∧ ∀ v ∈ a.2, v.isTooLong = false
  | [], _ => ⟨[], rfl, rfl, by simp, by simp⟩
  | (k, v) :: es, h => by
    simp only [checkAxes, Except.bind_eq_ok] at h
    obtain ⟨_, hk, hes⟩ := h
    obtain ⟨axis, vs, rfl, hname, hitems, hmark, hvalues⟩ := checkAxis_ok hk
    obtain ⟨axes, hread, hnames, hmarks, haxes⟩ := checkAxes_ok hes
    refine ⟨(axis, vs) :: axes, ?_, ?_, ?_, ?_⟩
    · simp [axesOf, hitems, hread, bind, Except.bind, pure, Except.pure]
    · simpa [axisNames, Value.text?] using hnames
    · exact List.forall_mem_cons.2 ⟨hmark, hmarks⟩
    · exact List.forall_mem_cons.2 ⟨⟨hname, hvalues⟩, haxes⟩

/-- No two axes export the same variable. -/
theorem checkExports_ok : ∀ {names seen : List String}, checkExports seen names = .ok () →
    (names.map exported).Nodup ∧ ∀ n ∈ names, exported n ∉ seen.map exported
  | [], _, _ => by simp
  | n :: names, seen, h => by
    simp only [checkExports] at h
    split at h
    · cases h
    · next hnone =>
      obtain ⟨hnodup, hseen⟩ := checkExports_ok h
      simp only [List.map_append, List.map_cons, List.map_nil, List.mem_append, List.mem_singleton,
        not_or] at hseen
      have hn : exported n ∉ seen.map exported := by
        intro hmem
        obtain ⟨m, hm, heq⟩ := List.mem_map.1 hmem
        simpa [heq] using List.find?_eq_none.1 hnone m hm
      have hnew : exported n ∉ names.map exported := by
        intro hmem
        obtain ⟨m, hm, heq⟩ := List.mem_map.1 hmem
        exact (hseen m hm).2 heq
      rw [List.map_cons]
      exact ⟨List.nodup_cons.2 ⟨hnew, hnodup⟩, List.forall_mem_cons.2 ⟨hn, fun m hm => (hseen m hm).1⟩⟩

/-- A job that passes the check has a grid, and its axes export different variables. -/
theorem checkCause_exports {j : Job} (h : checkCause j = .ok ()) :
    ∃ axes, Grid j axes ∧ (axes.map fun a => exported a.1).Nodup := by
  rw [checkCause] at h
  split at h
  · next es hmatrix =>
    simp only [bind_eq_ok] at h
    obtain ⟨_, haxes, _, hexports, h⟩ := h
    split at h
    · cases h
    next hshort =>
    split at h
    · cases h
    · next hnone =>
      obtain ⟨axes, hread, hnames, hmarks, hvalues⟩ := checkAxes_ok haxes
      have hentries : (Value.map es).entriesOf = es := by
        simp [Value.entriesOf, Value.anyMarkIn_eq_false hmarks]
      rw [hnames] at hexports hnone
      have hexported := (checkExports_ok hexports).1
      refine ⟨axes, ⟨?_, fun a ha => (hvalues a ha).1, fun a ha => (hvalues a ha).2.1,
        fun a ha => (hvalues a ha).2.2, by simpa using hshort, hexported.of_map, ?_⟩,
        by simpa [Function.comp_def] using hexported⟩
      · simp [Matrix.axes, hmatrix, axisEntries, hentries, Except.bind, hread]
      · intro s hs a ha
        simpa using List.find?_eq_none.1 hnone a (List.mem_flatMap.2 ⟨s, hs, ha⟩)
  · cases h

theorem checkCause_ok {j : Job} (h : checkCause j = .ok ()) : ∃ axes, Grid j axes :=
  (checkCause_exports h).imp fun _ hgrid => hgrid.1

/-! ## Rendering -/

theorem mem_placeholders {a s : String} : a ∈ placeholders s ↔ .axis a ∈ segments s.toList := by
  simp only [placeholders, List.mem_filterMap]
  constructor
  · rintro ⟨_ | name, hseg, h⟩
    · simp at h
    · simpa [← (Option.some.inj h)] using hseg
  · intro h
    exact ⟨_, h, rfl⟩

/-- A coordinate's values are found under the names of their axes. -/
theorem field?_raw (c : Coordinate) (a : String) : Value.field? a (raw c) = List.lookup a c := by
  induction c with
  | nil => rfl
  | cons p c ih =>
    rw [Assoc.lookup_cons, ← ih]
    by_cases h : a = p.1
    · simp [Value.field?, raw, h]
    · have hne : (p.1 == a) = false := by simpa using fun he => h he.symm
      simp [Value.field?, raw, h, hne]

section Rendering

variable {c : Coordinate} (hc : Writable c)
include hc

/-- A text is rendered when the coordinate has a value for each of its placeholders. -/
theorem renderText_total {s : String} (h : ∀ a ∈ placeholders s, a ∈ c.map (·.1)) :
    ∃ t, renderText (raw c) s = .ok t := by
  obtain ⟨cs, hcs⟩ : ∃ cs, renderAll (fun a => Value.field? a (raw c)) (segments s.toList) = .ok cs := by
    refine renderAll_total fun a ha => ?_
    have hvalue := Assoc.isSome_lookup_iff.2 (h a (mem_placeholders.2 ha))
    obtain ⟨v, hv⟩ := Option.isSome_iff_exists.1 hvalue
    exact ⟨v.plain, textFor_eq_ok.2 ⟨v, (field?_raw c a).trans hv, hc _ (Assoc.mem_of_lookup hv), rfl⟩⟩
  exact ⟨String.ofList cs, by simp [renderText, render, hcs, Except.map, Except.mapError]⟩

theorem renderText?_total {s? : Option String}
    (h : ∀ s ∈ nonEmpty s?, ∀ a ∈ placeholders s, a ∈ c.map (·.1)) :
    ∃ t, renderText? (raw c) s? = .ok t := by
  cases s? with
  | none => exact ⟨none, rfl⟩
  | some s =>
    have hs : ∀ a ∈ placeholders s, a ∈ c.map (·.1) := by
      by_cases hempty : s = ""
      · simp [hempty, placeholders, segments]
      · exact h s (by simp [nonEmpty, hempty])
    obtain ⟨t, ht⟩ := renderText_total hc hs
    exact ⟨some t, by simp [renderText?, ht, Except.map]⟩

/-- Variables that are texts, or nothing. -/
def Worded (env : Assoc Value) : Prop := ∀ p ∈ env, p.2 = .null ∨ ∃ t, p.2 = .text t

theorem renderStepEnv_total : ∀ {env : Assoc Value}, Worded env →
    (∀ p ∈ env, ∀ a ∈ placeholders p.2.plain, a ∈ c.map (·.1)) →
      ∃ e, renderStepEnv (raw c) env = .ok e
  | [], _, _ => ⟨[], rfl⟩
  | (k, v) :: env, hw, h => by
    simp only [Worded, List.forall_mem_cons] at hw h
    obtain ⟨more, hmore⟩ := renderStepEnv_total hw.2 h.2
    obtain ⟨t, ht⟩ : ∃ t, renderValue (raw c) v = .ok t := by
      rcases hw.1 with rfl | ⟨s, rfl⟩
      · exact ⟨.null, rfl⟩
      · obtain ⟨t, ht⟩ := renderText_total hc h.1
        rw [Value.plain_text] at ht
        exact ⟨.text t, by simp [renderValue, ht, Except.map]⟩
    exact ⟨(k, t) :: more, by simp [renderStepEnv, ht, hmore, bind, Except.bind, pure, Except.pure]⟩

theorem renderJobEnv_total : ∀ {env : Assoc Value}, (∀ p ∈ env, p.2.isTooLong = false) →
    (∀ p ∈ env, ∀ a ∈ placeholders p.2.plain, a ∈ c.map (·.1)) →
      ∃ e, renderJobEnv (raw c) env = .ok e
  | [], _, _ => ⟨[], rfl⟩
  | (k, v) :: env, hshort, h => by
    simp only [List.forall_mem_cons] at hshort h
    obtain ⟨more, hmore⟩ := renderJobEnv_total hshort.2 h.2
    obtain ⟨t, ht⟩ := renderText_total hc h.1
    exact ⟨(k, .text t) :: more, by
      simp [renderJobEnv, written, hshort.1, ht, hmore, Except.mapError, bind, Except.bind, pure, Except.pure]⟩

theorem renderStep_total {s : Step} (hw : Worded s.env)
    (h : ∀ t ∈ stepTexts s, ∀ a ∈ placeholders t, a ∈ c.map (·.1)) :
    ∃ s', renderStep (raw c) s = .ok s' := by
  simp only [stepTexts, List.mem_append, or_imp, forall_and] at h
  obtain ⟨⟨⟨hname, hrun⟩, hcwd⟩, henv⟩ := h
  obtain ⟨name?, hname⟩ := renderText?_total hc hname
  obtain ⟨run, hrun⟩ := renderText?_total hc hrun
  obtain ⟨cwd, hcwd⟩ := renderText?_total hc hcwd
  obtain ⟨env, henv⟩ := renderStepEnv_total hc hw fun p hp => henv _ (List.mem_map_of_mem hp)
  obtain ⟨name, hname, -⟩ := map_eq_ok.1 hname
  simp [renderStep, hname, hrun, hcwd, henv, bind, Except.bind, pure, Except.pure]

theorem renderSteps_total : ∀ {ss : List Step}, (∀ s ∈ ss, Worded s.env) →
    (∀ t ∈ ss.flatMap stepTexts, ∀ a ∈ placeholders t, a ∈ c.map (·.1)) →
      ∃ ss', renderSteps (raw c) ss = .ok ss'
  | [], _, _ => ⟨[], rfl⟩
  | s :: ss, hw, h => by
    simp only [List.flatMap_cons, List.forall_mem_append, List.forall_mem_cons] at hw h
    obtain ⟨s', hs'⟩ := renderStep_total hc hw.1 h.1
    obtain ⟨ss', hss'⟩ := renderSteps_total hw.2 h.2
    exact ⟨s' :: ss', by simp [renderSteps, hs', hss', bind, Except.bind, pure, Except.pure]⟩

end Rendering

/-! ## Expansion -/

/-- An instance is the job at a coordinate: its rendered steps and its variables. -/
theorem instanceAt_eq_ok {j : Job} {base : Assoc Value} {n : Nat} {r : RawCoordinate} {i : Instance} :
    instanceAt j base n r = .ok i ↔ ∃ steps env, renderSteps r j.steps = .ok steps ∧
      renderJobEnv r j.env = .ok env ∧ (r = raw i.coordinate ∧ Writable i.coordinate) ∧ i = {
        job := j.id
        coordinate := i.coordinate
        index := n
        steps
        env := layerEnv base env (exports i.coordinate)
        continueOnError := j.continueOnError } := by
  simp only [instanceAt, bind_eq_ok, pure_eq_ok, named_eq_ok]
  constructor
  · rintro ⟨steps, hsteps, env, henv, c, hc, rfl⟩
    exact ⟨steps, env, hsteps, henv, hc, rfl⟩
  · rintro ⟨steps, env, hsteps, henv, hc, hi⟩
    exact ⟨steps, hsteps, env, henv, i.coordinate, hc, hi.symm⟩

/-- There is one instance per coordinate, with its number. -/
theorem instancesFrom_eq_ok {j : Job} {base : Assoc Value} : ∀ {rs : List RawCoordinate} {n : Nat}
    {is : List Instance}, instancesFrom j base n rs = .ok is ↔
      List.Forall₂ (fun r i => instanceAt j base r.2 r.1 = .ok i) (rs.zipIdx n) is
  | [], _, is => by simp [instancesFrom, eq_comm]
  | r :: rs, n, is => by
    simp only [instancesFrom, bind_eq_ok, pure_eq_ok, instancesFrom_eq_ok, List.zipIdx_cons,
      List.forall₂_cons_left_iff]
    constructor
    · rintro ⟨i, hi, rest, hrest, rfl⟩
      exact ⟨i, rest, hi, hrest, rfl⟩
    · rintro ⟨i, rest, hi, hrest, rfl⟩
      exact ⟨i, hi, rest, hrest, rfl⟩

theorem instancesFrom_numbered {j : Job} {base : Assoc Value} {rs : List RawCoordinate} {n : Nat}
    {is : List Instance} (h : instancesFrom j base n rs = .ok is) :
    is.map (fun i => (raw i.coordinate, i.index)) = rs.zipIdx n := by
  rw [instancesFrom_eq_ok] at h
  generalize rs.zipIdx n = numbered at h ⊢
  induction h with
  | nil => rfl
  | cons hi _ ih =>
    obtain ⟨steps, env, -, -, ⟨hr, -⟩, hi⟩ := instanceAt_eq_ok.1 hi
    rw [List.map_cons, ih, ← hr, hi]

theorem expand_eq_ok {j : Job} {base : Assoc Value} {is : List Instance} :
    expand j base = .ok is ↔ ∃ axes, Matrix.axes j.matrix = .ok axes ∧
      List.Forall₂ (fun r i => instanceAt j base r.2 r.1 = .ok i) (coordinates axes).zipIdx is := by
  simp only [expand, bind_eq_ok, instancesFrom_eq_ok]

/-- The instances are the coordinates in their order, numbered from zero. -/
theorem expand_numbered {j : Job} {base : Assoc Value} {axes : List (Value × List Value)}
    (hread : Matrix.axes j.matrix = .ok axes) {is : List Instance} (h : expand j base = .ok is) :
    is.map (fun i => (raw i.coordinate, i.index)) = (coordinates axes).zipIdx := by
  simp only [expand, hread, bind_eq_ok, Except.ok.injEq] at h
  obtain ⟨_, rfl, h⟩ := h
  exact instancesFrom_numbered h

theorem raw_mem_coordinates {j : Job} {base : Assoc Value} {axes : List (Value × List Value)}
    (hread : Matrix.axes j.matrix = .ok axes) {is : List Instance} (h : expand j base = .ok is)
    {i : Instance} (hi : i ∈ is) : raw i.coordinate ∈ coordinates axes := by
  have hpair : (raw i.coordinate, i.index) ∈ (coordinates axes).zipIdx :=
    expand_numbered hread h ▸ List.mem_map_of_mem hi
  exact (List.mem_zipIdx' hpair).2 ▸ List.getElem_mem _

theorem exists_instanceAt {j : Job} {base : Assoc Value} {is : List Instance} {i : Instance}
    (h : expand j base = .ok is) (hi : i ∈ is) : ∃ n, instanceAt j base n (raw i.coordinate) = .ok i := by
  obtain ⟨axes, -, hinstances⟩ := expand_eq_ok.1 h
  obtain ⟨n, hn, rfl⟩ := List.mem_iff_getElem.1 hi
  obtain ⟨hlength, hat⟩ := List.forall₂_iff_get.1 hinstances
  have hinstance := hat n (hlength ▸ hn) hn
  obtain ⟨_, _, -, -, ⟨hr, -⟩, -⟩ := instanceAt_eq_ok.1 hinstance
  exact ⟨_, hr ▸ hinstance⟩

theorem raw_injective : Function.Injective raw := by
  refine List.map_injective_iff.2 fun p q h => ?_
  obtain ⟨hname, hvalue⟩ := Prod.mk.inj h
  exact Prod.ext (Value.text.inj hname) hvalue

variable {j : Job} {axes : List (String × List Value)}

theorem Grid.expand_eq (h : Grid j axes) (base : Assoc Value) :
    expand j base = instancesFrom j base 0 ((grid axes).map raw) := by
  simp [expand, h.read, coordinates_text, bind, Except.bind]

/-- A job becomes one instance per point of its grid, in order. -/
theorem Grid.expand_coordinates (h : Grid j axes) {base : Assoc Value} {is : List Instance}
    (his : expand j base = .ok is) : is.map (·.coordinate) = grid axes := by
  rw [h.expand_eq] at his
  refine List.map_injective_iff.2 raw_injective ?_
  simpa [Function.comp_def] using congrArg (List.map (·.1)) (instancesFrom_numbered his)

theorem Grid.writable_of_mem (h : Grid j axes) {c : Coordinate} (hc : c ∈ grid axes) : Writable c := by
  intro p hp
  obtain ⟨a, ha, -, hvalue⟩ := exists_of_forall₂ (mem_grid.1 hc) hp
  exact h.writable a ha _ hvalue

theorem Grid.instanceAt_total (h : Grid j axes) (hw : ∀ s ∈ j.steps, Worded s.env)
    {c : Coordinate} (hc : c ∈ grid axes) (base : Assoc Value) (n : Nat) :
    ∃ i, instanceAt j base n (raw c) = .ok i := by
  have hcov : ∀ t ∈ jobTexts j, ∀ a ∈ placeholders t, a ∈ c.map (·.1) := by
    rw [keys_of_mem_grid hc]
    exact h.covered
  simp only [jobTexts, List.forall_mem_append] at hcov
  have hwritable := h.writable_of_mem hc
  have hshort : ∀ p ∈ j.env, p.2.isTooLong = false := fun p hp =>
    h.env _ (List.mem_append_right _ (List.mem_map_of_mem hp))
  obtain ⟨steps, hsteps⟩ := renderSteps_total hwritable hw hcov.1.1
  obtain ⟨env, henv⟩ := renderJobEnv_total hwritable hshort fun p hp => hcov.1.2 _ (List.mem_map_of_mem hp)
  simp [instanceAt, hsteps, henv, named_raw hwritable, bind, Except.bind, pure, Except.pure]

/-- A checked job whose steps' variables are texts can be expanded. -/
theorem Grid.expand_total (h : Grid j axes) (hw : ∀ s ∈ j.steps, Worded s.env) (base : Assoc Value) :
    ∃ is, expand j base = .ok is := by
  have hfrom : ∀ (cs : List Coordinate) (n : Nat), (∀ c ∈ cs, c ∈ grid axes) →
      ∃ is, instancesFrom j base n (cs.map raw) = .ok is := by
    intro cs
    induction cs with
    | nil => exact fun n _ => ⟨[], rfl⟩
    | cons c cs ih =>
      intro n hcs
      obtain ⟨i, hi⟩ := h.instanceAt_total hw (hcs c (by simp)) base n
      obtain ⟨is, his⟩ := ih (n + 1) fun d hd => hcs d (by simp [hd])
      exact ⟨i :: is, by simp [instancesFrom, hi, his, bind, Except.bind, pure, Except.pure]⟩
  rw [h.expand_eq base]
  exact hfrom _ 0 fun c hc => hc

/-- Every coordinate of a checked job has an instance. -/
theorem exists_instance {j : Job} (hcheck : check j = .ok ()) (hw : ∀ s ∈ j.steps, Worded s.env)
    {axes : List (Value × List Value)} (hread : Matrix.axes j.matrix = .ok axes) {c : Coordinate}
    (hc : raw c ∈ coordinates axes) (base : Assoc Value) :
    ∃ is, expand j base = .ok is ∧ ∃ i ∈ is, i.coordinate = c := by
  obtain ⟨_, hgrid⟩ := checkCause_ok (mapError_eq_ok.1 hcheck)
  obtain ⟨is, his⟩ := hgrid.expand_total hw base
  have hraw : is.map (raw ·.coordinate) = coordinates axes := by
    simpa [Function.comp_def] using congrArg (List.map (·.1)) (expand_numbered hread his)
  obtain ⟨i, hi, heq⟩ := List.mem_map.1 (hraw ▸ hc)
  exact ⟨is, his, i, hi, raw_injective heq⟩

end Matrix

end MergeGate
