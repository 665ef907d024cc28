/-
The combinations of a matrix in their order. The positions on the axes are the digits of the number of a
combination, each axis having a base of its own; hence every choice of positions comes once, and the
first axis decides the order first (`coordinates_enumerates`). Expansion makes one instance of each
combination, numbered by its place (`expansion_enumerates`).
-/
import Mathlib.Algebra.BigOperators.Ring.List
import Mathlib.Algebra.GroupWithZero.Nat
import MergeGate.Proofs.Matrix

namespace MergeGate.Matrix

/-! ## Positions -/

/-- The positions on axes of these sizes at the combination numbered `m`: an axis moves on when the axes
behind it have run through their combinations, and at its end it starts over. -/
def positions : List Nat → Nat → List Nat
  | [], _ => []
  | n :: ns, m => m / ns.prod % n :: positions ns m

theorem positions_getElem? (ns : List Nat) (m k : Nat) :
    (positions ns m)[k]? = ns[k]?.map fun n => m / (ns.drop (k + 1)).prod % n := by
  induction ns generalizing k with
  | nil => simp [positions]
  | cons n ns ih =>
    cases k with
    | zero => simp [positions]
    | succ k => simpa [positions] using ih k

/-- The positions come again when all combinations have been run through. -/
theorem positions_mod (ns : List Nat) (m : Nat) : positions ns (m % ns.prod) = positions ns m := by
  induction ns generalizing m with
  | nil => rfl
  | cons n ns ih =>
    have hhead : m % (n * ns.prod) / ns.prod % n = m / ns.prod % n := by
      rw [Nat.mod_mul_left_div_self, Nat.mod_mod]
    have htail : positions ns (m % (n * ns.prod)) = positions ns m := by
      rw [← ih, Nat.mod_mul_left_mod, ih]
    rw [List.prod_cons, positions, positions, hhead, htail]

/-- The first position counts how often the other axes have been run through. -/
theorem positions_cons {n m : Nat} {ns : List Nat} (h : m < (n :: ns).prod) :
    positions (n :: ns) m = m / ns.prod :: positions ns (m % ns.prod) := by
  rw [List.prod_cons, Nat.mul_comm] at h
  rw [positions, positions_mod, Nat.mod_eq_of_lt (Nat.div_lt_of_lt_mul h)]

/-- Later combinations have greater positions, the first axis deciding first. -/
theorem positions_lt {ns : List Nat} {m m' : Nat} (hlt : m < m') (h : m' < ns.prod) :
    positions ns m < positions ns m' := by
  induction ns generalizing m m' with
  | nil =>
    rw [List.prod_nil] at h
    omega
  | cons n ns ih =>
    rw [positions_cons (hlt.trans h), positions_cons h, List.cons_lt_cons_iff]
    have hpos : 0 < ns.prod := by
      refine Nat.pos_of_ne_zero fun hzero => ?_
      simp [hzero] at h
    rcases (Nat.div_le_div_right (c := ns.prod) hlt.le).lt_or_eq with hdiv | hdiv
    · exact .inl hdiv
    · refine .inr ⟨hdiv, ih ?_ (Nat.mod_lt _ hpos)⟩
      have hm := Nat.div_add_mod m ns.prod
      have hm' := Nat.div_add_mod m' ns.prod
      rw [hdiv] at hm
      omega

/-- Every choice of positions is met. -/
theorem exists_positions {ps ns : List Nat} (h : List.Forall₂ (· < ·) ps ns) :
    ∃ m < ns.prod, positions ns m = ps := by
  induction h with
  | nil => exact ⟨0, by simp, rfl⟩
  | @cons p n ps ns hp _ ih =>
    obtain ⟨m, hm, rfl⟩ := ih
    have hlt : p * ns.prod + m < (n :: ns).prod := by
      rw [List.prod_cons]
      calc p * ns.prod + m < p * ns.prod + ns.prod := by omega
        _ = (p + 1) * ns.prod := by rw [Nat.succ_mul]
        _ ≤ n * ns.prod := Nat.mul_le_mul_right _ hp
    refine ⟨p * ns.prod + m, hlt, ?_⟩
    have hdiv : (p * ns.prod + m) / ns.prod = p := by
      rw [Nat.mul_comm, Nat.mul_add_div (by omega), Nat.div_eq_of_lt hm, Nat.add_zero]
    have hmod : (p * ns.prod + m) % ns.prod = m := by
      rw [Nat.mul_comm, Nat.mul_add_mod, Nat.mod_eq_of_lt hm]
    rw [positions_cons hlt, hdiv, hmod]

/-! ## Coordinates -/

/-- Lists of one length, put together, are counted off block by block. -/
theorem getElem?_flatMap_blocks {α β : Type} {f : α → List β} {n q : Nat} (hf : ∀ x, (f x).length = n)
    (hq : q < n) (xs : List α) (p : Nat) :
    (xs.flatMap f)[n * p + q]? = xs[p]?.bind fun x => (f x)[q]? := by
  induction xs generalizing p with
  | nil => simp
  | cons x xs ih =>
    rw [List.flatMap_cons]
    cases p with
    | zero => rw [List.getElem?_append_left (by rw [hf]; omega)]; simp
    | succ p =>
      rw [List.getElem?_append_right (by rw [hf, Nat.mul_succ]; omega), hf,
        show n * (p + 1) + q - n = n * p + q by rw [Nat.mul_succ]; omega, ih, List.getElem?_cons_succ]

/-- How many values each axis has. -/
def sizes (axes : List (Value × List Value)) : List Nat := axes.map (·.2.length)

theorem length_coordinates (axes : List (Value × List Value)) :
    (coordinates axes).length = (sizes axes).prod := by
  induction axes with
  | nil => rfl
  | cons a axes ih =>
    obtain ⟨axis, vs⟩ := a
    simp [coordinates, sizes, List.length_flatMap, ih]

/-- A coordinate takes from each axis, in their order, the value at its position. -/
theorem coordinates_getElem? {axes : List (Value × List Value)} {m : Nat} (h : m < (sizes axes).prod) :
    ∃ r, (coordinates axes)[m]? = some r ∧ r.map (·.1) = axes.map (·.1) ∧
      ∀ (k : Nat) (axis : Value) (vs : List Value), axes[k]? = some (axis, vs) →
        ∃ p v, (positions (sizes axes) m)[k]? = some p ∧ vs[p]? = some v ∧ r[k]? = some (axis, v) := by
  induction axes generalizing m with
  | nil =>
    obtain rfl : m = 0 := by simpa [sizes] using h
    exact ⟨[], rfl, rfl, by simp⟩
  | cons a axes ih =>
    obtain ⟨axis, vs⟩ := a
    have hsizes : sizes ((axis, vs) :: axes) = vs.length :: sizes axes := rfl
    rw [hsizes] at h ⊢
    have hpos : 0 < (sizes axes).prod := by
      refine Nat.pos_of_ne_zero fun hzero => ?_
      simp [hzero] at h
    have hlt : m / (sizes axes).prod < vs.length := by
      rw [List.prod_cons, Nat.mul_comm] at h
      exact Nat.div_lt_of_lt_mul h
    obtain ⟨c, hc, hkeys, hrest⟩ := ih (Nat.mod_lt m hpos)
    refine ⟨(axis, vs[m / (sizes axes).prod]) :: c, ?_, by rw [List.map_cons, List.map_cons, hkeys], ?_⟩
    · have hblock := getElem?_flatMap_blocks (f := fun v => (coordinates axes).map ((axis, v) :: ·))
        (fun v => by rw [List.length_map, length_coordinates]) (Nat.mod_lt m hpos) vs (m / (sizes axes).prod)
      rw [Nat.div_add_mod] at hblock
      rw [coordinates, hblock, List.getElem?_eq_getElem hlt]
      simp [hc]
    · rw [positions_cons h]
      intro k axis' vs' hk
      cases k with
      | zero =>
        obtain ⟨rfl, rfl⟩ : axis = axis' ∧ vs = vs' := by simpa using hk
        exact ⟨_, _, rfl, List.getElem?_eq_getElem hlt, rfl⟩
      | succ k => exact hrest k axis' vs' hk

/-- The coordinates are all combinations of the axes' values: entry `m` takes from the axis `k` the value
at the position that the formula gives, every choice of positions belongs to one entry, and the entries
stand in the order of their positions, the first axis deciding first. -/
structure Enumerates (axes : List (Value × List Value)) (cs : List RawCoordinate) : Prop where
  count : cs.length = (sizes axes).prod
  entry : ∀ m < cs.length, ∃ r, cs[m]? = some r ∧ r.map (·.1) = axes.map (·.1) ∧
    ∀ (k : Nat) (axis : Value) (vs : List Value), axes[k]? = some (axis, vs) →
      ∃ v, vs[m / (sizes (axes.drop (k + 1))).prod % vs.length]? = some v ∧ r[k]? = some (axis, v)
  once : ∀ ps, List.Forall₂ (· < ·) ps (sizes axes) →
    ∃! m, m < cs.length ∧ positions (sizes axes) m = ps
  ordered : ∀ m m', m < m' → m' < cs.length → positions (sizes axes) m < positions (sizes axes) m'

theorem coordinates_enumerates (axes : List (Value × List Value)) : Enumerates axes (coordinates axes) where
  count := length_coordinates axes
  entry := by
    intro m hm
    rw [length_coordinates] at hm
    obtain ⟨c, hc, hkeys, hentry⟩ := coordinates_getElem? hm
    refine ⟨c, hc, hkeys, fun k axis vs hk => ?_⟩
    obtain ⟨p, v, hp, hv, hck⟩ := hentry k axis vs hk
    rw [positions_getElem?, sizes, List.getElem?_map, hk] at hp
    obtain rfl : m / (sizes (axes.drop (k + 1))).prod % vs.length = p := by
      simpa [sizes, List.map_drop] using hp
    exact ⟨v, hv, hck⟩
  once := by
    intro ps hps
    rw [length_coordinates]
    obtain ⟨m, hm, rfl⟩ := exists_positions hps
    refine ⟨m, ⟨hm, rfl⟩, fun m' ⟨hm', heq⟩ => ?_⟩
    rcases Nat.lt_trichotomy m' m with hlt | rfl | hlt
    · exact absurd (heq ▸ positions_lt hlt hm) (lt_irrefl _)
    · rfl
    · exact absurd (heq ▸ positions_lt hlt hm') (lt_irrefl _)
  ordered := by
    intro m m' hlt hm'
    rw [length_coordinates] at hm'
    exact positions_lt hlt hm'

/-! ## Expansion -/

/-- **Expansion enumerates the combinations.** Without axes there is one empty coordinate, and with an
axis that has no value there is none. The coordinates of any axes are all combinations of their values in
lexicographic order. A checked job whose steps' variables are texts can be expanded; and what any job is
expanded to is one instance per coordinate, which has the number of its coordinate and lists all axes in
declaration order. -/
theorem expansion_enumerates :
    coordinates [] = [[]] ∧
    (∀ axes, (∃ a ∈ axes, a.2 = []) → coordinates axes = []) ∧
    (∀ axes, Enumerates axes (coordinates axes)) ∧
    ∀ (j : Job) (base : Assoc Value) (axes : List (Value × List Value)),
      Matrix.axes j.matrix = .ok axes →
        (check j = .ok () → (∀ s ∈ j.steps, Worded s.env) → ∃ is, expand j base = .ok is) ∧
        ∀ is, expand j base = .ok is →
          is.map (fun i => (raw i.coordinate, i.index)) = (coordinates axes).zipIdx ∧
            ∀ i ∈ is, (raw i.coordinate).map (·.1) = axes.map (·.1) := by
  refine ⟨rfl, ?_, coordinates_enumerates, ?_⟩
  · rintro axes ⟨a, ha, hempty⟩
    have hsize : 0 ∈ sizes axes := List.mem_map.2 ⟨a, ha, by rw [hempty]; rfl⟩
    rw [← List.length_eq_zero_iff, length_coordinates]
    exact List.prod_eq_zero hsize
  · intro j base axes hread
    constructor
    · intro hcheck hw
      obtain ⟨names, hgrid⟩ := checkCause_ok (mapError_eq_ok.1 hcheck)
      exact hgrid.expand_total hw base
    · intro is his
      refine ⟨expand_numbered hread his, fun i hi => ?_⟩
      obtain ⟨m, hm, hget⟩ := List.mem_iff_getElem.1 (raw_mem_coordinates hread his hi)
      obtain ⟨c, hc, hkeys, -⟩ := (coordinates_enumerates axes).entry m hm
      rw [List.getElem?_eq_getElem hm, hget] at hc
      rw [Option.some.inj hc, hkeys]

/-- Two systems and three toolchains. -/
def sixfold : Job where
  id := "test"
  steps := [{ name := "test on $\x7b\x7b matrix.os \x7d\x7d", run := some "cargo test" }]
  matrix := .map [(.text "os", .list [.text "linux", .text "macos"]),
    (.text "toolchain", .list [.text "stable", .text "beta", .text "nightly"])]

theorem expansion_enumerates_sixfold : ∃ axes is, Matrix.axes sixfold.matrix = .ok axes ∧
    check sixfold = .ok () ∧ expand sixfold [] = .ok is ∧ is.map (·.index) = [0, 1, 2, 3, 4, 5] ∧
    is.map (fun i => (raw i.coordinate, i.index)) = (coordinates axes).zipIdx ∧
    (coordinates axes)[3]? = some [(.text "os", .text "macos"), (.text "toolchain", .text "stable")] := by
  obtain ⟨-, -, -, hexpand⟩ := expansion_enumerates
  have hcheck : check sixfold = .ok () := eq_ok_of_toOption (by decide +kernel)
  obtain ⟨hreturns, hone⟩ := hexpand sixfold [] _ rfl
  obtain ⟨is, his⟩ := hreturns hcheck (by simp [sixfold, Worded])
  obtain ⟨hnumbered, -⟩ := hone is his
  refine ⟨_, is, rfl, hcheck, his, ?_, hnumbered, rfl⟩
  have hindex := congrArg (List.map (·.2)) hnumbered
  rw [List.map_map] at hindex
  exact hindex

end MergeGate.Matrix
