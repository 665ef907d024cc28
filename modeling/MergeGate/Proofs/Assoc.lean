/-
Maps in insertion order, key by key: what `put`, `erase` and `putAll` leave at each key, and how they
change the number of entries. The scheduler's phases are such a map, and everything said about them
is said through `List.lookup`.
-/
import Mathlib.Data.String.Basic
import MergeGate.Assoc

namespace MergeGate.Assoc

variable {α : Type}

theorem lookup_cons (k a : String) (v : α) (m : Assoc α) :
    List.lookup k ((a, v) :: m) = if k = a then some v else List.lookup k m := by
  rw [List.lookup_cons]
  by_cases h : k = a
  · simp [h]
  · have hk : (k == a) = false := by simpa using h
    simp [hk, h]

theorem isSome_lookup_iff {m : Assoc α} {k : String} : (List.lookup k m).isSome ↔ k ∈ m.keys := by
  induction m with
  | nil => simp [keys]
  | cons p m ih =>
    obtain ⟨a, v⟩ := p
    rw [lookup_cons]
    by_cases h : k = a
    · simp [keys, h]
    · rw [if_neg h, ih]
      simp [keys, h]

theorem lookup_put (m : Assoc α) (k k' : String) (v : α) :
    List.lookup k' (put k v m) = if k' = k then some v else List.lookup k' m := by
  by_cases h : k' = k
  · subst h
    rw [if_pos rfl, lookup_put_self]
  · rw [if_neg h, lookup_put_other m v h]

theorem lookup_erase (m : Assoc α) (k k' : String) :
    List.lookup k' (erase k m) = if k' = k then none else List.lookup k' m := by
  induction m with
  | nil => simp [erase]
  | cons p m ih =>
    obtain ⟨a, v⟩ := p
    by_cases h : a = k
    · have hcut : erase k ((a, v) :: m) = erase k m := by simp [erase, h]
      rw [hcut, ih, lookup_cons]
      by_cases hk : k' = k
      · simp [hk]
      · simp [hk, h]
    · have hkeep : erase k ((a, v) :: m) = (a, v) :: erase k m := by simp [erase, h]
      rw [hkeep, lookup_cons, lookup_cons, ih]
      by_cases hk : k' = a
      · subst hk
        simp [h]
      · simp [hk]

/-- Writing a key that is there changes no length. -/
theorem length_put_of_isSome {m : Assoc α} {k : String} (v : α) (h : (List.lookup k m).isSome) :
    (put k v m).length = m.length := by
  induction m with
  | nil => simp at h
  | cons p m ih =>
    obtain ⟨a, u⟩ := p
    rw [lookup_cons] at h
    by_cases hk : a = k
    · simp [put, hk]
    · rw [if_neg fun he => hk he.symm] at h
      simp [put, hk, ih h]

/-- Removing a key that is there shortens the map. -/
theorem length_erase_lt {m : Assoc α} {k : String} (h : (List.lookup k m).isSome) :
    (erase k m).length < m.length := by
  obtain ⟨p, hp, hk⟩ := List.lookup_isSome_iff.mp h
  refine List.length_filter_lt_length_iff_exists.mpr ⟨p, hp, ?_⟩
  simp only [beq_iff_eq] at hk
  simp [hk]

theorem length_erase_le (k : String) (m : Assoc α) : (erase k m).length ≤ m.length :=
  List.length_filter_le _ m

/-- Of the values written for a key, the last one stands. -/
theorem lookup_putAll (k : String) : ∀ (m extra : Assoc α),
    List.lookup k (putAll m extra) = (List.lookup k extra.reverse).or (List.lookup k m)
  | m, [] => by simp [putAll]
  | m, (a, v) :: extra => by
    have hstep : putAll m ((a, v) :: extra) = putAll (put a v m) extra := rfl
    rw [hstep, lookup_putAll k _ extra, lookup_put, List.reverse_cons, List.lookup_append,
      lookup_cons, Option.or_assoc]
    by_cases h : k = a <;> simp [h]

/-- Where the key decides the value, each key holds its own. -/
theorem lookup_keyed {β : Type} (key : β → String) (value : String → α) (k : String) (xs : List β) :
    List.lookup k (xs.map fun x => (key x, value (key x))) =
      if k ∈ xs.map key then some (value k) else none := by
  induction xs with
  | nil => simp
  | cons x xs ih =>
    rw [List.map_cons, lookup_cons, ih]
    by_cases h : k = key x <;> simp [h]

/-- Where every key is written with the same value, each of them holds it. -/
theorem lookup_ofPairs_const {β : Type} (key : β → String) (v : α) (xs : List β) (k : String) :
    List.lookup k (ofPairs (xs.map fun x => (key x, v))) = if k ∈ xs.map key then some v else none := by
  rw [ofPairs, lookup_putAll, ← List.map_reverse, lookup_keyed key fun _ => v]
  simp [List.mem_reverse]

/-- Writing a new key puts it at the end. -/
theorem put_of_not_mem {m : Assoc α} {k : String} (v : α) (h : k ∉ m.keys) : put k v m = m ++ [(k, v)] := by
  induction m with
  | nil => rfl
  | cons p m ih =>
    simp only [keys, List.map_cons, List.mem_cons, not_or] at h
    rw [put, if_neg fun he => h.1 he.symm, ih h.2]
    rfl

/-- Pairs with distinct keys are a map as they stand. -/
theorem ofPairs_of_nodup {pairs : Assoc α} (h : pairs.keys.Nodup) : ofPairs pairs = pairs := by
  have hall : ∀ rest m : Assoc α, (keys (m ++ rest)).Nodup → putAll m rest = m ++ rest := by
    intro rest
    induction rest with
    | nil => simp [putAll]
    | cons p rest ih =>
      intro m hnodup
      have hk : p.1 ∉ keys m := by
        simp only [keys, List.map_append, List.map_cons, List.nodup_append] at hnodup
        exact fun hmem => hnodup.2.2 p.1 hmem p.1 (by simp) rfl
      have hstep : putAll m (p :: rest) = putAll (put p.1 p.2 m) rest := rfl
      rw [hstep, put_of_not_mem p.2 hk, ih _ (by simpa using hnodup), List.append_assoc,
        List.singleton_append]
  exact hall pairs [] h

/-- A map without a value at any key is empty. -/
theorem eq_nil_of_lookup_eq_none {m : Assoc α} (h : ∀ k, List.lookup k m = none) : m = [] := by
  cases m with
  | nil => rfl
  | cons p m =>
    have hp := h p.1
    rw [show p :: m = (p.1, p.2) :: m from rfl, lookup_cons, if_pos rfl] at hp
    cases hp

theorem mem_of_lookup {m : Assoc α} {k : String} {v : α} (h : List.lookup k m = some v) : (k, v) ∈ m := by
  obtain ⟨before, later, rfl, -⟩ := List.lookup_eq_some_iff.1 h
  simp

/-- Under distinct keys, each entry is found under its own. -/
theorem lookup_eq_some_iff {m : Assoc α} (h : m.keys.Nodup) {k : String} {v : α} :
    List.lookup k m = some v ↔ (k, v) ∈ m := by
  induction m with
  | nil => simp
  | cons p m ih =>
    obtain ⟨a, u⟩ := p
    simp only [keys, List.map_cons, List.nodup_cons] at h
    rw [lookup_cons]
    by_cases hk : k = a
    · subst hk
      have hnot : (k, v) ∉ m := fun hmem => h.1 (List.mem_map_of_mem (f := (·.1)) hmem)
      simp [hnot, eq_comm]
    · simp [hk, ih h.2]

/-- Under distinct keys, the order of the entries does not matter. -/
theorem lookup_perm {m m' : Assoc α} (h : m.Perm m') (hd : m.keys.Nodup) (k : String) :
    List.lookup k m = List.lookup k m' := by
  have hkeys : m.keys.Perm m'.keys := h.map Prod.fst
  apply Option.ext
  intro v
  rw [lookup_eq_some_iff hd, lookup_eq_some_iff (hkeys.nodup hd), h.mem_iff]

/-- Of two maps written one over the other the second decides, where it has the key. -/
theorem lookup_putAll_of_nodup {extra : Assoc α} (hd : extra.keys.Nodup) (k : String) (m : Assoc α) :
    List.lookup k (putAll m extra) = (List.lookup k extra).or (List.lookup k m) := by
  rw [lookup_putAll, ← lookup_perm extra.reverse_perm.symm hd]

/-- Under distinct keys, writing a key that is there changes its entry and no other. -/
theorem put_eq_map {k : String} (v : α) : ∀ {m : Assoc α}, (keys m).Nodup → k ∈ keys m →
    put k v m = m.map fun p => (p.1, if p.1 = k then v else p.2)
  | [], _, hk => by simp [keys] at hk
  | (a, u) :: m, hd, hk => by
    simp only [keys, List.map_cons, List.nodup_cons, List.mem_cons] at hd hk
    by_cases ha : a = k
    · subst ha
      have hrest : m.map (fun p => (p.1, if p.1 = a then v else p.2)) = m := by
        refine (List.map_congr_left fun p hp => ?_).trans m.map_id
        have hne : p.1 ≠ a := fun he => hd.1 (he ▸ List.mem_map_of_mem hp)
        simp [hne]
      simp [put, hrest]
    · have hkm : k ∈ keys m := hk.resolve_left fun he => ha he.symm
      simp [put, ha, put_eq_map v hd.2 hkm]

theorem nodup_put {m : Assoc α} (hd : m.keys.Nodup) (k : String) (v : α) : (put k v m).keys.Nodup := by
  by_cases hk : k ∈ m.keys
  · have hkeys : (put k v m).keys = m.keys := by
      rw [put_eq_map v hd hk, keys, List.map_map]
      rfl
    rwa [hkeys]
  · have hkeys : (put k v m).keys = m.keys ++ [k] := by
      rw [put_of_not_mem v hk, keys, List.map_append]
      rfl
    rw [hkeys]
    simpa [List.nodup_append, hd] using fun a ha => ne_of_mem_of_not_mem ha hk

theorem nodup_putAll : ∀ {extra m : Assoc α}, m.keys.Nodup → (putAll m extra).keys.Nodup
  | [], _, hd => hd
  | (k, v) :: extra, m, hd => by
    rw [putAll, List.foldl_cons]
    exact nodup_putAll (nodup_put hd k v)

/-! ## Ascending keys -/

theorem sortByKey_perm (m : Assoc α) : (sortByKey m).Perm m := List.mergeSort_perm m _

theorem sortByKey_map {β : Type} (f : α → β) (m : Assoc α) :
    sortByKey (m.map fun p => (p.1, f p.2)) = (sortByKey m).map fun p => (p.1, f p.2) :=
  (List.map_mergeSort (f := fun p : String × α => (p.1, f p.2)) fun _ _ _ _ => rfl).symm

theorem sortByKey_eq_self {m : Assoc α} (h : m.Pairwise fun a b => (!decide (b.1 < a.1)) = true) :
    sortByKey m = m := List.mergeSort_of_pairwise h

theorem pairwise_sortByKey (m : Assoc α) :
    (sortByKey m).Pairwise fun a b => (!decide (b.1 < a.1)) = true := by
  refine List.pairwise_mergeSort (fun a b c hab hbc => ?_) (fun a b => ?_) m
  · simp only [Bool.not_eq_true', decide_eq_false_iff_not, String.not_lt] at *
    exact String.le_trans hab hbc
  · simp only [Bool.or_eq_true, Bool.not_eq_true', decide_eq_false_iff_not, String.not_lt]
    exact String.le_total _ _

theorem sortByKey_idem (m : Assoc α) : sortByKey (sortByKey m) = sortByKey m :=
  sortByKey_eq_self (pairwise_sortByKey m)

theorem lookup_sortByKey {m : Assoc α} (hd : m.keys.Nodup) (k : String) :
    List.lookup k (sortByKey m) = List.lookup k m :=
  (lookup_perm (sortByKey_perm m).symm hd k).symm

/-- Distinct keys stand in strictly ascending order when sorted. -/
theorem pairwise_keys_sortByKey {m : Assoc α} (hd : m.keys.Nodup) :
    (sortByKey m).keys.Pairwise (· < ·) := by
  have hkeys : (sortByKey m).keys.Perm m.keys := (sortByKey_perm m).map Prod.fst
  have hdistinct : (sortByKey m).Pairwise fun a b => a.1 ≠ b.1 :=
    List.pairwise_map.1 (hkeys.nodup_iff.2 hd)
  refine List.pairwise_map.2 (((pairwise_sortByKey m).and hdistinct).imp ?_)
  rintro a b ⟨hle, hne⟩
  simp only [Bool.not_eq_true', decide_eq_false_iff_not, String.not_lt] at hle
  exact lt_of_le_of_ne hle hne

end MergeGate.Assoc
