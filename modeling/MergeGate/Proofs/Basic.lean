/-
Facts about the tools the program is built from: computations that may fail, lists related item by item,
texts sorted with each taken once, and numbers compared with zero. The sorted list depends on which texts
there are, and on nothing else.
-/
import Mathlib.Data.List.Forall2
import Mathlib.Data.List.Nodup
import Mathlib.Data.String.Basic
import MergeGate.Text.Blank

namespace MergeGate

/-! ## Computations that may fail -/

theorem bind_eq_ok {ε α β : Type} {x : Except ε α} {f : α → Except ε β} {b : β} :
    (x >>= f) = .ok b ↔ ∃ a, x = .ok a ∧ f a = .ok b := by
  cases x with
  | error e => simp [bind, Except.bind]
  | ok a => simp [bind, Except.bind]

theorem Except.bind_eq_ok {ε α β : Type} {x : Except ε α} {f : α → Except ε β} {b : β} :
    x.bind f = .ok b ↔ ∃ a, x = .ok a ∧ f a = .ok b := MergeGate.bind_eq_ok

theorem pure_eq_ok {ε α : Type} {a b : α} : (pure a : Except ε α) = .ok b ↔ a = b := by
  simp [pure, Except.pure]

theorem map_eq_ok {ε α β : Type} {x : Except ε α} {f : α → β} {b : β} :
    x.map f = .ok b ↔ ∃ a, x = .ok a ∧ f a = b := by
  cases x with
  | error e => simp [Except.map]
  | ok a => simp [Except.map]

theorem bind_eq_error {ε α β : Type} {x : Except ε α} {f : α → Except ε β} {e : ε} :
    (x >>= f) = .error e ↔ x = .error e ∨ ∃ a, x = .ok a ∧ f a = .error e := by
  cases x with
  | error e' => simp [bind, Except.bind]
  | ok a => simp [bind, Except.bind]

theorem map_eq_error {ε α β : Type} {x : Except ε α} {f : α → β} {e : ε} :
    x.map f = .error e ↔ x = .error e := by
  cases x with
  | error e' => simp [Except.map]
  | ok a => simp [Except.map]

theorem mapError_eq_ok {ε ε' α : Type} {x : Except ε α} {f : ε → ε'} {a : α} :
    x.mapError f = .ok a ↔ x = .ok a := by
  cases x with
  | error e => simp [Except.mapError]
  | ok b => simp [Except.mapError]

theorem eq_ok_of_toOption {ε α : Type} {x : Except ε α} {a : α} (h : x.toOption = some a) : x = .ok a := by
  cases x with
  | error e => cases h
  | ok b => rw [Option.some.inj h]

theorem toOption_of_eq_ok {ε α : Type} {x : Except ε α} {a : α} (h : x = .ok a) : x.toOption = some a := by
  rw [h]
  rfl

/-! ## Related lists -/

/-- Two relations one after the other, item by item. -/
theorem forall₂_trans {α β γ : Type} {R : α → β → Prop} {S : β → γ → Prop} {T : α → γ → Prop}
    (hT : ∀ a b c, R a b → S b c → T a c) {xs : List α} {ys : List β} {zs : List γ}
    (hxy : List.Forall₂ R xs ys) (hyz : List.Forall₂ S ys zs) : List.Forall₂ T xs zs := by
  induction hxy generalizing zs with
  | nil =>
    cases hyz
    exact .nil
  | cons hab _ ih =>
    cases hyz with
    | cons hbc hrest => exact .cons (hT _ _ _ hab hbc) (ih hrest)

/-- What related items have in common. -/
theorem map_eq_of_forall₂ {α β γ : Type} {R : α → β → Prop} {f : α → γ} {g : β → γ} {xs : List α} {ys : List β}
    (h : List.Forall₂ R xs ys) (hR : ∀ a b, R a b → f a = g b) : xs.map f = ys.map g := by
  induction h with
  | nil => rfl
  | cons hab _ ih => rw [List.map_cons, List.map_cons, hR _ _ hab, ih]

theorem exists_of_forall₂ {α β : Type} {R : α → β → Prop} {xs : List α} {ys : List β}
    (h : List.Forall₂ R xs ys) {a : α} (ha : a ∈ xs) : ∃ b ∈ ys, R a b := by
  induction h with
  | nil => cases ha
  | cons hab _ ih =>
    rcases List.mem_cons.1 ha with rfl | ha
    · exact ⟨_, by simp, hab⟩
    · obtain ⟨b, hb, hrel⟩ := ih ha
      exact ⟨b, by simp [hb], hrel⟩

/-! ## Sorted texts -/

namespace Text

theorem nodup_eraseDups : ∀ xs : List String, xs.eraseDups.Nodup
  | [] => by simp
  | x :: xs => by
    rw [List.eraseDups_cons, List.nodup_cons]
    refine ⟨?_, nodup_eraseDups _⟩
    rw [List.mem_eraseDups]
    simp
termination_by xs => xs.length
decreasing_by simpa using Nat.lt_succ_of_le (List.length_filter_le _ xs)

theorem mem_sortedDistinct {xs : List String} {x : String} : x ∈ sortedDistinct xs ↔ x ∈ xs := by
  simp [sortedDistinct, sorted, List.mem_mergeSort, List.mem_eraseDups]

theorem sortedDistinct_singleton (a : String) : sortedDistinct [a] = [a] := by
  rw [sortedDistinct, List.eraseDups_cons]
  simp [sorted]

theorem pairwise_sorted (xs : List String) : (sorted xs).Pairwise (· ≤ ·) := by
  have hsort : (sorted xs).Pairwise fun a b => (!decide (b < a)) = true := by
    apply List.pairwise_mergeSort
    · intro a b c hab hbc
      simp only [Bool.not_eq_eq_eq_not, Bool.not_true, decide_eq_false_iff_not, not_lt] at hab hbc ⊢
      exact le_trans hab hbc
    · intro a b
      simp only [Bool.or_eq_true, Bool.not_eq_eq_eq_not, Bool.not_true, decide_eq_false_iff_not,
        not_lt]
      exact le_total a b
  refine hsort.imp fun hab => ?_
  simpa only [Bool.not_eq_eq_eq_not, Bool.not_true, decide_eq_false_iff_not, not_lt] using hab

/-- Sorting forgets the order. -/
theorem sorted_eq_of_perm {xs ys : List String} (h : xs.Perm ys) : sorted xs = sorted ys := by
  have hperm : (sorted xs).Perm (sorted ys) :=
    (List.mergeSort_perm xs _).trans (h.trans (List.mergeSort_perm ys _).symm)
  exact hperm.eq_of_pairwise (fun a b _ _ => le_antisymm) (pairwise_sorted xs) (pairwise_sorted ys)

theorem nodup_sortedDistinct (xs : List String) : (sortedDistinct xs).Nodup :=
  (List.mergeSort_perm _ _).nodup_iff.2 (nodup_eraseDups xs)

theorem pairwise_sortedDistinct (xs : List String) : (sortedDistinct xs).Pairwise (· < ·) :=
  ((pairwise_sorted _).and (nodup_sortedDistinct xs)).imp fun hab => lt_of_le_of_ne hab.1 hab.2

/-- Which texts there are decides the sorted list of the distinct ones. -/
theorem sortedDistinct_congr {xs ys : List String} (h : ∀ x, x ∈ xs ↔ x ∈ ys) :
    sortedDistinct xs = sortedDistinct ys := by
  apply sorted_eq_of_perm
  rw [List.perm_ext_iff_of_nodup (nodup_eraseDups xs) (nodup_eraseDups ys)]
  intro x
  rw [List.mem_eraseDups, List.mem_eraseDups, h]

/-- No text is repeated exactly when all are distinct. -/
theorem repeated_eq_nil_iff {xs : List String} : repeated xs = [] ↔ xs.Nodup := by
  rw [List.nodup_iff_count, List.eq_nil_iff_forall_not_mem]
  simp only [repeated, mem_sortedDistinct, List.mem_filter, decide_eq_true_eq, not_and, not_lt]
  constructor
  · intro h x
    by_cases hx : x ∈ xs
    · exact h x hx
    · simp [List.count_eq_zero_of_not_mem hx]
  · intro h x _
    exact h x

end Text

/-! ## Numbers that are not below zero -/

namespace Decimal

open Float.Model (UnpackedFloat)

theorem unpack_zero : (0.0 : Float).toModel.unpack = UnpackedFloat.zero .positive := rfl

theorem zero_le_iff_unpacked (x : Float) :
    0.0 ≤ x ↔ (UnpackedFloat.zero .positive).le x.toModel.unpack = true := by
  show decide _ = true ↔ _
  rw [decide_eq_true_iff, ← unpack_zero]
  rfl

theorem lt_zero_iff_unpacked (x : Float) :
    x < 0.0 ↔ x.toModel.unpack.lt (UnpackedFloat.zero .positive) = true := by
  show decide _ = true ↔ _
  rw [decide_eq_true_iff, ← unpack_zero]
  rfl

/-- Not-a-number is neither below zero nor at least zero; every other number is one of the two. -/
theorem zero_le_iff (x : Float) : 0.0 ≤ x ↔ ¬ x < 0.0 ∧ x.isNaN = false := by
  have hnan : x.isNaN = x.toModel.unpack.isNaN := rfl
  rw [zero_le_iff_unpacked, lt_zero_iff_unpacked, hnan]
  cases x.toModel.unpack with
  | notANumber => decide
  | zero s => cases s <;> decide
  | infinity s => cases s <;> decide
  | finite s =>
    cases s with
    | positive => exact ⟨fun _ => ⟨Bool.false_ne_true, rfl⟩, fun _ => rfl⟩
    | negative => exact ⟨fun hle => absurd hle Bool.false_ne_true, fun hnot => absurd rfl hnot.1⟩

end Decimal

end MergeGate
