/-
The order in which instances start: by the place of their job, and within a job by their number. It is
a total order on places, so the instances in order stand in it (`pairwise_inOrder`), and instances that
stand in it already are left alone (`inOrder_eq_self`).
-/
import MergeGate.Schedule.Basic

namespace MergeGate.Schedule

variable {g : JobGraph}

theorem before_iff {a b : Instance} : before g a b = true ↔
    g.order a.job < g.order b.job ∨ g.order a.job = g.order b.job ∧ a.index ≤ b.index := by
  simp [before]

theorem before_refl (a : Instance) : before g a a = true := by
  rw [before_iff]
  exact .inr ⟨rfl, Nat.le_refl _⟩

theorem before_total (a b : Instance) : (before g a b || before g b a) = true := by
  rw [Bool.or_eq_true, before_iff, before_iff]
  omega

theorem before_trans (a b c : Instance) (hab : before g a b = true) (hbc : before g b c = true) :
    before g a c = true := by
  rw [before_iff] at hab hbc ⊢
  omega

/-- The first instance starts before the second: its place comes earlier. -/
def Precedes (g : JobGraph) (a b : Instance) : Prop :=
  g.order a.job < g.order b.job ∨ g.order a.job = g.order b.job ∧ a.index < b.index

theorem Precedes.not_before {a b : Instance} (h : Precedes g a b) : ¬ before g b a = true := by
  rw [before_iff]
  rw [Precedes] at h
  omega

theorem inOrder_perm (is : List Instance) : (inOrder g is).Perm is := List.mergeSort_perm _ _

theorem pairwise_inOrder (is : List Instance) :
    (inOrder g is).Pairwise fun a b => before g a b = true :=
  List.pairwise_mergeSort before_trans before_total is

theorem inOrder_eq_self {is : List Instance} (h : is.Pairwise fun a b => before g a b = true) :
    inOrder g is = is :=
  List.mergeSort_of_pairwise h

end MergeGate.Schedule
