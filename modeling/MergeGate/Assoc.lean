/-
Maps from texts that keep the order in which their keys first came: lists of pairs. Reading is
`List.lookup`; writing a key again changes its value and leaves it at its place.
-/
namespace MergeGate

/-- A map in insertion order. -/
abbrev Assoc (α : Type) := List (String × α)

namespace Assoc

variable {α β : Type}

/-- Set the value of a key, at its old place or else at the end. -/
def put (key : String) (value : α) : Assoc α → Assoc α
  | [] => [(key, value)]
  | (k, v) :: rest => if k = key then (k, value) :: rest else (k, v) :: put key value rest

/-- Set the keys of a second map one after the other. -/
def putAll (m : Assoc α) (extra : Assoc α) : Assoc α := extra.foldl (fun m p => put p.1 p.2 m) m

/-- A map from pairs in which a key may come again: its last value stands at its first place. -/
def ofPairs (pairs : Assoc α) : Assoc α := putAll [] pairs

/-- Remove a key. -/
def erase (key : String) (m : Assoc α) : Assoc α := m.filter fun p => p.1 ≠ key

/-- The keys in order. -/
def keys (m : Assoc α) : List String := m.map (·.1)

/-- The pairs in ascending order of their keys. -/
def sortByKey (m : Assoc α) : Assoc α := m.mergeSort fun a b => !decide (b.1 < a.1)

theorem lookup_put_self (m : Assoc α) (k : String) (v : α) : List.lookup k (put k v m) = some v := by
  induction m with
  | nil => simp [put]
  | cons p rest ih =>
    obtain ⟨a, b⟩ := p
    by_cases h : a = k
    · simp [put, h]
    · have hk : (k == a) = false := by simpa using fun e => h e.symm
      simp [put, h, List.lookup_cons, hk, ih]

theorem lookup_put_other (m : Assoc α) {k k' : String} (v : α) (hne : k' ≠ k) :
    List.lookup k' (put k v m) = List.lookup k' m := by
  induction m with
  | nil =>
    have hk : (k' == k) = false := by simpa using hne
    simp [put, List.lookup_cons, hk]
  | cons p rest ih =>
    obtain ⟨a, b⟩ := p
    by_cases h : a = k
    · subst h
      have hk : (k' == a) = false := by simpa using hne
      simp [put, List.lookup_cons, hk]
    · simp only [put, h, if_false, List.lookup_cons, ih]

end Assoc

end MergeGate
