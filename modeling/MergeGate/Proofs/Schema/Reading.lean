/-
What a value says, apart from checking it. A field holds what a checker makes of it, or nothing where it
is not there or is not taken; lists hold items, and maps hold pairs under their keys. What a record, a list
or a map of checkers accepts is read off in this way, with the default where nothing is read.
-/
import MergeGate.Proofs.Schema

namespace MergeGate

namespace Assoc

variable {α β : Type} {R : α → β → Prop}

/-- The keys agree, and the values are related. -/
def Agree (R : α → β → Prop) : Assoc α → Assoc β → Prop :=
  List.Forall₂ fun p q => p.1 = q.1 ∧ R p.2 q.2

theorem Agree.keys {m : Assoc α} {n : Assoc β} (h : Agree R m n) : m.keys = n.keys :=
  map_eq_of_forall₂ h fun _ _ hpq => hpq.1

theorem Agree.put {m : Assoc α} {n : Assoc β} (h : Agree R m n) {k : String} {a : α} {b : β} (hab : R a b) :
    Agree R (put k a m) (put k b n) := by
  induction h with
  | nil => exact .cons ⟨rfl, hab⟩ .nil
  | @cons p q m n hpq hrest ih =>
    obtain ⟨i, x⟩ := p
    obtain ⟨j, y⟩ := q
    obtain ⟨rfl, hxy⟩ := hpq
    by_cases hi : i = k
    · simp only [Assoc.put, if_pos hi]
      exact .cons ⟨rfl, hab⟩ hrest
    · simp only [Assoc.put, if_neg hi]
      exact .cons ⟨rfl, hxy⟩ ih

/-- Maps made of pairs that agree do so too. -/
theorem Agree.ofPairs {ps : Assoc α} {qs : Assoc β} (h : Agree R ps qs) : Agree R (ofPairs ps) (ofPairs qs) := by
  have hall : ∀ {m : Assoc α} {n : Assoc β}, Agree R m n → Agree R (putAll m ps) (putAll n qs) := by
    induction h with
    | nil => exact id
    | @cons p q ps qs hpq _ ih =>
      intro m n hmn
      have hput : Agree R (Assoc.put p.1 p.2 m) (Assoc.put q.1 q.2 n) := hpq.1 ▸ hmn.put hpq.2
      exact ih hput
  exact hall .nil

end Assoc

namespace Schema

variable {α : Type} {c : Checker α} {name : String} {es : List (Value × Value)} {v : Value}

/-- What the checker makes of a field, where it takes what stands there. -/
def fieldIn? (c : Checker α) (name : String) (es : List (Value × Value)) : Option α :=
  (Value.field? name es).bind fun v => (c v).toOption

/-- The items of the list in a field. -/
def itemsIn (name : String) (es : List (Value × Value)) : List Value :=
  ((Value.field? name es).map Value.itemsOf).getD []

/-- The entries of the map in a field. -/
def entriesIn (name : String) (es : List (Value × Value)) : List (Value × Value) :=
  ((Value.field? name es).map Value.entriesOf).getD []

/-- The values of entries under the texts that are their keys. -/
def pairsOf (es : List (Value × Value)) : Assoc Value :=
  Assoc.ofPairs (es.filterMap fun e => (text e.1).toOption.map fun k => (k, e.2))

/-! ### Fields -/

/-- A field is what is read in it, and else its default. -/
theorem field_of_defaulted {d a : α} (h : defaulted name d c es = .ok a) : a = (fieldIn? c name es).getD d := by
  rcases defaulted_eq_ok.1 h with ⟨hfield, rfl⟩ | ⟨v, hfield, hv⟩
  · simp [fieldIn?, hfield]
  · simp [fieldIn?, hfield, toOption_of_eq_ok hv]

theorem field_of_required {a : α} (h : required name c es = .ok a) : fieldIn? c name es = some a := by
  obtain ⟨v, hfield, hv⟩ := required_eq_ok.1 h
  simp [fieldIn?, hfield, toOption_of_eq_ok hv]

theorem toOption_of_optional {o : Option α} (hnull : (c .null).toOption = none) (h : optional c v = .ok o) :
    o = (c v).toOption := by
  cases v with
  | null =>
    cases h
    exact hnull.symm
  | _ =>
    obtain ⟨a, ha, rfl⟩ := map_eq_ok.1 h
    exact (toOption_of_eq_ok ha).symm

theorem of_optional_some {a : α} (h : optional c v = .ok (some a)) : c v = .ok a := by
  cases v with
  | null => cases h
  | _ =>
    obtain ⟨b, hb, hsome⟩ := map_eq_ok.1 h
    cases hsome
    exact hb

theorem of_optional_none (h : optional c v = .ok none) : v = .null := by
  cases v with
  | null => rfl
  | _ =>
    obtain ⟨_, -, hnone⟩ := map_eq_ok.1 h
    cases hnone

/-- A field that may be left out or null. -/
theorem field_of_optional (hnull : (c .null).toOption = none) {o : Option α}
    (h : defaulted name none (optional c) es = .ok o) : o = fieldIn? c name es := by
  rcases defaulted_eq_ok.1 h with ⟨hfield, rfl⟩ | ⟨v, hfield, hv⟩
  · simp [fieldIn?, hfield]
  · simp [fieldIn?, hfield, toOption_of_optional hnull hv]

theorem record_entries {name : String} {es : List (Value × Value)} (h : record name v = .ok es) :
    es = v.entriesOf := by
  cases v with
  | map entries =>
    cases h
    rfl
  | _ => cases h

/-- The second shape counts only where the first one does not take the value. -/
theorem orElse_cases {labels : String × String} {x y : Checked α} {a : α}
    (h : orElse labels x y = .ok a) : x = .ok a ∨ x.toOption = none ∧ y = .ok a := by
  cases x with
  | ok b => exact .inl h
  | error ps =>
    cases y with
    | ok b => exact .inr ⟨rfl, h⟩
    | error qs => cases h

theorem map_toOption_eq_none {β : Type} {x : Checked α} {f : α → β} (h : (x.map f).toOption = none) :
    x.toOption = none := by
  cases x with
  | ok a => cases h
  | error ps => rfl

/-! ### Lists -/

theorem itemsFrom_forall₂ : ∀ {vs : List Value} {n : Nat} {xs : List α}, itemsFrom c n vs = .ok xs →
    List.Forall₂ (fun v x => c v = .ok x) vs xs
  | [], n, xs, h => by
    cases h
    exact .nil
  | v :: vs, n, xs, h => by
    obtain ⟨_, rest, hhead, hrest, rfl⟩ := both_eq_ok.1 h
    obtain ⟨x, hx, rfl⟩ := map_eq_ok.1 hhead
    exact .cons (under_eq_ok.1 hx) (itemsFrom_forall₂ hrest)

theorem list_forall₂ {xs : List α} (h : list c v = .ok xs) :
    List.Forall₂ (fun v x => c v = .ok x) v.itemsOf xs := by
  cases v with
  | list items => exact itemsFrom_forall₂ h
  | tuple items => exact itemsFrom_forall₂ h
  | set items => exact itemsFrom_forall₂ h
  | _ => cases h

theorem someList_forall₂ {xs : List α} (h : someList c v = .ok xs) :
    List.Forall₂ (fun v x => c v = .ok x) v.itemsOf xs := by
  obtain ⟨ys, hys, h⟩ := Except.bind_eq_ok.1 h
  split at h
  · cases h
  · cases h
    exact list_forall₂ hys

theorem items_of_defaulted {xs : List α} (h : defaulted name [] (list c) es = .ok xs) :
    List.Forall₂ (fun v x => c v = .ok x) (itemsIn name es) xs := by
  rcases defaulted_eq_ok.1 h with ⟨hfield, rfl⟩ | ⟨v, hfield, hv⟩
  · simp [itemsIn, hfield]
  · simpa [itemsIn, hfield] using list_forall₂ hv

theorem items_of_required {xs : List α} (h : required name (someList c) es = .ok xs) :
    List.Forall₂ (fun v x => c v = .ok x) (itemsIn name es) xs := by
  obtain ⟨v, hfield, hv⟩ := required_eq_ok.1 h
  simpa [itemsIn, hfield] using someList_forall₂ hv

/-- What a checker makes of items that it takes. -/
theorem filterMap_of_forall₂ {vs : List Value} {xs : List α} (h : List.Forall₂ (fun v x => c v = .ok x) vs xs) :
    vs.filterMap (fun v => (c v).toOption) = xs := by
  induction h with
  | nil => rfl
  | cons hv _ ih => rw [List.filterMap_cons, toOption_of_eq_ok hv, ih]

/-! ### Maps -/

theorem entries_agree : ∀ {es : List (Value × Value)} {ps : Assoc α}, entries c es = .ok ps →
    Assoc.Agree (fun v a => c v = .ok a)
      (es.filterMap fun e => (text e.1).toOption.map fun k => (k, e.2)) ps
  | [], ps, h => by
    cases h
    exact .nil
  | (k, v) :: es, ps, h => by
    obtain ⟨_, rest, hhead, hrest, rfl⟩ := both_eq_ok.1 h
    obtain ⟨p, hp, rfl⟩ := map_eq_ok.1 hhead
    obtain ⟨_, a, hkey, ha, rfl⟩ := both_eq_ok.1 hp
    obtain ⟨key, htext, rfl⟩ := map_eq_ok.1 hkey
    have hk : text k = .ok key := under_eq_ok.1 (under_eq_ok.1 htext)
    simp only [List.filterMap_cons, toOption_of_eq_ok hk, Option.map_some]
    exact .cons ⟨rfl, under_eq_ok.1 ha⟩ (entries_agree hrest)

theorem map_agree {m : Assoc α} (h : map c v = .ok m) :
    Assoc.Agree (fun v a => c v = .ok a) (pairsOf v.entriesOf) m := by
  cases v with
  | map es =>
    obtain ⟨ps, hps, rfl⟩ := map_eq_ok.1 h
    exact (entries_agree hps).ofPairs
  | _ => cases h

theorem pairs_of_defaulted {m : Assoc α} (h : defaulted name [] (map c) es = .ok m) :
    Assoc.Agree (fun v a => c v = .ok a) (pairsOf (entriesIn name es)) m := by
  rcases defaulted_eq_ok.1 h with ⟨hfield, rfl⟩ | ⟨v, hfield, hv⟩
  · rw [entriesIn, hfield]
    exact .nil
  · simpa [entriesIn, hfield] using map_agree hv

theorem pairs_of_required {m : Assoc α} (h : required name (map c) es = .ok m) :
    Assoc.Agree (fun v a => c v = .ok a) (pairsOf (entriesIn name es)) m := by
  obtain ⟨v, hfield, hv⟩ := required_eq_ok.1 h
  simpa [entriesIn, hfield] using map_agree hv

end Schema

end MergeGate
