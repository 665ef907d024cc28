/-
What checkers hand on. A document in which no integer is too long to be written gives parts in which
none is: looking into a value, putting marks' values in their places and every way of combining
checkers keep that. `Keeps` says it of a checker, with what is kept as a parameter.
-/
import MergeGate.Document.Shape
import MergeGate.Proofs.Basic

namespace MergeGate

/-! ## Values that can be written -/

namespace Value

/-- No integer in the value is too long to be written. -/
def Short (v : Value) : Prop := v.isTooLong = false

/-- The values of all entries are short. -/
def ShortIn (es : List (Value × Value)) : Prop := ∀ e ∈ es, e.2.Short

theorem anyTooLong_eq_false {vs : List Value} : anyTooLong vs = false ↔ ∀ v ∈ vs, v.Short := by
  induction vs with
  | nil => simp [anyTooLong]
  | cons v vs ih => simp [anyTooLong, ih, Short]

theorem anyTooLongIn_eq_false {es : List (Value × Value)} :
    anyTooLongIn es = false ↔ ∀ e ∈ es, e.1.Short ∧ e.2.Short := by
  induction es with
  | nil => simp [anyTooLongIn]
  | cons e es ih =>
    obtain ⟨k, v⟩ := e
    simp [anyTooLongIn, ih, Short, and_assoc]

section

variable {whole : Value}

mutual

/-- Putting a short value into a short one gives a short one. -/
theorem insert_short (hw : whole.Short) (v : Value) (level : Nat) (h : v.Short) :
    (insert whole level v).Short := by
  cases v with
  | again n isMap =>
    rw [insert]
    split
    · exact hw
    · exact h
  | list items =>
    rw [insert]
    exact anyTooLong_eq_false.2 (insertAll_short hw items _ (anyTooLong_eq_false.1 h))
  | tuple items =>
    rw [insert]
    exact anyTooLong_eq_false.2 (insertAll_short hw items _ (anyTooLong_eq_false.1 h))
  | set items =>
    rw [insert]
    exact anyTooLong_eq_false.2 (insertAll_short hw items _ (anyTooLong_eq_false.1 h))
  | map entries =>
    rw [insert]
    exact anyTooLongIn_eq_false.2 (insertEntries_short hw entries _ (anyTooLongIn_eq_false.1 h))
  | _ => simpa only [insert] using h

theorem insertAll_short (hw : whole.Short) (vs : List Value) (level : Nat)
    (h : ∀ v ∈ vs, v.Short) : ∀ v ∈ insertAll whole level vs, v.Short := by
  cases vs with
  | nil => simp [insertAll]
  | cons v vs =>
    simp only [List.forall_mem_cons, insertAll] at h ⊢
    exact ⟨insert_short hw v level h.1, insertAll_short hw vs level h.2⟩

theorem insertEntries_short (hw : whole.Short) (es : List (Value × Value)) (level : Nat)
    (h : ∀ e ∈ es, e.1.Short ∧ e.2.Short) :
    ∀ e ∈ insertEntries whole level es, e.1.Short ∧ e.2.Short := by
  cases es with
  | nil => simp [insertEntries]
  | cons e es =>
    obtain ⟨k, v⟩ := e
    simp only [List.forall_mem_cons, insertEntries] at h ⊢
    exact ⟨⟨h.1.1, insert_short hw v level h.1.2⟩, insertEntries_short hw es level h.2⟩

end

end

theorem Short.itemsOf {v : Value} (h : v.Short) : ∀ x ∈ v.itemsOf, x.Short := by
  have hitems : ∀ items : List Value, anyTooLong items = false →
      ∀ x ∈ (if anyMark items then insertAll v 0 items else items), x.Short := by
    intro items hshort
    split
    · exact insertAll_short h items 0 (anyTooLong_eq_false.1 hshort)
    · exact anyTooLong_eq_false.1 hshort
  cases v with
  | list items => exact hitems items h
  | tuple items => exact hitems items h
  | set items => exact hitems items h
  | _ => simp [Value.itemsOf]

theorem Short.entriesOf {v : Value} (h : v.Short) : ShortIn v.entriesOf := by
  cases v with
  | map es =>
    rw [Value.entriesOf]
    intro e he
    split at he
    · exact (insertEntries_short h es 0 (anyTooLongIn_eq_false.1 h) e he).2
    · exact (anyTooLongIn_eq_false.1 h e he).2
  | _ => simp [Value.entriesOf, ShortIn]

theorem ShortIn.field? {es : List (Value × Value)} (h : ShortIn es) {key : String} {v : Value}
    (hv : field? key es = some v) : v.Short := by
  obtain ⟨e, he, rfl⟩ := Option.map_eq_some_iff.1 hv
  exact h e (List.mem_of_find?_eq_some he)

end Value

/-! ## Checkers -/

namespace Assoc

/-- A map made of pairs holds none but their values. -/
theorem forall_ofPairs {α : Type} {P : α → Prop} {pairs : Assoc α} (h : ∀ p ∈ pairs, P p.2) :
    ∀ p ∈ ofPairs pairs, P p.2 := by
  have hput : ∀ (m : Assoc α) (k : String) (v : α), (∀ p ∈ m, P p.2) → P v →
      ∀ p ∈ put k v m, P p.2 := by
    intro m k v hm hv
    induction m with
    | nil => simpa [put] using hv
    | cons q m ih =>
      obtain ⟨a, u⟩ := q
      simp only [List.forall_mem_cons] at hm
      rw [put]
      split
      · exact List.forall_mem_cons.2 ⟨hv, hm.2⟩
      · exact List.forall_mem_cons.2 ⟨hm.1, ih hm.2⟩
  have hall : ∀ (extra m : Assoc α), (∀ p ∈ extra, P p.2) → (∀ p ∈ m, P p.2) →
      ∀ p ∈ putAll m extra, P p.2 := by
    intro extra
    induction extra with
    | nil => exact fun m _ hm => hm
    | cons q extra ih =>
      intro m hextra hm
      simp only [List.forall_mem_cons] at hextra
      exact ih _ hextra.2 (hput m q.1 q.2 hm hextra.1)
  exact hall pairs [] h (by simp)

end Assoc

namespace Schema

variable {α β : Type}

theorem both_eq_ok {f : Checked (α → β)} {x : Checked α} {b : β} :
    both f x = .ok b ↔ ∃ g a, f = .ok g ∧ x = .ok a ∧ g a = b := by
  cases f <;> cases x <;> simp [both]

theorem under_eq_ok {part : Part} {c : Checked α} {a : α} : under part c = .ok a ↔ c = .ok a :=
  mapError_eq_ok

theorem orElse_eq_ok {labels : String × String} {x y : Checked α} {a : α}
    (h : orElse labels x y = .ok a) : x = .ok a ∨ y = .ok a := by
  cases x with
  | ok b => exact .inl h
  | error ps =>
    cases y with
    | ok b => exact .inr h
    | error qs => cases h

theorem required_eq_ok {name : String} {c : Checker α} {es : List (Value × Value)} {a : α} :
    required name c es = .ok a ↔ ∃ v, Value.field? name es = some v ∧ c v = .ok a := by
  rw [required, fieldNamed, under_eq_ok, find]
  cases h : Value.field? name es <;> simp [h, flawed]

theorem defaulted_eq_ok {name : String} {d : α} {c : Checker α} {es : List (Value × Value)} {a : α} :
    defaulted name d c es = .ok a ↔
      Value.field? name es = none ∧ d = a ∨ ∃ v, Value.field? name es = some v ∧ c v = .ok a := by
  rw [defaulted, fieldNamed, under_eq_ok, find]
  cases h : Value.field? name es <;> simp [h]

/-- What the checker makes of a short value has the property. -/
def Keeps (P : α → Prop) (c : Checker α) : Prop :=
  ∀ ⦃v : Value⦄ ⦃a : α⦄, v.Short → c v = .ok a → P a

theorem Keeps.optional {P : α → Prop} {c : Checker α} (h : Keeps P c) :
    Keeps (fun o => ∀ a, o = some a → P a) (optional c) := by
  intro v o hv ho a ha
  subst ha
  cases v with
  | null => simp [Schema.optional] at ho
  | _ =>
    obtain ⟨b, hb, hab⟩ := map_eq_ok.1 ho
    exact h hv (hb.trans (congrArg _ (Option.some.inj hab)))

theorem Keeps.itemsFrom {P : α → Prop} {c : Checker α} (h : Keeps P c) : ∀ {vs : List Value} {n : Nat}
    {xs : List α}, (∀ v ∈ vs, v.Short) → itemsFrom c n vs = .ok xs → ∀ x ∈ xs, P x
  | [], n, xs, _, hxs => by
    obtain rfl : xs = [] := by simpa [Schema.itemsFrom] using hxs.symm
    simp
  | v :: vs, n, xs, hv, hxs => by
    simp only [List.forall_mem_cons] at hv
    obtain ⟨_, rest, hhead, hrest, rfl⟩ := both_eq_ok.1 hxs
    obtain ⟨x, hx, rfl⟩ := map_eq_ok.1 hhead
    exact List.forall_mem_cons.2 ⟨h hv.1 (under_eq_ok.1 hx), h.itemsFrom hv.2 hrest⟩

theorem Keeps.list {P : α → Prop} {c : Checker α} (h : Keeps P c) :
    Keeps (fun xs => ∀ x ∈ xs, P x) (list c) := by
  intro v xs hv hxs
  cases v with
  | list items => exact h.itemsFrom hv.itemsOf hxs
  | tuple items => exact h.itemsFrom hv.itemsOf hxs
  | set items => exact h.itemsFrom hv.itemsOf hxs
  | _ => simp [Schema.list, flawed] at hxs

theorem Keeps.someList {P : α → Prop} {c : Checker α} (h : Keeps P c) :
    Keeps (fun xs => ∀ x ∈ xs, P x) (someList c) := by
  intro v xs hv hxs
  obtain ⟨ys, hys, hxs⟩ := Except.bind_eq_ok.1 hxs
  split at hxs
  · cases hxs
  · cases hxs
    exact h.list hv hys

theorem Keeps.entries {P : α → Prop} {c : Checker α} (h : Keeps P c) :
    ∀ {es : List (Value × Value)} {ps : List (String × α)}, Value.ShortIn es →
      entries c es = .ok ps → ∀ p ∈ ps, P p.2
  | [], ps, _, hps => by
    obtain rfl : ps = [] := by simpa [Schema.entries] using hps.symm
    simp
  | (k, v) :: es, ps, hes, hps => by
    simp only [Value.ShortIn, List.forall_mem_cons] at hes
    obtain ⟨_, rest, hhead, hrest, rfl⟩ := both_eq_ok.1 hps
    obtain ⟨p, hp, rfl⟩ := map_eq_ok.1 hhead
    obtain ⟨_, a, hkey, ha, rfl⟩ := both_eq_ok.1 hp
    obtain ⟨key, -, rfl⟩ := map_eq_ok.1 hkey
    exact List.forall_mem_cons.2 ⟨h hes.1 (under_eq_ok.1 ha), h.entries hes.2 hrest⟩

theorem Keeps.map {P : α → Prop} {c : Checker α} (h : Keeps P c) :
    Keeps (fun m => ∀ p ∈ m, P p.2) (map c) := by
  intro v m hv hm
  cases v with
  | map es =>
    obtain ⟨ps, hps, rfl⟩ := map_eq_ok.1 hm
    exact Assoc.forall_ofPairs (h.entries hv.entriesOf hps)
  | _ => simp [Schema.map, flawed] at hm

/-- A field that was read has the property, and so has its default. -/
theorem Keeps.fieldNamed {P : α → Prop} {c : Checker α} (h : Keeps P c) {names : List String}
    {default : Option α} (hd : ∀ d, default = some d → P d) {es : List (Value × Value)}
    (hes : Value.ShortIn es) {a : α} (ha : fieldNamed names default c es = .ok a) : P a := by
  have ha := under_eq_ok.1 ha
  split at ha
  · next v hfind =>
    obtain ⟨name, -, hv⟩ := List.exists_of_findSome?_eq_some hfind
    exact h (hes.field? hv) ha
  · split at ha
    · next d => exact hd _ (by rw [← Except.ok.inj ha])
    · cases ha

theorem Keeps.defaulted {P : α → Prop} {c : Checker α} (h : Keeps P c) {name : String} {d : α}
    (hd : P d) {es : List (Value × Value)} (hes : Value.ShortIn es) {a : α}
    (ha : defaulted name d c es = .ok a) : P a :=
  h.fieldNamed (by rintro _ ⟨⟩; exact hd) hes ha

theorem Keeps.required {P : α → Prop} {c : Checker α} (h : Keeps P c) {name : String}
    {es : List (Value × Value)} (hes : Value.ShortIn es) {a : α}
    (ha : required name c es = .ok a) : P a :=
  h.fieldNamed (by simp) hes ha

/-- A record read field by field is read from short entries. -/
theorem record_eq_ok {name : String} {v : Value} {es : List (Value × Value)}
    (h : record name v = .ok es) (hv : v.Short) : Value.ShortIn es := by
  cases v with
  | map entries =>
    cases h
    exact hv.entriesOf
  | _ => simp [record, flawed] at h

end Schema

end MergeGate
