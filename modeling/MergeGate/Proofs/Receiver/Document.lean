/-
JSON documents, as a request's body holds them, and what becomes of one that is written out again.
`IsDocument` is the form: lists, objects with distinct keys, and no dates, bytes or marks. Written
out, a document without NaN stays as it is, except that infinite numbers become null
(`IsDocument.plainValue_eq`).
-/
import MergeGate.Proofs.Assoc
import MergeGate.Proofs.Matrix
import MergeGate.Receiver.Contract

namespace MergeGate

namespace Value

/-- A JSON document whose numbers with a fraction all have a property. -/
inductive IsDocument (P : Float → Prop) : Value → Prop
  | null : IsDocument P .null
  | bool (b : Bool) : IsDocument P (.bool b)
  | int (n : Int) : IsDocument P (.int n)
  | float {x : Float} (h : P x) : IsDocument P (.float x)
  | text (s : String) : IsDocument P (.text s)
  | list {items : List Value} (h : ∀ v ∈ items, IsDocument P v) : IsDocument P (.list items)
  | object {fields : Assoc Value} (hkeys : fields.keys.Nodup)
      (h : ∀ f ∈ fields, IsDocument P f.2) : IsDocument P (.map (fields.map fun f => (.text f.1, f.2)))

mutual

/-- The value with null in the place of every infinite number. -/
def finitePart : Value → Value
  | .float x => if x.isInf then .null else .float x
  | .list items => .list (finiteParts items)
  | .map es => .map (finiteEntries es)
  | v => v

/-- Items with null in the place of every infinite number. -/
def finiteParts : List Value → List Value
  | [] => []
  | v :: rest => finitePart v :: finiteParts rest

/-- Entries with null in the place of every infinite number. -/
def finiteEntries : List (Value × Value) → List (Value × Value)
  | [] => []
  | (k, v) :: rest => (k, finitePart v) :: finiteEntries rest

end

/-- Fields with null in the place of every infinite number. -/
def finiteFields (fields : Assoc Value) : Assoc Value := fields.map fun f => (f.1, f.2.finitePart)

theorem keys_finiteFields (fields : Assoc Value) : (finiteFields fields).keys = fields.keys := by
  simp only [finiteFields, Assoc.keys, List.map_map, Function.comp_def]

theorem finiteParts_eq_map (items : List Value) : finiteParts items = items.map finitePart := by
  induction items with
  | nil => rfl
  | cons v items ih => rw [finiteParts, List.map_cons, ih]

theorem finiteEntries_fields (fields : Assoc Value) :
    finiteEntries (fields.map fun f => (.text f.1, f.2)) =
      (finiteFields fields).map fun f => (.text f.1, f.2) := by
  induction fields with
  | nil => rfl
  | cons f fields ih => rw [List.map_cons, finiteEntries, ih]; rfl

theorem finiteFields_eq {fields : Assoc Value} (h : ∀ f ∈ fields, f.2.finitePart = f.2) :
    finiteFields fields = fields := by
  rw [finiteFields, List.map_congr_left fun f hf => by rw [h f hf], List.map_id']

/-! ## Reading objects -/

theorem anyMark_eq_false {items : List Value} (h : ∀ v ∈ items, v.hasMark = false) :
    anyMark items = false := by
  induction items with
  | nil => rfl
  | cons v items ih =>
    simp only [List.forall_mem_cons] at h
    rw [anyMark, h.1, ih h.2, Bool.or_self]

/-- The value under a text key of an object. -/
theorem field?_fields (key : String) (fields : Assoc Value) :
    field? key (fields.map fun f => (.text f.1, f.2)) = fields.lookup key := by
  induction fields with
  | nil => rfl
  | cons f fields ih =>
    obtain ⟨k, v⟩ := f
    rw [Assoc.lookup_cons, ← ih]
    by_cases h : key = k
    · simp [field?, h]
    · have hk : (k == key) = false := by simpa using fun e => h e.symm
      simp [field?, h, hk]

/-- Setting a text key among text keys is setting it in the map of texts. -/
theorem putEntry_fields (k : String) (v : Value) (m : Assoc Value) :
    putEntry (.text k) v (m.map fun f => (.text f.1, f.2)) =
      (Assoc.put k v m).map fun f => (.text f.1, f.2) := by
  induction m with
  | nil => rfl
  | cons f m ih =>
    have hsame : same (.text f.1) (.text k) = (f.1 == k) := by rw [same, sameAtom]
    rw [List.map_cons, putEntry, Assoc.put, hsame, ih]
    by_cases h : f.1 = k <;> simp [h]

/-- Entries with distinct text keys stay as they are when equal keys are joined. -/
theorem joinEntries_fields {fields : Assoc Value} (hkeys : fields.keys.Nodup) :
    joinEntries (fields.map fun f => (.text f.1, f.2)) = fields.map fun f => (.text f.1, f.2) := by
  have hall : ∀ rest m : Assoc Value,
      (rest.map fun f => (Value.text f.1, f.2)).foldl (fun m e => putEntry e.1 e.2 m)
        (m.map fun f => (.text f.1, f.2)) = (Assoc.putAll m rest).map fun f => (.text f.1, f.2) := by
    intro rest
    induction rest with
    | nil => exact fun m => rfl
    | cons f rest ih =>
      intro m
      rw [List.map_cons, List.foldl_cons, putEntry_fields, ih]
      rfl
  have hfold := hall fields []
  rwa [show Assoc.putAll [] fields = fields from Assoc.ofPairs_of_nodup hkeys] at hfold

namespace IsDocument

variable {P Q : Float → Prop} {v : Value}

theorem mono (h : v.IsDocument P) (hPQ : ∀ x, P x → Q x) : v.IsDocument Q := by
  induction h with
  | null => exact .null
  | bool b => exact .bool b
  | int n => exact .int n
  | float h => exact .float (hPQ _ h)
  | text s => exact .text s
  | list _ ih => exact .list ih
  | object hkeys _ ih => exact .object hkeys ih

/-- Nothing in a document stands for something around it. -/
theorem hasMark (h : v.IsDocument P) : v.hasMark = false := by
  induction h with
  | list _ ih => exact anyMark_eq_false ih
  | object _ _ ih => exact anyMarkIn_eq_false (List.forall_mem_map.2 ih)
  | _ => rfl

theorem itemsOf {items : List Value} (h : (Value.list items).IsDocument P) :
    (Value.list items).itemsOf = items := if_neg (by rw [show anyMark items = false from h.hasMark]; simp)

theorem entriesOf {es : List (Value × Value)} (h : (Value.map es).IsDocument P) :
    (Value.map es).entriesOf = es := if_neg (by rw [show anyMarkIn es = false from h.hasMark]; simp)

/-- The value under a key of an object is a document. -/
theorem field? {es : List (Value × Value)} (h : (Value.map es).IsDocument P) {key : String}
    (hv : Value.field? key es = some v) : v.IsDocument P := by
  cases h with
  | object hkeys h =>
    rw [field?_fields] at hv
    obtain ⟨l₁, l₂, rfl, -⟩ := List.lookup_eq_some_iff.1 hv
    exact h (key, v) (by simp)

theorem finitePart (h : v.IsDocument P) : v.finitePart.IsDocument fun x => P x ∧ x.isInf = false := by
  induction h with
  | null => exact .null
  | bool b => exact .bool b
  | int n => exact .int n
  | float h =>
    rw [Value.finitePart]
    split
    · exact .null
    · next hx => exact .float ⟨h, by simpa using hx⟩
  | text s => exact .text s
  | list _ ih =>
    rw [Value.finitePart, finiteParts_eq_map]
    exact .list (by simpa using ih)
  | @object fields hkeys _ ih =>
    rw [Value.finitePart, finiteEntries_fields]
    exact .object (by rwa [keys_finiteFields]) (List.forall_mem_map.2 ih)

/-- A document without infinite numbers is its own finite part. -/
theorem finitePart_eq (h : v.IsDocument fun x => x.isInf = false) : v.finitePart = v := by
  induction h with
  | float h => rw [Value.finitePart, h]; rfl
  | list _ ih =>
    rw [Value.finitePart, finiteParts_eq_map, List.map_congr_left ih, List.map_id']
  | object _ _ ih =>
    rw [Value.finitePart, finiteEntries_fields, finiteFields_eq ih]
  | _ => rfl

end IsDocument

end Value

namespace Receiver.StatusReport

open Value

/-- Items are written out one by one. -/
theorem plainValues_eq {items : List Value} (h : ∀ v ∈ items, plainValue v = .ok v.finitePart) :
    plainValues items = .ok (items.map finitePart) := by
  induction items with
  | nil => rfl
  | cons v items ih =>
    simp only [List.forall_mem_cons] at h
    rw [plainValues, h.1, ih h.2]
    rfl

theorem plainFields_eq {fields : Assoc Value} (h : ∀ f ∈ fields, plainValue f.2 = .ok f.2.finitePart) :
    plainFields fields = .ok (finiteFields fields) := by
  induction fields with
  | nil => rfl
  | cons f fields ih =>
    obtain ⟨k, v⟩ := f
    simp only [List.forall_mem_cons] at h
    rw [plainFields, h.1, ih h.2]
    rfl

theorem plainEntries_eq {fields : Assoc Value} (h : ∀ f ∈ fields, plainValue f.2 = .ok f.2.finitePart) :
    plainEntries (fields.map fun f => (.text f.1, f.2)) =
      .ok ((finiteFields fields).map fun f => (.text f.1, f.2)) := by
  induction fields with
  | nil => rfl
  | cons f fields ih =>
    obtain ⟨k, v⟩ := f
    simp only [List.forall_mem_cons] at h
    rw [List.map_cons, plainEntries, h.1, ih h.2]
    rfl

end Receiver.StatusReport

/-- A document without NaN is written out as its finite part. -/
theorem Value.IsDocument.plainValue_eq {v : Value} (h : v.IsDocument fun x => x.isNaN = false) :
    Receiver.StatusReport.plainValue v = .ok v.finitePart := by
  induction h with
  | @float x h =>
    rw [Receiver.StatusReport.plainValue, Value.finitePart, h]
    rfl
  | @list items _ ih =>
    rw [Receiver.StatusReport.plainValue, Receiver.StatusReport.plainValues_eq ih, Value.finitePart,
      Value.finiteParts_eq_map]
    rfl
  | @object fields hkeys _ ih =>
    rw [Receiver.StatusReport.plainValue, Receiver.StatusReport.plainEntries_eq ih, Value.finitePart,
      Value.finiteEntries_fields, Except.map,
      Value.joinEntries_fields (by rwa [Value.keys_finiteFields])]
  | _ => rfl

end MergeGate
