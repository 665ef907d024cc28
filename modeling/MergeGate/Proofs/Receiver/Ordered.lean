/-
Documents with their keys in ascending order at every level: what is read again out of a JSON text,
whose writer sets keys in that order. The order changes neither the text (`write_ordered`) nor what
stands under a key (`field?_ordered`).
-/
import MergeGate.Json
import MergeGate.Proofs.Receiver.Document

namespace MergeGate.Value

mutual

/-- The value with the keys of its maps in ascending order. -/
def ordered : Value → Value
  | .list items => .list (orderedAll items)
  | .map es => .ofFields (Assoc.sortByKey (orderedEntries es))
  | v => v

/-- Items with the keys of their maps in ascending order. -/
def orderedAll : List Value → List Value
  | [] => []
  | v :: rest => ordered v :: orderedAll rest

/-- Entries with the keys of their values' maps in ascending order. -/
def orderedEntries : List (Value × Value) → Assoc Value
  | [] => []
  | (k, v) :: rest => (Json.key k, ordered v) :: orderedEntries rest

end

/-- Fields in ascending order of their keys, and so in each of them. -/
def orderedFields (fields : Assoc Value) : Assoc Value :=
  (Assoc.sortByKey fields).map fun f => (f.1, f.2.ordered)

theorem orderedAll_eq_map (items : List Value) : orderedAll items = items.map ordered := by
  induction items with
  | nil => rfl
  | cons v items ih => rw [orderedAll, List.map_cons, ih]

theorem orderedEntries_fields (fields : Assoc Value) :
    orderedEntries (fields.map fun f => (.text f.1, f.2)) = fields.map fun f => (f.1, f.2.ordered) := by
  induction fields with
  | nil => rfl
  | cons f fields ih =>
    rw [List.map_cons, orderedEntries, ih]
    rfl

/-- An object in order holds its fields in order. -/
theorem ordered_ofFields (fields : Assoc Value) : (ofFields fields).ordered = ofFields (orderedFields fields) := by
  rw [ofFields, ordered, orderedEntries_fields, Assoc.sortByKey_map, orderedFields]

theorem keys_orderedFields (fields : Assoc Value) : (orderedFields fields).keys.Perm fields.keys := by
  simp only [orderedFields, Assoc.keys, List.map_map, Function.comp_def]
  exact (Assoc.sortByKey_perm fields).map _

/-- What stands under a key stands there in order. -/
theorem lookup_orderedFields {fields : Assoc Value} (hkeys : fields.keys.Nodup) (key : String) :
    List.lookup key (orderedFields fields) = (List.lookup key fields).map ordered := by
  have hnodup := (keys_orderedFields fields).nodup_iff.2 hkeys
  have hperm := Assoc.sortByKey_perm fields
  ext v
  rw [Assoc.lookup_eq_some_iff hnodup, Option.map_eq_some_iff, orderedFields, List.mem_map]
  constructor
  · rintro ⟨⟨k, w⟩, hmem, heq⟩
    obtain ⟨rfl, rfl⟩ := Prod.mk.inj heq
    exact ⟨w, (Assoc.lookup_eq_some_iff hkeys).2 (hperm.mem_iff.1 hmem), rfl⟩
  · rintro ⟨w, hw, rfl⟩
    exact ⟨(key, w), hperm.mem_iff.2 ((Assoc.lookup_eq_some_iff hkeys).1 hw), rfl⟩

theorem field?_ordered {fields : Assoc Value} (hkeys : fields.keys.Nodup) (key : String) :
    field? key ((orderedFields fields).map fun f => (.text f.1, f.2)) = (List.lookup key fields).map ordered := by
  rw [field?_fields, lookup_orderedFields hkeys]

namespace IsDocument

variable {P : Float → Prop} {v : Value}

/-- A document in order is a document. -/
theorem ordered (h : v.IsDocument P) : v.ordered.IsDocument P := by
  induction h with
  | list _ ih =>
    rw [Value.ordered, orderedAll_eq_map]
    exact .list (List.forall_mem_map.2 ih)
  | @object fields hkeys _ ih =>
    change ((ofFields fields).ordered).IsDocument P
    rw [ordered_ofFields]
    refine .object ((keys_orderedFields fields).nodup_iff.2 hkeys) (List.forall_mem_map.2 fun f hf => ?_)
    exact ih f ((Assoc.sortByKey_perm fields).mem_iff.1 hf)
  | null => exact .null
  | bool b => exact .bool b
  | int n => exact .int n
  | float h => exact .float h
  | text s => exact .text s

end IsDocument

end Value

namespace Json

open Value

theorem writeAll_eq_map (l : Layout) (depth : Nat) (items : List Value) :
    writeAll l depth items = items.map (write l depth) := by
  induction items with
  | nil => rfl
  | cons v items ih => rw [writeAll, List.map_cons, ih]

theorem writeEntries_fields (l : Layout) (depth : Nat) (fields : Assoc Value) :
    writeEntries l depth (fields.map fun f => (.text f.1, f.2)) = fields.map fun f => (f.1, write l depth f.2) := by
  induction fields with
  | nil => rfl
  | cons f fields ih =>
    rw [List.map_cons, writeEntries, ih]
    rfl

/-- **A document and the document in order have one text.** -/
theorem write_ordered {P : Float → Prop} {v : Value} (h : v.IsDocument P) (l : Layout) (depth : Nat) :
    write l depth v.ordered = write l depth v := by
  induction h generalizing depth with
  | @list items _ ih =>
    have hitems : items.map (write l (depth + 1) ∘ ordered) = items.map (write l (depth + 1)) :=
      List.map_congr_left fun v hv => ih v hv (depth + 1)
    rw [Value.ordered, orderedAll_eq_map, write, write, writeAll_eq_map, writeAll_eq_map, List.map_map, hitems]
  | @object fields _ _ ih =>
    have hfields : (Assoc.sortByKey fields).map (fun f => (f.1, write l (depth + 1) f.2.ordered)) =
        (Assoc.sortByKey fields).map fun f => (f.1, write l (depth + 1) f.2) :=
      List.map_congr_left fun f hf => by rw [ih f ((Assoc.sortByKey_perm fields).mem_iff.1 hf)]
    change write l depth (ofFields fields).ordered = write l depth (ofFields fields)
    rw [ordered_ofFields, ofFields, ofFields, write, write, writeEntries_fields, writeEntries_fields,
      orderedFields, List.map_map]
    dsimp only [Function.comp_def]
    rw [hfields, Assoc.sortByKey_map, Assoc.sortByKey_idem, Assoc.sortByKey_map]
  | _ => rfl

end Json

end MergeGate
