/-
What is stored of a report that was read out of a document. There always is something to store, and it
is equal to itself: what could not be, a number that is none, is null in the stored form
(`payload_of_document`).
-/
import Mathlib
import MergeGate.Proofs.Receiver.Report
import MergeGate.Receiver.Store

namespace MergeGate

namespace Value

/-! ## Documents equal to themselves -/

theorem sameAll_self : ∀ {items : List Value}, (∀ v ∈ items, same v v = true) → sameAll items items = true
  | [], _ => by simp [sameAll]
  | v :: items, h => by
    simp only [List.forall_mem_cons] at h
    rw [sameAll, h.1, sameAll_self h.2, Bool.and_self]

/-- Entries that stand among others are found there. -/
theorem sameIn_of_subset {es : List (Value × Value)} : ∀ {sub : List (Value × Value)}, (∀ e ∈ sub, e ∈ es) →
    (∀ e ∈ sub, same e.1 e.1 = true ∧ same e.2 e.2 = true) → sameIn sub es = true
  | [], _, _ => by simp [sameIn]
  | (k, v) :: sub, hsub, h => by
    simp only [List.forall_mem_cons] at hsub h
    have hfound : (es.any fun f => same k f.1 && same v f.2) = true :=
      List.any_eq_true.2 ⟨(k, v), hsub.1, by rw [h.1.1, h.1.2]; rfl⟩
    rw [sameIn, hfound, sameIn_of_subset hsub.2 h.2, Bool.and_self]

/-- A document without NaN is equal to itself. -/
theorem IsDocument.same_self {v : Value} (h : v.IsDocument fun x => x.isNaN = false) : same v v = true := by
  induction h with
  | null => simp [same, sameAtom]
  | bool b => simp [same, sameAtom, fraction?]
  | int n => simp [same, sameAtom, fraction?]
  | float h =>
    rw [Float.isNaN_eq_decide_eq_nan] at h
    simpa [same, sameAtom] using h
  | text s => simp [same, sameAtom]
  | list _ ih => rw [same, sameAll_self ih]
  | @object fields _ _ ih =>
    rw [same, beq_self_eq_true, Bool.true_and]
    refine sameIn_of_subset (fun _ he => he) (List.forall_mem_map.2 fun f hf => ⟨?_, ih f hf⟩)
    simp [same, sameAtom]

end Value

namespace Receiver

open Value

/-! ## Documents written out -/

namespace StatusReport

variable {P : Value → Prop}

/-- Items that can each be written out can be written out together. -/
theorem plainValues_total : ∀ {items : List Value}, (∀ v ∈ items, ∃ w, plainValue v = .ok w ∧ P w) →
    ∃ ws, plainValues items = .ok ws ∧ ∀ w ∈ ws, P w
  | [], _ => ⟨[], rfl, by simp⟩
  | v :: items, h => by
    simp only [List.forall_mem_cons] at h
    obtain ⟨w, hw, hP⟩ := h.1
    obtain ⟨ws, hws, hall⟩ := plainValues_total h.2
    exact ⟨w :: ws, by rw [plainValues, hw, hws]; rfl, by simpa using ⟨hP, hall⟩⟩

/-- Fields whose values can be written out can be written out, under the same keys. -/
theorem plainFields_total : ∀ {fields : Assoc Value}, (∀ f ∈ fields, ∃ w, plainValue f.2 = .ok w ∧ P w) →
    ∃ ws : Assoc Value, plainFields fields = .ok ws ∧ ws.keys = fields.keys ∧ ∀ f ∈ ws, P f.2
  | [], _ => ⟨[], rfl, rfl, by simp⟩
  | (k, v) :: fields, h => by
    simp only [List.forall_mem_cons] at h
    obtain ⟨w, hw, hP⟩ := h.1
    obtain ⟨ws, hws, hkeys, hall⟩ := plainFields_total h.2
    refine ⟨(k, w) :: ws, by rw [plainFields, hw, hws]; rfl, ?_, by simpa using ⟨hP, fun a b => hall (a, b)⟩⟩
    rw [Assoc.keys, List.map_cons]
    exact congrArg (k :: ·) hkeys

/-- The entries of an object are written out as its fields are. -/
theorem plainEntries_fields : ∀ {fields ws : Assoc Value}, plainFields fields = .ok ws →
    plainEntries (fields.map fun f => (.text f.1, f.2)) = .ok (ws.map fun f => (.text f.1, f.2))
  | [], ws, h => by
    obtain rfl : [] = ws := Except.ok.inj h
    rfl
  | (k, v) :: fields, ws, h => by
    obtain ⟨w, hw, hrest⟩ := bind_eq_ok.1 h
    obtain ⟨rest, hfields, hpure⟩ := bind_eq_ok.1 hrest
    obtain rfl := pure_eq_ok.1 hpure
    rw [List.map_cons, plainEntries, hw, plainEntries_fields hfields]
    rfl

end StatusReport

end Receiver

open Receiver.StatusReport in
/-- A document can be written out, and there is no NaN in what is written. -/
theorem Value.IsDocument.plainValue_total {P : Float → Prop} {v : Value} (h : v.IsDocument P) :
    ∃ w, plainValue v = .ok w ∧ w.IsDocument fun x => x.isNaN = false := by
  induction h with
  | null => exact ⟨.null, rfl, .null⟩
  | bool b => exact ⟨.bool b, rfl, .bool b⟩
  | int n => exact ⟨.int n, rfl, .int n⟩
  | @float x _ =>
    refine ⟨_, by rw [plainValue], ?_⟩
    split
    · exact .null
    · next hx =>
      simp only [Bool.or_eq_true, not_or, Bool.not_eq_true] at hx
      exact .float hx.1
  | text s => exact ⟨.text s, rfl, .text s⟩
  | list _ ih =>
    obtain ⟨ws, hws, hall⟩ := plainValues_total ih
    exact ⟨.list ws, by rw [plainValue, hws]; rfl, .list hall⟩
  | object hkeys _ ih =>
    obtain ⟨ws, hws, hsame, hall⟩ := plainFields_total ih
    have hnodup : ws.keys.Nodup := by rwa [hsame]
    refine ⟨_, ?_, .object hnodup hall⟩
    rw [plainValue, plainEntries_fields hws, Except.map, Value.joinEntries_fields hnodup]

namespace Receiver

/-- **What a report read out of a document leaves to be stored** exists and is equal to itself. -/
theorem payload_of_document {P : Float → Prop} {body : Value} {r : StatusReport} (hbody : body.IsDocument P)
    (hreport : report body = .ok r) : ∃ payload, r.payload = .ok payload ∧ Value.same payload payload = true := by
  have hr := report_sound hbody hreport
  obtain ⟨context, hplain, hkeys, hall⟩ :=
    StatusReport.plainFields_total fun f hf => (hr.context f hf).plainValue_total
  refine ⟨r.withContext context, ?_, ?_⟩
  · rw [StatusReport.payload, StatusReport.toValue, hplain]
    rfl
  · exact (StatusReport.withContext_document r (by rw [hkeys]; exact hr.keys) hall).same_self

end Receiver

end MergeGate
