/-
Reports as the receiver reads and writes them. What it reads out of a document has the form of
`StatusReport.Sound`, and such a report is read back from its own written form as it was
(`StatusReport.Sound.report_withContext`).
-/
import MergeGate.Proofs.Receiver.Document
import MergeGate.Proofs.Schema

namespace MergeGate

/-! ## Reading objects field by field -/

namespace Schema

variable {α : Type} {P : Float → Prop} {fields : Assoc Value}

/-- A document read as a record is an object. -/
theorem record_document {name : String} {v : Value} {es : List (Value × Value)} (h : v.IsDocument P)
    (hes : record name v = .ok es) : v = .map es := by
  cases v with
  | map entries =>
    rw [record, h.entriesOf] at hes
    rw [Except.ok.inj hes]
  | _ => cases hes

theorem record_fields {name : String} (h : (Value.ofFields fields).IsDocument P) :
    record name (.ofFields fields) = .ok (fields.map fun f => (.text f.1, f.2)) := by
  rw [Value.ofFields, record, h.entriesOf]

/-- What a list gives was given by its items. -/
theorem of_mem_list {c : Checker α} {v : Value} {xs : List α} (h : list c v = .ok xs) :
    ∀ x ∈ xs, ∃ v, c v = .ok x := by
  have hall : ∀ (vs : List Value) (n : Nat) (xs : List α), itemsFrom c n vs = .ok xs →
      ∀ x ∈ xs, ∃ v, c v = .ok x := by
    intro vs
    induction vs with
    | nil =>
      intro n xs h
      obtain rfl : [] = xs := Except.ok.inj h
      simp
    | cons v vs ih =>
      intro n xs h
      obtain ⟨_, rest, hhead, hrest, rfl⟩ := both_eq_ok.1 h
      obtain ⟨x, hx, rfl⟩ := map_eq_ok.1 hhead
      exact List.forall_mem_cons.2 ⟨⟨v, under_eq_ok.1 hx⟩, ih _ rest hrest⟩
  cases v with
  | list items => exact hall _ _ _ h
  | tuple items => exact hall _ _ _ h
  | set items => exact hall _ _ _ h
  | _ => cases h

/-- Items that are each read back are read back as a list. -/
theorem list_map {c : Checker α} {f : α → Value} {xs : List α} (h : (Value.list (xs.map f)).IsDocument P)
    (hc : ∀ x ∈ xs, c (f x) = .ok x) : list c (.list (xs.map f)) = .ok xs := by
  have hall : ∀ (ys : List α) (n : Nat), (∀ y ∈ ys, c (f y) = .ok y) →
      itemsFrom c n (ys.map f) = .ok ys := by
    intro ys
    induction ys with
    | nil => exact fun _ _ => rfl
    | cons y ys ih =>
      intro n hys
      simp only [List.forall_mem_cons] at hys
      rw [List.map_cons, itemsFrom, hys.1, ih _ hys.2]
      rfl
  rw [list, h.itemsOf]
  exact hall xs 0 hc

theorem entries_anything (fields : Assoc Value) :
    entries anything (fields.map fun f => (.text f.1, f.2)) = .ok fields := by
  induction fields with
  | nil => rfl
  | cons f fields ih =>
    rw [List.map_cons, entries, ih]
    rfl

theorem map_anything (h : (Value.ofFields fields).IsDocument P) (hkeys : fields.keys.Nodup) :
    map anything (.ofFields fields) = .ok fields := by
  rw [Value.ofFields, map, h.entriesOf, entries_anything, Except.map, Assoc.ofPairs_of_nodup hkeys]

/-- A map of anything read out of a document holds its fields. -/
theorem map_anything_document {v : Value} {m : Assoc Value} (h : v.IsDocument P)
    (hm : map anything v = .ok m) : m.keys.Nodup ∧ ∀ f ∈ m, f.2.IsDocument P := by
  cases h with
  | @object fields hkeys hfields =>
    obtain rfl : fields = m := Except.ok.inj ((map_anything (.object hkeys hfields) hkeys).symm.trans hm)
    exact ⟨hkeys, hfields⟩
  | _ => cases hm

end Schema

namespace Receiver

open Schema

variable {P : Float → Prop}

/-! ## Reading a report -/

theorem definition_eq_ok {v : Value} {d : Definition} :
    definition v = .ok d ↔ ∃ es, record "DefinitionStatus" v = .ok es ∧
      required "id" text es = .ok d.id ∧
      required "status" (statusOf ["succeeded", "failed", "skipped"]) es = .ok d.status ∧
      required "critical" bool es = .ok d.critical ∧
      defaulted "reason" none (optional text) es = .ok d.reason ∧
      defaulted "allowed_failures" 0 int es = .ok d.allowedFailures := by
  simp only [definition, bind_eq_ok, both_eq_ok, map_eq_ok]
  constructor
  · rintro ⟨es, hes, _, _, ⟨_, _, ⟨_, _, ⟨_, _, ⟨_, h₁, rfl⟩, h₂, rfl⟩, h₃, rfl⟩, h₄, rfl⟩, h₅, rfl⟩
    exact ⟨es, hes, h₁, h₂, h₃, h₄, h₅⟩
  · rintro ⟨es, hes, h₁, h₂, h₃, h₄, h₅⟩
    exact ⟨es, hes, _, _, ⟨_, _, ⟨_, _, ⟨_, _, ⟨_, h₁, rfl⟩, h₂, rfl⟩, h₃, rfl⟩, h₄, rfl⟩, h₅, rfl⟩

/-- A report is read field by field, each in its own way. -/
theorem report_eq_ok {v : Value} {r : StatusReport} :
    report v = .ok r ↔ ∃ es, record "GateStatusReport" v = .ok es ∧
      required "run_id" someText es = .ok r.runId ∧
      required "overall" (statusOf ["succeeded", "failed"]) es = .ok r.overall ∧
      required "definitions" (list definition) es = .ok r.definitions ∧
      defaulted "workflow" "workflow" text es = .ok r.workflow ∧
      defaulted "triggered" true bool es = .ok r.triggered ∧
      defaulted "cancelled" [] (list text) es = .ok r.cancelled ∧
      defaulted "cancel_timeouts" [] (list text) es = .ok r.cancelTimeouts ∧
      defaulted "context" [] (map anything) es = .ok r.context := by
  simp only [report, bind_eq_ok, both_eq_ok, map_eq_ok]
  constructor
  · rintro ⟨es, hes, _, _, ⟨_, _, ⟨_, _, ⟨_, _, ⟨_, _, ⟨_, _, ⟨_, _, ⟨_, h₁, rfl⟩, h₂, rfl⟩, h₃, rfl⟩,
      h₄, rfl⟩, h₅, rfl⟩, h₆, rfl⟩, h₇, rfl⟩, h₈, rfl⟩
    exact ⟨es, hes, h₁, h₂, h₃, h₄, h₅, h₆, h₇, h₈⟩
  · rintro ⟨es, hes, h₁, h₂, h₃, h₄, h₅, h₆, h₇, h₈⟩
    exact ⟨es, hes, _, _, ⟨_, _, ⟨_, _, ⟨_, _, ⟨_, _, ⟨_, _, ⟨_, _, ⟨_, h₁, rfl⟩, h₂, rfl⟩, h₃, rfl⟩,
      h₄, rfl⟩, h₅, rfl⟩, h₆, rfl⟩, h₇, rfl⟩, h₈, rfl⟩

/-- A status read as one of some words writes one of them. -/
theorem statusOf_eq_ok {words : List String} {v : Value} {s : Status} :
    statusOf words v = .ok s ↔ ∃ w ∈ words, v = .text w ∧ Status.ofWord w = s := by
  cases v with
  | text w =>
    by_cases h : w ∈ words
    · simp [statusOf, oneOf, h, Except.map]
    · simp [statusOf, oneOf, h, Except.map, flawed]
  | _ => simp [statusOf, oneOf, Except.map, flawed]

namespace StatusReport

/-- The form of every report read out of a document. -/
structure Sound (P : Float → Prop) (r : StatusReport) : Prop where
  runId : r.runId ≠ ""
  overall : r.overall = .succeeded ∨ r.overall = .failed
  statuses : ∀ d ∈ r.definitions, d.status = .succeeded ∨ d.status = .failed ∨ d.status = .skipped
  keys : (Assoc.keys r.context).Nodup
  context : ∀ f ∈ r.context, f.2.IsDocument P

end StatusReport

theorem definition_status {v : Value} {d : Definition} (h : definition v = .ok d) :
    d.status = .succeeded ∨ d.status = .failed ∨ d.status = .skipped := by
  obtain ⟨es, -, -, hstatus, -⟩ := definition_eq_ok.1 h
  obtain ⟨w, -, hw⟩ := required_eq_ok.1 hstatus
  obtain ⟨s, hs, -, hof⟩ := statusOf_eq_ok.1 hw
  simp only [List.mem_cons, List.not_mem_nil, or_false] at hs
  rcases hs with rfl | rfl | rfl
  · exact .inl hof.symm
  · exact .inr (.inl hof.symm)
  · exact .inr (.inr hof.symm)

/-- A report read out of a document is sound. -/
theorem report_sound {v : Value} {r : StatusReport} (hv : v.IsDocument P) (h : report v = .ok r) :
    r.Sound P := by
  obtain ⟨es, hes, hid, hoverall, hdefs, -, -, -, -, hcontext⟩ := report_eq_ok.1 h
  obtain rfl := record_document hv hes
  have hcontext : (Assoc.keys r.context).Nodup ∧ ∀ f ∈ r.context, f.2.IsDocument P := by
    rcases defaulted_eq_ok.1 hcontext with ⟨-, hnil⟩ | ⟨w, hw, hmap⟩
    · rw [← hnil]
      exact ⟨List.nodup_nil, by simp⟩
    · exact map_anything_document (hv.field? hw) hmap
  refine ⟨?_, ?_, ?_, hcontext.1, hcontext.2⟩
  · obtain ⟨w, -, hw⟩ := required_eq_ok.1 hid
    obtain ⟨s, -, hs⟩ := Except.bind_eq_ok.1 hw
    split at hs
    · cases hs
    · next hne => exact Except.ok.inj hs ▸ hne
  · obtain ⟨w, -, hw⟩ := required_eq_ok.1 hoverall
    obtain ⟨s, hs, -, hof⟩ := statusOf_eq_ok.1 hw
    simp only [List.mem_cons, List.not_mem_nil, or_false] at hs
    rcases hs with rfl | rfl
    · exact .inl hof.symm
    · exact .inr hof.symm
  · obtain ⟨w, -, hw⟩ := required_eq_ok.1 hdefs
    intro d hd
    obtain ⟨v, hv⟩ := of_mem_list hw d hd
    exact definition_status hv

/-! ## Writing a report and reading it back -/

/-- A word for one of some statuses is read as that status. -/
theorem statusOf_word {words : List String} {s : Status} (hmem : s.word ∈ words)
    (hword : Status.ofWord s.word = s) : statusOf words (.text s.word) = .ok s :=
  statusOf_eq_ok.2 ⟨s.word, hmem, rfl, hword⟩

namespace StatusReport

theorem definitionValue_document (d : Definition) : (definitionValue d).IsDocument P := by
  refine .object (by simp [Assoc.keys]) ?_
  have hreason : (Value.ofText? d.reason).IsDocument P := by
    cases d.reason with
    | none => exact .null
    | some s => exact .text s
  simpa using ⟨.text _, .text _, .bool _, hreason, .int _⟩

theorem texts_document (xs : List String) : (Value.texts xs).IsDocument P :=
  .list (List.forall_mem_map.2 fun s _ => .text s)

/-- The written form of a report is a document. -/
theorem withContext_document (r : StatusReport) {context : Assoc Value} (hkeys : context.keys.Nodup)
    (h : ∀ f ∈ context, f.2.IsDocument P) : (r.withContext context).IsDocument P := by
  refine .object (by simp [Assoc.keys]) ?_
  have hdefs : (Value.list (r.definitions.map definitionValue)).IsDocument P :=
    .list (List.forall_mem_map.2 fun d _ => definitionValue_document d)
  simpa using ⟨.text _, .text _, hdefs, .text _, .bool _, texts_document _, texts_document _,
    .object hkeys h⟩

/-- A job's outcome is read back from its written form. -/
theorem definition_definitionValue {d : Definition}
    (h : d.status = .succeeded ∨ d.status = .failed ∨ d.status = .skipped) :
    definition (definitionValue d) = .ok d := by
  refine definition_eq_ok.2 ⟨_, record_fields (P := fun _ => True) (definitionValue_document d), ?_⟩
  simp only [required_eq_ok, defaulted_eq_ok, Value.field?_fields]
  refine ⟨⟨_, rfl, rfl⟩, ⟨_, rfl, statusOf_word ?_ ?_⟩, ⟨_, rfl, rfl⟩, .inr ⟨_, rfl, ?_⟩, .inr ⟨_, rfl, rfl⟩⟩
  · rcases h with h | h | h <;> rw [h] <;> decide
  · rcases h with h | h | h <;> rw [h] <;> rfl
  · cases d.reason <;> rfl

theorem list_texts (xs : List String) : list text (Value.texts xs) = .ok xs :=
  list_map (P := fun _ => True) (texts_document xs) fun _ _ => rfl

/-- **A sound report is read back from its written form**, with the context it was written with. -/
theorem Sound.report_withContext {r : StatusReport} (hr : r.Sound P) {context : Assoc Value}
    (hkeys : context.keys.Nodup) (h : ∀ f ∈ context, f.2.IsDocument P) :
    report (r.withContext context) = .ok { r with context } := by
  refine report_eq_ok.2 ⟨_, record_fields (r.withContext_document hkeys h), ?_⟩
  simp only [required_eq_ok, defaulted_eq_ok, Value.field?_fields]
  refine ⟨⟨_, rfl, ?_⟩, ⟨_, rfl, statusOf_word ?_ ?_⟩, ⟨_, rfl, list_map (P := P) ?_ ?_⟩, .inr ⟨_, rfl, rfl⟩,
    .inr ⟨_, rfl, rfl⟩, .inr ⟨_, rfl, list_texts _⟩, .inr ⟨_, rfl, list_texts _⟩,
    .inr ⟨_, rfl, map_anything (.object hkeys h) hkeys⟩⟩
  · exact if_neg hr.runId
  · rcases hr.overall with h | h <;> rw [h] <;> decide
  · rcases hr.overall with h | h <;> rw [h] <;> rfl
  · exact .list (List.forall_mem_map.2 fun d _ => definitionValue_document d)
  · exact fun d hd => definition_definitionValue (hr.statuses d hd)

end StatusReport

end Receiver

end MergeGate
