/-
A checked condition has a truth value for every trigger (`evaluate_total`), and reading a declared
condition gives a checked one (`check_of_resolve`): what `check` lets through is what `evaluate`
understands.
-/
import MergeGate.Condition.Expression
import MergeGate.Proofs.Basic

namespace MergeGate.Condition

theorem readField_total {field : Value} (h : isField field = true) (t : Trigger) :
    ∃ s, readField t field = .ok s := by
  cases field with
  | text name =>
    obtain ⟨f, hf⟩ := Option.isSome_iff_exists.1 h
    exact ⟨f.read t, by simp [readField, hf]⟩
  | _ => simp [isField] at h

/-- A checked leaf names a field and holds a text. -/
theorem checkLeaf_ok {field operand : Value} {op : Option String}
    (h : checkLeaf field operand op = .ok ()) : isField field = true ∧ ∃ s, operand = .text s := by
  unfold checkLeaf at h
  split at h
  · cases h
  · next hfield =>
    split at h
    · cases h
    · split at h
      · exact ⟨by simpa using hfield, _, rfl⟩
      · cases h

section

variable (t : Trigger)

mutual

/-- Every checked condition has a truth value. -/
theorem evaluate_total : ∀ {c : Condition}, check c = .ok () → ∃ b, evaluate t c = .ok b
  | .always v, _ => ⟨v.truthy, rfl⟩
  | .compare field op operand, h => by
    obtain ⟨s, hs⟩ := readField_total (checkLeaf_ok h).1 t
    exact ⟨_, by simp only [evaluate, hs, Except.map]; rfl⟩
  | .glob field pattern, h => by
    obtain ⟨hfield, p, rfl⟩ := checkLeaf_ok h
    obtain ⟨s, hs⟩ := readField_total hfield t
    exact ⟨Glob.matchText p s, by simp [evaluate, hs, Except.bind, globText]⟩
  | .all terms, h => by
    rw [check] at h
    split at h
    · cases h
    · simpa only [evaluate] using evaluateAll_total h
  | .any terms, h => by
    rw [check] at h
    split at h
    · cases h
    · simpa only [evaluate] using evaluateAny_total h
  | .not c, h => by
    obtain ⟨b, hb⟩ := evaluate_total (c := c) (by simpa only [check] using h)
    exact ⟨!b, by simp [evaluate, hb, Except.map]⟩
  | .given v, h => by simp [check] at h

theorem evaluateAll_total : ∀ {cs : List Condition}, checkAll cs = .ok () →
    ∃ b, evaluateAll t cs = .ok b
  | [], _ => ⟨true, rfl⟩
  | c :: cs, h => by
    simp only [checkAll, Except.bind_eq_ok] at h
    obtain ⟨_, hc, hcs⟩ := h
    obtain ⟨b, hb⟩ := evaluate_total hc
    obtain ⟨bs, hbs⟩ := evaluateAll_total hcs
    cases b with
    | true => exact ⟨bs, by simp [evaluateAll, hb, Except.bind, hbs]⟩
    | false => exact ⟨false, by simp [evaluateAll, hb, Except.bind]⟩

theorem evaluateAny_total : ∀ {cs : List Condition}, checkAll cs = .ok () →
    ∃ b, evaluateAny t cs = .ok b
  | [], _ => ⟨false, rfl⟩
  | c :: cs, h => by
    simp only [checkAll, Except.bind_eq_ok] at h
    obtain ⟨_, hc, hcs⟩ := h
    obtain ⟨b, hb⟩ := evaluate_total hc
    obtain ⟨bs, hbs⟩ := evaluateAny_total hcs
    cases b with
    | true => exact ⟨true, by simp [evaluateAny, hb, Except.bind]⟩
    | false => exact ⟨bs, by simp [evaluateAny, hb, Except.bind, hbs]⟩

end

end

theorem check_of_parse {s : String} {c : Condition} (h : parse s = .ok c) : check c = .ok () := by
  rw [parse] at h
  split at h
  · cases h
  · simp only [bind_eq_ok, pure_eq_ok] at h
    obtain ⟨_, _, _, hcheck, rfl⟩ := h
    exact hcheck

/-- What a declared condition stands for passes the check. -/
theorem check_of_resolve {c d : Condition} (h : resolve c = .ok d) : check d = .ok () := by
  have htree : (check c).map (fun _ => c) = .ok d → check d = .ok () := by
    intro h
    obtain ⟨_, hcheck, rfl⟩ := map_eq_ok.1 h
    exact hcheck
  cases c with
  | given v =>
    cases v with
    | null => cases h; rfl
    | bool b => cases h; rfl
    | text s => exact check_of_parse h
    | _ => exact htree h
  | _ => exact htree h

end MergeGate.Condition
