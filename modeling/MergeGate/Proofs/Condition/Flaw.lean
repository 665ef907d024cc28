/-
What the check refuses: exactly the trees with a flawed node somewhere in them, at any depth, be it one
that evaluation would never come to (`check_eq_ok_iff`). With `evaluate_holds` this makes checked
conditions safe to run. What the check gives is the cause of a refusal, and it is shown as that cause
whenever the integers in its message can be written (`long_operand_escapes`).
-/
import MergeGate.Proofs.Condition.Meaning
import MergeGate.Proofs.Refusal

namespace MergeGate.Condition

/-- The node itself, its terms apart, is none that can be evaluated. -/
inductive Flawed : Condition → Prop
  | comparedField {field op operand} : (∀ f : Field, field ≠ .text f.name) →
      Flawed (.compare field op operand)
  | operator {field op operand} : op ≠ "==" → op ≠ "!=" → Flawed (.compare field op operand)
  | operand {field op operand} : (∀ s, operand ≠ .text s) → Flawed (.compare field op operand)
  | matchedField {field pattern} : (∀ f : Field, field ≠ .text f.name) → Flawed (.glob field pattern)
  | pattern {field pattern} : (∀ s, pattern ≠ .text s) → Flawed (.glob field pattern)
  | emptyAll : Flawed (.all [])
  | emptyAny : Flawed (.any [])
  | foreign (v : Value) : Flawed (.given v)

/-- No node of the tree is flawed. -/
def Flawless (c : Condition) : Prop := ∀ d, Within d c → ¬ Flawed d

theorem flawless_compare {field operand : Value} {op : String} :
    Flawless (.compare field op operand) ↔
      (∃ f : Field, field = .text f.name) ∧ (op = "==" ∨ op = "!=") ∧ ∃ s, operand = .text s := by
  constructor
  · intro h
    have hnode := h _ .self
    refine ⟨?_, ?_, ?_⟩
    · by_contra hfield
      exact hnode (.comparedField (not_exists.1 hfield))
    · by_contra hop
      exact hnode (.operator (not_or.1 hop).1 (not_or.1 hop).2)
    · by_contra hoperand
      exact hnode (.operand (not_exists.1 hoperand))
  · rintro ⟨⟨f, hf⟩, hop, s, hs⟩ d hd hflaw
    cases hd
    cases hflaw with
    | comparedField h => exact h f hf
    | operator heq hne => exact hop.elim heq hne
    | operand h => exact h s hs

theorem flawless_glob {field pattern : Value} :
    Flawless (.glob field pattern) ↔ (∃ f : Field, field = .text f.name) ∧ ∃ p, pattern = .text p := by
  constructor
  · intro h
    have hnode := h _ .self
    constructor
    · by_contra hfield
      exact hnode (.matchedField (not_exists.1 hfield))
    · by_contra hpattern
      exact hnode (.pattern (not_exists.1 hpattern))
  · rintro ⟨⟨f, hf⟩, p, hp⟩ d hd hflaw
    cases hd
    cases hflaw with
    | matchedField h => exact h f hf
    | pattern h => exact h p hp

theorem flawless_all {terms : List Condition} :
    Flawless (.all terms) ↔ terms ≠ [] ∧ ∀ c ∈ terms, Flawless c := by
  constructor
  · intro h
    refine ⟨?_, fun c hc d hd => h d (.all hc hd)⟩
    rintro rfl
    exact h _ .self .emptyAll
  · rintro ⟨hne, hterms⟩ d hd hflaw
    cases hd with
    | self => cases hflaw; exact hne rfl
    | all hc hd => exact hterms _ hc _ hd hflaw

theorem flawless_any {terms : List Condition} :
    Flawless (.any terms) ↔ terms ≠ [] ∧ ∀ c ∈ terms, Flawless c := by
  constructor
  · intro h
    refine ⟨?_, fun c hc d hd => h d (.any hc hd)⟩
    rintro rfl
    exact h _ .self .emptyAny
  · rintro ⟨hne, hterms⟩ d hd hflaw
    cases hd with
    | self => cases hflaw; exact hne rfl
    | any hc hd => exact hterms _ hc _ hd hflaw

theorem flawless_not {c : Condition} : Flawless (.not c) ↔ Flawless c := by
  constructor
  · intro h d hd
    exact h d (.not hd)
  · intro h d hd hflaw
    cases hd with
    | self => cases hflaw
    | not hd => exact h d hd hflaw

/-- Terms pass the check when there are some and each of them does. -/
theorem checkTerms_eq_ok {terms : List Condition} :
    (if terms.isEmpty then .error .emptyTerms else checkAll terms) = (.ok () : Except ConditionCause Unit) ↔
      terms ≠ [] ∧ ∀ c ∈ terms, check c = .ok () := by
  cases terms with
  | nil => simp
  | cons c cs => simp [checkAll_eq_ok]

/-- The check lets a tree through exactly when no node of it is flawed. -/
theorem check_eq_ok_iff {c : Condition} : check c = .ok () ↔ Flawless c := by
  induction c using tree_induction with
  | always v =>
    refine ⟨fun _ d hd hflaw => ?_, fun _ => rfl⟩
    cases hd
    cases hflaw
  | compare field op operand =>
    rw [check, checkLeaf_eq_ok, flawless_compare]
    simp
  | glob field pattern =>
    rw [check, checkLeaf_eq_ok, flawless_glob]
    simp
  | all terms ih => rw [check, checkTerms_eq_ok, flawless_all, forall₂_congr ih]
  | any terms ih => rw [check, checkTerms_eq_ok, flawless_any, forall₂_congr ih]
  | not c ih => rw [check, ih, flawless_not]
  | given v =>
    refine ⟨fun h => by simp [check] at h, fun h => absurd (.foreign v) (h _ .self)⟩

/-- A refusal tells of a flawed node, and every flawed node leads to one, however deep it is. -/
theorem check_eq_error_iff {c : Condition} :
    (∃ cause, check c = .error cause) ↔ ∃ d, Within d c ∧ Flawed d := by
  have hnot : (∃ cause, check c = .error cause) ↔ ¬ check c = .ok () := by
    cases check c <;> simp
  rw [hnot, check_eq_ok_iff, Flawless]
  simp only [not_forall, not_not, exists_prop]

/-! ## Conditions that were read -/

/-- What all tokens are read as passes the check. -/
theorem check_of_readAll {e : String} {ts : List Token} {c : Condition} (h : readAll e ts = .ok c) :
    check c = .ok () :=
  (readAll_eq_ok.1 h).shaped.check

/-- A checked tree stands for itself. -/
theorem resolve_of_check {c : Condition} (h : check c = .ok ()) : resolve c = .ok c := by
  have htree : (check c).map (fun _ => c) = .ok c := by rw [h]; rfl
  cases c with
  | given v => simp [check] at h
  | _ => exact htree

theorem answer_of_evaluate {t : Trigger} {c : Condition} {b : Bool} (hd : Declared c)
    (h : evaluate t c = .ok b) : answer t c = .ok (.bool b) := by
  cases c with
  | always v =>
    obtain ⟨b', rfl⟩ := hd v .self
    obtain rfl : b' = b := Except.ok.inj h
    rfl
  | _ => exact map_eq_ok.2 ⟨b, h, rfl⟩

/-- **Checked conditions never fail.** A checked tree evaluates for every trigger, to its truth. What
is read from an expression passes the check at the end of reading, and what a declared condition stands
for stands for itself. The check refuses a tree exactly when some node of it is flawed. The refusal is
shown as that of a condition, unless its message would show an integer that cannot be written; a tree
without such integers is always refused as a condition. -/
theorem check_guards_evaluation (c : Condition) :
    (Declared c → check c = .ok () → ∀ t, ∃ b,
      evaluate t c = .ok b ∧ answer t c = .ok (.bool b) ∧ (b = true ↔ Holds t c)) ∧
    (∀ e ts, readAll e ts = .ok c → check c = .ok ()) ∧
    (∀ s, parse s = .ok c → check c = .ok ()) ∧
    (∀ d, resolve d = .ok c → resolve c = .ok c) ∧
    ((∃ d, Within d c ∧ Flawed d) ↔ ∃ cause, check c = .error cause) ∧
    (∀ cause, check c = .error cause → ∀ job,
      (Rejection.ofCondition cause job).cause.kind =
          (if cause.isTooLong = true then "ValueError" else "ConditionError") ∧
        (c.Short → (Rejection.ofCondition cause job).cause.kind = "ConditionError")) := by
  refine ⟨fun hd hc t => ?_, fun _ _ => check_of_readAll, fun _ => check_of_parse, fun d h => ?_,
    check_eq_error_iff.symm,
    fun cause h job => ⟨Rejection.kind_ofCondition cause job, fun hc => (check_calm hc).kind h job⟩⟩
  · obtain ⟨b, hb, hholds⟩ := evaluate_holds t hd hc
    exact ⟨b, hb, answer_of_evaluate hd hb, hholds⟩
  · exact resolve_of_check (check_of_resolve h)

/-- A comparison with an integer that has one digit too many to be written. -/
def longComparison : Condition := .compare (.text "branch") "==" (.int (Nat.pow 10 Decimal.maxDigits))

/-- A flawed tree can be refused without being refused as a condition. -/
theorem long_operand_escapes : (∃ d, Within d longComparison ∧ Flawed d) ∧
    ∃ cause, check longComparison = .error cause ∧
      ∀ job, (Rejection.ofCondition cause job).cause.kind = "ValueError" := by
  have hflawed : Flawed longComparison := .operand fun s h => by cases h
  obtain ⟨cause, hcause⟩ := check_eq_error_iff.mpr ⟨_, .self, hflawed⟩
  have hlong : (match check longComparison with
      | .error cause => cause.isTooLong
      | .ok _ => false) = true := by
    decide +kernel
  refine ⟨⟨_, .self, hflawed⟩, cause, hcause, fun job => ?_⟩
  rw [hcause] at hlong
  rw [Rejection.kind_ofCondition, if_pos hlong]

end MergeGate.Condition
