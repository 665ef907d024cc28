/-
What a condition is refused for. Reading an expression fails for a fault of the text (`readAll_calm`), and
such a refusal is always shown as that of a condition. A refusal that shows a value may show an integer
with too many digits to be written, and then that is what is shown (`Rejection.kind_ofCondition`).
-/
import MergeGate.Condition.Expression

namespace MergeGate

theorem Cause.isIncident_iff {c : Cause} : c.isIncident = true ↔ c = .numberTooLong := by
  cases c <;> simp [isIncident]

/-- A fault of the configuration is shown as one, or as one of a condition. -/
theorem Cause.kind_of_not_isIncident {c : Cause} (h : c.isIncident = false) :
    c.kind = "ConfigurationError" ∨ c.kind = "ConditionError" := by
  rw [kind, if_neg (by simp [h])]
  split
  · exact .inr rfl
  · exact .inl rfl

/-- A failure, if it is one, is a fault of the configuration. -/
def Calm {ε α : Type} (cause : ε → Cause) (x : Except ε α) : Prop :=
  ∀ e, x = .error e → (cause e).isIncident = false

section

variable {ε α β : Type} {cause : ε → Cause}

theorem Calm.ok {a : α} : Calm cause (.ok a) := by
  rintro e ⟨⟩

theorem Calm.error {e : ε} (h : (cause e).isIncident = false) :
    Calm cause (.error e : Except ε α) := by
  rintro _ ⟨⟩
  exact h

/-- A later step may rely on what the earlier one gave. -/
theorem Calm.bind {x : Except ε α} {f : α → Except ε β} (hx : Calm cause x)
    (hf : ∀ a, x = .ok a → Calm cause (f a)) : Calm cause (x >>= f) := by
  cases x with
  | error e => exact .error (hx e rfl)
  | ok a => exact hf a rfl

theorem Calm.map {x : Except ε α} {f : α → β} (hx : Calm cause x) : Calm cause (x.map f) :=
  hx.bind fun _ _ => .ok

theorem Calm.mapError {ε' : Type} {cause' : ε' → Cause} {x : Except ε α} {f : ε → ε'}
    (hx : Calm cause x) (hf : ∀ e, cause' (f e) = cause e) : Calm cause' (x.mapError f) := by
  cases x with
  | error e => exact .error (by rw [hf]; exact hx e rfl)
  | ok a => exact .ok

end

/-- A refused condition is shown as one, unless its message would show an integer that cannot be written. -/
theorem Rejection.kind_ofCondition (cause : ConditionCause) (job : Option String) :
    (Rejection.ofCondition cause job).cause.kind =
      if cause.isTooLong = true then "ValueError" else "ConditionError" := by
  simp only [Rejection.ofCondition, Cause.ofCondition]
  split <;> rfl

theorem isIncident_ofCondition (cause : ConditionCause) :
    (Cause.ofCondition cause).isIncident = cause.isTooLong := by
  rw [Cause.ofCondition]
  cases cause.isTooLong <;> rfl

/-- What is calmly refused is shown as a refused condition. -/
theorem Calm.kind {α : Type} {x : Except ConditionCause α} (hx : Calm Cause.ofCondition x) {cause : ConditionCause}
    (h : x = .error cause) (job : Option String) : (Rejection.ofCondition cause job).cause.kind = "ConditionError" := by
  have hcalm := hx cause h
  rw [isIncident_ofCondition] at hcalm
  rw [Rejection.kind_ofCondition, hcalm]
  rfl

namespace Condition

/-! ## Reading an expression -/

section

variable {e : String}

theorem expectMark_calm {m : Mark} : ∀ {ts : List Token},
    Calm Cause.ofCondition (expectMark e m ts)
  | [] => .error rfl
  | _ :: _ => by
    rw [expectMark]
    split
    · exact .ok
    · exact .error rfl

theorem expectText_calm : ∀ {ts : List Token}, Calm Cause.ofCondition (expectText e ts)
  | [] | .mark _ :: _ | .name _ :: _ => .error rfl
  | .text _ :: _ => .ok

theorem fieldNamed_calm {name : String} : Calm Cause.ofCondition (fieldNamed e name) := by
  rw [fieldNamed]
  split
  · exact .ok
  · exact .error rfl

theorem expectField_calm : ∀ {ts : List Token}, Calm Cause.ofCondition (expectField e ts)
  | [] | .mark _ :: _ | .text _ :: _ => .error rfl
  | .name _ :: _ => fieldNamed_calm.map

theorem expectComparison_calm {name : String} : ∀ {ts : List Token},
    Calm Cause.ofCondition (expectComparison e name ts)
  | [] | .text _ :: _ | .name _ :: _ => .error rfl
  | .mark m :: _ => by cases m <;> first | exact .ok | exact .error rfl

theorem readGlob_calm {pattern : String → String} {ts : List Token} :
    Calm Cause.ofCondition (readGlob e pattern ts) :=
  expectMark_calm.bind fun _ _ => expectField_calm.bind fun _ _ => expectMark_calm.bind fun _ _ =>
    expectText_calm.bind fun _ _ => expectMark_calm.bind fun _ _ => .ok

theorem readComparison_calm {name : String} {ts : List Token} :
    Calm Cause.ofCondition (readComparison e name ts) :=
  fieldNamed_calm.bind fun _ _ => expectComparison_calm.bind fun _ _ => expectText_calm.bind fun _ _ => .ok

theorem readTest_calm {name : String} {ts : List Token} :
    Calm Cause.ofCondition (readTest e name ts) := by
  rw [readTest]
  split
  · exact readGlob_calm
  · split
    · exact readGlob_calm
    · exact readComparison_calm

mutual

theorem readOr_calm (ts : List Token) : Calm Cause.ofCondition (readOr e ts) := by
  rw [readOr]
  refine (readAnd_calm ts).bind fun ⟨_, ts₁, h₁⟩ _ => ?_
  exact (readOrRest_calm ts₁).bind fun _ _ => .ok
termination_by (ts.length, 4)

theorem readOrRest_calm (ts : List Token) : Calm Cause.ofCondition (readOrRest e ts) := by
  rw [readOrRest.eq_def]
  split
  · next rest =>
    have hts : rest.length < (Token.mark Mark.or :: rest).length := by simp
    refine (readAnd_calm rest).bind fun ⟨_, ts₁, h₁⟩ _ => ?_
    exact (readOrRest_calm ts₁).bind fun _ _ => .ok
  · exact .ok
termination_by (ts.length, 0)

theorem readAnd_calm (ts : List Token) : Calm Cause.ofCondition (readAnd e ts) := by
  rw [readAnd]
  refine (readUnary_calm ts).bind fun ⟨_, ts₁, h₁⟩ _ => ?_
  exact (readAndRest_calm ts₁).bind fun _ _ => .ok
termination_by (ts.length, 3)

theorem readAndRest_calm (ts : List Token) : Calm Cause.ofCondition (readAndRest e ts) := by
  rw [readAndRest.eq_def]
  split
  · next rest =>
    have hts : rest.length < (Token.mark Mark.and :: rest).length := by simp
    refine (readUnary_calm rest).bind fun ⟨_, ts₁, h₁⟩ _ => ?_
    exact (readAndRest_calm ts₁).bind fun _ _ => .ok
  · exact .ok
termination_by (ts.length, 0)

theorem readUnary_calm (ts : List Token) : Calm Cause.ofCondition (readUnary e ts) := by
  rw [readUnary.eq_def]
  split
  · next rest => exact (readUnary_calm rest).bind fun _ _ => .ok
  · exact readPrimary_calm ts
termination_by (ts.length, 2)

theorem readPrimary_calm (ts : List Token) : Calm Cause.ofCondition (readPrimary e ts) := by
  rw [readPrimary.eq_def]
  split
  · exact .error rfl
  · next rest => exact (readOr_calm rest).bind fun _ _ => expectMark_calm.bind fun _ _ => .ok
  · split
    · exact .ok
    · exact readTest_calm.bind fun _ _ => .ok
  · exact .error rfl
termination_by (ts.length, 1)

end

end

theorem readAll_calm (e : String) (ts : List Token) : Calm Cause.ofCondition (readAll e ts) := by
  refine (readOr_calm ts).bind fun ⟨_, rest, _⟩ _ => ?_
  cases rest with
  | nil => exact .ok
  | cons t rest => exact .error rfl

end Condition

end MergeGate
