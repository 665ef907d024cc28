/-
What a workflow is refused for. Every check fails for a fault of the configuration (`Calm`), with one
exception: an integer with too many digits cannot be written. The checks write what stands in a matrix,
in a variable or in the place of a condition, so this takes such an integer in one of them
(`JobGraph.build_calm`). A text that is read as a condition holds no integers.
-/
import MergeGate.Graph.Build
import MergeGate.Proofs.Condition.Parser
import MergeGate.Proofs.Schema

namespace MergeGate

/-! ## Conditions -/

namespace Condition

mutual

/-- Does the condition hold an integer with too many digits to write? -/
def isTooLong : Condition → Bool
  | always v | given v => v.isTooLong
  | compare field _ operand | glob field operand => field.isTooLong || operand.isTooLong
  | all terms | any terms => anyTooLong terms
  | not term => term.isTooLong

/-- Does one of the terms? -/
def anyTooLong : List Condition → Bool
  | [] => false
  | c :: rest => c.isTooLong || anyTooLong rest

end

/-- No integer in the condition is too long to be written. -/
def Short (c : Condition) : Prop := c.isTooLong = false

theorem checkLeaf_calm {field operand : Value} (hf : field.Short) (ho : operand.Short)
    (op : Option String) : Calm Cause.ofCondition (checkLeaf field operand op) := by
  have hf : field.isTooLong = false := hf
  have ho : operand.isTooLong = false := ho
  unfold checkLeaf
  split
  · exact .error (by simp [Cause.ofCondition, ConditionCause.isTooLong, hf, Cause.isIncident])
  · split
    · exact .error rfl
    · split
      · exact .ok
      · exact .error (by simp [Cause.ofCondition, ConditionCause.isTooLong, hf, ho, Cause.isIncident])

mutual

theorem check_calm : ∀ {c : Condition}, c.Short → Calm Cause.ofCondition (check c)
  | .always _, _ => .ok
  | .compare field op operand, h => by
    simp only [Short, isTooLong, Bool.or_eq_false_iff] at h
    exact checkLeaf_calm h.1 h.2 _
  | .glob field pattern, h => by
    simp only [Short, isTooLong, Bool.or_eq_false_iff] at h
    exact checkLeaf_calm h.1 h.2 _
  | .all terms, h => by
    rw [check]
    split
    · exact .error rfl
    · exact checkAll_calm h
  | .any terms, h => by
    rw [check]
    split
    · exact .error rfl
    · exact checkAll_calm h
  | .not term, h => check_calm (c := term) h
  | .given v, h => by
    have hv : v.isTooLong = false := h
    exact .error (by simp [Cause.ofCondition, ConditionCause.isTooLong, hv, Cause.isIncident])

theorem checkAll_calm : ∀ {cs : List Condition}, anyTooLong cs = false →
    Calm Cause.ofCondition (checkAll cs)
  | [], _ => .ok
  | c :: cs, h => by
    simp only [anyTooLong, Bool.or_eq_false_iff] at h
    exact (check_calm h.1).bind fun _ _ => checkAll_calm h.2

end

/-! ### Declared conditions -/

theorem resolve_calm {c : Condition} (h : c.Short) : Calm Cause.ofCondition (resolve c) := by
  have htree : Calm Cause.ofCondition ((check c).map fun _ => c) := (check_calm h).map
  cases c with
  | given v =>
    cases v with
    | null => exact .ok
    | bool b => exact .ok
    | text s => exact parse_calm s
    | _ => exact htree
  | _ => exact htree

end Condition

/-! ## Checking a graph -/

namespace Staging

theorem checkNeeds_calm {known : List String} {j : Job} : ∀ {ns : List Need},
    Calm Rejection.cause (checkNeeds known j ns)
  | [] => .ok
  | n :: ns => by
    rw [checkNeeds]
    split
    · exact .error rfl
    · split
      · exact .error rfl
      · exact checkNeeds_calm

theorem checkAllNeeds_calm {known : List String} : ∀ {jobs : List Job},
    Calm Rejection.cause (checkAllNeeds known jobs)
  | [] => .ok
  | _ :: _ => checkNeeds_calm.bind fun _ _ => checkAllNeeds_calm

theorem check_calm (jobs : List Job) : Calm Rejection.cause (check jobs) := by
  rw [check]
  split
  · exact checkAllNeeds_calm
  · exact .error rfl

theorem stages_calm (jobs : List Job) : Calm Rejection.cause (stages jobs) := by
  simp only [stages, stagesAlong]
  split
  · exact .ok
  · exact .error rfl

end Staging

namespace Matrix

/-- An axis with a short name and short values is refused for nothing but its shape. -/
theorem checkAxis_calm {key values : Value} (hkey : key.Short) (h : values.Short) :
    Calm id (checkAxis key values) := by
  have hkey : key.isTooLong = false := hkey
  have hshort : ∀ v ∈ values.itemsOf, v.isTooLong = false := h.itemsOf
  have hlong : values.itemsOf.any Value.isTooLong = false := by
    rw [List.any_eq_false]
    exact fun v hv => by simp [hshort v hv]
  unfold checkAxis
  split
  · split
    · exact .error rfl
    · split
      all_goals
        try exact .error rfl
      all_goals
        simp only
        split
        · next v hfind =>
          have hv := hshort v (List.mem_of_find?_eq_some hfind)
          exact .error (by simp [hv, Cause.isIncident])
        · rw [if_neg (by simp [hlong])]
          split
          · exact .ok
          · exact .error rfl
  · exact .error (by simp [hkey, Cause.isIncident])

theorem checkAxes_calm : ∀ {es : List (Value × Value)}, (∀ e ∈ es, e.1.Short ∧ e.2.Short) →
    Calm id (checkAxes es)
  | [], _ => .ok
  | (k, v) :: es, h => by
    simp only [List.forall_mem_cons] at h
    exact (checkAxis_calm h.1.1 h.1.2).bind fun _ _ => checkAxes_calm h.2

theorem checkExports_calm : ∀ {names seen : List String}, Calm id (checkExports seen names)
  | [], _ => .ok
  | n :: names, seen => by
    rw [checkExports]
    split
    · exact .error rfl
    · exact checkExports_calm

theorem checkCause_calm {j : Job} (hm : j.matrix.Short) (hv : ∀ v ∈ envValues j, v.Short) :
    Calm id (checkCause j) := by
  have hlong : (envValues j).any Value.isTooLong = false := by
    rw [List.any_eq_false]
    exact fun v hmem => by simp [show v.isTooLong = false from hv v hmem]
  rw [checkCause]
  split
  · next es hmatrix =>
    rw [hmatrix] at hm
    refine (checkAxes_calm (Value.anyTooLongIn_eq_false.1 hm)).bind fun _ _ =>
      checkExports_calm.bind fun _ _ => ?_
    rw [if_neg (by simp [hlong])]
    split
    · exact .error rfl
    · exact .ok
  · exact .error rfl

theorem check_calm {j : Job} (hm : j.matrix.Short) (hv : ∀ v ∈ envValues j, v.Short) :
    Calm Rejection.cause (check j) :=
  (checkCause_calm hm hv).mapError fun _ => rfl

end Matrix

/-- No integer that a check of the job may have to write is too long. -/
structure Job.Short (j : Job) : Prop where
  condition : j.condition.Short
  matrix : j.matrix.Short
  env : ∀ v ∈ Matrix.envValues j, v.Short

namespace JobGraph

theorem checkEdges_calm {default job : String} : ∀ {ns : List Need} {seen : List String},
    Calm Rejection.cause (checkEdges default job seen ns)
  | [], _ => .ok
  | n :: ns, seen => by
    rw [checkEdges]
    split
    · exact .error rfl
    · split
      · exact .error rfl
      · exact checkEdges_calm.map

theorem checkJob_calm {default : String} {j : Job} (h : j.Short) :
    Calm Rejection.cause (checkJob default j) := by
  rw [checkJob]
  have hcondition : Calm Rejection.cause
      (j.condition.resolve.mapError fun c => .ofCondition c (some j.id)) :=
    (Condition.resolve_calm h.condition).mapError fun _ => rfl
  have hrest : Calm Rejection.cause (do
      let condition ← j.condition.resolve.mapError fun c => .ofCondition c (some j.id)
      let j := { j with condition }
      Matrix.check j
      let edges ← checkEdges default j.id [] j.needs
      return (j, edges)) :=
    hcondition.bind fun _ _ => (Matrix.check_calm h.matrix h.env).bind fun _ _ =>
      checkEdges_calm.bind fun _ _ => .ok
  split
  · exact .error rfl
  · exact hrest

theorem checkJobs_calm {default : String} : ∀ {jobs : List Job}, (∀ j ∈ jobs, j.Short) →
    Calm Rejection.cause (checkJobs default jobs)
  | [], _ => .ok
  | j :: jobs, h => by
    simp only [List.forall_mem_cons] at h
    exact (checkJob_calm h.1).bind fun _ _ => (checkJobs_calm h.2).bind fun _ _ => .ok

theorem build_calm {w : Workflow} (h : ∀ j ∈ w.jobs, j.Short) : Calm Rejection.cause (build w) := by
  rw [build]
  split
  · exact .error rfl
  · exact (Staging.check_calm _).bind fun _ _ => (Staging.stages_calm _).bind fun _ _ =>
      (checkJobs_calm h).bind fun _ _ => .ok

end JobGraph

end MergeGate
