/-
Why a document is refused. A checked document declares no workflow for one of five reasons (`Declined`), and
each of them is read off the document as it stands (`Refused`). Beside them there is only what the schema
finds.
-/
import MergeGate.Proofs.Document.Reading

namespace MergeGate.Document

open Schema

/-! ## Checked documents -/

/-- Why a checked document declares no workflow. -/
inductive Declined (source : String) (d : WorkflowDoc) : Cause → Prop
  | noJobs (none : d.jobs = []) : Declined source d (.noJobs source)
  | emptyJob {id : String} (job : (id, none) ∈ d.jobs) : Declined source d (.emptyJob id)
  | unknown {ids : List String} (some : ids ≠ [])
    (unknown : ∀ id, id ∈ ids ↔ id ∈ d.gate.advisory ∧ id ∉ d.jobs.keys) :
    Declined source d (.unknownAdvisory ids)
  | contradicts {id : String} {j : JobDoc} (job : (id, some j) ∈ d.jobs) (listed : id ∈ d.gate.advisory)
    (critical : j.critical = some true) : Declined source d (.criticalAdvisory id)
  | tooLong : Declined source d .numberTooLong

theorem envTexts_error : ∀ {m : Assoc Value} {e : Rejection}, envTexts m = .error e → e.cause = .numberTooLong
  | [], e, h => by cases h
  | (k, v) :: m, e, h => by
    rw [envTexts] at h
    split at h
    · cases h
      rfl
    · exact envTexts_error (map_eq_error.1 h)

theorem toSteps_error : ∀ {ds : List StepDoc} {n : Nat} {e : Rejection}, toSteps n ds = .error e →
    e.cause = .numberTooLong
  | [], n, e, h => by cases h
  | d :: ds, n, e, h => by
    rw [toSteps] at h
    rcases bind_eq_error.1 h with henv | ⟨m, -, h⟩
    · exact envTexts_error henv
    · rcases bind_eq_error.1 h with hrest | ⟨ss, -, h⟩
      · exact toSteps_error hrest
      · cases h

theorem criticality_error {advisory : List String} {id : String} {d : JobDoc} {e : Rejection}
    (h : criticality advisory id d = .error e) :
    e.cause = .criticalAdvisory id ∧ id ∈ advisory ∧ d.critical = some true := by
  rw [criticality] at h
  split at h
  · next hlisted =>
    split at h
    · next hcritical =>
      cases h
      exact ⟨rfl, by simpa using hlisted, hcritical⟩
    · cases h
  · cases h

theorem toJob_error {advisory : List String} {id : String} {d : JobDoc} {e : Rejection}
    (h : toJob advisory id d = .error e) : e.cause = .numberTooLong ∨
      e.cause = .criticalAdvisory id ∧ id ∈ advisory ∧ d.critical = some true := by
  rw [toJob] at h
  rcases bind_eq_error.1 h with hsteps | ⟨ss, -, h⟩
  · exact .inl (toSteps_error hsteps)
  rcases bind_eq_error.1 h with hcritical | ⟨o, -, h⟩
  · exact .inr (criticality_error hcritical)
  rcases bind_eq_error.1 h with henv | ⟨m, -, h⟩
  · exact .inl (envTexts_error henv)
  · cases h

theorem toJobs_error {advisory : List String} : ∀ {ds : Assoc JobDoc} {e : Rejection},
    toJobs advisory ds = .error e → e.cause = .numberTooLong ∨
      ∃ p ∈ ds, e.cause = .criticalAdvisory p.1 ∧ p.1 ∈ advisory ∧ p.2.critical = some true
  | [], e, h => by cases h
  | (id, d) :: ds, e, h => by
    rw [toJobs] at h
    rcases bind_eq_error.1 h with hjob | ⟨j, -, h⟩
    · exact (toJob_error hjob).imp_right fun hbad => ⟨(id, d), by simp, hbad⟩
    rcases bind_eq_error.1 h with hrest | ⟨js, -, h⟩
    · refine (toJobs_error hrest).imp_right fun hexists => ?_
      obtain ⟨p, hp, hbad⟩ := hexists
      exact ⟨p, by simp [hp], hbad⟩
    · cases h

theorem filled_error : ∀ {ds : Assoc (Option JobDoc)} {e : Rejection}, filled ds = .error e →
    ∃ id, e.cause = .emptyJob id ∧ (id, none) ∈ ds
  | [], e, h => by cases h
  | (id, none) :: ds, e, h => by
    cases h
    exact ⟨id, rfl, by simp⟩
  | (id, some d) :: ds, e, h => by
    obtain ⟨i, hcause, hmem⟩ := filled_error (map_eq_error.1 h)
    exact ⟨i, hcause, by simp [hmem]⟩

theorem mem_unknown_iff {d : WorkflowDoc} {id : String} :
    id ∈ Text.sortedDistinct (d.gate.advisory.filter fun a => !(d.jobs.map (·.1)).contains a) ↔
      id ∈ d.gate.advisory ∧ id ∉ d.jobs.keys := by
  rw [Text.mem_sortedDistinct, List.mem_filter]
  simp [Assoc.keys]

theorem declare_declined {source : String} {d : WorkflowDoc} {e : Rejection} (h : declare source d = .error e) :
    Declined source d e.cause := by
  simp only [declare] at h
  split at h
  · next hnone =>
    obtain rfl : _ = e := by simpa [bind, Except.bind] using h
    exact .noJobs (List.isEmpty_iff.1 hnone)
  · rcases bind_eq_error.1 h with hfilled | ⟨ds, hds, h⟩
    · obtain ⟨id, hcause, hmem⟩ := filled_error hfilled
      rw [hcause]
      exact .emptyJob hmem
    split at h
    · rcases bind_eq_error.1 h with hjobs | ⟨js, -, h⟩
      · rcases toJobs_error hjobs with hlong | ⟨p, hp, hcause, hlisted, hcritical⟩
        · rw [hlong]
          exact .tooLong
        · rw [hcause]
          exact .contradicts (filled_ok hds p hp) hlisted hcritical
      rcases bind_eq_error.1 h with henv | ⟨m, -, h⟩
      · rw [envTexts_error henv]
        exact .tooLong
      · cases h
    · next hsome =>
      have he := bind_eq_error.1 h
      simp only [Except.error.injEq, reduceCtorEq, false_and, exists_false, or_false] at he
      rw [← he]
      exact .unknown hsome fun id => mem_unknown_iff

/-! ## Documents -/

/-- Why a document is refused. -/
inductive Refused (source : String) (v : Value) : Cause → Prop
  | notMap (shape : ∀ entries, v ≠ .map entries) : Refused source v (.documentNotMap source)
  | invalid {problems : List Problem} (found : workflow (nameEvents v.entriesOf) = .error problems) :
    Refused source v (.documentInvalid source (problems.map (·.text)))
  | noJobs (none : jobsIn v = []) : Refused source v (.noJobs source)
  | emptyJob {id : String} (job : (id, .null) ∈ jobsIn v) : Refused source v (.emptyJob id)
  | unknown {ids : List String} (some : ids ≠ [])
    (unknown : ∀ id, id ∈ ids ↔ id ∈ advisoryIn v ∧ id ∉ (jobsIn v).keys) :
    Refused source v (.unknownAdvisory ids)
  | contradicts {id : String} {j : Value} (job : (id, j) ∈ jobsIn v) (listed : id ∈ advisoryIn v)
    (critical : ownCritical j = some true) : Refused source v (.criticalAdvisory id)
  | tooLong (long : v.isTooLong = true) : Refused source v .numberTooLong

section

variable {source : String} {v : Value} {d : WorkflowDoc} {e : Rejection}

/-- All of these are faults of the configuration, save that a number is too long to be written. -/
theorem Refused.kind {cause : Cause} (h : Refused source v cause) :
    cause.kind = "ConfigurationError" ∨ v.isTooLong = true ∧ cause = .numberTooLong := by
  cases h with
  | tooLong hlong => exact .inr ⟨hlong, rfl⟩
  | _ => exact .inl rfl

/-- A job of the checked document was read from one of the document. -/
theorem Reads.exists_job (h : Reads v d) {id : String} {o : Option JobDoc} (hmem : (id, o) ∈ d.jobs) :
    ∃ j, (id, j) ∈ jobsIn v ∧ optional job j = .ok o := by
  obtain ⟨p, hp, hkey, hjob⟩ := exists_of_forall₂ h.jobs.flip hmem
  obtain ⟨i, j⟩ := p
  obtain rfl : i = id := hkey
  exact ⟨j, hp, hjob⟩

theorem toWorkflow_refused (h : toWorkflow source v = .error e) : Refused source v e.cause := by
  have hlong : e.cause = .numberTooLong → v.isTooLong = true := by
    intro hcause
    by_contra hshort
    have hv : v.Short := by simpa [Value.Short] using hshort
    have hcalm := toWorkflow_calm hv e h
    rw [hcause] at hcalm
    cases hcalm
  cases v with
  | map es =>
    delta toWorkflow at h
    dsimp only at h
    split at h
    · next problems hproblems =>
      cases h
      exact .invalid hproblems
    · next d hd =>
      have hreads := workflow_reads hd
      have hdeclined := declare_declined h
      generalize hcause : e.cause = cause at hdeclined hlong ⊢
      cases hdeclined with
      | noJobs hnone =>
        refine .noJobs ?_
        have hjobs := hreads.jobs
        rw [hnone] at hjobs
        exact List.forall₂_nil_right_iff.1 hjobs
      | emptyJob hjob =>
        obtain ⟨j, hj, hread⟩ := hreads.exists_job hjob
        exact .emptyJob (of_optional_none hread ▸ hj)
      | unknown hsome hunknown =>
        refine .unknown hsome fun id => ?_
        rw [hunknown, hreads.advisory, hreads.jobs.keys]
      | contradicts hjob hlisted hcritical =>
        obtain ⟨j, hj, hread⟩ := hreads.exists_job hjob
        have hown := (job_reads (of_optional_some hread)).critical
        exact .contradicts hj (hreads.advisory ▸ hlisted) (hown.symm.trans hcritical)
      | tooLong => exact .tooLong (hlong rfl)
  | _ =>
    cases h
    refine .notMap fun entries heq => ?_
    cases heq

end

end MergeGate.Document
