/-
Folding, said of the results as a collection: which status, which counts and which reasons follow from
the results that there are (`Exact`), in whatever order they stand. A complete run therefore has the same
report in whatever order its results were recorded, up to the order in which the report lists cancelled
instances.
-/
import MergeGate.Proofs.Outcome
import MergeGate.Proofs.Run

namespace MergeGate

/-- Failed where that is not allowed. -/
def Result.Fatal (x : Result) : Prop := x.status = .failed ∧ x.allowed = false

/-- Skipped without a reason, or for another one than those to be rightly absent. -/
def Result.Lost (x : Result) : Prop :=
  x.status = .skipped ∧ x.reason ≠ some Reason.condition ∧ x.reason ≠ some Reason.emptyMatrix

namespace Outcome

theorem isFatal_iff {x : Result} : isFatal x = true ↔ x.Fatal := by
  simp [isFatal, Result.Fatal]

theorem isLost_iff {x : Result} : isLost x = true ↔ x.Lost := by
  by_cases h : x.status = .skipped <;> simp [isLost, Result.isAbsent, Reason.isAbsence, Result.Lost, h]

/-- Does the result of a job that ends with the status have a say in the reason for it? -/
def Deciding (xs : List Result) (x : Result) : Status → Prop
  | .failed => x.Fatal
  | .skipped => (∀ y ∈ xs, y.status = .skipped) ∨ x.Lost
  | _ => False

/-- The outcome of these results, whatever their order. -/
structure Exact (id : String) (critical : Bool) (xs : List Result) (o : Outcome) : Prop where
  id : o.id = id
  critical : o.critical = critical
  failed : o.status = .failed ↔ ∃ x ∈ xs, x.Fatal
  skipped : o.status = .skipped ↔ (∀ x ∈ xs, ¬ x.Fatal) ∧
    ((∀ x ∈ xs, x.status = .skipped) ∨ ∃ x ∈ xs, x.Lost)
  succeeded : o.status = .succeeded ↔ o.status ≠ .failed ∧ o.status ≠ .skipped
  instances : o.instances = xs.length
  allowedFailures : o.allowedFailures = xs.countP fun x => x.status == .failed && x.allowed
  reason : ∃ reasons : List String, reasons.Pairwise (· < ·) ∧
    (∀ a, a ∈ reasons ↔ a ≠ "" ∧ ∃ x ∈ xs, Deciding xs x o.status ∧ x.reason = some a) ∧
    o.reason = if reasons = [] then none else some (",".intercalate reasons)

section

variable {id : String} {critical : Bool} {xs ys : List Result}

theorem joinReasons_eq (xs : List Result) : ∃ reasons : List String, reasons.Pairwise (· < ·) ∧
    (∀ a, a ∈ reasons ↔ a ≠ "" ∧ ∃ x ∈ xs, x.reason = some a) ∧
    joinReasons xs = if reasons = [] then none else some (",".intercalate reasons) := by
  refine ⟨_, Text.pairwise_sortedDistinct ((xs.filterMap (·.reason)).filter (· != "")), fun a => ?_, ?_⟩
  · rw [Text.mem_sortedDistinct, List.mem_filter, List.mem_filterMap, bne_iff_ne, and_comm]
  · rw [joinReasons]
    split
    · next h => rw [if_pos h]
    · next h => rw [if_neg h]

/-! ## The four ways a job can end -/

theorem fold_of_fatal (h : ∃ x ∈ xs, x.Fatal) : fold id critical xs =
    { id, status := .failed, critical, reason := joinReasons (xs.filter isFatal)
      instances := xs.length, allowedFailures := xs.countP isAllowedFailure } := by
  obtain ⟨x, hx, hxf⟩ := h
  rw [fold, if_pos (not_isEmpty_filter.2 ⟨x, hx, isFatal_iff.2 hxf⟩)]

theorem fold_of_not_fatal (h : ∀ x ∈ xs, ¬ x.Fatal) : fold id critical xs =
    if xs.all (·.status == .skipped) then
      { id, status := .skipped, critical, reason := joinReasons xs, instances := xs.length }
    else if !(xs.filter isLost).isEmpty then
      { id, status := .skipped, critical, reason := joinReasons (xs.filter isLost)
        instances := xs.length, allowedFailures := xs.countP isAllowedFailure }
    else
      { id, status := .succeeded, critical, instances := xs.length
        allowedFailures := xs.countP isAllowedFailure } := by
  rw [fold, if_neg]
  rw [not_isEmpty_filter]
  rintro ⟨x, hx, hxf⟩
  exact h x hx (isFatal_iff.1 hxf)

theorem exact_of_fatal (h : ∃ x ∈ xs, x.Fatal) : Exact id critical xs (fold id critical xs) := by
  obtain ⟨reasons, hsorted, hmem, hjoin⟩ := joinReasons_eq (xs.filter isFatal)
  rw [fold_of_fatal h]
  refine {
    id := rfl, critical := rfl, instances := rfl, allowedFailures := rfl
    failed := ⟨fun _ => h, fun _ => rfl⟩
    skipped := ⟨nofun, fun hno => ?_⟩
    succeeded := by simp
    reason := ⟨reasons, hsorted, fun a => ?_, hjoin⟩ }
  · obtain ⟨x, hx, hxf⟩ := h
    exact absurd hxf (hno.1 x hx)
  · simp only [hmem, List.mem_filter, isFatal_iff, Deciding, and_assoc]

theorem exact_of_skipped (h : ∀ x ∈ xs, ¬ x.Fatal) (hall : ∀ x ∈ xs, x.status = .skipped) :
    Exact id critical xs (fold id critical xs) := by
  obtain ⟨reasons, hsorted, hmem, hjoin⟩ := joinReasons_eq xs
  have hcount : xs.countP isAllowedFailure = 0 :=
    List.countP_eq_zero.2 fun x hx => by simp [isAllowedFailure, hall x hx]
  have hdeciding : ∀ x, Deciding xs x .skipped := fun _ => .inl hall
  rw [fold_of_not_fatal h, if_pos (by simpa using hall)]
  refine {
    id := rfl, critical := rfl, instances := rfl, allowedFailures := hcount.symm
    failed := ⟨nofun, fun ⟨x, hx, hxf⟩ => absurd hxf (h x hx)⟩
    skipped := ⟨fun _ => ⟨h, .inl hall⟩, fun _ => rfl⟩
    succeeded := by simp
    reason := ⟨reasons, hsorted, fun a => ?_, hjoin⟩ }
  simp only [hmem, hdeciding, true_and]

theorem exact_of_lost (h : ∀ x ∈ xs, ¬ x.Fatal) (hall : ¬ ∀ x ∈ xs, x.status = .skipped)
    (hlost : ∃ x ∈ xs, x.Lost) : Exact id critical xs (fold id critical xs) := by
  obtain ⟨reasons, hsorted, hmem, hjoin⟩ := joinReasons_eq (xs.filter isLost)
  obtain ⟨x, hx, hxl⟩ := hlost
  rw [fold_of_not_fatal h, if_neg (by simpa using hall),
    if_pos (not_isEmpty_filter.2 ⟨x, hx, isLost_iff.2 hxl⟩)]
  refine {
    id := rfl, critical := rfl, instances := rfl, allowedFailures := rfl
    failed := ⟨nofun, fun ⟨y, hy, hyf⟩ => absurd hyf (h y hy)⟩
    skipped := ⟨fun _ => ⟨h, .inr ⟨x, hx, hxl⟩⟩, fun _ => rfl⟩
    succeeded := by simp
    reason := ⟨reasons, hsorted, fun a => ?_, hjoin⟩ }
  simp only [hmem, List.mem_filter, isLost_iff, Deciding, hall, false_or, and_assoc]

theorem exact_of_succeeded (h : ∀ x ∈ xs, ¬ x.Fatal) (hall : ¬ ∀ x ∈ xs, x.status = .skipped)
    (hlost : ¬ ∃ x ∈ xs, x.Lost) : Exact id critical xs (fold id critical xs) := by
  have hnone : ¬ (!(xs.filter isLost).isEmpty) = true := by
    rw [not_isEmpty_filter]
    exact fun ⟨x, hx, hxl⟩ => hlost ⟨x, hx, isLost_iff.1 hxl⟩
  rw [fold_of_not_fatal h, if_neg (by simpa using hall), if_neg hnone]
  refine {
    id := rfl, critical := rfl, instances := rfl, allowedFailures := rfl
    failed := ⟨nofun, fun ⟨y, hy, hyf⟩ => absurd hyf (h y hy)⟩
    skipped := ⟨nofun, fun hno => ?_⟩
    succeeded := by simp
    reason := ⟨[], .nil, fun a => by simp [Deciding], rfl⟩ }
  exact hno.2.elim (fun hs => absurd hs hall) fun hl => absurd hl hlost

/-- What folding gives, it gives for the results that there are. -/
theorem fold_exact : Exact id critical xs (fold id critical xs) := by
  by_cases hfatal : ∃ x ∈ xs, x.Fatal
  · exact exact_of_fatal hfatal
  have hnone : ∀ x ∈ xs, ¬ x.Fatal := fun x hx hxf => hfatal ⟨x, hx, hxf⟩
  by_cases hall : ∀ x ∈ xs, x.status = .skipped
  · exact exact_of_skipped hnone hall
  by_cases hlost : ∃ x ∈ xs, x.Lost
  · exact exact_of_lost hnone hall hlost
  · exact exact_of_succeeded hnone hall hlost

end

end Outcome

/-! ## Reports -/

/-- The same report, up to the order in which the instances that were cancelled stand. -/
structure GateReport.SameUpToOrder (a b : GateReport) : Prop where
  runId : b.runId = a.runId
  workflow : b.workflow = a.workflow
  overall : b.overall = a.overall
  definitions : b.definitions = a.definitions
  cancelled : b.cancelled.Perm a.cancelled
  cancelTimeouts : b.cancelTimeouts.Perm a.cancelTimeouts
  context : b.context = a.context
  triggered : b.triggered = a.triggered

namespace Run

/-- The run with other results. -/
def withResults (r : Run) (results : List Result) : Run := { r with results }

variable {r : Run} {results : List Result}

theorem complete_withResults (h : r.results.Perm results) :
    (r.withResults results).complete = r.complete := by
  rw [Bool.eq_iff_iff, complete_iff, complete_iff]
  simp only [result?_isSome_iff, withResults, h.mem_iff]

theorem outcomes_withResults (h : r.results.Perm results) (g : JobGraph) :
    (r.withResults results).outcomes g = r.outcomes g := by
  rw [outcomes, outcomes]
  exact List.map_congr_left fun j _ => (Outcome.fold_perm (h.filter _)).symm

theorem reportOf_withResults (h : r.results.Perm results) (g : JobGraph) :
    (r.reportOf g).SameUpToOrder ((r.withResults results).reportOf g) := by
  have hdefinitions := outcomes_withResults h g
  exact {
    runId := rfl, workflow := rfl, context := rfl, triggered := rfl
    overall := congrArg Outcome.overall hdefinitions
    definitions := hdefinitions
    cancelled := (h.symm.filter _).map _
    cancelTimeouts := (h.symm.filter _).map _ }

end Run

/-- **Folding.** The outcome of results is the one that `Exact` describes, and no order of them gives
another. So the order in which the results of a complete run were recorded does not change what it
reports, except for the order of the instances that were cancelled. -/
theorem folding_is_exact :
    (∀ id critical xs, Outcome.Exact id critical xs (Outcome.fold id critical xs)) ∧
    (∀ id critical xs ys, xs.Perm ys → Outcome.fold id critical xs = Outcome.fold id critical ys) ∧
    ∀ (r : Run) (g : JobGraph) (results : List Result), r.graph = some g → r.complete = true →
      r.results.Perm results →
        (r.withResults results).complete = true ∧
        (r.reportOf g).SameUpToOrder ((r.withResults results).reportOf g) ∧
        (r.report = none → ∃ a b, r.gateReport = .ok (r.reportOf g, a) ∧
          (r.withResults results).gateReport = .ok ((r.withResults results).reportOf g, b)) := by
  refine ⟨fun _ _ _ => Outcome.fold_exact, fun _ _ _ _ => Outcome.fold_perm, ?_⟩
  intro r g results hgraph hdone h
  have hdone' : (r.withResults results).complete = true := (Run.complete_withResults h).trans hdone
  refine ⟨hdone', Run.reportOf_withResults h g, ?_⟩
  intro hopen
  exact ⟨_, _, Run.gateReport_of_complete hopen hgraph hdone,
    Run.gateReport_of_complete hopen hgraph hdone'⟩

/-- Two jobs that were cancelled before they ran. -/
def cancelledRun : Run where
  workflow := "ci"
  trigger := .ofRef .push "refs/heads/main" none
  id := "1"
  instances := [⟨"lint", [], 0, [], [], false⟩, ⟨"test", [], 0, [], [], false⟩]
  results := [.skip ⟨"lint", [], 0, [], [], false⟩ Reason.cancelled,
    .skip ⟨"test", [], 0, [], [], false⟩ Reason.cancelled]
  graph := some {
    workflow := { name := "ci", jobs := [] }
    jobs := [{ id := "lint", steps := [] }, { id := "test", steps := [] }]
    needs := [], dependents := [], levels := [["lint", "test"]] }

theorem folding_is_exact_cancelledRun : cancelledRun.complete = true ∧ ∃ g, cancelledRun.graph = some g ∧
    (cancelledRun.reportOf g).SameUpToOrder
      ((cancelledRun.withResults cancelledRun.results.reverse).reportOf g) := by
  have hdone : cancelledRun.complete = true := by decide
  have hperm : cancelledRun.results.Perm cancelledRun.results.reverse := (List.reverse_perm _).symm
  exact ⟨hdone, _, rfl, (folding_is_exact.2.2 cancelledRun _ _ rfl hdone hperm).2.1⟩

end MergeGate
