/-
Outcomes of jobs. A job whose instances all had their turn passes exactly when each of them succeeded
or failed where that is allowed (`fold_passed_iff`): the reasons for which the scheduler skips an
instance never read, alone or joined, like a reason to be rightly absent. Neither the order of the
results nor their durations have a part in it.
-/
import MergeGate.Proofs.Basic
import MergeGate.Run.Outcome

namespace MergeGate

/-- Succeeded, or failed where that is allowed. -/
def Result.Passing (x : Result) : Prop := x.status = .succeeded ∨ x.status = .failed ∧ x.allowed = true

/-- The result of an instance that had its turn: it ended, or it was skipped because of a job that it
needs or because the run was cancelled. -/
def Result.Decided (x : Result) : Prop :=
  x.status = .succeeded ∨ x.status = .failed ∨
    x.status = .skipped ∧ (x.reason = some Reason.blocked ∨ x.reason = some Reason.cancelled)

/-- The result with its duration left out. -/
def Result.timeless (x : Result) : Result := { x with duration := 0.0 }

namespace Outcome

variable {id : String} {critical : Bool} {xs ys : List Result}

/-! ## Reasons -/

/-- The reasons that are joined are distinct reasons of the results. -/
theorem joinReasons_eq_some {s : String} (h : joinReasons xs = some s) :
    ∃ reasons : List String, reasons ≠ [] ∧ reasons.Nodup ∧
      (∀ a ∈ reasons, ∃ x ∈ xs, x.reason = some a) ∧ s = ",".intercalate reasons := by
  simp only [joinReasons] at h
  split at h
  · cases h
  · next hne =>
    refine ⟨_, hne, ?_, fun a ha => ?_, (Option.some.inj h).symm⟩
    · exact Text.nodup_sortedDistinct _
    · rw [Text.mem_sortedDistinct, List.mem_filter, List.mem_filterMap] at ha
      exact ha.1

/-- A list of distinct members of a pair. -/
theorem eq_of_nodup_pair {α : Type} {a b : α} : ∀ {l : List α}, l ≠ [] → l.Nodup →
    (∀ c ∈ l, c = a ∨ c = b) → l = [a] ∨ l = [b] ∨ l = [a, b] ∨ l = [b, a]
  | [], h, _, _ => absurd rfl h
  | [c], _, _, h => by
    rcases h c (by simp) with rfl | rfl <;> simp
  | [c, d], _, hd, h => by
    rcases h c (by simp) with rfl | rfl <;> rcases h d (by simp) with rfl | rfl <;> simp_all
  | c :: d :: e :: l, _, hd, h => by
    rcases h c (by simp) with rfl | rfl <;> rcases h d (by simp) with rfl | rfl <;>
      rcases h e (by simp) with rfl | rfl <;> simp_all

theorem joinReasons_not_absence
    (h : ∀ x ∈ xs, ∀ a, x.reason = some a → a = Reason.blocked ∨ a = Reason.cancelled) :
    Reason.isAbsence (joinReasons xs) = false := by
  cases hs : joinReasons xs with
  | none => decide
  | some s =>
    obtain ⟨reasons, hne, hnodup, hmem, rfl⟩ := joinReasons_eq_some hs
    have hpair : ∀ a ∈ reasons, a = Reason.blocked ∨ a = Reason.cancelled := by
      intro a ha
      obtain ⟨x, hx, hreason⟩ := hmem a ha
      exact h x hx a hreason
    rcases eq_of_nodup_pair hne hnodup hpair with rfl | rfl | rfl | rfl <;> decide

/-- Joined reasons with a cancellation among them read like no other reason: alone it is one of its own,
and with others there is a comma. -/
theorem not_absence_of_mem {l : List String} (h : Reason.cancelled ∈ l) :
    Reason.isAbsence (some (",".intercalate l)) = false := by
  match l, h with
  | [a], h =>
    obtain rfl : Reason.cancelled = a := List.mem_singleton.mp h
    decide
  | a :: b :: l, _ =>
    have hcomma : ',' ∈ (",".intercalate (a :: b :: l)).toList := by
      simp [String.intercalate_cons_cons]
    have hne : ∀ {s : String}, ',' ∉ s.toList → ",".intercalate (a :: b :: l) ≠ s :=
      fun hs he => hs (he ▸ hcomma)
    simp only [Reason.isAbsence, Bool.or_eq_false_iff, beq_eq_false_iff_ne, ne_eq, Option.some.injEq]
    exact ⟨hne (by decide), hne (by decide)⟩

theorem joinReasons_of_cancelled {x : Result} (hx : x ∈ xs) (hreason : x.reason = some Reason.cancelled) :
    Reason.isAbsence (joinReasons xs) = false := by
  have hmem : Reason.cancelled ∈ Text.sortedDistinct ((xs.filterMap (·.reason)).filter (· != "")) := by
    rw [Text.mem_sortedDistinct, List.mem_filter, List.mem_filterMap]
    exact ⟨⟨x, hx, hreason⟩, by decide⟩
  simp only [joinReasons]
  split
  · decide
  · exact not_absence_of_mem hmem

/-! ## What passes -/

theorem not_absent_of_decided {x : Result} (h : x.Decided) : x.isAbsent = false := by
  rcases h with h | h | ⟨h, hreason⟩
  · simp [Result.isAbsent, h]
  · simp [Result.isAbsent, h]
  · rcases hreason with hreason | hreason <;> rw [Result.isAbsent, h, hreason] <;> decide

theorem not_isEmpty_filter {p : Result → Bool} : (!(xs.filter p).isEmpty) = true ↔ ∃ x ∈ xs, p x = true := by
  simp [List.filter_eq_nil_iff]

/-- **What passes.** -/
theorem fold_passed_iff (h : ∀ x ∈ xs, x.Decided) :
    (fold id critical xs).passed = true ↔ xs ≠ [] ∧ ∀ x ∈ xs, x.Passing := by
  have hskipped : ∀ ys : List Result, (∀ x ∈ ys, x ∈ xs ∧ x.status = .skipped) →
      Reason.isAbsence (joinReasons ys) = false := by
    intro ys hys
    refine joinReasons_not_absence fun x hx a ha => ?_
    obtain ⟨hmem, hstatus⟩ := hys x hx
    rcases h x hmem with h | h | ⟨_, h | h⟩
    · simp [h] at hstatus
    · simp [h] at hstatus
    · exact .inl (Option.some.inj (ha.symm.trans h))
    · exact .inr (Option.some.inj (ha.symm.trans h))
  -- A skipped result is never passing.
  have hnot : ∀ {x : Result}, x.status = .skipped → ¬ x.Passing := by
    rintro x hx (hp | ⟨hp, _⟩) <;> simp [hx] at hp
  simp only [fold]
  split
  · next hfatal =>
    obtain ⟨x, hx, hxf⟩ := not_isEmpty_filter.mp hfatal
    simp only [isFatal, Bool.and_eq_true, beq_iff_eq, Bool.not_eq_true'] at hxf
    have hfail : ¬ x.Passing := by
      rintro (hp | ⟨_, hp⟩)
      · simp [hxf.1] at hp
      · simp [hxf.2] at hp
    exact ⟨fun hp => by simp [passed] at hp, fun hp => absurd (hp.2 x hx) hfail⟩
  · next hfatal =>
    split
    · next hall =>
      simp only [List.all_eq_true, beq_iff_eq] at hall
      have hjoin := hskipped xs fun x hx => ⟨hx, hall x hx⟩
      refine ⟨fun hp => by simp [passed, hjoin] at hp, fun ⟨hne, hp⟩ => ?_⟩
      obtain ⟨x, hx⟩ := List.exists_mem_of_ne_nil xs hne
      exact absurd (hp x hx) (hnot (hall x hx))
    · next hall =>
      split
      · next hlost =>
        obtain ⟨x, hx, hxl⟩ := not_isEmpty_filter.mp hlost
        simp only [isLost, Bool.and_eq_true, beq_iff_eq] at hxl
        have hjoin := hskipped (xs.filter isLost) fun y hy => by
          simp only [List.mem_filter, isLost, Bool.and_eq_true, beq_iff_eq] at hy
          exact ⟨hy.1, hy.2.1⟩
        exact ⟨fun hp => by simp [passed, hjoin] at hp, fun hp => absurd (hp.2 x hx) (hnot hxl.1)⟩
      · next hlost =>
        refine ⟨fun _ => ⟨fun hnil => hall (by simp [hnil]), fun x hx => ?_⟩, fun _ => by simp [passed]⟩
        rcases h x hx with hs | hs | ⟨hs, _⟩
        · exact .inl hs
        · refine .inr ⟨hs, ?_⟩
          by_contra hallowed
          exact hfatal (not_isEmpty_filter.mpr ⟨x, hx, by simp [isFatal, hs, hallowed]⟩)
        · exact absurd (not_isEmpty_filter.mpr ⟨x, hx, by
            simp [isLost, hs, not_absent_of_decided (h x hx)]⟩) hlost

/-- One result suffices for a job not to pass: one that failed where that is not allowed, or one that was
skipped because the run was cancelled. Whatever else the job's results are has no part in it. -/
theorem fold_not_passed {x : Result} (hx : x ∈ xs) (h : (x.status = .failed ∧ x.allowed = false) ∨
    x.status = .skipped ∧ x.reason = some Reason.cancelled) : (fold id critical xs).passed = false := by
  simp only [fold]
  split
  · rfl
  · next hfatal =>
    rcases h with ⟨hfailed, hallowed⟩ | ⟨hskipped, hreason⟩
    · exact absurd (not_isEmpty_filter.mpr ⟨x, hx, by simp [isFatal, hfailed, hallowed]⟩) hfatal
    have hlost : isLost x = true := by
      rw [isLost, Result.isAbsent, hskipped, hreason]
      decide
    split
    · simp [passed, joinReasons_of_cancelled hx hreason]
    · rw [if_pos (not_isEmpty_filter.mpr ⟨x, hx, hlost⟩)]
      simp [passed, joinReasons_of_cancelled (List.mem_filter.mpr ⟨hx, hlost⟩) hreason]

/-- A job that is rightly absent passes. -/
theorem fold_absent_passed {job reason : String} (h : Reason.isAbsence (some reason) = true) :
    (fold id critical [.absent job reason]).passed = true := by
  have hreason : reason = Reason.condition ∨ reason = Reason.emptyMatrix := by
    simpa [Reason.isAbsence] using h
  have hne : reason ≠ "" := by rcases hreason with rfl | rfl <;> decide
  have hjoin : joinReasons [Result.absent job reason] = some reason := by
    simp [joinReasons, Result.absent, hne, Text.sortedDistinct_singleton]
  have hfold : fold id critical [.absent job reason] =
      { id, status := .skipped, critical, reason := joinReasons [.absent job reason], instances := 1 } := rfl
  simp [hfold, passed, hjoin, h]

theorem overall_eq_succeeded_iff {os : List Outcome} :
    overall os = .succeeded ↔ ∀ o ∈ os, o.critical = true → o.passed = true := by
  simp [overall]

theorem overall_eq_failed_iff {os : List Outcome} : overall os = .failed ↔ overall os ≠ .succeeded := by
  simp only [overall]
  split <;> simp

theorem fold_critical : (fold id critical xs).critical = critical := by
  simp only [fold]
  repeat' split
  all_goals rfl

theorem fold_id : (fold id critical xs).id = id := by
  simp only [fold]
  repeat' split
  all_goals rfl

theorem fold_status : (fold id critical xs).status = .succeeded ∨ (fold id critical xs).status = .failed ∨
    (fold id critical xs).status = .skipped := by
  simp only [fold]
  repeat' split
  all_goals simp

/-! ## What has no part in an outcome -/

theorem joinReasons_congr (h : ∀ a, (∃ x ∈ xs, x.reason = some a) ↔ ∃ x ∈ ys, x.reason = some a) :
    joinReasons xs = joinReasons ys := by
  have hmem : ∀ a, a ∈ (xs.filterMap (·.reason)).filter (· != "") ↔
      a ∈ (ys.filterMap (·.reason)).filter (· != "") := by
    intro a
    simp only [List.mem_filter, List.mem_filterMap, h a]
  simp only [joinReasons, Text.sortedDistinct_congr hmem]

theorem joinReasons_perm (h : xs.Perm ys) : joinReasons xs = joinReasons ys :=
  joinReasons_congr fun a => by simp only [h.mem_iff]

theorem fold_perm (h : xs.Perm ys) : fold id critical xs = fold id critical ys := by
  have hempty : ∀ p, (xs.filter p).isEmpty = (ys.filter p).isEmpty := fun p => by
    rw [Bool.eq_iff_iff, List.isEmpty_iff, List.isEmpty_iff]
    exact ⟨fun hx => (hx ▸ h.filter p).nil_eq.symm, fun hy => (hy ▸ h.filter p).eq_nil⟩
  have hall : (xs.all (·.status == .skipped)) = ys.all (·.status == .skipped) := by
    rw [Bool.eq_iff_iff, List.all_eq_true, List.all_eq_true]
    simp only [h.mem_iff]
  simp only [fold, hempty, hall, joinReasons_perm h, joinReasons_perm (h.filter _), h.length_eq, h.countP_eq]

theorem joinReasons_timeless : joinReasons (xs.map (·.timeless)) = joinReasons xs :=
  joinReasons_congr fun a => by simp [Result.timeless]

theorem fold_timeless : fold id critical (xs.map (·.timeless)) = fold id critical xs := by
  have hfilter : ∀ p : Result → Bool, (∀ x : Result, p x.timeless = p x) →
      (xs.map (·.timeless)).filter p = (xs.filter p).map (·.timeless) := by
    intro p hp
    rw [List.filter_map]
    congr 1
    exact List.filter_congr fun x _ => hp x
  have hcount : (xs.map (·.timeless)).countP isAllowedFailure = xs.countP isAllowedFailure := by
    rw [List.countP_map]
    rfl
  have hall : ((xs.map (·.timeless)).all (·.status == .skipped)) = xs.all (·.status == .skipped) := by
    rw [List.all_map]
    rfl
  simp only [fold, hfilter isFatal fun _ => rfl, hfilter isLost fun _ => rfl, hcount, hall,
    joinReasons_timeless, List.isEmpty_map, List.length_map]

/-- Results that are the same up to their order and durations have the same outcome. -/
theorem fold_congr (h : (xs.map (·.timeless)).Perm (ys.map (·.timeless))) :
    fold id critical xs = fold id critical ys :=
  calc fold id critical xs = fold id critical (xs.map (·.timeless)) := fold_timeless.symm
    _ = fold id critical (ys.map (·.timeless)) := fold_perm h
    _ = fold id critical ys := fold_timeless

end Outcome

end MergeGate
