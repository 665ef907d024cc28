/-
The dependency relation of a workflow's jobs and its staging. A job waits for as many jobs as it needs.
Placing a job takes one from the count of every job that needs it, and the jobs whose counts fall to
zero are the next stage. What still waits when there is nothing left to place lies on a cycle or waits
for one.
-/
import MergeGate.Workflow

namespace MergeGate

/-- The ids a job needs, each once. -/
def Job.needIds (j : Job) : List String := (j.needs.map (·.job)).eraseDups

namespace Staging

/-- The first need of a job that is wrong: of a job that is not declared, or of itself. -/
def checkNeeds (known : List String) (j : Job) : List Need → Except Rejection Unit
  | [] => .ok ()
  | n :: rest =>
    if !known.contains n.job then
      .error (.ofJob j.id (.missingNeed j.id n.job (Text.sorted known)))
    else if n.job = j.id then .error (.ofJob j.id (.needsItself j.id))
    else checkNeeds known j rest

/-- Check the needs of every job. -/
def checkAllNeeds (known : List String) : List Job → Except Rejection Unit
  | [] => .ok ()
  | j :: rest => (checkNeeds known j j.needs).bind fun _ => checkAllNeeds known rest

/-- Job ids are distinct, and every need names another declared job. -/
def check (jobs : List Job) : Except Rejection Unit :=
  let ids := jobs.map (·.id)
  match Text.repeated ids with
  | [] => checkAllNeeds ids jobs
  | dupes => .error ⟨.duplicateJobs dupes, none⟩

/-- For every job, the jobs that need it. -/
def dependents (jobs : List Job) : Assoc (List String) :=
  jobs.map fun j => (j.id, (jobs.filter fun k => k.needIds.contains j.id).map (·.id))

/-- For every job, the number of jobs it needs. -/
def needCounts (jobs : List Job) : Assoc Nat := jobs.map fun j => (j.id, j.needIds.length)

/-- The position of a job in declaration order. -/
def position (jobs : List Job) (job : String) : Nat := jobs.findIdx (·.id == job)

/-- Put a job id among ids in order, before those of its own place. -/
def insertInOrder (order : String → Nat) (job : String) : List String → List String
  | [] => [job]
  | k :: rest =>
    if order job ≤ order k then job :: k :: rest else k :: insertInOrder order job rest

/-- Job ids in the given order. -/
def inOrder (order : String → Nat) (ids : List String) : List String :=
  ids.foldr (insertInOrder order) []

theorem length_inOrder (order : String → Nat) (ids : List String) :
    (inOrder order ids).length = ids.length := by
  have hinsert : ∀ job rest, (insertInOrder order job rest).length = rest.length + 1 := by
    intro job rest
    induction rest with
    | nil => rfl
    | cons k rest ih =>
      rw [insertInOrder]
      split
      · rfl
      · rw [List.length_cons, ih, List.length_cons]
  induction ids with
  | nil => rfl
  | cons job ids ih =>
    rw [inOrder] at ih ⊢
    rw [List.foldr_cons, hinsert, ih, List.length_cons]

/-- The jobs that wait for no other. -/
def free (counts : Assoc Nat) : List String := Assoc.keys (counts.filter (·.2 == 0))

/-- The jobs that wait for another. -/
def stuck (counts : Assoc Nat) : List String := Assoc.keys (counts.filter (·.2 != 0))

/-- How many jobs each job still waits for, and the jobs set free so far. -/
structure Tally where
  counts : Assoc Nat
  freed : List String := []

namespace Tally

/-- A job waits for one job less. When that was the last one, it is free. -/
def lower (t : Tally) (job : String) : Tally :=
  match t.counts.lookup job with
  | none => t
  | some n =>
    { counts := Assoc.put job (n - 1) t.counts
      freed := if n = 1 then t.freed ++ [job] else t.freed }

/-- A job is placed: every job that needs it waits for one job less. -/
def place (dependents : Assoc (List String)) (t : Tally) (job : String) : Tally :=
  ((dependents.lookup job).getD []).foldl lower t

end Tally

/-- Place a stage. -/
def release (dependents : Assoc (List String)) (counts : Assoc Nat) (stage : List String) : Tally :=
  stage.foldl (Tally.place dependents) { counts }

/-! A count that falls to zero is the only one to do so: what is set free no longer waits. -/

theorem length_stuck_put {counts : Assoc Nat} {job : String} {n m : Nat}
    (h : counts.lookup job = some n) :
    (stuck (Assoc.put job m counts)).length + (if n = 0 then 0 else 1) =
      (stuck counts).length + (if m = 0 then 0 else 1) := by
  induction counts with
  | nil => simp at h
  | cons p counts ih =>
    obtain ⟨k, c⟩ := p
    by_cases hk : k = job
    · subst hk
      obtain rfl : c = n := by simpa [List.lookup_cons] using h
      by_cases hc : c = 0 <;> by_cases hm : m = 0 <;> simp [Assoc.put, stuck, Assoc.keys, hc, hm]
    · have hne : (job == k) = false := by simpa using fun e : job = k => hk e.symm
      have ih := ih (by simpa [List.lookup_cons, hne] using h)
      by_cases hc : c = 0 <;>
        simp [Assoc.put, stuck, Assoc.keys, hk, hc] at ih ⊢ <;> omega

namespace Tally

theorem lower_length (t : Tally) (job : String) :
    (stuck (t.lower job).counts).length + (t.lower job).freed.length =
      (stuck t.counts).length + t.freed.length := by
  rw [lower]
  split
  · rfl
  · next n h =>
    have hput := length_stuck_put (m := n - 1) h
    by_cases h0 : n = 0
    · simp [h0] at hput ⊢
      omega
    · by_cases h1 : n = 1
      · simp [h1] at hput ⊢
        omega
      · have hm : n - 1 ≠ 0 := by omega
        simp [h0, h1, hm] at hput ⊢
        omega

theorem lowerAll_length (t : Tally) (jobs : List String) :
    (stuck (jobs.foldl lower t).counts).length + (jobs.foldl lower t).freed.length =
      (stuck t.counts).length + t.freed.length := by
  induction jobs generalizing t with
  | nil => rfl
  | cons job jobs ih => rw [List.foldl_cons, ih, lower_length]

theorem placeAll_length (dependents : Assoc (List String)) (t : Tally) (stage : List String) :
    (stuck (stage.foldl (place dependents) t).counts).length +
        (stage.foldl (place dependents) t).freed.length =
      (stuck t.counts).length + t.freed.length := by
  induction stage generalizing t with
  | nil => rfl
  | cons job stage ih => rw [List.foldl_cons, ih, place, lowerAll_length]

end Tally

theorem release_length (dependents : Assoc (List String)) (counts : Assoc Nat)
    (stage : List String) :
    (stuck (release dependents counts stage).counts).length +
        (release dependents counts stage).freed.length = (stuck counts).length := by
  rw [release, Tally.placeAll_length]
  rfl

/-- Place stage after stage, beginning with the given one: the stages, and the counts that are left.
The jobs that a stage sets free are the next one. -/
def rounds (dependents : Assoc (List String)) (order : String → Nat) (counts : Assoc Nat)
    (stage : List String) : List (List String) × Assoc Nat :=
  if _h : stage.isEmpty then ([], counts)
  else
    let t := release dependents counts stage
    let (stages, left) := rounds dependents order t.counts (inOrder order t.freed)
    (stage :: stages, left)
termination_by (stuck counts).length + stage.length
decreasing_by
  have hlength := release_length dependents counts stage
  have hstage : stage.length ≠ 0 := by simpa using _h
  rw [length_inOrder]
  omega

/-- Stages from what each job's dependents are and how many jobs it needs. Jobs that no stage takes are
refused together. -/
def stagesAlong (dependents : Assoc (List String)) (counts : Assoc Nat) (order : String → Nat) :
    Except Rejection (List (List String)) :=
  let (stages, left) := rounds dependents order counts (inOrder order (free counts))
  if stages.flatten.length = counts.length then .ok stages
  else .error ⟨.cycle (inOrder order (stuck left)), none⟩

/-- The stages of jobs whose needs were checked, each in declaration order. -/
def stages (jobs : List Job) : Except Rejection (List (List String)) :=
  stagesAlong (dependents jobs) (needCounts jobs) (position jobs)

end Staging

end MergeGate
