/-
What the receiver's steps do: rows looked up after rows were written, what is decided about a report
from the row of its run, and what publishing changes.
-/
import MergeGate.Proofs.Basic
import MergeGate.Receiver.Store

namespace MergeGate.Receiver

/-! ## Rows -/

theorem row?_runId {s : Store} {runId : String} {row : Row} (h : s.row? runId = some row) :
    row.runId = runId := by
  simpa using List.find?_some h

/-- A row written over the one of its run is found under its run, and the others as before. -/
theorem find?_update (rows : List Row) (row : Row) (runId : String) :
    (rows.map fun old => if old.runId = row.runId then row else old).find? (·.runId == runId) =
      (rows.find? (·.runId == runId)).map fun old => if runId = row.runId then row else old := by
  induction rows with
  | nil => rfl
  | cons old rows ih =>
    have hid : (if old.runId = row.runId then row else old).runId = old.runId := by
      split
      · next h => exact h.symm
      · rfl
    rw [List.map_cons, List.find?_cons, List.find?_cons, hid, ih]
    by_cases h : old.runId = runId
    · simp [h]
    · have hne : (old.runId == runId) = false := by simpa using h
      rw [hne]

theorem runIds_update (rows : List Row) (row : Row) :
    (rows.map fun old => if old.runId = row.runId then row else old).map (·.runId) =
      rows.map (·.runId) := by
  rw [List.map_map]
  refine List.map_congr_left fun old _ => ?_
  rw [Function.comp_apply]
  split
  · next h => exact h.symm
  · rfl

/-! ## Taking a report -/

section

variable {s s₁ : Store} {r : StatusReport} {payload : Value} {row : Row}

/-- A report of a run without a row makes one. -/
theorem decide_new (hpayload : r.payload = .ok payload) :
    Store.decide none r = .ok (.insert (.ofReport r payload)) := by
  rw [Store.decide, hpayload]
  rfl

/-- The same report again is counted. -/
theorem decide_again (hpayload : r.payload = .ok payload) (hsame : Value.same row.payload payload = true) :
    Store.decide (some row) r = .ok (.update { row with reports := row.reports + 1 }) := by
  rw [Store.decide, hpayload]
  exact if_pos hsame

/-- Another report of the same run is refused. -/
theorem decide_conflict (hpayload : r.payload = .ok payload)
    (hsame : Value.same row.payload payload = false) :
    Store.decide (some row) r = .error (.conflict r.runId row.overall) := by
  rw [Store.decide, hpayload]
  exact if_neg (by simp [hsame])

theorem commit_insert (hrow : s.row? row.runId = none) :
    s.commit (.insert row) = .ok { s with rows := s.rows ++ [row] } := if_neg (by simp [hrow])

/-- Writing rows touches nothing else. -/
theorem commit_side {write : Write} (h : s.commit write = .ok s₁) :
    s₁.published = s.published ∧ s₁.queue = s.queue ∧ s₁.log = s.log := by
  cases write with
  | insert row =>
    rw [Store.commit] at h
    split at h
    · cases h
    · cases h
      exact ⟨rfl, rfl, rfl⟩
  | update row =>
    cases h
    exact ⟨rfl, rfl, rfl⟩

theorem post_eq_ok {write : Write} (hdecide : Store.decide (s.row? r.runId) r = .ok write)
    (hcommit : s.commit write = .ok s₁) :
    s.post r = .ok (⟨r.runId, write.creates, (s₁.publish r.runId).1⟩, (s₁.publish r.runId).2) := by
  rw [Store.post, hdecide]
  exact bind_eq_ok.2 ⟨write, rfl, bind_eq_ok.2 ⟨s₁, hcommit, rfl⟩⟩

theorem post_eq_error {refusal : Refusal} (hdecide : Store.decide (s.row? r.runId) r = .error refusal) :
    s.post r = .error refusal := by
  rw [Store.post, hdecide]
  rfl

end

/-- An answer names the run of the report that was accepted. -/
theorem post_runId {s s' : Store} {r : StatusReport} {a : Accepted} (h : s.post r = .ok (a, s')) :
    a.runId = r.runId := by
  obtain ⟨write, -, hrest⟩ := bind_eq_ok.1 h
  obtain ⟨s₁, -, hlast⟩ := bind_eq_ok.1 hrest
  have hpair := pure_eq_ok.1 hlast
  rw [← (Prod.mk.inj hpair).1]

/-! ## Publishing -/

section

variable {s : Store} {runId : String}

theorem mark_new (h : runId ∉ s.published) :
    s.mark runId = (true, { s with
      published := s.published ++ [runId],
      log := s.log ++ [.mark (publishedKey runId) publishedSeconds] }) := by
  simp [Store.mark, h]

theorem mark_known (h : runId ∈ s.published) :
    s.mark runId = (false, { s with
      log := s.log ++ [.mark (publishedKey runId) publishedSeconds] }) := by
  simp [Store.mark, h]

/-- A run that is not marked is marked and put on the queue. -/
theorem publish_new (h : runId ∉ s.published) :
    s.publish runId = (true, { s with
      published := s.published ++ [runId], queue := s.queue ++ [runId],
      log := s.log ++ [.mark (publishedKey runId) publishedSeconds] ++ [.push queueName runId] }) := by
  rw [Store.publish, mark_new h]
  rfl

/-- A run that is marked stays as it is. -/
theorem publish_known (h : runId ∈ s.published) :
    s.publish runId = (false, { s with
      log := s.log ++ [.mark (publishedKey runId) publishedSeconds] }) := by
  rw [Store.publish, mark_known h]
  rfl

end

/-- Is it a command that puts a run on a queue? -/
def Command.isPush : Command → Bool
  | push .. => true
  | mark .. => false

@[simp] theorem Command.isPush_push (queue runId : String) : (push queue runId).isPush = true := rfl

@[simp] theorem Command.isPush_mark (key : String) (seconds : Nat) : (mark key seconds).isPush = false := rfl

end MergeGate.Receiver
