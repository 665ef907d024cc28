/-
What the receiver keeps of one run while other things happen there. Nothing that is not about the run
changes it (`Store.Keeps.after`), so a report of the run is counted whatever comes between the steps in
which it is taken (`among_read`). If nothing comes between them, the report is taken as one that is served
whole (`answer_alone`).
-/
import MergeGate.Proofs.Receiver.History
import MergeGate.Proofs.Receiver.Rush
import MergeGate.Receiver.Event

namespace MergeGate.Receiver

/-! ## What the receiver keeps of one run -/

/-- The row of a run, whether it is marked, and how often it is on the queue. -/
structure Store.Keeps (s : Store) (runId : String) (row : Option Row) (marked : Prop) (queued : Nat) :
    Prop where
  row : s.row? runId = row
  mark : runId ∈ s.published ↔ marked
  queue : s.queue.count runId = queued

/-- A report of the run was taken so often. -/
abbrev Store.Counts (s : Store) (r : StatusReport) (payload : Value) (k : Nat) : Prop :=
  s.Keeps r.runId (rowAt? r payload k) (k ≠ 0) (min 1 k)

section

variable {s : Store} {runId : String} {row : Option Row} {marked : Prop} {queued : Nat}

theorem Store.Keeps.commit (h : s.Keeps runId row marked queued) {w : Write} (hw : w.row.runId ≠ runId)
    {s' : Store} (hs' : s.commit w = .ok s') : s'.Keeps runId row marked queued := by
  obtain ⟨hpublished, hqueue, -⟩ := commit_side hs'
  refine ⟨?_, hpublished ▸ h.mark, hqueue ▸ h.queue⟩
  rw [← h.row]
  cases w with
  | insert row =>
    rw [Store.commit] at hs'
    split at hs'
    · cases hs'
    · cases hs'
      change row.runId ≠ runId at hw
      simp [Store.row?, hw]
  | update row =>
    cases hs'
    change row.runId ≠ runId at hw
    refine (find?_update s.rows row runId).trans ?_
    simp only [if_neg hw.symm, Option.map_id']
    rfl

/-- What is not about the run changes nothing that is kept of it. -/
theorem Store.Keeps.after (h : s.Keeps runId row marked queued) {e : Event} (he : e.runId ≠ runId) :
    (e.after s).Keeps runId row marked queued := by
  cases e with
  | expire other =>
    refine ⟨h.row, ?_, h.queue⟩
    rw [← h.mark]
    change other ≠ runId at he
    simp [Event.after, Store.expire, List.mem_filter, he.symm]
  | step r t =>
    cases t with
    | read =>
      rw [Event.after, Task.step]
      split <;> exact h
    | write w =>
      rw [Event.after, Task.step]
      split
      · exact h
      · next hs' => exact h.commit he hs'
    | mark created =>
      change r.runId ≠ runId at he
      by_cases hmem : r.runId ∈ s.published
      · simp only [Event.after, Task.step, mark_known hmem]
        exact ⟨h.row, h.mark, h.queue⟩
      · simp only [Event.after, Task.step, mark_new hmem]
        refine ⟨h.row, ?_, h.queue⟩
        rw [← h.mark]
        simp [he.symm]
    | push created =>
      change r.runId ≠ runId at he
      refine ⟨h.row, h.mark, ?_⟩
      simp [Event.after, Task.step, Store.push, List.count_append, he, h.queue]
    | accepted _ | refused _ => exact h

theorem Store.Keeps.afterAll {events : List Event} : ∀ {s : Store}, s.Keeps runId row marked queued →
    (∀ e ∈ events, e.runId ≠ runId) → (s.afterAll events).Keeps runId row marked queued := by
  induction events with
  | nil => exact fun h _ => h
  | cons e events ih =>
    intro s h hall
    have hall := List.forall_mem_cons.1 hall
    exact ih (h.after hall.1) hall.2

end

/-! ## A report that is taken -/

section

variable {s : Store} {r : StatusReport} {payload : Value} {k queued : Nat} {row : Option Row}
  {events : Nat → List Event}

theorem among_succ (n : Nat) (t : Task) : s.among events r (n + 1) t =
    (t.step r (s.afterAll (events n))).2.among events r n (t.step r (s.afterAll (events n))).1 := rfl

theorem among_accepted (hevents : ∀ n, ∀ e ∈ events n, e.runId ≠ r.runId) (a : Accepted) {marked : Prop} :
    ∀ (n : Nat) {s : Store}, s.Keeps r.runId row marked queued →
      ∃ s', s.among events r n (.accepted a) = (.accepted a, s') ∧ s'.Keeps r.runId row marked queued
  | 0, s, h => ⟨s, rfl, h⟩
  | n + 1, _, h => among_accepted hevents a n (h.afterAll (hevents n))

theorem among_push (hevents : ∀ n, ∀ e ∈ events n, e.runId ≠ r.runId) (created : Bool) (n : Nat)
    (h : s.Keeps r.runId row True queued) :
    ∃ a s', s.among events r (n + 1) (.push created) = (.accepted a, s') ∧
      s'.Keeps r.runId row True (queued + 1) := by
  have hnow := h.afterAll (hevents n)
  have hpushed : ((s.afterAll (events n)).push r.runId).Keeps r.runId row True (queued + 1) :=
    ⟨hnow.row, hnow.mark, by simp [Store.push, hnow.queue]⟩
  obtain ⟨s', hs', hkeeps⟩ := among_accepted hevents ⟨r.runId, created, true⟩ n hpushed
  exact ⟨_, s', hs', hkeeps⟩

theorem step_mark (created : Bool) : (Task.mark created).step r s =
    (if (s.mark r.runId).1 then .push created else .accepted ⟨r.runId, created, false⟩, (s.mark r.runId).2) := by
  rw [Task.step]
  cases s.mark r.runId with
  | mk first s => cases first <;> rfl

/-- Whether or not the run was marked before, it is then, and it is on the queue. -/
theorem among_mark (hevents : ∀ n, ∀ e ∈ events n, e.runId ≠ r.runId) (created : Bool) (n : Nat)
    (h : s.Keeps r.runId row (k ≠ 0) (min 1 k)) :
    ∃ a s', s.among events r (n + 2) (.mark created) = (.accepted a, s') ∧ s'.Keeps r.runId row True 1 := by
  have hnow := h.afterAll (hevents (n + 1))
  have hqueue := hnow.queue
  rw [among_succ, step_mark]
  by_cases hk : k = 0
  · have hnew : r.runId ∉ (s.afterAll (events (n + 1))).published := fun hmem => hnow.mark.1 hmem hk
    rw [hk] at hqueue
    rw [mark_new hnew]
    exact among_push hevents created n ⟨hnow.row, by simp, hqueue⟩
  · have hold : r.runId ∈ (s.afterAll (events (n + 1))).published := hnow.mark.2 hk
    rw [Nat.min_eq_left (Nat.pos_of_ne_zero hk)] at hqueue
    rw [mark_known hold]
    obtain ⟨s', hs', hkeeps⟩ := among_accepted hevents ⟨r.runId, created, false⟩ (n + 1)
      (Store.Keeps.mk (s := { s.afterAll (events (n + 1)) with
        log := (s.afterAll (events (n + 1))).log ++ [.mark (publishedKey r.runId) publishedSeconds] })
        hnow.row (iff_of_true hold trivial) hqueue)
    exact ⟨_, s', hs', hkeeps⟩

/-- **A report that is taken is counted**, and its run is on the queue once. -/
theorem among_read (hevents : ∀ n, ∀ e ∈ events n, e.runId ≠ r.runId) (hstored : r.payload = .ok payload)
    (hsame : Value.same payload payload = true) (h : s.Counts r payload k) :
    ∃ a s', s.among events r 4 .read = (.accepted a, s') ∧ s'.Counts r payload (k + 1) := by
  have hread := h.afterAll (hevents 3)
  have hwrite := hread.afterAll (hevents 2)
  obtain ⟨s₁, hcommit, hrow, hmark, hqueue⟩ := commit_counts hwrite.row (k := k) Iff.rfl
  have hcounted : s₁.Keeps r.runId (rowAt? r payload (k + 1)) (k ≠ 0) (min 1 k) :=
    ⟨hrow, hmark ▸ hwrite.mark, hqueue ▸ hwrite.queue⟩
  obtain ⟨a, s', hs', hkeeps⟩ := among_mark hevents (writeAfter r payload k).creates 0 hcounted
  have hreads : Task.read.step r (s.afterAll (events 3)) =
      (.write (writeAfter r payload k), s.afterAll (events 3)) := by
    simp only [Task.step, hread.row, decide_rowAt? hstored hsame]
  have hwrites : (Task.write (writeAfter r payload k)).step r ((s.afterAll (events 3)).afterAll (events 2)) =
      (.mark (writeAfter r payload k).creates, s₁) := by
    simp only [Task.step, hcommit]
  refine ⟨a, s', ?_, hkeeps.row, hkeeps.mark.trans (by simp), by rw [hkeeps.queue]; omega⟩
  rw [among_succ, hreads, among_succ, hwrites]
  exact hs'

end

/-! ## A report with nothing in between -/

theorem among_alone (r : StatusReport) : ∀ (n : Nat) (t : Task) (s : Store),
    s.among (fun _ => []) r n t = Task.steps r n t s
  | 0, _, _ => rfl
  | n + 1, t, s => among_alone r n (t.step r s).1 (t.step r s).2

/-- **The steps of a request make the whole request.** A body is answered as where it is served at once, if
nothing happens between the steps. -/
theorem answer_alone (decode : String → Option Value) (body : String) (s : Store) :
    s.answer decode (fun _ => []) body = match decode body with
      | none => (422, s)
      | some v => ((s.serve (.post v)).1.code, (s.serve (.post v)).2) := by
  rw [Store.answer]
  cases decode body with
  | none => rfl
  | some v =>
    cases hreport : report v with
    | error problems => simp only [Option.map_some, Store.serve, hreport, Answer.code]
    | ok r =>
      simp only [Option.map_some, Store.serve, hreport, among_alone, Task.steps_read]
      cases s.post r with
      | error refusal => rfl
      | ok taken => rfl

end MergeGate.Receiver
