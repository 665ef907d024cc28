/-
Reports taken while calls to the database or to the queue's server fail. A call that fails has no
effect and ends its request. Marking a run and putting it on the queue are two calls, and a run whose
request breaks off between them is marked for good: every later report of it is answered as published
before, and it is never queued (`lost_between_mark_and_push`). Apart from that, a run that was answered
for is on the queue exactly once (`queued_once_unless_lost`). A request that breaks off is one that takes
no more of its steps (`attempt_eq_steps`).
-/
import MergeGate.Proofs.Receiver.Store
import MergeGate.Receiver.Task

namespace MergeGate.Receiver

/-- A call that a request makes to the database or to the queue's server. -/
inductive Call where
  | commit
  | mark
  | push
  deriving DecidableEq, Repr

/-- How a request ended. -/
inductive Reply where
  | accepted (a : Accepted)
  | refused (r : Refusal)
  /-- a call failed, and the request with it -/
  | broken (c : Call)
  deriving DecidableEq, Repr

namespace Store

/-- Take a report; the failing call, if the request gets to it, has no effect and ends the request. -/
def attempt (s : Store) (r : StatusReport) (failing : Option Call) : Reply × Store :=
  match decide (s.row? r.runId) r with
  | .error refusal => (.refused refusal, s)
  | .ok write =>
    if failing = some .commit then (.broken .commit, s)
    else match s.commit write with
      | .error refusal => (.refused refusal, s)
      | .ok s =>
        if failing = some .mark then (.broken .mark, s)
        else match s.mark r.runId with
          | (false, s) => (.accepted ⟨r.runId, write.creates, false⟩, s)
          | (true, s) =>
            if failing = some .push then (.broken .push, s)
            else (.accepted ⟨r.runId, write.creates, true⟩, s.push r.runId)

/-- Take reports one after the other, each with the call that fails: how each ended, and the store
they leave. -/
def attemptAll (s : Store) : List (StatusReport × Option Call) → List (StatusReport × Reply) × Store
  | [] => ([], s)
  | (r, failing) :: rest =>
    let (reply, s) := s.attempt r failing
    let (turns, s) := s.attemptAll rest
    ((r, reply) :: turns, s)

end Store

/-- Where no call fails, a report is taken as ever. -/
theorem attempt_none (s : Store) (r : StatusReport) :
    s.attempt r none = match s.post r with
      | .ok (a, s) => (.accepted a, s)
      | .error refusal => (.refused refusal, s) := by
  cases hdecide : Store.decide (s.row? r.runId) r with
  | error refusal => simp only [Store.attempt, hdecide, post_eq_error hdecide]
  | ok write =>
    cases hcommit : s.commit write with
    | error refusal =>
      have hpost : s.post r = .error refusal := by
        rw [Store.post, hdecide]
        simp only [bind, Except.bind, hcommit]
      simp [Store.attempt, hdecide, hcommit, hpost]
    | ok s₁ =>
      rw [post_eq_ok hdecide hcommit]
      by_cases h : r.runId ∈ s₁.published
      · simp [Store.attempt, hdecide, hcommit, mark_known h, publish_known h]
      · simp [Store.attempt, hdecide, hcommit, mark_new h, publish_new h, Store.push]

/-! ## Steps of a request that breaks off -/

/-- How many steps a request takes before its failing call; without one, all of them. -/
def stepsBefore : Option Call → Nat
  | some .commit => 1
  | some .mark => 2
  | some .push => 3
  | none => 4

/-- How a request ends that takes no more steps. It has ended, or its next call failed. -/
def Task.reply? : Task → Option Reply
  | read => none
  | write _ => some (.broken .commit)
  | mark _ => some (.broken .mark)
  | push _ => some (.broken .push)
  | accepted a => some (.accepted a)
  | refused refusal => some (.refused refusal)

/-- **A request breaks off after some of its steps**: it leaves the store and ends as the request that is
taken step by step and stands before the failing call. -/
theorem attempt_eq_steps (s : Store) (r : StatusReport) (failing : Option Call) :
    some (s.attempt r failing).1 = (Task.steps r (stepsBefore failing) .read s).1.reply? ∧
      (s.attempt r failing).2 = (Task.steps r (stepsBefore failing) .read s).2 := by
  match failing with
  | none =>
    rw [attempt_none, stepsBefore, Task.steps_read]
    cases s.post r <;> exact ⟨rfl, rfl⟩
  | some call =>
    cases hdecide : Store.decide (s.row? r.runId) r with
    | error refusal =>
      cases call <;> simp [Store.attempt, stepsBefore, Task.steps, Task.step, Task.reply?, hdecide]
    | ok write =>
      cases hcommit : s.commit write with
      | error refusal =>
        cases call <;> simp [Store.attempt, stepsBefore, Task.steps, Task.step, Task.reply?, hdecide, hcommit]
      | ok s₁ =>
        rcases hmark : s₁.mark r.runId with ⟨first, s₂⟩
        cases call <;> cases first <;>
          simp [Store.attempt, stepsBefore, Task.steps, Task.step, Task.reply?, hdecide, hcommit, hmark]

/-- So does every history. -/
theorem attemptAll_eq_steps (past : List (StatusReport × Option Call)) (s : Store) :
    (s.attemptAll past).2 =
      past.foldl (fun s q => (Task.steps q.1 (stepsBefore q.2) .read s).2) s := by
  induction past generalizing s with
  | nil => rfl
  | cons q past ih =>
    rw [List.foldl_cons, ← (attempt_eq_steps s q.1 q.2).2, ← ih]
    rfl

/-! ## Marks and queue -/

/-- Was the run answered for? -/
def answers (runId : String) : StatusReport × Reply → Bool
  | (_, .accepted a) => a.runId == runId
  | _ => false

/-- Did a request for the run break off between marking and queueing it? -/
def loses (runId : String) : StatusReport × Reply → Bool
  | (r, .broken .push) => r.runId == runId
  | _ => false

/-- What is kept outside the rows: the marks, the queue, and the commands that put runs on it. -/
def Store.side (s : Store) : List String × List String × List Command :=
  (s.published, s.queue, s.log.filter (·.isPush))

/-- What a request for a report may do outside the rows, and how it then ends. -/
inductive Took (s : Store) (r : StatusReport) : Reply → Store → Prop
  | refused (refusal : Refusal) {s' : Store} (hside : s'.side = s.side) : Took s r (.refused refusal) s'
  /-- it breaks off before the mark -/
  | early {c : Call} (hc : c ≠ .push) {s' : Store} (hside : s'.side = s.side) : Took s r (.broken c) s'
  | known (created : Bool) (hmarked : r.runId ∈ s.published) {s' : Store} (hside : s'.side = s.side) :
      Took s r (.accepted ⟨r.runId, created, false⟩) s'
  /-- it marks the run and breaks off -/
  | lost (hnew : r.runId ∉ s.published) {s' : Store}
      (hside : s'.side = (s.published ++ [r.runId], s.queue, s.log.filter (·.isPush))) :
      Took s r (.broken .push) s'
  | queued (created : Bool) (hnew : r.runId ∉ s.published) {s' : Store}
      (hside : s'.side = (s.published ++ [r.runId], s.queue ++ [r.runId],
        s.log.filter (·.isPush) ++ [.push queueName r.runId])) :
      Took s r (.accepted ⟨r.runId, created, true⟩) s'

theorem attempt_took (s : Store) (r : StatusReport) (failing : Option Call) :
    Took s r (s.attempt r failing).1 (s.attempt r failing).2 := by
  cases hdecide : Store.decide (s.row? r.runId) r with
  | error refusal =>
    simp only [Store.attempt, hdecide]
    exact .refused refusal rfl
  | ok write =>
    by_cases hfirst : failing = some .commit
    · simp only [Store.attempt, hdecide, hfirst, if_true]
      exact .early (by decide) rfl
    cases hcommit : s.commit write with
    | error refusal =>
      simp only [Store.attempt, hdecide, hfirst, if_false, hcommit]
      exact .refused refusal rfl
    | ok s₁ =>
      obtain ⟨hpublished, hqueue, hlog⟩ := commit_side hcommit
      by_cases hsecond : failing = some .mark
      · simp only [Store.attempt, hdecide, if_neg hfirst, hcommit, if_pos hsecond]
        exact .early (by decide) (by rw [Store.side, hpublished, hqueue, hlog, Store.side])
      by_cases hmem : r.runId ∈ s.published
      · simp only [Store.attempt, hdecide, if_neg hfirst, hcommit, if_neg hsecond,
          mark_known (hpublished.symm ▸ hmem)]
        exact .known _ hmem (by simp [Store.side, hpublished, hqueue, hlog])
      have hmark := mark_new (s := s₁) (hpublished.symm ▸ hmem)
      by_cases hthird : failing = some .push
      · simp only [Store.attempt, hdecide, if_neg hfirst, hcommit, if_neg hsecond, hmark, if_pos hthird]
        exact .lost hmem (by simp [Store.side, hpublished, hqueue, hlog])
      · simp only [Store.attempt, hdecide, if_neg hfirst, hcommit, if_neg hsecond, hmark, if_neg hthird]
        exact .queued _ hmem (by simp [Store.side, Store.push, hpublished, hqueue, hlog])

theorem side_eq {s : Store} {published queue : List String} {pushes : List Command} :
    s.side = (published, queue, pushes) ↔
      s.published = published ∧ s.queue = queue ∧ s.log.filter (·.isPush) = pushes := by
  simp [Store.side]

/-- A request concerns its own run only. -/
theorem Took.other {s s' : Store} {r : StatusReport} {reply : Reply} (h : Took s r reply s') {runId : String}
    (hne : r.runId ≠ runId) : (runId ∈ s'.published ↔ runId ∈ s.published) ∧
      s'.queue.count runId = s.queue.count runId ∧ answers runId (r, reply) = false ∧
      loses runId (r, reply) = false := by
  have hid : (r.runId == runId) = false := beq_false_of_ne hne
  cases h with
  | refused _ hside =>
    obtain ⟨hpublished, hqueue, -⟩ := side_eq.1 hside
    exact ⟨by rw [hpublished], by rw [hqueue], rfl, rfl⟩
  | @early c _ _ hside =>
    obtain ⟨hpublished, hqueue, -⟩ := side_eq.1 hside
    exact ⟨by rw [hpublished], by rw [hqueue], rfl, by cases c <;> simp [loses, hid]⟩
  | known _ _ hside =>
    obtain ⟨hpublished, hqueue, -⟩ := side_eq.1 hside
    exact ⟨by rw [hpublished], by rw [hqueue], hid, rfl⟩
  | lost _ hside =>
    obtain ⟨hpublished, hqueue, -⟩ := side_eq.1 hside
    exact ⟨by simp [hpublished, hne.symm], by rw [hqueue], rfl, hid⟩
  | queued _ _ hside =>
    obtain ⟨hpublished, hqueue, -⟩ := side_eq.1 hside
    exact ⟨by simp [hpublished, hne.symm], by simp [hqueue, List.count_singleton, hid], hid, rfl⟩

/-! ## Every history -/

/-- How a run's mark and its places on the queue agree with what became of its requests. -/
structure Agrees (turns : List (StatusReport × Reply)) (s : Store) (runId : String) : Prop where
  marked : runId ∈ s.published ↔ turns.any (answers runId) = true ∨ turns.any (loses runId) = true
  count : s.queue.count runId = (turns.any (answers runId) && !turns.any (loses runId)).toNat

/-- How marks and queue stand after some requests. -/
structure Queued (turns : List (StatusReport × Reply)) (s : Store) : Prop where
  agrees : ∀ runId, Agrees turns s runId
  pushes : s.log.filter (·.isPush) = s.queue.map (.push queueName)

theorem queued_nil : Queued [] {} := ⟨fun _ => ⟨by simp, by simp⟩, rfl⟩

section

variable {turns : List (StatusReport × Reply)} {s s' : Store} {r : StatusReport} {reply : Reply}

/-- A request keeps its run's mark and its place on the queue in step. -/
theorem Agrees.own (h : Agrees turns s r.runId) (ht : Took s r reply s') :
    Agrees (turns ++ [(r, reply)]) s' r.runId := by
  have hfree : r.runId ∉ s.published →
      turns.any (answers r.runId) = false ∧ turns.any (loses r.runId) = false := by
    rw [h.marked, not_or, Bool.not_eq_true, Bool.not_eq_true]
    exact id
  cases ht with
  | refused _ hside =>
    obtain ⟨hpublished, hqueue, -⟩ := side_eq.1 hside
    exact ⟨by simp [hpublished, h.marked, answers, loses],
      by rw [hqueue, h.count, List.any_append, List.any_append]; simp [answers, loses]⟩
  | @early c hc _ hside =>
    obtain ⟨hpublished, hqueue, -⟩ := side_eq.1 hside
    have hloses : loses r.runId (r, .broken c) = false := by
      cases c with
      | push => exact absurd rfl hc
      | _ => rfl
    exact ⟨by simp [hpublished, h.marked, answers, hloses],
      by rw [hqueue, h.count, List.any_append, List.any_append]; simp [answers, hloses]⟩
  | known created hmarked hside =>
    obtain ⟨hpublished, hqueue, -⟩ := side_eq.1 hside
    refine ⟨by simp [hpublished, hmarked, answers], ?_⟩
    rw [hqueue, h.count, List.any_append, List.any_append]
    rcases h.marked.1 hmarked with hold | hold <;> simp [answers, loses, hold]
  | lost hnew hside =>
    obtain ⟨hpublished, hqueue, -⟩ := side_eq.1 hside
    refine ⟨by simp [hpublished, loses], ?_⟩
    rw [hqueue, h.count, List.any_append, List.any_append]
    simp [answers, loses, hfree hnew]
  | queued created hnew hside =>
    obtain ⟨hpublished, hqueue, -⟩ := side_eq.1 hside
    refine ⟨by simp [hpublished, answers], ?_⟩
    rw [hqueue, List.count_append, h.count, List.any_append, List.any_append]
    simp [answers, loses, hfree hnew]

/-- Each push goes to the end of the queue. -/
theorem Took.pushes (ht : Took s r reply s') (h : s.log.filter (·.isPush) = s.queue.map (.push queueName)) :
    s'.log.filter (·.isPush) = s'.queue.map (.push queueName) := by
  cases ht with
  | refused _ hside | early _ hside | known _ _ hside =>
    obtain ⟨-, hqueue, hlog⟩ := side_eq.1 hside
    rw [hlog, hqueue, h]
  | lost _ hside =>
    obtain ⟨-, hqueue, hlog⟩ := side_eq.1 hside
    rw [hlog, hqueue, h]
  | queued _ _ hside =>
    obtain ⟨-, hqueue, hlog⟩ := side_eq.1 hside
    rw [hlog, hqueue, h, List.map_append, List.map_cons, List.map_nil]

/-- **What one request does** keeps marks and queue in step with the answers. -/
theorem Queued.took (h : Queued turns s) (ht : Took s r reply s') : Queued (turns ++ [(r, reply)]) s' := by
  refine ⟨fun runId => ?_, ht.pushes h.pushes⟩
  by_cases hid : r.runId = runId
  · subst hid
    exact (h.agrees r.runId).own ht
  · obtain ⟨hpublished, hcount, hanswers, hloses⟩ := ht.other hid
    refine ⟨?_, ?_⟩
    · simp [hpublished, (h.agrees runId).marked, hanswers, hloses]
    · rw [hcount, (h.agrees runId).count, List.any_append, List.any_append]
      simp [hanswers, hloses]

/-- By induction along the requests. -/
theorem Queued.attemptAll : ∀ (past : List (StatusReport × Option Call)) {turns : List (StatusReport × Reply)}
    {s : Store}, Queued turns s → Queued (turns ++ (s.attemptAll past).1) (s.attemptAll past).2
  | [], _, _, h => by simpa [Store.attemptAll] using h
  | (r, failing) :: past, _, s, h => by
    have hrest := Queued.attemptAll past (h.took (attempt_took s r failing))
    rwa [List.append_assoc] at hrest

end

/-- **A run that was answered for is queued once, unless it was lost.** After every history, whatever calls
failed in it: if a request broke off between marking the run and queueing it, the run is not on the queue;
else it is there exactly once. -/
theorem queued_once_unless_lost (past : List (StatusReport × Option Call)) (runId : String)
    (hanswered : (Store.attemptAll {} past).1.any (answers runId) = true) :
    (Store.attemptAll {} past).2.queue.count runId =
        (if (Store.attemptAll {} past).1.any (loses runId) then 0 else 1) ∧
      (Store.attemptAll {} past).2.log.filter (·.isPush) =
        (Store.attemptAll {} past).2.queue.map (.push queueName) := by
  have h := Queued.attemptAll past queued_nil
  rw [List.nil_append] at h
  refine ⟨?_, h.pushes⟩
  rw [(h.agrees runId).count, hanswered]
  cases (Store.attemptAll {} past).1.any (loses runId) <;> rfl

/-- A report of one run. -/
def brokenSample : StatusReport := { runId := "r", overall := .failed, definitions := [] }

/-- Broken before the mark, the run is queued by the next request, and once only. -/
theorem queued_once_unless_lost_sample :
    let past := [(brokenSample, some Call.commit), (brokenSample, some Call.mark), (brokenSample, none),
      (brokenSample, none)]
    (Store.attemptAll {} past).1.any (loses "r") = false ∧
      (Store.attemptAll {} past).2.queue.count "r" = 1 := by
  intro past
  have hlost : (Store.attemptAll {} past).1.any (loses "r") = false := by decide +kernel
  have hqueued := queued_once_unless_lost past "r" (by decide +kernel)
  rw [hlost] at hqueued
  exact ⟨hlost, hqueued.1⟩

/-- A run whose first request breaks off between marking and queueing is answered for and not queued. -/
theorem lost_between_mark_and_push :
    let past := [(brokenSample, some Call.push), (brokenSample, none)]
    (Store.attemptAll {} past).1.map (·.2) = [.broken .push, .accepted ⟨"r", false, false⟩] ∧
      (Store.attemptAll {} past).2.queue = [] := by
  decide +kernel

end MergeGate.Receiver
