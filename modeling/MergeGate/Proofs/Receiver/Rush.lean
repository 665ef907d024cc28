/-
Requests that carry one report of a new run, and whose steps come between each other. What a request
writes depends on the number of reports it has found counted, so rows and writes go by that number
(`rowAt`, `writeAfter`). `Moves` says what one step may do, and `Follows` how the requests stand after
any number of turns.
-/
import MergeGate.Proofs.Receiver.Store
import MergeGate.Receiver.Task
import Mathlib.Data.Fintype.Basic
import Mathlib.Data.Fin.Basic
import Mathlib.Logic.Function.Basic
import Mathlib.Data.List.Induction

namespace MergeGate.Receiver

/-- The receiver has not heard of a run. -/
structure Store.Blank (s : Store) (runId : String) : Prop where
  row : s.row? runId = none
  mark : runId ∉ s.published
  queue : s.queue.count runId = 0

/-- The report can be stored, and the store has not heard of its run. -/
structure StatusReport.New (r : StatusReport) (payload : Value) (s : Store) : Prop where
  stored : r.payload = .ok payload
  same : Value.same payload payload = true
  blank : s.Blank r.runId

/-- Requests that carry one report, and the store they work on. -/
structure Rush (n : Nat) where
  task : Fin n → Task
  store : Store

namespace Rush

variable {n : Nat}

/-- Requests that have not begun. -/
def start (n : Nat) (s : Store) : Rush n := ⟨fun _ => .read, s⟩

/-- One request takes its next step. -/
def step (r : StatusReport) (f : Rush n) (i : Fin n) : Rush n :=
  let (t, s) := (f.task i).step r f.store
  ⟨Function.update f.task i t, s⟩

/-- The requests take steps in the given order. -/
def run (r : StatusReport) (f : Rush n) (order : List (Fin n)) : Rush n := order.foldl (step r) f

/-- How many reports the row of the run counts. -/
def counted (r : StatusReport) (f : Rush n) : Nat := (f.store.row? r.runId).elim 0 (·.reports)

end Rush

/-! ## Rows and writes by their number -/

section

variable (r : StatusReport) (payload : Value)

/-- The row of the run when it was reported so often. -/
def rowAt (k : Nat) : Row := { Row.ofReport r payload with reports := k }

/-- The row of the run, if it was reported. -/
def rowAt? (k : Nat) : Option Row := if k = 0 then none else some (rowAt r payload k)

/-- What a request writes that has found so many reports counted. -/
def writeAfter (k : Nat) : Write :=
  if k = 0 then .insert (rowAt r payload 1) else .update (rowAt r payload (k + 1))

end

section

variable {r : StatusReport} {payload : Value} {s : Store} {k m : Nat}

theorem writeAfter_inj (h : writeAfter r payload k = writeAfter r payload m) : k = m := by
  by_cases hk : k = 0 <;> by_cases hm : m = 0 <;> simp [writeAfter, hk, hm, rowAt] at h ⊢
  exact h

theorem rowAt?_reports : (rowAt? r payload k).elim 0 (·.reports) = k := by
  rw [rowAt?]
  split
  · next h => exact h.symm
  · rfl

theorem decide_rowAt? (hpayload : r.payload = .ok payload) (hself : Value.same payload payload = true) :
    Store.decide (rowAt? r payload k) r = .ok (writeAfter r payload k) := by
  by_cases hk : k = 0
  · rw [rowAt?, writeAfter, if_pos hk, if_pos hk, decide_new hpayload]
    rfl
  · rw [rowAt?, writeAfter, if_neg hk, if_neg hk, decide_again hpayload hself]
    rfl

/-- A first row goes in only where there is none. -/
theorem commit_collides (hrow : s.row? r.runId = rowAt? r payload m) (hm : m ≠ 0) :
    s.commit (writeAfter r payload 0) = .error (.duplicateKey r.runId) := by
  have hsome : (s.row? r.runId).isSome = true := by rw [hrow, rowAt?, if_neg hm]; rfl
  exact if_pos hsome

/-- A row that is written counts one report more than the request had found, whatever is counted now. -/
theorem commit_counts (hrow : s.row? r.runId = rowAt? r payload m) (hkm : k = 0 ↔ m = 0) :
    ∃ s', s.commit (writeAfter r payload k) = .ok s' ∧ s'.row? r.runId = rowAt? r payload (k + 1) ∧
      s'.published = s.published ∧ s'.queue = s.queue := by
  by_cases hk : k = 0
  · have hnone : s.row? r.runId = none := by rw [hrow, rowAt?, if_pos (hkm.1 hk)]
    refine ⟨{ s with rows := s.rows ++ [rowAt r payload 1] }, ?_, ?_, rfl, rfl⟩
    · rw [writeAfter, if_pos hk]
      exact commit_insert hnone
    · rw [Store.row?] at hnone
      simp [Store.row?, hnone, rowAt?, rowAt, Row.ofReport, hk]
  · have hsome : s.row? r.runId = some (rowAt r payload m) := by
      rw [hrow, rowAt?, if_neg (mt hkm.2 hk)]
    refine ⟨{ s with
      rows := s.rows.map fun old => if old.runId = r.runId then rowAt r payload (k + 1) else old },
      ?_, ?_, rfl, rfl⟩
    · rw [writeAfter, if_neg hk]
      rfl
    · refine (find?_update s.rows (rowAt r payload (k + 1)) r.runId).trans ?_
      change (s.row? r.runId).map _ = _
      simp [hsome, rowAt?, rowAt, Row.ofReport]

end

/-! ## What one step does -/

section

variable (r : StatusReport) (payload : Value)

/-- How a request may stand when so many reports are counted. -/
def Fits (m : Nat) : Task → Prop
  | .read => True
  | .write w => ∃ k, w = writeAfter r payload k ∧ (k = 0 ∨ m ≠ 0)
  | .mark _ | .push _ | .accepted _ => m ≠ 0
  | .refused refusal => refusal = .duplicateKey r.runId ∧ m ≠ 0

/-- What a request's step may do when `m` reports are counted, and how many are counted then. -/
inductive Moves {n : Nat} (f : Rush n) (m : Nat) (i : Fin n) : Rush n → Nat → Prop
  | reads (h : f.task i = .read) :
      Moves f m i ⟨Function.update f.task i (.write (writeAfter r payload m)), f.store⟩ m
  | writes {k : Nat} {s : Store} (h : f.task i = .write (writeAfter r payload k))
      (hrow : s.row? r.runId = rowAt? r payload (k + 1)) (hmark : s.published = f.store.published)
      (hqueue : s.queue = f.store.queue) :
      Moves f m i ⟨Function.update f.task i (.mark (writeAfter r payload k).creates), s⟩ (k + 1)
  | collides (h : f.task i = .write (writeAfter r payload 0)) (hm : m ≠ 0) :
      Moves f m i ⟨Function.update f.task i (.refused (.duplicateKey r.runId)), f.store⟩ m
  | marks {created : Bool} {s : Store} (h : f.task i = .mark created)
      (hnew : r.runId ∉ f.store.published) (hrow : s.row? r.runId = f.store.row? r.runId)
      (hmark : s.published = f.store.published ++ [r.runId]) (hqueue : s.queue = f.store.queue) :
      Moves f m i ⟨Function.update f.task i (.push created), s⟩ m
  | knows {created : Bool} {s : Store} (h : f.task i = .mark created)
      (hold : r.runId ∈ f.store.published) (hrow : s.row? r.runId = f.store.row? r.runId)
      (hmark : s.published = f.store.published) (hqueue : s.queue = f.store.queue) :
      Moves f m i ⟨Function.update f.task i (.accepted ⟨r.runId, created, false⟩), s⟩ m
  | pushes {created : Bool} {s : Store} (h : f.task i = .push created)
      (hrow : s.row? r.runId = f.store.row? r.runId) (hmark : s.published = f.store.published)
      (hqueue : s.queue = f.store.queue ++ [r.runId]) :
      Moves f m i ⟨Function.update f.task i (.accepted ⟨r.runId, created, true⟩), s⟩ m
  | rests (h : (f.task i).code?.isSome = true) : Moves f m i f m

/-- How the requests stand when so many reports are counted. -/
structure Stands {n : Nat} (f : Rush n) (m : Nat) : Prop where
  row : f.store.row? r.runId = rowAt? r payload m
  task : ∀ i, Fits r payload m (f.task i)

end

section

variable {n m m' : Nat} {r : StatusReport} {payload : Value} {f f' : Rush n} {i : Fin n}

/-- **Every step is one of these.** -/
theorem Stands.moves (h : Stands r payload f m) (hpayload : r.payload = .ok payload)
    (hself : Value.same payload payload = true) (i : Fin n) :
    ∃ m', Moves r payload f m i (f.step r i) m' := by
  have hfits := h.task i
  cases htask : f.task i with
  | read =>
    refine ⟨m, ?_⟩
    simp only [Rush.step, htask, Task.step, h.row, decide_rowAt? hpayload hself]
    exact .reads htask
  | write w =>
    rw [htask] at hfits
    obtain ⟨k, rfl, hkm⟩ := hfits
    by_cases hcollide : k = 0 ∧ m ≠ 0
    · obtain ⟨rfl, hm⟩ := hcollide
      refine ⟨m, ?_⟩
      simp only [Rush.step, htask, Task.step, commit_collides h.row hm]
      exact .collides htask hm
    · obtain ⟨s, hcommit, hrow, hmark, hqueue⟩ :=
        commit_counts h.row (k := k) ⟨fun hk => by_contra fun hm => hcollide ⟨hk, hm⟩, fun hm => by
          simpa [hm] using hkm⟩
      refine ⟨k + 1, ?_⟩
      simp only [Rush.step, htask, Task.step, hcommit]
      exact .writes htask hrow hmark hqueue
  | mark created =>
    refine ⟨m, ?_⟩
    by_cases hmem : r.runId ∈ f.store.published
    · simp only [Rush.step, htask, Task.step, mark_known hmem]
      exact .knows htask hmem rfl rfl rfl
    · simp only [Rush.step, htask, Task.step, mark_new hmem]
      exact .marks htask hmem rfl rfl rfl
  | push created =>
    refine ⟨m, ?_⟩
    simp only [Rush.step, htask, Task.step, Store.push]
    exact .pushes htask rfl rfl rfl
  | accepted a | refused refusal =>
    refine ⟨m, ?_⟩
    have hstep : f.step r i = ⟨Function.update f.task i (f.task i), f.store⟩ := by
      simp only [Rush.step, htask, Task.step]
    rw [hstep, Function.update_eq_self]
    exact .rests (by rw [htask]; rfl)

theorem Fits.mono (hm : m ≠ 0 → m' ≠ 0) {t : Task} (h : Fits r payload m t) : Fits r payload m' t := by
  cases t with
  | read => trivial
  | write w =>
    obtain ⟨k, hw, hk⟩ := h
    exact ⟨k, hw, hk.imp_right hm⟩
  | mark _ | push _ | accepted _ => exact hm h
  | refused _ => exact ⟨h.1, hm h.2⟩

/-- A step leaves the requests as they may stand. -/
theorem Moves.stands (hmove : Moves r payload f m i f' m') (h : Stands r payload f m) :
    Stands r payload f' m' := by
  -- The step's own request is looked at, and all others stay as they were.
  have hothers : ∀ {t : Task} {m' : Nat}, (m ≠ 0 → m' ≠ 0) → Fits r payload m' t →
      ∀ j, Fits r payload m' (Function.update f.task i t j) := fun hm ht =>
    (Function.forall_update_iff f.task fun _ => Fits r payload _).2
      ⟨ht, fun j _ => (h.task j).mono hm⟩
  have hown := h.task i
  cases hmove with
  | reads htask =>
    refine ⟨h.row, hothers id ⟨m, rfl, ?_⟩⟩
    exact (Nat.eq_zero_or_pos m).imp_right Nat.ne_of_gt
  | @writes k s htask hrow hmark hqueue =>
    exact ⟨hrow, hothers (fun _ => Nat.succ_ne_zero k) (Nat.succ_ne_zero k)⟩
  | collides htask hm => exact ⟨h.row, hothers id ⟨rfl, hm⟩⟩
  | marks htask hnew hrow | knows htask hold hrow | pushes htask hrow =>
    rw [htask] at hown
    exact ⟨hrow.trans h.row, hothers id hown⟩
  | rests _ => exact h

theorem Stands.counted_eq (h : Stands r payload f m) : f.counted r = m := by
  rw [Rush.counted, h.row, rowAt?_reports]

end

/-! ## Turns and steps -/

/-- How many turns a request has had, as far as one can tell: in the first it reads and in the second
it writes. One that has ended needs no more. -/
def Task.turns : Task → Nat
  | .read => 0
  | .write _ => 1
  | .mark _ => 2
  | .push _ => 3
  | _ => 4

section

variable {n m m' : Nat} {r : StatusReport} {payload : Value} {f f' : Rush n} {i : Fin n}

theorem Moves.turns (hmove : Moves r payload f m i f' m') :
    min 2 (f'.task i).turns = min 2 ((f.task i).turns + 1) ∧
      min 4 ((f.task i).turns + 1) ≤ (f'.task i).turns := by
  cases hmove with
  | rests h =>
    cases htask : f.task i <;> simp_all [Task.code?, Task.turns]
  | reads h | writes h _ _ _ | collides h _ | marks h _ _ _ _ | knows h _ _ _ _ | pushes h _ _ _ =>
    simp [h, Task.turns]

theorem Moves.of_read (hmove : Moves r payload f m i f' m') (h : f.task i = .read) :
    f'.task i = .write (writeAfter r payload m) := by
  cases hmove with
  | reads _ => exact Function.update_self ..
  | writes h' _ _ _ | collides h' _ | marks h' _ _ _ _ | knows h' _ _ _ _ | pushes h' _ _ _ =>
    cases h.symm.trans h'
  | rests h' =>
    rw [h] at h'
    cases h'

theorem Moves.task_of_ne (hmove : Moves r payload f m i f' m') {j : Fin n} (hj : j ≠ i) :
    f'.task j = f.task j := by
  cases hmove with
  | rests h => rfl
  | reads h | writes h _ _ _ | collides h _ | marks h _ _ _ _ | knows h _ _ _ _ | pushes h _ _ _ =>
    exact Function.update_of_ne hj _ _

end

section

variable (r : StatusReport) (payload : Value) (s : Store)

/-- The requests after some turns, if there was nothing before them. -/
def after {n : Nat} (p : List (Fin n)) : Rush n := (Rush.start n s).run r p

/-- How the requests stand after some turns. -/
structure Follows {n : Nat} (p : List (Fin n)) : Prop where
  stands : Stands r payload (after r s p) ((after r s p).counted r)
  turns : ∀ i, min 2 ((after r s p).task i).turns = min 2 (p.count i) ∧
    min 4 (p.count i) ≤ ((after r s p).task i).turns
  /-- What is written in a second turn was read in the first. -/
  pending : ∀ a i b, p = a ++ i :: b → i ∉ a → i ∉ b →
    (after r s p).task i = .write (writeAfter r payload ((after r s a).counted r))

end

section

variable {n : Nat} {r : StatusReport} {payload : Value} {s : Store} {p : List (Fin n)} {i : Fin n}

theorem after_concat : after r s (p ++ [i]) = (after r s p).step r i := by
  simp [after, Rush.run]

theorem counted_nil (hnew : r.New payload s) : (after r s ([] : List (Fin n))).counted r = 0 := by
  change (s.row? r.runId).elim 0 _ = 0
  rw [hnew.blank.row]
  rfl

theorem Follows.nil (hnew : r.New payload s) : Follows r payload s ([] : List (Fin n)) := by
  refine ⟨⟨?_, fun _ => trivial⟩, fun _ => ⟨rfl, Nat.zero_le _⟩, fun a i b h => by simp at h⟩
  rw [counted_nil hnew]
  exact hnew.blank.row

theorem Follows.moves (h : Follows r payload s p) (hnew : r.New payload s) (i : Fin n) :
    Moves r payload (after r s p) ((after r s p).counted r) i (after r s (p ++ [i]))
      ((after r s (p ++ [i])).counted r) := by
  obtain ⟨m', hmove⟩ := h.stands.moves hnew.stored hnew.same i
  rw [← after_concat] at hmove
  rwa [(hmove.stands h.stands).counted_eq]

theorem Follows.read_of_count (h : Follows r payload s p) (hi : i ∉ p) :
    (after r s p).task i = .read := by
  have hturns := (h.turns i).1
  rw [List.count_eq_zero_of_not_mem hi] at hturns
  cases htask : (after r s p).task i <;> simp_all [Task.turns]

theorem Follows.concat (h : Follows r payload s p) (hnew : r.New payload s) (i : Fin n) :
    Follows r payload s (p ++ [i]) := by
  have hmove := h.moves hnew i
  refine ⟨hmove.stands h.stands, fun j => ?_, fun a j b hp hja hjb => ?_⟩
  · by_cases hj : j = i
    · subst hj
      have hbefore := h.turns j
      have hturns := hmove.turns
      rw [List.count_append, List.count_singleton_self]
      omega
    · have hcount : (p ++ [i]).count j = p.count j := by simp [Ne.symm hj]
      rw [hmove.task_of_ne hj, hcount]
      exact h.turns j
  · -- The first turn of the request is this one, or it was one before.
    obtain rfl | ⟨b, c, rfl⟩ := b.eq_nil_or_concat
    · obtain ⟨rfl, hij⟩ := List.append_inj' hp rfl
      obtain rfl := List.singleton_inj.1 hij
      exact hmove.of_read (h.read_of_count hja)
    · rw [List.concat_eq_append] at hp hjb
      obtain ⟨rfl, hic⟩ := List.append_inj' (hp.trans (List.append_assoc a (j :: b) [c]).symm) rfl
      obtain rfl := List.singleton_inj.1 hic
      rw [List.mem_append, not_or, List.mem_singleton] at hjb
      rw [hmove.task_of_ne hjb.2]
      exact h.pending a j b rfl hja hjb.1

theorem StatusReport.New.follows (hnew : r.New payload s) (p : List (Fin n)) :
    Follows r payload s p := by
  induction p using List.reverseRecOn with
  | nil => exact .nil hnew
  | append_singleton p i ih => exact ih.concat hnew i

theorem StatusReport.New.moves (hnew : r.New payload s) (p : List (Fin n)) (i : Fin n) :
    Moves r payload (after r s p) ((after r s p).counted r) i (after r s (p ++ [i]))
      ((after r s (p ++ [i])).counted r) :=
  (hnew.follows p).moves hnew i

end

end MergeGate.Receiver
