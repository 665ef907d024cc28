/-
The retries of a delivery. A reporter fails some times in a row before an attempt ends otherwise (`Course`),
and that is all that a trial of it depends on: it is tried once more than it fails, or than it may be tried
again, with pauses that grow by one each time (`attempt_eq`). Reporters are tried in order, each from where
the one before it has left the world, up to the first that does not deliver (`deliver_trace`).
-/
import MergeGate.Delivery.Basic

namespace MergeGate.Delivery

/-- How a reporter fares: it fails some times in a row, and then it delivers or breaks. -/
structure Course where
  fails : Nat
  /-- the failure of each attempt, counted from zero -/
  failure : Nat → Failure
  /-- what breaks the attempt after those that fail, if it does not deliver -/
  fault : Option Fault := none

namespace Course

variable (retries : Nat) (c : Course)

/-- The number of attempts, if there may be so many retries. -/
def attempts : Nat := min c.fails retries + 1

/-- How the last attempt ends: with the last failure if the retries are used up. -/
def verdict : Verdict :=
  if retries < c.fails then .failed (c.failure retries)
  else match c.fault with
    | none => .delivered
    | some fault => .broken fault

/-- The pauses between the attempts: the first one, twice the first one and so on. -/
def pauses (backoff : Seconds) : List Seconds := (List.range' 1 (min c.fails retries)).map backoff.times

/-- Does the reporter deliver within its retries? -/
def delivers : Bool := decide (c.fails ≤ retries) && c.fault.isNone

/-- What is said before the retries. -/
def notices : List Notice :=
  (List.range (min c.fails retries)).map fun k => retryNotice (c.failure k) (k + 1) retries

theorem verdict_eq_delivered_iff : c.verdict retries = .delivered ↔ c.delivers retries = true := by
  rw [verdict, delivers, Bool.and_eq_true, decide_eq_true_iff]
  by_cases hfails : retries < c.fails
  · simp [hfails, Nat.not_le.2 hfails]
  · cases c.fault <;> simp [hfails, Nat.not_lt.1 hfails]

end Course

variable {σ : Type}

/-- The world after a number of attempts of a reporter. -/
def after (r : Reporter σ) (w : σ) : Nat → σ
  | 0 => w
  | n + 1 => (r n (after r w n)).2

/-- The failure that an attempt ends with, if it ends with one. -/
def Verdict.failure : Verdict → Failure
  | failed f => f
  | _ => ⟨"", "", ""⟩

/-- What breaks an attempt, if it breaks. -/
def Verdict.fault? : Verdict → Option Fault
  | broken fault => some fault
  | _ => none

/-- From `w`, and with so many retries, a reporter fares as told. -/
structure Fares (retries : Nat) (w : σ) (r : Reporter σ) (c : Course) : Prop where
  failed : ∀ k < c.fails, k ≤ retries → (r k (after r w k)).1 = .failed (c.failure k)
  ended : c.fails ≤ retries → (r c.fails (after r w c.fails)).1 = c.verdict retries

/-- From `w` reporters fare as told, each from where the one before it has left the world. -/
inductive FareInTurn (retries : Nat) : σ → List (Reporter σ) → List Course → Prop
  | nil {w : σ} : FareInTurn retries w [] []
  | cons {w : σ} {r : Reporter σ} {rs : List (Reporter σ)} {c : Course} {cs : List Course}
      (first : Fares retries w r c) (rest : FareInTurn retries (after r w (c.attempts retries)) rs cs) :
      FareInTurn retries w (r :: rs) (c :: cs)

/-- The reporters that are tried: those up to the first that does not deliver. -/
def tried (retries : Nat) (cs : List Course) : List Course :=
  cs.take (cs.findIdx (fun c => !c.delivers retries) + 1)

section

variable {retries : Nat} {backoff : Seconds} {w : σ} {r : Reporter σ} {c : Course} {cs : List Course}
  {reporters : List (Reporter σ)}

/-! ## One reporter -/

theorem attemptFrom_eq (backoff : Seconds) (h : Fares retries w r c) :
    ∀ {left count : Nat}, count + left = retries → count ≤ c.fails →
    attemptFrom retries backoff r (after r w count) count left =
      { verdict := c.verdict retries
        attempts := c.attempts retries
        pauses := (List.range' (count + 1) (min c.fails retries - count)).map backoff.times
        notices := (List.range' count (min c.fails retries - count)).map fun k =>
          retryNotice (c.failure k) (k + 1) retries
        world := after r w (c.attempts retries) }
  | 0, count, hleft, hcount => by
    obtain rfl : count = retries := hleft
    have hmin : min c.fails count = count := Nat.min_eq_right hcount
    have hlast : (r count (after r w count)).1 = c.verdict count := by
      obtain hmore | rfl := Nat.lt_or_eq_of_le hcount
      · rw [h.failed count hmore (Nat.le_refl _), Course.verdict, if_pos hmore]
      · exact h.ended (Nat.le_refl _)
    rw [attemptFrom, Course.attempts, hmin, ← hlast, Nat.sub_self]
    rfl
  | left + 1, count, hleft, hcount => by
    rw [attemptFrom]
    obtain hmore | rfl := Nat.lt_or_eq_of_le hcount
    · have hfails := h.failed count hmore (by omega)
      have hgap : min c.fails retries - count = min c.fails retries - (count + 1) + 1 := by omega
      have ih := attemptFrom_eq backoff h (show count + 1 + left = retries by omega) hmore
      rw [after] at ih
      simp only [hfails, ih, hgap, List.range'_succ, List.map_cons]
    · have hends := h.ended (by omega)
      have hmin : min c.fails retries = c.fails := Nat.min_eq_left (by omega)
      have hwhole : ∀ f, c.verdict retries ≠ .failed f := fun f hf => by
        rw [Course.verdict, if_neg (by omega)] at hf
        split at hf <;> cases hf
      rw [Course.attempts, hmin, after, Nat.sub_self]
      rw [← hends] at hwhole ⊢
      rcases heq : r c.fails (after r w c.fails) with ⟨verdict, world⟩
      rw [heq] at hwhole
      cases verdict with
      | failed f => exact absurd rfl (hwhole f)
      | delivered | broken fault => rfl

/-- **A trial is told by its course.** -/
theorem attempt_eq (backoff : Seconds) (h : Fares retries w r c) : attempt retries backoff r w =
    { verdict := c.verdict retries
      attempts := c.attempts retries
      pauses := c.pauses retries backoff
      notices := c.notices retries
      world := after r w (c.attempts retries) } := by
  have heq := attemptFrom_eq backoff h (Nat.zero_add retries) (Nat.zero_le _)
  rwa [Nat.sub_zero, ← List.range_eq_range'] at heq

/-! ## Reporters in order -/

theorem tried_cons_of_delivers (h : c.delivers retries = true) : tried retries (c :: cs) = c :: tried retries cs := by
  simp [tried, List.findIdx_cons, h]

theorem tried_cons_of_not (h : c.delivers retries = false) : tried retries (c :: cs) = [c] := by
  simp [tried, List.findIdx_cons, h]

theorem FareInTurn.length_eq (h : FareInTurn retries w reporters cs) : cs.length = reporters.length := by
  induction h with
  | nil => rfl
  | cons _ _ ih => exact congrArg Nat.succ ih

/-- Attempts fail up to one that does not, or all of them do. -/
theorem failures_or_first (r : Reporter σ) (w : σ) : ∀ n,
    (∀ k < n, ∃ f, (r k (after r w k)).1 = .failed f) ∨
      ∃ m < n, (∀ k < m, ∃ f, (r k (after r w k)).1 = .failed f) ∧ ∀ f, (r m (after r w m)).1 ≠ .failed f
  | 0 => .inl fun k hk => absurd hk (Nat.not_lt_zero k)
  | n + 1 => by
    obtain hall | ⟨m, hm, hfirst⟩ := failures_or_first r w n
    · by_cases hlast : ∃ f, (r n (after r w n)).1 = .failed f
      · refine .inl fun k hk => ?_
        obtain hless | rfl := Nat.lt_succ_iff_lt_or_eq.1 hk
        · exact hall k hless
        · exact hlast
      · exact .inr ⟨n, Nat.lt_succ_self n, hall, fun f hf => hlast ⟨f, hf⟩⟩
    · exact .inr ⟨m, Nat.lt_succ_of_lt hm, hfirst⟩

/-- Every reporter fares in some way. -/
theorem exists_fares (retries : Nat) (w : σ) (r : Reporter σ) : ∃ c, Fares retries w r c := by
  obtain hall | ⟨m, hm, hbefore, hends⟩ := failures_or_first r w (retries + 1)
  · let c : Course := { fails := retries + 1, failure := fun k => (r k (after r w k)).1.failure }
    refine ⟨c, fun k _ hk => ?_, fun hfails => absurd hfails (Nat.not_succ_le_self retries)⟩
    obtain ⟨f, hf⟩ := hall k (Nat.lt_succ_of_le hk)
    simp only [c, hf, Verdict.failure]
  · let c : Course :=
      { fails := m, failure := fun k => (r k (after r w k)).1.failure, fault := (r m (after r w m)).1.fault? }
    refine ⟨c, fun k hk _ => ?_, fun hfails => ?_⟩
    · obtain ⟨f, hf⟩ := hbefore k hk
      simp only [c, hf, Verdict.failure]
    · rw [Course.verdict, if_neg (Nat.not_lt.2 hfails)]
      cases h : (r m (after r w m)).1 with
      | failed f => exact absurd h (hends f)
      | delivered | broken fault => simp [c, h, Verdict.fault?]

theorem exists_fareInTurn (retries : Nat) (w : σ) :
    ∀ reporters : List (Reporter σ), ∃ cs, FareInTurn retries w reporters cs := by
  intro reporters
  induction reporters generalizing w with
  | nil => exact ⟨[], .nil⟩
  | cons r rs ih =>
    obtain ⟨c, hfirst⟩ := exists_fares retries w r
    obtain ⟨cs, hrest⟩ := ih (after r w (c.attempts retries))
    exact ⟨c :: cs, .cons hfirst hrest⟩

end

/-! ## Deliveries -/

/-- The trace of a delivery whose reporters fare as told: the attempts of each reporter, the pauses, what is
said before the retries, how the delivery ends, and what it does to the world. -/
structure Trace (retries : Nat) (backoff : Seconds) (w : σ) (reporters : List (Reporter σ)) (cs : List Course)
    (d : Delivered σ) :
    Prop where
  attempts : ∀ n c, cs[n]? = some c →
    d.attempts[n]? = some (if (cs.take n).all (·.delivers retries) then min c.fails retries + 1 else 0)
  each : d.attempts.length = reporters.length
  pauses : d.pauses = (tried retries cs).flatMap fun c => (List.range' 1 (min c.fails retries)).map backoff.times
  notices : d.notices = (tried retries cs).flatMap (·.notices retries)
  delivered : d.verdict = .delivered ↔ ∀ c ∈ tried retries cs, c.fails ≤ retries ∧ c.fault = none
  failed : ∀ c ∈ tried retries cs, retries < c.fails → d.verdict = .failed (c.failure retries)
  broken : ∀ c ∈ tried retries cs, c.fails ≤ retries → ∀ fault, c.fault = some fault → d.verdict = .broken fault
  world : d.world = (reporters.zip (tried retries cs)).foldl (fun w t => after t.1 w (min t.2.fails retries + 1)) w

section

variable {retries : Nat} {backoff : Seconds} {w : σ} {r : Reporter σ} {c : Course} {cs : List Course}
  {rs : List (Reporter σ)}

theorem deliver_cons_of_delivers (h : Fares retries w r c) (hdelivers : c.delivers retries = true) :
    deliver retries backoff w (r :: rs) =
      let d := deliver retries backoff (after r w (c.attempts retries)) rs
      { d with
        attempts := c.attempts retries :: d.attempts
        pauses := c.pauses retries backoff ++ d.pauses
        notices := c.notices retries ++ d.notices } := by
  rw [deliver, attempt_eq backoff h]
  simp only [(c.verdict_eq_delivered_iff retries).2 hdelivers]

theorem deliver_cons_of_not (h : Fares retries w r c) (hdelivers : c.delivers retries = false) :
    deliver retries backoff w (r :: rs) =
      { verdict := c.verdict retries, attempts := c.attempts retries :: rs.map fun _ => 0
        pauses := c.pauses retries backoff, notices := c.notices retries
        world := after r w (c.attempts retries) } := by
  have hverdict : c.verdict retries ≠ .delivered := fun h => by
    rw [(c.verdict_eq_delivered_iff retries).1 h] at hdelivers
    cases hdelivers
  rw [deliver, attempt_eq backoff h]
  split
  · next h => exact absurd h hverdict
  · rfl

theorem deliver_singleton (h : Fares retries w r c) :
    deliver retries backoff w [r] =
      { verdict := c.verdict retries, attempts := [c.attempts retries], pauses := c.pauses retries backoff
        notices := c.notices retries, world := after r w (c.attempts retries) } := by
  rw [deliver, attempt_eq backoff h]
  split
  · next hverdict =>
    rw [show c.verdict retries = .delivered from hverdict]
    simp only [deliver, List.append_nil]
  · rfl

/-- A reporter that does not deliver ends the delivery. -/
theorem Fares.trace (first : Fares retries w r c) (hlength : cs.length = rs.length)
    (hdelivers : c.delivers retries = false) :
    Trace retries backoff w (r :: rs) (c :: cs) (deliver retries backoff w (r :: rs)) := by
  rw [deliver_cons_of_not first hdelivers]
  constructor
  case attempts =>
    intro n c' hc
    cases n with
    | zero =>
      obtain rfl : c = c' := by simpa using hc
      simp [Course.attempts]
    | succ n =>
      have hn : n < rs.length := hlength ▸ (List.getElem?_eq_some_iff.1 (by simpa using hc)).1
      simp [hdelivers, hn]
  case each => simp
  all_goals simp only [tried_cons_of_not hdelivers, List.forall_mem_singleton]
  case pauses => simp [Course.pauses]
  case notices => simp
  case delivered => exact (c.verdict_eq_delivered_iff retries).trans (by simp [Course.delivers])
  case failed => exact fun hfails => if_pos hfails
  case broken =>
    intro hfails fault hfault
    simp [Course.verdict, Nat.not_lt.2 hfails, hfault]
  case world => simp [Course.attempts]

/-- After a reporter that delivers, the delivery goes on with the others. -/
theorem Trace.cons (rest : Trace retries backoff (after r w (c.attempts retries)) rs cs
      (deliver retries backoff (after r w (c.attempts retries)) rs))
    (first : Fares retries w r c) (hdelivers : c.delivers retries = true) :
    Trace retries backoff w (r :: rs) (c :: cs) (deliver retries backoff w (r :: rs)) := by
  obtain ⟨hfails, hfault⟩ : c.fails ≤ retries ∧ c.fault = none := by simpa [Course.delivers] using hdelivers
  rw [deliver_cons_of_delivers first hdelivers]
  constructor
  case attempts =>
    intro n c' hc
    cases n with
    | zero =>
      obtain rfl : c = c' := by simpa using hc
      simp [Course.attempts]
    | succ n => simpa [hdelivers] using rest.attempts n c' (by simpa using hc)
  case each => exact congrArg Nat.succ rest.each
  all_goals simp only [tried_cons_of_delivers hdelivers, List.forall_mem_cons]
  case pauses => simp [rest.pauses, Course.pauses]
  case notices => simp [rest.notices]
  case delivered => exact rest.delivered.trans (and_iff_right ⟨hfails, hfault⟩).symm
  case failed => exact ⟨fun hmore => absurd hfails (Nat.not_le.2 hmore), rest.failed⟩
  case broken => exact ⟨fun _ fault h => absurd (hfault.symm.trans h) (Option.some_ne_none fault).symm, rest.broken⟩
  case world => exact rest.world

theorem FareInTurn.trace {reporters : List (Reporter σ)} (h : FareInTurn retries w reporters cs) :
    Trace retries backoff w reporters cs (deliver retries backoff w reporters) := by
  induction h with
  | nil => exact ⟨by simp, rfl, rfl, rfl, by simp [tried, deliver], by simp [tried], by simp [tried], rfl⟩
  | @cons w r rs c cs first rest ih =>
    cases hdelivers : c.delivers retries with
    | false => exact first.trace rest.length_eq hdelivers
    | true => exact ih.cons first hdelivers

end

/-- **The trace of a delivery.** All reporters fare in some way, and the trace is told by that: the reporters up
to the first that does not deliver are tried in order, each once more than it fails or than it may be tried
again; the pauses of each are the first one, twice the first one and so on; and the delivery ends with the last
failure of the one that has used up its retries, or breaks at once with the fault of the one that breaks. -/
theorem deliver_trace (retries : Nat) (backoff : Seconds) (w : σ) (reporters : List (Reporter σ)) :
    (∃ cs, FareInTurn retries w reporters cs) ∧
      ∀ cs, FareInTurn retries w reporters cs →
        Trace retries backoff w reporters cs (deliver retries backoff w reporters) :=
  ⟨exists_fareInTurn retries w reporters, fun _ h => h.trace⟩

/-! ### Some deliveries -/

/-- A reporter that notes its name at each attempt, and fares as told. -/
def noting (name : String) (c : Course) : Reporter (List String) := fun count log =>
  (if count < c.fails then .failed (c.failure count) else (c.fault.map .broken).getD .delivered, log ++ [name])

theorem fares_noting (name : String) (c : Course) (retries : Nat) (log : List String) :
    Fares retries log (noting name c) c where
  failed := fun k hk _ => if_pos hk
  ended := fun hfails => by
    rw [noting, Course.verdict, if_neg (Nat.lt_irrefl _), if_neg (Nat.not_lt.2 hfails)]
    cases c.fault <;> rfl

/-- A reporter that fails so many times before it ends as told. -/
def failing (fails : Nat) (fault : Option Fault) : Course :=
  { fails, failure := fun k => ⟨"http", "1", toString k⟩, fault }

/-- With two retries the first reporter delivers, and the second has used up its retries or breaks: the third
is not tried. -/
theorem deliver_trace_sample :
    let reporters (c : Course) := [noting "a" (failing 1 none), noting "b" c, noting "c" (failing 0 none)]
    let courses (c : Course) := [failing 1 none, c, failing 0 none]
    let d := deliver 2 (.whole 3) [] (reporters (failing 3 none))
    let e := deliver 2 (.real 0.5) [] (reporters (failing 1 (some .unable)))
    (∀ backoff c, FareInTurn 2 [] (reporters c) (courses c) ∧
        Trace 2 backoff [] (reporters c) (courses c) (deliver 2 backoff [] (reporters c))) ∧
      d.attempts = [2, 3, 0] ∧ d.pauses = [.whole 3, .whole 3, .whole 6] ∧ d.world = ["a", "a", "b", "b", "b"] ∧
      d.verdict = .failed ⟨"http", "1", "2"⟩ ∧ e.attempts = [2, 2, 0] ∧ e.pauses = [.real 0.5, .real 0.5] ∧
      e.verdict = .broken .unable := by
  intro reporters courses d e
  have hfare : ∀ c, FareInTurn 2 [] (reporters c) (courses c) := fun c =>
    .cons (fares_noting ..) (.cons (fares_noting ..) (.cons (fares_noting ..) .nil))
  exact ⟨fun backoff c => ⟨hfare c, (deliver_trace 2 backoff [] (reporters c)).2 _ (hfare c)⟩, by decide +kernel⟩

end MergeGate.Delivery
