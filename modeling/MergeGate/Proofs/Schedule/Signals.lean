/-
The signals that an execution sends. A world can keep a log of them (`World.logged`), and the log has no
part in what the scheduler does: with it the loop begins the same turns (`Begins.logged`) and ends the
same way. Nothing is signalled before the cancellation is seen; then what runs is asked to stop, once
each, and what has not ended when the grace period is over is killed (`cancelAll_logged`), unless it
cannot be waited for (`cancelAll_logged_of_stranding`).
-/
import MergeGate.Proofs.Schedule.Steps

namespace MergeGate.Schedule

/-- A signal to an instance, known by its id. -/
inductive Signal where
  | stop (id : String)
  | kill (id : String)
  deriving DecidableEq, Repr

/-- The instance that is signalled. -/
def Signal.target : Signal → String
  | stop id => id
  | kill id => id

/-- The signals to one instance, in their order. -/
def sentTo (log : List Signal) (id : String) : List Signal := log.filter (·.target == id)

variable {σ : Type}

/-- The world with a log of the signals that it was given to send. -/
def World.logged (w : World σ) : World (σ × List Signal) where
  start s i := (((w.start s.1 i).1, s.2), (w.start s.1 i).2)
  wait s phases flight := (((w.wait s.1 phases flight).1, s.2), (w.wait s.1 phases flight).2)
  cancelled s := w.cancelled s.1
  stop s i := (w.stop s.1 i, s.2 ++ [.stop i.id])
  finished s i := w.finished s.1 i
  patience := w.patience
  grace s phases flight := (((w.grace s.1 phases flight).1, s.2), (w.grace s.1 phases flight).2)
  kill s i := (w.kill s.1 i, s.2 ++ [.kill i.id])
  elapsed s i := w.elapsed s.1 i

/-- The machine whose world has a log. -/
def Machine.logged (m : Machine σ) (log : List Signal) : Machine (σ × List Signal) :=
  ⟨m.state, m.flight, (m.world, log), m.notices, m.fault⟩

/-- A turn whose machine has a log. -/
def Turn.logged (log : List Signal) : Turn σ → Turn (σ × List Signal)
  | .again m => .again (m.logged log)
  | .finished m => .finished (m.logged log)

/-- What has ended when the grace period of a cancellation is over. -/
def World.endedInGrace (w : World σ) (f : Frame) (m : Machine σ) : Ended :=
  match m.markCancelled.state.skipWaiting f.instances with
  | .error _ => []
  | .ok state =>
    let m' := w.stopAll { m with state } m.flight
    (w.grace m'.world m'.state.phases m'.flight).2

/-- What of the instances in flight has not ended, in the order in which it is killed. -/
def Frame.hung (f : Frame) (flight : List Instance) (ended : Ended) : List Instance :=
  inOrder f.graph (flight.filter fun i => !(ended.any fun e => e.1.id == i.id))

/-- What a cancellation signals when its grace period can be waited for. -/
def World.signals (w : World σ) (f : Frame) (m : Machine σ) : List Signal :=
  m.flight.map (fun i => .stop i.id) ++
    (f.hung m.flight (w.endedInGrace f m)).map fun i => .kill i.id

/-- The machines with which the loop begins a turn, when it is entered with the first. -/
inductive World.Begins (w : World σ) (f : Frame) (m₀ : Machine σ) : Machine σ → Prop
  | refl : Begins w f m₀ m₀
  | next {m m' : Machine σ} (h : Begins w f m₀ m) (again : w.turn f m = .again m') : Begins w f m₀ m'

variable {w : World σ} {f : Frame} {m m₀ : Machine σ} {s : State}

/-! ## Turns of the loop -/

theorem World.Begins.loop_eq (h : w.Begins f m₀ m) : ∃ n, ∀ k, w.loop f (n + k) m₀ = w.loop f k m := by
  induction h with
  | refl => exact ⟨0, fun k => by rw [Nat.zero_add]⟩
  | @next m m' _ again ih =>
    obtain ⟨n, hn⟩ := ih
    refine ⟨n + 1, fun k => ?_⟩
    rw [Nat.add_right_comm, Nat.add_assoc, hn, World.loop, again]

/-- The loop ends with the turn that sees the cancellation. -/
theorem World.Begins.loop_of_seen (h : w.Begins f m₀ m) (hseen : w.cancelled m.world = true) :
    ∃ turns, ∀ fuel ≥ turns, w.loop f fuel m₀ = w.cancelAll f m := by
  obtain ⟨n, hn⟩ := h.loop_eq
  refine ⟨n + 1, fun fuel hfuel => ?_⟩
  obtain ⟨k, rfl⟩ := Nat.exists_eq_add_of_le hfuel
  rw [Nat.add_assoc, Nat.add_comm 1 k, hn, World.loop, World.turn, if_pos hseen]

/-- How a turn ends in which what has ended was recorded. -/
def Machine.turned (m : Machine σ) : Turn σ := if m.fault.isSome then .finished m else .again m

/-- What follows the starts in a turn: waiting for what runs. -/
def World.await (w : World σ) (f : Frame) (m : Machine σ) : Turn σ :=
  if m.flight.isEmpty then .finished m
  else
    let (world, ended) := w.wait m.world m.state.phases m.flight
    (Machine.finishAll { m with world } (f.endedInOrder ended)).turned

/-! ## The log has no part in it -/

section Logged

variable (log : List Signal)

theorem startAll_logged : ∀ (is : List Instance) (m : Machine σ),
    w.logged.startAll (m.logged log) is = (w.startAll m is).logged log
  | [], _ => rfl
  | i :: rest, m => startAll_logged rest (w.startAll m [i])

theorem finishAll_logged : ∀ (es : Ended) (m : Machine σ),
    (m.logged log).finishAll es = (m.finishAll es).logged log
  | [], _ => rfl
  | (i, x) :: rest, m => by
    have hstate : (m.logged log).state = m.state := rfl
    rw [Machine.finishAll, Machine.finishAll, hstate]
    cases m.state.record x with
    | error fault => rfl
    | ok state =>
      exact finishAll_logged rest
        ⟨state, m.flight.filter (·.id ≠ i.id), m.world, m.notices ++ [.jobResult x], m.fault⟩

theorem turned_logged (m : Machine σ) : (m.logged log).turned = m.turned.logged log := by
  have hfault : (m.logged log).fault = m.fault := rfl
  rw [Machine.turned, Machine.turned, hfault]
  split <;> rfl

theorem await_logged (m : Machine σ) : w.logged.await f (m.logged log) = (w.await f m).logged log := by
  let m' : Machine σ := { m with world := (w.wait m.world m.state.phases m.flight).1 }
  have hflight : (m.logged log).flight = m.flight := rfl
  have hplain : w.await f m = if m.flight.isEmpty then .finished m
    else (m'.finishAll (f.endedInOrder (w.wait m.world m.state.phases m.flight).2)).turned := rfl
  have hwith : w.logged.await f (m.logged log) =
    if (m.logged log).flight.isEmpty then .finished (m.logged log)
    else ((m'.logged log).finishAll (f.endedInOrder (w.wait m.world m.state.phases m.flight).2)).turned := rfl
  rw [hplain, hwith, finishAll_logged, hflight]
  split
  · rfl
  · exact turned_logged log _

theorem proceed_logged (m : Machine σ) :
    w.logged.proceed f (m.logged log) = (w.proceed f m).logged log := by
  let chosen := f.choose m.state m.flight.length f.instances
  have hplain : w.proceed f m = w.await f (w.startAll { m with state := chosen.1 } chosen.2) := rfl
  have hwith : w.logged.proceed f (m.logged log) =
    w.logged.await f (w.logged.startAll (Machine.logged { m with state := chosen.1 } log) chosen.2) := rfl
  rw [hplain, hwith, startAll_logged, await_logged]

theorem turn_logged (hlive : ¬ w.cancelled m.world = true) :
    w.logged.turn f (m.logged log) = (w.turn f m).logged log := by
  have hlive' : ¬ w.logged.cancelled (m.logged log).world = true := hlive
  have hstate : (m.logged log).state = m.state := rfl
  rw [World.turn, if_neg hlive', World.turn, if_neg hlive, hstate]
  cases f.promote m.state with
  | error fault => rfl
  | ok p => exact proceed_logged log ({ m with state := p.1 }.tell p.2)

/-- Before the cancellation is seen, nothing is signalled. -/
theorem World.Begins.logged (h : w.Begins f m₀ m) :
    w.logged.Begins f (m₀.logged log) (m.logged log) := by
  induction h with
  | refl => exact .refl
  | @next m m' _ again ih =>
    refine .next ih ?_
    have hlive : ¬ w.cancelled m.world = true := by
      intro hseen
      rw [World.turn, if_pos hseen] at again
      cases again
    rw [turn_logged log hlive, again]
    rfl

/-! ## What a cancellation signals -/

theorem stopAll_logged : ∀ (is : List Instance) (m : Machine σ) (log : List Signal),
    w.logged.stopAll (m.logged log) is =
      (w.stopAll m is).logged (log ++ is.map fun i => .stop i.id)
  | [], m, log => by simp [World.stopAll]
  | i :: rest, m, log => by
    have ih := stopAll_logged rest (w.stopAll m [i]) (log ++ [.stop i.id])
    rw [List.append_assoc] at ih
    exact ih

theorem killAll_logged : ∀ (is : List Instance) (m : Machine σ) (log : List Signal),
    m.fault = none → (w.killAll m is).fault = none → w.logged.killAll (m.logged log) is =
      (w.killAll m is).logged (log ++ is.map fun i => .kill i.id)
  | [], m, log, _, _ => by simp [World.killAll]
  | i :: rest, m, log, hm, hok => by
    have hfirst : w.logged.killAll (m.logged log) [i] =
        (w.killAll m [i]).logged (log ++ [.kill i.id]) := by
      have hstate : (m.logged log).state = m.state := rfl
      have helapsed : w.logged.elapsed (m.logged log).world i = w.elapsed m.world i := rfl
      simp only [World.killAll, hstate, helapsed]
      cases m.state.record (Result.timedOut i (w.elapsed m.world i)) <;> rfl
    rw [killAll_cons m i rest hm] at hok ⊢
    rw [killAll_cons (m.logged log) i rest hm, hfirst]
    have hkept : ((w.killAll m [i]).logged (log ++ [.kill i.id])).fault = (w.killAll m [i]).fault := rfl
    rw [hkept]
    split at hok
    · next hfault => simp [hok] at hfault
    · next hfault =>
      have hm' : (w.killAll m [i]).fault = none := by simpa using hfault
      have ih := killAll_logged rest (w.killAll m [i]) (log ++ [.kill i.id]) hm' hok
      rw [List.append_assoc] at ih
      rw [if_neg hfault, if_neg hfault]
      exact ih

end Logged

/-- What follows the grace period, when nothing goes wrong: what has ended is recorded, and what has not
is killed. -/
theorem settleAll_of_faultless (hok : (w.settleAll f m).fault = none) :
    let ended := (w.grace m.world m.state.phases m.flight).2
    let m' := Machine.finishAll { m with world := (w.grace m.world m.state.phases m.flight).1 }
      (f.endedInOrder (ended.map fun e => (e.1, e.2.stopped)))
    m'.fault = none ∧ w.settleAll f m = (w.killAll m' (f.hung m.flight ended)).withFlight [] := by
  intro ended m'
  have heq : w.settleAll f m =
    if m'.fault.isSome then m' else (w.killAll m' (f.hung m.flight ended)).withFlight [] := rfl
  rw [heq] at hok ⊢
  split at hok
  · next hfault => simp [hok] at hfault
  · next hfault =>
    rw [if_neg hfault]
    exact ⟨Option.not_isSome_iff_eq_none.mp hfault, rfl⟩

theorem settleAll_logged (log : List Signal) (hok : (w.settleAll f m).fault = none) :
    w.logged.settleAll f (m.logged log) = (w.settleAll f m).logged
      (log ++ (f.hung m.flight (w.grace m.world m.state.phases m.flight).2).map fun i => .kill i.id) := by
  let ended := (w.grace m.world m.state.phases m.flight).2
  let m₁ : Machine σ := { m with world := (w.grace m.world m.state.phases m.flight).1 }
  let stopped := f.endedInOrder (ended.map fun e => (e.1, e.2.stopped))
  obtain ⟨hm₂, heq⟩ : (m₁.finishAll stopped).fault = none ∧
      w.settleAll f m = (w.killAll (m₁.finishAll stopped) (f.hung m.flight ended)).withFlight [] :=
    settleAll_of_faultless hok
  have hlogged : w.logged.settleAll f (m.logged log) =
    if ((m₁.logged log).finishAll stopped).fault.isSome then (m₁.logged log).finishAll stopped
    else (w.logged.killAll ((m₁.logged log).finishAll stopped) (f.hung m.flight ended)).withFlight [] := rfl
  have hkept : ((m₁.finishAll stopped).logged log).fault = none := hm₂
  rw [heq] at hok ⊢
  rw [hlogged, finishAll_logged, hkept, killAll_logged _ _ _ hm₂ hok]
  rfl

theorem endedInGrace_eq (hs : m.markCancelled.state.skipWaiting f.instances = .ok s) :
    w.endedInGrace f m = (w.grace (w.stopAll { m with state := s } m.flight).world
      (w.stopAll { m with state := s } m.flight).state.phases
      (w.stopAll { m with state := s } m.flight).flight).2 := by
  rw [World.endedInGrace, hs]

theorem strands_logged (log : List Signal) : w.logged.strands f (m.logged log) = w.strands f m := by
  have hskip : (m.logged log).markCancelled.state.skipWaiting f.instances =
    m.markCancelled.state.skipWaiting f.instances := rfl
  rw [World.strands, World.strands, hskip]
  cases m.markCancelled.state.skipWaiting f.instances with
  | error fault => rfl
  | ok s =>
    have hstop := stopAll_logged (w := w) m.flight { m with state := s } log
    show w.logged.cannotWait (w.logged.stopAll (Machine.logged { m with state := s } log) m.flight) = _
    rw [hstop]
    rfl

/-- **What a cancellation signals that cannot wait.** -/
theorem cancelAll_logged_of_stranding (log : List Signal)
    (hs : m.markCancelled.state.skipWaiting f.instances = .ok s) (hstrands : w.strands f m = true) :
    w.logged.cancelAll f (m.logged log) =
      (w.cancelAll f m).logged (log ++ m.flight.map fun i => .stop i.id) := by
  have hs' : (m.logged log).markCancelled.state.skipWaiting f.instances = .ok s := hs
  have hstop := stopAll_logged (w := w) m.flight { m with state := s } log
  rw [cancelAll_cases hs, cancelAll_cases hs', strands_logged, if_pos hstrands, if_pos hstrands]
  show (w.logged.stopAll (Machine.logged { m with state := s } log) m.flight).fail _ = _
  rw [hstop]
  rfl

/-- **What a cancellation signals.** -/
theorem cancelAll_logged (log : List Signal)
    (hs : m.markCancelled.state.skipWaiting f.instances = .ok s) (hok : (w.cancelAll f m).fault = none) :
    w.logged.cancelAll f (m.logged log) = (w.cancelAll f m).logged (log ++ w.signals f m) := by
  have hs' : (m.logged log).markCancelled.state.skipWaiting f.instances = .ok s := hs
  have hflight : (m.logged log).flight = m.flight := rfl
  have hwaits := not_strands_of_faultless hs hok
  rw [cancelAll_cases hs, if_neg hwaits] at hok
  rw [cancelAll_cases hs', cancelAll_cases hs, strands_logged, if_neg hwaits, if_neg hwaits, hflight]
  by_cases hempty : m.flight.isEmpty
  · have hnone : w.signals f m = [] := by
      simp [World.signals, Frame.hung, inOrder, List.isEmpty_iff.mp hempty]
    rw [if_pos hempty, if_pos hempty, hnone, List.append_nil]
    rfl
  · rw [if_neg hempty] at hok ⊢
    rw [if_neg hempty]
    let m₁ := w.stopAll { m with state := s } m.flight
    have hstop : w.logged.stopAll (Machine.logged { m with state := s } log) m.flight =
        m₁.logged (log ++ m.flight.map fun i => .stop i.id) := stopAll_logged _ _ _
    have hflight' : m₁.flight = m.flight := (stopAll_kept m.flight { m with state := s }).2.1
    have hended : (w.grace m₁.world m₁.state.phases m₁.flight).2 = w.endedInGrace f m :=
      (endedInGrace_eq hs).symm
    show w.logged.settleAll f (w.logged.stopAll (Machine.logged { m with state := s } log) m.flight) = _
    rw [hstop, settleAll_logged _ hok, hended, hflight', World.signals, List.append_assoc]

end MergeGate.Schedule
