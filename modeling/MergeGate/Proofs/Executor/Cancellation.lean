/-
Requests to stop. A request that comes before the run has cleared its flag reaches every process that
lives then or is started later: it has been sent SIGTERM, or a caller that has found it or the run itself
is about to send it (`Machine.Reached`), so that it is sent unless the process ends first. The loop turns to
no further step, and the flag is clear again when the run is over (`request_not_lost`). A process may end
between the moment at which it is found alive and the signal; then it is sent none (`ended_before_signal`).
-/
import MergeGate.Proofs.Executor.Result

namespace MergeGate.Executor

open Shell (Signal)

/-! ## The living process -/

/-- What is known of the living process, by what the run does next: it is the last that was started, and it
is the registered one once it has been registered. -/
def Next.Knows (registered : Option Nat) (count p : Nat) : Next → Prop
  | .register .. => p + 1 = count
  | .lookUp .. | .signal .. | .await .. => registered = some p
  | _ => False

/-- The run keeps track of its process. -/
structure Machine.Tracked (m : Machine) : Prop where
  ended : m.alive.isSome = true → m.ended = none
  alive : ∀ p, m.alive = some p → m.next.Knows m.registered m.started.length p

/-- The run is about to look up the process that it has started, and to signal it if the flag is set. -/
def Next.minds : Next → Bool
  | .register .. | .lookUp .. | .signal .. => true
  | _ => false

/-- A SIGTERM is on its way to a living process: from a caller that has found it, or from the run itself. -/
def Machine.Due (m : Machine) (p : Nat) : Prop :=
  (some p, Signal.terminate) ∈ m.callers ∨ m.next.minds = true

/-- The flag is set until the run is over, and the living process has been sent a SIGTERM or one is on its
way. -/
structure Machine.Reached (m : Machine) : Prop where
  flag : m.stop = true ∨ ∃ cut, m.next = .done cut
  sent : ∀ p, m.alive = some p → (p, Signal.terminate) ∈ m.signalled ∨ m.Due p

/-- The step whose process may still be started, although the flag is set. -/
def Next.late : Next → List Step
  | .look s _ | .launch s _ => [s]
  | _ => []

/-- Since `m₀` no step was started but the one that the run had turned to. -/
structure Halted (m₀ m : Machine) : Prop where
  kept : m₀.started <+: m.started
  begun : m.started ++ m.next.late <+: m₀.started ++ m₀.next.late

/-- Those who asked have sent their signals, and so has the run. -/
structure Machine.Settled (m : Machine) : Prop where
  callers : m.callers = []
  minds : m.next.minds = false

/-- From `m₀` to `m` a process ends that has been sent no SIGTERM. -/
def EndsUnsent (p : Nat) (m₀ m : Machine) : Prop :=
  ∃ es m₁ code output m₂ es', Runs m₀ es m₁ ∧ m₁.alive = some p ∧ (p, Signal.terminate) ∉ m₁.signalled ∧
    m₁.act (.exit code output) = some m₂ ∧ Runs m₂ es' m

section

variable {i : Instance} {root : Place} {keep : Int} {stop : Bool} {m₀ m m' m'' : Machine} {es es' : List Event}
  {p : Nat}

/-! ### What moves keep -/

theorem Machine.Tracked.alive_eq_none (h : m.Tracked) (hnext : ∀ p, ¬ m.next.Knows m.registered m.started.length p) :
    m.alive = none :=
  Option.eq_none_iff_forall_ne_some.2 fun p hp => hnext p (h.alive p hp)

theorem Machine.Tracked.of_alive_eq_none (h : m.alive = none) : m.Tracked where
  ended := by simp [h]
  alive := by simp [h]

/-- A process that has ended lives no more. -/
theorem Machine.Tracked.alive_of_ended {e : Int × Except Text.Undecodable String} (h : m.Tracked)
    (hended : m.ended = some e) : m.alive = none := by
  cases halive : m.alive with
  | none => rfl
  | some p =>
    have hnone := h.ended (by simp [halive])
    rw [hended] at hnone
    cases hnone

theorem Moves.tracked (hmove : Moves m es m') (h : m.Tracked) : m'.Tracked := by
  cases hmove with
  | launches => exact ⟨fun _ => rfl, fun p hp => by simpa [Next.Knows] using (Option.some.inj hp).symm⟩
  | registers next =>
    refine ⟨h.ended, fun p hp => ?_⟩
    have hknows := h.alive p hp
    rw [next] at hknows
    have hlast : some (m.started.length - 1) = some p := congrArg some (by rw [← show p + 1 = _ from hknows]; simp)
    cases m.stop <;> exact hlast
  | looksUp next | signals next =>
    refine ⟨h.ended, fun p hp => ?_⟩
    have hknows := h.alive p hp
    rwa [next] at hknows
  | collects next ended | chokes next ended => exact .of_alive_eq_none (h.alive_of_ended ended)
  | ends => exact .of_alive_eq_none rfl
  | asks | sends => exact ⟨h.ended, h.alive⟩
  | baulks next =>
    refine .of_alive_eq_none (h.alive_eq_none fun p hknows => ?_)
    rcases next with next | next <;> rwa [next] at hknows
  | through next | stops next | skips next | turns next | finds next | misses next | unregisters next | judges next
  | clears next =>
    refine .of_alive_eq_none (h.alive_eq_none fun p hknows => ?_)
    rwa [next] at hknows

/-- A living process lives on, or it ends. -/
theorem Moves.alive (hmove : Moves m es m') (htracked : m.Tracked) (h : m.alive = some p) :
    m'.alive = some p ∨ ∃ e, m' = { m with alive := none, ended := some e } := by
  cases hmove with
  | launches next =>
    have hknows := htracked.alive p h
    rw [next] at hknows
    exact hknows.elim
  | ends => exact .inr ⟨_, rfl⟩
  | _ => exact .inl h

theorem Moves.signalled (hmove : Moves m es m') : m.signalled <+: m'.signalled := by
  cases hmove with
  | signals | sends => exact List.prefix_append _ _
  | _ => exact List.prefix_refl _

/-- When a caller sends its signal, a SIGTERM that was on its way to the living process has been sent, or it is
still on its way. -/
theorem mem_signalled_of_send {found : Option Nat} {s : Signal} {n : Nat} (halive : m.alive = some p)
    (hcaller : m.callers[n]? = some (found, s)) (hmem : (some p, Signal.terminate) ∈ m.callers) :
    (p, Signal.terminate) ∈ m.signalled ++
        ((if found.isSome && found == m.alive then found else none).map fun p => (p, s)).toList ∨
      (some p, Signal.terminate) ∈ m.callers.eraseIdx n := by
  by_cases heq : (found, s) = (some p, .terminate)
  · obtain ⟨rfl, rfl⟩ := Prod.mk.inj heq
    exact .inl (by simp [halive])
  · obtain ⟨k, hk⟩ := List.mem_iff_getElem?.1 hmem
    have hne : k ≠ n := fun hkn => heq (Option.some.inj (hcaller.symm.trans (hkn ▸ hk)))
    exact .inr (List.mem_eraseIdx_iff_getElem?.2 ⟨k, hne, hk⟩)

/-- **Every move keeps the living process reached.** -/
theorem Moves.reached (hmove : Moves m es m') (htracked : m.Tracked) (h : m.Reached) : m'.Reached := by
  have hflag := h.flag
  -- Where the run has no process, only what the move does to the flag is left to show.
  have hidle : ∀ {m' : Machine}, (m'.stop = true ∨ ∃ cut, m'.next = .done cut) → m'.alive = none → m'.Reached :=
    fun hflag hnone => ⟨hflag, fun p hp => by rw [hnone] at hp; cases hp⟩
  have hset : (∀ cut, m.next ≠ .done cut) → m.stop = true := fun hnext =>
    hflag.resolve_right fun ⟨cut, hdone⟩ => hnext cut hdone
  cases hmove with
  | launches next => exact ⟨.inl (hset (by simp [next])), fun p _ => .inr (.inr rfl)⟩
  | registers next =>
    have hstop := hset (by simp [next])
    exact ⟨.inl hstop, fun p _ => .inr (.inr (by rw [hstop]; rfl))⟩
  | looksUp => exact ⟨.inl rfl, fun p _ => .inr (.inr rfl)⟩
  | signals next => exact ⟨.inl (hset (by simp [next])), fun p hp => .inl (by simp [show m.alive = some p from hp])⟩
  | asks =>
    refine ⟨.inl rfl, fun p hp => (h.sent p hp).imp_right fun hdue => ?_⟩
    exact hdue.imp_left fun hmem => List.mem_append_left _ hmem
  | sends hcaller =>
    refine ⟨hflag, fun p hp => ?_⟩
    obtain hsent | hmem | hminds := h.sent p hp
    · exact .inl (List.mem_append_left _ hsent)
    · exact (mem_signalled_of_send (m := m) hp hcaller hmem).imp_right .inl
    · exact .inr (.inr hminds)
  | ends => exact hidle hflag rfl
  | collects next ended | chokes next ended =>
    exact hidle (.inl (hset (by simp [next]))) (htracked.alive_of_ended ended)
  | clears next =>
    refine hidle (.inr ⟨_, rfl⟩) (htracked.alive_eq_none fun p hknows => ?_)
    rwa [next] at hknows
  | judges next | through next | stops next | skips next | turns next | finds next | misses next | unregisters next =>
    refine hidle (.inl (hset (by simp [next]))) (htracked.alive_eq_none fun p hknows => ?_)
    rwa [next] at hknows
  | baulks next =>
    refine hidle (.inl (hset (by rcases next with next | next <;> simp [next])))
      (htracked.alive_eq_none fun p hknows => ?_)
    rcases next with next | next <;> rwa [next] at hknows

/-- **With the flag set the loop turns to no step.** -/
theorem Moves.halted (hmove : Moves m es m') (hreached : m.Reached) (h : Halted m₀ m) : Halted m₀ m' := by
  have hbegun := h.begun
  have hstarted : m.started <+: m₀.started ++ m₀.next.late := (List.prefix_append _ _).trans hbegun
  have hnone : m.started ++ ([] : List Step) <+: m₀.started ++ m₀.next.late := by rwa [List.append_nil]
  cases hmove with
  | turns next flag =>
    rcases hreached.flag with hstop | ⟨cut, hdone⟩
    · rw [flag] at hstop
      cases hstop
    · rw [next] at hdone
      cases hdone
  | launches next =>
    rw [next] at hbegun
    exact ⟨h.kept.trans (List.prefix_append _ _), by simpa [Next.late] using hbegun⟩
  | finds next =>
    rw [next] at hbegun
    exact ⟨h.kept, hbegun⟩
  | registers =>
    refine ⟨h.kept, ?_⟩
    cases m.stop <;> exact hnone
  | unregisters =>
    refine ⟨h.kept, ?_⟩
    by_cases hcode : m.exitCode = 0 <;> simpa [hcode, Next.late] using hnone
  | ends | asks | sends => exact ⟨h.kept, hbegun⟩
  | _ => exact ⟨h.kept, hnone⟩

/-! ### What runs keep -/

theorem Runs.tracked (h : Runs (.start i root keep stop) es m) : m.Tracked :=
  h.holds (P := fun _ m => m.Tracked) (.of_alive_eq_none rfl) fun hm hmove => hmove.tracked hm

theorem Runs.keeps_tracked (h : Runs m₀ es m) (htracked : m₀.Tracked) : m.Tracked :=
  h.holds (P := fun _ m => m.Tracked) htracked fun hm hmove => hmove.tracked hm

theorem Runs.reached (h : Runs m₀ es m) (htracked : m₀.Tracked) (hreached : m₀.Reached) :
    m.Tracked ∧ m.Reached ∧ Halted m₀ m :=
  h.holds (P := fun _ m => m.Tracked ∧ m.Reached ∧ Halted m₀ m)
    ⟨htracked, hreached, List.prefix_refl _, List.prefix_refl _⟩
    fun ⟨htracked, hreached, hhalted⟩ hmove =>
      ⟨hmove.tracked htracked, hmove.reached htracked hreached, hmove.halted hreached hhalted⟩

/-- A living process lives on, has been sent a SIGTERM, or has ended without one. -/
theorem Runs.alive (h : Runs m₀ es m) (htracked : m₀.Tracked) (halive : m₀.alive = some p) :
    m.alive = some p ∨ (p, Signal.terminate) ∈ m.signalled ∨ EndsUnsent p m₀ m := by
  induction h with
  | start => exact .inl halive
  | @move es m m' a before act ih =>
    have hmove := moves_of_act act
    obtain hlives | hsent | ⟨es, m₁, code, output, m₂, es', hends⟩ := ih
    · by_cases hsent : (p, Signal.terminate) ∈ m.signalled
      · exact .inr (.inl (hmove.signalled.subset hsent))
      · refine (hmove.alive (before.keeps_tracked htracked) hlives).imp_right fun ⟨e, hm'⟩ => .inr ?_
        have hexit : m.act (.exit e.1 e.2) = some m' := by simp only [Machine.act, hlives, hm']
        exact ⟨_, _, _, _, _, [], before, hlives, hsent, hexit, .start⟩
    · exact .inr (.inl (hmove.signalled.subset hsent))
    · obtain ⟨hbefore, hlived, hunsent, hexit, hafter⟩ := hends
      exact .inr (.inr ⟨_, _, _, _, _, _, hbefore, hlived, hunsent, hexit, hafter.move act⟩)

/-! ### Signals are sent without waiting -/

theorem send_callers (m : Machine) : ((m.act (.send 0)).getD m).callers = m.callers.tail := by
  cases h : m.callers <;> simp [Machine.act, h]

/-- Those who asked can send their signals at any moment. -/
theorem callers_send : ∀ {n : Nat} {m : Machine}, m.callers.length = n →
    ∃ es m', Runs m es m' ∧ m'.callers = [] ∧ m'.next = m.next
  | 0, m, hlength => ⟨[], m, .start, List.length_eq_zero_iff.1 hlength, rfl⟩
  | n + 1, m, hlength => by
    obtain ⟨es, hsent⟩ := runs_getD m (.send 0)
    have hlength' : ((m.act (.send 0)).getD m).callers.length = n := by simp [send_callers, hlength]
    obtain ⟨es', m', hruns, hcallers, hnext⟩ := callers_send hlength'
    exact ⟨_, m', hsent.trans hruns, hcallers, hnext.trans (send_next m 0)⟩

/-- The run can go on to where it waits for its process. -/
theorem run_sends (m : Machine) : ∃ es m', Runs m es m' ∧ m'.callers = m.callers ∧ m'.next.minds = false := by
  obtain ⟨_, _, _, next, stop, _, _, _, _, _, _, _, _, _⟩ := m
  cases next with
  | register s rest =>
    cases stop with
    | false => exact ⟨_, _, .one (a := .own) rfl, rfl, rfl⟩
    | true => exact ⟨_, _, .trans (.one (a := .own) rfl) (.trans (.one (a := .own) rfl) (.one (a := .own) rfl)), rfl, rfl⟩
  | lookUp s rest => exact ⟨_, _, .trans (.one (a := .own) rfl) (.one (a := .own) rfl), rfl, rfl⟩
  | signal s rest => exact ⟨_, _, .one (a := .own) rfl, rfl, rfl⟩
  | _ => exact ⟨[], _, .start, rfl, rfl⟩

theorem settles (m : Machine) : ∃ es m', Runs m es m' ∧ m'.Settled := by
  obtain ⟨es, m₁, hruns, hcallers, hnext⟩ := callers_send (m := m) rfl
  obtain ⟨es', m', hruns', hcallers', hminds⟩ := run_sends m₁
  exact ⟨_, m', hruns.trans hruns', hcallers'.trans hcallers, hminds⟩

/-! ### After the run -/

/-- Where the flag is not set in the beginning and nobody asks, the run is not cut short. -/
theorem Told.uncut (h : Told false es m) (hasked : .asked ∉ es) : es.any Event.cuts = false := by
  rw [List.any_eq_false]
  intro e he hcuts
  obtain ⟨before, after, rfl⟩ := List.append_of_mem he
  have hflag : e.flag? = some true := by
    cases e with
    | turned s flag | judged flag => exact congrArg some hcuts
    | _ => cases hcuts
  obtain hstop | hmem := (h.aware.informed before e after true rfl hflag).1 rfl
  · cases hstop
  · exact hasked (List.mem_append_left _ hmem)

end

/-! ## Requests -/

theorem Machine.Tracked.reached {m : Machine} (h : m.Tracked) :
    Machine.Reached { m with stop := true, callers := m.callers ++ [(m.registered, Signal.terminate)] } := by
  refine ⟨.inl rfl, fun p hp => .inr ?_⟩
  have hknows := h.alive p hp
  cases hnext : m.next with
  | register s rest | lookUp s rest | signal s rest => exact .inr (by simp only [Next.minds])
  | await s rest =>
    rw [hnext] at hknows
    exact .inl (by simp [show m.registered = some p from hknows])
  | _ =>
    rw [hnext] at hknows
    exact hknows.elim

end MergeGate.Executor
