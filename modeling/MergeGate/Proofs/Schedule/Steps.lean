/-
The scheduler's loop in small steps. `World.step` does one thing at a time: it looks at one instance,
starts one, records one result, asks one to stop, kills one; between two steps the loop stands at a
`Place`. Every step uses the loop's own functions on one element, so that a reached `Point` is a
state the loop really passes through.

`loop_reaches` ties the steps to the loop: unless a fault can be reached, the machine with which the
loop ends is reached step by step, and so is every machine with which it begins a turn. A loop that
cannot wait for what it has asked to stop is left there, at the place `stranded`. Promotion
sweeps until nothing is found blocked, at most one time more than there are phases; a sweep that
found something took a phase away, so the limit is never what ends it.
-/
import MergeGate.Proofs.Assoc
import MergeGate.Proofs.Basic
import MergeGate.Schedule.Execute

namespace MergeGate.Schedule

/-- Where the loop stands, with what it still has to look at there. -/
inductive Place where
  /-- at the top of a turn -/
  | top
  /-- making instances ready; was one found blocked in this sweep? -/
  | sweep (changed : Bool) (rest : List Instance)
  /-- starting what is ready -/
  | start (rest : List Instance)
  /-- about to wait for what runs -/
  | wait
  /-- recording what has ended -/
  | finish (rest : Ended)
  /-- skipping what has not started, after the run was cancelled -/
  | skip (rest : List Instance)
  /-- asking what runs to stop -/
  | stop (rest : List Instance)
  /-- about to wait for what was asked to stop -/
  | grace
  /-- left with what was asked to stop, because it cannot be waited for -/
  | stranded
  /-- recording what has stopped, and not what has not -/
  | settle (rest : Ended) (hung : List Instance)
  /-- killing what did not stop in time -/
  | kill (rest : List Instance)
  | ended

/-- A moment of an execution. -/
structure Point (σ : Type) where
  place : Place
  machine : Machine σ

variable {σ : Type}

/-- Go on at a place, unless something went wrong. -/
def Machine.goOn (m : Machine σ) (place : Place) : Point σ :=
  if m.fault.isSome then ⟨.ended, m⟩ else ⟨place, m⟩

theorem Machine.goOn_machine (m : Machine σ) (place : Place) : (m.goOn place).machine = m := by
  rw [Machine.goOn]
  split <;> rfl

/-- The machine of a run whose cancellation has been seen. -/
def Machine.markCancelled (m : Machine σ) : Machine σ :=
  { m with state := { m.state with run := { m.state.run with cancelled := true } } }

/-- The machine with other instances in flight. -/
def Machine.withFlight (m : Machine σ) (flight : List Instance) : Machine σ := { m with flight }

/-- The next moment. -/
def World.step (w : World σ) (f : Frame) (p : Point σ) : Point σ :=
  let m := p.machine
  match p.place with
  | .top =>
    if w.cancelled m.world then ⟨.skip f.instances, m.markCancelled⟩
    else ⟨.sweep false f.instances, m⟩
  | .sweep true [] => ⟨.sweep false f.instances, m⟩
  | .sweep false [] => ⟨.start f.instances, m⟩
  | .sweep changed (i :: rest) =>
    match f.visit { state := m.state, changed } i with
    | .error fault => ⟨.ended, m.fail (.run fault)⟩
    | .ok s => ⟨.sweep s.changed rest, { m with state := s.state }.tell s.notices⟩
  | .start [] => if m.flight.isEmpty then ⟨.ended, m⟩ else ⟨.wait, m⟩
  | .start (i :: rest) =>
    if f.workers ≤ m.flight.length then ⟨.start [], m⟩
    else if m.state.phases.lookup i.id = some .ready then
      ⟨.start rest, w.startAll { m with state := m.state.dispatch i } [i]⟩
    else ⟨.start rest, m⟩
  | .wait =>
    let (world, ended) := w.wait m.world m.state.phases m.flight
    ⟨.finish (f.endedInOrder ended), { m with world }⟩
  | .finish [] => ⟨.top, m⟩
  | .finish (e :: rest) => (m.finishAll [e]).goOn (.finish rest)
  | .skip [] => if m.flight.isEmpty then ⟨.ended, m⟩ else ⟨.stop m.flight, m⟩
  | .skip (i :: rest) =>
    match m.state.skipWaiting [i] with
    | .error fault => ⟨.ended, m.fail (.run fault)⟩
    | .ok state => ⟨.skip rest, { m with state }⟩
  | .stop [] => if w.cannotWait m then ⟨.stranded, m⟩ else ⟨.grace, m⟩
  | .stop (i :: rest) => ⟨.stop rest, w.stopAll m [i]⟩
  | .grace =>
    let (world, ended) := w.grace m.world m.state.phases m.flight
    ⟨.settle (f.endedInOrder (ended.map fun e => (e.1, e.2.stopped)))
      (inOrder f.graph (m.flight.filter fun i => !(ended.any fun e => e.1.id == i.id))),
      { m with world }⟩
  | .settle [] hung => ⟨.kill hung, m⟩
  | .settle (e :: rest) hung => (m.finishAll [e]).goOn (.settle rest hung)
  | .kill [] => ⟨.ended, m.withFlight []⟩
  | .kill (i :: rest) =>
    ((w.killAll m [i]).withFlight (m.flight.filter (·.id ≠ i.id))).goOn (.kill rest)
  | .stranded | .ended => p

/-- The first moment: every instance without a result is pending. -/
def Frame.outset (f : Frame) (r : Run) (world : σ) : Point σ := ⟨.top, { state := f.start r, world }⟩

/-- The moments that follow one, at any distance. -/
inductive World.Reaches (w : World σ) (f : Frame) (p : Point σ) : Point σ → Prop
  | refl : Reaches w f p p
  | next {q : Point σ} (h : Reaches w f p q) : Reaches w f p (w.step f q)

variable {w : World σ} {f : Frame}

theorem World.Reaches.trans {p q s : Point σ} (h : w.Reaches f p q) (h' : w.Reaches f q s) :
    w.Reaches f p s := by
  induction h' with
  | refl => exact h
  | next _ ih => exact ih.next

theorem World.Reaches.head {p q : Point σ} (h : w.Reaches f (w.step f p) q) : w.Reaches f p q :=
  World.Reaches.trans (.next .refl) h

/-- A moment that is reached is this one, or is reached from the next. -/
theorem World.Reaches.eq_or_next {p q : Point σ} (h : w.Reaches f p q) : q = p ∨ w.Reaches f (w.step f p) q := by
  induction h with
  | refl => exact .inl rfl
  | next _ ih =>
    rcases ih with rfl | hnext
    · exact .inr .refl
    · exact .inr hnext.next

/-- Something goes wrong on the way from here. -/
def World.Faulty (w : World σ) (f : Frame) (p : Point σ) : Prop :=
  ∃ q, w.Reaches f p q ∧ q.machine.fault.isSome

theorem World.Faulty.head {p : Point σ} (h : w.Faulty f (w.step f p)) : w.Faulty f p := by
  obtain ⟨q, hq, hfault⟩ := h
  exact ⟨q, hq.head, hfault⟩

theorem World.Faulty.of_reaches {p q : Point σ} (h : w.Reaches f p q) (hq : w.Faulty f q) :
    w.Faulty f p := by
  obtain ⟨s, hs, hfault⟩ := hq
  exact ⟨s, h.trans hs, hfault⟩

/-! ## Promotion -/

/-- The machine of a sweep that began with `m`. -/
def Machine.swept (m : Machine σ) (s : Sweep) : Machine σ := { m with state := s.state }.tell s.notices

/-- What was said before a visit stays in front of what the visit says. -/
theorem visit_notices (s : Sweep) (i : Instance) : f.visit s i =
    (f.visit { state := s.state, changed := s.changed } i).map fun v =>
      { v with notices := s.notices ++ v.notices } := by
  simp only [Frame.visit]
  split
  · simp [Except.map]
  · split
    · simp [Except.map]
    · simp [Except.map]
    · cases s.state.record (Result.skip i Reason.blocked) <;> rfl

theorem sweep_reaches (m : Machine σ) : ∀ (is : List Instance) (s : Sweep),
    w.Faulty f ⟨.sweep s.changed is, m.swept s⟩ ∨ ∃ v, f.sweep s is = .ok v ∧
      w.Reaches f ⟨.sweep s.changed is, m.swept s⟩ ⟨.sweep v.changed [], m.swept v⟩
  | [], s => .inr ⟨s, rfl, .refl⟩
  | i :: rest, s => by
    have hvisit := visit_notices (f := f) s i
    cases hv : f.visit { state := s.state, changed := s.changed } i with
    | error fault =>
      have hstep : w.step f ⟨.sweep s.changed (i :: rest), m.swept s⟩ =
          ⟨.ended, (m.swept s).fail (.run fault)⟩ := by
        simp [World.step, Machine.swept, Machine.tell, hv]
      exact .inl (World.Faulty.head (hstep ▸ ⟨_, .refl, rfl⟩))
    | ok v =>
      rw [hv] at hvisit
      have hstep : w.step f ⟨.sweep s.changed (i :: rest), m.swept s⟩ =
          ⟨.sweep v.changed rest, m.swept { v with notices := s.notices ++ v.notices }⟩ := by
        simp [World.step, Machine.swept, Machine.tell, hv]
      have hrest : f.sweep s (i :: rest) = f.sweep { v with notices := s.notices ++ v.notices } rest := by
        rw [Frame.sweep, hvisit]
        rfl
      rw [hrest]
      rcases sweep_reaches m rest { v with notices := s.notices ++ v.notices } with hbad | ⟨u, hu, hreach⟩
      · exact .inl (World.Faulty.head (hstep ▸ hbad))
      · exact .inr ⟨u, hu, World.Reaches.head (hstep ▸ hreach)⟩

/-- A visit takes a phase away when it finds its instance blocked, and adds none otherwise. -/
theorem visit_length {s v : Sweep} {i : Instance} (h : f.visit s i = .ok v) :
    v.state.phases.length ≤ s.state.phases.length ∧
      (v.changed = true → s.changed = true ∨ v.state.phases.length < s.state.phases.length) := by
  simp only [Frame.visit] at h
  split at h
  · cases h
    exact ⟨Nat.le_refl _, .inl⟩
  · next hpending =>
    have hsome : (s.state.phases.lookup i.id).isSome := by
      simp only [ne_eq, Decidable.not_not] at hpending
      simp [hpending]
    split at h
    · cases h
      exact ⟨Nat.le_refl _, .inl⟩
    · cases h
      exact ⟨Nat.le_of_eq (Assoc.length_put_of_isSome _ hsome), .inl⟩
    · simp only [State.record, bind_eq_ok, pure_eq_ok] at h
      obtain ⟨state, ⟨run, _, rfl⟩, rfl⟩ := h
      have hlt := Assoc.length_erase_lt hsome
      exact ⟨Nat.le_of_lt hlt, fun _ => .inr hlt⟩

theorem sweep_length : ∀ {is : List Instance} {s v : Sweep}, f.sweep s is = .ok v →
    v.state.phases.length ≤ s.state.phases.length ∧
      (v.changed = true → s.changed = true ∨ v.state.phases.length < s.state.phases.length)
  | [], s, v, h => by
    simp only [Frame.sweep, Except.ok.injEq] at h
    subst h
    exact ⟨Nat.le_refl _, .inl⟩
  | i :: rest, s, v, h => by
    simp only [Frame.sweep, Except.bind_eq_ok] at h
    obtain ⟨u, hu, hv⟩ := h
    obtain ⟨hle, hlt⟩ := visit_length hu
    obtain ⟨hle', hlt'⟩ := sweep_length hv
    refine ⟨Nat.le_trans hle' hle, fun hc => ?_⟩
    rcases hlt' hc with hc | hc
    · rcases hlt hc with hc | hc
      · exact .inl hc
      · exact .inr (by omega)
    · exact .inr (by omega)

theorem promoteFor_succ {s : State} {v : Sweep} {fuel : Nat}
    (hv : f.sweep { state := s } f.instances = .ok v) : f.promoteFor (fuel + 1) s =
      if v.changed then (f.promoteFor fuel v.state).map fun p => (p.1, v.notices ++ p.2)
      else .ok (v.state, v.notices) := by
  simp only [Frame.promoteFor, hv, bind, Except.bind]
  cases v.changed with
  | false => rfl
  | true => cases f.promoteFor fuel v.state <;> rfl

theorem promoteFor_reaches : ∀ (fuel : Nat) (m : Machine σ), m.state.phases.length < fuel →
    w.Faulty f ⟨.sweep false f.instances, m⟩ ∨ ∃ s ns, f.promoteFor fuel m.state = .ok (s, ns) ∧
      w.Reaches f ⟨.sweep false f.instances, m⟩ ⟨.start f.instances, { m with state := s }.tell ns⟩
  | 0, m, h => by omega
  | fuel + 1, m, h => by
    have hself : m.swept { state := m.state } = m := by simp [Machine.swept, Machine.tell]
    rcases sweep_reaches (w := w) (f := f) m f.instances { state := m.state } with hbad | ⟨v, hv, hreach⟩
    · rw [hself] at hbad
      exact .inl hbad
    rw [hself] at hreach
    rw [promoteFor_succ hv]
    cases hc : v.changed with
    | false =>
      rw [hc] at hreach
      exact .inr ⟨v.state, v.notices, rfl, hreach.next⟩
    | true =>
      rw [hc] at hreach
      have hagain : w.Reaches f ⟨.sweep false f.instances, m⟩ ⟨.sweep false f.instances, m.swept v⟩ :=
        hreach.next
      have hless : v.state.phases.length < m.state.phases.length := by
        rcases (sweep_length hv).2 hc with hc | hlt
        · cases hc
        · exact hlt
      have hfuel : (m.swept v).state.phases.length < fuel := by
        simp only [Machine.swept, Machine.tell]
        omega
      rcases promoteFor_reaches fuel (m.swept v) hfuel with hbad | ⟨s, ns, hs, hrest⟩
      · exact .inl (World.Faulty.of_reaches hagain hbad)
      · have hs' : f.promoteFor fuel v.state = .ok (s, ns) := hs
        refine .inr ⟨s, v.notices ++ ns, by simp [hs', Except.map], ?_⟩
        have hend := hagain.trans hrest
        simp only [Machine.swept, Machine.tell, List.append_assoc] at hend ⊢
        exact hend

theorem promote_reaches (m : Machine σ) :
    w.Faulty f ⟨.sweep false f.instances, m⟩ ∨ ∃ s ns, f.promote m.state = .ok (s, ns) ∧
      w.Reaches f ⟨.sweep false f.instances, m⟩ ⟨.start f.instances, { m with state := s }.tell ns⟩ :=
  promoteFor_reaches _ m (Nat.lt_succ_self _)

/-! ## Starting -/

/-- Choosing all instances first and starting them afterwards comes to the same as starting each
when it is chosen. -/
theorem choose_reaches : ∀ (is : List Instance) (m : Machine σ),
    w.Reaches f ⟨.start is, m⟩ ⟨.start [],
      w.startAll { m with state := (f.choose m.state m.flight.length is).1 }
        (f.choose m.state m.flight.length is).2⟩
  | [], m => .refl
  | i :: rest, m => by
    simp only [Frame.choose]
    by_cases hfull : f.workers ≤ m.flight.length
    · simp only [hfull, if_true]
      have hstep : w.step f ⟨.start (i :: rest), m⟩ = ⟨.start [], m⟩ := by simp [World.step, hfull]
      exact World.Reaches.head (hstep ▸ .refl)
    · simp only [hfull, if_false]
      by_cases hready : m.state.phases.lookup i.id = some .ready
      · simp only [hready, if_true]
        have hstep : w.step f ⟨.start (i :: rest), m⟩ =
            ⟨.start rest, w.startAll { m with state := m.state.dispatch i } [i]⟩ := by
          simp [World.step, hfull, hready]
        have ih := choose_reaches rest (w.startAll { m with state := m.state.dispatch i } [i])
        have hlen : (w.startAll { m with state := m.state.dispatch i } [i]).flight.length =
            m.flight.length + 1 := by simp [World.startAll]
        have hstate : (w.startAll { m with state := m.state.dispatch i } [i]).state =
            m.state.dispatch i := by simp [World.startAll]
        rw [hlen, hstate] at ih
        exact World.Reaches.head (hstep ▸ ih)
      · simp only [hready, if_false]
        have hstep : w.step f ⟨.start (i :: rest), m⟩ = ⟨.start rest, m⟩ := by
          simp [World.step, hfull, hready]
        exact World.Reaches.head (hstep ▸ choose_reaches rest m)

/-! ## Recording -/

theorem finishAll_cons (m : Machine σ) (e : Instance × Result) (rest : Ended) (hm : m.fault = none) :
    m.finishAll (e :: rest) =
      if (m.finishAll [e]).fault.isSome then m.finishAll [e] else (m.finishAll [e]).finishAll rest := by
  obtain ⟨i, x⟩ := e
  cases hrec : m.state.record x with
  | error fault => simp [Machine.finishAll, hrec, Machine.fail]
  | ok state => simp [Machine.finishAll, hrec, hm]

theorem finishAll_reaches (next : Ended → Place)
    (hnext : ∀ (m : Machine σ) e rest, w.step f ⟨next (e :: rest), m⟩ = (m.finishAll [e]).goOn (next rest)) :
    ∀ (es : Ended) (m : Machine σ), m.fault = none →
      w.Faulty f ⟨next es, m⟩ ∨
        (m.finishAll es).fault = none ∧ w.Reaches f ⟨next es, m⟩ ⟨next [], m.finishAll es⟩
  | [], m, hm => .inr ⟨hm, .refl⟩
  | e :: rest, m, hm => by
    rw [finishAll_cons m e rest hm]
    have hstep := hnext m e rest
    by_cases hfault : (m.finishAll [e]).fault.isSome
    · rw [Machine.goOn, if_pos hfault] at hstep
      exact .inl (World.Faulty.head (hstep ▸ ⟨_, .refl, hfault⟩))
    · rw [Machine.goOn, if_neg hfault] at hstep
      rw [if_neg hfault]
      rcases finishAll_reaches next hnext rest (m.finishAll [e]) (by simpa using hfault) with hbad | ⟨hok, hreach⟩
      · exact .inl (World.Faulty.head (hstep ▸ hbad))
      · exact .inr ⟨hok, World.Reaches.head (hstep ▸ hreach)⟩

/-! ## Cancelling -/

theorem skipWaiting_cons (s : State) (i : Instance) (rest : List Instance) :
    s.skipWaiting (i :: rest) = (s.skipWaiting [i]).bind fun s => s.skipWaiting rest := by
  simp only [State.skipWaiting]
  split <;> first | rfl | (cases s.record (Result.skip i Reason.cancelled) <;> rfl)

theorem skipWaiting_reaches : ∀ (is : List Instance) (m : Machine σ),
    w.Faulty f ⟨.skip is, m⟩ ∨ ∃ s, m.state.skipWaiting is = .ok s ∧
      w.Reaches f ⟨.skip is, m⟩ ⟨.skip [], { m with state := s }⟩
  | [], m => .inr ⟨m.state, rfl, .refl⟩
  | i :: rest, m => by
    rw [skipWaiting_cons]
    cases hs : m.state.skipWaiting [i] with
    | error fault =>
      have hstep : w.step f ⟨.skip (i :: rest), m⟩ = ⟨.ended, m.fail (.run fault)⟩ := by
        simp [World.step, hs]
      exact .inl (World.Faulty.head (hstep ▸ ⟨_, .refl, rfl⟩))
    | ok s =>
      have hstep : w.step f ⟨.skip (i :: rest), m⟩ = ⟨.skip rest, { m with state := s }⟩ := by
        simp [World.step, hs]
      rcases skipWaiting_reaches rest { m with state := s } with hbad | ⟨s', hs', hreach⟩
      · exact .inl (World.Faulty.head (hstep ▸ hbad))
      · exact .inr ⟨s', hs', World.Reaches.head (hstep ▸ hreach)⟩

theorem stopAll_reaches : ∀ (is : List Instance) (m : Machine σ),
    w.Reaches f ⟨.stop is, m⟩ ⟨.stop [], w.stopAll m is⟩
  | [], _ => .refl
  | i :: rest, m => World.Reaches.head (stopAll_reaches rest (w.stopAll m [i]))

theorem stopAll_kept : ∀ (is : List Instance) (m : Machine σ),
    (w.stopAll m is).state = m.state ∧ (w.stopAll m is).flight = m.flight ∧
      (w.stopAll m is).fault = m.fault
  | [], _ => ⟨rfl, rfl, rfl⟩
  | i :: rest, m => stopAll_kept rest (w.stopAll m [i])

theorem killAll_withFlight (flight : List Instance) : ∀ (is : List Instance) (m : Machine σ),
    w.killAll (m.withFlight flight) is = (w.killAll m is).withFlight flight
  | [], _ => rfl
  | i :: rest, m => by
    cases hrec : m.state.record (Result.timedOut i (w.elapsed m.world i)) with
    | error fault => simp [World.killAll, Machine.withFlight, hrec, Machine.fail]
    | ok state =>
      have ih := killAll_withFlight flight rest
        { m with
          state
          world := w.kill m.world i
          notices := m.notices ++ [.jobResult (Result.timedOut i (w.elapsed m.world i))] }
      simpa [World.killAll, Machine.withFlight, hrec] using ih

theorem killAll_cons (m : Machine σ) (i : Instance) (rest : List Instance) (hm : m.fault = none) :
    w.killAll m (i :: rest) =
      if (w.killAll m [i]).fault.isSome then w.killAll m [i] else w.killAll (w.killAll m [i]) rest := by
  cases hrec : m.state.record (Result.timedOut i (w.elapsed m.world i)) with
  | error fault => simp [World.killAll, hrec, Machine.fail]
  | ok state => simp [World.killAll, hrec, hm]

theorem killAll_reaches : ∀ (is : List Instance) (m : Machine σ), m.fault = none →
    w.Faulty f ⟨.kill is, m⟩ ∨ (w.killAll m is).fault = none ∧
      w.Reaches f ⟨.kill is, m⟩ ⟨.ended, (w.killAll m is).withFlight []⟩
  | [], m, hm => .inr ⟨hm, .next .refl⟩
  | i :: rest, m, hm => by
    rw [killAll_cons m i rest hm]
    let m' := (w.killAll m [i]).withFlight (m.flight.filter (·.id ≠ i.id))
    have hstep : w.step f ⟨.kill (i :: rest), m⟩ = m'.goOn (.kill rest) := rfl
    by_cases hfault : (w.killAll m [i]).fault.isSome
    · rw [Machine.goOn, if_pos (show m'.fault.isSome from hfault)] at hstep
      exact .inl (World.Faulty.head (hstep ▸ ⟨_, .refl, hfault⟩))
    · rw [Machine.goOn, if_neg (show ¬ m'.fault.isSome from hfault)] at hstep
      rw [if_neg hfault]
      have hm' : m'.fault = none := Option.not_isSome_iff_eq_none.mp hfault
      have ih := killAll_reaches rest m' hm'
      rw [killAll_withFlight] at ih
      rcases ih with hbad | ⟨hok, hreach⟩
      · exact .inl (World.Faulty.head (hstep ▸ hbad))
      · exact .inr ⟨hok, World.Reaches.head (hstep ▸ hreach)⟩

/-- What follows the stop signals: the grace period, and then every running instance is recorded. -/
def World.settleAll (w : World σ) (f : Frame) (m : Machine σ) : Machine σ :=
  let (world, ended) := w.grace m.world m.state.phases m.flight
  let stopped := f.endedInOrder (ended.map fun e => (e.1, e.2.stopped))
  let hung := inOrder f.graph (m.flight.filter fun i => !(ended.any fun e => e.1.id == i.id))
  let m := Machine.finishAll { m with world } stopped
  if m.fault.isSome then m else (w.killAll m hung).withFlight []

/-- Is a cancellation left with something in flight for which it cannot wait? -/
def World.strands (w : World σ) (f : Frame) (m : Machine σ) : Bool :=
  match m.markCancelled.state.skipWaiting f.instances with
  | .error _ => false
  | .ok state => w.cannotWait (w.stopAll { m with state } m.flight)

section Cancel

variable {m : Machine σ} {s : State} (hs : m.markCancelled.state.skipWaiting f.instances = .ok s)

include hs in
theorem strands_eq : w.strands f m = w.cannotWait (w.stopAll { m with state := s } m.flight) := by
  rw [World.strands, hs]

/-- Where nothing is in flight, nothing has to be waited for. -/
theorem not_strands_of_idle (hempty : m.flight.isEmpty = true) : w.strands f m = false := by
  cases hs : m.markCancelled.state.skipWaiting f.instances with
  | error fault => rw [World.strands, hs]
  | ok s =>
    have hflight : (w.stopAll { m with state := s } m.flight).flight = [] :=
      (stopAll_kept m.flight { m with state := s }).2.1.trans (List.isEmpty_iff.mp hempty)
    rw [strands_eq hs, World.cannotWait, hflight, List.any_nil, Bool.and_false]

include hs in
/-- A cancellation, by whether it can wait for what runs. -/
theorem cancelAll_cases : w.cancelAll f m =
    if w.strands f m then (w.stopAll { m with state := s } m.flight).fail .graceTooLong
    else if m.flight.isEmpty then { m with state := s }
    else w.settleAll f (w.stopAll { m with state := s } m.flight) := by
  have hs' : State.skipWaiting { m.state with run := { m.state.run with cancelled := true } }
      f.instances = .ok s := hs
  obtain ⟨_, hflight, _⟩ := stopAll_kept (w := w) m.flight { m with state := s }
  rw [World.cancelAll, hs']
  by_cases hempty : m.flight.isEmpty = true
  · rw [not_strands_of_idle hempty]
    simp only [hempty, if_true, Bool.false_eq_true, if_false]
  · rw [strands_eq hs]
    simp only [hempty, World.settleAll, hflight, Bool.false_eq_true, if_false]
    rfl

include hs in
theorem not_strands_of_faultless (hok : (w.cancelAll f m).fault = none) : ¬ w.strands f m = true := by
  intro hstrands
  rw [cancelAll_cases hs, if_pos hstrands] at hok
  cases hok

end Cancel

theorem settleAll_reaches (m : Machine σ) (hm : m.fault = none) :
    w.Faulty f ⟨.grace, m⟩ ∨ w.Reaches f ⟨.grace, m⟩ ⟨.ended, w.settleAll f m⟩ := by
  let m' : Machine σ := { m with world := (w.grace m.world m.state.phases m.flight).1 }
  let ended := (w.grace m.world m.state.phases m.flight).2
  let stopped := f.endedInOrder (ended.map fun e => (e.1, e.2.stopped))
  let hung := inOrder f.graph (m.flight.filter fun i => !(ended.any fun e => e.1.id == i.id))
  have heq : w.settleAll f m = if (m'.finishAll stopped).fault.isSome then m'.finishAll stopped
      else (w.killAll (m'.finishAll stopped) hung).withFlight [] := rfl
  have hgrace : w.Reaches f ⟨.grace, m⟩ ⟨.settle stopped hung, m'⟩ := .next .refl
  rcases finishAll_reaches (w := w) (f := f) (Place.settle · hung) (fun _ _ _ => rfl) stopped m' hm
    with hbad | ⟨hok, hsettle⟩
  · exact .inl (World.Faulty.of_reaches hgrace hbad)
  have hkill : w.Reaches f ⟨.grace, m⟩ ⟨.kill hung, m'.finishAll stopped⟩ :=
    hgrace.trans hsettle.next
  rcases killAll_reaches (w := w) (f := f) hung (m'.finishAll stopped) hok with hbad | ⟨_, hreach⟩
  · exact .inl (World.Faulty.of_reaches hkill hbad)
  · rw [heq, hok]
    exact .inr (hkill.trans hreach)

/-- With what runs asked to stop, the grace period begins, or it turns out that it cannot be waited for. -/
theorem stop_reaches {m : Machine σ} {s : State} (hflight : ¬ m.flight.isEmpty) :
    w.Reaches f ⟨.skip [], { m.markCancelled with state := s }⟩
      ⟨if w.cannotWait (w.stopAll { m with state := s } m.flight) then .stranded else .grace,
        w.stopAll { m with state := s } m.flight⟩ := by
  have hstep : w.step f ⟨.skip [], { m.markCancelled with state := s }⟩ =
      ⟨.stop m.flight, { m with state := s }⟩ := by
    simp [World.step, Machine.markCancelled, hflight]
  have hlast : w.step f ⟨.stop [], w.stopAll { m with state := s } m.flight⟩ =
      ⟨if w.cannotWait (w.stopAll { m with state := s } m.flight) then .stranded else .grace,
        w.stopAll { m with state := s } m.flight⟩ := by
    simp only [World.step]
    split <;> rfl
  exact World.Reaches.head (hstep ▸ hlast ▸ (stopAll_reaches m.flight { m with state := s }).next)

/-- How the loop is left, step by step: at its end, or with something in flight for which it cannot
wait. -/
inductive World.Leaves (w : World σ) (f : Frame) (p : Point σ) : Machine σ → Prop
  | ended {m : Machine σ} (reached : w.Reaches f p ⟨.ended, m⟩) : Leaves w f p m
  | stranded {m : Machine σ} (left : w.Reaches f p ⟨.stranded, m⟩) (stuck : w.cannotWait m = true) :
    Leaves w f p (m.fail .graceTooLong)

theorem World.Leaves.of_reaches {p q : Point σ} {m : Machine σ} (h : w.Reaches f p q)
    (hm : w.Leaves f q m) : w.Leaves f p m := by
  cases hm with
  | ended reached => exact .ended (h.trans reached)
  | stranded left stuck => exact .stranded (h.trans left) stuck

/-- A cancellation ends the loop, or it is left with what runs asked to stop. -/
theorem cancelAll_reaches (m : Machine σ) (hm : m.fault = none) :
    w.Faulty f ⟨.skip f.instances, m.markCancelled⟩ ∨
      ∃ s, m.markCancelled.state.skipWaiting f.instances = .ok s ∧
        w.Reaches f ⟨.skip f.instances, m.markCancelled⟩
          (if w.strands f m then ⟨.stranded, w.stopAll { m with state := s } m.flight⟩
          else ⟨.ended, w.cancelAll f m⟩) := by
  rcases skipWaiting_reaches (w := w) (f := f) f.instances m.markCancelled with hbad | ⟨s, hs, hskip⟩
  · exact .inl hbad
  rw [cancelAll_cases hs]
  let m' : Machine σ := { m with state := s }
  by_cases hempty : m.flight.isEmpty
  · have hstep : w.step f ⟨.skip [], { m.markCancelled with state := s }⟩ = ⟨.ended, m'⟩ := by
      simp [World.step, Machine.markCancelled, hempty, m']
    refine .inr ⟨s, hs, ?_⟩
    rw [not_strands_of_idle hempty, if_neg Bool.false_ne_true, if_neg Bool.false_ne_true, if_pos hempty]
    exact hstep ▸ hskip.next
  have hstop := hskip.trans (stop_reaches (w := w) (f := f) (m := m) (s := s) hempty)
  rw [← strands_eq hs] at hstop
  by_cases hstrands : w.strands f m = true
  · rw [if_pos hstrands] at hstop
    refine .inr ⟨s, hs, ?_⟩
    rw [if_pos hstrands]
    exact hstop
  · rw [if_neg hstrands] at hstop
    rw [if_neg hstrands, if_neg hempty]
    have hfault : (w.stopAll m' m.flight).fault = none := (stopAll_kept m.flight m').2.2.trans hm
    rcases settleAll_reaches (w := w) (f := f) (w.stopAll m' m.flight) hfault with hbad | hreach
    · exact .inl (World.Faulty.of_reaches hstop hbad)
    · refine .inr ⟨s, hs, ?_⟩
      rw [if_neg hstrands]
      exact hstop.trans hreach

theorem cancelAll_leaves (m : Machine σ) (hm : m.fault = none) :
    w.Faulty f ⟨.skip f.instances, m.markCancelled⟩ ∨
      w.Leaves f ⟨.skip f.instances, m.markCancelled⟩ (w.cancelAll f m) := by
  refine (cancelAll_reaches m hm).imp_right fun ⟨s, hs, hreach⟩ => ?_
  by_cases hstrands : w.strands f m = true
  · rw [if_pos hstrands] at hreach
    rw [cancelAll_cases hs, if_pos hstrands]
    exact .stranded hreach (strands_eq hs ▸ hstrands)
  · rw [if_neg hstrands] at hreach
    exact .ended hreach

/-! ## Turns -/

/-- What follows promotion in a turn: starting, and waiting for what runs. -/
def World.proceed (w : World σ) (f : Frame) (m : Machine σ) : Turn σ :=
  let (state, chosen) := f.choose m.state m.flight.length f.instances
  let m := w.startAll { m with state } chosen
  if m.flight.isEmpty then .finished m
  else
    let (world, ended) := w.wait m.world m.state.phases m.flight
    let m := Machine.finishAll { m with world } (f.endedInOrder ended)
    if m.fault.isSome then .finished m else .again m

theorem turn_eq {m : Machine σ} (hlive : ¬ w.cancelled m.world) {s : State} {ns : List Notice}
    (hs : f.promote m.state = .ok (s, ns)) : w.turn f m = w.proceed f ({ m with state := s }.tell ns) := by
  rw [World.turn, if_neg hlive, hs]
  rfl

/-- How a turn ends, step by step: the loop is left, or something was waited for and what ended was
recorded. -/
def World.Turned (w : World σ) (f : Frame) (p : Point σ) : Turn σ → Prop
  | .finished m => w.Leaves f p m
  | .again m => m.fault = none ∧ ∃ m', w.Reaches f p ⟨.wait, m'⟩ ∧
    w.Reaches f (w.step f ⟨.wait, m'⟩) ⟨.finish [], m⟩

theorem World.Turned.of_reaches {p q : Point σ} {t : Turn σ} (h : w.Reaches f p q)
    (ht : w.Turned f q t) : w.Turned f p t := by
  cases t with
  | finished m => exact World.Leaves.of_reaches h ht
  | again m =>
    obtain ⟨hm, m', hwait, hfinish⟩ := ht
    exact ⟨hm, m', h.trans hwait, hfinish⟩

theorem World.Turned.top {p : Point σ} {m : Machine σ} (h : w.Turned f p (.again m)) :
    w.Reaches f p ⟨.top, m⟩ := by
  obtain ⟨_, m', hwait, hfinish⟩ := h
  exact (hwait.next.trans hfinish).next

theorem startAll_fault : ∀ (is : List Instance) (m : Machine σ), (w.startAll m is).fault = m.fault
  | [], _ => rfl
  | i :: rest, m => startAll_fault rest (w.startAll m [i])

theorem proceed_reaches (m : Machine σ) (hm : m.fault = none) :
    w.Faulty f ⟨.start f.instances, m⟩ ∨ w.Turned f ⟨.start f.instances, m⟩ (w.proceed f m) := by
  let chosen := f.choose m.state m.flight.length f.instances
  let m₁ := w.startAll { m with state := chosen.1 } chosen.2
  let m₂ : Machine σ := { m₁ with world := (w.wait m₁.world m₁.state.phases m₁.flight).1 }
  let ended := f.endedInOrder (w.wait m₁.world m₁.state.phases m₁.flight).2
  have heq : w.proceed f m = if m₁.flight.isEmpty then .finished m₁
      else if (m₂.finishAll ended).fault.isSome then .finished (m₂.finishAll ended)
      else .again (m₂.finishAll ended) := rfl
  have hstart : w.Reaches f ⟨.start f.instances, m⟩ ⟨.start [], m₁⟩ := choose_reaches f.instances m
  by_cases hempty : m₁.flight.isEmpty
  · have hstep : w.step f ⟨.start [], m₁⟩ = ⟨.ended, m₁⟩ := by simp [World.step, hempty]
    have hover : w.Reaches f ⟨.start f.instances, m⟩ ⟨.ended, m₁⟩ := hstep ▸ hstart.next
    rw [heq, if_pos hempty]
    exact .inr (.ended hover)
  · have hstep : w.step f ⟨.start [], m₁⟩ = ⟨.wait, m₁⟩ := by simp [World.step, hempty]
    rw [heq, if_neg hempty]
    have hwait : w.Reaches f ⟨.start f.instances, m⟩ ⟨.wait, m₁⟩ := hstep ▸ hstart.next
    have hm₂ : m₂.fault = none := (startAll_fault chosen.2 _).trans hm
    rcases finishAll_reaches (w := w) (f := f) Place.finish (fun _ _ _ => rfl) ended m₂ hm₂
      with hbad | ⟨hok, hreach⟩
    · exact .inl (World.Faulty.of_reaches hwait.next hbad)
    · rw [hok]
      exact .inr ⟨hok, m₁, hwait, hreach⟩

theorem turn_reaches (m : Machine σ) (hm : m.fault = none) :
    w.Faulty f ⟨.top, m⟩ ∨ w.Turned f ⟨.top, m⟩ (w.turn f m) := by
  by_cases hcancel : w.cancelled m.world
  · have hstep : w.step f ⟨.top, m⟩ = ⟨.skip f.instances, m.markCancelled⟩ := by
      simp [World.step, hcancel]
    have hturn : w.turn f m = .finished (w.cancelAll f m) := by rw [World.turn, if_pos hcancel]
    rw [hturn]
    rcases cancelAll_leaves (w := w) (f := f) m hm with hbad | hreach
    · exact .inl (World.Faulty.head (hstep ▸ hbad))
    · exact .inr (World.Leaves.of_reaches (.next .refl) (hstep ▸ hreach))
  · have hstep : w.step f ⟨.top, m⟩ = ⟨.sweep false f.instances, m⟩ := by simp [World.step, hcancel]
    rcases promote_reaches (w := w) (f := f) m with hbad | ⟨s, ns, hs, hpromote⟩
    · exact .inl (World.Faulty.head (hstep ▸ hbad))
    have hstart : w.Reaches f ⟨.top, m⟩ ⟨.start f.instances, { m with state := s }.tell ns⟩ :=
      World.Reaches.head (hstep ▸ hpromote)
    rw [turn_eq hcancel hs]
    rcases proceed_reaches (w := w) (f := f) ({ m with state := s }.tell ns) hm with hbad | hturned
    · exact .inl (World.Faulty.of_reaches hstart hbad)
    · exact .inr (hturned.of_reaches hstart)

/-- **The loop in small steps.** Unless a fault can be reached, the loop's machine is one that the
steps reach: where the loop is left, or, when the turns allowed are used up, at the top of a turn. -/
theorem loop_reaches : ∀ (fuel : Nat) (m : Machine σ), m.fault = none →
    w.Faulty f ⟨.top, m⟩ ∨ w.Leaves f ⟨.top, m⟩ (w.loop f fuel m) ∨
      ∃ m', w.Reaches f ⟨.top, m⟩ ⟨.top, m'⟩ ∧ w.loop f fuel m = m'.fail .outOfTurns
  | 0, m, _ => .inr (.inr ⟨m, .refl, rfl⟩)
  | fuel + 1, m, hm => by
    rw [World.loop]
    rcases turn_reaches (w := w) (f := f) m hm with hbad | hturned
    · exact .inl hbad
    cases hturn : w.turn f m with
    | finished m' =>
      rw [hturn] at hturned
      exact .inr (.inl hturned)
    | again m' =>
      rw [hturn] at hturned
      rcases loop_reaches fuel m' hturned.1 with hbad | hreach | ⟨m'', hreach, heq⟩
      · exact .inl (World.Faulty.of_reaches hturned.top hbad)
      · exact .inr (.inl (World.Leaves.of_reaches hturned.top hreach))
      · exact .inr (.inr ⟨m'', hturned.top.trans hreach, heq⟩)

end MergeGate.Schedule
