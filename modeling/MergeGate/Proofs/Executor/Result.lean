/-
The law of a run's result. Whatever is asked of a run in between, and whatever its processes do, its
result is told by what it came upon; and in every surroundings it gives a result, unless a folder cannot
be looked up, a process cannot be started, or what a process writes is no text (`result_law`). The last of
these is no fault of the step: its process may well have ended with zero (`garbled_output_gives_no_result`).
-/
import MergeGate.Proofs.Executor.Standing

namespace MergeGate.Executor

open Shell (Signal)

/-! ## The result -/

/-- The law of a result, by what the run that gives it has come upon. -/
structure Lawful (i : Instance) (root : Place) (keep : Int) (es : List Event) (r : Result) : Prop where
  even : (codes es).length = (starts es).length
  succeeded : r.status = .succeeded ↔ Through i.steps es
  success : Through i.steps es → r.exitCode = some 0 ∧ r.reason = none ∧ r.allowed = false
  failure : ¬ Through i.steps es → r.status = .failed ∧ r.exitCode = lastCode es ∧
    r.reason = some (if es.any Event.cuts then Reason.cancelled else Reason.exit) ∧
    r.allowed = (i.continueOnError && !es.any Event.cuts)
  output : 0 < keep →
    r.outputTail.toList = (texts es).rtake keep.toNat ++ es.flatMap (Event.remark i root)

theorem Closed.lawful_cut {i : Instance} {root : Place} {keep code : Int} {output : String} {es : List Event}
    (h : Closed i root keep code output es true) (duration : Float) :
    Lawful i root keep es (.ofExit i (if code = 0 then none else some code) duration
      (output ++ "\n[" ++ i.id ++ "] cancelled") (some Reason.cancelled)) := by
  have hthrough : ¬ Through i.steps es := fun hthrough => Bool.noConfusion (h.through.1 hthrough).1
  have hcode : ((if code = 0 then none else some code) == some (0 : Int)) = false := by
    split <;> simp_all
  refine ⟨h.even, ?_, ?_, ?_, ?_⟩
  · simp [Result.ofExit, hcode, hthrough]
  · exact fun hall => absurd hall hthrough
  · intro _
    rw [h.cuts, h.code_eq]
    simp [Result.ofExit, hcode]
  · intro hkeep
    rw [← h.output hkeep]
    simp [Result.ofExit]

theorem Closed.lawful {i : Instance} {root : Place} {keep code : Int} {output : String} {es : List Event}
    (h : Closed i root keep code output es false) (duration : Float) :
    Lawful i root keep es (.ofExit i (some code) duration output (some Reason.exit)) := by
  have hthrough : Through i.steps es ↔ code = 0 := h.through.trans (and_iff_right rfl)
  refine ⟨h.even, ?_, ?_, ?_, ?_⟩
  · rw [hthrough]
    by_cases hcode : code = 0 <;> simp [Result.ofExit, hcode]
  · intro hall
    obtain rfl := hthrough.1 hall
    simp [Result.ofExit]
  · intro hopen
    have hcode : code ≠ 0 := mt hthrough.2 hopen
    rw [h.cuts, h.code_eq, if_neg hcode]
    have hreason : (some Reason.exit != some Reason.cancelled) = true := by decide
    simp [Result.ofExit, hcode, hreason]
  · intro hkeep
    rw [← h.output hkeep]
    simp [Result.ofExit]

theorem Told.lawful {stop : Bool} {es : List Event} {m : Machine} {duration : Float} {r : Result}
    (h : Told stop es m) (hresult : m.result? duration = some r) : Lawful m.subject m.root m.keep es r := by
  have hstands := h.stands
  rw [Machine.Stands] at hstands
  simp only [Machine.result?] at hresult
  split at hresult
  · next hnext =>
    rw [hnext] at hstands
    cases hresult
    exact (Closed.of_unasked hstands).lawful_cut duration
  · next hnext =>
    rw [hnext] at hstands
    cases hresult
    exact (Closed.of_unasked hstands).lawful duration
  · cases hresult

/-! ## In its surroundings -/

/-- Folders can be looked up, processes can be started, and what they write is text. -/
structure Surroundings.Smooth {σ : Type} (e : Surroundings σ) : Prop where
  look : ∀ w p why, e.look w p ≠ .unusable why
  start : ∀ w s p, e.hindrance w s p = none
  text : ∀ w s p signals, ∃ output, (e.perform w s p signals).2.1 = .ok output

/-- How many moves are left at most. -/
def Next.rank : Next → Nat
  | .check steps => 8 * steps.length + 2
  | .look _ rest => 8 * rest.length + 9
  | .launch _ rest => 8 * rest.length + 8
  | .register _ rest => 8 * rest.length + 7
  | .lookUp _ rest => 8 * rest.length + 6
  | .signal _ rest => 8 * rest.length + 5
  | .await _ rest => 8 * rest.length + 4
  | .unregister rest => 8 * rest.length + 3
  | .judge => 2
  | .finish _ => 1
  | .done _ | .broken _ => 0

/-- A process that has not been waited for is alive. -/
def Machine.Live (m : Machine) : Prop :=
  match m.next with
  | .register .. | .lookUp .. | .signal .. | .await .. => m.alive.isSome = true
  | _ => True

/-- Has the run broken off? -/
def Next.isBroken : Next → Bool
  | .broken _ => true
  | _ => false

section

variable {σ : Type} {e : Surroundings σ} {m m' : Machine} {w w' : σ}

theorem runs_getD (m : Machine) (a : Act) : ∃ es, Runs m es ((m.act a).getD m) := by
  cases h : m.act a with
  | none => exact ⟨[], .start⟩
  | some m' => exact ⟨_, .one h⟩

theorem send_next (m : Machine) (i : Nat) : ((m.act (.send i)).getD m).next = m.next := by
  simp only [Machine.act]
  split <;> rfl

theorem send_alive (m : Machine) (i : Nat) : ((m.act (.send i)).getD m).alive = m.alive := by
  simp only [Machine.act]
  split <;> rfl

theorem interrupt_next (m : Machine) (s : Signal) : (m.interrupt s).next = m.next := send_next _ _

theorem interrupt_alive (m : Machine) (s : Signal) : (m.interrupt s).alive = m.alive := send_alive _ _

theorem runs_interrupt (m : Machine) (s : Signal) : ∃ es, Runs m es (m.interrupt s) := by
  obtain ⟨es, hes⟩ := runs_getD m (.request s)
  obtain ⟨es', hes'⟩ := runs_getD ((m.act (.request s)).getD m) _
  exact ⟨_, hes.trans hes'⟩

/-- Requests that come between two moves change nothing of what the run does next. -/
theorem interruptAll_spec (ss : List Signal) : ∀ m : Machine,
    (m.interruptAll ss).next = m.next ∧ (m.interruptAll ss).alive = m.alive ∧
      ∃ es, Runs m es (m.interruptAll ss) := by
  induction ss with
  | nil => exact fun m => ⟨rfl, rfl, [], .start⟩
  | cons s ss ih =>
    intro m
    obtain ⟨hnext, halive, es', hes'⟩ := ih (m.interrupt s)
    obtain ⟨es, hes⟩ := runs_interrupt m s
    exact ⟨hnext.trans (interrupt_next m s), halive.trans (interrupt_alive m s), _, hes.trans hes'⟩

/-- A machine comes nearer to its end; it breaks off only where `smooth` fails. -/
structure Advances (smooth : Prop) (m m' : Machine) : Prop where
  runs : ∃ es, Runs m es m'
  live : m'.Live
  rank : m'.next.rank < m.next.rank
  smooth : smooth → m'.next.isBroken = false

theorem Advances.after {smooth : Prop} {m₀ : Machine} (h : Advances smooth m m') (hnext : m.next = m₀.next)
    (hruns : ∃ es, Runs m₀ es m) : Advances smooth m₀ m' where
  runs := by
    obtain ⟨es, hes⟩ := hruns
    obtain ⟨es', hes'⟩ := h.runs
    exact ⟨_, hes.trans hes'⟩
  live := h.live
  rank := hnext ▸ h.rank
  smooth := h.smooth

/-- Does the run make the next move by itself? -/
def Next.isOwn : Next → Bool
  | .look .. | .await .. | .done _ | .broken _ => false
  | _ => true

theorem own_advances (smooth : Prop) (hlive : m.Live) (hown : m.next.isOwn = true) :
    ∃ m', m.act .own = some m' ∧ Advances smooth m m' := by
  suffices h : ∃ m', m.own = some m' ∧ m'.Live ∧ m'.next.rank < m.next.rank ∧ m'.next.isBroken = false by
    obtain ⟨m', hact, hlive', hrank, hbroken⟩ := h
    exact ⟨m', hact, ⟨_, .one (a := .own) hact⟩, hlive', hrank, fun _ => hbroken⟩
  obtain ⟨_, _, _, next, stop, _, _, _, _, _, _, code, _, _⟩ := m
  cases next with
  | check steps =>
    cases steps with
    | nil => exact ⟨_, rfl, trivial, by simp [Next.rank], rfl⟩
    | cons s rest =>
      cases stop with
      | true => exact ⟨_, rfl, trivial, by simp [Next.rank], rfl⟩
      | false =>
        cases hrun : s.run with
        | none =>
          refine ⟨_, by simp only [Machine.own, Bool.false_eq_true, if_false, hrun, Option.isNone_none, if_true]; rfl, ?_⟩
          exact ⟨trivial, by simp [Next.rank], rfl⟩
        | some command =>
          refine ⟨_, by simp only [Machine.own, Bool.false_eq_true, if_false, hrun, Option.isNone_some]; rfl, ?_⟩
          exact ⟨trivial, by simp [Next.rank]; omega, rfl⟩
  | launch s rest => exact ⟨_, rfl, rfl, by simp [Next.rank], rfl⟩
  | register s rest =>
    cases stop with
    | false => exact ⟨_, rfl, hlive, by simp [Next.rank], rfl⟩
    | true => exact ⟨_, rfl, hlive, by simp [Next.rank], rfl⟩
  | lookUp s rest | signal s rest => exact ⟨_, rfl, hlive, by simp [Next.rank], rfl⟩
  | unregister rest =>
    by_cases hcode : code = 0
    · exact ⟨_, rfl, by simp [hcode, Machine.Live], by simp [Next.rank, hcode], by simp [hcode, Next.isBroken]⟩
    · refine ⟨_, rfl, by simp [hcode, Machine.Live], ?_, by simp [hcode, Next.isBroken]⟩
      simp [Next.rank, hcode]
  | judge => exact ⟨_, rfl, trivial, by simp [Next.rank], rfl⟩
  | finish cut => exact ⟨_, rfl, trivial, by simp [Next.rank], rfl⟩
  | look s rest | await s rest | done cut | broken why => cases hown

theorem looked_advances (smooth : Prop) (found : Look) {s : Step} {rest : List Step} (hnext : m.next = .look s rest)
    (hfound : smooth → ∀ why, found ≠ .unusable why) : Advances smooth m (m.looked s rest found) := by
  have hact : m.act (.look found) = some (m.looked s rest found) := by simp only [Machine.act, hnext]
  cases found with
  | there => exact ⟨⟨_, .one hact⟩, trivial, by simp [hnext, Machine.looked, Next.rank], fun _ => rfl⟩
  | missing => exact ⟨⟨_, .one hact⟩, trivial, by simp [hnext, Machine.looked, Next.rank], fun _ => rfl⟩
  | unusable why =>
    exact ⟨⟨_, .one hact⟩, trivial, by simp [hnext, Machine.looked, Next.rank], fun h => absurd rfl (hfound h why)⟩

theorem await_advances (smooth : Prop) (code : Int) {s : Step} {rest : List Step}
    {output : Except Text.Undecodable String} (hlive : m.Live) (hnext : m.next = .await s rest)
    (htext : smooth → ∃ text, output = .ok text) :
    ∃ m₁ m', m.act (.exit code output) = some m₁ ∧ m₁.act .own = some m' ∧ Advances smooth m m' := by
  obtain ⟨_, _, _, next, _, _, alive, _, _, _, _, _, _, _⟩ := m
  obtain rfl : next = .await s rest := hnext
  obtain ⟨p, rfl⟩ := Option.isSome_iff_exists.1 (show alive.isSome = true from hlive)
  cases output with
  | ok text =>
    refine ⟨_, _, rfl, rfl, ⟨_, .trans (.one (a := .exit code (.ok text)) rfl) (.one (a := .own) rfl)⟩, trivial, ?_,
      fun _ => rfl⟩
    simp [Next.rank]
  | error u =>
    refine ⟨_, _, rfl, rfl, ⟨_, .trans (.one (a := .exit code (.error u)) rfl) (.one (a := .own) rfl)⟩, trivial, ?_,
      fun h => ?_⟩
    · simp [Next.rank]
    · obtain ⟨text, htext⟩ := htext h
      cases htext

/-- **A run that is not over can go on**, and comes nearer to its end. -/
theorem move_advances (hlive : m.Live) (hopen : m.next.rank ≠ 0) :
    ∃ m' w', e.move m w = some (m', w') ∧ Advances e.Smooth m m' := by
  obtain ⟨hnext, halive, hruns⟩ := interruptAll_spec (e.requests w m.next) m
  have hlive' : (m.interruptAll (e.requests w m.next)).Live := by
    simpa only [Machine.Live, hnext, halive] using hlive
  rw [Surroundings.move]
  generalize m.interruptAll (e.requests w m.next) = m₁ at *
  have hown : m₁.next.isOwn = true → ∃ m', m₁.act .own = some m' ∧ Advances e.Smooth m m' := fun h => by
    obtain ⟨m', hact, hadvances⟩ := own_advances e.Smooth hlive' h
    exact ⟨m', hact, hadvances.after hnext hruns⟩
  split
  case h_1 s rest h =>
    have hadvances := looked_advances e.Smooth (e.look w (folderOf m₁.root s)) h
      fun hsmooth => hsmooth.look _ _
    refine ⟨m₁.looked s rest (e.look w (folderOf m₁.root s)), w, ?_, hadvances.after hnext hruns⟩
    simp only [Machine.act, h, Option.map_some]
  case h_2 s rest h =>
    split
    · next why hwhy =>
      have hact : m₁.act (.refuse why) = some { m₁ with next := .broken why } := by simp only [Machine.act, h]
      refine ⟨_, _, by rw [hact]; rfl, Advances.after ⟨⟨_, .one hact⟩, trivial, ?_, fun hsmooth => ?_⟩ hnext hruns⟩
      · simp [h, Next.rank]
      · simp [hsmooth.start] at hwhy
    · obtain ⟨m', hact, hadvances⟩ := hown (by rw [h]; rfl)
      exact ⟨m', w, by rw [hact]; rfl, hadvances⟩
  case h_3 s rest h =>
    obtain ⟨m₂, m', hexit, hcollect, hadvances⟩ := await_advances e.Smooth
      (e.perform w s (folderOf m₁.root s) m₁.signals).1 hlive' h
      fun hsmooth => hsmooth.text w s (folderOf m₁.root s) m₁.signals
    refine ⟨m', (e.perform w s (folderOf m₁.root s) m₁.signals).2.2, ?_, hadvances.after hnext hruns⟩
    simp only [hexit, hcollect, Option.bind_eq_bind, Option.bind_some]
    rfl
  case h_4 hlook hlaunch hawait =>
    have hisOwn : m₁.next.isOwn = true := by
      cases h : m₁.next with
      | look s rest => exact absurd h (hlook s rest)
      | await s rest => exact absurd h (hawait s rest)
      | done cut | broken why => simp [← hnext, h, Next.rank] at hopen
      | _ => rfl
    obtain ⟨m', hact, hadvances⟩ := hown hisOwn
    exact ⟨m', w, by rw [hact]; rfl, hadvances⟩

theorem move_eq_none (hover : m.next.rank = 0) : e.move m w = none := by
  obtain ⟨hnext, -, -⟩ := interruptAll_spec (e.requests w m.next) m
  rw [Surroundings.move]
  generalize m.interruptAll (e.requests w m.next) = m₁ at *
  cases h : m.next with
  | done cut | broken why =>
    rw [h] at hnext
    simp only [hnext, Machine.act, Machine.own, Option.map_none]
  | _ => simp [h, Next.rank] at hover

theorem drive_over : ∀ {fuel : Nat} {m : Machine} {w : σ}, m.Live → m.next.rank ≤ fuel →
    (∃ es, Runs m es (e.drive fuel m w).1) ∧ (e.drive fuel m w).1.next.rank = 0 ∧
      (e.Smooth → m.next.isBroken = false → (e.drive fuel m w).1.next.isBroken = false)
  | 0, m, w, _, hrank => ⟨⟨[], .start⟩, Nat.le_zero.1 hrank, fun _ h => h⟩
  | fuel + 1, m, w, hlive, hrank => by
    by_cases hopen : m.next.rank = 0
    · rw [Surroundings.drive, move_eq_none hopen]
      exact ⟨⟨[], .start⟩, hopen, fun _ h => h⟩
    · obtain ⟨m', w', hmove, hadvances⟩ := move_advances (e := e) (w := w) hlive hopen
      have hless := hadvances.rank
      obtain ⟨⟨es', hes'⟩, hover, hsmooth⟩ := drive_over (w := w') hadvances.live (by omega : m'.next.rank ≤ fuel)
      obtain ⟨es, hes⟩ := hadvances.runs
      rw [Surroundings.drive, hmove]
      exact ⟨⟨_, hes.trans hes'⟩, hover, fun h _ => hsmooth h (hadvances.smooth h)⟩

/-- **A run comes to its end** in every surroundings. -/
theorem run_over (e : Surroundings σ) (i : Instance) (root : Place) (keep : Int) (stop : Bool) (w : σ) :
    (∃ es, Runs (.start i root keep stop) es (e.run (.start i root keep stop) w).1) ∧
      (e.run (.start i root keep stop) w).1.next.rank = 0 ∧
      (e.Smooth → (e.run (.start i root keep stop) w).1.next.isBroken = false) := by
  have hrank : (Machine.start i root keep stop).next.rank ≤ 8 * i.steps.length + 4 := by
    simp [Machine.start, Next.rank]
  obtain ⟨hruns, hover, hsmooth⟩ := drive_over (e := e) (w := w) (m := .start i root keep stop) trivial hrank
  exact ⟨hruns, hover, fun h => hsmooth h rfl⟩

theorem result?_isSome (hover : m.next.rank = 0) (hwhole : m.next.isBroken = false) (duration : Float) :
    (m.result? duration).isSome = true := by
  rw [Machine.result?]
  cases h : m.next with
  | done cut => cases cut <;> rfl
  | broken why => simp [h, Next.isBroken] at hwhole
  | _ => simp [h, Next.rank] at hover

end

/-! ## The law -/

/-- **The law of a run's result.** For every interleaving of the run with requests to stop: the processes that
were started are those of the run steps of a beginning of the list, in order, and none was started after a
flag that was read as set, a missing folder or a failed process; a flag is read as set exactly if someone has
asked before; and a result follows `Lawful`. In every surroundings the run ends, and it gives a result where
folders can be looked up, processes can be started and their output is text. -/
theorem result_law (i : Instance) (root : Place) (keep : Int) (stop : Bool) :
    (∀ es m, Runs (.start i root keep stop) es m →
      m.started = starts es ∧ Begun i es ∧ Quiet es ∧ Informed stop es ∧
        ∀ duration r, m.result? duration = some r → Lawful i root keep es r) ∧
    ∀ (σ : Type) (e : Surroundings σ) (w : σ),
      (∃ es, Runs (.start i root keep stop) es (e.run (.start i root keep stop) w).1) ∧
        (e.Smooth → ∀ duration, ((e.run (.start i root keep stop) w).1.result? duration).isSome = true) := by
  refine ⟨fun es m hruns => ?_, fun σ e w => ?_⟩
  · have htold := hruns.told
    have hsubject : m.subject = i := hruns.subject
    have hroot : m.root = root := hruns.root
    have hkeep : m.keep = keep := hruns.keep
    have hbegun := htold.stands.begun
    rw [hsubject] at hbegun
    refine ⟨htold.started, hbegun, htold.quiet, htold.aware.informed, fun duration r hresult => ?_⟩
    have hlawful := htold.lawful hresult
    rwa [hsubject, hroot, hkeep] at hlawful
  · obtain ⟨hruns, hover, hsmooth⟩ := run_over e i root keep stop w
    exact ⟨hruns, fun h duration => result?_isSome hover (hsmooth h) duration⟩

/-! ### Some runs -/

/-- An instance with an action, a step that succeeds and one that does not; it may fail. -/
def instanceSample : Instance where
  job := "build"
  coordinate := []
  index := 0
  steps := [{ name := "checkout", uses := some "actions/checkout" }, { name := "compile", run := some "make" },
    { name := "test", run := some "make test" }, { name := "pack", run := some "make pack" }]
  continueOnError := true

/-- The tests fail, and someone asks to stop while they run. -/
def surroundingsSample : Surroundings Unit where
  requests _ n := match n with
    | .await s _ => if s.name = "test" then [Signal.terminate] else []
    | _ => []
  look _ _ := .there
  hindrance _ _ _ := none
  refused w := w
  perform w s _ _ := if s.name = "test" then (-15, .ok "2 of 7\n", w) else (0, .ok "compiled\n", w)

theorem smooth_sample : surroundingsSample.Smooth where
  look := fun _ _ _ h => nomatch h
  start := fun _ _ _ => rfl
  text := fun _ s _ _ => by
    by_cases h : s.name = "test"
    · exact ⟨"2 of 7\n", by simp [surroundingsSample, h]⟩
    · exact ⟨"compiled\n", by simp [surroundingsSample, h]⟩

theorem result_law_sample :
    let m := (surroundingsSample.run (.start instanceSample ["", "work"] 9 false) ()).1
    ∃ es r, Runs (.start instanceSample ["", "work"] 9 false) es m ∧ surroundingsSample.Smooth ∧
      m.result? 0.0 = some r ∧ Lawful instanceSample ["", "work"] 9 es r ∧
      m.started.map (·.name) = ["compile", "test"] ∧ r.status = .failed ∧ r.exitCode = some (-15) ∧
      r.reason = some "cancelled" ∧ r.allowed = false ∧ r.outputTail = "d\n2 of 7\n\n[build] cancelled" := by
  intro m
  obtain ⟨hlaw, hends⟩ := result_law instanceSample ["", "work"] 9 false
  obtain ⟨⟨es, hruns⟩, hresult⟩ := hends Unit surroundingsSample ()
  obtain ⟨r, hr⟩ := Option.isSome_iff_exists.1 (hresult smooth_sample 0.0)
  obtain ⟨-, -, -, -, hlawful⟩ := hlaw es m hruns
  refine ⟨es, r, hruns, smooth_sample, hr, hlawful 0.0 r hr, by decide +kernel, ?_⟩
  have hfields : (m.result? 0.0).map (fun r => (r.status, r.exitCode, r.reason, r.allowed, r.outputTail)) =
      some (.failed, some (-15), some "cancelled", false, "d\n2 of 7\n\n[build] cancelled") := by decide +kernel
  rw [hr] at hfields
  simpa using hfields

/-- The one process ends with zero and has written a byte that begins no character. -/
def surroundingsGarbled : Surroundings Unit where
  requests _ _ := []
  look _ _ := .there
  hindrance _ _ _ := none
  refused w := w
  perform w _ _ _ := (0, (Text.decode [0xff]).map String.ofList, w)

/-- Where the process of the only step is started and ends with zero, there is no result if its output is
no text. -/
theorem garbled_output_gives_no_result :
    let i : Instance := { instanceSample with steps := [{ name := "write", run := some "printf '\\377'" }] }
    let m := (surroundingsGarbled.run (.start i ["", "work"] 4000 false) ()).1
    m.started.map (·.name) = ["write"] ∧ m.ended.map (·.1) = some 0 ∧
      m.next = .broken (.garbled ⟨0, 0xff, 1, .start⟩) ∧ ∀ duration, m.result? duration = none := by
  intro i m
  have hnext : m.next = .broken (.garbled ⟨0, 0xff, 1, .start⟩) := by rfl
  refine ⟨by decide +kernel, by decide +kernel, hnext, fun duration => ?_⟩
  rw [Machine.result?, hnext]

end MergeGate.Executor
