/-
What is told of a run by what it has come upon. At every moment the events tell how far it has got
(`Standing`): the processes that were started are those of the run steps of a beginning of the list, and once
the run is over, its exit code and its output are told as well (`Closed`). After a flag that was read as set,
a missing folder or an exit code other than zero no process is started (`Quiet`), and a flag is read as set
exactly if someone has asked before (`Informed`). All this is kept by every move, hence `Runs.told`. The
output is cut down after each process, which comes to the same as to cut it down in the end
(`rtake_rtake_append`).
-/
import Mathlib.Data.List.DropRight
import MergeGate.Proofs.Executor.Moves

namespace MergeGate.Executor

/-! ## What a run has come upon -/

namespace Event

/-- The step that was turned to with the flag not set. -/
def passed? : Event → Option Step
  | turned s false => some s
  | _ => none

/-- The step whose process was started. -/
def start? : Event → Option Step
  | started s => some s
  | _ => none

/-- The exit code of a process. -/
def code? : Event → Option Int
  | ended code _ => some code
  | _ => none

/-- The output of a process. -/
def text : Event → List Char
  | ended _ output => output.toList
  | _ => []

/-- Is a folder missing? -/
def isMissing : Event → Bool
  | missing _ => true
  | _ => false

/-- Is the run cut short by the flag? -/
def cuts : Event → Bool
  | turned _ flag | judged flag => flag
  | _ => false

/-- Does the run go no further? -/
def stops : Event → Bool
  | turned _ flag => flag
  | missing _ | judged _ => true
  | ended code _ => code != 0
  | _ => false

/-- The flag that was read. -/
def flag? : Event → Option Bool
  | turned _ flag | judged flag => some flag
  | _ => none

/-- What the run itself adds to the output. -/
def remark (i : Instance) (root : Place) : Event → List Char
  | missing s => ("\n[" ++ i.id ++ "] step '" ++ s.name ++ "' cwd not found: " ++
      Folder.shown (folderOf root s)).toList
  | turned _ true | judged true => ("\n[" ++ i.id ++ "] cancelled").toList
  | _ => []

end Event

/-- The steps that were turned to with the flag not set. -/
def passes (es : List Event) : List Step := es.filterMap Event.passed?

/-- The steps whose processes were started. -/
def starts (es : List Event) : List Step := es.filterMap Event.start?

/-- The exit codes of the processes. -/
def codes (es : List Event) : List Int := es.filterMap Event.code?

/-- The output of the processes. -/
def texts (es : List Event) : List Char := es.flatMap Event.text

/-- The steps that have a process. -/
def commands (steps : List Step) : List Step := steps.filter (·.run.isSome)

/-- Nothing of it stops the run. -/
def Clear (es : List Event) : Prop := ∀ e ∈ es, e.stops = false

/-- All steps were passed, and each process was started and ended with zero. -/
structure Through (steps : List Step) (es : List Event) : Prop where
  passes_eq : passes es = steps
  starts_eq : starts es = commands steps
  codes_eq : codes es = List.replicate (commands steps).length 0

/-- The exit code of a run that has not gone through. -/
def lastCode (es : List Event) : Option Int :=
  if es.any Event.isMissing then some 1 else ((codes es).filter (· ≠ 0)).getLast?

section

variable {i : Instance} {root : Place} {es es' : List Event} {e : Event}

@[simp] theorem passes_append : passes (es ++ es') = passes es ++ passes es' := List.filterMap_append
@[simp] theorem starts_append : starts (es ++ es') = starts es ++ starts es' := List.filterMap_append
@[simp] theorem codes_append : codes (es ++ es') = codes es ++ codes es' := List.filterMap_append
@[simp] theorem texts_append : texts (es ++ es') = texts es ++ texts es' := List.flatMap_append

@[simp] theorem commands_append (steps steps' : List Step) :
    commands (steps ++ steps') = commands steps ++ commands steps' := List.filter_append ..

@[simp] theorem passes_singleton : passes [e] = e.passed?.toList := by cases h : e.passed? <;> simp [passes, h]
@[simp] theorem starts_singleton : starts [e] = e.start?.toList := by cases h : e.start? <;> simp [starts, h]
@[simp] theorem codes_singleton : codes [e] = e.code?.toList := by cases h : e.code? <;> simp [codes, h]
@[simp] theorem texts_singleton : texts [e] = e.text := by simp [texts]

theorem clear_append : Clear (es ++ es') ↔ Clear es ∧ Clear es' := List.forall_mem_append

theorem clear_singleton : Clear [e] ↔ e.stops = false := List.forall_mem_singleton

theorem Clear.code_eq_zero (h : Clear es) : ∀ c ∈ codes es, c = 0 := by
  intro c hc
  obtain ⟨e, he, hcode⟩ := List.mem_filterMap.1 hc
  cases e with
  | ended code output => simpa [Event.stops, ← Option.some.inj hcode] using h _ he
  | _ => cases hcode

theorem Clear.filter_codes (h : Clear es) : (codes es).filter (· ≠ 0) = [] :=
  List.filter_eq_nil_iff.2 fun c hc => by simp [h.code_eq_zero c hc]

theorem Clear.uncut (h : Clear es) : es.any Event.cuts = false := by
  rw [List.any_eq_false]
  intro e he
  have hstops := h e he
  cases e <;> simp_all [Event.stops, Event.cuts]

theorem Clear.found (h : Clear es) : es.any Event.isMissing = false := by
  rw [List.any_eq_false]
  intro e he
  have hstops := h e he
  cases e <;> simp_all [Event.stops, Event.isMissing]

/-- A run that was not cut short and has found its folders adds nothing to the output. -/
theorem remarks_eq_nil (hfound : es.any Event.isMissing = false) (huncut : es.any Event.cuts = false) :
    es.flatMap (Event.remark i root) = [] := by
  rw [List.flatMap_eq_nil_iff]
  intro e he
  have hmissing := List.any_eq_false.1 hfound e he
  have hcuts := List.any_eq_false.1 huncut e he
  cases e with
  | missing s => exact absurd rfl hmissing
  | turned s flag | judged flag =>
    obtain rfl : flag = false := by simpa [Event.cuts] using hcuts
    rfl
  | _ => rfl

/-- To cut a text down and go on comes to the same as to cut it down in the end. -/
theorem rtake_rtake_append (cs cs' : List Char) (n : Nat) :
    (cs.rtake n ++ cs').rtake n = (cs ++ cs').rtake n := by
  simp only [List.rtake_eq_reverse_take_reverse, List.reverse_append, List.reverse_reverse, List.take_append,
    List.take_take]
  simp

end

/-! ## Where a run stands -/

section

variable (i : Instance) (root : Place) (keep code : Int) (output : String) (es : List Event)

/-- The output is the end of what the processes have written. -/
def Kept : Prop := 0 < keep → output.toList = (texts es).rtake keep.toNat

/-- The run goes on: it has turned to some steps, and has started the processes of some. -/
structure Sofar (turned begun rest : List Step) : Prop where
  steps : i.steps = turned ++ rest
  passes_eq : passes es = turned
  starts_eq : starts es = commands begun
  clear : Clear es
  code_eq : code = 0
  kept : Kept keep output es

/-- A process has ended. -/
structure Waited (turned rest : List Step) : Prop where
  steps : i.steps = turned ++ rest
  passes_eq : passes es = turned
  starts_eq : starts es = commands turned
  even : (codes es).length = (commands turned).length
  failed : (codes es).filter (· ≠ 0) = if code = 0 then [] else [code]
  found : es.any Event.isMissing = false
  uncut : es.any Event.cuts = false
  clear : code = 0 → Clear es
  kept : Kept keep output es

/-- The processes that were started are those of a beginning of the steps. -/
def Begun : Prop := ∃ begun, begun <+: i.steps ∧ starts es = commands begun

/-- The run is over; `cut` tells whether it was cut short. -/
structure Closed (cut : Bool) : Prop where
  prefixed : Begun i es
  even : (codes es).length = (starts es).length
  through : Through i.steps es ↔ cut = false ∧ code = 0
  cuts : es.any Event.cuts = cut
  code_eq : lastCode es = if code = 0 then none else some code
  output : 0 < keep → output.toList ++ (if cut then ("\n[" ++ i.id ++ "] cancelled").toList else []) =
    (texts es).rtake keep.toNat ++ es.flatMap (Event.remark i root)

/-- What holds of what a run has come upon, by what it does next. -/
def Standing : Next → Prop
  | .check rest => ∃ done, Sofar i keep code output es done done rest ∧ (codes es).length = (starts es).length
  | .look s rest | .launch s rest =>
    s.run.isSome = true ∧ ∃ done, Sofar i keep code output es (done ++ [s]) done rest ∧
      (codes es).length = (starts es).length
  | .register s rest | .lookUp s rest | .signal s rest | .await s rest =>
    ∃ done, Sofar i keep code output es (done ++ [s]) (done ++ [s]) rest ∧
      (codes es).length + 1 = (starts es).length
  | .unregister rest => ∃ done, Waited i keep code output es done rest
  | .judge => code ≠ 0 ∧ ∃ done rest, Waited i keep code output es done rest
  | .finish cut | .done cut => Closed i root keep code output es cut
  | .broken _ => Begun i es

end

section

variable {i : Instance} {root : Place} {keep code : Int} {output : String} {es : List Event}
  {turned begun done rest : List Step} {s : Step} {cut : Bool}

theorem Sofar.prefixed (h : Sofar i keep code output es turned begun rest) (hbeginning : begun <+: turned) : Begun i es :=
  ⟨begun, hbeginning.trans (h.steps ▸ List.prefix_append _ _), h.starts_eq⟩

/-- The steps that are left are not all passed. -/
theorem not_through (hsteps : i.steps = done ++ s :: rest) (hpasses : passes es = done) : ¬ Through i.steps es := by
  intro h
  have hlength := congrArg List.length (hpasses.symm.trans (h.passes_eq.trans hsteps))
  simp at hlength

/-- A step that has a process is passed only if the process was started. -/
theorem not_through_of_command (hsteps : i.steps = done ++ s :: rest) (hcommand : s.run.isSome = true)
    (hstarts : starts es = commands done) : ¬ Through i.steps es := by
  intro h
  have hlength := congrArg List.length (hstarts.symm.trans h.starts_eq)
  simp [hsteps, commands, hcommand] at hlength

theorem not_through_of_failed (hfailed : (codes es).filter (· ≠ 0) = [code]) : ¬ Through i.steps es := by
  intro h
  simp [h.codes_eq] at hfailed

theorem Sofar.lastCode_eq (h : Sofar i keep code output es turned begun rest) : lastCode es = none := by
  rw [lastCode, h.clear.found, if_neg Bool.false_ne_true, h.clear.filter_codes, List.getLast?_nil]

/-! ### The steps of the loop -/

theorem Sofar.turn (h : Sofar i keep code output es done done (s :: rest)) :
    Sofar i keep code output (es ++ [.turned s false]) (done ++ [s]) done rest where
  steps := by simp [h.steps]
  passes_eq := by simp [h.passes_eq, Event.passed?]
  starts_eq := by simp [h.starts_eq, Event.start?]
  clear := clear_append.2 ⟨h.clear, clear_singleton.2 rfl⟩
  code_eq := h.code_eq
  kept := fun hkeep => by simpa [Event.text] using h.kept hkeep

theorem Sofar.skip (h : Sofar i keep code output es (done ++ [s]) done rest) (haction : s.run.isSome = false) :
    Sofar i keep code output es (done ++ [s]) (done ++ [s]) rest :=
  { h with starts_eq := by simp [h.starts_eq, commands, haction] }

theorem Sofar.start (h : Sofar i keep code output es (done ++ [s]) done rest) (hcommand : s.run.isSome = true) :
    Sofar i keep code output (es ++ [.started s]) (done ++ [s]) (done ++ [s]) rest where
  steps := h.steps
  passes_eq := by simp [h.passes_eq, Event.passed?]
  starts_eq := by simp [h.starts_eq, commands, hcommand, Event.start?]
  clear := clear_append.2 ⟨h.clear, clear_singleton.2 rfl⟩
  code_eq := h.code_eq
  kept := fun hkeep => by simpa [Event.text] using h.kept hkeep

theorem Sofar.wait (h : Sofar i keep code output es done done rest)
    (heven : (codes es).length + 1 = (starts es).length) {code' : Int} {text : String} :
    Waited i keep code' (String.ofList (tailOf keep (output.toList ++ text.toList)))
      (es ++ [.ended code' text]) done rest where
  steps := h.steps
  passes_eq := by simp [h.passes_eq, Event.passed?]
  starts_eq := by simp [h.starts_eq, Event.start?]
  even := by simp [Event.code?, heven, h.starts_eq]
  failed := by
    rw [codes_append, List.filter_append, h.clear.filter_codes]
    split <;> simp_all [Event.code?]
  found := by simp [h.clear.found, Event.isMissing]
  uncut := by simp [h.clear.uncut, Event.cuts]
  clear := fun hcode => clear_append.2 ⟨h.clear, clear_singleton.2 (by simp [Event.stops, hcode])⟩
  kept := fun hkeep => by
    rw [String.toList_ofList, tailOf, if_pos hkeep, h.kept hkeep, texts_append, texts_singleton]
    exact rtake_rtake_append _ _ _

theorem Waited.goOn (h : Waited i keep code output es done rest) (hcode : code = 0) :
    Sofar i keep code output es done done rest ∧ (codes es).length = (starts es).length :=
  ⟨⟨h.steps, h.passes_eq, h.starts_eq, h.clear hcode, hcode, h.kept⟩, by rw [h.even, h.starts_eq]⟩

/-! ### The ends of the loop -/

theorem Sofar.through (h : Sofar i keep code output es done done []) (heven : (codes es).length = (starts es).length) :
    Closed i root keep code output es false where
  prefixed := h.prefixed (List.prefix_refl _)
  even := heven
  through := by
    have hsteps : done = i.steps := by simpa using h.steps.symm
    have hcodes : codes es = List.replicate (commands i.steps).length 0 :=
      List.eq_replicate_iff.2 ⟨by rw [heven, h.starts_eq, hsteps], h.clear.code_eq_zero⟩
    exact iff_of_true ⟨hsteps ▸ h.passes_eq, hsteps ▸ h.starts_eq, hcodes⟩ ⟨rfl, h.code_eq⟩
  cuts := h.clear.uncut
  code_eq := by rw [h.lastCode_eq, if_pos h.code_eq]
  output := fun hkeep => by
    rw [remarks_eq_nil h.clear.found h.clear.uncut]
    simpa using h.kept hkeep

theorem Sofar.stop (h : Sofar i keep code output es done done (s :: rest))
    (heven : (codes es).length = (starts es).length) :
    Closed i root keep code output (es ++ [.turned s true]) true where
  prefixed := by
    obtain ⟨begun, hbeginning, hstarts⟩ := h.prefixed (List.prefix_refl _)
    exact ⟨begun, hbeginning, by simp [hstarts, Event.start?]⟩
  even := by simpa [Event.code?, Event.start?] using heven
  through := iff_of_false (not_through h.steps (by simp [h.passes_eq, Event.passed?])) (by simp)
  cuts := by simp [Event.cuts]
  code_eq := by simpa [h.code_eq, lastCode, Event.isMissing, Event.code?] using h.lastCode_eq
  output := fun hkeep => by
    simp [remarks_eq_nil h.clear.found h.clear.uncut, h.kept hkeep, Event.text, Event.remark]

theorem Sofar.miss (h : Sofar i keep code output es (done ++ [s]) done rest) (hcommand : s.run.isSome = true)
    (heven : (codes es).length = (starts es).length) :
    Closed i root keep 1 (output ++ "\n[" ++ i.id ++ "] step '" ++ s.name ++ "' cwd not found: " ++
      Folder.shown (folderOf root s)) (es ++ [.missing s]) false where
  prefixed := by
    obtain ⟨begun, hbeginning, hstarts⟩ := h.prefixed (List.prefix_append _ _)
    exact ⟨begun, hbeginning, by simp [hstarts, Event.start?]⟩
  even := by simpa [Event.code?, Event.start?] using heven
  through := by
    have hsteps : i.steps = done ++ s :: rest := by simpa using h.steps
    exact iff_of_false (not_through_of_command hsteps hcommand (by simp [h.starts_eq, Event.start?])) (by simp)
  cuts := by simp [h.clear.uncut, Event.cuts]
  code_eq := by simp [lastCode, Event.isMissing]
  output := fun hkeep => by
    simp [remarks_eq_nil h.clear.found h.clear.uncut, h.kept hkeep, Event.text, Event.remark]

theorem Waited.judge (h : Waited i keep code output es done rest) (hcode : code ≠ 0) {flag : Bool} :
    Closed i root keep code output (es ++ [.judged flag]) flag where
  prefixed := ⟨done, h.steps ▸ List.prefix_append _ _, by simp [h.starts_eq, Event.start?]⟩
  even := by simp [h.even, h.starts_eq, Event.code?, Event.start?]
  through := by
    have hfailed := h.failed
    rw [if_neg hcode] at hfailed
    exact iff_of_false (not_through_of_failed (by simpa [Event.code?] using hfailed)) fun h => hcode h.2
  cuts := by simp [h.uncut, Event.cuts]
  code_eq := by
    have hfailed := h.failed
    rw [if_neg hcode] at hfailed
    simp only [lastCode, List.any_append, h.found, codes_append, List.filter_append, hfailed, if_neg hcode]
    simp [Event.isMissing, Event.code?]
  output := fun hkeep => by
    cases flag <;> simp [remarks_eq_nil h.found h.uncut, h.kept hkeep, Event.text, Event.remark]

end

/-! ## Runs from the start -/

/-- Someone asks to stop. -/
def Event.isAsked : Event → Bool
  | asked => true
  | _ => false

/-- What a run comes upon by itself. -/
def unasked (es : List Event) : List Event := es.filter (!·.isAsked)

section

variable {i : Instance} {root : Place} {keep code : Int} {output : String} {es es' : List Event} {e : Event}
  {steps : List Step} {cut stop : Bool} {m₀ m m' : Machine}

theorem unasked_append_asked : unasked (es ++ [.asked]) = unasked es := by
  simp [unasked, Event.isAsked]

theorem unasked_append (h : e.isAsked = false) : unasked (es ++ [e]) = unasked es ++ [e] := by
  simp [unasked, h]

theorem filterMap_unasked {α : Type} (f : Event → Option α) (h : f .asked = none) (es : List Event) :
    (unasked es).filterMap f = es.filterMap f := by
  rw [unasked, List.filterMap_filter]
  exact List.filterMap_congr fun e _ => by cases e <;> simp [Event.isAsked, h]

theorem any_unasked (p : Event → Bool) (h : p .asked = false) (es : List Event) :
    (unasked es).any p = es.any p := by
  rw [unasked, List.any_filter]
  congr 1
  funext e
  cases e <;> simp [Event.isAsked, h]

theorem flatMap_unasked {α : Type} (f : Event → List α) (h : f .asked = []) (es : List Event) :
    (unasked es).flatMap f = es.flatMap f := by
  induction es with
  | nil => rfl
  | cons e es ih =>
    cases e with
    | asked =>
      rw [List.flatMap_cons, h]
      exact ih
    | _ => exact congrArg (_ ++ ·) ih

theorem starts_unasked (es : List Event) : starts (unasked es) = starts es := filterMap_unasked _ rfl es

theorem codes_unasked (es : List Event) : codes (unasked es) = codes es := filterMap_unasked _ rfl es

theorem through_unasked : Through steps (unasked es) ↔ Through steps es := by
  have hpasses : passes (unasked es) = passes es := filterMap_unasked _ rfl es
  refine ⟨fun h => ⟨hpasses ▸ h.passes_eq, starts_unasked es ▸ h.starts_eq, codes_unasked es ▸ h.codes_eq⟩, fun h => ?_⟩
  exact ⟨hpasses.trans h.passes_eq, (starts_unasked es).trans h.starts_eq, (codes_unasked es).trans h.codes_eq⟩

theorem Closed.of_unasked (h : Closed i root keep code output (unasked es) cut) : Closed i root keep code output es cut where
  prefixed := by
    obtain ⟨begun, hbeginning, hstarts⟩ := h.prefixed
    exact ⟨begun, hbeginning, starts_unasked es ▸ hstarts⟩
  even := starts_unasked es ▸ codes_unasked es ▸ h.even
  through := through_unasked.symm.trans h.through
  cuts := any_unasked Event.cuts rfl es ▸ h.cuts
  code_eq := by simpa only [lastCode, any_unasked Event.isMissing rfl, codes_unasked] using h.code_eq
  output := by simpa only [texts, flatMap_unasked Event.text rfl, flatMap_unasked (Event.remark i root) rfl] using h.output

/-- Where a run stands by what it has come upon. -/
def Machine.Stands (m : Machine) (es : List Event) : Prop :=
  Standing m.subject m.root m.keep m.exitCode m.output (unasked es) m.next

theorem Machine.Stands.begun (h : m.Stands es) : Begun m.subject es := by
  have hbegun : Begun m.subject (unasked es) := by
    unfold Machine.Stands at h
    cases hnext : m.next with
    | check rest =>
      rw [hnext] at h
      obtain ⟨done, hsofar, -⟩ := h
      exact hsofar.prefixed (List.prefix_refl _)
    | look s rest | launch s rest =>
      rw [hnext] at h
      obtain ⟨-, done, hsofar, -⟩ := h
      exact hsofar.prefixed (List.prefix_append _ _)
    | register s rest | lookUp s rest | signal s rest | await s rest =>
      rw [hnext] at h
      obtain ⟨done, hsofar, -⟩ := h
      exact hsofar.prefixed (List.prefix_refl _)
    | unregister rest =>
      rw [hnext] at h
      obtain ⟨done, hwaited⟩ := h
      exact ⟨done, hwaited.steps ▸ List.prefix_append _ _, hwaited.starts_eq⟩
    | judge =>
      rw [hnext] at h
      obtain ⟨-, done, rest, hwaited⟩ := h
      exact ⟨done, hwaited.steps ▸ List.prefix_append _ _, hwaited.starts_eq⟩
    | finish cut | done cut =>
      rw [hnext] at h
      exact Closed.prefixed h
    | broken why =>
      rw [hnext] at h
      exact h
  obtain ⟨begun, hbeginning, hstarts⟩ := hbegun
  exact ⟨begun, hbeginning, starts_unasked es ▸ hstarts⟩

/-- **Every move keeps to where the run stands.** -/
theorem Moves.stands (hmove : Moves m es' m') (h : m.Stands es) : m'.Stands (es ++ es') := by
  have hbegun := h.begun
  unfold Machine.Stands at h ⊢
  cases hmove with
  | through next =>
    rw [next] at h
    obtain ⟨done, hsofar, heven⟩ := h
    rw [List.append_nil]
    exact hsofar.through heven
  | stops next flag =>
    rw [next] at h
    obtain ⟨done, hsofar, heven⟩ := h
    rw [unasked_append rfl]
    exact hsofar.stop heven
  | @skips s rest _ next flag action =>
    rw [next] at h
    obtain ⟨done, hsofar, heven⟩ := h
    rw [unasked_append rfl]
    exact ⟨done ++ [s], hsofar.turn.skip action, by simpa [Event.code?, Event.start?] using heven⟩
  | turns next flag command =>
    rw [next] at h
    obtain ⟨done, hsofar, heven⟩ := h
    rw [unasked_append rfl]
    exact ⟨command, done, hsofar.turn, by simpa [Event.code?, Event.start?] using heven⟩
  | finds next =>
    rw [next] at h
    rwa [List.append_nil]
  | misses next =>
    rw [next] at h
    obtain ⟨command, done, hsofar, heven⟩ := h
    rw [unasked_append rfl]
    exact hsofar.miss command heven
  | baulks next =>
    rw [List.append_nil]
    obtain ⟨begun, hbeginning, hstarts⟩ := hbegun
    exact ⟨begun, hbeginning, (starts_unasked es).trans hstarts⟩
  | launches next =>
    rw [next] at h
    obtain ⟨command, done, hsofar, heven⟩ := h
    rw [unasked_append rfl]
    exact ⟨done, hsofar.start command, by simpa [Event.code?, Event.start?] using heven⟩
  | registers next =>
    rw [next] at h
    rw [List.append_nil]
    cases m.stop <;> exact h
  | looksUp next | signals next =>
    rw [next] at h
    rwa [List.append_nil]
  | collects next ended =>
    rw [next] at h
    obtain ⟨done, hsofar, heven⟩ := h
    rw [unasked_append rfl]
    exact ⟨_, hsofar.wait heven⟩
  | chokes next ended =>
    rw [List.append_nil]
    obtain ⟨begun, hbeginning, hstarts⟩ := hbegun
    exact ⟨begun, hbeginning, (starts_unasked es).trans hstarts⟩
  | unregisters next =>
    rw [next] at h
    obtain ⟨done, hwaited⟩ := h
    rw [List.append_nil]
    by_cases hcode : m.exitCode = 0
    · rw [if_pos hcode]
      exact ⟨done, hwaited.goOn hcode⟩
    · rw [if_neg hcode]
      exact ⟨hcode, done, _, hwaited⟩
  | judges next =>
    rw [next] at h
    obtain ⟨hcode, done, rest, hwaited⟩ := h
    rw [unasked_append rfl]
    exact hwaited.judge hcode
  | clears next =>
    rw [next] at h
    rwa [List.append_nil]
  | ends alive | sends caller => rwa [List.append_nil]
  | asks s => rwa [unasked_append_asked]

/-! ### The order of what is come upon -/

/-- After what stops the run no process is started. -/
def Quiet (es : List Event) : Prop :=
  ∀ before e after, es = before ++ e :: after → e.stops = true → starts after = []

/-- A flag that is read is set if someone has asked before, or it was set from the beginning. -/
def Informed (stop : Bool) (es : List Event) : Prop :=
  ∀ before e after flag, es = before ++ e :: after → e.flag? = some flag →
    (flag = true ↔ stop = true ∨ .asked ∈ before)

/-- What is come upon last either is told from what was before, or has something after it. -/
theorem eq_of_append_singleton {before after : List Event} {x : Event} (h : es ++ [e] = before ++ x :: after) :
    (after = [] ∧ before = es ∧ x = e) ∨ ∃ after', after = after' ++ [e] ∧ es = before ++ x :: after' := by
  obtain rfl | ⟨after', y, rfl⟩ := List.eq_nil_or_concat after
  · obtain ⟨hes, he⟩ := List.append_inj' h rfl
    exact .inl ⟨rfl, hes.symm, (List.singleton_inj.1 he).symm⟩
  · rw [List.concat_eq_append, ← List.cons_append, ← List.append_assoc] at h
    obtain ⟨hes, he⟩ := List.append_inj' h rfl
    exact .inr ⟨after', by rw [List.concat_eq_append, List.singleton_inj.1 he], hes⟩

theorem Quiet.append (h : Quiet es) (hstart : e.start? = none ∨ Clear es) : Quiet (es ++ [e]) := by
  intro before x after heq hstops
  obtain ⟨rfl, -, -⟩ | ⟨after', rfl, hes⟩ := eq_of_append_singleton heq
  · rfl
  · rw [starts_append, h before x after' hes hstops]
    obtain hnone | hclear := hstart
    · simp [hnone]
    · have hx := hclear x (hes ▸ by simp)
      exact absurd hstops (by simp [hx])

theorem Informed.append (h : Informed stop es)
    (hflag : ∀ flag, e.flag? = some flag → (flag = true ↔ stop = true ∨ .asked ∈ es)) :
    Informed stop (es ++ [e]) := by
  intro before x after flag heq hread
  obtain ⟨-, rfl, rfl⟩ | ⟨after', -, hes⟩ := eq_of_append_singleton heq
  · exact hflag flag hread
  · exact h before x after' flag hes hread

/-! ### What moves keep -/

theorem clear_of_unasked (h : Clear (unasked es)) : Clear es := by
  intro e he
  cases hasked : e.isAsked with
  | true => cases e <;> first | rfl | cases hasked
  | false => exact h e (List.mem_filter.2 ⟨he, by rw [hasked]; rfl⟩)

theorem Moves.starts (hmove : Moves m es' m') (h : m.started = starts es) : m'.started = starts (es ++ es') := by
  rw [starts_append, ← h]
  cases hmove with
  | launches => rfl
  | _ => exact (List.append_nil _).symm

theorem Moves.quiet (hmove : Moves m es' m') (hstands : m.Stands es) (h : Quiet es) : Quiet (es ++ es') := by
  cases hmove with
  | launches next =>
    rw [Machine.Stands, next] at hstands
    obtain ⟨-, done, hsofar, -⟩ := hstands
    exact h.append (.inr (clear_of_unasked hsofar.clear))
  | stops | skips | turns | misses | collects | judges | asks => exact h.append (.inl rfl)
  | _ => rwa [List.append_nil]

/-- The run knows whether it has been asked to stop, until it is over. -/
structure Aware (stop : Bool) (m : Machine) (es : List Event) : Prop where
  informed : Informed stop es
  flag : (∀ cut, m.next ≠ .done cut) → (m.stop = true ↔ stop = true ∨ .asked ∈ es)
  lookUp : ∀ s rest, m.next = .lookUp s rest → m.stop = true

theorem Moves.aware (hmove : Moves m es' m') (h : Aware stop m es) : Aware stop m' (es ++ es') := by
  have hflag := h.flag
  cases hmove with
  | stops next flag | skips next flag | turns next flag =>
    have hread := hflag (by simp [next])
    rw [flag] at hread
    refine ⟨h.informed.append fun b hb => ?_, fun _ => ?_, fun _ _ hnext => by cases hnext⟩
    · rwa [← Option.some.inj hb]
    · simpa [flag] using hread
  | judges next =>
    have hread := hflag (by simp [next])
    refine ⟨h.informed.append fun b hb => ?_, fun _ => ?_, fun _ _ hnext => by cases hnext⟩
    · rwa [← Option.some.inj hb]
    · simpa using hread
  | launches next | collects next =>
    refine ⟨h.informed.append (fun b hb => nomatch hb), fun _ => ?_, fun _ _ hnext => by cases hnext⟩
    simpa using hflag (by simp [next])
  | misses next =>
    refine ⟨h.informed.append (fun b hb => nomatch hb), fun _ => ?_, fun _ _ hnext => by cases hnext⟩
    simpa [Machine.looked] using hflag (by simp [next])
  | asks s => exact ⟨h.informed.append (fun b hb => nomatch hb), fun _ => by simp, fun _ _ _ => rfl⟩
  | registers next =>
    rw [List.append_nil]
    refine ⟨h.informed, fun _ => hflag (by simp [next]), fun s rest hnext => ?_⟩
    by_contra hstop
    simp [hstop] at hnext
  | looksUp next =>
    rw [List.append_nil]
    have hstop := h.lookUp _ _ next
    exact ⟨h.informed, fun _ => by simpa [hstop] using hflag (by simp [next]), fun _ _ hnext => by cases hnext⟩
  | unregisters next =>
    rw [List.append_nil]
    refine ⟨h.informed, fun _ => hflag (by simp [next]), fun s rest hnext => ?_⟩
    simp only at hnext
    split at hnext <;> cases hnext
  | clears next =>
    rw [List.append_nil]
    exact ⟨h.informed, fun hopen => absurd rfl (hopen _), fun _ _ hnext => by cases hnext⟩
  | baulks next =>
    rw [List.append_nil]
    exact ⟨h.informed, fun _ => hflag (by rcases next with next | next <;> simp [next]),
      fun _ _ hnext => by cases hnext⟩
  | through next | finds next | signals next | chokes next =>
    rw [List.append_nil]
    exact ⟨h.informed, fun _ => hflag (by simp [next]), fun _ _ hnext => by cases hnext⟩
  | ends | sends =>
    rw [List.append_nil]
    exact ⟨h.informed, hflag, h.lookUp⟩

/-! ### What runs keep -/

/-- Everything that is told of a run from its start by what it has come upon. -/
structure Told (stop : Bool) (es : List Event) (m : Machine) : Prop where
  stands : m.Stands es
  started : m.started = starts es
  quiet : Quiet es
  aware : Aware stop m es

/-- **Everything told of a run holds at every moment of it.** -/
theorem Runs.told (h : Runs (.start i root keep stop) es m) : Told stop es m := by
  refine h.holds (P := Told stop) ?_ fun hm hmove =>
    ⟨hmove.stands hm.stands, hmove.starts hm.started, hmove.quiet hm.stands hm.quiet, hmove.aware hm.aware⟩
  have hstart : Sofar i keep 0 "" [] [] [] i.steps :=
    ⟨rfl, rfl, rfl, List.forall_mem_nil _, rfl, fun _ => by simp [texts, List.rtake]⟩
  refine ⟨⟨[], hstart, rfl⟩, rfl, ?_, ?_, fun _ => ?_, fun _ _ hnext => by cases hnext⟩
  · intro before e after heq
    simp at heq
  · intro before e after flag heq
    simp at heq
  · simp [Machine.start]

end

end MergeGate.Executor
