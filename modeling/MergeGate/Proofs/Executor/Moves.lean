/-
The moves of a run, with whatever others do in between. All that a move can do is said once
(`moves_of_act`); what a run keeps is proved for these moves and never again for the machine. What a
run comes upon on its way (`Event`) is kept beside it, so that its result can be told from it.
-/
import MergeGate.Executor.Basic

namespace MergeGate.Executor

open Shell (Signal)

/-- What a run comes upon. -/
inductive Event where
  /-- someone asks it to stop -/
  | asked
  /-- it turns to a step and reads the stop flag -/
  | turned (step : Step) (flag : Bool)
  /-- the folder of a step is missing -/
  | missing (step : Step)
  /-- the process of a step is started -/
  | started (step : Step)
  /-- the process that it waited for has ended -/
  | ended (code : Int) (output : String)
  /-- that process has failed, and it reads the stop flag -/
  | judged (flag : Bool)

/-- What is come upon in a move. -/
def Machine.shows (m : Machine) : Act → List Event
  | .own => match m.next with
    | .check (s :: _) => [.turned s m.stop]
    | .launch s _ => [.started s]
    | .await .. => match m.ended with
      | some (code, .ok output) => [.ended code output]
      | _ => []
    | .judge => [.judged m.stop]
    | _ => []
  | .look .missing => match m.next with
    | .look s _ => [.missing s]
    | _ => []
  | .request _ => [.asked]
  | _ => []

/-- Moves that lead from a machine to another, with what is come upon in them. -/
inductive Runs (m₀ : Machine) : List Event → Machine → Prop
  | start : Runs m₀ [] m₀
  | move {es : List Event} {m m' : Machine} {a : Act} (before : Runs m₀ es m) (act : m.act a = some m') :
      Runs m₀ (es ++ m.shows a) m'

/-- Everything that a move can do, and what is come upon in it. -/
inductive Moves (m : Machine) : List Event → Machine → Prop
  | through (next : m.next = .check []) : Moves m [] { m with next := .finish false }
  | stops {s : Step} {rest : List Step} (next : m.next = .check (s :: rest)) (flag : m.stop = true) :
      Moves m [.turned s true] { m with next := .finish true }
  | skips {s : Step} {rest : List Step} {ns : List Notice} (next : m.next = .check (s :: rest))
      (flag : m.stop = false) (action : s.run.isSome = false) :
      Moves m [.turned s false] { m with next := .check rest, notices := ns }
  | turns {s : Step} {rest : List Step} {ns : List Notice} (next : m.next = .check (s :: rest))
      (flag : m.stop = false) (command : s.run.isSome = true) :
      Moves m [.turned s false] { m with next := .look s rest, notices := ns }
  | finds {s : Step} {rest : List Step} (next : m.next = .look s rest) :
      Moves m [] { m with next := .launch s rest }
  | misses {s : Step} {rest : List Step} (next : m.next = .look s rest) :
      Moves m [.missing s] (m.looked s rest .missing)
  | baulks {s : Step} {rest : List Step} {why : Breakage} (next : m.next = .look s rest ∨ m.next = .launch s rest) :
      Moves m [] { m with next := .broken why }
  | launches {s : Step} {rest : List Step} (next : m.next = .launch s rest) :
      Moves m [.started s] { m with
        next := .register s rest, alive := some m.started.length, ended := none, started := m.started ++ [s] }
  | registers {s : Step} {rest : List Step} (next : m.next = .register s rest) :
      Moves m [] { m with
        next := if m.stop then .lookUp s rest else .await s rest, registered := some (m.started.length - 1) }
  | looksUp {s : Step} {rest : List Step} (next : m.next = .lookUp s rest) :
      Moves m [] { m with next := .signal s rest, stop := true }
  | signals {s : Step} {rest : List Step} (next : m.next = .signal s rest) :
      Moves m [] { m with
        next := .await s rest
        signalled := m.signalled ++ (m.alive.map fun p => (p, Signal.terminate)).toList }
  | collects {s : Step} {rest : List Step} {code : Int} {output : String} (next : m.next = .await s rest)
      (ended : m.ended = some (code, .ok output)) :
      Moves m [.ended code output] { m with
        next := .unregister rest, exitCode := code
        output := String.ofList (tailOf m.keep (m.output.toList ++ output.toList)) }
  | chokes {s : Step} {rest : List Step} {code : Int} {u : Text.Undecodable} (next : m.next = .await s rest)
      (ended : m.ended = some (code, .error u)) :
      Moves m [] { m with next := .broken (.garbled u), registered := none }
  | unregisters {rest : List Step} (next : m.next = .unregister rest) :
      Moves m [] { m with next := if m.exitCode = 0 then .check rest else .judge, registered := none }
  | judges (next : m.next = .judge) : Moves m [.judged m.stop] { m with next := .finish m.stop }
  | clears {cut : Bool} (next : m.next = .finish cut) :
      Moves m [] { m with next := .done cut, stop := false }
  | ends {p : Nat} {e : Int × Except Text.Undecodable String} (alive : m.alive = some p) :
      Moves m [] { m with alive := none, ended := some e }
  | asks (s : Signal) :
      Moves m [.asked] { m with stop := true, callers := m.callers ++ [(m.registered, s)] }
  | sends {i : Nat} {found : Option Nat} {s : Signal} (caller : m.callers[i]? = some (found, s)) :
      Moves m [] { m with
        callers := m.callers.eraseIdx i
        signalled := m.signalled ++
          ((if found.isSome && found == m.alive then found else none).map fun p => (p, s)).toList }

variable {m₀ m m' m'' : Machine} {es es' : List Event}

theorem moves_of_own (h : m.own = some m') : Moves m (m.shows .own) m' := by
  obtain ⟨_, _, _, next, stop, _, _, ended, _, _, _, _, _, _⟩ := m
  cases next with
  | check steps =>
    cases steps with
    | nil =>
      cases h
      exact .through rfl
    | cons s rest =>
      cases stop with
      | true =>
        cases h
        exact .stops rfl rfl
      | false =>
        simp only [Machine.own, Bool.false_eq_true, if_false] at h
        split at h
        · next action =>
          cases h
          exact .skips rfl rfl (Option.isSome_eq_false_iff.2 action)
        · next command =>
          cases h
          exact .turns rfl rfl (Option.isSome_iff_ne_none.2 fun hnone => command (Option.isNone_iff_eq_none.2 hnone))
  | launch s rest =>
    cases h
    exact .launches rfl
  | register s rest =>
    cases h
    exact .registers rfl
  | lookUp s rest =>
    cases h
    exact .looksUp rfl
  | signal s rest =>
    cases h
    exact .signals rfl
  | await s rest =>
    obtain ⟨⟨code, output⟩, rfl, rfl⟩ := Option.map_eq_some_iff.1 h
    cases output with
    | ok output => exact .collects rfl rfl
    | error u => exact .chokes rfl rfl
  | unregister rest =>
    cases h
    exact .unregisters rfl
  | judge =>
    cases h
    exact .judges rfl
  | finish cut =>
    cases h
    exact .clears rfl
  | look s rest => cases h
  | done cut => cases h
  | broken why => cases h

/-- **A move does one of the things that `Moves` lists.** -/
theorem moves_of_act {a : Act} (h : m.act a = some m') : Moves m (m.shows a) m' := by
  cases a with
  | own => exact moves_of_own h
  | look found =>
    simp only [Machine.act] at h
    split at h
    · next s rest next =>
      cases h
      cases found with
      | there => exact .finds next
      | missing => simpa only [Machine.shows, next] using .misses next
      | unusable why => exact .baulks (.inl next)
    · cases h
  | refuse why =>
    simp only [Machine.act] at h
    split at h
    · next s rest next =>
      cases h
      exact .baulks (.inr next)
    · cases h
  | exit code output =>
    simp only [Machine.act] at h
    split at h
    · next p alive =>
      cases h
      exact .ends alive
    · cases h
  | request s =>
    cases h
    exact .asks s
  | send i =>
    simp only [Machine.act] at h
    split at h
    · next found s caller =>
      cases h
      exact .sends caller
    · cases h

/-! ## Runs -/

namespace Runs

theorem one {a : Act} (h : m.act a = some m') : Runs m (m.shows a) m' := .move .start h

theorem trans (h : Runs m₀ es m) (h' : Runs m es' m') : Runs m₀ (es ++ es') m' := by
  induction h' with
  | start => simpa using h
  | move _ act ih => simpa only [List.append_assoc] using ih.move act

/-- What holds at the start, and is kept by every move, holds at every moment of a run. -/
theorem holds {P : List Event → Machine → Prop} (hstart : P [] m₀)
    (hmove : ∀ {es es' m m'}, P es m → Moves m es' m' → P (es ++ es') m') (h : Runs m₀ es m) : P es m := by
  induction h with
  | start => exact hstart
  | move _ act ih => exact hmove ih (moves_of_act act)

theorem subject (h : Runs m₀ es m) : m.subject = m₀.subject :=
  h.holds (P := fun _ m => m.subject = m₀.subject) rfl fun hm hmove => by cases hmove <;> exact hm

theorem root (h : Runs m₀ es m) : m.root = m₀.root :=
  h.holds (P := fun _ m => m.root = m₀.root) rfl fun hm hmove => by cases hmove <;> exact hm

theorem keep (h : Runs m₀ es m) : m.keep = m₀.keep :=
  h.holds (P := fun _ m => m.keep = m₀.keep) rfl fun hm hmove => by cases hmove <;> exact hm

end Runs

end MergeGate.Executor
