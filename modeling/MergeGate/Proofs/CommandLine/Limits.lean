/-
Which limits a run gets. A value on the command line was read by its parameter (`readings_read`), and the
settings were checked, so workers and retries are within their bounds. The grace has no bound on the
command line, and the check of the settings is one that not-a-number passes: it is at least zero exactly
when neither of the two lets something else through (`limits_sane`).
-/
import MergeGate.CommandLine.Program
import MergeGate.Proofs.Assoc
import MergeGate.Proofs.Basic
import MergeGate.Proofs.Schema

namespace MergeGate

/-! ## Settings -/

namespace Settings

variable {env : Assoc String} {s : Settings}

theorem check_eq_ok {s' : Settings} (h : check s = .ok s') :
    s' = s ∧ (∀ n, s.maxWorkers = some n → 1 ≤ n) ∧ ¬ s.cancelGrace < 0.0 ∧ 0 ≤ s.reportRetries := by
  have hsigns : check.checkSigns s = .ok s' → s' = s ∧ ¬ s.cancelGrace < 0.0 ∧ 0 ≤ s.reportRetries := by
    intro hs
    rw [check.checkSigns] at hs
    split at hs
    · cases hs
    · next hsign =>
      simp only [Bool.or_eq_true, decide_eq_true_eq, not_or, not_lt] at hsign
      exact ⟨(Except.ok.inj hs).symm, hsign⟩
  rw [check] at h
  split at h
  · next n hn =>
    split at h
    · cases h
    · next hone =>
      obtain ⟨hs, hsign⟩ := hsigns h
      refine ⟨hs, fun m hm => ?_, hsign⟩
      obtain rfl : n = m := by simpa [hn] using hm
      omega
  · next hn =>
    obtain ⟨hs, hsign⟩ := hsigns h
    exact ⟨hs, by simp [hn], hsign⟩

theorem read_grace (h : read env = .ok s) :
    readOr env "GATECI_CANCEL_GRACE" 10.0 Decimal.readFloatOr = .ok s.cancelGrace := by
  simp only [read] at h
  split at h
  all_goals
    simp only [bind_eq_ok, pure_eq_ok] at h
    obtain ⟨_, -, grace, hgrace, _, -, rfl⟩ := h
    exact hgrace

/-- What settings that were accepted hold. -/
theorem ofEnv_eq_ok (h : ofEnv env = .ok s) :
    (∀ n, s.maxWorkers = some n → 1 ≤ n) ∧ ¬ s.cancelGrace < 0.0 ∧ 0 ≤ s.reportRetries ∧
      readOr env "GATECI_CANCEL_GRACE" 10.0 Decimal.readFloatOr = .ok s.cancelGrace := by
  rw [ofEnv, bind_eq_ok] at h
  obtain ⟨s', hread, hcheck⟩ := h
  obtain ⟨rfl, hworkers, hgrace, hretries⟩ := check_eq_ok hcheck
  exact ⟨hworkers, hgrace, hretries, read_grace (mapError_eq_ok.1 hread)⟩

/-- The grace of accepted settings is at least zero unless its variable reads as not-a-number. -/
theorem zero_le_cancelGrace_iff (h : ofEnv env = .ok s) : 0.0 ≤ s.cancelGrace ↔
    ∀ text x, env.lookup "GATECI_CANCEL_GRACE" = some text → Decimal.readFloat? text = some x →
      x.isNaN = false := by
  obtain ⟨-, hsign, -, hread⟩ := ofEnv_eq_ok h
  rw [Decimal.zero_le_iff]
  rw [readOr] at hread
  split at hread
  · next hnone =>
    have hten : (10.0 : Float).isNaN = false := by decide
    have hnan : s.cancelGrace.isNaN = false := by rw [← Except.ok.inj hread, hten]
    exact ⟨fun _ text x htext => by simp [hnone] at htext, fun _ => ⟨hsign, hnan⟩⟩
  · next text htext =>
    rw [Decimal.readFloatOr] at hread
    split at hread
    · next x hx =>
      obtain rfl : x = s.cancelGrace := Except.ok.inj hread
      constructor
      · intro hnan text' x' htext' hx'
        obtain rfl : text = text' := Option.some.inj (htext.symm.trans htext')
        obtain rfl : s.cancelGrace = x' := Option.some.inj (hx.symm.trans hx')
        exact hnan.2
      · intro hnan
        exact ⟨hsign, hnan text _ htext hx⟩
    · cases hread

end Settings

/-! ## Parameters -/

namespace CommandLine

variable {f : Folder} {env : Assoc String} {parameters : List Parameter}

/-- Only parameters of the command are given. -/
theorem sort_given {command : Option String} {early : Bool} {words : List String} {s s' : Sorted}
    (h : sort command parameters early s words = .ok s') (hs : ∀ g ∈ s.given, g.1 ∈ parameters) :
    ∀ g ∈ s'.given, g.1 ∈ parameters := by
  have hadd : ∀ {s : Sorted} {p : Parameter} {name : String} (v : String),
      parameters.find? (·.name == name) = some p → (∀ g ∈ s.given, g.1 ∈ parameters) →
        ∀ g ∈ s.given ++ [(p, v)], g.1 ∈ parameters := by
    intro s p name v hp hs
    refine List.forall_mem_append.2 ⟨hs, ?_⟩
    simpa using List.mem_of_find?_eq_some hp
  fun_induction sort command parameters early s words with
  | case1 => cases h; exact hs
  | case2 => cases h; exact hs
  | case3 => cases h; exact hs
  | case4 _ _ _ _ _ _ ih => exact ih h hs
  | case5 => cases h
  | case6 _ _ _ _ _ _ _ hp _ _ ih => exact ih h (hadd _ hp hs)
  | case7 => cases h
  | case8 _ _ _ _ _ _ _ hp _ _ _ ih => exact ih h (hadd _ hp hs)
  | case9 _ _ _ _ _ _ hp _ _ _ _ ih => exact ih h (hadd _ hp hs)
  | case10 => cases h

theorem standIns_mem {given : Assoc (Parameter × String)} :
    ∀ g ∈ standIns env parameters given, g.1 ∈ parameters := by
  intro g hg
  obtain ⟨p, hp, hstands⟩ := List.mem_filterMap.1 hg
  have hname : g.1 = p := by
    simp only [Option.bind_eq_bind, Option.bind_eq_some_iff] at hstands
    obtain ⟨name, -, hstands⟩ := hstands
    split at hstands
    · simp at hstands
    · obtain ⟨value, -, hvalue⟩ := Option.bind_eq_some_iff.1 hstands
      split at hvalue
      · cases hvalue
      · cases hvalue
        rfl
  rw [hname]
  exact hp

/-- Each value was read from a text by its parameter. -/
theorem readAll_read {command : Option String} : ∀ {given : List (Parameter × String)} {rs : Readings},
    readAll command f given = .ok rs → ∀ r ∈ rs, ∃ g ∈ given, r.1 = g.1.name ∧ g.1.kind.read f g.2 = .ok r.2
  | [], rs, h => by
    cases h
    simp
  | (p, text) :: given, rs, h => by
    simp only [readAll, bind_eq_ok, pure_eq_ok] at h
    obtain ⟨reading, hreading, rest, hrest, rfl⟩ := h
    refine List.forall_mem_cons.2 ⟨⟨(p, text), List.mem_cons_self, rfl, mapError_eq_ok.1 hreading⟩, ?_⟩
    intro r hr
    obtain ⟨g, hg, hread⟩ := readAll_read hrest r hr
    exact ⟨g, List.mem_cons_of_mem _ hg, hread⟩

theorem readings_read {command : Command} {words : List String} {rs : Readings}
    (h : readings command f env words = .ok rs) :
    ∀ r ∈ rs, ∃ p ∈ command.parameters, r.1 = p.name ∧ ∃ text, p.kind.read f text = .ok r.2 := by
  simp only [readings, bind_eq_ok] at h
  obtain ⟨s, hsort, h⟩ := h
  split at h
  · cases h
  simp only [bind_eq_ok, pure_eq_ok] at h
  obtain ⟨rs', hread, -, -, rfl⟩ := h
  have hgiven : ∀ g ∈ s.given, g.1 ∈ command.parameters := sort_given hsort (by simp)
  have hlast : ∀ e ∈ s.last, e.2.1 ∈ command.parameters := by
    refine Assoc.forall_ofPairs (P := fun g : Parameter × String => g.1 ∈ command.parameters) fun e he => ?_
    obtain ⟨g, hg, rfl⟩ := List.mem_map.1 he
    exact hgiven g hg
  intro r hr
  obtain ⟨g, hg, hname, hg'⟩ := readAll_read hread r hr
  refine ⟨g.1, ?_, hname, g.2, hg'⟩
  rcases List.mem_append.1 hg with hg | hg
  · obtain ⟨e, he, rfl⟩ := List.mem_map.1 hg
    exact hlast e he
  · exact standIns_mem g hg

/-- A number that was given is no less than its parameter asks. -/
theorem least_le_count {name : String} {command : Command} {least n : Int} {words : List String} {rs : Readings}
    (h : readings command f env words = .ok rs)
    (hkind : ∀ p ∈ command.parameters, p.name = name → p.kind = .count least) (hn : count? rs name = some n) :
    least ≤ n := by
  have hlookup : rs.lookup name = some (.count n) := by
    rw [count?] at hn
    split at hn
    · next hlookup => rw [hlookup, Option.some.inj hn]
    · cases hn
  obtain ⟨p, hp, hname, text, hread⟩ := readings_read h _ (Assoc.mem_of_lookup hlookup)
  rw [hkind p hp hname.symm, Kind.read] at hread
  split at hread
  · cases hread
  · split at hread
    · cases hread
    · cases hread
      omega

theorem kind_of_workers : ∀ p ∈ runCommand.parameters, p.name = "--workers" → p.kind = .count 1 := by
  simp [runCommand, workflowParameter, triggerParameters, runParameters, helpParameter]

theorem kind_of_retries : ∀ p ∈ runCommand.parameters, p.name = "--retries" → p.kind = .count 0 := by
  simp [runCommand, workflowParameter, triggerParameters, runParameters, helpParameter]

/-- The words of a run are read by the parameters of runs. -/
theorem ofWords_run_read {words : List String} {console : Console} {named : Option String}
    {t : TriggerWords} {w : RunWords}
    (h : Invocation.ofWords f env words = .ok ⟨console, .run named t w⟩) :
    ∃ rest rs, readings runCommand f env rest = .ok rs ∧ w = .ofReadings rs := by
  simp only [Invocation.ofWords, bind_eq_ok] at h
  obtain ⟨s, -, h⟩ := h
  split at h
  · cases h
  · next command rest _ =>
    simp only [bind_eq_ok, pure_eq_ok, Invocation.mk.injEq] at h
    obtain ⟨action, haction, -, rfl⟩ := h
    unfold actionOf at haction
    split at haction
    · simp only [bind_eq_ok, pure_eq_ok] at haction
      obtain ⟨rs, -, haction⟩ := haction
      cases haction
    · simp only [bind_eq_ok, pure_eq_ok] at haction
      obtain ⟨rs, -, haction⟩ := haction
      cases haction
    · simp only [bind_eq_ok, pure_eq_ok] at haction
      obtain ⟨rs, hrs, haction⟩ := haction
      cases haction
      exact ⟨rest, rs, hrs, rfl⟩
    · split at haction
      · simp only [bind_eq_ok] at haction
        obtain ⟨_, _, haction⟩ := haction
        cases haction
      · cases haction

/-- **Limits.** Of the limits that a command line and accepted settings give a run, the workers are at
least one if they are limited, and the retries are not negative. The grace is a number that is at least
zero exactly when the one on the command line is, or, without one there, that of the environment does not
read as not-a-number: nothing else is let through. -/
theorem limits_sane {words : List String} {console : Console} {named : Option String} {t : TriggerWords}
    {w : RunWords} {settings : Settings}
    (hwords : Invocation.ofWords f env words = .ok ⟨console, .run named t w⟩)
    (hsettings : Settings.ofEnv env = .ok settings) :
    (∀ n, (Limits.of settings w).workers = some n → 1 ≤ n) ∧
    0 ≤ (Limits.of settings w).retries ∧
    (0.0 ≤ (Limits.of settings w).grace ↔ (∀ x, w.grace = some x → 0.0 ≤ x) ∧
      (w.grace = none → ∀ text x, env.lookup "GATECI_CANCEL_GRACE" = some text →
        Decimal.readFloat? text = some x → x.isNaN = false)) := by
  obtain ⟨rest, rs, hread, rfl⟩ := ofWords_run_read hwords
  obtain ⟨hworkers, -, hretries, -⟩ := Settings.ofEnv_eq_ok hsettings
  refine ⟨fun n hn => ?_, ?_, ?_⟩
  · rcases Option.or_eq_some_iff.1 hn with hgiven | ⟨-, hset⟩
    · exact least_le_count hread kind_of_workers hgiven
    · exact hworkers n hset
  · show 0 ≤ (count? rs "--retries").getD settings.reportRetries
    cases hgiven : count? rs "--retries" with
    | none => exact hretries
    | some n => exact least_le_count hread kind_of_retries hgiven
  · show 0.0 ≤ ((RunWords.ofReadings rs).grace).getD settings.cancelGrace ↔ _
    cases (RunWords.ofReadings rs).grace with
    | none => simp [Settings.zero_le_cancelGrace_iff hsettings]
    | some x => simp

/-- A time on the command line stands before that of the environment, which is none. -/
theorem limits_sane_commandLine : ∃ console named t w settings,
    Invocation.ofWords { home := ["", "work"] } [("GATECI_CANCEL_GRACE", "nan"), ("GATECI_REPORT_RETRIES", "5")]
      ["run", "--workers", "2", "--grace", "1.5"] = .ok ⟨console, .run named t w⟩ ∧
    Settings.ofEnv [("GATECI_CANCEL_GRACE", "nan"), ("GATECI_REPORT_RETRIES", "5")] = .ok settings ∧
    (Limits.of settings w).workers = some 2 ∧ (Limits.of settings w).retries = 5 ∧
    0.0 ≤ (Limits.of settings w).grace := by
  have hwords : Invocation.ofWords { home := ["", "work"] }
      [("GATECI_CANCEL_GRACE", "nan"), ("GATECI_REPORT_RETRIES", "5")]
      ["run", "--workers", "2", "--grace", "1.5"] =
      .ok ⟨{}, .run none {} { workers := some 2, grace := Decimal.readFloat? "1.5" }⟩ := rfl
  have hread : (Decimal.readFloat? "1.5").any (0.0 ≤ ·) = true := by decide +kernel
  obtain ⟨x, hx, hzero⟩ := (Option.any_eq_true _ _).1 hread
  obtain ⟨settings, hsettings, hretries⟩ : ∃ s, Settings.ofEnv
      [("GATECI_CANCEL_GRACE", "nan"), ("GATECI_REPORT_RETRIES", "5")] = .ok s ∧ s.reportRetries = 5 :=
    ⟨_, rfl, rfl⟩
  refine ⟨_, _, _, _, settings, hwords, hsettings, rfl, hretries, ?_⟩
  refine (limits_sane hwords hsettings).2.2.2 ⟨fun y hy => ?_, fun hfree => ?_⟩
  · obtain rfl : x = y := Option.some.inj (hx.symm.trans hy)
    exact of_decide_eq_true hzero
  · cases hx.symm.trans hfree

/-- A time below zero is taken from the command line, and not-a-number from there and from the
environment. -/
theorem limits_not_sane :
    let f : Folder := { home := ["", "work"] }
    let graceOf (env : Assoc String) (words : List String) : Option Float :=
      match Invocation.ofWords f env words, Settings.ofEnv env with
      | .ok ⟨_, .run _ _ w⟩, .ok settings => some (Limits.of settings w).grace
      | _, _ => none
    ∃ x y z, graceOf [] ["run", "--grace", "-1"] = some x ∧ x < 0.0 ∧
      graceOf [] ["run", "--grace", "nan"] = some y ∧ y.isNaN = true ∧
      graceOf [("GATECI_CANCEL_GRACE", "nan")] ["run"] = some z ∧ z.isNaN = true := by
  refine ⟨_, _, _, rfl, ?_, rfl, ?_, rfl, ?_⟩
  · decide +kernel
  · decide +kernel
  · decide +kernel

end CommandLine

end MergeGate
