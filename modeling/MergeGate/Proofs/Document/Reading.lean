/-
Reading a document. Its gate section, its jobs and their needs, steps and variables are read off it as it
stands (`gateIn`, `advisoryIn`, `jobsIn`, `needsIn`, `stepsIn`, `envIn`). The records of the schema stand
between the document and the workflow that it declares; each of them is opened once, to say that it holds
what is read (`StepMeans`, `JobMeans`, `Reads`), and so the workflow says the same (`Declares`).
-/
import MergeGate.Proofs.Loading
import MergeGate.Proofs.Schema.Reading

namespace MergeGate.Document

open Schema

variable {v : Value} {es : List (Value × Value)}

/-! ## Reading a document -/

/-- The gate section. -/
def gateIn (v : Value) : List (Value × Value) := entriesIn "gate" v.entriesOf

/-- Do jobs decide the gate, unless they say otherwise? -/
def gateCritical (v : Value) : Bool := (fieldIn? bool "critical" (gateIn v)).getD true

/-- The policy of needs that have none of their own. -/
def gateRequire (v : Value) : String := (fieldIn? (oneOf policies) "require" (gateIn v)).getD "success"

/-- The jobs listed as advisory. -/
def advisoryIn (v : Value) : List String :=
  (itemsIn "advisory" (gateIn v)).filterMap fun x => (text x).toOption

/-- The jobs under their ids. -/
def jobsIn (v : Value) : Assoc Value := pairsOf (entriesIn "jobs" v.entriesOf)

/-- What a job says of itself: whether it decides the gate. -/
def ownCritical (j : Value) : Option Bool := fieldIn? bool "critical" j.entriesOf

/-- A need: the text of an id, or an id and perhaps a policy. -/
def needIn (x : Value) : Need :=
  match (text x).toOption with
  | some id => ⟨id, none⟩
  | none => ⟨(fieldIn? text "job" x.entriesOf).getD "", fieldIn? (oneOf policies) "require" x.entriesOf⟩

/-- The needs of a job: a text is one need. -/
def needsIn (j : Value) : List Need :=
  match Value.field? "needs" j.entriesOf with
  | none => []
  | some x => match (text x).toOption with
    | some id => [⟨id, none⟩]
    | none => x.itemsOf.map needIn

/-- The steps of a job. -/
def stepsIn (j : Value) : List Value := itemsIn "steps" j.entriesOf

/-- The text for a variable's value: a truth value in lower case, all else as it is written. -/
def wordOf : Value → String
  | .bool true => "true"
  | .bool false => "false"
  | .bytes bs => (decoded? bs).getD ""
  | v => v.plain

/-- Variables, each with a text. -/
def envIn (es : List (Value × Value)) : Assoc Value :=
  (pairsOf (entriesIn "env" es)).map fun p => (p.1, .text (wordOf p.2))

/-! ## Variables -/

theorem envTexts_eq_ok : ∀ {m m' : Assoc Value}, envTexts m = .ok m' →
    m' = m.map fun p => (p.1, .text (envText p.2))
  | [], m', h => by
    cases h
    rfl
  | (k, v) :: m, m', h => by
    rw [envTexts] at h
    split at h
    · cases h
    · obtain ⟨rest, hrest, rfl⟩ := map_eq_ok.1 h
      rw [envTexts_eq_ok hrest]
      rfl

theorem envText_of_scalar {a : Value} (h : scalar v = .ok a) : envText a = wordOf v := by
  cases v with
  | bytes bs =>
    simp only [scalar] at h
    split at h
    · next s hs =>
      cases h
      simp [wordOf, hs, envText, Value.plain]
    · cases h
  | bool b =>
    cases h
    cases b <;> rfl
  | int n => cases h; rfl
  | float x => cases h; rfl
  | text s => cases h; rfl
  | _ => simp [scalar, Value.isScalar] at h

/-- The variables of a checked record are those of the entries it was read from. -/
theorem env_means {m m' : Assoc Value} (hm : env es = .ok m) (hm' : envTexts m = .ok m') : m' = envIn es := by
  rw [envTexts_eq_ok hm', envIn]
  symm
  apply map_eq_of_forall₂ (pairs_of_defaulted hm)
  intro p q hpq
  rw [hpq.1, envText_of_scalar hpq.2]

/-! ## Steps -/

/-- What a step of a document says of the declared one: it has a command or an action, and not both. -/
structure StepMeans (x : Value) (s : Step) : Prop where
  run : s.run = fieldIn? text "run" x.entriesOf
  uses : s.uses = fieldIn? text "uses" x.entriesOf
  one : s.run.isSome ≠ s.uses.isSome
  env : s.env = envIn x.entriesOf

theorem textField_means {name : String} {o : Option String} (h : textField name es = .ok o) :
    o = fieldIn? text name es := field_of_optional rfl h

theorem step_means {x : Value} {d : StepDoc} {s : Step} (hd : step x = .ok d) (hrun : s.run = d.run)
    (huses : s.uses = d.uses) (henv : envTexts d.env = .ok s.env) : StepMeans x s := by
  simp only [step, bind_eq_ok] at hd
  obtain ⟨es, hrecord, d', hfields, hd⟩ := hd
  obtain rfl := record_entries hrecord
  split at hd
  · cases hd
  · next hone =>
    cases hd
    simp only [stepFields, both_eq_ok, map_eq_ok] at hfields
    obtain ⟨_, vars, ⟨_, dir, ⟨_, uses, ⟨_, run, ⟨_, _, rfl⟩, hr, rfl⟩, hu, rfl⟩, _, rfl⟩, hvars, rfl⟩ := hfields
    refine ⟨hrun.trans (textField_means hr), huses.trans (textField_means hu), ?_, env_means hvars henv⟩
    rw [hrun, huses]
    cases run <;> cases uses <;> simp at hone ⊢

theorem toSteps_forall₂ : ∀ {ds : List StepDoc} {n : Nat} {ss : List Step}, toSteps n ds = .ok ss →
    List.Forall₂ (fun d s => s.run = d.run ∧ s.uses = d.uses ∧ envTexts d.env = .ok s.env) ds ss
  | [], n, ss, h => by
    cases h
    exact .nil
  | d :: ds, n, ss, h => by
    simp only [toSteps, bind_eq_ok, pure_eq_ok] at h
    obtain ⟨vars, hvars, rest, hrest, rfl⟩ := h
    exact .cons ⟨rfl, rfl, hvars⟩ (toSteps_forall₂ hrest)

theorem steps_mean {xs : List Value} {ds : List StepDoc} {ss : List Step}
    (hds : List.Forall₂ (fun x d => step x = .ok d) xs ds) (hss : toSteps 1 ds = .ok ss) :
    List.Forall₂ StepMeans xs ss := by
  refine forall₂_trans ?_ hds (toSteps_forall₂ hss)
  intro x d s hd hs
  exact step_means hd hs.1 hs.2.1 hs.2.2

/-! ## Needs -/

theorem need_means {x : Value} {d : NeedDoc} (h : need x = .ok d) : needIn x = ⟨d.job, d.require⟩ := by
  rcases orElse_cases h with htext | ⟨hnone, hfields⟩
  · obtain ⟨id, hid, rfl⟩ := map_eq_ok.1 htext
    rw [needIn, toOption_of_eq_ok hid]
  · simp only [needFields, bind_eq_ok, both_eq_ok, map_eq_ok] at hfields
    obtain ⟨es, hrecord, _, _, ⟨_, ⟨_, require, ⟨id, hid, rfl⟩, hrequire, rfl⟩, rfl⟩, _, rfl⟩ := hfields
    obtain rfl := record_entries hrecord
    rw [needIn, map_toOption_eq_none hnone]
    simp only [field_of_required hid, field_of_optional rfl hrequire, Option.getD_some]

theorem needs_means {j : Value} {ds : List NeedDoc} (h : defaulted "needs" [] needs j.entriesOf = .ok ds) :
    needsIn j = ds.map fun d => ⟨d.job, d.require⟩ := by
  rcases defaulted_eq_ok.1 h with ⟨hfield, rfl⟩ | ⟨x, hfield, hx⟩
  · rw [needsIn, hfield]
    rfl
  · rw [needsIn, hfield]
    rcases orElse_cases hx with htext | ⟨hnone, hlist⟩
    · obtain ⟨id, hid, rfl⟩ := map_eq_ok.1 htext
      simp only [toOption_of_eq_ok hid]
      rfl
    · simp only [map_toOption_eq_none hnone]
      exact map_eq_of_forall₂ (list_forall₂ hlist) fun _ _ hd => need_means hd

/-- A policy that is read is one of the known ones. -/
theorem require_mem {name : String} {r : String} (h : fieldIn? (oneOf policies) name es = some r) : r ∈ policies := by
  obtain ⟨x, -, hx⟩ := Option.bind_eq_some_iff.1 h
  cases x with
  | text s =>
    simp only [oneOf] at hx
    split at hx
    · next hs =>
      cases hx
      simpa using hs
    · cases hx
  | _ => cases hx

/-- No policy that a document names is empty. -/
theorem require_of_needIn {x : Value} : (needIn x).require.filter (· != "") = (needIn x).require := by
  cases hrequire : (needIn x).require with
  | none => rfl
  | some r =>
    have hmem : r ∈ policies := by
      rw [needIn] at hrequire
      split at hrequire
      · cases hrequire
      · exact require_mem hrequire
    have hne : (r != "") = true := by
      simp only [policies, List.mem_cons, List.not_mem_nil, or_false] at hmem
      rcases hmem with rfl | rfl <;> decide
    rw [Option.filter_some, if_pos hne]

theorem require_of_needsIn {j : Value} : ∀ n ∈ needsIn j, n.require.filter (· != "") = n.require := by
  intro n hn
  rw [needsIn] at hn
  split at hn
  · cases hn
  · split at hn
    · obtain rfl := List.mem_singleton.1 hn
      rfl
    · obtain ⟨x, -, rfl⟩ := List.mem_map.1 hn
      exact require_of_needIn

/-! ## Jobs -/

/-- A checked job holds what is read off the job. -/
structure JobReads (x : Value) (d : JobDoc) : Prop where
  critical : d.critical = ownCritical x
  needs : (d.needs.map fun n => ⟨n.job, n.require⟩) = needsIn x
  steps : List.Forall₂ (fun y s => step y = .ok s) (stepsIn x) d.steps
  env : ∀ m, envTexts d.env = .ok m → m = envIn x.entriesOf

theorem job_reads {x : Value} {d : JobDoc} (h : job x = .ok d) : JobReads x d := by
  -- One layer for each field of the record, the last field outermost.
  simp only [job, bind_eq_ok, both_eq_ok, map_eq_ok] at h
  obtain ⟨es, hrecord, _, steps, ⟨_, vars, ⟨_, critical, ⟨_, _, ⟨_, _, ⟨_, _, ⟨_, needs, ⟨_, _, rfl⟩,
    hneeds, rfl⟩, _, rfl⟩, _, rfl⟩, _, rfl⟩, hcritical, rfl⟩, hvars, rfl⟩, hsteps, rfl⟩ := h
  obtain rfl := record_entries hrecord
  exact {
    critical := field_of_optional rfl hcritical
    needs := (needs_means hneeds).symm
    steps := items_of_required hsteps
    env := fun m hm => env_means hvars hm }

/-- What a job of a document says of the declared one. -/
structure JobMeans (v : Value) (p : String × Value) (j : Job) : Prop where
  id : j.id = p.1
  critical : j.critical = if p.1 ∈ advisoryIn v then some false else ownCritical p.2
  agrees : p.1 ∈ advisoryIn v → ownCritical p.2 ≠ some true
  needs : j.needs = needsIn p.2
  steps : List.Forall₂ StepMeans (stepsIn p.2) j.steps
  env : j.env = envIn p.2.entriesOf

theorem criticality_eq_ok {advisory : List String} {id : String} {d : JobDoc} {o : Option Bool}
    (h : criticality advisory id d = .ok o) :
    (o = if id ∈ advisory then some false else d.critical) ∧ (id ∈ advisory → d.critical ≠ some true) := by
  rw [criticality] at h
  by_cases hid : id ∈ advisory
  · rw [if_pos (by simpa using hid)] at h
    split at h
    · cases h
    · next hcritical =>
      cases h
      exact ⟨by simp [hid], fun _ => hcritical⟩
  · rw [if_neg (by simpa using hid)] at h
    cases h
    exact ⟨by simp [hid], fun hmem => absurd hmem hid⟩

theorem job_means {x : Value} {id : String} {d : JobDoc} {j : Job} (hd : JobReads x d)
    (hj : toJob (advisoryIn v) id d = .ok j) : JobMeans v (id, x) j := by
  simp only [toJob, bind_eq_ok, pure_eq_ok] at hj
  obtain ⟨ss, hss, o, ho, m, hm, rfl⟩ := hj
  obtain ⟨hflag, hagrees⟩ := criticality_eq_ok ho
  exact {
    id := rfl
    critical := by rw [← hd.critical]; exact hflag
    agrees := by rw [← hd.critical]; exact hagrees
    needs := hd.needs
    steps := steps_mean hd.steps hss
    env := hd.env m hm }

theorem toJobs_forall₂ {advisory : List String} : ∀ {ds : Assoc JobDoc} {js : List Job},
    toJobs advisory ds = .ok js → List.Forall₂ (fun p j => toJob advisory p.1 p.2 = .ok j) ds js
  | [], js, h => by
    cases h
    exact .nil
  | (id, d) :: ds, js, h => by
    simp only [toJobs, bind_eq_ok, pure_eq_ok] at h
    obtain ⟨j, hj, rest, hrest, rfl⟩ := h
    exact .cons hj (toJobs_forall₂ hrest)

theorem filled_forall₂ : ∀ {ds : Assoc (Option JobDoc)} {js : Assoc JobDoc}, filled ds = .ok js →
    List.Forall₂ (fun p q => p = (q.1, some q.2)) ds js
  | [], js, h => by
    cases h
    exact .nil
  | (id, none) :: ds, js, h => by cases h
  | (id, some d) :: ds, js, h => by
    obtain ⟨rest, hrest, rfl⟩ := map_eq_ok.1 h
    exact .cons rfl (filled_forall₂ hrest)

/-- The declared jobs are those of the document, in their order. -/
theorem jobs_mean {m : Assoc (Option JobDoc)} {ds : Assoc JobDoc} {js : List Job}
    (hm : Assoc.Agree (fun x o => optional job x = .ok o) (jobsIn v) m) (hds : filled m = .ok ds)
    (hjs : toJobs (advisoryIn v) ds = .ok js) : List.Forall₂ (JobMeans v) (jobsIn v) js := by
  have hchecked : Assoc.Agree JobReads (jobsIn v) ds := by
    refine forall₂_trans ?_ hm (filled_forall₂ hds)
    intro p o q hpo hq
    subst hq
    exact ⟨hpo.1, job_reads (of_optional_some hpo.2)⟩
  refine forall₂_trans ?_ hchecked (toJobs_forall₂ hjs)
  intro p q j hpq hj
  obtain ⟨id, x⟩ := p
  obtain rfl : id = q.1 := hpq.1
  exact job_means hpq.2 hj

/-! ## Documents -/

/-- Is the key of the entry this text? -/
def isKey (name : String) (e : Value × Value) : Bool :=
  match e.1 with
  | .text s => s == name
  | _ => false

theorem field?_eq {name : String} : Value.field? name es = (es.find? (isKey name)).map (·.2) := rfl

/-- Giving the events their name changes no other field: what is taken out has no text as its key. -/
theorem field?_nameEvents {name : String} (h : name ≠ "on") :
    Value.field? name (nameEvents es) = Value.field? name es := by
  rw [nameEvents]
  split
  · rfl
  · split
    · rfl
    · next x _ =>
      have hkeep : (fun e : Value × Value => decide ((!Value.same e.1 (.bool true)) = true ∧ isKey name e = true)) =
          isKey name := by
        funext e
        obtain ⟨k, u⟩ := e
        cases k with
        | text s => simp [Value.same, Value.sameAtom, Value.fraction?]
        | _ => simp [isKey]
      have hlast : isKey name (.text "on", x) = false := by
        rw [isKey, beq_eq_false_iff_ne]
        exact h.symm
      simp only [field?_eq, List.find?_append, List.find?_filter, hkeep, List.find?_cons, hlast,
        List.find?_nil, Option.or_none]

theorem entriesIn_nameEvents {name : String} (h : name ≠ "on") :
    entriesIn name (nameEvents es) = entriesIn name es := by
  rw [entriesIn, entriesIn, field?_nameEvents h]

/-- The gate section of a checked document. -/
theorem gate_means {d : GateDoc} {x : Value} (h : gate x = .ok d) :
    d.require = (fieldIn? (oneOf policies) "require" x.entriesOf).getD "success" ∧
    d.critical = (fieldIn? bool "critical" x.entriesOf).getD true ∧
    d.advisory = (itemsIn "advisory" x.entriesOf).filterMap fun i => (text i).toOption := by
  simp only [gate, bind_eq_ok, both_eq_ok, map_eq_ok] at h
  obtain ⟨es, hrecord, _, _, ⟨_, ⟨_, advisory, ⟨_, critical, ⟨require, hrequire, rfl⟩, hcritical, rfl⟩,
    hadvisory, rfl⟩, rfl⟩, _, rfl⟩ := h
  obtain rfl := record_entries hrecord
  exact ⟨field_of_defaulted hrequire, field_of_defaulted hcritical,
    (filterMap_of_forall₂ (items_of_defaulted hadvisory)).symm⟩

/-- The gate section of a document, which may be left out. -/
theorem gate_of_workflow {d : GateDoc} {entries : List (Value × Value)}
    (h : defaulted "gate" ⟨"success", true, []⟩ gate entries = .ok d) :
    d.require = (fieldIn? (oneOf policies) "require" (entriesIn "gate" entries)).getD "success" ∧
    d.critical = (fieldIn? bool "critical" (entriesIn "gate" entries)).getD true ∧
    d.advisory = (itemsIn "advisory" (entriesIn "gate" entries)).filterMap fun i => (text i).toOption := by
  rcases defaulted_eq_ok.1 h with ⟨hfield, rfl⟩ | ⟨x, hfield, hx⟩
  · rw [entriesIn, hfield]
    exact ⟨rfl, rfl, rfl⟩
  · simpa only [entriesIn, hfield, Option.map_some, Option.getD_some] using gate_means hx

/-- A checked document holds what is read off the document. -/
structure Reads (v : Value) (d : WorkflowDoc) : Prop where
  jobs : Assoc.Agree (fun x o => optional job x = .ok o) (jobsIn v) d.jobs
  env : ∀ m, envTexts d.env = .ok m → m = envIn v.entriesOf
  advisory : d.gate.advisory = advisoryIn v
  critical : d.gate.critical = gateCritical v
  require : d.gate.require = gateRequire v

theorem workflow_reads {d : WorkflowDoc} (h : workflow (nameEvents v.entriesOf) = .ok d) : Reads v d := by
  simp only [workflow, both_eq_ok, map_eq_ok] at h
  obtain ⟨_, jobs, ⟨_, gateDoc, ⟨_, vars, ⟨_, _, ⟨_, _, rfl⟩, _, rfl⟩, hvars, rfl⟩, hgate, rfl⟩, hjobs, rfl⟩ := h
  obtain ⟨hrequire, hcritical, hadvisory⟩ := gate_of_workflow hgate
  rw [entriesIn_nameEvents (by decide)] at hrequire hcritical hadvisory
  have hpairs := pairs_of_required hjobs
  rw [entriesIn_nameEvents (by decide)] at hpairs
  refine ⟨hpairs, fun m hm => ?_, hadvisory, hcritical, hrequire⟩
  rw [env_means hvars hm, envIn, envIn, entriesIn_nameEvents (by decide)]

/-- What a document says of the workflow that it declares. -/
structure Declares (v : Value) (w : Workflow) : Prop where
  jobs : List.Forall₂ (JobMeans v) (jobsIn v) w.jobs
  advisory : ∀ id ∈ advisoryIn v, id ∈ (jobsIn v).keys
  require : w.defaultRequire = gateRequire v
  critical : w.defaultCritical = gateCritical v
  env : w.env = envIn v.entriesOf

/-- What was declared from a checked document, and that no unknown job is listed as advisory in it. -/
theorem declare_inv {source : String} {d : WorkflowDoc} {w : Workflow} (h : declare source d = .ok w) :
    ∃ ds, filled d.jobs = .ok ds ∧ toJobs d.gate.advisory ds = .ok w.jobs ∧ envTexts d.env = .ok w.env ∧
      (∀ id ∈ d.gate.advisory, id ∈ d.jobs.keys) ∧
      w.defaultRequire = d.gate.require ∧ w.defaultCritical = d.gate.critical := by
  simp only [declare] at h
  split at h
  · obtain ⟨_, h', _⟩ := bind_eq_ok.1 h
    cases h'
  · simp only [bind_eq_ok] at h
    obtain ⟨ds, hds, h⟩ := h
    split at h
    · next hnone =>
      simp only [bind_eq_ok, pure_eq_ok] at h
      obtain ⟨js, hjs, env, henv, rfl⟩ := h
      refine ⟨ds, hds, hjs, henv, ?_, rfl, rfl⟩
      intro id hid
      by_contra hunknown
      have hmem : id ∈ Text.sortedDistinct (d.gate.advisory.filter fun a => !(d.jobs.map (·.1)).contains a) := by
        rw [Text.mem_sortedDistinct, List.mem_filter]
        exact ⟨hid, by simpa [Assoc.keys] using hunknown⟩
      rw [hnone] at hmem
      cases hmem
    · obtain ⟨_, h', _⟩ := bind_eq_ok.1 h
      cases h'

theorem toWorkflow_declares {source : String} {w : Workflow} (h : toWorkflow source v = .ok w) : Declares v w := by
  obtain ⟨d, hd, hw⟩ := toWorkflow_ok h
  have hreads := workflow_reads hd
  obtain ⟨ds, hds, hjs, henv, hknown, hrequire, hcritical⟩ := declare_inv hw
  rw [hreads.advisory] at hjs hknown
  exact {
    jobs := jobs_mean hreads.jobs hds hjs
    advisory := by rw [hreads.jobs.keys]; exact hknown
    require := hrequire.trans hreads.require
    critical := hcritical.trans hreads.critical
    env := hreads.env _ henv }

end MergeGate.Document
