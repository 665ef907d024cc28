/-
What the scheduler can do to its state. Whatever the loop is busy with, the phases, the results and
the instances in flight change in five ways only: an instance becomes ready, is skipped, is started,
ends, or the run is marked as cancelled (`Move`). The invariant of a scheduled run (`Inv`) is proved
for these five, and never again for the loop.

None of it needs the instance ids to be distinct: two instances with one id share one phase and one
result, and the moves treat them as one.
-/
import MergeGate.Proofs.Schedule.Steps
import MergeGate.Proofs.Schedule.Needs

namespace MergeGate.Schedule

/-- What a scheduled run has in hand. -/
structure Config where
  state : State
  flight : List Instance

namespace Config

variable (c : Config)

/-- The phase of an instance without a result. -/
def phase? (id : String) : Option Phase := c.state.phases.lookup id

/-- The run so far. -/
abbrev run : Run := c.state.run

/-- An instance becomes ready. -/
def readied (i : Instance) : Config := ⟨c.state.setPhase i.id .ready, c.flight⟩

/-- An instance starts. -/
def launched (i : Instance) : Config := ⟨c.state.dispatch i, c.flight ++ [i]⟩

/-- A result is recorded. -/
def recorded (x : Result) : Config :=
  ⟨⟨c.state.phases.erase x.instanceId, { c.run with results := c.run.results ++ [x] }⟩, c.flight⟩

/-- An instance in flight ends. -/
def landed (i : Instance) (x : Result) : Config :=
  ⟨(c.recorded x).state, c.flight.filter (·.id ≠ i.id)⟩

/-- The run is marked as cancelled. -/
def marked : Config := ⟨{ c.state with run := { c.run with cancelled := true } }, c.flight⟩

theorem phase?_readied (i : Instance) (id : String) :
    (c.readied i).phase? id = if id = i.id then some .ready else c.phase? id :=
  Assoc.lookup_put _ _ _ _

theorem phase?_launched (i : Instance) (id : String) :
    (c.launched i).phase? id = if id = i.id then some .running else c.phase? id :=
  Assoc.lookup_put _ _ _ _

theorem phase?_recorded (x : Result) (id : String) :
    (c.recorded x).phase? id = if id = x.instanceId then none else c.phase? id :=
  Assoc.lookup_erase _ _ _

theorem phase?_landed (i : Instance) (x : Result) (id : String) :
    (c.landed i x).phase? id = if id = x.instanceId then none else c.phase? id :=
  Assoc.lookup_erase _ _ _

theorem result?_recorded (x : Result) (id : String) : (c.recorded x).run.result? id =
    (c.run.result? id).or (if x.instanceId = id then some x else none) :=
  Run.result?_append

theorem mem_landed_flight {i k : Instance} {x : Result} :
    k ∈ (c.landed i x).flight ↔ k ∈ c.flight ∧ k.id ≠ i.id := by
  simp [landed, List.mem_filter]

end Config

/-- Not started yet. -/
def Waiting (c : Config) (i : Instance) : Prop :=
  c.phase? i.id = some .pending ∨ c.phase? i.id = some .ready

theorem Waiting.isSome {c : Config} {i : Instance} (h : Waiting c i) : (c.phase? i.id).isSome := by
  rcases h with h | h <;> simp [h]

/-- Why an instance is skipped. -/
inductive Skipped (f : Frame) (r : Run) (i : Instance) : Result → Prop
  | blocked (unmet : f.readinessOf r i = .blocked) : Skipped f r i (.skip i Reason.blocked)
  | cancelled (cancelled : r.cancelled = true) : Skipped f r i (.skip i Reason.cancelled)

/-- How an instance that was started ends, where `P` says what its execution may give: with that,
or, in a cancelled run, with that as far as it succeeded, or killed. -/
inductive Ending (P : Instance → Result → Prop) (cancelled : Bool) (i : Instance) : Result → Prop
  | own {x : Result} (given : P i x) : Ending P cancelled i x
  | stopped {x : Result} (given : P i x) (seen : cancelled = true) : Ending P cancelled i x.stopped
  | killed {d : Float} (seen : cancelled = true) : Ending P cancelled i (.timedOut i d)

/-- Everything that can happen. -/
inductive Move (f : Frame) (P : Instance → Result → Prop) (c : Config) : Config → Prop
  | ready {i : Instance} (mem : i ∈ f.instances) (pending : c.phase? i.id = some .pending)
      (met : f.readinessOf c.run i = .ok) : Move f P c (c.readied i)
  | skip {i : Instance} {x : Result} (mem : i ∈ f.instances) (waiting : Waiting c i)
      (why : Skipped f c.run i x) : Move f P c (c.recorded x)
  | dispatch {i : Instance} (mem : i ∈ f.instances) (ready : c.phase? i.id = some .ready)
      (room : c.flight.length < f.workers) (live : c.run.cancelled = false) : Move f P c (c.launched i)
  | finish {i : Instance} {x : Result} (flying : i ∈ c.flight) (how : Ending P c.run.cancelled i x) :
      Move f P c (c.landed i x)
  | cancel : Move f P c c.marked

variable {f : Frame} {P : Instance → Result → Prop} {c c' : Config} {r₀ : Run}

theorem Skipped.instanceId {r : Run} {i : Instance} {x : Result} (h : Skipped f r i x) :
    x.instanceId = i.id := by
  cases h <;> rfl

theorem Result.stopped_instanceId (x : Result) : x.stopped.instanceId = x.instanceId := by
  rw [Result.stopped]
  split <;> rfl

theorem Ending.instanceId (hP : ∀ i x, P i x → x.instanceId = i.id) {b : Bool} {i : Instance} {x : Result}
    (h : Ending P b i x) : x.instanceId = i.id := by
  cases h with
  | own given => exact hP i x given
  | stopped given => exact (Result.stopped_instanceId _).trans (hP i _ given)
  | killed => rfl

/-! ## What moves keep -/

/-- Results are only added, dispatches only appended, and a cancellation is never taken back. -/
structure Grows (c c' : Config) : Prop where
  results : c.run.results <+: c'.run.results
  dispatched : c.run.dispatched <+: c'.run.dispatched
  cancelled : c.run.cancelled = true → c'.run.cancelled = true

theorem Grows.refl (c : Config) : Grows c c := ⟨List.prefix_refl _, List.prefix_refl _, id⟩

theorem Grows.trans {c c' c'' : Config} (h : Grows c c') (h' : Grows c' c'') : Grows c c'' :=
  ⟨h.results.trans h'.results, h.dispatched.trans h'.dispatched, fun hc => h'.cancelled (h.cancelled hc)⟩

theorem Move.grows (h : Move f P c c') : Grows c c' := by
  cases h with
  | ready => exact ⟨List.prefix_refl _, List.prefix_refl _, id⟩
  | skip => exact ⟨List.prefix_append _ _, List.prefix_refl _, id⟩
  | dispatch => exact ⟨List.prefix_refl _, List.prefix_append _ _, id⟩
  | finish => exact ⟨List.prefix_append _ _, List.prefix_refl _, id⟩
  | cancel => exact ⟨List.prefix_refl _, List.prefix_refl _, fun _ => rfl⟩

/-! ## The invariant -/

/-- Phases and results share the instances out among themselves. -/
structure Phased (f : Frame) (c : Config) : Prop where
  owned : ∀ id, (c.phase? id).isSome → ∃ i ∈ f.instances, i.id = id
  covered : ∀ i ∈ f.instances, c.phase? i.id = none → (c.run.result? i.id).isSome
  apart : ∀ id, (c.phase? id).isSome → c.run.result? id = none

theorem Phased.recorded (h : Phased f c) (x : Result) : Phased f (c.recorded x) := by
  refine ⟨fun id hid => ?_, fun i hi hnone => ?_, fun id hid => ?_⟩
  · rw [Config.phase?_recorded] at hid
    split at hid
    · simp at hid
    · exact h.owned id hid
  · rw [Config.result?_recorded]
    by_cases hx : x.instanceId = i.id
    · cases c.run.result? i.id <;> simp [hx]
    · rw [Config.phase?_recorded, if_neg fun he => hx he.symm] at hnone
      obtain ⟨y, hy⟩ := Option.isSome_iff_exists.mp (h.covered i hi hnone)
      simp [hy]
  · rw [Config.phase?_recorded] at hid
    split at hid
    · simp at hid
    · next hne =>
      rw [Config.result?_recorded, h.apart id hid, if_neg fun he => hne he.symm]
      rfl

/-- Giving an instance without a result another phase takes none from any other. -/
theorem Phased.rephased (h : Phased f c) {i : Instance} (hi : (c.phase? i.id).isSome) {p : Phase}
    (hc : ∀ id, c'.phase? id = if id = i.id then some p else c.phase? id)
    (hrun : ∀ id, c'.run.result? id = c.run.result? id) : Phased f c' := by
  have hiff : ∀ id, (c'.phase? id).isSome ↔ (c.phase? id).isSome := by
    intro id
    rw [hc]
    split
    · next he => simp [he, hi]
    · rfl
  refine ⟨fun id hid => h.owned id ((hiff id).mp hid), fun k hk hnone => ?_, fun id hid => ?_⟩
  · have hold : c.phase? k.id = none := by
      have hnot := mt (hiff k.id).mpr
      simpa [hnone] using hnot
    rw [hrun]
    exact h.covered k hk hold
  · rw [hrun]
    exact h.apart id ((hiff id).mp hid)

theorem Move.phased (hm : Move f P c c') (h : Phased f c) : Phased f c' := by
  cases hm with
  | ready mem pending met =>
    exact h.rephased (by simp [pending]) (Config.phase?_readied c _) fun _ => rfl
  | skip mem waiting why => exact h.recorded _
  | dispatch mem ready room live =>
    exact h.rephased (by simp [ready]) (Config.phase?_launched c _) fun _ => rfl
  | finish flying how => exact ⟨(h.recorded _).owned, (h.recorded _).covered, (h.recorded _).apart⟩
  | cancel => exact ⟨h.owned, h.covered, h.apart⟩

/-- The running instances are those in flight, and each of them has a worker. -/
structure Aloft (f : Frame) (c : Config) : Prop where
  flying : ∀ i ∈ c.flight, i ∈ f.instances
  running : ∀ id, c.phase? id = some .running ↔ id ∈ c.flight.map (·.id)
  single : (c.flight.map (·.id)).Nodup
  room : c.flight.length ≤ f.workers

theorem Aloft.not_flying {i : Instance} (h : Aloft f c) (hw : Waiting c i) :
    i.id ∉ c.flight.map (·.id) := by
  intro hmem
  have hrun := (h.running i.id).mpr hmem
  rcases hw with hw | hw <;> simp [hw] at hrun

theorem Aloft.running_of_flying {i : Instance} (h : Aloft f c) (hi : i ∈ c.flight) :
    c.phase? i.id = some .running :=
  (h.running i.id).mpr (List.mem_map_of_mem hi)

theorem Aloft.not_running (h : Aloft f c) (hflight : c.flight = []) (id : String) :
    c.phase? id ≠ some .running := by
  rw [Ne, h.running, hflight]
  exact List.not_mem_nil

theorem Aloft.landed (h : Aloft f c) {i : Instance} {x : Result} (hx : x.instanceId = i.id) :
    Aloft f (c.landed i x) := by
  have hsub : (c.landed i x).flight.Sublist c.flight := List.filter_sublist
  refine ⟨fun k hk => h.flying k (hsub.subset hk), fun id => ?_, h.single.sublist (hsub.map _),
    Nat.le_trans hsub.length_le h.room⟩
  rw [Config.phase?_landed, hx]
  constructor
  · intro hid
    split at hid
    · cases hid
    · next hne =>
      obtain ⟨k, hk, rfl⟩ := List.mem_map.mp ((h.running id).mp hid)
      exact List.mem_map_of_mem ((Config.mem_landed_flight c).mpr ⟨hk, hne⟩)
  · intro hid
    obtain ⟨k, hk, rfl⟩ := List.mem_map.mp hid
    obtain ⟨hk, hne⟩ := (Config.mem_landed_flight c).mp hk
    rw [if_neg hne]
    exact h.running_of_flying hk

theorem Aloft.launched (h : Aloft f c) {i : Instance} (mem : i ∈ f.instances)
    (ready : c.phase? i.id = some .ready) (room : c.flight.length < f.workers) :
    Aloft f (c.launched i) := by
  have hnew := h.not_flying (.inr ready)
  refine ⟨fun k hk => ?_, fun id => ?_, ?_, ?_⟩
  · rcases List.mem_append.mp hk with hk | hk
    · exact h.flying k hk
    · obtain rfl : k = i := by simpa using hk
      exact mem
  · have hmem : id ∈ (c.launched i).flight.map (·.id) ↔ id ∈ c.flight.map (·.id) ∨ id = i.id := by
      simp [Config.launched, List.map_append]
    rw [hmem, Config.phase?_launched, ← h.running]
    by_cases hid : id = i.id <;> simp [hid]
  · simp only [Config.launched, List.map_append, List.map_cons, List.map_nil]
    rw [List.nodup_append]
    refine ⟨h.single, by simp, fun a ha b hb he => hnew ?_⟩
    obtain rfl : b = i.id := by simpa using hb
    exact he ▸ ha
  · simp only [Config.launched, List.length_append, List.length_cons, List.length_nil]
    omega

/-- What happens to an instance that has not started does not touch those in flight. -/
theorem Aloft.of_waiting (h : Aloft f c) {i : Instance} (hw : Waiting c i)
    (hflight : c'.flight = c.flight)
    (hc : ∀ id, c'.phase? id = some .running ↔ id ≠ i.id ∧ c.phase? id = some .running) :
    Aloft f c' := by
  have hnot := h.not_flying hw
  refine ⟨hflight ▸ h.flying, fun id => ?_, hflight ▸ h.single, hflight ▸ h.room⟩
  rw [hc, hflight, h.running]
  constructor
  · exact fun hid => hid.2
  · exact fun hid => ⟨fun he => hnot (he ▸ hid), hid⟩

theorem Move.aloft (hP : ∀ i x, P i x → x.instanceId = i.id) (hm : Move f P c c') (h : Aloft f c) :
    Aloft f c' := by
  cases hm with
  | @ready i mem pending met =>
    refine h.of_waiting (i := i) (.inl pending) rfl fun id => ?_
    rw [Config.phase?_readied]
    by_cases hid : id = i.id <;> simp [hid]
  | @skip i x mem waiting why =>
    refine h.of_waiting waiting rfl fun id => ?_
    rw [Config.phase?_recorded, why.instanceId]
    by_cases hid : id = i.id <;> simp [hid]
  | dispatch mem ready room live => exact h.launched mem ready room
  | finish flying how => exact h.landed (how.instanceId hP)
  | cancel => exact ⟨h.flying, h.running, h.single, h.room⟩

/-- The instances that were started are those that run and some that have a result. -/
structure Begun (c : Config) : Prop where
  orderly : c.run.dispatched.Nodup
  settled : ∀ id ∈ c.run.dispatched, c.phase? id = some .running ∨ (c.run.result? id).isSome
  started : ∀ id, c.phase? id = some .running → id ∈ c.run.dispatched

theorem Begun.not_dispatched (h : Begun c) (hph : Phased f c) {i : Instance} (hw : Waiting c i) :
    i.id ∉ c.run.dispatched := by
  intro hmem
  rcases h.settled i.id hmem with hrun | hres
  · rcases hw with hw | hw <;> simp [hw] at hrun
  · rw [hph.apart i.id hw.isSome] at hres
    simp at hres

theorem Begun.recorded (h : Begun c) (x : Result) : Begun (c.recorded x) := by
  refine ⟨h.orderly, fun id hid => ?_, fun id hid => ?_⟩
  · rw [Config.phase?_recorded, Config.result?_recorded]
    by_cases hx : id = x.instanceId
    · exact .inr (by cases c.run.result? id <;> simp [hx])
    · rw [if_neg hx]
      refine (h.settled id hid).imp_right fun hres => ?_
      obtain ⟨y, hy⟩ := Option.isSome_iff_exists.mp hres
      simp [hy]
  · rw [Config.phase?_recorded] at hid
    split at hid
    · cases hid
    · exact h.started id hid

theorem Move.begun (hm : Move f P c c') (hph : Phased f c) (h : Begun c) : Begun c' := by
  cases hm with
  | @ready i mem pending met =>
    have hnot := h.not_dispatched hph (i := i) (.inl pending)
    refine ⟨h.orderly, fun id hid => ?_, fun id hid => ?_⟩
    · rw [Config.phase?_readied, if_neg fun he : id = i.id => hnot (he ▸ hid)]
      exact h.settled id hid
    · rw [Config.phase?_readied] at hid
      split at hid
      · cases hid
      · exact h.started id hid
  | skip mem waiting why => exact h.recorded _
  | @dispatch i mem ready room live =>
    have hnot := h.not_dispatched hph (i := i) (.inr ready)
    refine ⟨?_, fun id hid => ?_, fun id hid => ?_⟩
    · refine List.nodup_append.mpr ⟨h.orderly, by simp, fun a ha b hb he => hnot ?_⟩
      obtain rfl : b = i.id := by simpa using hb
      exact he ▸ ha
    · rw [Config.phase?_launched]
      rcases List.mem_append.mp hid with hid | hid
      · rw [if_neg fun he : id = i.id => hnot (he ▸ hid)]
        exact h.settled id hid
      · exact .inl (if_pos (by simpa using hid))
    · rw [Config.phase?_launched] at hid
      refine List.mem_append.mpr ?_
      split at hid
      · next he => exact .inr (by simp [he])
      · exact .inl (h.started id hid)
  | finish flying how => exact ⟨(h.recorded _).orderly, (h.recorded _).settled, (h.recorded _).started⟩
  | cancel => exact ⟨h.orderly, h.settled, h.started⟩

/-- Where the result of an instance comes from. -/
inductive Origin (f : Frame) (P : Instance → Result → Prop) (r : Run) (i : Instance) (x : Result) : Prop
  | skipped (why : Skipped f r i x) (never : i.id ∉ r.dispatched)
  | ran (how : Ending P r.cancelled i x) (begun : i.id ∈ r.dispatched)

/-- The results are those the run was planned with and, in the order in which they came, one for each
instance that has none of them. -/
structure Ledger (f : Frame) (P : Instance → Result → Prop) (r₀ : Run) (c : Config) : Prop where
  unreported : c.run.report = none
  graph : c.run.graph = r₀.graph
  instances : c.run.instances = r₀.instances
  planned : r₀.results <+: c.run.results
  once : (c.run.results.map (·.instanceId)).Nodup
  traced : ∀ x ∈ c.run.results, x ∈ r₀.results ∨
    ∃ i ∈ f.instances, x.instanceId = i.id ∧ Origin f P c.run i x

theorem Skipped.mono (hg : Grows c c') {i : Instance} {x : Result} (h : Skipped f c.run i x) :
    Skipped f c'.run i x := by
  cases h with
  | blocked unmet =>
    refine .blocked ?_
    rw [Frame.readinessOf_mono hg.results (by simp [unmet]), unmet]
  | cancelled seen => exact .cancelled (hg.cancelled seen)

theorem Ending.mono {b b' : Bool} (hb : b = true → b' = true) {i : Instance} {x : Result}
    (h : Ending P b i x) : Ending P b' i x := by
  cases h with
  | own given => exact .own given
  | stopped given seen => exact .stopped given (hb seen)
  | killed seen => exact .killed (hb seen)

/-- A later move starts no instance that has a result, so the origin of the result stays. -/
theorem Origin.mono (hm : Move f P c c') (hph : Phased f c) {i : Instance} {x : Result}
    (hres : (c.run.result? i.id).isSome) (h : Origin f P c.run i x) : Origin f P c'.run i x := by
  have hgrows := hm.grows
  cases h with
  | ran how begun => exact .ran (how.mono hgrows.cancelled) (hgrows.dispatched.subset begun)
  | skipped why never =>
    refine .skipped (why.mono hgrows) fun hmem => ?_
    cases hm with
    | @dispatch k mem ready room live =>
      rcases List.mem_append.mp hmem with hmem | hmem
      · exact never hmem
      · obtain he : i.id = k.id := by simpa using hmem
        have hnone := hph.apart k.id (by simp [ready])
        rw [← he] at hnone
        simp [hnone] at hres
    | _ => exact never hmem

theorem Ledger.recorded (hm : Move f P c c') (hph : Phased f c) (h : Ledger f P r₀ c) {i : Instance}
    {x : Result} (hrun : c'.run = (c.recorded x).run) (hi : i ∈ f.instances) (hx : x.instanceId = i.id)
    (hphase : (c.phase? i.id).isSome) (hnew : Origin f P c'.run i x) : Ledger f P r₀ c' := by
  have hres : c'.run.results = c.run.results ++ [x] := by rw [hrun]; rfl
  refine ⟨by rw [hrun]; exact h.unreported, by rw [hrun]; exact h.graph, by rw [hrun]; exact h.instances,
    h.planned.trans hm.grows.results, ?_, fun y hy => ?_⟩
  · rw [hres, List.map_append, List.nodup_append]
    refine ⟨h.once, by simp, fun a ha b hb he => ?_⟩
    obtain ⟨y, hy, rfl⟩ := List.mem_map.mp ha
    obtain rfl : b = x.instanceId := by simpa using hb
    exact Run.result?_eq_none_iff.mp (hph.apart i.id hphase) y hy (he.trans hx)
  · rw [hres] at hy
    rcases List.mem_append.mp hy with hy | hy
    · rcases h.traced y hy with hy₀ | ⟨k, hk, hyk, horigin⟩
      · exact .inl hy₀
      · exact .inr ⟨k, hk, hyk, horigin.mono hm hph (Run.result?_isSome_iff.mpr ⟨y, hy, hyk⟩)⟩
    · obtain rfl : y = x := by simpa using hy
      exact .inr ⟨i, hi, hx, hnew⟩

/-- A move that records nothing. -/
theorem Ledger.kept (hm : Move f P c c') (hph : Phased f c) (h : Ledger f P r₀ c)
    (hres : c'.run.results = c.run.results) (hreport : c'.run.report = c.run.report)
    (hgraph : c'.run.graph = c.run.graph) (hinst : c'.run.instances = c.run.instances) :
    Ledger f P r₀ c' := by
  refine ⟨hreport.trans h.unreported, hgraph.trans h.graph, hinst.trans h.instances, hres ▸ h.planned,
    hres ▸ h.once, fun y hy => ?_⟩
  rw [hres] at hy
  rcases h.traced y hy with hy₀ | ⟨k, hk, hyk, horigin⟩
  · exact .inl hy₀
  · exact .inr ⟨k, hk, hyk, horigin.mono hm hph (Run.result?_isSome_iff.mpr ⟨y, hy, hyk⟩)⟩

/-- What holds at every moment of a scheduled run. -/
structure Inv (f : Frame) (P : Instance → Result → Prop) (r₀ : Run) (c : Config) : Prop where
  phased : Phased f c
  aloft : Aloft f c
  begun : Begun c
  ledger : Ledger f P r₀ c

theorem Move.ledger (hP : ∀ i x, P i x → x.instanceId = i.id) (hm : Move f P c c') (h : Inv f P r₀ c) :
    Ledger f P r₀ c' := by
  have hmove := hm
  cases hm with
  | ready => exact h.ledger.kept hmove h.phased rfl rfl rfl rfl
  | skip mem waiting why =>
    exact h.ledger.recorded hmove h.phased rfl mem why.instanceId waiting.isSome
      (.skipped (why.mono hmove.grows) (h.begun.not_dispatched h.phased waiting))
  | dispatch => exact h.ledger.kept hmove h.phased rfl rfl rfl rfl
  | @finish i x flying how =>
    have hrun := h.aloft.running_of_flying flying
    exact h.ledger.recorded hmove h.phased rfl (h.aloft.flying i flying) (how.instanceId hP)
      (by simp [hrun]) (.ran how (h.begun.started i.id hrun))
  | cancel => exact h.ledger.kept hmove h.phased rfl rfl rfl rfl

/-- **Every move keeps the invariant.** -/
theorem Move.inv (hP : ∀ i x, P i x → x.instanceId = i.id) (hm : Move f P c c') (h : Inv f P r₀ c) :
    Inv f P r₀ c' :=
  ⟨hm.phased h.phased, hm.aloft hP h.aloft, hm.begun h.phased h.begun, hm.ledger hP h⟩

end MergeGate.Schedule
