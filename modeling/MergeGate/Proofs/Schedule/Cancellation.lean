/-
How a cancelled run ends. The loop sees a cancellation at the top of a turn, whatever is pending, ready
or running by then and whatever has ended without having been recorded. `CalledOff` says what becomes of
each: results stay, what has not started is skipped, and what runs is asked to stop and keeps its own
result only if it succeeds within the grace period. Every instance that was cut off is in the report,
and its job does not pass (`execute_cancelled`). A grace period that is too long to be waited for spoils
all this: what runs is asked to stop and then left behind, without a result (`LeftBehind`).

Which reason a waiting instance is skipped for cannot be read off the invariant: its needs may be unmet
by then, and only the next turn would have found it blocked. So the results are followed through the
calls of the cancellation itself (`skipWaiting_records`, `finishAll_results`, `killAll_results`).
-/
import MergeGate.Proofs.Outcome
import MergeGate.Proofs.Schedule.Safety
import MergeGate.Proofs.Schedule.Signals

namespace MergeGate.Schedule

variable {σ : Type} {w : World σ} {f : Frame} {r₀ : Run} {g : JobGraph} {m m' : Machine σ} {s s' : State}
  {p : Point σ} {world : σ}

/-! ## Results -/

theorem State.record_eq_ok {x : Result} (h : s.record x = .ok s') :
    s' = ⟨s.phases.erase x.instanceId, { s.run with results := s.run.results ++ [x] }⟩ := by
  simp only [State.record, bind_eq_ok, pure_eq_ok] at h
  obtain ⟨run, hrun, rfl⟩ := h
  rw [(Run.record_eq_ok_iff.mp hrun).2.2]

/-- What waits is skipped, and nothing that was recorded is lost. -/
theorem skipWaiting_records : ∀ {is : List Instance} {s s' : State}, (is.map (·.id)).Nodup →
    s.skipWaiting is = .ok s' → s.run.results <+: s'.run.results ∧ ∀ i ∈ is,
      s.phases.lookup i.id = some .pending ∨ s.phases.lookup i.id = some .ready →
        .skip i Reason.cancelled ∈ s'.run.results
  | [], s, s', _, h => by
    obtain rfl : s = s' := Except.ok.inj h
    exact ⟨List.prefix_refl _, fun i hi => absurd hi List.not_mem_nil⟩
  | i :: rest, s, s', hd, h => by
    rw [skipWaiting_cons, Except.bind_eq_ok] at h
    obtain ⟨s₁, hfirst, hrest⟩ := h
    rw [List.map_cons, List.nodup_cons] at hd
    obtain ⟨hkept, hskipped⟩ := skipWaiting_records hd.2 hrest
    by_cases hwaits : s.phases.lookup i.id = some .pending ∨ s.phases.lookup i.id = some .ready
    · have hrecord : s.record (.skip i Reason.cancelled) = .ok s₁ := by
        rcases hwaits with hphase | hphase <;> simpa [State.skipWaiting, hphase, Except.bind_eq_ok] using hfirst
      obtain rfl := State.record_eq_ok hrecord
      refine ⟨(List.prefix_append _ _).trans hkept, fun k hk hkw => ?_⟩
      rcases List.mem_cons.mp hk with rfl | hk
      · exact hkept.subset (by simp)
      · have hne : k.id ≠ i.id := fun he => hd.1 (he ▸ List.mem_map_of_mem hk)
        refine hskipped k hk ?_
        simpa [Assoc.lookup_erase, Result.skip, hne] using hkw
    · obtain rfl : s = s₁ := by
        simp only [State.skipWaiting] at hfirst
        split at hfirst
        · next hphase => exact absurd (.inl hphase) hwaits
        · next hphase => exact absurd (.inr hphase) hwaits
        · exact Except.ok.inj hfirst
      refine ⟨hkept, fun k hk hkw => ?_⟩
      rcases List.mem_cons.mp hk with rfl | hk
      · exact absurd hkw hwaits
      · exact hskipped k hk hkw

theorem finishAll_results : ∀ {es : Ended} {m : Machine σ}, (m.finishAll es).fault = none →
    (m.finishAll es).state.run.results = m.state.run.results ++ es.map (·.2)
  | [], m, _ => by simp [Machine.finishAll]
  | (i, x) :: rest, m, h => by
    rw [Machine.finishAll] at h ⊢
    cases hrecord : m.state.record x with
    | error fault => simp [hrecord, Machine.fail] at h
    | ok state =>
      simp only [hrecord] at h ⊢
      obtain rfl := State.record_eq_ok hrecord
      rw [finishAll_results h, List.map_cons, List.append_assoc, List.singleton_append]

theorem killAll_results : ∀ {is : List Instance} {m : Machine σ}, (w.killAll m is).fault = none →
    m.state.run.results <+: (w.killAll m is).state.run.results ∧
      ∀ i ∈ is, ∃ d, .timedOut i d ∈ (w.killAll m is).state.run.results
  | [], m, _ => ⟨List.prefix_refl _, fun i hi => absurd hi List.not_mem_nil⟩
  | i :: rest, m, h => by
    rw [World.killAll] at h ⊢
    cases hrecord : m.state.record (Result.timedOut i (w.elapsed m.world i)) with
    | error fault => simp [hrecord, Machine.fail] at h
    | ok state =>
      simp only [hrecord] at h ⊢
      obtain rfl := State.record_eq_ok hrecord
      obtain ⟨hkept, hkilled⟩ := killAll_results h
      refine ⟨(List.prefix_append _ _).trans hkept, fun k hk => ?_⟩
      rcases List.mem_cons.mp hk with rfl | hk
      · exact ⟨w.elapsed m.world k, hkept.subset (by simp)⟩
      · exact hkilled k hk

theorem settleAll_results (hok : (w.settleAll f m).fault = none) :
    m.state.run.results <+: (w.settleAll f m).state.run.results ∧
    (∀ e ∈ (w.grace m.world m.state.phases m.flight).2,
      e.2.stopped ∈ (w.settleAll f m).state.run.results) ∧
    ∀ i ∈ f.hung m.flight (w.grace m.world m.state.phases m.flight).2,
      ∃ d, .timedOut i d ∈ (w.settleAll f m).state.run.results := by
  obtain ⟨hfinished, heq⟩ := settleAll_of_faultless hok
  rw [heq] at hok ⊢
  obtain ⟨hkept, hkilled⟩ := killAll_results (w := w) hok
  rw [finishAll_results hfinished] at hkept
  refine ⟨(List.prefix_append _ _).trans hkept, fun e he => ?_, hkilled⟩
  refine hkept.subset (List.mem_append.mpr (.inr (List.mem_map.mpr ⟨(e.1, e.2.stopped), ?_, rfl⟩)))
  exact List.mem_mergeSort.mpr (List.mem_map_of_mem (f := fun e : Instance × Result => (e.1, e.2.stopped)) he)

theorem cancelAll_results (hs : m.markCancelled.state.skipWaiting f.instances = .ok s)
    (hok : (w.cancelAll f m).fault = none) :
    s.run.results <+: (w.cancelAll f m).state.run.results ∧ (m.flight ≠ [] →
    (∀ e ∈ w.endedInGrace f m, e.2.stopped ∈ (w.cancelAll f m).state.run.results) ∧
    ∀ i ∈ f.hung m.flight (w.endedInGrace f m), ∃ d, .timedOut i d ∈ (w.cancelAll f m).state.run.results) := by
  have hwaits := not_strands_of_faultless hs hok
  rw [cancelAll_cases hs, if_neg hwaits] at hok ⊢
  by_cases hempty : m.flight.isEmpty
  · rw [if_pos hempty]
    exact ⟨List.prefix_refl _, fun hne => absurd (List.isEmpty_iff.mp hempty) hne⟩
  · rw [if_neg hempty] at hok ⊢
    obtain ⟨hstate, hflight, _⟩ := stopAll_kept (w := w) m.flight { m with state := s }
    obtain ⟨hkept, hstopped, hkilled⟩ := settleAll_results hok
    rw [hstate] at hkept
    rw [endedInGrace_eq hs]
    rw [hflight] at hstopped hkilled ⊢
    exact ⟨hkept, fun _ => ⟨hstopped, hkilled⟩⟩

/-! ## Signals -/

theorem sentTo_append (log log' : List Signal) (id : String) :
    sentTo (log ++ log') id = sentTo log id ++ sentTo log' id := List.filter_append _ _

/-- Of signals of one kind, an instance is sent as many as there are instances with its id. -/
theorem sentTo_map (kind : String → Signal) (hkind : ∀ id, (kind id).target = id) (is : List Instance)
    (id : String) :
    sentTo (is.map fun i => kind i.id) id = List.replicate ((is.map (·.id)).count id) (kind id) := by
  induction is with
  | nil => rfl
  | cons i is ih =>
    rw [sentTo] at ih ⊢
    rw [List.map_cons, List.map_cons, List.filter_cons, List.count_cons, hkind, ih]
    by_cases hid : i.id = id
    · simp [hid, List.replicate_succ]
    · simp [hid]

theorem mem_hung {flight : List Instance} {ended : Ended} {i : Instance} :
    i ∈ f.hung flight ended ↔ i ∈ flight ∧ i.id ∉ ended.map (·.1.id) := by
  simp [Frame.hung, inOrder, List.mem_mergeSort]

theorem hung_nodup {flight : List Instance} (ended : Ended) (hd : (flight.map (·.id)).Nodup) :
    ((f.hung flight ended).map (·.id)).Nodup := by
  have hperm : (f.hung flight ended).Perm _ := List.mergeSort_perm _ _
  exact (hperm.map _).nodup_iff.mpr (hd.sublist (List.filter_sublist.map _))

theorem sentTo_signals (hd : (m.flight.map (·.id)).Nodup) (id : String) : sentTo (w.signals f m) id =
    (if id ∈ m.flight.map (·.id) then [.stop id] else []) ++
      if id ∈ (f.hung m.flight (w.endedInGrace f m)).map (·.id) then [.kill id] else [] := by
  rw [World.signals, sentTo_append, sentTo_map .stop fun _ => rfl,
    sentTo_map .kill fun _ => rfl, hd.count, (hung_nodup _ hd).count]
  congr 1 <;> split <;> rfl

/-! ## What a cancellation promises -/

/-- A result that belongs to an instance and to its job. -/
def Own (i : Instance) (x : Result) : Prop := x.instanceId = i.id ∧ x.job = i.job

theorem Own.instanceId : ∀ i x, Own i x → x.instanceId = i.id := fun _ _ h => h.1

/-- The cancellation cuts an instance off: it has not started, or it runs and has not succeeded when the
grace period is over. -/
def CutOff (m : Machine σ) (ended : Ended) (i : Instance) : Prop :=
  Waiting m.config i ∨ i ∈ m.flight ∧ ∀ x, (i, x) ∈ ended → x.status ≠ .succeeded

/-- The report lists an instance once, where the reason of its result belongs, and its job does not
pass. -/
structure Reported (report : GateReport) (i : Instance) (x : Result) : Prop where
  listed : (x.reason = some Reason.cancelled ∧ report.cancelled.count i.id = 1 ∧
      report.cancelTimeouts.count i.id = 0) ∨
    x.reason = some Reason.cancelTimeout ∧ report.cancelled.count i.id = 0 ∧
      report.cancelTimeouts.count i.id = 1
  counted : ∃ o ∈ report.definitions, o.id = i.job
  failed : ∀ o ∈ report.definitions, o.id = i.job → o.passed = false

/-- How a run ends whose cancellation is seen in `m`, where `ended` has ended when the grace period is
over: with `m'`, after the signals in `log` were sent. -/
structure CalledOff (r : Run) (m : Machine σ) (ended : Ended) (m' : Machine σ) (log : List Signal) :
    Prop where
  faultless : m'.fault = none
  settled : m'.state.phases = []
  kept : ∀ id x, m.state.run.result? id = some x → m'.state.run.result? id = some x
  /-- what has not started is skipped, and never started -/
  skipped : ∀ i ∈ r.instances, Waiting m.config i →
    m'.state.run.result? i.id = some (.skip i Reason.cancelled) ∧ i.id ∉ m'.state.run.dispatched
  succeeded : ∀ i ∈ m.flight, ∀ x, (i, x) ∈ ended → x.status = .succeeded →
    m'.state.run.result? i.id = some x
  /-- what ends otherwise was cancelled, even where it may fail -/
  stopped : ∀ i ∈ m.flight, ∀ x, (i, x) ∈ ended → x.status ≠ .succeeded → m'.state.run.result? i.id =
    some { x with status := .failed, reason := some Reason.cancelled, allowed := false }
  killed : ∀ i ∈ m.flight, (∀ x, (i, x) ∉ ended) → ∃ d, m'.state.run.result? i.id = some (.timedOut i d)
  /-- what ends in time is asked to stop once, and not killed -/
  asked : ∀ i ∈ m.flight, ∀ x, (i, x) ∈ ended → sentTo log i.id = [.stop i.id]
  /-- what does not is asked to stop once, and then killed once -/
  forced : ∀ i ∈ m.flight, (∀ x, (i, x) ∉ ended) → sentTo log i.id = [.stop i.id, .kill i.id]
  /-- nothing else is signalled -/
  spared : ∀ id, id ∉ m.flight.map (·.id) → sentTo log id = []
  once : ∀ i ∈ r.instances, (m'.state.run.results.map (·.instanceId)).count i.id = 1
  reported : ∃ report closed, m'.state.run.gateReport = .ok (report, closed) ∧
    ∀ i ∈ r.instances, CutOff m ended i → ∃ x, m'.state.run.result? i.id = some x ∧ Reported report i x

/-- How a run ends whose cancellation is seen in `m` and cannot wait for what is in flight: with `m'`,
after the signals in `log` were sent. -/
structure LeftBehind (w : World σ) (r : Run) (m m' : Machine σ) (log : List Signal) : Prop where
  stranded : Stranded w r m'
  flight : m'.flight = m.flight
  kept : ∀ id x, m.state.run.result? id = some x → m'.state.run.result? id = some x
  /-- what has not started is skipped, and never started -/
  skipped : ∀ i ∈ r.instances, Waiting m.config i →
    m'.state.run.result? i.id = some (.skip i Reason.cancelled) ∧ i.id ∉ m'.state.run.dispatched
  /-- what runs is asked to stop once, and not killed -/
  asked : ∀ i ∈ m.flight, sentTo log i.id = [.stop i.id]
  /-- nothing else is signalled -/
  spared : ∀ id, id ∉ m.flight.map (·.id) → sentTo log id = []

/-! ## Reports -/

/-- A result for which a job does not pass, and that a report lists. -/
theorem Sound.reported {P : Instance → Result → Prop} (hset : Setting g r₀ f) (h : Sound f P r₀ ⟨.ended, m⟩)
    {i : Instance} (hi : i ∈ r₀.instances) {x : Result} (hx : m.state.run.result? i.id = some x)
    (hjob : x.job = i.job) (hreason : x.reason = some Reason.cancelled ∨ x.reason = some Reason.cancelTimeout)
    (hlost : (x.status = .failed ∧ x.allowed = false) ∨
      x.status = .skipped ∧ x.reason = some Reason.cancelled) :
    Reported (m.state.run.reportOf g) i x := by
  have hne : Reason.cancelled ≠ Reason.cancelTimeout := by decide
  obtain ⟨hmem, hid⟩ := Run.result?_eq_some hx
  have hcount := fun reason => Run.count_listed h.inv.ledger.once hmem reason
  simp only [hid] at hcount
  refine ⟨?_, ?_, fun o ho hoi => ?_⟩
  · have hcancelled := hcount Reason.cancelled
    have htimeouts := hcount Reason.cancelTimeout
    rcases hreason with hr | hr
    · rw [if_pos hr] at hcancelled
      rw [if_neg (by simpa [hr] using hne)] at htimeouts
      exact .inl ⟨hr, hcancelled, htimeouts⟩
    · rw [if_neg (by simpa [hr] using hne.symm)] at hcancelled
      rw [if_pos hr] at htimeouts
      exact .inr ⟨hr, hcancelled, htimeouts⟩
  · obtain ⟨j, hj, hji⟩ := hset.planned.owner i hi
    exact ⟨_, List.mem_map_of_mem hj, Outcome.fold_id.trans hji⟩
  · obtain ⟨j, hj, rfl⟩ := List.mem_map.mp ho
    have hmine : x ∈ m.state.run.resultsFor j.id := by
      rw [Run.resultsFor, List.mem_filter, beq_iff_eq]
      exact ⟨hmem, hjob.trans (hoi.symm.trans Outcome.fold_id)⟩
    exact Outcome.fold_not_passed hmine hlost

/-! ## The cancelled run -/

/-- A cancellation that goes through: the end is reached and all is sound there, what waits could be
skipped, and the grace period reports only what was in flight. -/
structure GoesThrough (w : World σ) (f : Frame) (r₀ : Run) (m : Machine σ) (s : State) : Prop where
  ends : w.Reaches f ⟨.top, m⟩ ⟨.ended, w.cancelAll f m⟩
  sound : Sound f Own r₀ ⟨.ended, w.cancelAll f m⟩
  skips : m.markCancelled.state.skipWaiting f.instances = .ok s
  single : (m.flight.map (·.id)).Nodup
  batch : m.flight ≠ [] → Batch Own m.flight (w.endedInGrace f m)

section Results

variable (h : GoesThrough w f r₀ m s) {i : Instance}
include h

theorem GoesThrough.found {x : Result} (hx : x ∈ (w.cancelAll f m).state.run.results) :
    (w.cancelAll f m).state.run.result? x.instanceId = some x :=
  Run.result?_of_mem h.sound.inv.ledger.once hx

theorem GoesThrough.waiting (hd : (f.instances.map (·.id)).Nodup) (hi : i ∈ f.instances)
    (hwaits : Waiting m.config i) :
    (w.cancelAll f m).state.run.result? i.id = some (.skip i Reason.cancelled) := by
  have hskipped := (skipWaiting_records hd h.skips).2 i hi hwaits
  exact h.found ((cancelAll_results h.skips h.sound.faultless).1.subset hskipped)

theorem GoesThrough.ended (hi : i ∈ m.flight) {x : Result} (hx : (i, x) ∈ w.endedInGrace f m) :
    x.job = i.job ∧ (w.cancelAll f m).state.run.result? i.id = some x.stopped := by
  have hne := List.ne_nil_of_mem hi
  obtain ⟨hid, hjob⟩ := ((h.batch hne).given (i, x) hx).2
  have hfound := h.found (((cancelAll_results h.skips h.sound.faultless).2 hne).1 (i, x) hx)
  rw [Result.stopped_instanceId, hid] at hfound
  exact ⟨hjob, hfound⟩

/-- What is killed is what was in flight and has not ended. -/
theorem GoesThrough.mem_hung_iff (hi : i ∈ m.flight) :
    i.id ∈ (f.hung m.flight (w.endedInGrace f m)).map (·.id) ↔ ∀ x, (i, x) ∉ w.endedInGrace f m := by
  constructor
  · rintro hmem x hx
    obtain ⟨k, hk, hki⟩ := List.mem_map.mp hmem
    exact (mem_hung.mp hk).2 (hki ▸ List.mem_map_of_mem (f := fun e : Instance × Result => e.1.id) hx)
  · intro hnot
    refine List.mem_map_of_mem (mem_hung.mpr ⟨hi, fun hmem => ?_⟩)
    obtain ⟨⟨k, x⟩, hx, hki⟩ := List.mem_map.mp hmem
    have hk := ((h.batch (List.ne_nil_of_mem hi)).given (k, x) hx).1
    obtain rfl : k = i := List.inj_on_of_nodup_map h.single hk hi hki
    exact hnot x hx

theorem GoesThrough.hung (hi : i ∈ m.flight) (hnot : ∀ x, (i, x) ∉ w.endedInGrace f m) :
    ∃ d, (w.cancelAll f m).state.run.result? i.id = some (.timedOut i d) := by
  obtain ⟨k, hk, hki⟩ := List.mem_map.mp ((h.mem_hung_iff hi).mpr hnot)
  obtain rfl : k = i := List.inj_on_of_nodup_map h.single (mem_hung.mp hk).1 hi hki
  obtain ⟨d, hmem⟩ :=
    ((cancelAll_results h.skips h.sound.faultless).2 (List.ne_nil_of_mem hi)).2 k hk
  exact ⟨d, h.found hmem⟩

theorem GoesThrough.reported (hset : Setting g r₀ f) (hd : (f.instances.map (·.id)).Nodup)
    (hi : i ∈ f.instances) (hcut : CutOff m (w.endedInGrace f m) i) :
    ∃ x, (w.cancelAll f m).state.run.result? i.id = some x ∧
      Reported ((w.cancelAll f m).state.run.reportOf g) i x := by
  have hi' := (hset.mem i).mp hi
  rcases hcut with hwaits | ⟨hfly, hfailed⟩
  · have hx := h.waiting hd hi hwaits
    exact ⟨_, hx, h.sound.reported hset hi' hx rfl (.inl rfl) (.inr ⟨rfl, rfl⟩)⟩
  by_cases hends : ∃ x, (i, x) ∈ w.endedInGrace f m
  · obtain ⟨x, hmem⟩ := hends
    obtain ⟨hjob, hx⟩ := h.ended hfly hmem
    rw [Result.stopped, if_neg (hfailed x hmem)] at hx
    exact ⟨_, hx, h.sound.reported hset hi' hx hjob (.inl rfl) (.inl ⟨rfl, rfl⟩)⟩
  · obtain ⟨d, hx⟩ := h.hung hfly (not_exists.mp hends)
    exact ⟨_, hx, h.sound.reported hset hi' hx rfl (.inr rfl) (.inl ⟨rfl, rfl⟩)⟩

theorem GoesThrough.sent_of_ended (hi : i ∈ m.flight) {x : Result} (hx : (i, x) ∈ w.endedInGrace f m) :
    sentTo (w.signals f m) i.id = [.stop i.id] := by
  have hnot := mt (h.mem_hung_iff hi).mp fun hnone => hnone x hx
  rw [sentTo_signals h.single, if_pos (List.mem_map_of_mem hi), if_neg hnot, List.append_nil]

theorem GoesThrough.sent_of_hung (hi : i ∈ m.flight) (hnot : ∀ x, (i, x) ∉ w.endedInGrace f m) :
    sentTo (w.signals f m) i.id = [.stop i.id, .kill i.id] := by
  have hhung := (h.mem_hung_iff hi).mpr hnot
  rw [sentTo_signals h.single, if_pos (List.mem_map_of_mem hi), if_pos hhung, List.singleton_append]

theorem GoesThrough.not_sent {id : String} (hid : id ∉ m.flight.map (·.id)) :
    sentTo (w.signals f m) id = [] := by
  have hnot : id ∉ (f.hung m.flight (w.endedInGrace f m)).map (·.id) := by
    intro hmem
    obtain ⟨k, hk, rfl⟩ := List.mem_map.mp hmem
    exact hid (List.mem_map_of_mem (mem_hung.mp hk).1)
  rw [sentTo_signals h.single, if_neg hid, if_neg hnot, List.append_nil]

end Results

/-- A cancellation that is seen begins with what waits. -/
theorem skipping_reaches (hseen : w.cancelled m.world = true) :
    w.Reaches f ⟨.top, m⟩ ⟨.skip f.instances, m.markCancelled⟩ := by
  have hstep : w.step f ⟨.top, m⟩ = ⟨.skip f.instances, m.markCancelled⟩ := by simp [World.step, hseen]
  exact hstep ▸ .next .refl

section Runs

variable (hset : Setting g r₀ f) (hw : w.Yields f (f.outset r₀ world) Own)
include hset hw

/-- The turns of the loop begin where the steps stand at the top. -/
theorem begins_reaches (hm : w.Begins f (f.outset r₀ world).machine m) :
    w.Reaches f (f.outset r₀ world) ⟨.top, m⟩ := by
  induction hm with
  | refl => exact .refl
  | @next m m' _ again ih =>
    have hfault := (reaches_sound hset hw Own.instanceId ih).faultless
    have hturned := (turn_reaches (w := w) (f := f) m hfault).resolve_left (not_faulty hset hw Own.instanceId ih)
    rw [again] at hturned
    exact ih.trans hturned.top

variable (htop : w.Reaches f (f.outset r₀ world) ⟨.top, m⟩) (hseen : w.cancelled m.world = true)
include htop hseen

/-- What follows when the cancellation is seen. -/
theorem seen_reaches : ∃ s, m.markCancelled.state.skipWaiting f.instances = .ok s ∧
    w.Reaches f ⟨.top, m⟩ (if w.strands f m then ⟨.stranded, w.stopAll { m with state := s } m.flight⟩
      else ⟨.ended, w.cancelAll f m⟩) := by
  have hskip := skipping_reaches (f := f) hseen
  have hsafe := not_faulty hset hw Own.instanceId (htop.trans hskip)
  have hsound := reaches_sound hset hw Own.instanceId htop
  obtain ⟨s, hs, hends⟩ := (cancelAll_reaches (w := w) (f := f) m hsound.faultless).resolve_left hsafe
  exact ⟨s, hs, hskip.trans hends⟩

theorem exists_goesThrough (hwaits : w.strands f m = false) : ∃ s, GoesThrough w f r₀ m s := by
  have hsound := reaches_sound hset hw Own.instanceId htop
  have hskip := skipping_reaches (f := f) hseen
  have hsafe := not_faulty hset hw Own.instanceId (htop.trans hskip)
  obtain ⟨s, hs, hover⟩ := seen_reaches hset hw htop hseen
  rw [hwaits, if_neg Bool.false_ne_true] at hover
  refine ⟨s, hover, reaches_sound hset hw Own.instanceId (htop.trans hover), hs, hsound.inv.aloft.single, fun hne => ?_⟩
  obtain ⟨s', hs', hskipped⟩ :=
    (skipWaiting_reaches (w := w) (f := f) f.instances m.markCancelled).resolve_left hsafe
  obtain rfl : s' = s := Except.ok.inj (hs'.symm.trans hs)
  obtain ⟨_, hflight, _⟩ := stopAll_kept (w := w) m.flight { m with state := s' }
  have hgrace := (hskip.trans hskipped).trans (stop_reaches (by simpa using hne))
  rw [← strands_eq hs, hwaits, if_neg Bool.false_ne_true] at hgrace
  have hbatch := hw.grace _ (htop.trans hgrace) (by rw [hflight]; exact hsound.inv.aloft.single)
  rw [← endedInGrace_eq hs, hflight] at hbatch
  exact hbatch

/-- What waits when the cancellation is seen is never started. -/
theorem unstarted_of_seen {p : Point σ} (h : w.Reaches f ⟨.top, m⟩ p) {i : Instance} (hwaits : Waiting m.config i) :
    i.id ∉ p.machine.state.run.dispatched := by
  have hinv := (reaches_sound hset hw Own.instanceId htop).inv
  have hsame := dispatched_of_seen hset hw Own.instanceId htop rfl hseen h
  rw [show p.machine.state.run.dispatched = m.config.run.dispatched from hsame]
  exact hinv.begun.not_dispatched hinv.phased hwaits

theorem leftBehind (hd : (f.instances.map (·.id)).Nodup) (hstrands : w.strands f m = true) :
    LeftBehind w r₀ m (w.cancelAll f m) (m.flight.map fun i => .stop i.id) := by
  have hsingle : (m.flight.map (·.id)).Nodup := (reaches_sound hset hw Own.instanceId htop).inv.aloft.single
  obtain ⟨s, hs, hleft⟩ := seen_reaches hset hw htop hseen
  obtain ⟨hstate, hflight, _⟩ := stopAll_kept (w := w) m.flight { m with state := s }
  rw [if_pos hstrands] at hleft
  have hsound := reaches_sound hset hw Own.instanceId (htop.trans hleft)
  rw [cancelAll_cases hs, if_pos hstrands]
  have hcount (id : String) : sentTo (m.flight.map fun i => .stop i.id) id =
      if id ∈ m.flight.map (·.id) then [.stop id] else [] := by
    rw [sentTo_map .stop fun _ => rfl, hsingle.count]
    split <;> rfl
  refine ⟨hsound.stranded hset (strands_eq hs ▸ hstrands), hflight, ?_, fun i hi hwaits => ⟨?_, ?_⟩, fun i hi => ?_,
    fun id hid => ?_⟩
  · exact fun id x => Run.result?_mono (reaches_grows hset hw Own.instanceId htop hleft).results
  · have hskipped := (skipWaiting_records hd hs).2 i ((hset.mem i).mpr hi) hwaits
    have hrun : (w.stopAll { m with state := s } m.flight).state = s := hstate
    exact Run.result?_of_mem hsound.inv.ledger.once (show _ ∈ (w.stopAll _ _).state.run.results from hrun ▸ hskipped)
  · exact unstarted_of_seen hset hw htop hseen hleft hwaits
  · rw [hcount, if_pos (List.mem_map_of_mem hi)]
  · rw [hcount, if_neg hid]

theorem calledOff (hd : (f.instances.map (·.id)).Nodup) (hwaits : w.strands f m = false) :
    CalledOff r₀ m (w.endedInGrace f m) (w.cancelAll f m) (w.signals f m) := by
  obtain ⟨s, h⟩ := exists_goesThrough hset hw htop hseen hwaits
  refine ⟨h.sound.faultless, h.sound.standing, ?_, fun i hi hwaits => ⟨?_, ?_⟩, ?_, ?_,
    fun i => h.hung, fun i hi x => h.sent_of_ended hi, fun i => h.sent_of_hung, fun id => h.not_sent, ?_,
    _, _, (h.sound.closed hset).2, fun i hi => ?_⟩
  · exact fun id x => Run.result?_mono (reaches_grows hset hw Own.instanceId htop h.ends).results
  · exact h.waiting hd ((hset.mem i).mpr hi) hwaits
  · exact unstarted_of_seen hset hw htop hseen h.ends hwaits
  · intro i hi x hx hsucceeded
    have hfound := (h.ended hi hx).2
    rwa [Result.stopped, if_pos hsucceeded] at hfound
  · intro i hi x hx hfailed
    have hfound := (h.ended hi hx).2
    rwa [Result.stopped, if_neg hfailed] at hfound
  · intro i hi
    obtain ⟨x, hx, hid⟩ := Run.result?_isSome_iff.mp (h.sound.recorded ((hset.mem i).mpr hi))
    exact List.count_eq_one_of_mem h.sound.inv.ledger.once (hid ▸ List.mem_map_of_mem hx)
  · exact h.reported hset hd ((hset.mem i).mpr hi)

end Runs

/-- A loop that breaks off or leaves no instance over is the execution. -/
theorem execute_of_left {fuel : Nat} (hloop : w.loop f fuel (f.outset r₀ world).machine = m)
    (hover : m.fault.isSome = true ∨ m.state.phases = []) : w.execute f fuel r₀ world = m := by
  have hended : w.loop f fuel { state := f.start r₀, world } = m := hloop
  rcases hover with hfault | hsettled
  · simp [World.execute, hended, hfault]
  · simp [World.execute, hended, hsettled]

/-- With enough turns an execution ends with `m'` and, where a log is kept, with the signals in `log`. -/
def Concludes (w : World σ) (f : Frame) (r : Run) (world : σ) (m' : Machine σ) (log : List Signal) : Prop :=
  ∃ turns, ∀ fuel ≥ turns, w.execute f fuel r world = m' ∧
    w.logged.execute f fuel r (world, []) = m'.logged log

/-- The execution ends with the turn that sees the cancellation, with a log and without. -/
theorem concludes_of_seen {log : List Signal} (hm : w.Begins f (f.outset r₀ world).machine m)
    (hseen : w.cancelled m.world = true) (hcancel : w.cancelAll f m = m')
    (hlogged : w.logged.cancelAll f (m.logged []) = m'.logged log)
    (hover : m'.fault.isSome = true ∨ m'.state.phases = []) : Concludes w f r₀ world m' log := by
  obtain ⟨turns, hloop⟩ := hm.loop_of_seen hseen
  obtain ⟨turns', hloop'⟩ := (hm.logged []).loop_of_seen hseen
  refine ⟨max turns turns', fun fuel hfuel => ⟨?_, ?_⟩⟩
  · exact execute_of_left ((hloop fuel (Nat.le_trans (Nat.le_max_left _ _) hfuel)).trans hcancel) hover
  · exact execute_of_left ((hloop' fuel (Nat.le_trans (Nat.le_max_right _ _) hfuel)).trans hlogged) hover

section Conclusions

variable (hset : Setting g r₀ f) (hw : w.Yields f (f.outset r₀ world) Own)
  (hm : w.Begins f (f.outset r₀ world).machine m) (hseen : w.cancelled m.world = true)
  (hd : (f.instances.map (·.id)).Nodup)
include hset hw hm hseen hd

theorem exists_calledOff (hwaits : w.strands f m = false) :
    ∃ m' log, CalledOff r₀ m (w.endedInGrace f m) m' log ∧ Concludes w f r₀ world m' log := by
  have htop := begins_reaches hset hw hm
  obtain ⟨s, hs, _⟩ := seen_reaches hset hw htop hseen
  have hoff := calledOff hset hw htop hseen hd hwaits
  exact ⟨_, _, hoff,
    concludes_of_seen hm hseen rfl (cancelAll_logged [] hs hoff.faultless) (.inr hoff.settled)⟩

theorem exists_leftBehind (hstrands : w.strands f m = true) :
    ∃ m' log, LeftBehind w r₀ m m' log ∧ Concludes w f r₀ world m' log := by
  have htop := begins_reaches hset hw hm
  obtain ⟨s, hs, _⟩ := seen_reaches hset hw htop hseen
  have hleft := leftBehind hset hw htop hseen hd hstrands
  exact ⟨_, _, hleft, concludes_of_seen hm hseen rfl (cancelAll_logged_of_stranding [] hs hstrands)
    (.inl (by simp [hleft.stranded.fault]))⟩

end Conclusions

/-- **Cancellation.** Whenever the loop sees that the run is cancelled, and whatever ends during the grace
period, the run is called off: what had a result keeps it, what had not started is skipped, what runs is
asked to stop and, if it has not ended in time, killed, and every job that lost an instance fails. Only
if the grace period is too long to be waited for, and something in flight has not ended when all was
asked to stop, the execution breaks off there and leaves it behind. -/
theorem execute_cancelled {wf : Workflow} {t : Trigger} {id : String} {r : Run} {ns : List Notice} {workers : Nat}
    (hb : JobGraph.build wf = .ok g) (hp : Plan.plan g t id = .ok (r, ns))
    (hd : (r.instances.map (·.id)).Nodup) (hn : 1 ≤ workers)
    (hw : w.Yields (frame g r workers) ((frame g r workers).outset r world) Own)
    (hm : w.Begins (frame g r workers) ((frame g r workers).outset r world).machine m)
    (hseen : w.cancelled m.world = true) :
    ∃ m' log, (w.strands (frame g r workers) m = false →
        CalledOff r m (w.endedInGrace (frame g r workers) m) m' log) ∧
      (w.strands (frame g r workers) m = true → LeftBehind w r m m' log) ∧
      Concludes w (frame g r workers) r world m' log := by
  have hset := Setting.of_plan hb hp hn
  have hperm : (frame g r workers).instances.Perm r.instances := List.mergeSort_perm _ _
  have hd' := (hperm.map (·.id)).nodup_iff.mpr hd
  cases hstrands : w.strands (frame g r workers) m with
  | false =>
    obtain ⟨m', log, hoff, hconcludes⟩ := exists_calledOff hset hw hm hseen hd' hstrands
    exact ⟨m', log, fun _ => hoff, fun h => absurd h Bool.false_ne_true, hconcludes⟩
  | true =>
    obtain ⟨m', log, hleft, hconcludes⟩ := exists_leftBehind hset hw hm hseen hd' hstrands
    exact ⟨m', log, fun h => absurd h.symm Bool.false_ne_true, fun _ => hleft, hconcludes⟩

/-! ## A run that is cancelled while it runs -/

/-- A wait in which nothing ends leaves everything in flight, and the loop goes on. -/
theorem await_of_silent (hm : m.fault = none) (hflight : m.flight ≠ [])
    (hsilent : (w.wait m.world m.state.phases m.flight).2 = []) :
    w.await f m = .again { m with world := (w.wait m.world m.state.phases m.flight).1 } := by
  have hempty : ¬ m.flight.isEmpty := by simpa using hflight
  simp [World.await, hempty, hsilent, Frame.endedInOrder, Machine.finishAll, Machine.turned, hm]

/-- A world in which nothing ends for five ticks, and nothing stops when it is asked to; the run is
cancelled after the first tick, with the given grace period. -/
def World.deaf (patience : Float) : World Nat := .patient 5 (some 1) (fun i => .broken i 0.0 "") patience

variable {patience : Float}

theorem startAll_deaf : ∀ (is : List Instance) (m : Machine Nat),
    ((World.deaf patience).startAll m is).world = m.world ∧
      ((World.deaf patience).startAll m is).flight = m.flight ++ is
  | [], m => by simp [World.startAll]
  | i :: rest, m => by
    obtain ⟨hworld, hflight⟩ := startAll_deaf rest ((World.deaf patience).startAll m [i])
    exact ⟨hworld, by rw [List.append_cons]; exact hflight⟩

theorem sample_begins (patience : Float) : ∃ g r ns m, JobGraph.build Plan.sample = .ok g ∧
    Plan.plan g Plan.samplePush "1" = .ok (r, ns) ∧ Plan.Fresh r ∧
    (World.deaf patience).Begins (frame g r 2) ((frame g r 2).outset r 0).machine m ∧ m.world = 1 ∧ m.flight ≠ [] := by
  obtain ⟨g, r, ns, hb, hp, hr⟩ := Plan.sample_planned
  have hall : ((JobGraph.build Plan.sample).toOption.bind fun g =>
      (Plan.plan g Plan.samplePush "1").toOption.map fun p =>
        let f : Frame := ⟨g, p.1.instances, 2⟩
        (decide (f.instances.Pairwise fun a b => before g a b),
          (f.promote (f.start p.1)).toOption.map fun q => (f.choose q.1 0 f.instances).2.isEmpty)) =
      some (true, some false) := by decide +kernel
  simp only [hb, hp, Except.toOption, Option.bind_some, Option.map_some, Option.some.injEq, Prod.mk.injEq,
    decide_eq_true_eq] at hall
  obtain ⟨hsorted, hchosen⟩ := hall
  have hframe : frame g r 2 = ⟨g, r.instances, 2⟩ := by
    rw [frame, inOrder, List.mergeSort_of_pairwise hsorted]
  rw [← hframe] at hchosen
  cases hpromote : (frame g r 2).promote ((frame g r 2).start r) with
  | error fault => simp [hpromote] at hchosen
  | ok q =>
    let f := frame g r 2
    let m : Machine Nat := { (f.outset r 0).machine with state := q.1 }
    let chosen := f.choose q.1 0 f.instances
    let m₁ := (World.deaf patience).startAll { m.tell q.2 with state := chosen.1 } chosen.2
    have hinstances : f.instances = r.instances := congrArg Frame.instances hframe
    have hne : chosen.2 ≠ [] := by simpa [chosen, hinstances, f, hpromote] using hchosen
    have hlive : ¬ (World.deaf patience).cancelled 0 := by simp [World.deaf, World.patient]
    obtain ⟨hworld, hflight⟩ := startAll_deaf chosen.2 { m.tell q.2 with state := chosen.1 }
    have hflight₁ : m₁.flight = chosen.2 := hflight
    have hworld₁ : m₁.world = 0 := hworld
    have hturn : (World.deaf patience).turn f (f.outset r 0).machine = (World.deaf patience).await f m₁ :=
      turn_eq (w := World.deaf patience) hlive hpromote
    have hsilent : ((World.deaf patience).wait m₁.world m₁.state.phases m₁.flight).2 = [] := by
      rw [hworld₁]
      rfl
    rw [await_of_silent (startAll_fault chosen.2 _) (hflight₁ ▸ hne) hsilent] at hturn
    refine ⟨g, r, ns, _, hb, hp, hr, .next .refl hturn, ?_, ?_⟩
    · exact congrArg (· + 1) hworld₁
    · exact hflight₁ ▸ hne

/-- In that world nothing ends in time, so a grace period that is too long cannot be waited for. -/
theorem strands_deaf_iff {m : Machine Nat} (hs : m.markCancelled.state.skipWaiting f.instances = .ok s)
    (hflight : m.flight ≠ []) : (World.deaf patience).strands f m = isTooLong patience := by
  have hkept := (stopAll_kept (w := World.deaf patience) m.flight { m with state := s }).2.1
  have hbusy : m.flight.any (fun _ => true) = true := by
    obtain ⟨i, hi⟩ := List.exists_mem_of_ne_nil _ hflight
    exact List.any_eq_true.mpr ⟨i, hi, rfl⟩
  rw [strands_eq hs, World.cannotWait, hkept]
  exact (congrArg (isTooLong patience && ·) hbusy).trans (Bool.and_true _)

theorem execute_cancelled_sample : ∃ g r ns m, JobGraph.build Plan.sample = .ok g ∧
    Plan.plan g Plan.samplePush "1" = .ok (r, ns) ∧
    (World.deaf 0.0).Begins (frame g r 2) ((frame g r 2).outset r 0).machine m ∧
    (World.deaf 0.0).cancelled m.world = true ∧ m.flight ≠ [] ∧
    ∃ m' log, CalledOff r m ((World.deaf 0.0).endedInGrace (frame g r 2) m) m' log ∧
      Concludes (World.deaf 0.0) (frame g r 2) r 0 m' log := by
  obtain ⟨g, r, ns, m, hb, hp, hr, hm, hworld, hflight⟩ := sample_begins 0.0
  have hw : (World.deaf 0.0).Yields (frame g r 2) ((frame g r 2).outset r 0) Own :=
    World.patient_yields fun _ => ⟨rfl, rfl⟩
  have hseen : (World.deaf 0.0).cancelled m.world = true := by rw [hworld]; decide
  have hset := Setting.of_plan hb hp (show 1 ≤ 2 by decide)
  obtain ⟨s, hs, _⟩ := seen_reaches hset hw (begins_reaches hset hw hm) hseen
  have hwaits := (strands_deaf_iff hs hflight).trans isTooLong_zero
  obtain ⟨m', log, hoff, _, hconcludes⟩ := execute_cancelled hb hp hr.distinct (by decide) hw hm hseen
  exact ⟨g, r, ns, m, hb, hp, hm, hseen, hflight, m', log, hoff hwaits, hconcludes⟩

/-! ## A grace period without end -/

/-- A grace period without end. -/
def endless : Float := 1.0 / 0.0

theorem zero_le_endless : 0.0 ≤ endless := by decide +kernel

theorem isTooLong_endless : isTooLong endless = true := by decide +kernel

/-- With a grace period without end, an instance in flight is left behind. -/
theorem endless_leftBehind : ∃ g r ns m, JobGraph.build Plan.sample = .ok g ∧
    Plan.plan g Plan.samplePush "1" = .ok (r, ns) ∧ Plan.Fresh r ∧
    (World.deaf endless).Begins (frame g r 2) ((frame g r 2).outset r 0).machine m ∧
    (World.deaf endless).cancelled m.world = true ∧ m.flight ≠ [] ∧
    ∃ m' log, LeftBehind (World.deaf endless) r m m' log ∧
      Concludes (World.deaf endless) (frame g r 2) r 0 m' log := by
  obtain ⟨g, r, ns, m, hb, hp, hr, hm, hworld, hflight⟩ := sample_begins endless
  have hw : (World.deaf endless).Yields (frame g r 2) ((frame g r 2).outset r 0) Own :=
    World.patient_yields fun _ => ⟨rfl, rfl⟩
  have hseen : (World.deaf endless).cancelled m.world = true := by rw [hworld]; decide
  have hset := Setting.of_plan hb hp (show 1 ≤ 2 by decide)
  obtain ⟨s, hs, _⟩ := seen_reaches hset hw (begins_reaches hset hw hm) hseen
  have hstrands := (strands_deaf_iff hs hflight).trans isTooLong_endless
  have hperm : (frame g r 2).instances.Perm r.instances := List.mergeSort_perm _ _
  have hleft := exists_leftBehind hset hw hm hseen ((hperm.map (·.id)).nodup_iff.mpr hr.distinct) hstrands
  exact ⟨g, r, ns, m, hb, hp, hr, hm, hseen, hflight, hleft⟩

/-- An instance that runs when the run is cancelled is asked to stop, and then has no result and is not
killed, though it may take as long as it likes. -/
theorem endless_grace_loses_instances : ∃ g r ns m i, JobGraph.build Plan.sample = .ok g ∧
    Plan.plan g Plan.samplePush "1" = .ok (r, ns) ∧ (r.instances.map (·.id)).Nodup ∧ 0.0 ≤ endless ∧
    (World.deaf endless).Begins (frame g r 2) ((frame g r 2).outset r 0).machine m ∧
    (World.deaf endless).cancelled m.world = true ∧ i ∈ r.instances ∧ i ∈ m.flight ∧
    ∃ m' log, Concludes (World.deaf endless) (frame g r 2) r 0 m' log ∧
      m'.state.run.result? i.id = none ∧ sentTo log i.id = [.stop i.id] := by
  obtain ⟨g, r, ns, m, hb, hp, hr, hm, hseen, hflight, m', log, hleft, hconcludes⟩ := endless_leftBehind
  obtain ⟨i, hi⟩ := List.exists_mem_of_ne_nil _ hflight
  have hi' : i ∈ m'.flight := hleft.flight ▸ hi
  have hplanned := hleft.stranded.flying i hi'
  have hnone := mt (hleft.stranded.recorded i hplanned).mp (not_not.mpr (List.mem_map_of_mem hi'))
  exact ⟨g, r, ns, m, i, hb, hp, hr.distinct, zero_le_endless, hm, hseen, hplanned, hi, m', log, hconcludes,
    Option.not_isSome_iff_eq_none.mp hnone, hleft.asked i hi⟩

end MergeGate.Schedule
