/-
Runs as stores of results: a result once recorded is found under its id for good, recording succeeds
exactly on an open run without a result under that id, and a complete open run with a graph has a
report.
-/
import MergeGate.Proofs.Basic
import MergeGate.Run.Basic

namespace MergeGate.Run

theorem result?_eq_some {r : Run} {id : String} {x : Result} (h : r.result? id = some x) :
    x ∈ r.results ∧ x.instanceId = id := by
  refine ⟨List.mem_of_find?_eq_some h, ?_⟩
  simpa using List.find?_some h

theorem result?_eq_none_iff {r : Run} {id : String} :
    r.result? id = none ↔ ∀ x ∈ r.results, x.instanceId ≠ id := by
  simp [result?, List.find?_eq_none]

theorem result?_isSome_iff {r : Run} {id : String} :
    (r.result? id).isSome ↔ ∃ x ∈ r.results, x.instanceId = id := by
  simp [result?, List.find?_isSome]

/-- What stands in a run stays found when more results are recorded after it. -/
theorem result?_mono {r r' : Run} (h : r.results <+: r'.results) {id : String} {x : Result}
    (hx : r.result? id = some x) : r'.result? id = some x := by
  obtain ⟨more, hmore⟩ := h
  rw [result?, ← hmore, List.find?_append]
  rw [result?] at hx
  rw [hx, Option.some_or]

/-- Where no two results share an id, each is found under its own. -/
theorem result?_of_mem {r : Run} (hd : (r.results.map (·.instanceId)).Nodup) {x : Result}
    (hx : x ∈ r.results) : r.result? x.instanceId = some x := by
  have hfound : (r.result? x.instanceId).isSome := result?_isSome_iff.mpr ⟨x, hx, rfl⟩
  obtain ⟨y, hy⟩ := Option.isSome_iff_exists.mp hfound
  obtain ⟨hmem, hid⟩ := result?_eq_some hy
  rw [hy, List.inj_on_of_nodup_map hd hmem hx hid]

/-- A job whose results all bear one id has the one result that is found under it. -/
theorem resultsFor_eq_singleton {r : Run} (hd : (r.results.map (·.instanceId)).Nodup) {x : Result}
    (hx : x ∈ r.results) (hall : ∀ y ∈ r.results, y.job = x.job → y.instanceId = x.instanceId) :
    r.resultsFor x.job = [x] := by
  have hmem : ∀ y, y ∈ r.resultsFor x.job ↔ y = x := by
    intro y
    rw [resultsFor, List.mem_filter, beq_iff_eq]
    constructor
    · rintro ⟨hy, hjob⟩
      exact List.inj_on_of_nodup_map hd hy hx (hall y hy hjob)
    · rintro rfl
      exact ⟨hx, rfl⟩
  have hnodup : (r.resultsFor x.job).Nodup := hd.of_map.filter _
  refine List.perm_singleton.mp ((List.perm_ext_iff_of_nodup hnodup (List.nodup_singleton _)).mpr fun y => ?_)
  rw [hmem, List.mem_singleton]

theorem record_eq_ok_iff {r r' : Run} {x : Result} : r.record x = .ok r' ↔
    r.report = none ∧ r.result? x.instanceId = none ∧ r' = { r with results := r.results ++ [x] } := by
  rw [record]
  split
  · next h => simp [Option.isSome_iff_ne_none.mp h]
  · next h =>
    split
    · next h' => simp [Option.isSome_iff_ne_none.mp h']
    · next h' =>
      simp only [Option.not_isSome_iff_eq_none] at h h'
      simp [h, h', eq_comm]

theorem result?_append {r : Run} {x : Result} {id : String} :
    Run.result? { r with results := r.results ++ [x] } id =
      (r.result? id).or (if x.instanceId = id then some x else none) := by
  rw [result?, result?, List.find?_append]
  by_cases h : x.instanceId = id <;> simp [h]

theorem complete_iff {r : Run} : r.complete = true ↔ ∀ i ∈ r.instances, (r.result? i.id).isSome := by
  simp [complete, List.all_eq_true]

/-- A result is listed under its reason once, and under no other. -/
theorem count_listed {r : Run} (hd : (r.results.map (·.instanceId)).Nodup) {x : Result} (hx : x ∈ r.results)
    (reason : String) :
    ((r.results.filter (·.reason == some reason)).map (·.instanceId)).count x.instanceId =
      if x.reason = some reason then 1 else 0 := by
  have hsub : ((r.results.filter (·.reason == some reason)).map (·.instanceId)).Nodup :=
    hd.sublist (List.filter_sublist.map _)
  split
  · next hreason =>
    refine List.count_eq_one_of_mem hsub (List.mem_map_of_mem (List.mem_filter.mpr ⟨hx, ?_⟩))
    simp [hreason]
  · next hreason =>
    refine List.count_eq_zero.mpr fun hmem => hreason ?_
    obtain ⟨y, hy, hid⟩ := List.mem_map.mp hmem
    obtain ⟨hy, hyr⟩ := List.mem_filter.mp hy
    obtain rfl := List.inj_on_of_nodup_map hd hy hx hid
    simpa using hyr

/-- What a run that has not reported yet gives, by whether it is complete. -/
theorem gateReport_open {r : Run} {g : JobGraph} (hopen : r.report = none) (hgraph : r.graph = some g) :
    r.gateReport = if r.complete then .ok (r.reportOf g, { r with report := some (r.reportOf g) })
      else .error (.incomplete r.id r.missing) := by
  simp only [gateReport, hopen, hgraph]

/-- A complete run that has not reported yet reports its current results. -/
theorem gateReport_of_complete {r : Run} {g : JobGraph} (hopen : r.report = none)
    (hgraph : r.graph = some g) (hdone : r.complete = true) :
    r.gateReport = .ok (r.reportOf g, { r with report := some (r.reportOf g) }) := by
  rw [gateReport_open hopen hgraph, if_pos hdone]

end MergeGate.Run
