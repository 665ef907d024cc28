/-
One report that is sent several times over, by requests that come between each other's steps. Reading
the row of the run and writing it are two steps, and what is written depends on what was read: a request
that writes over another's writing either finds a row where it had found none, and fails, or takes back
what the other had counted. So all are counted exactly when no request writes between another's reading
and writing (`counted_iff_undisturbed`). The run is queued once in any case.
-/
import MergeGate.Proofs.Receiver.Payload
import MergeGate.Proofs.Receiver.Rush

namespace MergeGate.Receiver

/-! ## Orders -/

/-- No request writes between another's reading and writing. A request reads when it has its first turn
and writes when it has its second. -/
def Undisturbed {n : Nat} (order : List (Fin n)) : Prop :=
  ∀ a i b c, order = a ++ i :: b ++ i :: c → i ∉ a → i ∉ b →
    ∀ j, 2 ≤ (a ++ b).count j → 2 ≤ a.count j

/-- How many requests have had the turn in which they write. -/
def written {n : Nat} (order : List (Fin n)) : Nat :=
  (Finset.univ.filter fun i => 2 ≤ order.count i).card

section Order

variable {n : Nat} {p : List (Fin n)} {i : Fin n}

theorem written_nil : written ([] : List (Fin n)) = 0 := by simp [written]

theorem written_concat (p : List (Fin n)) (i : Fin n) :
    written (p ++ [i]) = if p.count i = 1 then written p + 1 else written p := by
  have hcount : ∀ j, (p ++ [i]).count j = p.count j + if i = j then 1 else 0 := fun j => by
    rw [List.count_append, List.count_singleton]
    simp
  split
  · next h =>
    have hnew : (Finset.univ.filter fun j => 2 ≤ (p ++ [i]).count j) =
        insert i (Finset.univ.filter fun j => 2 ≤ p.count j) := by
      ext j
      by_cases hj : i = j
      · subst hj
        simp [hcount, h]
      · simp [hcount, hj, Ne.symm hj]
    rw [written, hnew, Finset.card_insert_of_notMem (by simp [h]), written]
  · next h =>
    have hsame : (Finset.univ.filter fun j => 2 ≤ (p ++ [i]).count j) =
        Finset.univ.filter fun j => 2 ≤ p.count j := by
      ext j
      by_cases hj : i = j
      · subst hj
        simp only [hcount, Finset.mem_filter, Finset.mem_univ, true_and, if_true]
        omega
      · simp [hcount, hj]
    rw [written, hsame, written]

/-- Between the turns of a request there are writes exactly if it is disturbed. -/
theorem written_lt_iff {a b : List (Fin n)} (ha : i ∉ a) (hb : i ∉ b) :
    written a < written (a ++ i :: b) ↔ ∃ j, 2 ≤ (a ++ b).count j ∧ a.count j < 2 := by
  have hcount : ∀ j, 2 ≤ (a ++ i :: b).count j ↔ 2 ≤ (a ++ b).count j := fun j => by
    by_cases hj : i = j
    · subst hj
      simp [List.count_eq_zero_of_not_mem, ha, hb]
    · simp [hj]
  have hsubset : (Finset.univ.filter fun j => 2 ≤ a.count j) ⊆
      Finset.univ.filter fun j => 2 ≤ (a ++ i :: b).count j := by
    intro j
    simp only [Finset.mem_filter, Finset.mem_univ, true_and, List.count_append]
    omega
  rw [written, written]
  refine ⟨fun hlt => ?_, fun ⟨j, hj, hja⟩ => ?_⟩
  · obtain ⟨j, hj, hja⟩ := Finset.exists_mem_notMem_of_card_lt_card hlt
    simp only [Finset.mem_filter, Finset.mem_univ, true_and, not_le] at hj hja
    exact ⟨j, (hcount j).1 hj, hja⟩
  · refine Finset.card_lt_card (Finset.ssubset_iff_of_subset hsubset |>.2 ⟨j, ?_⟩)
    simpa only [Finset.mem_filter, Finset.mem_univ, true_and, not_le, hcount] using ⟨hj, hja⟩

theorem written_le_append (a b : List (Fin n)) : written a ≤ written (a ++ b) := by
  refine Finset.card_le_card fun j => ?_
  simp only [Finset.mem_filter, Finset.mem_univ, true_and, List.count_append]
  omega

/-- Where a request has had its second turn, the order says when it had its first. -/
theorem exists_first_turn (h : p.count i = 1) : ∃ a b, p = a ++ i :: b ∧ i ∉ a ∧ i ∉ b := by
  obtain ⟨a, b, rfl, ha⟩ := List.eq_append_cons_of_mem (List.count_pos_iff.1 (by omega : 0 < p.count i))
  refine ⟨a, b, rfl, ha, fun hb => ?_⟩
  have hpos := List.count_pos_iff.2 hb
  rw [List.count_append, List.count_cons_self, List.count_eq_zero_of_not_mem ha] at h
  omega

end Order

/-! ## One entry on the queue -/

/-- Is the request about to put its run on the queue? -/
def Task.pushes : Task → Bool
  | .push _ => true
  | _ => false

/-- Has the request written? -/
def Task.wrote : Task → Bool
  | .mark _ | .push _ | .accepted _ => true
  | _ => false

/-- How many requests are about to put the run on the queue. -/
def Rush.pushing {n : Nat} (f : Rush n) : Nat := (Finset.univ.filter fun i => (f.task i).pushes).card

/-- Whoever marks the run puts it on the queue, and once a report is counted there is someone to
mark it. -/
structure Queues (r : StatusReport) {n : Nat} (f : Rush n) (m : Nat) : Prop where
  once : f.store.queue.count r.runId + f.pushing = if r.runId ∈ f.store.published then 1 else 0
  accepted : ∀ i a, f.task i = .accepted a → r.runId ∈ f.store.published
  wrote : m ≠ 0 → ∃ i, (f.task i).wrote

section

variable {n m m' : Nat} {r : StatusReport} {payload : Value} {s : Store} {f f' : Rush n} {i : Fin n}

theorem pushing_update (f : Rush n) (i : Fin n) (t : Task) (s : Store) :
    (Rush.mk (Function.update f.task i t) s).pushing + (if (f.task i).pushes then 1 else 0) =
      f.pushing + if t.pushes then 1 else 0 := by
  simp only [Rush.pushing, Finset.card_filter]
  rw [← Finset.add_sum_erase _ _ (Finset.mem_univ i), ← Finset.add_sum_erase _ _ (Finset.mem_univ i),
    Function.update_self, Finset.sum_congr rfl fun j hj => by
      rw [Function.update_of_ne (Finset.ne_of_mem_erase hj)]]
  omega

theorem Queues.update (h : Queues r f m) {t : Task} {s : Store}
    (honce : s.queue.count r.runId + f.pushing + (if t.pushes then 1 else 0) =
      (if r.runId ∈ s.published then 1 else 0) + if (f.task i).pushes then 1 else 0)
    (hmark : r.runId ∈ f.store.published → r.runId ∈ s.published)
    (haccepted : ∀ a, t = .accepted a → r.runId ∈ s.published)
    (hwrote : (f.task i).wrote → t.wrote) (hm : m' ≠ 0 → m ≠ 0 ∨ t.wrote) :
    Queues r ⟨Function.update f.task i t, s⟩ m' := by
  refine ⟨?_, ?_, fun hm' => ?_⟩
  · have hpushing := pushing_update f i t s
    dsimp only
    omega
  · exact (Function.forall_update_iff f.task fun _ t => ∀ a, t = .accepted a → r.runId ∈ s.published).2
      ⟨haccepted, fun j _ a ha => hmark (h.accepted j a ha)⟩
  · by_cases ht : t.wrote
    · exact ⟨i, by simpa using ht⟩
    · obtain ⟨j, hj⟩ := h.wrote ((hm hm').resolve_right ht)
      have hji : j ≠ i := fun hji => ht (hwrote (hji ▸ hj))
      exact ⟨j, by simpa [hji] using hj⟩

theorem Moves.queues (hmove : Moves r payload f m i f' m') (h : Queues r f m) : Queues r f' m' := by
  have honce := h.once
  cases hmove with
  | reads htask | collides htask _ =>
    refine h.update ?_ id (fun a ha => by cases ha) (by simp [htask, Task.wrote]) .inl
    simpa [htask, Task.pushes] using honce
  | writes htask _ hmark hqueue =>
    refine h.update ?_ (hmark ▸ id) (fun a ha => by cases ha) (fun _ => rfl) fun _ => .inr rfl
    simpa [htask, Task.pushes, hmark, hqueue] using honce
  | marks htask hnew _ hmark hqueue =>
    refine h.update ?_ (fun hold => absurd hold hnew) (fun a ha => by cases ha) (fun _ => rfl) .inl
    rw [if_neg hnew] at honce
    simpa [htask, Task.pushes, hmark, hqueue] using honce
  | knows htask hold _ hmark hqueue =>
    refine h.update ?_ (hmark ▸ id) (fun _ _ => hmark ▸ hold) (fun _ => rfl) .inl
    simpa [htask, Task.pushes, hmark, hqueue] using honce
  | pushes htask _ hmark hqueue =>
    have hpushing : 0 < f.pushing := Finset.card_pos.2 ⟨i, Finset.mem_filter.2
      ⟨Finset.mem_univ i, by rw [htask]; rfl⟩⟩
    have hmarked : r.runId ∈ f.store.published := by
      by_contra hnew
      rw [if_neg hnew] at honce
      omega
    refine h.update ?_ (hmark ▸ id) (fun _ _ => hmark ▸ hmarked) (fun _ => rfl) .inl
    rw [if_pos hmarked] at honce
    simp only [htask, Task.pushes, hmark, hqueue, List.count_append, List.count_singleton_self]
    simp [hmarked]
    omega
  | rests _ => exact h

theorem StatusReport.New.queues (hnew : r.New payload s) (p : List (Fin n)) :
    Queues r (after r s p) ((after r s p).counted r) := by
  induction p using List.reverseRecOn with
  | nil =>
    have hpushing : (after r s ([] : List (Fin n))).pushing = 0 := by
      simp [Rush.pushing, after, Rush.run, Rush.start, Task.pushes]
    refine ⟨?_, fun i a h => ?_, fun hm => absurd (counted_nil hnew) hm⟩
    · rw [hpushing]
      exact hnew.blank.queue.trans (if_neg hnew.blank.mark).symm
    · cases (show Task.read = .accepted a from h)
  | append_singleton p i ih =>
    exact (hnew.moves p i).queues ih

end

/-! ## Counting every report -/

/-- So many of the writes are lost, and stay lost whatever is still to be written. -/
structure Behind (r : StatusReport) (payload : Value) {n : Nat} (f : Rush n) (m w d : Nat) : Prop where
  counted : m + d ≤ w
  pending : ∀ i k, f.task i = .write (writeAfter r payload k) → k + d ≤ w

section

variable {n m m' w w' d : Nat} {r : StatusReport} {payload : Value} {s : Store} {f f' : Rush n}
  {i : Fin n}

/-- What another step may do to the count while `w` grows with the writes. -/
theorem Moves.behind (hmove : Moves r payload f m i f' m') (h : Behind r payload f m w d)
    (hle : w ≤ w') (hwrite : (f.task i).turns = 1 → w' = w + 1) : Behind r payload f' m' w' d := by
  have hothers : ∀ {t : Task}, (∀ k, t = .write (writeAfter r payload k) → k + d ≤ w') →
      ∀ j k, Function.update f.task i t j = .write (writeAfter r payload k) → k + d ≤ w' := fun ht =>
    (Function.forall_update_iff f.task fun _ t => ∀ k, t = .write (writeAfter r payload k) → k + d ≤ w').2
      ⟨ht, fun j _ k hk => (h.pending j k hk).trans hle⟩
  have hcounted := h.counted
  cases hmove with
  | reads htask =>
    refine ⟨hcounted.trans hle, hothers fun k hk => ?_⟩
    rw [← writeAfter_inj (Task.write.inj hk)]
    exact hcounted.trans hle
  | writes htask =>
    have hk := h.pending i _ htask
    have hw := hwrite (by rw [htask]; rfl)
    exact ⟨by omega, hothers fun k hk => by cases hk⟩
  | collides htask _ | marks htask _ _ _ _ | knows htask _ _ _ _ | pushes htask _ _ _ =>
    exact ⟨hcounted.trans hle, hothers fun k hk => by cases hk⟩
  | rests _ => exact ⟨hcounted.trans hle, fun j k hk => (h.pending j k hk).trans hle⟩

/-- A request that writes what it found before the last writes takes one of them back. -/
theorem Moves.behind_of_late (hmove : Moves r payload f m i f' m') (h : Behind r payload f m w 0)
    {k : Nat} (htask : f.task i = .write (writeAfter r payload k)) (hk : k < w) :
    Behind r payload f' m' (w + 1) 1 := by
  have hm := h.counted
  have hpending : ∀ j k, f.task j = .write (writeAfter r payload k) → k + 1 ≤ w + 1 := fun j k hk =>
    Nat.succ_le_succ (h.pending j k hk)
  have hothers : ∀ {t : Task}, (∀ k, t ≠ .write (writeAfter r payload k)) →
      ∀ j k, Function.update f.task i t j = .write (writeAfter r payload k) → k + 1 ≤ w + 1 := fun ht =>
    (Function.forall_update_iff f.task fun _ t => ∀ k, t = .write (writeAfter r payload k) →
      k + 1 ≤ w + 1).2 ⟨fun k hk => absurd hk (ht k), fun j _ => hpending j⟩
  cases hmove with
  | @writes k' _ htask' =>
    obtain rfl := writeAfter_inj (Task.write.inj (htask.symm.trans htask'))
    exact ⟨by omega, hothers fun k hk => by cases hk⟩
  | collides _ _ => exact ⟨by omega, hothers fun k hk => by cases hk⟩
  | reads htask' | marks htask' _ _ _ _ | knows htask' _ _ _ _ | pushes htask' _ _ _ =>
    cases htask.symm.trans htask'
  | rests h' =>
    rw [htask] at h'
    cases h'

/-- While each request writes what is counted, every write counts and none is refused. -/
theorem Moves.even (hmove : Moves r payload f m i f' m') (hm : m = w)
    (hnone : ∀ j refusal, f.task j ≠ .refused refusal)
    (hw : w' = if (f.task i).turns = 1 then w + 1 else w)
    (hk : ∀ k, f.task i = .write (writeAfter r payload k) → k = m) :
    m' = w' ∧ ∀ j refusal, f'.task j ≠ .refused refusal := by
  have hothers : ∀ {t : Task}, (∀ refusal, t ≠ .refused refusal) →
      ∀ j refusal, Function.update f.task i t j ≠ .refused refusal := fun ht =>
    (Function.forall_update_iff f.task fun _ t => ∀ refusal, t ≠ .refused refusal).2
      ⟨ht, fun j _ => hnone j⟩
  cases hmove with
  | writes htask =>
    rw [htask] at hw
    exact ⟨by rw [hk _ htask, hm, hw]; rfl, hothers fun _ h => by cases h⟩
  | collides htask h => exact absurd (hk _ htask).symm h
  | reads htask | marks htask _ _ _ _ | knows htask _ _ _ _ | pushes htask _ _ _ =>
    rw [htask] at hw
    exact ⟨by rw [hm, hw]; rfl, hothers fun _ h => by cases h⟩
  | rests hended =>
    refine ⟨?_, hnone⟩
    rw [hw, hm, if_neg]
    cases htask : f.task i <;> simp_all [Task.code?, Task.turns]

end

section

variable {n : Nat} {r : StatusReport} {payload : Value} {s : Store} {p order : List (Fin n)} {i : Fin n}

theorem Follows.turns_eq_one (h : Follows r payload s p) :
    ((after r s p).task i).turns = 1 ↔ p.count i = 1 := by
  have hturns := (h.turns i).1
  omega

theorem StatusReport.New.behind_concat (hnew : r.New payload s) {d : Nat}
    (h : Behind r payload (after r s p) ((after r s p).counted r) (written p) d) (i : Fin n) :
    Behind r payload (after r s (p ++ [i])) ((after r s (p ++ [i])).counted r) (written (p ++ [i])) d := by
  refine (hnew.moves p i).behind h (written_le_append p [i]) fun hturns => ?_
  rw [written_concat, if_pos ((hnew.follows p).turns_eq_one.1 hturns)]

theorem StatusReport.New.behind_append (hnew : r.New payload s) {d : Nat}
    (h : Behind r payload (after r s p) ((after r s p).counted r) (written p) d) (q : List (Fin n)) :
    Behind r payload (after r s (p ++ q)) ((after r s (p ++ q)).counted r) (written (p ++ q)) d := by
  induction q using List.reverseRecOn with
  | nil => rwa [List.append_nil]
  | append_singleton q i ih =>
    rw [← List.append_assoc]
    exact hnew.behind_concat ih i

/-- No more is counted than was written. -/
theorem StatusReport.New.behind_zero (hnew : r.New payload s) (p : List (Fin n)) :
    Behind r payload (after r s p) ((after r s p).counted r) (written p) 0 := by
  have hstart : Behind r payload (after r s ([] : List (Fin n))) ((after r s ([] : List (Fin n))).counted r)
      (written ([] : List (Fin n))) 0 :=
    ⟨by rw [counted_nil hnew]; exact Nat.zero_le _, fun i k h => by cases (show Task.read = .write _ from h)⟩
  exact hnew.behind_append hstart p

/-- A disturbed request leaves the count behind. -/
theorem StatusReport.New.counted_lt (hnew : r.New payload s) (h : ¬ Undisturbed order) :
    (after r s order).counted r < written order := by
  simp only [Undisturbed, not_forall, not_le] at h
  obtain ⟨a, i, b, c, rfl, ha, hb, j, hj, hja⟩ := h
  have hlate : (after r s a).counted r < written (a ++ i :: b) :=
    (hnew.behind_zero a).counted.trans_lt ((written_lt_iff ha hb).2 ⟨j, hj, hja⟩)
  have htask := (hnew.follows (a ++ i :: b)).pending a i b rfl ha hb
  have hwritten : written (a ++ i :: b ++ [i]) = written (a ++ i :: b) + 1 := by
    rw [written_concat, if_pos]
    simp [List.count_eq_zero_of_not_mem, ha, hb]
  have hbehind := (hnew.moves (a ++ i :: b) i).behind_of_late (hnew.behind_zero _) htask hlate
  rw [← hwritten] at hbehind
  have hend := hnew.behind_append hbehind c
  rw [List.append_assoc, List.singleton_append] at hend
  exact hend.counted

/-- Without a disturbance everything is counted and nothing is refused. -/
theorem StatusReport.New.counted_eq (hnew : r.New payload s) (h : Undisturbed order) (hp : p <+: order) :
    ∀ q, q <+: p → (after r s q).counted r = written q ∧
      ∀ i refusal, (after r s q).task i ≠ .refused refusal := by
  induction p using List.reverseRecOn with
  | nil =>
    intro q hq
    obtain rfl := List.prefix_nil.1 hq
    exact ⟨(counted_nil hnew).trans written_nil.symm, fun i refusal h => by
      cases (show Task.read = .refused _ from h)⟩
  | append_singleton p i ih =>
    have ih := ih ((List.prefix_append p [i]).trans hp)
    intro q hq
    obtain rfl | hq := List.prefix_concat_iff.1 hq
    · obtain ⟨heven, hnone⟩ := ih p List.prefix_rfl
      refine (hnew.moves p i).even heven hnone ?_ fun k hk => ?_
      · simp only [(hnew.follows p).turns_eq_one, written_concat]
      · -- What is written was read when as much was written as now.
        have hturns : p.count i = 1 := (hnew.follows p).turns_eq_one.1 (by rw [hk]; rfl)
        obtain ⟨a, b, rfl, ha, hb⟩ := exists_first_turn hturns
        have hread := (hnew.follows _).pending a i b rfl ha hb
        rw [writeAfter_inj (Task.write.inj (hk.symm.trans hread)), (ih a (List.prefix_append ..)).1, heven]
        refine (written_le_append a (i :: b)).antisymm (not_lt.1 fun hlt => ?_)
        obtain ⟨j, hj, hja⟩ := (written_lt_iff ha hb).1 hlt
        obtain ⟨c, rfl⟩ := hp
        have := h a i b c (by simp) ha hb j hj
        omega
    · exact ih q hq

end

/-! ## Every interleaving -/

section

variable {n m : Nat} {r : StatusReport} {payload : Value} {s : Store} {f : Rush n} {order : List (Fin n)}

theorem Task.eq_of_ended (t : Task) (h : t.code?.isSome) :
    (∃ a, t = .accepted a) ∨ ∃ refusal, t = .refused refusal := by
  cases t with
  | accepted a => exact .inl ⟨a, rfl⟩
  | refused refusal => exact .inr ⟨refusal, rfl⟩
  | read | write _ | mark _ | push _ => cases h

theorem Follows.written_eq (h : Follows r payload s order)
    (hended : ∀ i, ((after r s order).task i).code?.isSome) : written order = n := by
  have hall : ∀ i, 2 ≤ order.count i := fun i => by
    have hturns := (h.turns i).1
    obtain ⟨a, ha⟩ | ⟨refusal, ha⟩ := Task.eq_of_ended _ (hended i) <;>
      · rw [ha] at hturns
        simp only [Task.turns] at hturns
        omega
  simp [written, hall]

theorem Follows.counted_ne_zero (h : Follows r payload s order)
    (hended : ∀ i, ((after r s order).task i).code?.isSome) (i : Fin n) :
    (after r s order).counted r ≠ 0 := by
  have hfits := h.stands.task i
  obtain ⟨a, ha⟩ | ⟨refusal, ha⟩ := Task.eq_of_ended _ (hended i)
  · rw [ha] at hfits
    exact hfits
  · rw [ha] at hfits
    exact hfits.2

/-- Once all have ended, a run with a row is on the queue once. -/
theorem Queues.count_eq_one (h : Queues r f m) (hended : ∀ i, (f.task i).code?.isSome) (hm : m ≠ 0) :
    f.store.queue.count r.runId = 1 := by
  have hpushing : f.pushing = 0 := by
    refine Finset.card_eq_zero.2 (Finset.filter_eq_empty_iff.2 fun i _ => ?_)
    obtain ⟨a, ha⟩ | ⟨refusal, ha⟩ := Task.eq_of_ended _ (hended i) <;> simp [ha, Task.pushes]
  obtain ⟨i, hi⟩ := h.wrote hm
  obtain ⟨a, ha⟩ | ⟨refusal, ha⟩ := Task.eq_of_ended _ (hended i)
  · have honce := h.once
    rwa [hpushing, if_pos (h.accepted i a ha), Nat.add_zero] at honce
  · rw [ha] at hi
    cases hi

end

/-- How requests with one report of a new run have ended. -/
structure Ended (r : StatusReport) {n : Nat} (order : List (Fin n)) (f : Rush n) : Prop where
  queue : f.store.queue.count r.runId = 1
  answer : ∀ i, (f.task i).code? = some 200 ∨ f.task i = .refused (.duplicateKey r.runId)
  row : ∃ row, f.store.row? r.runId = some row ∧ r.payload = .ok row.payload ∧
    1 ≤ row.reports ∧ row.reports ≤ n ∧ (row.reports = n ↔ Undisturbed order)
  undisturbed : Undisturbed order → ∀ i, (f.task i).code? = some 200

/-- **A report that is sent several times is queued once, and counted in full exactly if no request
writes between another's reading and writing.** A request is answered in its first four turns; one that
is not taken has found that another stored its row in between. -/
theorem counted_iff_undisturbed {n : Nat} {body : Value} {r : StatusReport} {s : Store}
    (hbody : body.IsDocument fun _ => True) (hreport : report body = .ok r) (hblank : s.Blank r.runId)
    (hn : 0 < n) (order : List (Fin n)) :
    let f := (Rush.start n s).run r order
    (∀ i, 4 ≤ order.count i → (f.task i).code?.isSome) ∧
      ((∀ i, (f.task i).code?.isSome) → Ended r order f) := by
  intro f
  obtain ⟨payload, hstored, hsame⟩ := payload_of_document hbody hreport
  have hnew : r.New payload s := ⟨hstored, hsame, hblank⟩
  have hfollows : Follows r payload s order := hnew.follows order
  refine ⟨fun i hi => ?_, fun hended => ?_⟩
  · have hturns := (hfollows.turns i).2
    change min 4 (order.count i) ≤ (f.task i).turns at hturns
    cases htask : f.task i <;> simp_all [Task.turns, Task.code?]
  · have hwritten : written order = n := hfollows.written_eq hended
    have hm : f.counted r ≠ 0 := hfollows.counted_ne_zero hended ⟨0, hn⟩
    have hcounted : f.counted r = n ↔ Undisturbed order := by
      refine ⟨fun heq => by_contra fun h => ?_, fun h => ?_⟩
      · have hlt := hnew.counted_lt h
        rw [hwritten] at hlt
        exact hlt.ne heq
      · exact (hnew.counted_eq h List.prefix_rfl order List.prefix_rfl).1.trans hwritten
    refine ⟨(hnew.queues order).count_eq_one hended hm, fun i => ?_, ?_, fun h i => ?_⟩
    · obtain ⟨a, ha⟩ | ⟨refusal, hrefused⟩ := (f.task i).eq_of_ended (hended i)
      · exact .inl (by rw [ha]; rfl)
      · have hfits := hfollows.stands.task i
        rw [show (after r s order).task i = _ from hrefused] at hfits
        exact .inr (hfits.1 ▸ hrefused)
    · refine ⟨rowAt r payload (f.counted r), ?_, hstored, Nat.pos_of_ne_zero hm, ?_, hcounted⟩
      · exact hfollows.stands.row.trans (if_neg hm)
      · have hle := (hnew.behind_zero order).counted
        rwa [hwritten] at hle
    · obtain ⟨a, ha⟩ | ⟨refusal, hrefused⟩ := (f.task i).eq_of_ended (hended i)
      · rw [ha]
        rfl
      · exact absurd hrefused ((hnew.counted_eq h List.prefix_rfl order List.prefix_rfl).2 i refusal)

/-! ### Some interleavings -/

/-- A report of a run in which nothing was to be done. -/
def emptyReport : StatusReport := { runId := "r", overall := .failed, definitions := [] }

/-- The body of a request with that report. -/
def emptyBody : Value :=
  .ofFields [("run_id", .text "r"), ("overall", .text "failed"), ("definitions", .list [])]

theorem emptyBody_document : emptyBody.IsDocument fun _ => True :=
  .object (by decide) (by simp [Value.IsDocument.text, Value.IsDocument.list])

theorem blank_empty (runId : String) : Store.Blank {} runId := ⟨rfl, by simp, rfl⟩

/-- The first request is taken on its own, and the other two take their turns together. -/
def togetherSample : List (Fin 3) := [0, 0, 0, 0, 1, 2, 1, 2, 1, 2]

theorem counted_iff_undisturbed_sample :
    let f := (Rush.start 3 {}).run emptyReport togetherSample
    emptyBody.IsDocument (fun _ => True) ∧ report emptyBody = .ok emptyReport ∧
      (∀ i, (f.task i).code?.isSome) ∧ Ended emptyReport togetherSample f := by
  have hreport : report emptyBody = .ok emptyReport := rfl
  have hended : ∀ i, (((Rush.start 3 {}).run emptyReport togetherSample).task i).code?.isSome := by
    decide +kernel
  exact ⟨emptyBody_document, hreport, hended,
    (counted_iff_undisturbed emptyBody_document hreport (blank_empty "r") (by decide) togetherSample).2 hended⟩

/-- Reports are lost. Of two first reports that read before either is stored, one is answered with a
server's error; and where two more reports are taken together, all are answered 200 but only one of
those two is counted. -/
theorem together_lost :
    let two := (Rush.start 2 {}).run emptyReport [0, 1, 0, 1, 0, 0]
    let three := (Rush.start 3 {}).run emptyReport togetherSample
    ((two.task 0).code? = some 200 ∧ (two.task 1).code? = some 500 ∧ two.counted emptyReport = 1) ∧
      (∀ i, (three.task i).code? = some 200) ∧ three.counted emptyReport = 2 := by
  decide +kernel

end MergeGate.Receiver
