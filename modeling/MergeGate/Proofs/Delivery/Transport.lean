/-
Deliveries to a receiver, by what comes of the requests. A request that does not reach the receiver, or that it
refuses in so many words, is sent again, until one succeeds or the retries are used up; anything else ends the
delivery at once (`posts_until_broken`). So failures are all retried exactly if no request before the end is
lost while its answer is awaited or read, or refused in bytes that are no text (`lost_answer_not_retried`).
-/
import MergeGate.Proofs.Delivery.Exchange
import MergeGate.Proofs.Delivery.Retries

namespace MergeGate.Delivery

/-- Is the request sent again after such an answer, if it may be? -/
def Answer.isRetried : Answer → Bool
  | unreachable _ => true
  | refused _ _ body => (Text.decode body).isOk
  | ok | lost _ => false

/-- Every failure is retried: there are attempts until one succeeds or the retries are used up, and what a
delivery that does not succeed ends with is a failure to report. -/
structure Persists (retries : Nat) (answers : Nat → Answer) (d : Delivered Site) : Prop where
  attempts : ∃ n ≤ retries, d.attempts = [n + 1] ∧ (∀ k < n, answers k ≠ .ok) ∧ (answers n = .ok ∨ n = retries)
  failure : ∀ fault, d.verdict ≠ .broken fault

/-- The trace of a delivery to a receiver whose last attempt is the given one, counted from zero. -/
structure Posts (retries : Nat) (backoff : Seconds) (runId : String) (sent : Request) (w : Site)
    (answers : Nat → Answer) (d : Delivered Site) (last : Nat) : Prop where
  bound : last ≤ retries
  before : ∀ k < last, (answers k).isRetried = true
  stops : last = retries ∨ (answers last).isRetried = false
  attempts : d.attempts = [last + 1]
  pauses : d.pauses = (List.range' 1 last).map backoff.times
  verdict : d.verdict = (answers last).verdict runId
  world : d.world = { w with requests := w.requests ++ List.replicate (last + 1) sent }

section

variable {retries last : Nat} {backoff : Seconds} {run run' : Run} {report : GateReport} {base : String}
  {timeout : Value} {sent : Request}
  {answers : Nat → Answer} {w : Site} {d : Delivered Site} {runId : String} {a : Answer}

/-! ## Answers -/

theorem Answer.isRetried_iff (runId : String) : a.isRetried = true ↔ ∃ f, a.verdict runId = .failed f := by
  cases a with
  | refused code reason body => cases h : Text.decode body <;> simp [isRetried, verdict, h, Except.isOk, Except.toBool]
  | _ => simp [isRetried, verdict]

theorem Answer.ne_ok_of_isRetried (h : a.isRetried = true) : a ≠ .ok := by
  rintro rfl
  cases h

/-- An answer after which the request is not sent again is a success, or breaks the delivery. -/
theorem Answer.ok_or_broken (runId : String) (h : a.isRetried = false) :
    a = .ok ∨ ∃ fault, a.verdict runId = .broken fault := by
  cases hverdict : a.verdict runId with
  | delivered => exact .inl (verdict_delivered hverdict)
  | failed f =>
    rw [(isRetried_iff runId).2 ⟨f, hverdict⟩] at h
    cases h
  | broken fault => exact .inr ⟨fault, rfl⟩

/-! ## Attempts -/

theorem toReceiver_eq (hreport : run.gateReport = .ok (report, run')) (hsent : request base timeout report = .ok sent)
    (count : Nat) (w : Site) : toReceiver run base timeout answers count w =
      ((answers count).verdict report.runId, { w with requests := w.requests ++ [sent] }) := by
  simp only [toReceiver, reporting, hreport, hsent]

/-- Each attempt sends the request once. -/
theorem after_toReceiver (hreport : run.gateReport = .ok (report, run'))
    (hsent : request base timeout report = .ok sent) (n : Nat) :
    after (toReceiver run base timeout answers) w n = { w with requests := w.requests ++ List.replicate n sent } := by
  induction n with
  | zero => simp [after]
  | succ n ih => simp [after, toReceiver_eq hreport hsent, ih, List.replicate_succ']

/-- **The request is sent until it is not retried, or the retries are used up.** -/
theorem exists_posts (retries : Nat) (backoff : Seconds) (answers : Nat → Answer) (w : Site)
    (hreport : run.gateReport = .ok (report, run'))
    (hsent : request base timeout report = .ok sent) : ∃ last,
      Posts retries backoff report.runId sent w answers
        (deliver retries backoff w [toReceiver run base timeout answers]) last := by
  obtain ⟨c, hfares⟩ := exists_fares retries w (toReceiver run base timeout answers)
  have hfailed := hfares.failed
  have hended := hfares.ended
  simp only [toReceiver_eq hreport hsent] at hfailed hended
  have hverdict : c.verdict retries = (answers (min c.fails retries)).verdict report.runId := by
    by_cases hfails : c.fails ≤ retries
    · rw [Nat.min_eq_left hfails, hended hfails]
    · have hmore := Nat.lt_of_not_le hfails
      rw [Nat.min_eq_right (Nat.le_of_lt hmore), hfailed retries hmore (Nat.le_refl _), Course.verdict, if_pos hmore]
  have hstops : min c.fails retries = retries ∨ (answers (min c.fails retries)).isRetried = false := by
    refine (Nat.le_total retries c.fails).imp Nat.min_eq_right fun hfails => ?_
    rw [Nat.min_eq_left hfails, ← Bool.not_eq_true, Answer.isRetried_iff report.runId, hended hfails]
    rintro ⟨f, hf⟩
    rw [Course.verdict, if_neg (Nat.not_lt.2 hfails)] at hf
    split at hf <;> cases hf
  rw [deliver_singleton hfares]
  refine ⟨min c.fails retries, Nat.min_le_right _ _, fun k hk => ?_, hstops, rfl, rfl, hverdict, ?_⟩
  · exact (Answer.isRetried_iff _).2 ⟨_, hfailed k (by omega) (by omega)⟩
  · exact after_toReceiver hreport hsent _

/-! ## Which failures are retried -/

theorem Posts.persists (h : Posts retries backoff runId sent w answers d last)
    (hanswer : answers last = .ok ∨ (answers last).isRetried = true) : Persists retries answers d where
  attempts := by
    refine ⟨last, h.bound, h.attempts, fun k hk => Answer.ne_ok_of_isRetried (h.before k hk),
      hanswer.imp_right fun hretried => ?_⟩
    exact h.stops.resolve_right (by simp [hretried])
  failure := fun fault hbroken => by
    rw [h.verdict] at hbroken
    obtain hok | hretried := hanswer
    · rw [hok] at hbroken
      cases hbroken
    · obtain ⟨f, hf⟩ := (Answer.isRetried_iff runId).1 hretried
      cases hf.symm.trans hbroken

theorem Posts.persists_iff (h : Posts retries backoff runId sent w answers d last) : Persists retries answers d ↔
    ∀ n ≤ retries, (∀ k < n, (answers k).isRetried = true) → answers n = .ok ∨ (answers n).isRetried = true := by
  refine ⟨fun hpersists n hn hbefore => ?_, fun hall => h.persists (hall last h.bound h.before)⟩
  obtain hless | rfl | hmore := Nat.lt_trichotomy n last
  · exact .inr (h.before n hless)
  · cases hretried : (answers n).isRetried with
    | true => exact .inr rfl
    | false =>
      refine (Answer.ok_or_broken runId hretried).imp_right fun ⟨fault, hfault⟩ => ?_
      exact absurd (h.verdict.trans hfault) (hpersists.failure fault)
  · obtain rfl | hretried := h.stops
    · exact absurd hmore (Nat.not_lt.2 hn)
    · rw [hbefore last hmore] at hretried
      cases hretried

end

/-- **Requests are sent again until one breaks the delivery.** The run has a report, and the address of the
receiver can be used. Then the request is sent until it succeeds, breaks, or has used up its retries, with growing
pauses in between, and the delivery ends as its last attempt did. Every failure is retried exactly if each request
that follows failures which were retried succeeds or is retried itself. -/
theorem posts_until_broken (retries : Nat) (backoff : Seconds) {run run' : Run} {report : GateReport}
    {base : String} {timeout : Value} {sent : Request} (hreport : run.gateReport = .ok (report, run'))
    (hsent : request base timeout report = .ok sent) (answers : Nat → Answer) (w : Site) :
    let d := deliver retries backoff w [toReceiver run base timeout answers]
    (∃ last, Posts retries backoff report.runId sent w answers d last) ∧
      (Persists retries answers d ↔
        ∀ n ≤ retries, (∀ k < n, (answers k).isRetried = true) → answers n = .ok ∨ (answers n).isRetried = true) := by
  intro d
  obtain ⟨last, hposts⟩ := exists_posts retries backoff answers w hreport hsent
  exact ⟨⟨last, hposts⟩, hposts.persists_iff⟩

/-! ### Some answers -/

/-- The receiver cannot be reached, then it is busy, and then it takes the report. -/
def busyAnswers : Nat → Answer
  | 0 => .unreachable "[Errno 111] Connection refused"
  | 1 => .refused 503 "Service Unavailable" "busy".toUTF8.toList
  | _ => .ok

theorem posts_until_broken_busy :
    let run := passedRun "1"
    let d := deliver 3 defaultBackoff sceneSample.site [toReceiver run "http://gate" defaultTimeout busyAnswers]
    ∃ sent, request "http://gate" defaultTimeout (run.reportOf oneJob) = .ok sent ∧
      (∃ last, Posts 3 defaultBackoff run.id sent sceneSample.site busyAnswers d last) ∧ Persists 3 busyAnswers d ∧
      d.attempts = [3] ∧ d.pauses = [.real 1.0, .real 2.0] ∧ d.verdict = .delivered := by
  intro run d
  obtain ⟨run', hreport⟩ := Receiver.gateReport_complete (r := run) (g := oneJob) rfl (by decide +kernel)
    (fun made h => by cases h)
  have hreaches : (request "http://gate" defaultTimeout (run.reportOf oneJob)).toOption.isSome = true := by
    decide +kernel
  cases hsent : request "http://gate" defaultTimeout (run.reportOf oneJob) with
  | error fault =>
    rw [hsent] at hreaches
    cases hreaches
  | ok sent =>
    obtain ⟨hposts, hpersists⟩ := posts_until_broken 3 defaultBackoff hreport hsent busyAnswers sceneSample.site
    refine ⟨sent, rfl, hposts, hpersists.2 fun n _ _ => ?_, by decide +kernel, by decide +kernel, by decide +kernel⟩
    match n with
    | 0 | 1 => exact .inr (by decide +kernel)
    | n + 2 => exact .inl rfl

/-- Where the first request is lost while its answer is read, or is refused in bytes that are no text, there is
no further attempt, although three retries are left and the receiver would take the report. -/
theorem lost_answer_not_retried :
    let answers (first : Answer) (count : Nat) := if count = 0 then first else .ok
    ∀ first ∈ [Answer.lost "timed out", .refused 502 "Bad Gateway" [0xff]],
      let d := deliver 3 defaultBackoff sceneSample.site
        [toReceiver (passedRun "1") "http://gate" defaultTimeout (answers first)]
      d.attempts = [1] ∧ d.pauses = [] ∧ (∃ fault, d.verdict = .broken fault) ∧ ¬ Persists 3 (answers first) d := by
  intro answers first hfirst d
  have hruns : d.attempts = [1] ∧ d.pauses = [] ∧ ∃ fault, d.verdict = .broken fault := by
    obtain rfl | rfl : first = .lost "timed out" ∨ first = .refused 502 "Bad Gateway" [0xff] := by simpa using hfirst
    · exact ⟨by decide +kernel, by decide +kernel, .lost "timed out", by decide +kernel⟩
    · exact ⟨by decide +kernel, by decide +kernel, .body ⟨0, 0xff, 1, .start⟩, by decide +kernel⟩
  obtain ⟨hattempts, hpauses, fault, hbroken⟩ := hruns
  exact ⟨hattempts, hpauses, ⟨fault, hbroken⟩, fun h => h.failure fault hbroken⟩

end MergeGate.Delivery
