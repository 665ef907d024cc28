/-
The receiver over a whole history of requests. However reports, repetitions and conflicting reports of
different runs are mixed, the rows, the marks and the queue stay in step with the reports accepted so
far: `Tallies` is the invariant, `Tallies.post` what one report does to it, and `first_report_stands`
what follows for every history and every next request.
-/
import MergeGate.Proofs.Receiver.Report
import MergeGate.Proofs.Receiver.Store

namespace MergeGate.Receiver

/-- No NaN: what a context must be free of. -/
abbrev IsNumber (x : Float) : Prop := x.isNaN = false

/-! ## What is stored of a report -/

namespace StatusReport

/-- The report with null in the place of every infinite number of its context. -/
def finite (r : StatusReport) : StatusReport := { r with context := Value.finiteFields r.context }

/-- The written form of a report that is stored. -/
def stored (r : StatusReport) : Value := r.withContext r.finite.context

theorem Sound.payload {r : StatusReport} (hr : r.Sound IsNumber) : r.payload = .ok r.stored := by
  rw [StatusReport.payload, toValue, plainFields_eq fun f hf => (hr.context f hf).plainValue_eq]
  rfl

/-- What is stored of a report is read as the report without its infinite numbers. -/
theorem Sound.report_stored {r : StatusReport} (hr : r.Sound IsNumber) : report r.stored = .ok r.finite := by
  refine hr.report_withContext ?_ ?_
  · rw [finite, Value.keys_finiteFields]
    exact hr.keys
  · refine List.forall_mem_map.2 fun f hf => ?_
    exact (hr.context f hf).finitePart.mono fun _ hx => hx.1

theorem finite_eq {r : StatusReport} (h : ∀ f ∈ r.context, f.2.IsDocument fun x => x.isInf = false) :
    r.finite = r := by
  rw [finite, Value.finiteFields_eq fun f hf => (h f hf).finitePart_eq]

end StatusReport

/-! ## Requests and answers -/

/-- What reaches the receiver. -/
inductive Request where
  | post (body : Value)
  | get (runId : String)

/-- What a request is answered. -/
inductive Answer where
  | accepted (a : Accepted)
  | known (k : Known)
  | refused (r : Refusal)
  /-- the body is no report -/
  | invalid (problems : List Schema.Problem)
  /-- what is stored is no report -/
  | unreadable (problems : List Schema.Problem)

/-- The status code of an answer. -/
def Answer.code : Answer → Nat
  | accepted _ | known _ => 200
  | refused r => r.code
  | invalid _ => 422
  | unreadable _ => 500

/-- The body of a request is a JSON document, and no context is read out of it that holds NaN. -/
def Request.Legible : Request → Prop
  | post body => body.IsDocument (fun _ => True) ∧
    ∀ r, report body = .ok r → ∀ f ∈ r.context, f.2.IsDocument IsNumber
  | get _ => True

theorem legible_of_document {body : Value} (h : body.IsDocument IsNumber) : (Request.post body).Legible :=
  ⟨h.mono fun _ _ => trivial, fun _ hreport => (report_sound h hreport).context⟩

namespace Store

/-- Serve one request. -/
def serve (s : Store) : Request → Answer × Store
  | .post body => match report body with
    | .error problems => (.invalid problems, s)
    | .ok r => match s.post r with
      | .error refusal => (.refused refusal, s)
      | .ok (a, s) => (.accepted a, s)
  | .get runId => match s.get runId with
    | .error (.inl refusal) => (.refused refusal, s)
    | .error (.inr problems) => (.unreadable problems, s)
    | .ok known => (.known known, s)

/-- Serve requests one after the other: each of them with its answer, and the store they leave. -/
def serveAll (s : Store) : List Request → List (Request × Answer) × Store
  | [] => ([], s)
  | q :: rest =>
    let (a, s) := s.serve q
    let (turns, s) := s.serveAll rest
    ((q, a) :: turns, s)

end Store

/-- The report of a request that was accepted. -/
def acceptedReport? : Request × Answer → Option StatusReport
  | (.post body, .accepted _) => (report body).toOption
  | _ => none

/-- The reports that were accepted, in order. -/
def accepted (turns : List (Request × Answer)) : List StatusReport := turns.filterMap acceptedReport?

theorem accepted_cons (turn : Request × Answer) (turns : List (Request × Answer)) :
    accepted (turn :: turns) = (acceptedReport? turn).toList ++ accepted turns := by
  rw [accepted, List.filterMap_cons]
  cases acceptedReport? turn <;> rfl

/-- Was a report for the run accepted? -/
def accepts (runId : String) : Request × Answer → Bool
  | (_, .accepted a) => a.runId == runId
  | _ => false

theorem serve_accepts (s : Store) (q : Request) (runId : String) :
    accepts runId (q, (s.serve q).1) =
      (acceptedReport? (q, (s.serve q).1)).any (·.runId == runId) := by
  cases q with
  | get id =>
    rw [Store.serve]
    split <;> rfl
  | post body =>
    cases hreport : report body with
    | error problems => simp only [Store.serve, hreport, accepts, acceptedReport?, Option.any_none]
    | ok r =>
      cases hpost : s.post r with
      | error refusal =>
        simp only [Store.serve, hreport, hpost, accepts, acceptedReport?, Option.any_none]
      | ok taken =>
        have hid := post_runId hpost
        simp only [Store.serve, hreport, hpost, accepts, acceptedReport?, Except.toOption,
          Option.any_some, hid]

/-- The accepted reports for a run are as many as the answers that say so. -/
theorem countP_accepted (runId : String) : ∀ (s : Store) (qs : List Request),
    (s.serveAll qs).1.countP (accepts runId) = (accepted (s.serveAll qs).1).countP (·.runId == runId)
  | _, [] => rfl
  | s, q :: qs => by
    have hrest := countP_accepted runId (s.serve q).2 qs
    have hturn := serve_accepts s q runId
    have hcons : (s.serveAll (q :: qs)).1 = (q, (s.serve q).1) :: ((s.serve q).2.serveAll qs).1 := rfl
    rw [hcons, accepted_cons, List.countP_cons, List.countP_append, hrest, hturn, Nat.add_comm]
    cases acceptedReport? (q, (s.serve q).1) <;> simp [List.countP_cons]

/-! ## The invariant -/

/-- The runs of reports, in the order in which they first came. -/
def runIds (reports : List StatusReport) : List String := (reports.map (·.runId)).eraseDups

/-- The row that reports leave for a run: it holds the first of them and counts them all. -/
def rowOf (reports : List StatusReport) (runId : String) : Option Row :=
  (reports.find? (·.runId == runId)).map fun first =>
    { Row.ofReport first first.stored with reports := reports.countP (·.runId == runId) }

/-- How the store stands after some reports were accepted, in this order. -/
structure Tallies (reports : List StatusReport) (s : Store) : Prop where
  sound : ∀ r ∈ reports, r.Sound IsNumber
  row : ∀ runId, s.row? runId = rowOf reports runId
  rows : s.rows.map (·.runId) = runIds reports
  published : s.published = runIds reports
  queue : s.queue = runIds reports
  pushes : s.log.filter (·.isPush) = (runIds reports).map (.push queueName)

theorem mem_runIds {reports : List StatusReport} {runId : String} :
    runId ∈ runIds reports ↔ ∃ r ∈ reports, r.runId = runId := by
  rw [runIds, List.mem_eraseDups, List.mem_map]

theorem runIds_append (reports : List StatusReport) (r : StatusReport) :
    runIds (reports ++ [r]) =
      if r.runId ∈ runIds reports then runIds reports else runIds reports ++ [r.runId] := by
  have hmem : r.runId ∈ runIds reports ↔ r.runId ∈ reports.map (·.runId) := List.mem_eraseDups
  rw [runIds, List.map_append, List.eraseDups_append]
  by_cases h : r.runId ∈ reports.map (·.runId)
  · rw [if_pos (hmem.2 h)]
    simp [runIds, List.removeAll, h, -List.mem_map]
  · rw [if_neg (mt hmem.1 h)]
    simp [runIds, List.removeAll, h, -List.mem_map, List.eraseDups_cons]

theorem rowOf_eq_none_iff {reports : List StatusReport} {runId : String} :
    rowOf reports runId = none ↔ runId ∉ runIds reports := by
  simp [rowOf, mem_runIds]

/-- One report more counts for its run, and makes the row where there was none. -/
theorem rowOf_append (reports : List StatusReport) (r : StatusReport) (runId : String) :
    rowOf (reports ++ [r]) runId =
      if r.runId = runId then
        some (((rowOf reports runId).map fun row => { row with reports := row.reports + 1 }).getD
          (.ofReport r r.stored))
      else rowOf reports runId := by
  by_cases h : r.runId = runId
  · cases hfind : reports.find? (·.runId == runId) with
    | some first =>
      simp [rowOf, List.find?_append, hfind, h]
    | none =>
      have hcount : reports.countP (·.runId == runId) = 0 :=
        List.countP_eq_zero.2 fun x hx => List.find?_eq_none.1 hfind x hx
      simp [rowOf, List.find?_append, hfind, h, hcount, Row.ofReport]
  · have hne : (r.runId == runId) = false := by simpa using h
    simp [rowOf, List.find?_append, hne, h]

theorem tallies_nil : Tallies [] {} :=
  ⟨by simp, fun _ => rfl, rfl, rfl, rfl, rfl⟩

namespace Tallies

variable {reports : List StatusReport} {s : Store} {r : StatusReport}

/-- A run has a row exactly when a report for it was accepted. -/
theorem row_eq_none_iff (h : Tallies reports s) {runId : String} :
    s.row? runId = none ↔ runId ∉ runIds reports := by
  rw [h.row, rowOf_eq_none_iff]

/-- A first report makes a row and queues its run. -/
theorem first (h : Tallies reports s) (hr : r.Sound IsNumber) (hnew : r.runId ∉ runIds reports) :
    ∃ s', s.post r = .ok (⟨r.runId, true, true⟩, s') ∧ Tallies (reports ++ [r]) s' := by
  have hrow : s.row? r.runId = none := h.row_eq_none_iff.2 hnew
  have hids : runIds (reports ++ [r]) = runIds reports ++ [r.runId] := by rw [runIds_append, if_neg hnew]
  have hpost := post_eq_ok (s := s) (by rw [hrow, decide_new hr.payload]) (commit_insert hrow)
  rw [publish_new (by rwa [h.published])] at hpost
  refine ⟨_, hpost, ?_, ?_, ?_, ?_, ?_, ?_⟩
  · simpa [or_imp, forall_and] using ⟨h.sound, hr⟩
  · intro runId
    rw [rowOf_append, ← h.row]
    by_cases hid : r.runId = runId
    · subst hid
      simp [Store.row?, Row.ofReport, show s.rows.find? (·.runId == r.runId) = none from hrow]
    · simp [Store.row?, Row.ofReport, hid]
  · simp [hids, h.rows, Row.ofReport]
  · simp [hids, h.published]
  · simp [hids, h.queue]
  · simp [hids, h.pushes]

/-- The same report again is counted, and nothing else changes. -/
theorem again (h : Tallies reports s) (hr : r.Sound IsNumber) {row : Row}
    (hrow : s.row? r.runId = some row) (hsame : Value.same row.payload r.stored = true) :
    ∃ s', s.post r = .ok (⟨r.runId, false, false⟩, s') ∧ Tallies (reports ++ [r]) s' := by
  have hknown : r.runId ∈ runIds reports := by
    by_contra hnew
    rw [h.row_eq_none_iff.2 hnew] at hrow
    cases hrow
  have hids : runIds (reports ++ [r]) = runIds reports := by rw [runIds_append, if_pos hknown]
  have hpost := post_eq_ok (s := s) (by rw [hrow, decide_again hr.payload hsame]) rfl
  rw [publish_known (by rwa [h.published])] at hpost
  refine ⟨_, hpost, ?_, ?_, ?_, ?_, ?_, ?_⟩
  · simpa [or_imp, forall_and] using ⟨h.sound, hr⟩
  · intro runId
    have hid : row.runId = r.runId := row?_runId hrow
    rw [rowOf_append, ← h.row]
    refine (find?_update s.rows _ runId).trans ?_
    change (s.row? runId).map _ = _
    by_cases heq : r.runId = runId
    · subst heq
      simp [hrow, hid]
    · have hne : runId ≠ r.runId := fun e => heq e.symm
      simp [hid, heq, hne]
  · rw [runIds_update, hids, h.rows]
  · rw [hids, h.published]
  · rw [hids, h.queue]
  · simp [hids, h.pushes]

end Tallies

/-! ## Answers -/

/-- How a report is answered, and what it leaves, after some reports were accepted. -/
structure Taken (reports : List StatusReport) (s : Store) (r : StatusReport) (a : Answer) (s' : Store) :
    Prop where
  conflict : a.code = 409 ↔ ∃ row payload, s.row? r.runId = some row ∧ r.payload = .ok payload ∧
    Value.same row.payload payload = false
  refused : a.code = 409 → s' = s
  accepted : a.code ≠ 409 →
    a = .accepted ⟨r.runId, decide (r.runId ∉ runIds reports), decide (r.runId ∉ runIds reports)⟩

/-- How a question after a run is answered after some reports were accepted: with the first of them for
that run, up to infinite numbers. -/
structure Told (reports : List StatusReport) (s : Store) (runId : String) (a : Answer) : Prop where
  absent : a.code = 404 ↔ s.row? runId = none
  known : ∀ row, s.row? runId = some row → ∃ first, reports.find? (·.runId == runId) = some first ∧
    a = .known ⟨row, first.finite⟩ ∧
    ((∀ f ∈ first.context, f.2.IsDocument fun x => x.isInf = false) → a = .known ⟨row, first⟩)

/-- How a request is answered, and what it leaves. -/
def Answered (reports : List StatusReport) (s : Store) (q : Request) (a : Answer) (s' : Store) : Prop :=
  match q with
  | .post body => match report body with
    | .error problems => a = .invalid problems ∧ s' = s
    | .ok r => Taken reports s r a s'
  | .get runId => Told reports s runId a ∧ s' = s

namespace Tallies

variable {reports : List StatusReport} {s : Store} {r : StatusReport}

/-- **What one report does.** Either it is refused and changes nothing, or it is accepted and joins the
accepted ones. -/
theorem post (h : Tallies reports s) (hr : r.Sound IsNumber) :
    (∃ row, s.row? r.runId = some row ∧ Value.same row.payload r.stored = false ∧
      s.post r = .error (.conflict r.runId row.overall)) ∨
    (∀ row, s.row? r.runId = some row → Value.same row.payload r.stored = true) ∧
      ∃ s', s.post r = .ok (⟨r.runId, decide (r.runId ∉ runIds reports),
        decide (r.runId ∉ runIds reports)⟩, s') ∧ Tallies (reports ++ [r]) s' := by
  cases hrow : s.row? r.runId with
  | none =>
    have hnew := h.row_eq_none_iff.1 hrow
    obtain ⟨s', hpost, hs'⟩ := h.first hr hnew
    rw [decide_eq_true hnew]
    exact .inr ⟨nofun, s', hpost, hs'⟩
  | some row =>
    cases hsame : Value.same row.payload r.stored with
    | false =>
      exact .inl ⟨row, rfl, hsame, post_eq_error (by rw [hrow, decide_conflict hr.payload hsame])⟩
    | true =>
      have hknown : ¬ r.runId ∉ runIds reports := fun hnew => by
        rw [h.row_eq_none_iff.2 hnew] at hrow
        cases hrow
      obtain ⟨s', hpost, hs'⟩ := h.again hr hrow hsame
      rw [decide_eq_false hknown]
      exact .inr ⟨fun _ hsome => Option.some.inj hsome ▸ hsame, s', hpost, hs'⟩

/-- What is known of a run is the first accepted report for it, without its infinite numbers. -/
theorem get (h : Tallies reports s) {runId : String} {row : Row} (hrow : s.row? runId = some row) :
    ∃ first, reports.find? (·.runId == runId) = some first ∧ s.get runId = .ok ⟨row, first.finite⟩ := by
  have hrowOf := h.row runId
  rw [hrow, rowOf, eq_comm, Option.map_eq_some_iff] at hrowOf
  obtain ⟨first, hfind, rfl⟩ := hrowOf
  refine ⟨first, hfind, ?_⟩
  have hread := (h.sound first (List.mem_of_find?_eq_some hfind)).report_stored
  rw [Store.get, hrow]
  simp only [Row.ofReport, hread]

/-- A served request is answered as it should be, and the accepted reports count it. -/
theorem serve (h : Tallies reports s) {q : Request} (hq : q.Legible) :
    Answered reports s q (s.serve q).1 (s.serve q).2 ∧
      Tallies (reports ++ (acceptedReport? (q, (s.serve q).1)).toList) (s.serve q).2 := by
  cases q with
  | get runId =>
    cases hrow : s.row? runId with
    | none =>
      have hget : s.get runId = .error (.inl .notReported) := by rw [Store.get, hrow]
      simp only [Store.serve, hget, Answered, acceptedReport?, Option.toList_none, List.append_nil]
      exact ⟨⟨⟨by simp [Answer.code, Refusal.code, hrow], by simp [hrow]⟩, trivial⟩, h⟩
    | some row =>
      obtain ⟨first, hfind, hget⟩ := h.get hrow
      simp only [Store.serve, hget, Answered, acceptedReport?, Option.toList_none, List.append_nil]
      refine ⟨⟨⟨by simp [Answer.code, hrow], fun row' hrow' => ?_⟩, trivial⟩, h⟩
      obtain rfl : row = row' := Option.some.inj (hrow.symm.trans hrow')
      exact ⟨first, hfind, rfl, fun hfinite => by rw [StatusReport.finite_eq hfinite]⟩
  | post body =>
    cases hreport : report body with
    | error problems =>
      simp only [Store.serve, hreport, Answered, acceptedReport?, Option.toList_none, List.append_nil]
      exact ⟨⟨trivial, trivial⟩, h⟩
    | ok r =>
      have hr : r.Sound IsNumber := { report_sound hq.1 hreport with context := hq.2 r hreport }
      rcases h.post hr with ⟨row, hrow, hsame, hpost⟩ | ⟨hsame, s', hpost, hs'⟩
      · simp only [Store.serve, hreport, hpost, Answered, acceptedReport?, Option.toList_none,
          List.append_nil]
        refine ⟨⟨⟨fun _ => ⟨row, _, hrow, hr.payload, hsame⟩, fun _ => rfl⟩, fun _ => rfl, fun hne => ?_⟩, h⟩
        exact absurd rfl hne
      · simp only [Store.serve, hreport, hpost, Answered, acceptedReport?]
        refine ⟨⟨⟨nofun, fun ⟨row, payload, hrow, hpayload, hdiff⟩ => ?_⟩, nofun, fun _ => rfl⟩, hs'⟩
        obtain rfl : r.stored = payload := Except.ok.inj (hr.payload.symm.trans hpayload)
        rw [hsame row hrow] at hdiff
        cases hdiff

/-- The invariant holds after every history. By induction along the requests. -/
theorem serveAll : ∀ {qs : List Request} {reports : List StatusReport} {s : Store}, Tallies reports s →
    (∀ q ∈ qs, q.Legible) → Tallies (reports ++ accepted (s.serveAll qs).1) (s.serveAll qs).2
  | [], _, _, h, _ => by simpa [Store.serveAll, accepted] using h
  | q :: qs, _, _, h, hqs => by
    simp only [List.forall_mem_cons] at hqs
    have hrest := serveAll (h.serve hqs.1).2 hqs.2
    rwa [List.append_assoc, ← accepted_cons] at hrest

end Tallies

/-! ## Every history -/

/-- How the store stands after requests were answered. -/
structure Kept (turns : List (Request × Answer)) (s : Store) : Prop where
  single : (s.rows.map (·.runId)).Nodup
  reported : ∀ runId, (s.row? runId).isSome ↔ ∃ r ∈ accepted turns, r.runId = runId
  first : ∀ runId row, s.row? runId = some row →
    ∃ first, (accepted turns).find? (·.runId == runId) = some first ∧
      first.payload = .ok row.payload ∧ row.overall = first.overall
  count : ∀ runId row, s.row? runId = some row → row.reports = turns.countP (accepts runId)
  queue : s.queue = runIds (accepted turns)
  pushes : s.log.filter (·.isPush) = (runIds (accepted turns)).map (.push queueName)
  once : (runIds (accepted turns)).Nodup

/-- **The first report stands.** After every history of requests, each run has the row of its first
accepted report, and the queue names the runs in the order in which they were first accepted. The next
request is refused and changes nothing, is counted, is the first of its run, or is told the first report. -/
theorem first_report_stands (past : List Request) (next : Request) (hpast : ∀ q ∈ past, q.Legible)
    (hnext : next.Legible) :
    let turns := (Store.serveAll {} past).1
    let s := (Store.serveAll {} past).2
    Kept turns s ∧ Answered (accepted turns) s next (s.serve next).1 (s.serve next).2 := by
  intro turns s
  have h : Tallies (accepted turns) s := tallies_nil.serveAll hpast
  have hrow : ∀ {runId : String} {row : Row}, s.row? runId = some row →
      ∃ first, (accepted turns).find? (·.runId == runId) = some first ∧
        { Row.ofReport first first.stored with
          reports := (accepted turns).countP (·.runId == runId) } = row := by
    intro runId row hsome
    rw [h.row, rowOf, Option.map_eq_some_iff] at hsome
    exact hsome
  refine ⟨⟨?_, ?_, ?_, ?_, h.queue, h.pushes, Text.nodup_eraseDups _⟩, (h.serve hnext).1⟩
  · rw [h.rows]
    exact Text.nodup_eraseDups _
  · intro runId
    rw [← mem_runIds, ← not_iff_not, ← h.row_eq_none_iff, Option.not_isSome_iff_eq_none]
  · intro runId row hsome
    obtain ⟨first, hfind, rfl⟩ := hrow hsome
    exact ⟨first, hfind, (h.sound first (List.mem_of_find?_eq_some hfind)).payload, rfl⟩
  · intro runId row hsome
    obtain ⟨first, -, rfl⟩ := hrow hsome
    exact (countP_accepted runId {} past).symm

/-! ### Some histories -/

/-- A report of one run. -/
def reportSample (overall : Status) (mark : Value) : StatusReport :=
  { runId := "r", overall, definitions := [], context := [("mark", mark)] }

/-- The body of a request with that report. -/
def bodySample (overall : Status) (mark : Value) : Value :=
  (reportSample overall mark).withContext [("mark", mark)]

theorem bodySample_document (overall : Status) {mark : Value} (h : mark.IsDocument IsNumber) :
    (bodySample overall mark).IsDocument IsNumber :=
  StatusReport.withContext_document _ (by simp [Assoc.keys]) (by simpa using h)

/-- A report, the same report in other words, and another report of the same run. -/
def pastSample : List Request :=
  [.post (bodySample .failed (.int 1)), .post (bodySample .failed (.bool true)),
    .post (bodySample .succeeded (.int 1))]

theorem first_report_stands_sample :
    let turns := (Store.serveAll {} pastSample).1
    let s := (Store.serveAll {} pastSample).2
    turns.map (·.2.code) = [200, 200, 409] ∧ s.queue = ["r"] ∧ Kept turns s ∧
      Answered (accepted turns) s (.get "r") (s.serve (.get "r")).1 (s.serve (.get "r")).2 := by
  have hpast : ∀ q ∈ pastSample, q.Legible := by
    simpa [pastSample] using ⟨legible_of_document (bodySample_document .failed (.int 1)),
      legible_of_document (bodySample_document .failed (.bool true)),
      legible_of_document (bodySample_document .succeeded (.int 1))⟩
  exact ⟨by decide +kernel, by decide +kernel, first_report_stands pastSample (.get "r") hpast trivial⟩

/-- An infinite number of a context is not told as it was reported: it is null. -/
theorem infinite_told_as_null :
    let body := bodySample .failed (.float (Float.ofBits 0x7ff0000000000000))
    let turns := (Store.serveAll {} [.post body]).1
    let s := (Store.serveAll {} [.post body]).2
    body.IsDocument IsNumber ∧ ∃ first row report, accepted turns = [first] ∧
      (s.serve (.get "r")).1 = .known ⟨row, report⟩ ∧ report.context = [("mark", .null)] ∧
      Value.same (.ofFields report.context) (.ofFields first.context) = false := by
  intro body turns s
  let mark := Value.float (Float.ofBits 0x7ff0000000000000)
  have hmark : mark.IsDocument IsNumber := .float (by decide +kernel)
  have hnull : mark.finitePart = .null := by
    rw [Value.finitePart]
    exact if_pos (by decide +kernel)
  have hsound : (reportSample .failed mark).Sound IsNumber :=
    ⟨by simp [reportSample], .inr rfl, by simp [reportSample], by simp [reportSample, Assoc.keys],
      by simpa [reportSample] using hmark⟩
  have hread : report body = .ok (reportSample .failed mark) :=
    hsound.report_withContext hsound.keys hsound.context
  -- the first report of its run is accepted
  obtain ⟨s', hpost, hs'⟩ := tallies_nil.first hsound (by simp [runIds])
  have hserve : Store.serve {} (.post body) = (.accepted ⟨"r", true, true⟩, s') := by
    simp only [Store.serve, hread, hpost]
    rfl
  have hall : Store.serveAll {} [.post body] = ([(.post body, .accepted ⟨"r", true, true⟩)], s') := by
    simp only [Store.serveAll, hserve]
  have haccepted : accepted turns = [reportSample .failed mark] := by
    simp only [turns, hall, accepted, List.filterMap_cons, acceptedReport?, hread, Except.toOption,
      List.filterMap_nil]
  -- and told again without the number
  let row := Row.ofReport (reportSample .failed mark) (reportSample .failed mark).stored
  have hrow : s'.row? "r" = some row := hs'.row "r"
  obtain ⟨first, hfind, hget⟩ := hs'.get hrow
  obtain rfl : reportSample .failed mark = first := Option.some.inj hfind
  have htold : (s.serve (.get "r")).1 = .known ⟨row, (reportSample .failed mark).finite⟩ := by
    simp only [s, hall, Store.serve, hget]
  have hfinite : (reportSample .failed mark).finite.context = [("mark", .null)] := by
    simp only [StatusReport.finite, reportSample, Value.finiteFields, List.map_cons, List.map_nil, hnull]
  refine ⟨bodySample_document .failed hmark, _, row, _, haccepted, htold, hfinite, ?_⟩
  rw [hfinite]
  simp [Value.ofFields, reportSample, Value.same, Value.sameIn, mark, Value.sameAtom, Value.fraction?]

end MergeGate.Receiver
