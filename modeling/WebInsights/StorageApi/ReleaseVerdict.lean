/-
What `health/release` says about the runs of the end to end tests.

Application Insights answers a query from the events it has when the query comes, and may get
more of them before the next. Whatever its answers are, the report lists the tests of one run:
the last one for the release that came to its end. It passes exactly when all of them passed and
all availability results of the last run that has one succeeded.
-/
import WebInsights.StorageApi.ReleaseHealth
import WebInsights.StorageApi.ReleaseQueries

set_option autoImplicit false

namespace WebInsights.StorageApi

open Cosmos Effect Js Kql WebApi

/-! ## Application Insights -/

/-- How times are written; none is written like the result of a test. -/
structure TimeFormat where
  text : ℤ → String
  not_result : ∀ ticks, text ticks ∉ ["pass", "fail"]

section

variable (format : TimeFormat)

/-- The JSON of a cell. -/
def cellVal : Cell → Val
  | .datetime ticks => .str (format.text ticks)
  | .number n => .num n
  | .bool b => .bool b
  | .text s => .str s
  | .null => .null

/-- An answer as it is sent. -/
def sentTable (answer : AnswerTable) : Table :=
  ⟨answer.columns, answer.rows.map (List.map (cellVal format))⟩

theorem cellVal_eq_result_iff {v : Cell} {s : String} (hs : s ∈ ["pass", "fail"]) :
    cellVal format v = .str s ↔ v = .text s := by
  cases v with
  | datetime ticks =>
    have hne : format.text ticks ≠ s := fun h => format.not_result ticks (h ▸ hs)
    simp [cellVal, hne]
  | text s' => simp [cellVal]
  | number n => exact iff_of_false nofun nofun
  | bool b => exact iff_of_false nofun nofun
  | null => exact iff_of_false nofun nofun

/-- Application Insights: the events it has, and its answers to the queries it can read. -/
structure AppInsights (escapes : Escapes) (σ : Type) where
  log : σ → Log
  handle : Handler HealthOperation HealthOperation.Result σ
  answers : ∀ text q s, read escapes text = some q → ∃ answer,
    q.Gives format.text (log s).tables answer ∧
    (handle (.executeAppInsightsQuery text) s).1 = .ok ⟨200, ⟨[sentTable format answer]⟩⟩

/-! ## Reports -/

variable (newDate : Val → Val)

/-- A test of the report. -/
def reportedTest (e : Row) : TestRun Val where
  testContainer := cellVal format (eventProperty e "testContainer")
  testName := cellVal format (eventProperty e "testName")
  scenarioName := cellVal format (eventProperty e "scenarioName")
  scanId := cellVal format (eventProperty e "scanId")
  result := cellVal format (eventProperty e "result")
  timestamp := newDate (cellVal format (e.cell "timestamp"))
  error := if cellVal format (eventProperty e "result") = .str "fail" then
    some (cellVal format (eventProperty e "error")) else none

/-- An availability result of the report. -/
def reportedAvailability (e : Row) : AvailabilityResult Val where
  scenarioName := cellVal format (eventProperty e "testScenarioName")
  timestamp := newDate (cellVal format (e.cell "timestamp"))
  success := cellVal format ((e.cell "success").equals (.number 1))

theorem testRun_testCells (e : Row) :
    testRun newDate (testItems.map Projection.column) ((testCells e).map (cellVal format)) =
      reportedTest format newDate e := rfl

theorem availabilityResult_availabilityCells (e : Row) :
    availabilityResult newDate (availabilityItems.map Projection.column)
        ((availabilityCells e).map (cellVal format)) =
      reportedAvailability format newDate e := rfl

/-- The report on the release, from the events there were when the tests were asked for, and
those when the availability was: it is about the tests of the run `runId`, the last one with a
finalizer, and about the availability results of the last run that has one. -/
structure HealthReport.Describes (atTests atAvailability : Log) (releaseId : String)
    (report : HealthReport Val) (runId : Cell) (tests results : List Row) : Prop where
  finished : LastRun format.text (atTests.tables "customEvents") (FinalizerEvent releaseId) runId
  ofRun : tests.Perm
    ((atTests.tables "customEvents").filter (TestRunEvent releaseId runId ·))
  ordered : tests.Pairwise (OldestFirst "timestamp")
  ofLastResult : ∃ availabilityRunId,
    LastRun format.text (atAvailability.tables "availabilityResults")
      (fun e => eventProperty e "releaseId" = .text releaseId) availabilityRunId ∧
    results = (atAvailability.tables "availabilityResults").filter
      (AvailabilityEvent releaseId availabilityRunId ·)
  testRuns : report.testRuns = tests.map (reportedTest format newDate)
  availabilityResults : report.availabilityResults =
    results.map (reportedAvailability format newDate)
  identity : tests ≠ [] →
    report.runId = cellVal format runId ∧ report.releaseId = .str releaseId
  warn_iff : report.healthStatus = .warn ↔ tests = [] ∨ results = []
  pass_iff : report.healthStatus = .pass ↔ tests ≠ [] ∧ results ≠ [] ∧
    (∀ e ∈ tests, eventProperty e "result" = .text "pass") ∧
    ∀ e ∈ results, e.cell "success" = .number 1
  unfinished : (∀ e ∈ atTests.tables "customEvents", ¬ FinalizerEvent releaseId e) →
    report.healthStatus = .warn

end

/-! ## The report of two answers -/

section

variable {format : TimeFormat} {newDate : Val → Val} {releaseId : String}

/-- The report on two answers. -/
def reportOf (format : TimeFormat) (newDate : Val → Val) (tests availability : AnswerTable) :
    HealthReport Val :=
  healthReport (sentTable format tests)
    ((sentTable format tests).rows.map (testRun newDate tests.columns))
    ((sentTable format availability).rows.map (availabilityResult newDate availability.columns))

/-- The response to two queries that were answered. -/
theorem respond_sentTable (tests availability : AnswerTable) :
    GetHealthReportController.respond newDate (.ok ⟨200, ⟨[sentTable format tests]⟩⟩)
        (.ok ⟨200, ⟨[sentTable format availability]⟩⟩) =
      .ok ⟨some 200, none, (reportOf format newDate tests availability).toVal⟩ := rfl

/-- What is no run has no tests. -/
theorem filter_testRunEvent_null (events : List Row) :
    events.filter (TestRunEvent releaseId .null ·) = [] := by
  refine List.filter_eq_nil_iff.mpr fun e _ h => ?_
  exact (of_decide_eq_true h).2.2.2.2 rfl

theorem toBoolean_success_eq_true_iff {v : Cell} :
    toBoolean (cellVal format (v.equals (.number 1))) = true ↔ v = .number 1 := by
  unfold Cell.equals
  by_cases h : v = .null ∨ Cell.number 1 = .null
  · rw [if_pos h]
    refine iff_of_false (by simp [cellVal, toBoolean]) ?_
    intro hone
    simp [hone] at h
  · rw [if_neg h]
    simp [cellVal, toBoolean]

theorem testRuns_reportOf (tests results : List Row) :
    (reportOf format newDate (testsAnswer tests) (availabilityAnswer results)).testRuns =
      tests.map (reportedTest format newDate) := by
  simp only [reportOf, healthReport, sentTable, testsAnswer, List.map_map]
  exact List.map_congr_left fun e _ => testRun_testCells format newDate e

theorem availabilityResults_reportOf (tests results : List Row) :
    (reportOf format newDate (testsAnswer tests)
        (availabilityAnswer results)).availabilityResults =
      results.map (reportedAvailability format newDate) := by
  simp only [reportOf, healthReport, sentTable, availabilityAnswer, List.map_map]
  exact List.map_congr_left fun e _ => availabilityResult_availabilityCells format newDate e

theorem healthStatus_reportOf (tests results : List Row) :
    (reportOf format newDate (testsAnswer tests) (availabilityAnswer results)).healthStatus =
      healthStatus (tests.map (reportedTest format newDate))
        (results.map (reportedAvailability format newDate)) := by
  rw [← testRuns_reportOf tests results, ← availabilityResults_reportOf tests results]
  rfl

/-- **The report on any answers to the two queries.** -/
theorem reportOf_describes {atTests atAvailability : Log} {answer answer' : AnswerTable}
    (htests : (testResultsQuery releaseId).Gives format.text atTests.tables answer)
    (havailability : (availabilityResultsQuery releaseId).Gives format.text
      atAvailability.tables answer') :
    ∃ runId tests results, (reportOf format newDate answer answer').Describes format newDate
      atTests atAvailability releaseId runId tests results := by
  obtain ⟨runId, tests, hfinished, hperm, hordered, rfl⟩ := testResults_gives htests
  obtain ⟨availabilityRunId, hlast, rfl⟩ := availabilityResults_gives havailability
  generalize hresults : (atAvailability.tables "availabilityResults").filter
    (AvailabilityEvent releaseId availabilityRunId ·) = results
  have hwarn : (reportOf format newDate (testsAnswer tests)
      (availabilityAnswer results)).healthStatus = .warn ↔ tests = [] ∨ results = [] := by
    rw [healthStatus_reportOf, healthStatus_eq_warn_iff, List.map_eq_nil_iff, List.map_eq_nil_iff]
  refine ⟨runId, tests, results, hfinished, hperm, hordered, ⟨availabilityRunId, hlast,
    hresults.symm⟩, testRuns_reportOf tests results, availabilityResults_reportOf tests results,
    ?_, hwarn, ?_, ?_⟩
  · intro hne
    rcases tests with _ | ⟨e, tests⟩
    · exact absurd rfl hne
    · -- what the runs have in common is read off the first of them
      have he := hperm.mem_iff.mp List.mem_cons_self
      obtain ⟨-, -, hrelease, hrun, -⟩ := of_decide_eq_true (List.mem_filter.mp he).2
      exact ⟨congrArg (cellVal format) hrun, congrArg (cellVal format) hrelease⟩
  · rw [healthStatus_reportOf, healthStatus_eq_pass_iff, ne_eq, ne_eq, List.map_eq_nil_iff,
      List.map_eq_nil_iff, List.forall_mem_map, List.forall_mem_map]
    refine and_congr_right fun _ => and_congr_right fun _ => and_congr ?_ ?_
    · exact forall₂_congr fun e _ => cellVal_eq_result_iff format (by decide)
    · exact forall₂_congr fun e _ => toBoolean_success_eq_true_iff
  · intro hnone
    rw [hwarn]
    cases hfinished with
    | none h =>
      rw [filter_testRunEvent_null] at hperm
      exact Or.inl hperm.eq_nil
    | newest he hP hnewest => exact absurd hP (hnone _ he)

end

/-! ## The request -/

section

variable {format : TimeFormat} {escapes : Escapes} {σ : Type}

/-- A request for the health of a release is answered with the report on what the two queries
are answered. -/
theorem exists_answers_handleRequest (service : AppInsights format escapes σ)
    (newDate : Val → Val) (webApiConfig : WebApiConfig) {context : Context}
    (res : Option HttpResponse) (htarget : context.bindingData.lookup "target" = some "release")
    {releaseId : String}
    (hrelease : GetHealthReportController.releaseId webApiConfig context = some releaseId)
    (hplain : ∀ c ∈ releaseId.toList, c ≠ '"' ∧ c ≠ '\\') (s : σ) :
    ∃ answer answer' : AnswerTable,
      (testResultsQuery releaseId).Gives format.text (service.log s).tables answer ∧
      (availabilityResultsQuery releaseId).Gives format.text
        (service.log (service.handle (.executeAppInsightsQuery
          (createTestResultsQueryForRelease releaseId)) s).2).tables answer' ∧
      ((GetHealthReportController.handleRequest newDate webApiConfig context res).run
        service.handle s).1 =
        .ok (some ⟨some 200, none, (reportOf format newDate answer answer').toVal⟩) := by
  -- the texts are read as the queries they are meant to be, so each gets one of its answers
  obtain ⟨answer, hgives, hanswer⟩ := service.answers _ _ s
    ((read_createTestResultsQuery_iff escapes releaseId).mpr hplain)
  rcases hfirst : service.handle
    (.executeAppInsightsQuery (createTestResultsQueryForRelease releaseId)) s with ⟨first, s₁⟩
  -- the second query meets the events that there are by then
  obtain ⟨answer', hgives', hanswer'⟩ := service.answers _ _ s₁
    ((read_createAvailabilityResultsQuery_iff escapes releaseId).mpr hplain)
  rcases hsecond : service.handle
    (.executeAppInsightsQuery (createAvailabilityResultsQueryForRelease releaseId)) s₁ with
    ⟨second, s₂⟩
  rw [hfirst] at hanswer
  rw [hsecond] at hanswer'
  dsimp only at hanswer hanswer'
  subst hanswer hanswer'
  have hrun : (GetHealthReportController.processReleaseHealthRequest newDate webApiConfig
      context).run service.handle s =
      (.ok ⟨some 200, none, (reportOf format newDate answer answer').toVal⟩, s₂) := by
    unfold GetHealthReportController.processReleaseHealthRequest
      GetHealthReportController.executeQuery
    rw [hrelease, Option.getD_some, Program.perform_bind, Program.run_call, hfirst,
      Program.perform_bind, Program.run_call, hsecond]
    dsimp only
    rw [respond_sentTable]
    rfl
  refine ⟨answer, answer', hgives, hgives', ?_⟩
  unfold GetHealthReportController.handleRequest
  rw [htarget]
  dsimp only
  rw [if_pos rfl, Program.run_bind_ok _ hrun]
  rfl

end

/-! ### A service -/

/-- An hour that is written with its date. -/
def hourFormat : TimeFormat where
  text ticks := "2021-07-01T" ++ toString ticks ++ ":00:00Z"
  not_result ticks h := by
    have hlength : ("2021-07-01T" ++ toString ticks ++ ":00:00Z").length = 4 := by
      rcases List.mem_cons.mp h with h | h
      · rw [h]
        rfl
      · rw [List.mem_singleton.mp h]
        rfl
    rw [String.length_append, String.length_append] at hlength
    have hdate : "2021-07-01T".length = 11 := by decide
    omega

/-- A service that has all its events from the start and evaluates what it can read. -/
def archive (escapes : Escapes) (log : Log) : AppInsights hourFormat escapes Unit where
  log _ := log
  handle operation s :=
    match operation with
    | .executeAppInsightsQuery text =>
      match read escapes text with
      | some q => (.ok ⟨200, ⟨[sentTable hourFormat (q.answer hourFormat.text log.tables)]⟩⟩, s)
      | none => (.ok ⟨400, ⟨[]⟩⟩, s)
  answers text q s hread := by
    refine ⟨_, q.gives_answer hourFormat.text log.tables, ?_⟩
    dsimp only
    rw [hread]

/-- One event of the functional tests. -/
def sampleEvent (hour : ℤ) (logSource testContainer result : String) : Row where
  column name :=
    if name = "timestamp" then some (.datetime hour)
    else if name = "name" then some (.text "FunctionalTest") else none
  property column key :=
    if column = "customDimensions" then
      if key = "logSource" then .text logSource
      else if key = "testContainer" then .text testContainer
      else if key = "result" then .text result
      else if key = "releaseId" then .text "2419"
      else if key = "runId" then .text "run-1" else .null
    else .null

/-- A run of two tests and the finalizer. -/
def sampleLog : Log where
  tables table := if table = "customEvents" then
    [sampleEvent 2 "TestContainer" "FinalizerTestGroup" "pass",
      sampleEvent 1 "TestRun" "GetWebsiteTestGroup" "fail",
      sampleEvent 0 "TestRun" "PostWebsiteTestGroup" "pass"] else []
  noVariable table e he := by
    split at he
    · simp only [List.mem_cons, List.not_mem_nil, or_false] at he
      rcases he with rfl | rfl | rfl <;> rfl
    · cases he

end WebInsights.StorageApi
