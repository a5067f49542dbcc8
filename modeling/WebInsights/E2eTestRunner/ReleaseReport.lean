/-
From the tests of a run to the report on their release.

The containers of a run track an event for each test they target, in whatever order the tests
end, and the finalizer runs when all containers have resolved. If these events are in the log
when `health/release` asks for them, and no finalizer of another run is as new, the report is
about this run, and it passes exactly if every targeted test returned and the availability
results say success.
-/
import WebInsights.E2eTestRunner.TestRunner
import WebInsights.StorageApi.ReleaseVerdict

set_option autoImplicit false

namespace WebInsights.E2eTestRunner

open Effect Js Kql StorageApi WebApi

/-! ## Events in the log -/

def LogSource.text : LogSource → String
  | .testContainer => "TestContainer"
  | .testRun => "TestRun"

def TestRunResult.text : TestRunResult → String
  | .pass => "pass"
  | .fail => "fail"

theorem text_eq_pass_iff {result : TestRunResult} :
    Val.str result.text = .str "pass" ↔ result = .pass := by
  cases result <;> simp [TestRunResult.text]

/-- The properties of an event that are texts. -/
def FunctionalTestEvent.texts (e : FunctionalTestEvent) : List (String × String) :=
  [("environment", e.environment), ("releaseId", e.releaseId), ("runId", e.runId),
    ("scenarioName", e.properties.metadata.scenarioName),
    ("logSource", e.properties.logSource.text), ("testContainer", e.properties.testContainer),
    ("result", e.properties.result.text)] ++
  e.properties.metadata.scanId.toList.map (("scanId", ·)) ++
  e.properties.testName.toList.map (("testName", ·))

/-- What the log has of `trackEvent('FunctionalTest', ..)`, at some time, and with the common
properties of the logger besides. -/
structure Records (e : FunctionalTestEvent) (row : Row) : Prop where
  name : row.cell "name" = .text "FunctionalTest"
  properties : ∀ text ∈ e.texts, eventProperty row text.1 = .text text.2

/-- A test of the report, by its container and name, and its result. -/
def triple (test : TestRun Val) : Val × Val × Val :=
  (test.testContainer, test.testName, test.result)

section

variable {e : FunctionalTestEvent} {row : Row} (h : Records e row)

include h

theorem Records.testRunEvent_iff : TestRunEvent e.releaseId (.text e.runId) row ↔
    e.properties.logSource = .testRun := by
  have hsource := h.properties ("logSource", e.properties.logSource.text)
    (by simp [FunctionalTestEvent.texts])
  have hrelease := h.properties ("releaseId", e.releaseId) (by simp [FunctionalTestEvent.texts])
  have hrun := h.properties ("runId", e.runId) (by simp [FunctionalTestEvent.texts])
  unfold TestRunEvent
  rw [hsource, hrelease, hrun, and_iff_right h.name]
  cases e.properties.logSource <;> simp [LogSource.text]

/-- A container of this name is the finalizer to the queries. -/
theorem Records.finalizerEvent (hname : e.properties.testContainer = "FinalizerTestGroup") :
    FinalizerEvent e.releaseId row ∧ eventProperty row "runId" = .text e.runId := by
  have hcontainer := h.properties ("testContainer", e.properties.testContainer)
    (by simp [FunctionalTestEvent.texts])
  rw [hname] at hcontainer
  exact ⟨⟨h.name, hcontainer, h.properties ("releaseId", e.releaseId)
    (by simp [FunctionalTestEvent.texts])⟩, h.properties ("runId", e.runId)
    (by simp [FunctionalTestEvent.texts])⟩

/-- What the report says of the event of a test. -/
theorem Records.reportedTest (format : TimeFormat) (newDate : Val → Val) {testName : String}
    (hname : e.properties.testName = some testName) :
    triple (reportedTest format newDate row) =
      (.str e.properties.testContainer, .str testName, .str e.properties.result.text) := by
  have hcontainer := h.properties ("testContainer", e.properties.testContainer)
    (by simp [FunctionalTestEvent.texts])
  have htest := h.properties ("testName", testName) (by simp [FunctionalTestEvent.texts, hname])
  have hresult := h.properties ("result", e.properties.result.text)
    (by simp [FunctionalTestEvent.texts])
  unfold triple StorageApi.reportedTest
  rw [hcontainer, htest, hresult]
  rfl

end

/-! ## Runs that come to their end -/

/-- `FinalizerTestGroup`, whose one test returns. -/
def finalizerRun : ContainerRun where
  testContainerName := "FinalizerTestGroup"
  definedTests := [⟨"FinalizerTestGroup", "functionalTestsFinalizer", 7, ⟨0⟩⟩]
  metadata := ⟨"Finalizer", none⟩
  outcomes _ := .ok ()

/-- The containers of a run that came to its end, each with how its run ended. The finalizer
runs once all the others have resolved. -/
structure Suite (runner : TestRunner) where
  containers : List (ContainerRun × RunState)
  complete : ∀ container ∈ containers, ∃ events,
    runner.runs container.1 events = some container.2 ∧ container.2.Complete
  resolved : ∀ container ∈ containers, container.2.settled = some (.ok ())
  finalized : ∃ s, (finalizerRun, s) ∈ containers

section

variable {runner : TestRunner}

/-- A run that resolved has tracked what is promised, all of it with its release and run. -/
theorem verdict_of_resolved {run : ContainerRun} {s : RunState} {events : List RunEvent}
    (hruns : runner.runs run events = some s) (hcomplete : s.Complete)
    (hresolved : s.settled = some (.ok ())) :
    Verdict runner run s ∧
      ∀ e ∈ s.tracked, e.releaseId = runner.releaseId ∧ e.runId = runner.runId := by
  obtain ⟨ended, h⟩ := runs_accounts hruns
  have hsettled := h.settled
  rw [hresolved] at hsettled
  refine ⟨h.verdict hcomplete hsettled.2, ?_⟩
  obtain ⟨properties, htracked, -⟩ := h.logged
  rw [htracked, List.forall_mem_map]
  exact fun _ _ => ⟨rfl, rfl⟩

theorem exists_records {tracked : List FunctionalTestEvent} {rows : List Row}
    (h : List.Forall₂ Records tracked rows) {e : FunctionalTestEvent} (he : e ∈ tracked) :
    ∃ row ∈ rows, Records e row := by
  induction h with
  | nil => cases he
  | @cons e' row tracked rows hrecords _ ih =>
    rcases List.mem_cons.mp he with rfl | he
    · exact ⟨row, List.mem_cons_self, hrecords⟩
    · obtain ⟨row', hrow', hrecords'⟩ := ih he
      exact ⟨row', List.mem_cons_of_mem _ hrow', hrecords'⟩

theorem reported_rows {tracked : List FunctionalTestEvent} {rows : List Row}
    (hnames : ∀ e ∈ tracked, ∃ testName, e.properties.testName = some testName)
    (h : List.Forall₂ Records tracked rows) (format : TimeFormat) (newDate : Val → Val) :
    rows.map (fun row => triple (reportedTest format newDate row)) =
      (tracked.map fun e =>
        (e.properties.testContainer, e.properties.testName, e.properties.result)).map
        fun result => (.str result.1, .str (result.2.1.getD ""), .str result.2.2.text) := by
  induction h with
  | nil => rfl
  | @cons e row tracked rows hrecords _ ih =>
    obtain ⟨⟨testName, hname⟩, hnames⟩ := List.forall_mem_cons.mp hnames
    rw [List.map_cons, ih hnames, hrecords.reportedTest format newDate hname]
    simp [hname]

namespace Suite

variable (suite : Suite runner)

/-- The events of the run. -/
def tracked : List FunctionalTestEvent := suite.containers.flatMap fun container =>
  container.2.tracked

/-- The tests that were targeted, with their names and whether they returned. -/
def results : List (String × String × TestRunResult) :=
  suite.containers.flatMap fun container => (runner.targeted container.1).zipIdx.map fun test =>
    (test.1.testContainer, test.1.testName,
      if (container.1.outcomes test.2).toOption = some () then .pass else .fail)

/-- Every targeted test returned. -/
def Passed : Prop := ∀ container ∈ suite.containers,
  ∀ i < (runner.targeted container.1).length, container.1.outcomes i = .ok ()

/-- The log has the events of the run, each once and in any order, and no other tests of it;
where it has a finalizer of another run for the release, that is older. -/
structure LastIn (events : List Row) : Prop where
  recorded : ∃ rows others, events.Perm (rows ++ others) ∧
    List.Forall₂ Records suite.tracked rows ∧
    ∀ e ∈ others, ¬ TestRunEvent runner.releaseId (.text runner.runId) e
  newest : ∀ e ∈ events, FinalizerEvent runner.releaseId e →
    eventProperty e "runId" ≠ .text runner.runId →
    ∃ e' ∈ events, FinalizerEvent runner.releaseId e' ∧ ¬ NewestFirst "timestamp" e e'

/-! ## The report on the run -/

section

variable {suite}

theorem verdict {container : ContainerRun × RunState} (hmem : container ∈ suite.containers) :
    Verdict runner container.1 container.2 ∧
      ∀ e ∈ container.2.tracked, e.releaseId = runner.releaseId ∧ e.runId = runner.runId := by
  obtain ⟨events, hruns, hcomplete⟩ := suite.complete container hmem
  exact verdict_of_resolved hruns hcomplete (suite.resolved container hmem)

theorem forall_mem_tracked :
    ∀ e ∈ suite.tracked, e.releaseId = runner.releaseId ∧ e.runId = runner.runId := by
  intro e he
  obtain ⟨container, hmem, he⟩ := List.mem_flatMap.mp he
  exact (verdict hmem).2 e he

/-- There is an event for each targeted test, with its result. -/
theorem tracked_perm_results :
    ((suite.tracked.filter fun e => e.properties.logSource = .testRun).map fun e =>
        (e.properties.testContainer, e.properties.testName, e.properties.result)).Perm
      (suite.results.map fun result => (result.1, some result.2.1, result.2.2)) := by
  unfold tracked results
  rw [List.filter_flatMap, List.map_flatMap, List.map_flatMap]
  refine List.Perm.flatMap_left _ fun container hmem => ?_
  have hverdict := (verdict hmem).1
  refine hverdict.tests.trans (List.Perm.of_eq ?_)
  rw [hverdict.started, List.map_map, TestRunner.targeted, targetedTests]
  simp only [bitAnd_getTestEnvironment]
  rfl

/-- The container of the finalizer has an event. -/
theorem exists_finalizer :
    ∃ e ∈ suite.tracked, e.properties.testContainer = "FinalizerTestGroup" := by
  obtain ⟨s, hmem⟩ := suite.finalized
  obtain ⟨e, hfilter, hname, -⟩ := (verdict hmem).1.container
  have he : e ∈ s.tracked.filter fun e => e.properties.logSource = .testContainer := by
    rw [hfilter]
    exact List.mem_singleton_self e
  exact ⟨e, List.mem_flatMap.mpr ⟨_, hmem, List.mem_of_mem_filter he⟩, hname⟩

/-- All results say that the tests passed if every test returned. -/
theorem passed_iff : suite.Passed ↔ ∀ result ∈ suite.results, result.2.2 = .pass := by
  unfold Passed results
  rw [List.forall_mem_flatMap]
  refine forall₂_congr fun container _ => ?_
  rw [List.forall_mem_map, ← @forall_mem_zipIdx _ fun i => container.1.outcomes i = .ok ()]
  refine forall₂_congr fun test _ => ?_
  dsimp only
  rcases container.1.outcomes test.2 with error | ⟨⟩
  · simp [Except.toOption]
  · simp [Except.toOption]

/-- Some test is targeted in every environment that has tests: the finalizer's. -/
theorem results_eq_nil_iff : suite.results = [] ↔
    environmentBits runner.environmentDefinition = 0 := by
  have htargeted : ∀ run : ContainerRun, runner.targeted run = run.definedTests.filter fun test =>
      test.environments &&& environmentBits runner.environmentDefinition ≠ 0 := by
    intro run
    unfold TestRunner.targeted targetedTests
    simp only [bitAnd_getTestEnvironment]
  unfold results
  rw [List.flatMap_eq_nil_iff]
  constructor
  · intro h
    obtain ⟨s, hmem⟩ := suite.finalized
    have hnone := h _ hmem
    rw [List.map_eq_nil_iff, List.zipIdx_eq_nil_iff, htargeted] at hnone
    have hbits := List.filter_eq_nil_iff.mp hnone _ (List.mem_singleton_self _)
    unfold environmentBits at hbits ⊢
    split at hbits <;> simp_all
  · intro hbits container _
    rw [List.map_eq_nil_iff, List.zipIdx_eq_nil_iff, htargeted, hbits]
    simp

end

section

variable {suite} {events : List Row} (h : suite.LastIn events)

include h

/-- The queries find the run. -/
theorem LastIn.runId_eq {format : ℤ → String} {runId : Cell}
    (hlast : LastRun format events (FinalizerEvent runner.releaseId) runId) :
    runId = .text runner.runId := by
  cases hlast with
  | none hnone =>
    obtain ⟨rows, others, hperm, hrows, -⟩ := h.recorded
    obtain ⟨e, he, hname⟩ := @exists_finalizer _ suite
    obtain ⟨row, hrow, hrecords⟩ := exists_records hrows he
    have hfinalizer := (hrecords.finalizerEvent hname).1
    rw [(forall_mem_tracked e he).1] at hfinalizer
    exact absurd hfinalizer (hnone row (hperm.mem_iff.mpr (List.mem_append_left _ hrow)))
  | @newest row he hP hnewest =>
    have hrun : eventProperty row "runId" = .text runner.runId := by
      by_contra hne
      obtain ⟨row', hrow', hP', hnewer⟩ := h.newest row he hP hne
      exact hnewer (hnewest row' hrow' hP')
    rw [hrun]
    rfl

/-- The tests that the queries find. -/
theorem LastIn.tests : ∃ rows : List Row,
    (events.filter (TestRunEvent runner.releaseId (.text runner.runId) ·)).Perm rows ∧
    List.Forall₂ Records (suite.tracked.filter fun e => e.properties.logSource = .testRun)
      rows := by
  obtain ⟨rows, others, hperm, hrows, hothers⟩ := h.recorded
  refine ⟨rows.filter (TestRunEvent runner.releaseId (.text runner.runId) ·), ?_, ?_⟩
  · refine (hperm.filter _).trans (List.Perm.of_eq ?_)
    have hnone : others.filter (TestRunEvent runner.releaseId (.text runner.runId) ·) = [] :=
      List.filter_eq_nil_iff.mpr fun e he => by simpa using hothers e he
    rw [List.filter_append, hnone, List.append_nil]
  · have hboth := (List.forall₂_and_left _ _).mpr ⟨forall_mem_tracked, hrows⟩
    refine (List.rel_filter (fun e row hrecords => ?_) hboth).imp fun _ _ hrecords => hrecords.2
    obtain ⟨⟨hrelease, hrun⟩, hrecords⟩ := hrecords
    dsimp only
    rw [decide_eq_true_iff, decide_eq_true_iff, ← hrelease, ← hrun]
    exact hrecords.testRunEvent_iff.symm

/-- What the report says of the tests. -/
theorem LastIn.testRuns {format : TimeFormat} {newDate : Val → Val} {tests : List Row}
    (htests : tests.Perm
      (events.filter (TestRunEvent runner.releaseId (.text runner.runId) ·))) :
    ((tests.map (reportedTest format newDate)).map triple).Perm
      (suite.results.map fun result =>
        (.str result.1, .str result.2.1, .str result.2.2.text)) ∧
    ((∀ e ∈ tests, eventProperty e "result" = .text "pass") ↔ suite.Passed) := by
  obtain ⟨rows, hperm, hrows⟩ := h.tests
  have htracked := @tracked_perm_results _ suite
  generalize (suite.tracked.filter fun e => e.properties.logSource = .testRun) = tracked
    at htracked hrows
  have hnames : ∀ e ∈ tracked, ∃ testName, e.properties.testName = some testName := by
    intro e he
    obtain ⟨result, -, heq⟩ := List.mem_map.mp (htracked.mem_iff.mp (List.mem_map_of_mem he))
    exact ⟨result.2.1, (congrArg (·.2.1) heq).symm⟩
  -- the rows are reported as the events they record, and these are the results of the suite
  have hreported := (htests.trans hperm).map fun row => triple (reportedTest format newDate row)
  rw [reported_rows hnames hrows] at hreported
  have hresults := hreported.trans (htracked.map _)
  rw [List.map_map] at hresults
  refine ⟨by rwa [List.map_map], ?_⟩
  rw [passed_iff]
  constructor
  · intro hpass result hmem
    obtain ⟨row, hrow, heq⟩ := List.mem_map.mp (hresults.mem_iff.mpr (List.mem_map_of_mem hmem))
    have hrowPass := (cellVal_eq_result_iff format (by decide)).mpr (hpass row hrow)
    exact text_eq_pass_iff.mp ((congrArg (·.2.2) heq).symm.trans hrowPass)
  · intro hpass row hrow
    obtain ⟨result, hmem, heq⟩ := List.mem_map.mp (hresults.mem_iff.mp (List.mem_map_of_mem hrow))
    refine (cellVal_eq_result_iff format (by decide)).mp ?_
    exact (congrArg (·.2.2) heq).symm.trans (text_eq_pass_iff.mpr (hpass result hmem))

end

end Suite

end

/-! ## The request -/

section

variable {runner : TestRunner} {format : TimeFormat} {escapes : Escapes} {σ : Type}

theorem reportedAvailability_success_iff {newDate : Val → Val} {e : Row} :
    (reportedAvailability format newDate e).success = .bool true ↔
      e.cell "success" = .number 1 := by
  unfold reportedAvailability Cell.equals
  dsimp only
  split
  · rename_i hnull
    refine iff_of_false nofun ?_
    intro hone
    rw [hone] at hnull
    exact hnull.elim nofun nofun
  · simp [cellVal]

end

/-! ### A run in the log -/

/-- The row of an event. -/
def rowOf (e : FunctionalTestEvent) : Row where
  column name :=
    if name = "timestamp" then some (.datetime 0)
    else if name = "name" then some (.text "FunctionalTest") else none
  property column key :=
    if column = "customDimensions" then
      ((Keyed.lookup Prod.fst key e.texts).map fun text => .text text.2).getD .null
    else .null

theorem records_rowOf (e : FunctionalTestEvent) : Records e (rowOf e) := by
  refine ⟨rfl, fun text htext => ?_⟩
  have hnd : (e.texts.map Prod.fst).Nodup := by
    unfold FunctionalTestEvent.texts
    cases e.properties.metadata.scanId <;> cases e.properties.testName <;> simp
  have hfind := (Keyed.lookup_eq_some_iff Prod.fst hnd).mpr ⟨htext, rfl⟩
  unfold eventProperty rowOf
  dsimp only
  rw [if_pos rfl, hfind]
  rfl

/-- A log that has the events of a run and no others. -/
def logOf (tracked : List FunctionalTestEvent) : Log where
  tables table := if table = "customEvents" then tracked.map rowOf else []
  noVariable table e he := by
    split at he
    · obtain ⟨e, -, rfl⟩ := List.mem_map.mp he
      rfl
    · cases he

theorem lastIn_logOf {runner : TestRunner} (suite : Suite runner) :
    suite.LastIn ((logOf suite.tracked).tables "customEvents") := by
  have hrows : ∀ tracked : List FunctionalTestEvent,
      List.Forall₂ Records tracked (tracked.map rowOf) := fun tracked =>
    List.forall₂_map_right_iff.mpr (List.forall₂_same.mpr fun e _ => records_rowOf e)
  refine ⟨⟨_, [], by rw [List.append_nil]; exact List.Perm.refl _, hrows _, nofun⟩, ?_⟩
  intro row hrow _ hne
  obtain ⟨e, he, rfl⟩ := List.mem_map.mp hrow
  have hrun := (records_rowOf e).properties ("runId", e.runId) (by simp [FunctionalTestEvent.texts])
  rw [(Suite.forall_mem_tracked e he).2] at hrun
  exact absurd hrun hne

theorem complete_get {runner : TestRunner} {run : ContainerRun} {events : List RunEvent}
    (h : (runner.runs run events).isSome)
    (hmap : (runner.runs run events).map (fun s =>
      (s.running.length, s.logging.length, s.settled.isSome)) = some (0, 0, true)) :
    ∃ events', runner.runs run events' = some ((runner.runs run events).get h) ∧
      ((runner.runs run events).get h).Complete :=
  ⟨events, (Option.some_get h).symm, complete_of_map (Option.some_get h).symm hmap⟩

/-- A container with a test that fails, and the finalizer. -/
def sampleSuite : Suite canaryRunner where
  containers :=
    [(sampleRun (.str "failed"), Option.get (canaryRunner.runs (sampleRun (.str "failed"))
        [.ended 1, .runId 0, .ended 0, .awaited, .runId 1, .runId 0]) rfl),
      (finalizerRun, Option.get (canaryRunner.runs finalizerRun
        [.ended 0, .awaited, .runId 0, .runId 0]) rfl)]
  complete := List.forall_mem_cons.mpr
    ⟨@complete_get _ _ [.ended 1, .runId 0, .ended 0, .awaited, .runId 1, .runId 0] rfl rfl,
      List.forall_mem_singleton.mpr
        (@complete_get _ _ [.ended 0, .awaited, .runId 0, .runId 0] rfl rfl)⟩
  resolved := List.forall_mem_cons.mpr ⟨rfl, List.forall_mem_singleton.mpr rfl⟩
  finalized := ⟨_, List.mem_cons_of_mem _ (List.mem_singleton_self _)⟩

theorem not_passed_sampleSuite : ¬ sampleSuite.Passed := by
  intro hpassed
  have houtcome := hpassed _ List.mem_cons_self 0 (by decide)
  cases houtcome

end WebInsights.E2eTestRunner
