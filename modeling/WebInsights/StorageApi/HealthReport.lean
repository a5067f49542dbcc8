/-
The health report of a release, made of what Application Insights answers to the two
queries.

A cell is found by the name of its column, in every row anew, and a row that is shorter than
the columns lacks the last cells. What `new Date` makes of the text of a time is a parameter.
-/
import WebInsights.Cosmos.World
import WebInsights.Data.Columns
import WebInsights.Js.Lodash

set_option autoImplicit false

namespace WebInsights.StorageApi

open Cosmos Js
open Columns (Rearranged cell)

/-- A table of an answer, with the names of its columns. -/
structure Table where
  columns : List String
  rows : List (List Val)

structure ApplicationInsightsQueryResponse where
  tables : List Table

/-! ## `createHealthReport` -/

inductive TestRunResult where
  | pass
  | fail
  | warn
  deriving DecidableEq

structure TestRun (Date : Type) where
  testContainer : Val
  testName : Val
  scenarioName : Val
  scanId : Val
  result : Val
  timestamp : Date
  /-- The property is there if the run failed. -/
  error : Option Val

structure AvailabilityResult (Date : Type) where
  scenarioName : Val
  timestamp : Date
  success : Val

structure HealthReport (Date : Type) where
  healthStatus : TestRunResult
  environment : Val
  releaseId : Val
  runId : Val
  availabilityResults : List (AvailabilityResult Date)
  testRuns : List (TestRun Date)
  testsPassed : ℕ
  testsFailed : ℕ

def getColumnValue (columns : List String) (row : Option (List Val)) (columnName : String) : Val :=
  match columns.findIdx? (fun c => c = columnName), row with
  | some index, some row => if row.length > index then row.getD index .undefined else .undefined
  | _, _ => .undefined

/-- `response.tables[0]`, of which the columns are read next. -/
def firstTable (response : ApplicationInsightsQueryResponse) : Except JsError Table :=
  match response.tables with
  | table :: _ => pure table
  | [] => throw (.typeError "Cannot read property 'columns' of undefined")

section

variable {Date : Type} (newDate : Val → Date)

def testRun (columns : List String) (row : List Val) : TestRun Date :=
  let value := getColumnValue columns (some row)
  { testContainer := value "testContainer"
    testName := value "testName"
    scenarioName := value "scenarioName"
    scanId := value "scanId"
    result := value "result"
    timestamp := newDate (value "timestamp")
    error := if value "result" = .str "fail" then some (value "error") else none }

def getTestRuns (testResultsResponse : ApplicationInsightsQueryResponse) :
    Except JsError (List (TestRun Date)) := do
  let table ← firstTable testResultsResponse
  pure (table.rows.map (testRun newDate table.columns))

def availabilityResult (columns : List String) (row : List Val) : AvailabilityResult Date :=
  let value := getColumnValue columns (some row)
  { scenarioName := value "scenarioName"
    timestamp := newDate (value "timestamp")
    success := value "success" }

def getAvailabilityResults (availabilityResultsResponse : ApplicationInsightsQueryResponse) :
    Except JsError (List (AvailabilityResult Date)) := do
  let table ← firstTable availabilityResultsResponse
  pure (table.rows.map (availabilityResult newDate table.columns))

/-- The status of a report on these runs and results. -/
def healthStatus (testRuns : List (TestRun Date))
    (availabilityResults : List (AvailabilityResult Date)) : TestRunResult :=
  if testRuns.length ≤ 0 ∨ availabilityResults.length ≤ 0 then .warn
  else if (testRuns.all fun testRun => testRun.result = .str "pass") &&
      availabilityResults.all fun result => toBoolean result.success then .pass
  else .fail

/-- The report itself; what the runs have in common is read off the first row. -/
def healthReport (table : Table) (testRuns : List (TestRun Date))
    (availabilityResults : List (AvailabilityResult Date)) : HealthReport Date :=
  let value := getColumnValue table.columns table.rows.head?
  { healthStatus := healthStatus testRuns availabilityResults
    environment := value "environment"
    releaseId := value "releaseId"
    runId := value "runId"
    availabilityResults := availabilityResults
    testRuns := testRuns
    testsPassed := (testRuns.filter fun testRun => testRun.result = .str "pass").length
    testsFailed := (testRuns.filter fun testRun => testRun.result = .str "fail").length }

def createHealthReport
    (testResultsResponse availabilityResultsResponse : ApplicationInsightsQueryResponse) :
    Except JsError (HealthReport Date) := do
  let testRuns ← getTestRuns newDate testResultsResponse
  let availabilityResults ← getAvailabilityResults newDate availabilityResultsResponse
  let table ← firstTable testResultsResponse
  pure (healthReport table testRuns availabilityResults)

end

/-! ## Cells -/

/-- The value of a row under a name, and `undefined` if there is none. -/
def CellOf (columns : List String) (row : List Val) (name : String) (v : Val) : Prop :=
  (name, v) ∈ columns.zip row ∨ v = .undefined ∧ ∀ w, (name, w) ∉ columns.zip row

theorem getColumnValue_eq (columns : List String) (row : List Val) (name : String) :
    getColumnValue columns (some row) name = (cell columns row name).getD .undefined := by
  unfold getColumnValue cell
  rcases columns.findIdx? (fun c => c = name) with _ | index
  · rfl
  · dsimp only
    rw [Option.bind_some, List.getD_eq_getElem?_getD]
    by_cases h : row.length > index
    · rw [if_pos h]
    · rw [if_neg h, List.getElem?_eq_none (by omega), Option.getD_none]

theorem cellOf_getColumnValue {columns : List String} (hnd : columns.Nodup) (row : List Val)
    (name : String) : CellOf columns row name (getColumnValue columns (some row) name) := by
  rw [getColumnValue_eq]
  rcases hcell : cell columns row name with _ | v
  · refine Or.inr ⟨rfl, fun w hw => ?_⟩
    rw [← Columns.cell_eq_some_iff hnd, hcell] at hw
    cases hw
  · exact Or.inl ((Columns.cell_eq_some_iff hnd).mp hcell)

/-- A value that is not `undefined` is read where it stands. -/
theorem getColumnValue_eq_iff {columns : List String} (hnd : columns.Nodup) {row : List Val}
    {name : String} {v : Val} (hv : v ≠ .undefined) :
    getColumnValue columns (some row) name = v ↔ (name, v) ∈ columns.zip row := by
  rw [← Columns.cell_eq_some_iff hnd, getColumnValue_eq]
  rcases cell columns row name with _ | w
  · simp [hv.symm]
  · simp

/-! ## What a report says -/

section

variable {Date : Type} {newDate : Val → Date}

/-- A test run with the cells of a row. -/
structure IsTestRun (newDate : Val → Date) (columns : List String) (row : List Val)
    (run : TestRun Date) : Prop where
  testContainer : CellOf columns row "testContainer" run.testContainer
  testName : CellOf columns row "testName" run.testName
  scenarioName : CellOf columns row "scenarioName" run.scenarioName
  scanId : CellOf columns row "scanId" run.scanId
  result : CellOf columns row "result" run.result
  timestamp : ∃ v, CellOf columns row "timestamp" v ∧ run.timestamp = newDate v
  failed : run.result = .str "fail" → ∃ v, CellOf columns row "error" v ∧ run.error = some v
  other : run.result ≠ .str "fail" → run.error = none

/-- An availability result with the cells of a row. -/
structure IsAvailabilityResult (newDate : Val → Date) (columns : List String) (row : List Val)
    (result : AvailabilityResult Date) : Prop where
  scenarioName : CellOf columns row "scenarioName" result.scenarioName
  timestamp : ∃ v, CellOf columns row "timestamp" v ∧ result.timestamp = newDate v
  success : CellOf columns row "success" result.success

/-- Both tables have rows, every test passed and every availability test succeeded. -/
structure AllPass (tests availability : Table) : Prop where
  tested : tests.rows ≠ []
  available : availability.rows ≠ []
  passed : ∀ row ∈ tests.rows, ("result", .str "pass") ∈ tests.columns.zip row
  succeeded : ∀ row ∈ availability.rows, ("success", .bool true) ∈ availability.columns.zip row

/-- The cells of the column `success` are booleans. -/
def Table.BooleanSuccess (availability : Table) : Prop :=
  ∀ row ∈ availability.rows, ∀ v, ("success", v) ∈ availability.columns.zip row →
    ∃ b, v = .bool b

/-- A report on the tests and on the availability. -/
structure HealthReport.Reports (newDate : Val → Date) (tests availability : Table)
    (report : HealthReport Date) : Prop where
  testRuns : List.Forall₂ (IsTestRun newDate tests.columns) tests.rows report.testRuns
  availabilityResults : List.Forall₂ (IsAvailabilityResult newDate availability.columns)
    availability.rows report.availabilityResults
  warn_iff : report.healthStatus = .warn ↔ tests.rows = [] ∨ availability.rows = []
  pass_iff : report.healthStatus = .pass ↔ AllPass tests availability
  fail_iff : report.healthStatus = .fail ↔
    tests.rows ≠ [] ∧ availability.rows ≠ [] ∧ ¬ AllPass tests availability
  counts : report.healthStatus = .pass →
    report.testsPassed = tests.rows.length ∧ report.testsFailed = 0

/-- The same table, or one with its columns in another order, and with the cells of rows that
have one under each. -/
def Table.SameUpToOrder (table table' : Table) : Prop :=
  table' = table ∨ ∃ (n : ℕ) (σ : Equiv.Perm (Fin n)), Rearranged σ table.columns table'.columns ∧
    List.Forall₂ (Rearranged σ) table.rows table'.rows

theorem isTestRun_testRun {columns : List String} (hnd : columns.Nodup) (row : List Val) :
    IsTestRun newDate columns row (testRun newDate columns row) where
  testContainer := cellOf_getColumnValue hnd row _
  testName := cellOf_getColumnValue hnd row _
  scenarioName := cellOf_getColumnValue hnd row _
  scanId := cellOf_getColumnValue hnd row _
  result := cellOf_getColumnValue hnd row _
  timestamp := ⟨_, cellOf_getColumnValue hnd row _, rfl⟩
  failed h := ⟨_, cellOf_getColumnValue hnd row _, if_pos h⟩
  other h := if_neg h

theorem isAvailabilityResult_availabilityResult {columns : List String} (hnd : columns.Nodup)
    (row : List Val) :
    IsAvailabilityResult newDate columns row (availabilityResult newDate columns row) where
  scenarioName := cellOf_getColumnValue hnd row _
  timestamp := ⟨_, cellOf_getColumnValue hnd row _, rfl⟩
  success := cellOf_getColumnValue hnd row _

theorem forall₂_map {α β : Type} {R : α → β → Prop} {f : α → β} (h : ∀ a, R a (f a))
    (l : List α) : List.Forall₂ R l (l.map f) := by
  rw [List.forall₂_map_right_iff]
  exact List.forall₂_same.mpr fun a _ => h a

/-! ## The verdict -/

theorem createHealthReport_eq (newDate : Val → Date) (tests availability : Table) :
    createHealthReport newDate ⟨[tests]⟩ ⟨[availability]⟩ =
      .ok (healthReport tests (tests.rows.map (testRun newDate tests.columns))
        (availability.rows.map (availabilityResult newDate availability.columns))) := rfl

section

variable {testRuns : List (TestRun Date)} {availabilityResults : List (AvailabilityResult Date)}

theorem noResults_iff : testRuns.length ≤ 0 ∨ availabilityResults.length ≤ 0 ↔
    testRuns = [] ∨ availabilityResults = [] := by
  rw [Nat.le_zero, Nat.le_zero, List.length_eq_zero_iff, List.length_eq_zero_iff]

theorem healthStatus_eq_warn_iff :
    healthStatus testRuns availabilityResults = .warn ↔
      testRuns = [] ∨ availabilityResults = [] := by
  unfold healthStatus
  by_cases h : testRuns = [] ∨ availabilityResults = []
  · rw [if_pos (noResults_iff.mpr h)]
    exact iff_of_true rfl h
  · rw [if_neg (mt noResults_iff.mp h)]
    refine iff_of_false ?_ h
    split <;> exact nofun

theorem healthStatus_eq_pass_iff :
    healthStatus testRuns availabilityResults = .pass ↔
      testRuns ≠ [] ∧ availabilityResults ≠ [] ∧ (∀ run ∈ testRuns, run.result = .str "pass") ∧
        ∀ result ∈ availabilityResults, toBoolean result.success = true := by
  unfold healthStatus
  by_cases h : testRuns = [] ∨ availabilityResults = []
  · rw [if_pos (noResults_iff.mpr h)]
    refine iff_of_false nofun ?_
    rintro ⟨htests, havailability, -⟩
    exact h.elim htests havailability
  · rw [if_neg (mt noResults_iff.mp h)]
    rw [not_or] at h
    rw [← and_assoc, and_iff_right h]
    simp only [Bool.and_eq_true, List.all_eq_true, decide_eq_true_eq]
    split
    · rename_i hpass
      exact iff_of_true rfl hpass
    · rename_i hfail
      exact iff_of_false nofun hfail

theorem healthStatus_eq_fail_iff :
    healthStatus testRuns availabilityResults = .fail ↔
      healthStatus testRuns availabilityResults ≠ .warn ∧
        healthStatus testRuns availabilityResults ≠ .pass := by
  rcases healthStatus testRuns availabilityResults with _ | _ | _ <;> simp

end

/-- Where success is a boolean, it is taken as true where the cell says so. -/
theorem toBoolean_success_iff {availability : Table} (hnd : availability.columns.Nodup)
    (hboolean : availability.BooleanSuccess) {row : List Val} (hrow : row ∈ availability.rows) :
    toBoolean (getColumnValue availability.columns (some row) "success") = true ↔
      ("success", .bool true) ∈ availability.columns.zip row := by
  rcases cellOf_getColumnValue hnd row "success" with hcell | ⟨hundefined, hnone⟩
  · obtain ⟨b, hb⟩ := hboolean row hrow _ hcell
    rw [← getColumnValue_eq_iff hnd (show Val.bool true ≠ .undefined from nofun), hb]
    simp [toBoolean]
  · rw [hundefined]
    exact iff_of_false nofun (hnone _)

variable {tests availability : Table} (htests : tests.columns.Nodup)
  (havailability : availability.columns.Nodup) (hboolean : availability.BooleanSuccess)

include htests havailability hboolean in
/-- The report passes when every cell it looks at does. -/
theorem healthStatus_eq_pass_iff_allPass :
    healthStatus (tests.rows.map (testRun newDate tests.columns))
        (availability.rows.map (availabilityResult newDate availability.columns)) = .pass ↔
      AllPass tests availability := by
  have hpassed : (∀ run ∈ tests.rows.map (testRun newDate tests.columns),
      run.result = .str "pass") ↔
      ∀ row ∈ tests.rows, ("result", .str "pass") ∈ tests.columns.zip row := by
    rw [List.forall_mem_map]
    exact forall₂_congr fun row _ => getColumnValue_eq_iff htests nofun
  have hsucceeded : (∀ result ∈ availability.rows.map
      (availabilityResult newDate availability.columns), toBoolean result.success = true) ↔
      ∀ row ∈ availability.rows, ("success", .bool true) ∈ availability.columns.zip row := by
    rw [List.forall_mem_map]
    exact forall₂_congr fun row hrow => toBoolean_success_iff havailability hboolean hrow
  rw [healthStatus_eq_pass_iff, hpassed, hsucceeded, ne_eq, ne_eq, List.map_eq_nil_iff,
    List.map_eq_nil_iff]
  exact ⟨fun ⟨h₁, h₂, h₃, h₄⟩ => ⟨h₁, h₂, h₃, h₄⟩, fun h => ⟨h.1, h.2, h.3, h.4⟩⟩

/-- The counts of a report on tests that all passed. -/
theorem counts_of_passed {testRuns : List (TestRun Date)}
    (h : ∀ run ∈ testRuns, run.result = .str "pass") :
    (testRuns.filter fun run => run.result = .str "pass").length = testRuns.length ∧
      (testRuns.filter fun run => run.result = .str "fail").length = 0 := by
  constructor
  · rw [List.filter_eq_self.mpr fun run hrun => decide_eq_true (h run hrun)]
  · rw [List.length_eq_zero_iff, List.filter_eq_nil_iff]
    intro run hrun
    rw [h run hrun]
    decide

include htests havailability hboolean in
theorem reports_healthReport : (healthReport tests (tests.rows.map (testRun newDate tests.columns))
    (availability.rows.map (availabilityResult newDate availability.columns))).Reports newDate
      tests availability where
  testRuns := forall₂_map (isTestRun_testRun htests) _
  availabilityResults := forall₂_map (isAvailabilityResult_availabilityResult havailability) _
  warn_iff := by
    refine healthStatus_eq_warn_iff.trans ?_
    rw [List.map_eq_nil_iff, List.map_eq_nil_iff]
  pass_iff := healthStatus_eq_pass_iff_allPass htests havailability hboolean
  fail_iff := by
    refine healthStatus_eq_fail_iff.trans ?_
    rw [ne_eq, ne_eq, healthStatus_eq_warn_iff,
      healthStatus_eq_pass_iff_allPass htests havailability hboolean, List.map_eq_nil_iff,
      List.map_eq_nil_iff, not_or, and_assoc]
  counts hpass := by
    have hpassed := (healthStatus_eq_pass_iff.mp hpass).2.2.1
    obtain ⟨hcount, hnone⟩ := counts_of_passed hpassed
    exact ⟨hcount.trans (List.length_map _), hnone⟩

end

/-! ## The order of the columns -/

theorem getColumnValue_rearranged {n : ℕ} {σ : Equiv.Perm (Fin n)} {columns columns' : List String}
    (hnd : columns.Nodup) (h : Rearranged σ columns columns') {row row' : List Val}
    (hrow : Rearranged σ row row') :
    getColumnValue columns' (some row') = getColumnValue columns (some row) := by
  funext name
  rw [getColumnValue_eq, getColumnValue_eq, Columns.cell_rearranged h hrow hnd]

theorem map_eq_of_forall₂ {α β γ : Type} {R : α → β → Prop} {f : α → γ} {g : β → γ}
    (hfg : ∀ a b, R a b → g b = f a) {l : List α} {l' : List β} (h : List.Forall₂ R l l') :
    l'.map g = l.map f := by
  induction h with
  | nil => rfl
  | cons hab _ ih => rw [List.map_cons, List.map_cons, hfg _ _ hab, ih]

/-- The first row has the same values under the same names, if there is one. -/
theorem getColumnValue_head {n : ℕ} {σ : Equiv.Perm (Fin n)} {table table' : Table}
    (hnd : table.columns.Nodup) (h : Rearranged σ table.columns table'.columns)
    (hrows : List.Forall₂ (Rearranged σ) table.rows table'.rows) :
    getColumnValue table'.columns table'.rows.head? =
      getColumnValue table.columns table.rows.head? := by
  generalize table.rows = rows, table'.rows = rows' at hrows
  rcases hrows with _ | ⟨hrow, -⟩
  · funext name
    unfold getColumnValue
    rcases table.columns.findIdx? _ with _ | _ <;> rcases table'.columns.findIdx? _ with _ | _ <;>
      rfl
  · exact getColumnValue_rearranged hnd h hrow

section

variable {Date : Type} (newDate : Val → Date) {table table' : Table}

theorem testRuns_sameUpToOrder (hnd : table.columns.Nodup) (h : table.SameUpToOrder table') :
    table'.rows.map (testRun newDate table'.columns) =
      table.rows.map (testRun newDate table.columns) := by
  rcases h with rfl | ⟨n, σ, hcolumns, hrows⟩
  · rfl
  · refine map_eq_of_forall₂ (fun row row' hrow => ?_) hrows
    unfold testRun
    rw [getColumnValue_rearranged hnd hcolumns hrow]

theorem availabilityResults_sameUpToOrder (hnd : table.columns.Nodup)
    (h : table.SameUpToOrder table') :
    table'.rows.map (availabilityResult newDate table'.columns) =
      table.rows.map (availabilityResult newDate table.columns) := by
  rcases h with rfl | ⟨n, σ, hcolumns, hrows⟩
  · rfl
  · refine map_eq_of_forall₂ (fun row row' hrow => ?_) hrows
    unfold availabilityResult
    rw [getColumnValue_rearranged hnd hcolumns hrow]

theorem healthReport_sameUpToOrder (hnd : table.columns.Nodup) (h : table.SameUpToOrder table')
    (testRuns : List (TestRun Date)) (availabilityResults : List (AvailabilityResult Date)) :
    healthReport table' testRuns availabilityResults =
      healthReport table testRuns availabilityResults := by
  rcases h with rfl | ⟨n, σ, hcolumns, hrows⟩
  · rfl
  · unfold healthReport
    rw [getColumnValue_head hnd hcolumns hrows]

/-- **The verdict on a release**: the report lists the rows of both tables, passes exactly when
there are rows in both and all of them pass, and does not depend on the order of the
columns. -/
theorem createHealthReport_reports {tests availability : Table} (htests : tests.columns.Nodup)
    (havailability : availability.columns.Nodup) (hboolean : availability.BooleanSuccess) :
    ∃ report, createHealthReport newDate ⟨[tests]⟩ ⟨[availability]⟩ = .ok report ∧
      report.Reports newDate tests availability ∧
      ∀ tests' availability', tests.SameUpToOrder tests' →
        availability.SameUpToOrder availability' →
        createHealthReport newDate ⟨[tests']⟩ ⟨[availability']⟩ = .ok report := by
  refine ⟨_, createHealthReport_eq newDate tests availability,
    reports_healthReport htests havailability hboolean, ?_⟩
  intro tests' availability' htests' havailability'
  rw [createHealthReport_eq, testRuns_sameUpToOrder newDate htests htests',
    availabilityResults_sameUpToOrder newDate havailability havailability',
    healthReport_sameUpToOrder htests htests']

end

/-! ## A release -/

/-- One time of a test, in milliseconds; of another text no date is made. -/
def sampleDate (v : Val) : Option ℕ :=
  if v = .str "2020-01-13T03:11:00.352Z" then some 1578885060352 else none

/-- Two tests that passed, the second without a scan. -/
def sampleTests : Table where
  columns := ["timestamp", "testName", "result", "scanId"]
  rows := [[.str "2020-01-13T03:11:00.352Z", .str "testA1", .str "pass", .str "scan-id-1"],
    [.str "2020-01-13T03:11:00.352Z", .str "functionalTestsFinalizer", .str "pass"]]

def sampleAvailability : Table where
  columns := ["scenarioName", "success"]
  rows := [[.str "TestScenario1", .bool true]]

theorem booleanSuccess_sampleAvailability : sampleAvailability.BooleanSuccess := by
  intro row hrow v hv
  obtain rfl := List.mem_singleton.mp hrow
  obtain ⟨-, rfl⟩ : "success" = "success" ∧ v = .bool true := by
    simpa [sampleAvailability] using hv
  exact ⟨true, rfl⟩

theorem createHealthReport_reports_sample : ∃ report : HealthReport (Option ℕ),
    createHealthReport sampleDate ⟨[sampleTests]⟩ ⟨[sampleAvailability]⟩ = .ok report ∧
      report.healthStatus = .pass ∧ report.testsPassed = 2 := by
  obtain ⟨report, hreport, hreports, -⟩ := createHealthReport_reports sampleDate
    (show sampleTests.columns.Nodup by decide) (show sampleAvailability.columns.Nodup by decide)
    booleanSuccess_sampleAvailability
  have hpass : AllPass sampleTests sampleAvailability :=
    ⟨nofun, nofun, by decide, by decide⟩
  have hstatus := hreports.pass_iff.mpr hpass
  exact ⟨report, hreport, hstatus, (hreports.counts hstatus).1⟩

end WebInsights.StorageApi
