/-
The end to end test runner: `TestScenarioDriver`, `TestScanHandler` and `E2ETestRunner`.

A scenario is set up, its tests run before its scans are submitted and again after, and an
event of the name `workerAvailabilityTest` says whether all went well. All scenarios run
together, and the finalizer runs when they are through. What sets a scenario up, the tests
themselves and the client of the web api are operations; the tests are taken to complete. A
test container is told by its class.
-/
import WebInsights.Cosmos.Client
import WebInsights.Js.Json

set_option autoImplicit false

namespace WebInsights.E2eTestRunner

open Effect Js
open Cosmos (JsError StatusCode client.isSuccessStatusCode)

inductive ScanType where
  | a11y
  | privacy
  | security
  deriving DecidableEq

def ScanType.name : ScanType → String
  | .a11y => "a11y"
  | .privacy => "privacy"
  | .security => "security"

/-- `Partial<TestPhases>`: the classes of the tests of each phase. -/
structure TestPhases where
  beforeScan : Option (List String)
  afterScanSubmission : Option (List String)

structure TestScenarioDefinition where
  readableName : String
  websiteDataBlobName : String
  testPhases : TestPhases
  scansToRun : List ScanType

structure TestWebsiteScan where
  scanId : Val
  scanType : ScanType

structure TestContextData where
  websiteId : Val
  websiteScans : List TestWebsiteScan

/-- What is thrown, and what `JSON.stringify` makes of it: of a value that contains itself
it makes a `TypeError`. -/
structure Thrown where
  error : JsError
  json : Except JsError Val

/-- An error has no properties of its own that are written. -/
def Thrown.ofError (error : JsError) : Thrown := ⟨error, .ok (.str "\x7b\x7d")⟩

structure RequestOptions where
  url : Val
  method : Val
  headers : Val

/-- `ResponseWithBodyType`. -/
structure Response where
  statusCode : StatusCode
  body : Val
  headers : Val
  request : Option RequestOptions

def getSerializableResponse (response : Response) : Val :=
  let statusCode : Val := match response.statusCode with
    | .code n => .num n
    | .name s => .str s
  let request : Fields := match response.request with
    | none => []
    | some options => [("request", .obj [("uri", options.url), ("method", options.method),
        ("headers", options.headers)])]
  .obj ([("statusCode", statusCode), ("body", response.body), ("headers", response.headers)] ++
    request)

/-- A moment, by the clock of the runner; months start at 0. -/
structure Date where
  seconds : ℕ
  minutes : ℕ
  hours : ℕ
  date : ℕ
  month : ℕ

inductive Operation where
  | setUpTestScenario (testScenario : TestScenarioDefinition)
  | createTestContainer (testGroupType : String)
  | runAll (testContainers : List String) (scenarioName : String)
      (testContextData : TestContextData)
  | run (testContainer scenarioName : String)
  | getCurrentDate
  | webInsightsClientProvider
  | postWebsiteScan (scanRequest : Val)
  | testRunIdProvider
  | logInfo (message : String) (properties : Fields)
  | logError (message : String) (properties : Fields)
  | trackAvailability (name : String) (success : Bool) (properties : Fields)

abbrev Operation.Result : Operation → Type
  | .setUpTestScenario _ => Except Thrown TestContextData
  | .getCurrentDate => Date
  | .webInsightsClientProvider => Except Thrown Unit
  | .postWebsiteScan _ => Except Thrown Response
  | .testRunIdProvider => String
  | _ => Unit

abbrev Steps (α : Type) : Type := Program Operation Operation.Result Thrown α

def createTestContainer (testGroupType : String) : Steps String := do
  Program.perform (Operation.createTestContainer testGroupType)
  pure testGroupType

/-! ## `TestScanHandler` -/

namespace TestScanHandler

def createCronExpressionFromDatetime (datetime : Date) : String :=
  -- months start at 1 in the expression
  let month := datetime.month + 1
  toString datetime.seconds ++ " " ++ toString datetime.minutes ++ " " ++
    toString datetime.hours ++ " " ++ toString datetime.date ++ " " ++ toString month ++ " ?"

def submitTestScan (scanType : ScanType) (websiteId : Val) : Steps Response := do
  let currentDate ← Program.perform Operation.getCurrentDate
  let scanRequest : Val := .obj [("websiteId", websiteId), ("scanType", .str scanType.name),
    ("scanFrequency", .str (createCronExpressionFromDatetime currentDate))]
  Program.ofExcept (← Program.perform Operation.webInsightsClientProvider)
  Program.ofExcept (← Program.perform (Operation.postWebsiteScan scanRequest))

end TestScanHandler

/-! ## `TestScenarioDriver` -/

structure TestScenarioDriver where
  testScenarioDefinition : TestScenarioDefinition
  testRunId : String
  /-- `webApiConfig.releaseId`. -/
  releaseId : Val

namespace TestScenarioDriver

variable (driver : TestScenarioDriver)

def getBaseTelemetryProperties (testContextData : Option TestContextData) : Fields :=
  [("testScenarioName", .str driver.testScenarioDefinition.readableName),
    ("websiteId", (testContextData.map TestContextData.websiteId).getD .undefined),
    ("runId", .str driver.testRunId), ("releaseId", driver.releaseId)]

def logTestFailure (testContextData : Option TestContextData) (errorMessage : String)
    (telemetryProperties : Fields) : Steps Unit := do
  let properties :=
    Fields.spread (driver.getBaseTelemetryProperties testContextData) telemetryProperties
  Program.perform (Operation.logError errorMessage properties)
  Program.perform (Operation.trackAvailability "workerAvailabilityTest" false properties)

def logTestSuccess (testContextData : TestContextData) : Steps Unit := do
  let properties := driver.getBaseTelemetryProperties testContextData
  Program.perform (Operation.logInfo "Successfully completed test scenario" properties)
  Program.perform (Operation.trackAvailability "workerAvailabilityTest" true properties)

/-- The tests of one phase, `testPhases[phaseName]`. -/
def runTestPhase (testContainerClasses : Option (List String)) (testContextData : TestContextData) :
    Steps Unit :=
  match testContainerClasses with
  | none => pure ()
  | some [] => pure ()
  | some testContainerClasses => do
    let testContainers ← Program.all (testContainerClasses.map createTestContainer)
    Program.perform (Operation.runAll testContainers driver.testScenarioDefinition.readableName
      testContextData)

/-- Whether the scan was submitted, and `testContextData` after that. -/
def trySubmitScan (scanType : ScanType) (testContextData : TestContextData) :
    Steps (Bool × TestContextData) := do
  let submitScanResponse ← TestScanHandler.submitTestScan scanType testContextData.websiteId
  if client.isSuccessStatusCode submitScanResponse.statusCode = false ∨
      submitScanResponse.body = .undefined then
    let requestResponse := stringify (getSerializableResponse submitScanResponse)
    driver.logTestFailure testContextData ("Failed to submit " ++ scanType.name ++ " scan")
      [("requestResponse", (requestResponse.map Val.str).getD .undefined)]
    pure (false, testContextData)
  else
    -- reading the id of a `null` body throws
    let scanId ← Program.ofExcept
      ((Cosmos.property submitScanResponse.body "id").mapError Thrown.ofError)
    pure (true, { testContextData with
      websiteScans := testContextData.websiteScans ++ [⟨scanId, scanType⟩] })

/-- The loop over the scans: `testContextData` after it, or nothing where it returned. -/
def trySubmitScans : List ScanType → TestContextData → Steps (Option TestContextData)
  | [], testContextData => pure testContextData
  | scanType :: scansToRun, testContextData => do
    let (submitScanSucceeded, testContextData) ← driver.trySubmitScan scanType testContextData
    if submitScanSucceeded = true then trySubmitScans scansToRun testContextData else pure none

/-- `testContextData` once the scenario is set up, or nothing where it returned. -/
def trySetUpTestScenario : Steps (Option TestContextData) :=
  tryCatch
    (do
      let testContextData ← Program.ofExcept
        (← Program.perform (Operation.setUpTestScenario driver.testScenarioDefinition))
      pure (some testContextData))
    fun e => do
      let error ← Program.ofExcept (e.json.mapError Thrown.ofError)
      driver.logTestFailure none "Failed to set up test scenario." [("error", error)]
      pure none

def executeTestScenario : Steps Unit := do
  match ← driver.trySetUpTestScenario with
  | none => pure ()
  | some testContextData =>
    driver.runTestPhase driver.testScenarioDefinition.testPhases.beforeScan testContextData
    match ← driver.trySubmitScans driver.testScenarioDefinition.scansToRun testContextData with
    | none => pure ()
    | some testContextData =>
      driver.runTestPhase driver.testScenarioDefinition.testPhases.afterScanSubmission
        testContextData
      driver.logTestSuccess testContextData

end TestScenarioDriver

/-! ## `E2ETestRunner` -/

structure E2ETestRunner where
  testScenarios : List TestScenarioDefinition
  releaseId : Val

namespace E2ETestRunner

variable (runner : E2ETestRunner)

def createTestScenarioDriver (testScenario : TestScenarioDefinition) :
    Steps TestScenarioDriver := do
  let testRunId ← Program.perform Operation.testRunIdProvider
  pure ⟨testScenario, testRunId, runner.releaseId⟩

def finalizeTestRun : Steps Unit := do
  let testContainer ← createTestContainer "FinalizerTestGroup"
  Program.perform (Operation.run testContainer "Finalizer")

def run : Steps Unit := do
  Program.perform (Operation.logInfo "Beginning run of E2E test suite" [])
  let testScenarioDrivers ← Program.all (runner.testScenarios.map runner.createTestScenarioDriver)
  let _ ← Program.all (testScenarioDrivers.map TestScenarioDriver.executeTestScenario)
  finalizeTestRun
  Program.perform (Operation.logInfo "E2E test run completed" [])

end E2ETestRunner

end WebInsights.E2eTestRunner
