/-
`TestRunner.run`: the tests of a container that are targeted at the environment run together,
and an event for each of them and one for the container say how they ended.

All targeted tests are started at once and end in any order, by returning or by throwing
anything. `log` is not awaited, so an event is tracked some time after it was logged. What a
test throws is looked at in the `catch` of `runTest`, and of `undefined` and `null` no
message can be read there: such a test has no event and nor has its container
(`run_verdict_iff`).
-/
import Mathlib.Data.List.Perm.Basic
import Mathlib.Data.List.Nodup
import WebInsights.Cosmos.World
import WebInsights.E2eTestRunner.TestDecorator

set_option autoImplicit false

namespace WebInsights.E2eTestRunner

open Cosmos (JsError property)
open Effect Js

/-! ## Tests and environments -/

/-- What the enumeration object has under a name, and under a number. -/
inductive TestEnvironment where
  | number (n : ℕ)
  | name (s : String)
  deriving DecidableEq

/-- `Object.entries(TestEnvironment)`: the names of the numbers come first. -/
def TestEnvironment.entries : List (String × TestEnvironment) :=
  [("0", .name "none"), ("1", .name "canary"), ("2", .name "insider"), ("4", .name "production"),
    ("7", .name "all"), ("none", .number 0), ("canary", .number 1), ("insider", .number 2),
    ("production", .number 4), ("all", .number 7)]

def getTestEnvironment (environmentDefinition : String) : TestEnvironment :=
  match TestEnvironment.entries.find? fun entry => entry.1 = environmentDefinition with
  | some (_, value) => value
  | none => .number 0

/-- `definedTest.environments & testEnvironment`, where a name is no number. -/
def bitAnd (environments : ℕ) : TestEnvironment → ℕ
  | .number n => environments &&& n
  | .name _ => 0

def targetedTests (definedTests : List TestDefinition) (environmentDefinition : String) :
    List TestDefinition :=
  definedTests.filter fun definedTest =>
    bitAnd definedTest.environments (getTestEnvironment environmentDefinition) ≠ 0

/-! ## Events -/

inductive LogSource where
  | testContainer
  | testRun
  deriving DecidableEq

inductive TestRunResult where
  | pass
  | fail
  deriving DecidableEq

structure TestRunMetadata where
  scenarioName : String
  scanId : Option String

/-- `TestRunLogProperties` and `TestContainerLogProperties`. -/
structure LogProperties where
  metadata : TestRunMetadata
  logSource : LogSource
  testContainer : String
  testName : Option String
  result : TestRunResult
  error : Option Val

/-- The properties of an event `FunctionalTest`. -/
structure FunctionalTestEvent where
  environment : String
  releaseId : String
  runId : String
  properties : LogProperties

/-! ## The runner -/

/-- What a test throws: any value, or an object whose `message` is an accessor that throws. -/
inductive TestError where
  | value (v : Val)
  | accessor (thrown : Val)

/-- What `run` rejects with. -/
inductive RunError where
  | error (e : JsError)
  | thrown (v : Val)

/-- `error.message` -/
def TestError.message : TestError → Except RunError Val
  | .value v => (property v "message").mapError .error
  | .accessor thrown => .error (.thrown thrown)

/-- `error.message !== undefined ? error.message : error` -/
def TestError.logged : TestError → Val → Val
  | .value v, .undefined => v
  | _, message => message

/-- `runTest` once the test ended: what is logged, and what is returned or thrown. -/
def runTest (metadata : TestRunMetadata) (testDefinition : TestDefinition) :
    Except TestError Unit → Option LogProperties × Except RunError Bool
  | .ok () => (some ⟨metadata, .testRun, testDefinition.testContainer,
      some testDefinition.testName, .pass, none⟩, .ok true)
  | .error error =>
    match error.message with
    | .ok message => (some ⟨metadata, .testRun, testDefinition.testContainer,
        some testDefinition.testName, .fail, some (error.logged message)⟩, .ok false)
    | .error e => (none, .error e)

structure TestRunner where
  environmentDefinition : String
  releaseId : String
  runId : String

/-- What is the same in a run: its container and metadata, and how each targeted test ends, by
its position. -/
structure ContainerRun where
  testContainerName : String
  definedTests : List TestDefinition
  metadata : TestRunMetadata
  outcomes : ℕ → Except TestError Unit

/-- A run: the tests that were started, those that have not ended, with their positions,
`containerPass`, the properties of the calls of `log` that await the run id, the events that were
tracked, and how the promise of `run` was settled. -/
structure RunState where
  started : List TestDefinition
  running : List (TestDefinition × ℕ)
  containerPass : Bool
  logging : List LogProperties
  tracked : List FunctionalTestEvent
  settled : Option (Except RunError Unit)

inductive RunEvent where
  /-- The test at a position ends. -/
  | ended (position : ℕ)
  /-- The run goes on after the tests. -/
  | awaited
  /-- A call of `log` gets the run id. -/
  | runId (call : ℕ)
  deriving DecidableEq

namespace TestRunner

variable (runner : TestRunner) (run : ContainerRun)

def targeted : List TestDefinition := targetedTests run.definedTests runner.environmentDefinition

def start : RunState where
  started := runner.targeted run
  running := (runner.targeted run).zipIdx
  containerPass := true
  logging := []
  tracked := []
  settled := none

/-- A test ends. The first exception among the tests is that of `run`. -/
def testEnded (s : RunState) (test : TestDefinition × ℕ) : RunState :=
  let logging := s.logging ++ (runTest run.metadata test.1 (run.outcomes test.2)).1.toList
  match (runTest run.metadata test.1 (run.outcomes test.2)).2 with
  | .ok testPass => { s with
      running := s.running.erase test
      logging := logging
      containerPass := s.containerPass && testPass }
  | .error e => { s with
      running := s.running.erase test
      logging := logging
      settled := s.settled.or (some (.error e)) }

/-- The properties of the event of the container. -/
def containerProperties (containerPass : Bool) : LogProperties :=
  ⟨run.metadata, .testContainer, run.testContainerName, none,
    if containerPass then .pass else .fail, none⟩

/-- All tests were awaited, and none was an exception. -/
def awaited (s : RunState) : Option RunState :=
  match s.running, s.settled with
  | [], none => some { s with
      logging := s.logging ++ [containerProperties run s.containerPass]
      settled := some (.ok ()) }
  | _, _ => none

/-- A call of `log` goes on with the run id. -/
def runIdAwaited (s : RunState) (call : ℕ) : Option RunState :=
  s.logging[call]?.map fun properties => { s with
    logging := s.logging.eraseIdx call
    tracked := s.tracked ++
      [⟨runner.environmentDefinition, runner.releaseId, runner.runId, properties⟩] }

def step (s : RunState) : RunEvent → Option RunState
  | .ended position => (s.running.find? fun test => test.2 = position).map (testEnded run s)
  | .awaited => awaited run s
  | .runId call => runner.runIdAwaited s call

/-- `run` after these events. -/
def runs (events : List RunEvent) : Option RunState :=
  Machine.runs (runner.step run) (runner.start run) events

end TestRunner

/-- Nothing more can happen: every test has ended, the promise is settled and every event that
was logged is tracked. -/
def RunState.Complete (s : RunState) : Prop := s.running = [] ∧ s.settled ≠ none ∧ s.logging = []

/-! ## The environment -/

/-- The bits of an environment. -/
def environmentBits (environmentDefinition : String) : ℕ :=
  match environmentDefinition with
  | "canary" => 1
  | "insider" => 2
  | "production" => 4
  | "all" => 7
  | _ => 0

/-- The tests of an environment are those that have one of its bits. -/
theorem bitAnd_getTestEnvironment (environments : ℕ) (environmentDefinition : String) :
    bitAnd environments (getTestEnvironment environmentDefinition) =
      environments &&& environmentBits environmentDefinition := by
  unfold environmentBits
  split
  · rfl
  · rfl
  · rfl
  · rfl
  · rename_i hcanary hinsider hproduction hall
    rw [Nat.and_zero, getTestEnvironment]
    rcases hfind : TestEnvironment.entries.find? fun entry => entry.1 = environmentDefinition with
      _ | ⟨key, value⟩
    · rw [hfind]
      exact Nat.and_zero _
    · rw [hfind]
      obtain rfl : key = environmentDefinition := by simpa using List.find?_some hfind
      have hmem := List.mem_of_find?_eq_some hfind
      clear hfind
      simp only [TestEnvironment.entries, List.mem_cons, Prod.mk.injEq, List.not_mem_nil,
        or_false] at hmem
      -- the numbers are keys too, and stand for names, which have no bits
      rcases hmem with ⟨-, rfl⟩ | ⟨-, rfl⟩ | ⟨-, rfl⟩ | ⟨-, rfl⟩ | ⟨-, rfl⟩ | ⟨-, rfl⟩ |
        ⟨rfl, -⟩ | ⟨rfl, -⟩ | ⟨rfl, -⟩ | ⟨rfl, -⟩
      · rfl
      · rfl
      · rfl
      · rfl
      · rfl
      · exact Nat.and_zero _
      · exact absurd rfl hcanary
      · exact absurd rfl hinsider
      · exact absurd rfl hproduction
      · exact absurd rfl hall

/-! ## What holds after every event -/

/-- The event of properties that were logged. -/
def TestRunner.eventOf (runner : TestRunner) (properties : LogProperties) : FunctionalTestEvent :=
  ⟨runner.environmentDefinition, runner.releaseId, runner.runId, properties⟩

/-- Nothing can be read of what the test threw. -/
def Unreadable (error : TestError) : Prop := ∃ e, error.message = .error e

namespace ContainerRun

variable (run : ContainerRun)

/-- What is logged of a test. -/
def logOf (test : TestDefinition × ℕ) : List LogProperties :=
  (runTest run.metadata test.1 (run.outcomes test.2)).1.toList

/-- What `runTest` ends with. -/
def testPass (test : TestDefinition × ℕ) : Except RunError Bool :=
  (runTest run.metadata test.1 (run.outcomes test.2)).2

/-- What is logged of the container. -/
def containerLog (s : RunState) : List LogProperties :=
  match s.settled with
  | some (.ok ()) => [TestRunner.containerProperties run s.containerPass]
  | _ => []

end ContainerRun

/-- After these tests ended: what was logged, and what has become of the promise. -/
structure Accounts (runner : TestRunner) (run : ContainerRun) (ended : List (TestDefinition × ℕ))
    (s : RunState) : Prop where
  started : s.started = runner.targeted run
  tests : (ended ++ s.running).Perm (runner.targeted run).zipIdx
  logged : ∃ properties, s.tracked = properties.map runner.eventOf ∧
    (properties ++ s.logging).Perm (ended.flatMap run.logOf ++ run.containerLog s)
  containerPass : s.containerPass = true ↔ ∀ test ∈ ended, run.testPass test ≠ .ok false
  settled : match s.settled with
    | none => ∀ test ∈ ended, ∃ testPass, run.testPass test = .ok testPass
    | some (.ok ()) => s.running = [] ∧ ∀ test ∈ ended, ∃ testPass, run.testPass test = .ok testPass
    | some (.error e) => ∃ test ∈ ended, run.testPass test = .error e

section Accounts

variable {runner : TestRunner} {run : ContainerRun} {ended : List (TestDefinition × ℕ)}
  {s s' : RunState} {test : TestDefinition × ℕ}

theorem accounts_start : Accounts runner run [] (runner.start run) where
  started := rfl
  tests := List.Perm.refl _
  logged := ⟨[], rfl, List.Perm.refl _⟩
  containerPass := ⟨fun _ => nofun, fun _ => rfl⟩
  settled := nofun

theorem containerLog_eq_nil (h : s.settled ≠ some (.ok ())) : run.containerLog s = [] := by
  unfold ContainerRun.containerLog
  split
  · rename_i hresolved
    exact absurd hresolved h
  · rfl

/-- While a test is running the promise has not resolved. -/
theorem Accounts.not_resolved (h : Accounts runner run ended s) (hmem : test ∈ s.running) :
    s.settled ≠ some (.ok ()) := by
  intro hresolved
  have hsettled := h.settled
  rw [hresolved] at hsettled
  rw [hsettled.1] at hmem
  cases hmem

/-- The list of tests after one more has ended. -/
theorem Accounts.tests_ended (h : Accounts runner run ended s) (hmem : test ∈ s.running) :
    ((ended ++ [test]) ++ s.running.erase test).Perm (runner.targeted run).zipIdx := by
  rw [List.append_assoc, List.singleton_append]
  exact ((List.perm_cons_erase hmem).symm.append_left ended).trans h.tests

/-- What was logged after one more test has ended. -/
theorem Accounts.logged_ended (h : Accounts runner run ended s) (hmem : test ∈ s.running)
    (htracked : s'.tracked = s.tracked) (hlogging : s'.logging = s.logging ++ run.logOf test)
    (hopen : s'.settled ≠ some (.ok ())) :
    ∃ properties, s'.tracked = properties.map runner.eventOf ∧
      (properties ++ s'.logging).Perm
        ((ended ++ [test]).flatMap run.logOf ++ run.containerLog s') := by
  obtain ⟨properties, hproperties, hlogged⟩ := h.logged
  rw [containerLog_eq_nil (h.not_resolved hmem), List.append_nil] at hlogged
  refine ⟨properties, htracked.trans hproperties, ?_⟩
  rw [containerLog_eq_nil hopen, List.append_nil, hlogging, List.flatMap_append,
    List.flatMap_singleton, ← List.append_assoc]
  exact hlogged.append_right _

/-- A test whose exception cannot be looked at. -/
theorem Accounts.testEnded_error (h : Accounts runner run ended s) (hmem : test ∈ s.running)
    {e : RunError} (hpass : run.testPass test = .error e) :
    Accounts runner run (ended ++ [test]) (TestRunner.testEnded run s test) := by
  have hsettled := h.settled
  -- the first exception settles the promise, and a later one changes nothing
  have hrejected : ∃ e', s.settled.or (some (.error e)) = some (.error e') ∧
      ∃ test' ∈ ended ++ [test], run.testPass test' = .error e' := by
    rcases hsettle : s.settled with _ | e' | ⟨⟩
    · exact ⟨e, rfl, test, List.mem_append_right _ (List.mem_singleton_self _), hpass⟩
    · rw [hsettle] at hsettled
      obtain ⟨test', hmem', herror⟩ := hsettled
      exact ⟨e', rfl, test', List.mem_append_left _ hmem', herror⟩
    · exact absurd hsettle (h.not_resolved hmem)
  obtain ⟨e', hsettle', htest'⟩ := hrejected
  have hs' : TestRunner.testEnded run s test = { s with
      running := s.running.erase test
      logging := s.logging ++ run.logOf test
      settled := some (.error e') } := by
    unfold ContainerRun.testPass at hpass
    unfold TestRunner.testEnded
    rw [hpass, ← hsettle']
    rfl
  rw [hs']
  refine ⟨h.started, h.tests_ended hmem, h.logged_ended hmem rfl rfl nofun, ?_, htest'⟩
  rw [h.containerPass, List.forall_mem_append, List.forall_mem_singleton, hpass]
  simp

/-- Any other test. -/
theorem Accounts.testEnded_ok (h : Accounts runner run ended s) (hmem : test ∈ s.running)
    {testPass : Bool} (hpass : run.testPass test = .ok testPass) :
    Accounts runner run (ended ++ [test]) (TestRunner.testEnded run s test) := by
  have hopen := h.not_resolved hmem
  have hsettled := h.settled
  have hs' : TestRunner.testEnded run s test = { s with
      running := s.running.erase test
      logging := s.logging ++ run.logOf test
      containerPass := s.containerPass && testPass } := by
    unfold ContainerRun.testPass at hpass
    unfold TestRunner.testEnded
    rw [hpass]
    rfl
  rw [hs']
  refine ⟨h.started, h.tests_ended hmem, h.logged_ended hmem rfl rfl hopen, ?_, ?_⟩
  · rw [Bool.and_eq_true, h.containerPass, List.forall_mem_append, List.forall_mem_singleton, hpass]
    cases testPass <;> simp
  · dsimp only
    -- a run that was rejected before stays rejected
    rcases hsettle : s.settled with _ | e' | ⟨⟩
    · rw [hsettle] at hsettled
      exact List.forall_mem_append.mpr ⟨hsettled, List.forall_mem_singleton.mpr ⟨testPass, hpass⟩⟩
    · rw [hsettle] at hsettled
      obtain ⟨test', hmem', herror⟩ := hsettled
      exact ⟨test', List.mem_append_left _ hmem', herror⟩
    · exact absurd hsettle hopen

theorem Accounts.testEnded (h : Accounts runner run ended s) (hmem : test ∈ s.running) :
    Accounts runner run (ended ++ [test]) (TestRunner.testEnded run s test) := by
  rcases hpass : run.testPass test with e | testPass
  · exact h.testEnded_error hmem hpass
  · exact h.testEnded_ok hmem hpass

/-- The run goes on after the tests. -/
theorem Accounts.awaited (h : Accounts runner run ended s)
    (hstep : TestRunner.awaited run s = some s') : Accounts runner run ended s' := by
  unfold TestRunner.awaited at hstep
  split at hstep
  · rename_i hrunning hsettle
    obtain rfl := Option.some.inj hstep
    obtain ⟨properties, htracked, hlogged⟩ := h.logged
    have hsettled := h.settled
    rw [hsettle] at hsettled
    refine ⟨h.started, h.tests, ⟨properties, htracked, ?_⟩, h.containerPass, hrunning, hsettled⟩
    rw [containerLog_eq_nil (by rw [hsettle]; exact nofun), List.append_nil] at hlogged
    rw [← List.append_assoc]
    exact hlogged.append_right _
  · cases hstep

/-- A call of `log` gets the run id. -/
theorem Accounts.runIdAwaited (h : Accounts runner run ended s) {call : ℕ}
    (hstep : runner.runIdAwaited s call = some s') : Accounts runner run ended s' := by
  obtain ⟨logged, hcall, rfl⟩ := Option.map_eq_some_iff.mp hstep
  obtain ⟨hlt, rfl⟩ := List.getElem?_eq_some_iff.mp hcall
  obtain ⟨properties, htracked, hlogged⟩ := h.logged
  refine ⟨h.started, h.tests, ⟨properties ++ [s.logging[call]], ?_, ?_⟩, h.containerPass, h.settled⟩
  · rw [htracked, List.map_append, List.map_singleton]
    rfl
  · rw [List.append_assoc, List.singleton_append]
    exact ((List.getElem_cons_eraseIdx_perm hlt).append_left properties).trans hlogged

/-- **The accounts are right after every run**, whatever ends when. -/
theorem runs_accounts {events : List RunEvent} (hruns : runner.runs run events = some s) :
    ∃ ended, Accounts runner run ended s := by
  refine Machine.runs_invariant (I := fun _ s => ∃ ended, Accounts runner run ended s)
    ⟨[], accounts_start⟩ ?_ hruns
  rintro _ before (position | _ | call) after ⟨ended, h⟩ hstep
  · obtain ⟨test, hfind, rfl⟩ := Option.map_eq_some_iff.mp hstep
    exact ⟨_, h.testEnded (List.mem_of_find?_eq_some hfind)⟩
  · exact ⟨ended, h.awaited hstep⟩
  · exact ⟨ended, h.runIdAwaited hstep⟩

/-! ## Runs end -/

/-- How much can still happen. -/
def RunState.open (s : RunState) : ℕ :=
  2 * s.running.length + s.logging.length + if s.settled.isNone then 2 else 0

theorem length_logOf_le (test : TestDefinition × ℕ) : (run.logOf test).length ≤ 1 := by
  unfold ContainerRun.logOf
  cases (runTest run.metadata test.1 (run.outcomes test.2)).1 <;> simp

theorem open_testEnded_lt (hmem : test ∈ s.running) :
    (TestRunner.testEnded run s test).open < s.open := by
  have hlog := @length_logOf_le run test
  have hrunning := List.length_erase_of_mem hmem
  have hpos := List.length_pos_of_mem hmem
  unfold ContainerRun.logOf at hlog
  unfold TestRunner.testEnded RunState.open
  split
  · simp only [List.length_append]
    omega
  · simp only [List.length_append]
    rcases s.settled with _ | r
    · simp
      omega
    · simp
      omega

theorem open_step_lt {event : RunEvent} (hstep : runner.step run s event = some s') :
    s'.open < s.open := by
  rcases event with position | _ | call
  · obtain ⟨test, hfind, rfl⟩ := Option.map_eq_some_iff.mp hstep
    exact open_testEnded_lt (List.mem_of_find?_eq_some hfind)
  · rw [TestRunner.step, TestRunner.awaited] at hstep
    split at hstep
    · rename_i hrunning hsettle
      obtain rfl := Option.some.inj hstep
      simp [RunState.open, hsettle]
      omega
    · cases hstep
  · obtain ⟨logged, hcall, rfl⟩ := Option.map_eq_some_iff.mp hstep
    obtain ⟨hlt, rfl⟩ := List.getElem?_eq_some_iff.mp hcall
    simp [RunState.open, List.length_eraseIdx, hlt]
    omega

/-- While a run is not complete something can happen. -/
theorem exists_step (hopen : ¬ s.Complete) :
    ∃ event s', runner.step run s event = some s' := by
  rcases hrunning : s.running with _ | ⟨test, running⟩
  · rcases hlogging : s.logging with _ | ⟨logged, logging⟩
    · rcases hsettle : s.settled with _ | r
      · refine ⟨.awaited, Option.isSome_iff_exists.mp ?_⟩
        rw [TestRunner.step, TestRunner.awaited, hrunning, hsettle]
        rfl
      · exact absurd ⟨hrunning, by rw [hsettle]; exact nofun, hlogging⟩ hopen
    · refine ⟨.runId 0, Option.isSome_iff_exists.mp ?_⟩
      rw [TestRunner.step, TestRunner.runIdAwaited, hlogging]
      rfl
  · refine ⟨.ended test.2, Option.isSome_iff_exists.mp ?_⟩
    rw [TestRunner.step, hrunning, List.find?_cons_of_pos (by simp)]
    rfl

end Accounts

/-! ## The verdict -/

/-- What `run` promises of a complete run. -/
structure Verdict (runner : TestRunner) (run : ContainerRun) (s : RunState) : Prop where
  resolves : s.settled = some (.ok ())
  /-- The targeted tests are started, each once, and no others. -/
  started : s.started = run.definedTests.filter fun test =>
    test.environments &&& environmentBits runner.environmentDefinition ≠ 0
  /-- There is one event for each targeted test, with its result. -/
  tests : ((s.tracked.filter fun e => e.properties.logSource = .testRun).map fun e =>
      (e.properties.testContainer, e.properties.testName, e.properties.result)).Perm
    (s.started.zipIdx.map fun test => (test.1.testContainer, some test.1.testName,
      if (run.outcomes test.2).toOption = some () then .pass else .fail))
  /-- There is one event for the container, and it says whether all of them passed. -/
  container : ∃ e, (s.tracked.filter fun e => e.properties.logSource = .testContainer) = [e] ∧
    e.properties.testContainer = run.testContainerName ∧
    (e.properties.result = .pass ↔ ∀ i < s.started.length, run.outcomes i = .ok ())

section Verdict

variable {runner : TestRunner} {run : ContainerRun} {s : RunState} {events : List RunEvent}

theorem unreadable_value_iff {v : Val} : Unreadable (.value v) ↔ v = .undefined ∨ v = .null := by
  constructor
  · rintro ⟨e, he⟩
    by_contra hv
    obtain ⟨hundefined, hnull⟩ := not_or.mp hv
    rw [TestError.message, Cosmos.property_of_ne hundefined hnull] at he
    cases he
  · rintro (rfl | rfl)
    · exact ⟨_, rfl⟩
    · exact ⟨_, rfl⟩

/-- The result of a test. -/
def ContainerRun.resultOf (run : ContainerRun) (test : TestDefinition × ℕ) : TestRunResult :=
  if (run.outcomes test.2).toOption = some () then .pass else .fail

/-- An exception of `runTest` is one that reading a message threw. -/
theorem testPass_error_iff {test : TestDefinition × ℕ} : (∃ e, run.testPass test = .error e) ↔
    ∃ error, run.outcomes test.2 = .error error ∧ Unreadable error := by
  unfold ContainerRun.testPass
  rcases run.outcomes test.2 with error | ⟨⟩
  · rw [runTest]
    rcases hmessage : error.message with e | message
    · exact ⟨fun _ => ⟨error, rfl, e, hmessage⟩, fun _ => ⟨e, rfl⟩⟩
    · refine ⟨nofun, ?_⟩
      rintro ⟨error', herror, e, he⟩
      obtain rfl := Except.error.inj herror
      rw [hmessage] at he
      cases he
  · exact ⟨nofun, nofun⟩

/-- A test whose message could be read is logged once, with its result. -/
theorem logOf_of_testPass {test : TestDefinition × ℕ} {testPass : Bool}
    (h : run.testPass test = .ok testPass) :
    (testPass = true ↔ run.outcomes test.2 = .ok ()) ∧
      ∃ properties, run.logOf test = [properties] ∧ properties.logSource = .testRun ∧
        (properties.testContainer, properties.testName, properties.result) =
          (test.1.testContainer, some test.1.testName, run.resultOf test) := by
  unfold ContainerRun.testPass at h
  unfold ContainerRun.logOf ContainerRun.resultOf
  rcases houtcome : run.outcomes test.2 with error | ⟨⟩
  · rw [houtcome, runTest] at h
    rw [runTest]
    rcases hmessage : error.message with e | message
    · rw [hmessage] at h
      cases h
    · rw [hmessage] at h
      obtain rfl := Except.ok.inj h
      exact ⟨⟨nofun, nofun⟩, _, rfl, rfl, rfl⟩
  · rw [houtcome] at h
    obtain rfl := Except.ok.inj h
    exact ⟨⟨fun _ => rfl, fun _ => rfl⟩, _, rfl, rfl, rfl⟩

/-- What is logged of tests whose messages could be read. -/
theorem flatMap_logOf {ended : List (TestDefinition × ℕ)}
    (h : ∀ test ∈ ended, ∃ testPass, run.testPass test = .ok testPass) :
    (∀ properties ∈ ended.flatMap run.logOf, properties.logSource = .testRun) ∧
      (ended.flatMap run.logOf).map (fun properties =>
          (properties.testContainer, properties.testName, properties.result)) =
        ended.map fun test => (test.1.testContainer, some test.1.testName, run.resultOf test) := by
  induction ended with
  | nil => exact ⟨nofun, rfl⟩
  | cons test ended ih =>
    obtain ⟨⟨testPass, hpass⟩, hrest⟩ := List.forall_mem_cons.mp h
    obtain ⟨-, properties, hlog, hsource, hproperties⟩ := logOf_of_testPass hpass
    obtain ⟨hsources, hmap⟩ := ih hrest
    rw [List.flatMap_cons, hlog, List.singleton_append, List.map_cons, List.map_cons, hmap,
      hproperties]
    exact ⟨List.forall_mem_cons.mpr ⟨hsource, hsources⟩, rfl⟩

theorem forall_mem_zipIdx {tests : List TestDefinition} {P : ℕ → Prop} :
    (∀ test ∈ tests.zipIdx, P test.2) ↔ ∀ i < tests.length, P i := by
  constructor
  · intro h i hi
    exact h (tests[i], i) (List.mk_mem_zipIdx_iff_getElem?.mpr (List.getElem?_eq_getElem hi))
  · intro h test hmem
    exact h test.2 (by simpa using List.snd_lt_of_mem_zipIdx hmem)

/-- The tests whose messages could be read are those for which `runTest` did not throw. -/
theorem testPass_ok_iff {tests : List TestDefinition} {ended : List (TestDefinition × ℕ)}
    (htests : ended.Perm tests.zipIdx) :
    (∀ test ∈ ended, ∃ testPass, run.testPass test = .ok testPass) ↔
      ∀ i < tests.length, ∀ error, run.outcomes i = .error error → ¬ Unreadable error := by
  rw [← @forall_mem_zipIdx tests fun i =>
    ∀ error, run.outcomes i = .error error → ¬ Unreadable error]
  refine Iff.trans ?_ (forall_congr' fun test => imp_congr_left htests.mem_iff)
  refine forall₂_congr fun test _ => ?_
  constructor
  · rintro ⟨testPass, hpass⟩ error houtcome hunreadable
    obtain ⟨e, he⟩ := testPass_error_iff.mpr ⟨error, houtcome, hunreadable⟩
    rw [hpass] at he
    cases he
  · intro hreadable
    rcases hpass : run.testPass test with e | testPass
    · obtain ⟨error, houtcome, hunreadable⟩ := testPass_error_iff.mp ⟨e, hpass⟩
      exact absurd hunreadable (hreadable error houtcome)
    · exact ⟨testPass, rfl⟩

section Ended

variable {ended : List (TestDefinition × ℕ)}

/-- Only a message that could not be read makes a run reject. -/
theorem Accounts.resolves (h : Accounts runner run ended s) (hsettled : s.settled ≠ none)
    (hended : ∀ test ∈ ended, ∃ testPass, run.testPass test = .ok testPass) :
    s.settled = some (.ok ()) := by
  have hsettle := h.settled
  rcases hr : s.settled with _ | e | ⟨⟩
  · exact absurd hr hsettled
  · rw [hr] at hsettle
    obtain ⟨test, hmem, herror⟩ := hsettle
    obtain ⟨testPass, hok⟩ := hended test hmem
    rw [herror] at hok
    cases hok
  · rfl

theorem Accounts.started_targeted (h : Accounts runner run ended s) :
    s.started = run.definedTests.filter fun test =>
      test.environments &&& environmentBits runner.environmentDefinition ≠ 0 := by
  rw [h.started, TestRunner.targeted, targetedTests]
  exact List.filter_congr fun test _ => by rw [bitAnd_getTestEnvironment]

/-- When all tests have ended, the container has passed if each of them did. -/
theorem Accounts.containerPass_iff (h : Accounts runner run ended s)
    (htests : ended.Perm (runner.targeted run).zipIdx)
    (hended : ∀ test ∈ ended, ∃ testPass, run.testPass test = .ok testPass) :
    s.containerPass = true ↔ ∀ i < (runner.targeted run).length, run.outcomes i = .ok () := by
  rw [h.containerPass, ← forall_mem_zipIdx]
  refine Iff.trans ?_ (forall_congr' fun test => imp_congr_left htests.mem_iff)
  refine forall₂_congr fun test hmem => ?_
  obtain ⟨testPass, hok⟩ := hended test hmem
  rw [hok, ← (logOf_of_testPass hok).1]
  cases testPass <;> simp

/-- Of tests whose messages could all be read the verdict is right. -/
theorem Accounts.verdict (h : Accounts runner run ended s) (hcomplete : s.Complete)
    (hended : ∀ test ∈ ended, ∃ testPass, run.testPass test = .ok testPass) :
    Verdict runner run s := by
  obtain ⟨hrunning, hsettled, hlogging⟩ := hcomplete
  have htests := h.tests
  rw [hrunning, List.append_nil] at htests
  have hresolves := h.resolves hsettled hended
  -- nothing waits for the run id, so all that was logged was tracked
  obtain ⟨properties, htracked, hlogged⟩ := h.logged
  have hcontainer : run.containerLog s = [TestRunner.containerProperties run s.containerPass] := by
    rw [ContainerRun.containerLog, hresolves]
  rw [hlogging, List.append_nil, hcontainer] at hlogged
  obtain ⟨hsources, hmap⟩ := flatMap_logOf hended
  refine ⟨hresolves, h.started_targeted, ?_, ?_⟩
  · have hruns : (properties.filter fun p => p.logSource = .testRun).Perm
        (ended.flatMap run.logOf) := by
      refine (hlogged.filter _).trans (List.Perm.of_eq ?_)
      rw [List.filter_append, List.filter_eq_self.mpr fun p hp => decide_eq_true (hsources p hp)]
      exact List.append_nil _
    rw [htracked, List.filter_map, List.map_map, h.started]
    exact (hruns.map _).trans ((List.Perm.of_eq hmap).trans (htests.map _))
  · have hcontainers : (properties.filter fun p => p.logSource = .testContainer).Perm
        [TestRunner.containerProperties run s.containerPass] := by
      refine (hlogged.filter _).trans (List.Perm.of_eq ?_)
      rw [List.filter_append, List.filter_eq_nil_iff.mpr fun p hp => by rw [hsources p hp]; decide]
      rfl
    refine ⟨runner.eventOf (TestRunner.containerProperties run s.containerPass), ?_, rfl, ?_⟩
    · rw [htracked, List.filter_map]
      exact congrArg (List.map runner.eventOf) (List.perm_singleton.mp hcontainers)
    · rw [h.started, ← h.containerPass_iff htests hended]
      cases s.containerPass
      · exact ⟨nofun, nofun⟩
      · exact ⟨fun _ => rfl, fun _ => rfl⟩

end Ended

/-- **The verdict of a container** is as promised exactly if of nothing that a targeted test
throws the message cannot be read. Every run ends, after no more than two events for each test
and two more. -/
theorem run_verdict_iff (runner : TestRunner) (run : ContainerRun) :
    (∀ events s, runner.runs run events = some s →
      events.length ≤ 2 * (runner.targeted run).length + 2 ∧
        (s.Complete ∨ ∃ event s', runner.step run s event = some s')) ∧
    ∀ events s, runner.runs run events = some s → s.Complete →
      (Verdict runner run s ↔
        ∀ i < (runner.targeted run).length, ∀ error, run.outcomes i = .error error →
          ¬ Unreadable error) := by
  constructor
  · -- every event leaves less open than there was, and this much is open at the start
    intro events s hruns
    have hlength := Machine.length_runs_le (fun before event after h => open_step_lt h) hruns
    have hstart : (runner.start run).open = 2 * (runner.targeted run).length + 2 := by
      simp [RunState.open, TestRunner.start]
    refine ⟨by omega, ?_⟩
    by_cases hcomplete : s.Complete
    · exact Or.inl hcomplete
    · exact Or.inr (exists_step hcomplete)
  · intro events s hruns hcomplete
    obtain ⟨ended, h⟩ := runs_accounts hruns
    have htests := h.tests
    rw [hcomplete.1, List.append_nil] at htests
    rw [← testPass_ok_iff htests]
    constructor
    · intro hverdict
      have hsettled := h.settled
      rw [hverdict.resolves] at hsettled
      exact hsettled.2
    · exact fun hended => h.verdict hcomplete hended

/-! A container with a test for every environment and one for the canary environment. -/

def canaryRunner : TestRunner := ⟨"canary", "release-1", "run-1"⟩

def sampleRun (thrown : Val) : ContainerRun where
  testContainerName := "TestGroup"
  definedTests := [⟨"TestGroup", "testA", 7, ⟨0⟩⟩, ⟨"TestGroup", "testB", 1, ⟨1⟩⟩,
    ⟨"TestGroup", "testC", 4, ⟨2⟩⟩]
  metadata := ⟨"scenario", none⟩
  outcomes := fun i => if i = 0 then .error (.value thrown) else .ok ()

/-- A run is complete if nothing is left of its lists. -/
theorem complete_of_map {last : RunState} (hruns : runner.runs run events = some last)
    (hmap : (runner.runs run events).map (fun s =>
      (s.running.length, s.logging.length, s.settled.isSome)) = some (0, 0, true)) :
    last.Complete := by
  rw [hruns, Option.map_some] at hmap
  obtain ⟨hrunning, hlogging, hsettled⟩ := by simpa using hmap
  exact ⟨hrunning, Option.isSome_iff_ne_none.mp hsettled, hlogging⟩

/-- The first test throws a text, after the second one has returned. -/
theorem run_verdict_iff_sample :
    ∃ s, canaryRunner.runs (sampleRun (.str "failed"))
        [.ended 1, .runId 0, .ended 0, .awaited, .runId 1, .runId 0] = some s ∧
      Verdict canaryRunner (sampleRun (.str "failed")) s := by
  obtain ⟨s, hruns⟩ : ∃ s, canaryRunner.runs (sampleRun (.str "failed"))
      [.ended 1, .runId 0, .ended 0, .awaited, .runId 1, .runId 0] = some s := ⟨_, rfl⟩
  have hcomplete : s.Complete := complete_of_map hruns (by rfl)
  refine ⟨s, hruns, ((run_verdict_iff _ _).2 _ s hruns hcomplete).mpr ?_⟩
  intro i _ error herror hunreadable
  unfold sampleRun at herror
  dsimp only at herror
  split at herror
  · obtain rfl := Except.error.inj herror
    rcases unreadable_value_iff.mp hunreadable with h | h
    · cases h
    · cases h
  · cases herror

/-- A test that throws `undefined` has no event, and nor has its container. -/
theorem run_verdict_undefined :
    ∃ s, canaryRunner.runs (sampleRun .undefined) [.ended 1, .ended 0, .runId 0] = some s ∧
      s.Complete ∧ s.tracked.map (fun e => e.properties.testName) = [some "testB"] ∧
      ¬ Verdict canaryRunner (sampleRun .undefined) s := by
  obtain ⟨s, hruns⟩ : ∃ s, canaryRunner.runs (sampleRun .undefined)
      [.ended 1, .ended 0, .runId 0] = some s := ⟨_, rfl⟩
  have htracked : (canaryRunner.runs (sampleRun .undefined) [.ended 1, .ended 0, .runId 0]).map
      (fun s => s.tracked.map fun e => e.properties.testName) = some [some "testB"] := by rfl
  rw [hruns] at htracked
  refine ⟨s, hruns, complete_of_map hruns (by rfl), Option.some.inj htracked, fun hverdict => ?_⟩
  obtain ⟨e, hcontainer, -⟩ := hverdict.container
  have hnone : (canaryRunner.runs (sampleRun .undefined) [.ended 1, .ended 0, .runId 0]).map
      (fun s => (s.tracked.filter fun e => e.properties.logSource = .testContainer).length) =
        some 0 := by rfl
  rw [hruns, Option.map_some, hcontainer] at hnone
  cases hnone

end Verdict

end WebInsights.E2eTestRunner
