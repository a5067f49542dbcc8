/-
One availability verdict per scenario.

What a driver tracks, and whether the runner gets to its finalizer, is told from the answers
they are given. The `catch` of a driver handles a set up that throws, and an answer without
success or body ends the scenario with a verdict; what the submission of a scan itself throws
is not caught. So there is exactly one verdict where every answer is one that is handled
(`Handled`), and none where one is not.
-/
import WebInsights.E2eTestRunner.TestScenarios
import WebInsights.Effect.Ends

set_option autoImplicit false

namespace WebInsights.E2eTestRunner

open Effect Js
open Cosmos (JsError StatusCode client.isSuccessStatusCode)

abbrev Answers : Type := List (Sigma Operation.Result)

/-! ## What the answers tell -/

/-- The availability events, with whether they say success. -/
def tracked (answers : Answers) : List (String × Bool) :=
  answers.filterMap fun x => match x with
    | ⟨.trackAvailability name success _, _⟩ => some (name, success)
    | _ => none

/-- The answers to the scans that were submitted. -/
def submissions (answers : Answers) : List Response :=
  answers.filterMap fun x => match x with
    | ⟨.postWebsiteScan _, .ok response⟩ => some response
    | _ => none

/-- A scan was submitted: the answer says success and has a body. -/
def Accepted (response : Response) : Prop :=
  client.isSuccessStatusCode response.statusCode = true ∧ response.body ≠ .undefined

/-- The set up and every scan submission succeeded. -/
structure Succeeded (testScenario : TestScenarioDefinition) (answers : Answers) : Prop where
  setUp : ∃ testContextData,
    (⟨.setUpTestScenario testScenario, .ok testContextData⟩ : Sigma Operation.Result) ∈ answers
  submitted : (submissions answers).length = testScenario.scansToRun.length
  accepted : ∀ response ∈ submissions answers, Accepted response

/-- An answer that is handled: what the set up throws can be written, the submission of a scan
does not throw, and an answer of success has no `null` for its body. -/
def Handled : Sigma Operation.Result → Prop
  | ⟨.setUpTestScenario _, .error e⟩ => ∃ error, e.json = .ok error
  | ⟨.webInsightsClientProvider, .error _⟩ => False
  | ⟨.postWebsiteScan _, .error _⟩ => False
  | ⟨.postWebsiteScan _, .ok response⟩ =>
    client.isSuccessStatusCode response.statusCode = true → response.body ≠ .null
  | _ => True

def AllHandled (answers : Answers) : Prop := ∀ x ∈ answers, Handled x

@[simp] theorem tracked_append (first rest : Answers) :
    tracked (first ++ rest) = tracked first ++ tracked rest := List.filterMap_append

@[simp] theorem submissions_append (first rest : Answers) :
    submissions (first ++ rest) = submissions first ++ submissions rest := List.filterMap_append

@[simp] theorem allHandled_append {first rest : Answers} :
    AllHandled (first ++ rest) ↔ AllHandled first ∧ AllHandled rest := List.forall_mem_append

@[simp] theorem allHandled_cons {x : Sigma Operation.Result} {rest : Answers} :
    AllHandled (x :: rest) ↔ Handled x ∧ AllHandled rest := List.forall_mem_cons

@[simp] theorem allHandled_nil : AllHandled [] := List.forall_mem_nil Handled

/-- An answer that neither is a verdict nor belongs to a set up or a submission. -/
def Silent : Sigma Operation.Result → Prop
  | ⟨.setUpTestScenario _, _⟩ => False
  | ⟨.webInsightsClientProvider, _⟩ => False
  | ⟨.postWebsiteScan _, _⟩ => False
  | ⟨.trackAvailability _ _ _, _⟩ => False
  | _ => True

/-- What answers that tell nothing tell. -/
theorem silent {answers : Answers} (h : ∀ x ∈ answers, Silent x) :
    tracked answers = [] ∧ submissions answers = [] ∧ AllHandled answers := by
  refine ⟨List.filterMap_eq_nil_iff.mpr ?_, List.filterMap_eq_nil_iff.mpr ?_, ?_⟩
  · rintro ⟨op, r⟩ hx
    have hsilent := h _ hx
    cases op with
    | trackAvailability => exact hsilent.elim
    | _ => rfl
  · rintro ⟨op, r⟩ hx
    have hsilent := h _ hx
    cases op with
    | postWebsiteScan => exact hsilent.elim
    | _ => rfl
  · rintro ⟨op, r⟩ hx
    have hsilent := h _ hx
    cases op with
    | setUpTestScenario => exact hsilent.elim
    | webInsightsClientProvider => exact hsilent.elim
    | postWebsiteScan => exact hsilent.elim
    | _ => trivial

/-! ## The parts of a scenario -/

namespace TestScenarioDriver

variable {driver : TestScenarioDriver} {answers : Answers}

theorem ends_createTestContainer {testGroupType : String} {out : Except Thrown String}
    (h : (createTestContainer testGroupType).Ends answers out) :
    (∃ container, out = .ok container) ∧ ∀ x ∈ answers, Silent x := by
  obtain ⟨_, _, rfl, rfl, rfl⟩ := h
  exact ⟨⟨testGroupType, rfl⟩, fun x hx => List.mem_singleton.mp hx ▸ trivial⟩

/-- The tests of a phase complete and tell nothing. -/
theorem ends_runTestPhase {testContainerClasses : Option (List String)}
    {testContextData : TestContextData} {out : Except Thrown Unit}
    (h : (driver.runTestPhase testContainerClasses testContextData).Ends answers out) :
    out = .ok () ∧ ∀ x ∈ answers, Silent x := by
  rcases testContainerClasses with _ | _ | ⟨testGroupType, testGroupTypes⟩
  · obtain ⟨rfl, rfl⟩ := h
    exact ⟨rfl, List.forall_mem_nil Silent⟩
  · obtain ⟨rfl, rfl⟩ := h
    exact ⟨rfl, List.forall_mem_nil Silent⟩
  -- the containers are created together, and none of them throws
  have hcontainers : ∀ p ∈ (testGroupType :: testGroupTypes).map createTestContainer,
      ∀ answers out, p.Ends answers out → (∃ container, out = .ok container) ∧
        ∀ x ∈ answers, Silent x := by
    intro p hp answers out h
    obtain ⟨testGroupType, -, rfl⟩ := List.mem_map.mp hp
    exact ends_createTestContainer h
  rcases Program.Ends.of_bind h with ⟨first, rest, containers, rfl, hall, h⟩ | ⟨e, rfl, hall⟩
  · obtain ⟨_, _, rfl, rfl, rfl⟩ := h
    refine ⟨rfl, fun x hx => ?_⟩
    rcases List.mem_append.mp hx with hx | hx
    · exact (Program.Ends.all_ok hcontainers hall).2 x hx
    · exact List.mem_singleton.mp hx ▸ trivial
  · obtain ⟨⟨_, hok⟩, -⟩ := Program.Ends.all_ok hcontainers hall
    cases hok

/-- A failure is tracked once. -/
theorem ends_logTestFailure {testContextData : Option TestContextData} {errorMessage : String}
    {telemetryProperties : Fields} {out : Except Thrown Unit}
    (h : (driver.logTestFailure testContextData errorMessage telemetryProperties).Ends
      answers out) :
    out = .ok () ∧ tracked answers = [("workerAvailabilityTest", false)] ∧
      submissions answers = [] ∧ AllHandled answers ∧
      ∀ x ∈ answers, ∀ testScenario, x.1 ≠ .setUpTestScenario testScenario := by
  unfold logTestFailure at h
  generalize Fields.spread (driver.getBaseTelemetryProperties testContextData) telemetryProperties =
    properties at h
  obtain ⟨_, _, rfl, _, _, rfl, rfl, rfl⟩ := h
  exact ⟨rfl, rfl, rfl, by simp [Handled], by simp⟩

/-- How the submission of a scan ends. -/
inductive SubmitEnds (answers : Answers) : Except Thrown (Bool × TestContextData) → Prop
  | thrown {e : Thrown} (hhandled : ¬ AllHandled answers) (htracked : tracked answers = []) :
      SubmitEnds answers (.error e)
  | accepted {response : Response} {testContextData : TestContextData}
      (hhandled : AllHandled answers) (htracked : tracked answers = [])
      (hsubmitted : submissions answers = [response]) (haccepted : Accepted response) :
      SubmitEnds answers (.ok (true, testContextData))
  | refused {response : Response} {testContextData : TestContextData}
      (hhandled : AllHandled answers)
      (htracked : tracked answers = [("workerAvailabilityTest", false)])
      (hsubmitted : response ∈ submissions answers) (hrefused : ¬ Accepted response) :
      SubmitEnds answers (.ok (false, testContextData))

theorem ends_trySubmitScan {scanType : ScanType} {testContextData : TestContextData}
    {out : Except Thrown (Bool × TestContextData)}
    (h : (driver.trySubmitScan scanType testContextData).Ends answers out) :
    SubmitEnds answers out := by
  obtain ⟨currentDate, _, rfl, provider, _, rfl, h⟩ := h
  rcases provider with e | _
  · -- there is no client
    obtain ⟨rfl, rfl⟩ := h
    exact .thrown (by simp [Handled]) rfl
  obtain ⟨answer, _, rfl, h⟩ := h
  rcases answer with e | response
  · -- the request was given up
    obtain ⟨rfl, rfl⟩ := h
    exact .thrown (by simp [Handled]) rfl
  change (ite _ _ _ : Steps _).Ends _ _ at h
  by_cases hrefused : client.isSuccessStatusCode response.statusCode = false ∨
      response.body = .undefined
  · -- the verdict of a scan that was not submitted
    rw [if_pos hrefused] at h
    rcases Program.Ends.of_bind h with ⟨log, rest, _, rfl, hlog, rfl, rfl⟩ | ⟨e, rfl, hlog⟩
    swap
    · cases (ends_logTestFailure hlog).1
    obtain ⟨-, htracked, -, hhandled, -⟩ := ends_logTestFailure hlog
    rw [List.append_nil]
    refine .refused ?_ htracked List.mem_cons_self ?_
    · simp only [allHandled_cons, Handled, hhandled, and_true, true_and]
      rintro hsuccess hnull
      rcases hrefused with hstatus | hbody
      · rw [hsuccess] at hstatus
        cases hstatus
      · rw [hnull] at hbody
        cases hbody
    · rintro ⟨hsuccess, hbody⟩
      rcases hrefused with hstatus | hundefined
      · rw [hsuccess] at hstatus
        cases hstatus
      · exact hbody hundefined
  · rw [if_neg hrefused] at h
    have hsuccess : client.isSuccessStatusCode response.statusCode = true := by
      simpa using fun hstatus => hrefused (Or.inl hstatus)
    have hbody : response.body ≠ .undefined := fun hundefined => hrefused (Or.inr hundefined)
    by_cases hnull : response.body = .null
    · -- reading the id of `null` throws
      rw [hnull] at h
      obtain ⟨rfl, rfl⟩ := h
      exact .thrown (by simp [Handled, hsuccess, hnull]) rfl
    · have hid : Cosmos.property response.body "id" = .ok (response.body.get "id") :=
        Cosmos.property_of_ne hbody hnull
      rw [hid] at h
      obtain ⟨rfl, rfl⟩ := h
      exact .accepted (by simp [Handled, hnull]) rfl rfl ⟨hsuccess, hbody⟩

/-- How the loop over the scans ends. -/
inductive ScansEnd (scansToRun : List ScanType) (answers : Answers) :
    Except Thrown (Option TestContextData) → Prop
  | thrown {e : Thrown} (hhandled : ¬ AllHandled answers) (htracked : tracked answers = []) :
      ScansEnd scansToRun answers (.error e)
  | accepted {testContextData : TestContextData} (hhandled : AllHandled answers)
      (htracked : tracked answers = [])
      (hsubmitted : (submissions answers).length = scansToRun.length)
      (haccepted : ∀ response ∈ submissions answers, Accepted response) :
      ScansEnd scansToRun answers (.ok (some testContextData))
  | refused {response : Response} (hhandled : AllHandled answers)
      (htracked : tracked answers = [("workerAvailabilityTest", false)])
      (hsubmitted : response ∈ submissions answers) (hrefused : ¬ Accepted response) :
      ScansEnd scansToRun answers (.ok none)

/-- **The loop**: by induction on the scans that are left. -/
theorem ends_trySubmitScans {scansToRun : List ScanType} {testContextData : TestContextData}
    {out : Except Thrown (Option TestContextData)}
    (h : (driver.trySubmitScans scansToRun testContextData).Ends answers out) :
    ScansEnd scansToRun answers out := by
  induction scansToRun generalizing testContextData answers with
  | nil =>
    obtain ⟨rfl, rfl⟩ := h
    exact .accepted allHandled_nil rfl rfl (List.forall_mem_nil Accepted)
  | cons scanType scansToRun ih =>
    rcases Program.Ends.of_bind h with
      ⟨first, rest, ⟨submitted, testContextData'⟩, rfl, hfirst, h⟩ | ⟨e, rfl, hfirst⟩
    · -- the first scan is submitted, or ends the loop
      have hsubmit := ends_trySubmitScan hfirst
      cases hsubmit with
      | accepted hhandled htracked hsubmitted haccepted =>
        -- what the others end with is what the loop ends with
        rcases ih h with
          ⟨hnot, hnone⟩ | ⟨hhandled', htracked', hlength, haccepted'⟩ |
          ⟨hhandled', htracked', hmem, hrefused⟩
        · exact .thrown (fun hall => hnot (allHandled_append.mp hall).2)
            (by rw [tracked_append, htracked, hnone]; rfl)
        · refine .accepted (allHandled_append.mpr ⟨hhandled, hhandled'⟩) ?_ ?_ ?_
          · rw [tracked_append, htracked, htracked']
            rfl
          · rw [submissions_append, hsubmitted, List.length_append, hlength, List.length_cons,
              List.length_nil, List.length_cons]
            omega
          · intro response hresponse
            rw [submissions_append, hsubmitted] at hresponse
            rcases List.mem_append.mp hresponse with hmem | hmem
            · rw [List.mem_singleton.mp hmem]
              exact haccepted
            · exact haccepted' response hmem
        · refine .refused (allHandled_append.mpr ⟨hhandled, hhandled'⟩) ?_ ?_ hrefused
          · rw [tracked_append, htracked, htracked']
            rfl
          · rw [submissions_append]
            exact List.mem_append_right _ hmem
      | refused hhandled htracked hsubmitted hrefused =>
        obtain ⟨rfl, rfl⟩ := h
        rw [List.append_nil]
        exact .refused hhandled htracked hsubmitted hrefused
    · have hsubmit := ends_trySubmitScan hfirst
      cases hsubmit with
      | thrown hhandled htracked => exact .thrown hhandled htracked

/-- How the set up ends. -/
inductive SetUpEnds (testScenario : TestScenarioDefinition) (answers : Answers) :
    Except Thrown (Option TestContextData) → Prop
  | thrown {e : Thrown} (hhandled : ¬ AllHandled answers) (htracked : tracked answers = []) :
      SetUpEnds testScenario answers (.error e)
  | setUp {testContextData : TestContextData}
      (hanswers : answers = [⟨.setUpTestScenario testScenario, .ok testContextData⟩]) :
      SetUpEnds testScenario answers (.ok (some testContextData))
  | failed (hhandled : AllHandled answers)
      (htracked : tracked answers = [("workerAvailabilityTest", false)])
      (hnot : ∀ testContextData, (⟨.setUpTestScenario testScenario, .ok testContextData⟩ :
        Sigma Operation.Result) ∉ answers) : SetUpEnds testScenario answers (.ok none)

theorem ends_trySetUpTestScenario {out : Except Thrown (Option TestContextData)}
    (h : driver.trySetUpTestScenario.Ends answers out) :
    SetUpEnds driver.testScenarioDefinition answers out := by
  obtain ⟨answer, _, rfl, h⟩ := h
  rcases answer with e | testContextData
  · -- the error is written out as JSON, which can fail itself
    change (Program.ofExcept (e.json.mapError Thrown.ofError) >>= _ : Steps _).Ends _ _ at h
    rcases hjson : e.json with e' | error
    · rw [hjson] at h
      obtain ⟨rfl, rfl⟩ := h
      exact .thrown (by simp [Handled, hjson]) rfl
    · rw [hjson] at h
      replace h : (driver.logTestFailure none "Failed to set up test scenario." [("error", error)]
        >>= fun _ => pure none : Steps (Option TestContextData)).Ends _ _ := h
      rcases Program.Ends.of_bind h with ⟨log, rest, _, rfl, hlog, rfl, rfl⟩ | ⟨e, rfl, hlog⟩
      swap
      · cases (ends_logTestFailure hlog).1
      obtain ⟨-, htracked, -, hhandled, hnot⟩ := ends_logTestFailure hlog
      rw [List.append_nil]
      -- nothing was set up, and the verdict says so
      refine .failed (by simp [Handled, hjson, hhandled]) htracked fun testContextData hmem => ?_
      rcases List.mem_cons.mp hmem with heq | hmem
      · simp at heq
      · exact hnot _ hmem _ rfl
  · obtain ⟨rfl, rfl⟩ := h
    exact .setUp rfl

/-! ## The verdict of a scenario -/

/-- How a scenario ends: with one verdict, or with an error and none. -/
inductive VerdictEnds (testScenario : TestScenarioDefinition) (answers : Answers) :
    Except Thrown Unit → Prop
  | verdict {success : Bool} (hhandled : AllHandled answers)
      (htracked : tracked answers = [("workerAvailabilityTest", success)])
      (hsuccess : success = true ↔ Succeeded testScenario answers) :
      VerdictEnds testScenario answers (.ok ())
  | thrown {e : Thrown} (hhandled : ¬ AllHandled answers) (htracked : tracked answers = []) :
      VerdictEnds testScenario answers (.error e)

/-- The verdict of a scenario that was set up, by its scans. -/
theorem VerdictEnds.of_scans {testScenario : TestScenarioDefinition}
    {testContextData : TestContextData} {before scans rest : Answers}
    (hbefore : ∀ x ∈ before, Silent x)
    {out : Except Thrown (Option TestContextData)} {out' : Except Thrown Unit}
    (hscans : ScansEnd testScenario.scansToRun scans out)
    (hthrown : ∀ e, out = .error e → out' = .error e ∧ rest = [])
    (hrefused : out = .ok none → out' = .ok () ∧ rest = [])
    (haccepted : ∀ testContextData, out = .ok (some testContextData) →
      out' = .ok () ∧ tracked rest = [("workerAvailabilityTest", true)] ∧
        submissions rest = [] ∧ AllHandled rest) :
    VerdictEnds testScenario
      (⟨.setUpTestScenario testScenario, .ok testContextData⟩ :: (before ++ (scans ++ rest)))
      out' := by
  obtain ⟨htrackedBefore, hsubmittedBefore, hhandledBefore⟩ := silent hbefore
  -- what all the answers tell is told by those to the scans and after them
  have htracked : tracked (⟨.setUpTestScenario testScenario, .ok testContextData⟩ ::
      (before ++ (scans ++ rest))) = tracked scans ++ tracked rest := by
    show tracked (before ++ (scans ++ rest)) = _
    rw [tracked_append, tracked_append, htrackedBefore, List.nil_append]
  have hsubmitted : submissions (⟨.setUpTestScenario testScenario, .ok testContextData⟩ ::
      (before ++ (scans ++ rest))) = submissions scans ++ submissions rest := by
    show submissions (before ++ (scans ++ rest)) = _
    rw [submissions_append, submissions_append, hsubmittedBefore, List.nil_append]
  have hhandled : AllHandled (⟨.setUpTestScenario testScenario, .ok testContextData⟩ ::
      (before ++ (scans ++ rest))) ↔ AllHandled scans ∧ AllHandled rest := by
    rw [allHandled_cons, allHandled_append, allHandled_append]
    exact ⟨fun h => h.2.2, fun h => ⟨trivial, hhandledBefore, h⟩⟩
  cases hscans with
  | thrown hnot hnone =>
    obtain ⟨rfl, rfl⟩ := hthrown _ rfl
    refine .thrown (fun h => hnot (hhandled.mp h).1) ?_
    rw [htracked, hnone]
    rfl
  | @accepted testContextData' hall hnone hlength haccepted' =>
    obtain ⟨rfl, hone, hnoScan, hrest⟩ := haccepted testContextData' rfl
    have hverdict : tracked _ = [("workerAvailabilityTest", true)] :=
      htracked.trans (by rw [hnone, hone, List.nil_append])
    refine .verdict (hhandled.mpr ⟨hall, hrest⟩) hverdict ⟨fun _ => ?_, fun _ => rfl⟩
    refine ⟨⟨testContextData, List.mem_cons_self⟩, ?_, ?_⟩
    · rw [hsubmitted, hnoScan, List.append_nil, hlength]
    · rw [hsubmitted, hnoScan, List.append_nil]
      exact haccepted'
  | @refused response hall hone hmem hnot =>
    obtain ⟨rfl, rfl⟩ := hrefused rfl
    have hverdict : tracked _ = [("workerAvailabilityTest", false)] :=
      htracked.trans (by rw [hone]; exact List.append_nil _)
    refine .verdict (hhandled.mpr ⟨hall, allHandled_nil⟩) hverdict ⟨nofun, fun hsucceeded => ?_⟩
    have hmem' : response ∈ submissions (⟨.setUpTestScenario testScenario,
        .ok testContextData⟩ :: (before ++ (scans ++ []))) := by
      rw [hsubmitted]
      exact List.mem_append_left _ hmem
    exact absurd (hsucceeded.accepted response hmem') hnot

/-- **A scenario ends with one verdict where every answer is handled**, and with an error and
no verdict where one is not. -/
theorem ends_executeTestScenario {out : Except Thrown Unit}
    (h : driver.executeTestScenario.Ends answers out) :
    VerdictEnds driver.testScenarioDefinition answers out := by
  rcases Program.Ends.of_bind h with ⟨first, rest, setUp, rfl, hsetUp, hrest⟩ | ⟨e, rfl, hsetUp⟩
  swap
  · cases ends_trySetUpTestScenario hsetUp with
    | thrown hhandled htracked => exact .thrown hhandled htracked
  clear h
  cases ends_trySetUpTestScenario hsetUp with
  | failed hhandled htracked hnot =>
    obtain ⟨rfl, rfl⟩ := hrest
    rw [List.append_nil]
    refine .verdict hhandled htracked ⟨nofun, fun hsucceeded => ?_⟩
    obtain ⟨testContextData, hmem⟩ := hsucceeded.setUp
    exact absurd hmem (hnot testContextData)
  | @setUp testContextData hanswers =>
    clear hsetUp
    subst hanswers
    rcases Program.Ends.of_bind hrest with ⟨phase, rest, _, rfl, hphase, hscans⟩ | ⟨e, rfl, hphase⟩
    swap
    · cases (ends_runTestPhase hphase).1
    clear hrest
    obtain ⟨-, hsilent⟩ := ends_runTestPhase hphase
    rcases Program.Ends.of_bind hscans with
      ⟨scans, rest, result, rfl, hloop, hlast⟩ | ⟨e, rfl, hloop⟩
    swap
    · -- the error of a submission is not caught
      have hends : VerdictEnds driver.testScenarioDefinition
          (⟨.setUpTestScenario driver.testScenarioDefinition, .ok testContextData⟩ ::
            (phase ++ (rest ++ []))) (.error e) := by
        refine .of_scans hsilent (ends_trySubmitScans hloop) ?_ nofun nofun
        intro e' he
        cases he
        exact ⟨rfl, rfl⟩
      rwa [List.append_nil] at hends
    clear hscans
    refine VerdictEnds.of_scans hsilent (ends_trySubmitScans hloop) nofun ?_ ?_
    · intro hnone
      cases hnone
      obtain ⟨rfl, rfl⟩ := hlast
      exact ⟨rfl, rfl⟩
    · intro testContextData' hsome
      cases hsome
      rcases Program.Ends.of_bind hlast with
        ⟨phase', rest, _, rfl, hphase', hlog⟩ | ⟨e, rfl, hphase'⟩
      · obtain ⟨-, hsilent'⟩ := ends_runTestPhase hphase'
        obtain ⟨hnone, hnoScan, hhandled⟩ := silent hsilent'
        obtain ⟨_, _, rfl, _, _, rfl, rfl, rfl⟩ := hlog
        refine ⟨rfl, ?_, ?_, ?_⟩
        · rw [tracked_append, hnone]
          rfl
        · rw [submissions_append, hnoScan]
          rfl
        · simp [hhandled, Handled]
      · cases (ends_runTestPhase hphase').1

/-! ## The run of all scenarios -/

/-- An operation other than the run of the finalizer. -/
def NotFinalizer : Operation → Prop
  | .run _ _ => False
  | _ => True

/-- The runner got to `finalizeTestRun`, which runs the finalizer. -/
def Finalized (answers : Answers) : Prop := ∃ x ∈ answers, ¬ NotFinalizer x.1

/-- What a program does other than run the finalizer. -/
abbrev Scenario {α : Type} (p : Steps α) : Prop :=
  p.Guarantees (fun _ _ => True) NotFinalizer fun _ => True

theorem scenario_logTestFailure (testContextData : Option TestContextData) (errorMessage : String)
    (telemetryProperties : Fields) :
    Scenario (driver.logTestFailure testContextData errorMessage telemetryProperties) :=
  ⟨trivial, fun _ _ => ⟨trivial, fun _ _ => trivial⟩⟩

theorem scenario_ofExcept {α : Type} (x : Except Thrown α) : Scenario (Program.ofExcept x) :=
  Program.guarantees_ofExcept fun _ _ => trivial

theorem scenario_trySetUpTestScenario : Scenario driver.trySetUpTestScenario := by
  refine Program.Guarantees.tryCatch ⟨trivial, fun answer _ => ?_⟩ fun e => ?_
  · exact (scenario_ofExcept answer).bind fun _ _ => trivial
  · refine (scenario_ofExcept _).bind fun error _ => ?_
    exact (scenario_logTestFailure none _ _).bind fun _ _ => trivial

theorem scenario_runTestPhase (testContainerClasses : Option (List String))
    (testContextData : TestContextData) :
    Scenario (driver.runTestPhase testContainerClasses testContextData) := by
  rcases testContainerClasses with _ | _ | ⟨testGroupType, testGroupTypes⟩
  · trivial
  · trivial
  · refine (Program.guarantees_all (Q := fun _ => True) fun p hp => ?_).bind fun _ _ =>
      ⟨trivial, fun _ _ => trivial⟩
    obtain ⟨testGroupType, -, rfl⟩ := List.mem_map.mp hp
    exact ⟨trivial, fun _ _ => trivial⟩

theorem scenario_trySubmitScan (scanType : ScanType) (testContextData : TestContextData) :
    Scenario (driver.trySubmitScan scanType testContextData) := by
  refine Program.Guarantees.bind (Q := fun _ => True) ?_ fun response _ => ?_
  · refine ⟨trivial, fun currentDate _ => ⟨trivial, fun provider _ => ?_⟩⟩
    refine (scenario_ofExcept provider).bind fun _ _ => ⟨trivial, fun answer _ => ?_⟩
    exact scenario_ofExcept answer
  · split_ifs
    · exact (scenario_logTestFailure _ _ _).bind fun _ _ => trivial
    · exact (scenario_ofExcept _).bind fun _ _ => trivial

theorem scenario_trySubmitScans (scansToRun : List ScanType) (testContextData : TestContextData) :
    Scenario (driver.trySubmitScans scansToRun testContextData) := by
  induction scansToRun generalizing testContextData with
  | nil => trivial
  | cons scanType scansToRun ih =>
    refine (scenario_trySubmitScan scanType testContextData).bind fun result _ => ?_
    obtain ⟨submitted, testContextData'⟩ := result
    cases submitted with
    | false => trivial
    | true => exact ih testContextData'

theorem scenario_executeTestScenario : Scenario driver.executeTestScenario := by
  refine scenario_trySetUpTestScenario.bind fun setUp _ => ?_
  rcases setUp with _ | testContextData
  · trivial
  refine (scenario_runTestPhase _ testContextData).bind fun _ _ => ?_
  refine (scenario_trySubmitScans _ testContextData).bind fun result _ => ?_
  rcases result with _ | testContextData'
  · trivial
  refine (scenario_runTestPhase _ testContextData').bind fun _ _ => ?_
  exact ⟨trivial, fun _ _ => ⟨trivial, fun _ _ => trivial⟩⟩

end TestScenarioDriver

namespace E2ETestRunner

open TestScenarioDriver

variable {runner : E2ETestRunner} {answers : Answers}

/-- How a run ends. -/
inductive RunEnds (answers : Answers) : Except Thrown Unit → Prop
  | finalized (hhandled : AllHandled answers) (hfinalized : Finalized answers) :
      RunEnds answers (.ok ())
  | thrown {e : Thrown} (hhandled : ¬ AllHandled answers) (hnot : ¬ Finalized answers) :
      RunEnds answers (.error e)

theorem ends_createTestScenarioDriver {testScenario : TestScenarioDefinition}
    {out : Except Thrown TestScenarioDriver}
    (h : (runner.createTestScenarioDriver testScenario).Ends answers out) :
    (∃ driver, out = .ok driver) ∧ ∀ x ∈ answers, Silent x ∧ NotFinalizer x.1 := by
  obtain ⟨_, _, rfl, rfl, rfl⟩ := h
  exact ⟨⟨_, rfl⟩, fun x hx => List.mem_singleton.mp hx ▸ ⟨trivial, trivial⟩⟩

/-- The drivers of all scenarios are made, and nothing is tested for it. -/
theorem ends_createTestScenarioDrivers {out : Except Thrown (List TestScenarioDriver)}
    (h : (Program.all (runner.testScenarios.map runner.createTestScenarioDriver)).Ends
      answers out) :
    (∃ drivers, out = .ok drivers) ∧ ∀ x ∈ answers, Silent x ∧ NotFinalizer x.1 := by
  refine h.all_ok fun p hp answers out hends => ?_
  obtain ⟨testScenario, -, rfl⟩ := List.mem_map.mp hp
  exact ends_createTestScenarioDriver hends

/-- The scenarios all resolve exactly if their answers are handled, and do not run the
finalizer. -/
theorem ends_executeTestScenarios {drivers : List TestScenarioDriver}
    {out : Except Thrown (List Unit)}
    (h : (Program.all (drivers.map executeTestScenario)).Ends answers out) :
    ((∃ results, out = .ok results) ↔ AllHandled answers) ∧ ∀ x ∈ answers, NotFinalizer x.1 := by
  constructor
  · refine h.all_ok_iff fun p hp answers out hends => ?_
    obtain ⟨driver, -, rfl⟩ := List.mem_map.mp hp
    cases ends_executeTestScenario hends with
    | verdict hhandled => exact ⟨fun _ => hhandled, fun _ => ⟨_, rfl⟩⟩
    | thrown hnot =>
      constructor
      · rintro ⟨result, hresult⟩
        cases hresult
      · exact fun hhandled => absurd hhandled hnot
  · refine h.performed (Program.guarantees_all (Q := fun _ => True) fun p hp => ?_)
    obtain ⟨driver, -, rfl⟩ := List.mem_map.mp hp
    exact scenario_executeTestScenario

/-- **The runner gets to its finalizer where every answer is handled**, and only there. -/
theorem ends_run {out : Except Thrown Unit} (h : runner.run.Ends answers out) :
    RunEnds answers out := by
  obtain ⟨_, started, rfl, hstarted⟩ := h
  replace hstarted : (Program.all (runner.testScenarios.map runner.createTestScenarioDriver) >>=
      fun testScenarioDrivers => do
        let _ ← Program.all (testScenarioDrivers.map executeTestScenario)
        finalizeTestRun
        Program.perform (Operation.logInfo "E2E test run completed" []) : Steps Unit).Ends started
      out := hstarted
  rcases Program.Ends.of_bind hstarted with
    ⟨created, rest, drivers, rfl, hall, hrest⟩ | ⟨e, rfl, hall⟩
  swap
  · obtain ⟨⟨_, hok⟩, -⟩ := ends_createTestScenarioDrivers hall
    cases hok
  obtain ⟨-, hcreated⟩ := ends_createTestScenarioDrivers hall
  have hhandled : AllHandled created := (silent fun x hx => (hcreated x hx).1).2.2
  rcases Program.Ends.of_bind hrest with
    ⟨scenarios, rest, _, rfl, hscenarios, hlast⟩ | ⟨e, rfl, hscenarios⟩
  · -- all scenarios resolved, so the finalizer is run last
    have hresolved := (ends_executeTestScenarios hscenarios).1.mp ⟨_, rfl⟩
    obtain ⟨_, _, rfl, _, _, rfl, _, _, rfl, rfl, rfl⟩ := hlast
    refine .finalized ?_ ?_
    · simp only [allHandled_cons, allHandled_append, allHandled_nil, Handled, hhandled, hresolved,
        and_true]
    · exact ⟨⟨.run "FinalizerTestGroup" "Finalizer", ()⟩, by simp, id⟩
  · -- a scenario rejected, and with it the run, before the finalizer
    obtain ⟨hresolves, hnotFinalizer⟩ := ends_executeTestScenarios hscenarios
    refine .thrown ?_ ?_
    · intro hall
      rw [allHandled_cons, allHandled_append] at hall
      obtain ⟨results, hresults⟩ := hresolves.mpr hall.2.2
      cases hresults
    · rintro ⟨x, hx, hfinalizer⟩
      rcases List.mem_cons.mp hx with rfl | hx
      · exact hfinalizer trivial
      · rcases List.mem_append.mp hx with hx | hx
        · exact hfinalizer (hcreated x hx).2
        · exact hfinalizer (hnotFinalizer x hx)

end E2ETestRunner

open TestScenarioDriver E2ETestRunner

/-- One verdict: the event, which says success exactly when all went well. -/
def OneVerdict (testScenario : TestScenarioDefinition) (answers : Answers) : Prop :=
  ∃ success, tracked answers = [("workerAvailabilityTest", success)] ∧
    (success = true ↔ Succeeded testScenario answers)

/-- A scenario resolves with one verdict exactly when every answer is handled. -/
theorem TestScenarioDriver.VerdictEnds.iff {testScenario : TestScenarioDefinition}
    {answers : Answers} {out : Except Thrown Unit} (h : VerdictEnds testScenario answers out) :
    out = .ok () ∧ OneVerdict testScenario answers ↔ AllHandled answers := by
  cases h with
  | @verdict success hhandled htracked hsuccess =>
    exact ⟨fun _ => hhandled, fun _ => ⟨rfl, success, htracked, hsuccess⟩⟩
  | thrown hhandled =>
    constructor
    · rintro ⟨hok, -⟩
      cases hok
    · exact fun hall => absurd hall hhandled

/-- **One availability verdict per scenario, exactly where every answer is handled**, whatever
answers the world gives.

* A scenario alone resolves with its verdict exactly if every answer it is given is handled.
* The runner gets to its finalizer exactly if every answer it is given is handled.
* Among any scenarios that are run together, in every interleaving, a scenario that has ended
  resolved with its verdict exactly if every answer it was given is handled.
-/
theorem executeTestScenario_verdict {σ : Type} (h : Handler Operation Operation.Result σ) (s : σ) :
    (∀ driver : TestScenarioDriver,
      (driver.executeTestScenario.run h s).1 = .ok () ∧
          OneVerdict driver.testScenarioDefinition (driver.executeTestScenario.answers h s) ↔
        AllHandled (driver.executeTestScenario.answers h s)) ∧
    (∀ runner : E2ETestRunner,
      Finalized (runner.run.answers h s) ↔ AllHandled (runner.run.answers h s)) ∧
    (∀ (ι : Type) [DecidableEq ι] (drivers : ι → TestScenarioDriver) q,
      Pool.Runs h (fun _ _ _ => True)
        (Pool.start (fun i => (drivers i).executeTestScenario) s) q →
      ∀ i out, (q.threads i).prog = Program.ofExcept out →
        (out = .ok () ∧ OneVerdict (drivers i).testScenarioDefinition (q.threads i).seen ↔
          AllHandled (q.threads i).seen)) := by
  refine ⟨fun driver => ?_, fun runner => ?_, fun ι _ drivers q hrun i out hend => ?_⟩
  · exact (ends_executeTestScenario (Program.ends_run h _ s)).iff
  · have hends := ends_run (Program.ends_run h runner.run s)
    generalize (runner.run.run h s).1 = out at hends
    cases hends with
    | finalized hhandled hfinalized => exact ⟨fun _ => hhandled, fun _ => hfinalized⟩
    | thrown hhandled hnot =>
      exact ⟨fun h => absurd h hnot, fun h => absurd h hhandled⟩
  · exact (ends_executeTestScenario (hrun.ends hend)).iff

/-! ### One scan, submitted and given up -/

/-- A world in which everything succeeds but the submission of scans, which is answered by
these in turn, and given up by the client when there is none left. -/
def sampleHandle : Handler Operation Operation.Result (List Response)
  | .setUpTestScenario _, s => (.ok ⟨.str "website-1", []⟩, s)
  | .getCurrentDate, s => (⟨0, 30, 12, 6, 9⟩, s)
  | .webInsightsClientProvider, s => (.ok (), s)
  | .postWebsiteScan _, [] => (.error (.ofError (.error "read ECONNRESET")), [])
  | .postWebsiteScan _, response :: s => (.ok response, s)
  | .testRunIdProvider, s => ("run-1", s)
  | .createTestContainer _, s => ((), s)
  | .runAll _ _ _, s => ((), s)
  | .run _ _, s => ((), s)
  | .logInfo _ _, s => ((), s)
  | .logError _ _, s => ((), s)
  | .trackAvailability _ _ _, s => ((), s)

def createdResponse : Response := ⟨.code 201, .obj [("id", .str "scan-1")], .undefined, none⟩

/-- The scenario of the repository. -/
def simpleScan : TestScenarioDefinition where
  readableName := "SimpleScan "
  websiteDataBlobName := "test-website.json"
  testPhases :=
    ⟨some ["GetWebsiteTestGroup", "PostWebsiteTestGroup", "PostWebsiteScanTestGroup"],
      some ["GetWebsiteScanTestGroup"]⟩
  scansToRun := [.a11y]

def simpleDriver : TestScenarioDriver := ⟨simpleScan, "run-1", .str "1.0"⟩

def simpleRunner : E2ETestRunner := ⟨[simpleScan], .str "1.0"⟩

/-- Its scan is submitted: the scenario has its verdict and the run its finalizer. -/
theorem executeTestScenario_verdict_sample :
    OneVerdict simpleScan
        (simpleDriver.executeTestScenario.answers sampleHandle [createdResponse]) ∧
      Finalized (simpleRunner.run.answers sampleHandle [createdResponse]) := by
  obtain ⟨hdriver, hrunner, -⟩ := executeTestScenario_verdict sampleHandle [createdResponse]
  refine ⟨((hdriver simpleDriver).mpr ?_).2, (hrunner simpleRunner).mpr ?_⟩
  · have hends := ends_executeTestScenario
      (Program.ends_run sampleHandle simpleDriver.executeTestScenario [createdResponse])
    have hout : (simpleDriver.executeTestScenario.run sampleHandle [createdResponse]).1 = .ok () :=
      rfl
    rw [hout] at hends
    cases hends with
    | verdict hhandled => exact hhandled
  · have hends := ends_run (Program.ends_run sampleHandle simpleRunner.run [createdResponse])
    have hout : (simpleRunner.run.run sampleHandle [createdResponse]).1 = .ok () := rfl
    rw [hout] at hends
    cases hends with
    | finalized hhandled => exact hhandled

/-- Its scan is given up by the client: there is no verdict, and the run does not get to its
finalizer. -/
theorem executeTestScenario_givenUp :
    (simpleDriver.executeTestScenario.run sampleHandle []).1 =
        .error (.ofError (.error "read ECONNRESET")) ∧
      tracked (simpleDriver.executeTestScenario.answers sampleHandle []) = [] ∧
      ¬ Finalized (simpleRunner.run.answers sampleHandle []) := by
  refine ⟨rfl, rfl, ?_⟩
  have hends := ends_run (Program.ends_run sampleHandle simpleRunner.run [])
  have hout : (simpleRunner.run.run sampleHandle []).1 =
      .error (.ofError (.error "read ECONNRESET")) := rfl
  rw [hout] at hends
  cases hends with
  | thrown _ hnot => exact hnot

end WebInsights.E2eTestRunner
