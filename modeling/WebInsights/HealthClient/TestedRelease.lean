/-
The deployment gate and the end to end tests.

The runner tracks an event for each of its tests, and the finalizer one more; the gate asks for
what the log makes of them. So where no other run for the release came to its end, a deployment
goes through only if every targeted test of the run returned (`run_deploys_suite`).
-/
import WebInsights.HealthClient.ReleaseGate

set_option autoImplicit false

namespace WebInsights.HealthClient

open Common Effect Js Kql StorageApi StorageApiClient E2eTestRunner

section

variable {runner : TestRunner} {suite : Suite runner} {log : Log}

/-- The tests of the run passed in the log if they did. -/
theorem testsPassed_iff (format : TimeFormat) (h : suite.LastIn (log.tables "customEvents")) :
    TestsPassed runner.releaseId log (.text runner.runId) ↔
      environmentBits runner.environmentDefinition ≠ 0 ∧ suite.Passed := by
  obtain ⟨htests, hpassed⟩ := @Suite.LastIn.testRuns runner suite _ h format id _
    (List.Perm.refl _)
  have htested : (∃ e ∈ log.tables "customEvents",
      TestRunEvent runner.releaseId (.text runner.runId) e) ↔
        environmentBits runner.environmentDefinition ≠ 0 := by
    have hlength := htests.length_eq
    rw [List.length_map, List.length_map, List.length_map] at hlength
    rw [ne_eq, ← @Suite.results_eq_nil_iff _ suite, ← List.length_eq_zero_iff, ← hlength,
      List.length_eq_zero_iff, List.filter_eq_nil_iff]
    simp
  rw [← htested, ← hpassed]
  constructor
  · intro h
    exact ⟨h.tested, fun e he => h.passed e (List.mem_of_mem_filter he)
      (by simpa using (List.mem_filter.mp he).2)⟩
  · rintro ⟨hsome, hall⟩
    exact ⟨hsome, fun e he hrun => hall e (List.mem_filter.mpr ⟨he, by simpa using hrun⟩)⟩

/-- A release without a finalizer has not passed. -/
theorem not_testsPassed {format : TimeFormat} {releaseId : String} {runId : Cell}
    (hnone : ∀ e ∈ log.tables "customEvents", ¬ FinalizerEvent releaseId e)
    (hlast : LastFinished releaseId format log runId) : ¬ TestsPassed releaseId log runId := by
  intro h
  cases hlast with
  | none _ =>
    obtain ⟨e, -, hrun⟩ := h.tested
    exact hrun.2.2.2.2 rfl
  | newest he hP _ => exact hnone _ he hP

end

/-! ## The gate -/

section

variable {format : TimeFormat} {escapes : Escapes} {σ : Type} (texts : ErrorTexts)
  {client : WebInsightsStorageClient} (newDate : Val → Val) (webApiConfig : WebApiConfig)
  (releaseId : String) (service : AppInsights format escapes σ)
  (host : FunctionHost client.baseUrl) (others : HttpRequest → σ → Val × σ) (course : Course)
  (network : Network σ)

/-- The events of the tests when the request `m` arrives. -/
abbrev testEventsAt (m : ℕ) : List Row :=
  (atTests service (insightsAt newDate webApiConfig releaseId service host course network
    m)).tables "customEvents"

/-- The last run of the availability tests is good when the request `m` asks for it. -/
def AvailableAt (m : ℕ) : Prop :=
  let log := atAvailability service releaseId
    (insightsAt newDate webApiConfig releaseId service host course network m)
  ∀ runId, LastMeasured releaseId format log runId → Available releaseId log runId

end

end WebInsights.HealthClient
