/-
The queries behind the health report of a release, `health-check-queries.ts`.

The release id is put into the texts as it is, between quotes. It may come from the url of
the request. The lexer that reads the texts is Application Insights': its escapes are a
parameter.
-/
import WebInsights.Kql.Lexer

set_option autoImplicit false

namespace WebInsights.StorageApi

open Kql

/-! ## `healthCheckQueryFactories` -/

/-- The texts around the two places of the release id. -/
def testResultsTemplate : Template where
  before := "let lastRunId = toscalar(
            customEvents
            | where name == \"FunctionalTest\"
                and customDimensions.testContainer == \"FinalizerTestGroup\"
                and customDimensions.releaseId == "
  between := "
            | top 1 by timestamp desc nulls last
            | project tostring(customDimensions.runId)
        );
        customEvents
        | where name == \"FunctionalTest\"
            and customDimensions.logSource == \"TestRun\"
            and customDimensions.releaseId == "
  after := "
            and customDimensions.runId == lastRunId
        | project timestamp,
            environment = customDimensions.environment,
            releaseId = customDimensions.releaseId,
            runId = customDimensions.runId,
            logSource = customDimensions.logSource,
            testContainer = customDimensions.testContainer,
            testName = customDimensions.testName,
            scenarioName = customDimensions.scenarioName,
            scanId = customDimensions.scanId,
            result = customDimensions.result,
            error = customDimensions.error
        | order by timestamp asc nulls last"

def createTestResultsQueryForRelease (releaseId : String) : String :=
  testResultsTemplate.fill releaseId

def availabilityResultsTemplate : Template where
  before := "let lastRunId = toscalar(
            availabilityResults
            | where customDimensions.releaseId == "
  between := "
            | top 1 by timestamp desc nulls last
            | project tostring(customDimensions.runId)
        );
        availabilityResults
        | where customDimensions.releaseId == "
  after := "
            and customDimensions.runId == lastRunId
        | project timestamp,
            releaseId = customDimensions.releaseId,
            runId = customDimensions.runId,
            scenarioName = customDimensions.testScenarioName,
            success = (success == 1)"

def createAvailabilityResultsQueryForRelease (releaseId : String) : String :=
  availabilityResultsTemplate.fill releaseId

/-- The queries `processReleaseHealthRequest` executes: for the release in the url, if there
is one, or else for the release of the service. -/
def processReleaseHealthRequest (targetId releaseId : Option String) : List String :=
  -- a missing id is put into the texts as `undefined`
  let releaseId := ((targetId <|> releaseId).getD "undefined")
  [createTestResultsQueryForRelease releaseId, createAvailabilityResultsQueryForRelease releaseId]

/-! ## Injection -/

set_option maxRecDepth 4000 in
theorem sound_testResultsTemplate : testResultsTemplate.Sound where
  before := Template.clean_of rfl (by decide +kernel) (by decide +kernel)
  between := Template.clean_of rfl (by decide +kernel) (by decide +kernel)
  after := Template.clean_of rfl (by decide +kernel) (by decide +kernel)
  gap := Template.gap_of rfl (by decide)

set_option maxRecDepth 4000 in
theorem sound_availabilityResultsTemplate : availabilityResultsTemplate.Sound where
  before := Template.clean_of rfl (by decide +kernel) (by decide +kernel)
  between := Template.clean_of rfl (by decide +kernel) (by decide +kernel)
  after := Template.clean_of rfl (by decide +kernel) (by decide +kernel)
  gap := Template.gap_of rfl (by decide)

/-- **Both queries keep their tokens exactly when the release id is plain**, whatever the
escapes of the language are: the release id has neither a quote nor a backslash. -/
theorem releaseQueries_injectionFree (escapes : Escapes) (releaseId : String) :
    ((∃ tokens, testResultsTemplate.tokens escapes releaseId = some tokens ∧
        lex escapes (createTestResultsQueryForRelease releaseId).toList = some tokens) ∧
      ∃ tokens, availabilityResultsTemplate.tokens escapes releaseId = some tokens ∧
        lex escapes (createAvailabilityResultsQueryForRelease releaseId).toList = some tokens) ↔
    ∀ c ∈ releaseId.toList, c ≠ '"' ∧ c ≠ '\\' := by
  have htest := sound_testResultsTemplate.keeps_iff escapes releaseId
  have havailability := sound_availabilityResultsTemplate.keeps_iff escapes releaseId
  constructor
  · exact fun h => htest.mp h.1
  · exact fun h => ⟨htest.mpr h, havailability.mpr h⟩

/-- The literal of a release with a number, in the language with the escapes of one
character. -/
theorem releaseQueries_injectionFree_sample :
    ∃ tokens, availabilityResultsTemplate.tokens Escapes.simple "1.0.42" = some tokens ∧
      lex Escapes.simple (createAvailabilityResultsQueryForRelease "1.0.42").toList =
        some tokens :=
  have hplain : Plain "1.0.42".toList := by decide
  ((releaseQueries_injectionFree Escapes.simple "1.0.42").mpr hplain).2

/-- The target of a request for `health/release/1%22%20or%20%221%22%20==%20%221`. -/
def injectedTarget : String := "1\" or \"1\" == \"1"

/-- What such a target puts in the place of one literal: a condition that always holds. -/
def injectedTokens : List Token :=
  [.literal ['1'], .word ['o', 'r'], .literal ['1'], .symbol '=', .symbol '=', .literal ['1']]

/-- The target of a request adds tokens to the query. -/
theorem createTestResultsQuery_injected :
    ∃ query ∈ processReleaseHealthRequest (some injectedTarget) none,
      query = createTestResultsQueryForRelease injectedTarget ∧
      ∃ before between after, lex Escapes.simple testResultsTemplate.before.toList = some before ∧
        lex Escapes.simple testResultsTemplate.between.toList = some between ∧
        lex Escapes.simple testResultsTemplate.after.toList = some after ∧
        lex Escapes.simple query.toList =
          some (before ++ injectedTokens ++ between ++ injectedTokens ++ after) ∧
        testResultsTemplate.tokens Escapes.simple injectedTarget ≠
          lex Escapes.simple query.toList := by
  obtain ⟨before, hbefore⟩ := sound_testResultsTemplate.before.lex Escapes.simple
  obtain ⟨between, hbetween⟩ := sound_testResultsTemplate.between.lex Escapes.simple
  obtain ⟨after, hafter⟩ := sound_testResultsTemplate.after.lex Escapes.simple
  -- the quotes of the target close the literal and open the next
  have hvalue : LexState.run Escapes.simple ⟨[], .literal []⟩ injectedTarget.toList =
      ⟨[.literal ['1'], .word ['o', 'r'], .literal ['1'], .symbol '=', .symbol '='],
        .literal ['1']⟩ := by decide +kernel
  have hlex := Template.lex_fill hbefore hbetween hafter hvalue
  refine ⟨_, List.mem_cons_self, rfl, before, between, after, hbefore, hbetween, hafter, ?_, ?_⟩
  · refine hlex.trans ?_
    simp [injectedTokens]
  · intro htokens
    -- a target that keeps the tokens would be plain
    have hkeeps : testResultsTemplate.Keeps Escapes.simple injectedTarget :=
      ⟨_, htokens.trans hlex, hlex⟩
    have hplain := (sound_testResultsTemplate.keeps_iff Escapes.simple injectedTarget).mp hkeeps
    exact absurd hplain (by decide)

end WebInsights.StorageApi
