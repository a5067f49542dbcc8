/-
What the queries behind the health report ask for.

Each of the two texts is read as the query it is meant to be exactly when the release id put
into it is plain. The first asks for the tests of one run: the one whose finalizer was logged
last. The second asks for the availability results of one run, too, but of the one whose
availability result was logged last. So the tests are never those of a run that has not come to
its end, and never of two runs (`testResults_gives`), while the two tables may be about
different runs.
-/
import Mathlib.Data.List.Perm.Basic
import WebInsights.Kql.Parser
import WebInsights.StorageApi.HealthQueries

set_option autoImplicit false

namespace WebInsights.StorageApi

open Kql

/-! ## The queries -/

/-- `customDimensions.key` -/
def dimension (key : String) : Expr := .path "customDimensions" key

/-- `name = customDimensions.key` -/
def projected (name key : String) : Projection := ⟨some name, dimension key⟩

/-- `toscalar(.. | top 1 by timestamp desc nulls last | project tostring(customDimensions.runId))`
of the rows that meet some conditions. -/
def lastRunIdOf (table : String) (conditions : List Condition) : Pipeline :=
  ⟨table, [.filter conditions, .top ['1'] "timestamp",
    .project [⟨none, .tostring (dimension "runId")⟩]]⟩

/-- What is asked of a test. -/
def testItems : List Projection :=
  [⟨none, .column "timestamp"⟩, projected "environment" "environment",
    projected "releaseId" "releaseId", projected "runId" "runId",
    projected "logSource" "logSource", projected "testContainer" "testContainer",
    projected "testName" "testName", projected "scenarioName" "scenarioName",
    projected "scanId" "scanId", projected "result" "result", projected "error" "error"]

/-- What is asked of an availability result. -/
def availabilityItems : List Projection :=
  [⟨none, .column "timestamp"⟩, projected "releaseId" "releaseId", projected "runId" "runId",
    projected "scenarioName" "testScenarioName",
    ⟨some "success", .equals (.column "success") (.number ['1'])⟩]

def testResultsQuery (releaseId : String) : Query where
  name := "lastRunId"
  scalar := lastRunIdOf "customEvents" [⟨.column "name", .literal "FunctionalTest"⟩,
    ⟨dimension "testContainer", .literal "FinalizerTestGroup"⟩,
    ⟨dimension "releaseId", .literal releaseId⟩]
  body := ⟨"customEvents", [
    .filter [⟨.column "name", .literal "FunctionalTest"⟩,
      ⟨dimension "logSource", .literal "TestRun"⟩,
      ⟨dimension "releaseId", .literal releaseId⟩,
      ⟨dimension "runId", .column "lastRunId"⟩],
    .project testItems,
    .order "timestamp"]⟩

def availabilityResultsQuery (releaseId : String) : Query where
  name := "lastRunId"
  scalar := lastRunIdOf "availabilityResults" [⟨dimension "releaseId", .literal releaseId⟩]
  body := ⟨"availabilityResults", [
    .filter [⟨dimension "releaseId", .literal releaseId⟩,
      ⟨dimension "runId", .column "lastRunId"⟩],
    .project availabilityItems]⟩

/-! ## The texts -/

/-- The tokens of a piece, of its characters. -/
theorem lex_piece {piece : String} (hclean : Template.Clean piece) {text : List Char}
    (h : piece = String.ofList text) {ts : List Token} (hlex : lex Escapes.simple text = some ts)
    (escapes : Escapes) : lex escapes piece.toList = some ts := by
  rw [lex_escapes hclean.noBackslash escapes Escapes.simple, h, String.toList_ofList, hlex]

/-- A text with the pieces of a query around a value is read as that query exactly if the value
is plain. -/
theorem read_fill_iff {t : Template} (ht : t.Sound) {escapes : Escapes} {value : String}
    {q : Query} (hq : q.Wf) (htokens : t.tokens escapes value = some q.tokens) :
    read escapes (t.fill value) = some q ↔ Plain value.toList := by
  rw [read_eq_some_iff hq, ← ht.keeps_iff escapes value]
  constructor
  · exact fun h => ⟨q.tokens, htokens, h⟩
  · rintro ⟨ts, hts, hlex⟩
    obtain rfl := Option.some.inj (hts.symm.trans htokens)
    exact hlex

@[simp] theorem wf_dimension (key : String) : (dimension key).Wf :=
  show PlainName "customDimensions" by decide

@[simp] theorem wf_literal (s : String) : (Expr.literal s).Wf := trivial

theorem wf_column {name : String} (h : PlainName name) : (Expr.column name).Wf := h

/-- Only the conditions of the first part of a query are its own. -/
theorem wf_lastRunIdOf {table : String} {conditions : List Condition}
    (h : (Stage.filter conditions).Wf) : ∀ stage ∈ (lastRunIdOf table conditions).stages,
      stage.Wf := by
  have hrun : (dimension "runId").tostring.Wf := wf_dimension "runId"
  simp only [lastRunIdOf, List.forall_mem_cons]
  exact ⟨h, by simp [Stage.Wf], by simp [Stage.Wf, hrun]⟩

theorem wf_testResultsQuery (releaseId : String) : (testResultsQuery releaseId).Wf where
  scalar := by
    have hname : (Expr.column "name").Wf := wf_column (by decide)
    exact wf_lastRunIdOf (by simp [Stage.Wf, hname])
  body := by
    have hname : (Expr.column "name").Wf := wf_column (by decide)
    have hrun : (Expr.column "lastRunId").Wf := wf_column (by decide)
    have htimestamp : (Expr.column "timestamp").Wf := wf_column (by decide)
    simp [testResultsQuery, testItems, Stage.Wf, hname, hrun, htimestamp, projected]

theorem wf_availabilityResultsQuery (releaseId : String) :
    (availabilityResultsQuery releaseId).Wf where
  scalar := wf_lastRunIdOf (by simp [Stage.Wf])
  body := by
    have hrun : (Expr.column "lastRunId").Wf := wf_column (by decide)
    have htimestamp : (Expr.column "timestamp").Wf := wf_column (by decide)
    have hsuccess : (Expr.equals (.column "success") (.number ['1'])).Wf :=
      ⟨wf_column (by decide), show ['1'].all Char.isDigit = true by decide⟩
    simp [availabilityResultsQuery, availabilityItems, Stage.Wf, hrun, htimestamp, hsuccess,
      projected]

/-- The tokens of a text, from those of its pieces. -/
theorem tokens_of_lex {escapes : Escapes} {t : Template} {before between after : List Token}
    (hbefore : lex escapes t.before.toList = some before)
    (hbetween : lex escapes t.between.toList = some between)
    (hafter : lex escapes t.after.toList = some after) (value : String) :
    t.tokens escapes value =
      some (before ++ .literal value.toList :: (between ++ .literal value.toList :: after)) := by
  simp only [Template.tokens, hbefore, hbetween, hafter]
  rfl

set_option maxRecDepth 8000 in
theorem tokens_testResultsQuery (escapes : Escapes) (releaseId : String) :
    testResultsTemplate.tokens escapes releaseId = some (testResultsQuery releaseId).tokens := by
  have hbefore := lex_piece sound_testResultsTemplate.before rfl
    (show _ = some ((testResultsQuery "").tokens.take 25) by decide +kernel) escapes
  have hbetween := lex_piece sound_testResultsTemplate.between rfl
    (show _ = some (((testResultsQuery "").tokens.drop 26).take 38) by decide +kernel) escapes
  have hafter := lex_piece sound_testResultsTemplate.after rfl
    (show _ = some ((testResultsQuery "").tokens.drop 65) by decide +kernel) escapes
  refine (tokens_of_lex hbefore hbetween hafter releaseId).trans ?_
  rfl

set_option maxRecDepth 8000 in
theorem tokens_availabilityResultsQuery (escapes : Escapes) (releaseId : String) :
    availabilityResultsTemplate.tokens escapes releaseId =
      some (availabilityResultsQuery releaseId).tokens := by
  have hbefore := lex_piece sound_availabilityResultsTemplate.before rfl
    (show _ = some ((availabilityResultsQuery "").tokens.take 13) by decide +kernel) escapes
  have hbetween := lex_piece sound_availabilityResultsTemplate.between rfl
    (show _ = some (((availabilityResultsQuery "").tokens.drop 14).take 26) by decide +kernel)
    escapes
  have hafter := lex_piece sound_availabilityResultsTemplate.after rfl
    (show _ = some ((availabilityResultsQuery "").tokens.drop 41) by decide +kernel) escapes
  refine (tokens_of_lex hbefore hbetween hafter releaseId).trans ?_
  rfl

theorem read_createTestResultsQuery_iff (escapes : Escapes) (releaseId : String) :
    read escapes (createTestResultsQueryForRelease releaseId) =
        some (testResultsQuery releaseId) ↔
      ∀ c ∈ releaseId.toList, c ≠ '"' ∧ c ≠ '\\' :=
  read_fill_iff sound_testResultsTemplate (wf_testResultsQuery releaseId)
    (tokens_testResultsQuery escapes releaseId)

theorem read_createAvailabilityResultsQuery_iff (escapes : Escapes) (releaseId : String) :
    read escapes (createAvailabilityResultsQueryForRelease releaseId) =
        some (availabilityResultsQuery releaseId) ↔
      ∀ c ∈ releaseId.toList, c ≠ '"' ∧ c ≠ '\\' :=
  read_fill_iff sound_availabilityResultsTemplate (wf_availabilityResultsQuery releaseId)
    (tokens_availabilityResultsQuery escapes releaseId)

/-- **Both texts are read as the queries they are meant to be exactly when the release id is
plain**, whatever the escapes of the language are. -/
theorem releaseQueries_read_iff (escapes : Escapes) (releaseId : String) :
    (read escapes (createTestResultsQueryForRelease releaseId) =
        some (testResultsQuery releaseId) ∧
      read escapes (createAvailabilityResultsQueryForRelease releaseId) =
        some (availabilityResultsQuery releaseId)) ↔
    ∀ c ∈ releaseId.toList, c ≠ '"' ∧ c ≠ '\\' := by
  rw [read_createTestResultsQuery_iff, read_createAvailabilityResultsQuery_iff]
  exact and_self_iff

/-! ## The log -/

/-- The tables of Application Insights. None has a column of the name the queries give to a
value. -/
structure Log where
  tables : Database
  noVariable : ∀ table, ∀ e ∈ tables table, e.column "lastRunId" = none

/-- `customDimensions.key` of an event. -/
def eventProperty (e : Row) (key : String) : Cell := e.property "customDimensions" key

/-- An event of the finalizer, in a run for the release. -/
def FinalizerEvent (releaseId : String) (e : Row) : Prop :=
  e.cell "name" = .text "FunctionalTest" ∧
    eventProperty e "testContainer" = .text "FinalizerTestGroup" ∧
    eventProperty e "releaseId" = .text releaseId

/-- An event of one test, in a run for the release. -/
def TestRunEvent (releaseId : String) (runId : Cell) (e : Row) : Prop :=
  e.cell "name" = .text "FunctionalTest" ∧ eventProperty e "logSource" = .text "TestRun" ∧
    eventProperty e "releaseId" = .text releaseId ∧ eventProperty e "runId" = runId ∧
    runId ≠ .null

/-- An availability result, in a run for the release. -/
def AvailabilityEvent (releaseId : String) (runId : Cell) (e : Row) : Prop :=
  eventProperty e "releaseId" = .text releaseId ∧ eventProperty e "runId" = runId ∧
    runId ≠ .null

instance (releaseId : String) (runId : Cell) :
    DecidablePred (TestRunEvent releaseId runId) := fun _ => inferInstanceAs (Decidable (_ ∧ _))

instance (releaseId : String) (runId : Cell) :
    DecidablePred (AvailabilityEvent releaseId runId) :=
  fun _ => inferInstanceAs (Decidable (_ ∧ _))

/-- The run of one of the newest events with a property, and `null` if there is none. -/
inductive LastRun (format : ℤ → String) (events : List Row) (P : Row → Prop) : Cell → Prop
  | none (h : ∀ e ∈ events, ¬ P e) : LastRun format events P .null
  | newest {e : Row} (he : e ∈ events) (hP : P e)
      (hnewest : ∀ e' ∈ events, P e' → NewestFirst "timestamp" e e') :
      LastRun format events P ((eventProperty e "runId").tostring format)

/-! ### Conditions -/

section

variable {format : ℤ → String} {vars : Variables} {e : Row}

/-- A name that no value has is a column. -/
theorem column_or (e : Row) {name : String} (hvars : vars name = none) :
    (e.column name <|> vars name) = e.column name := by
  rw [hvars]
  cases e.column name <;> rfl

theorem holds_column {name s : String} (hvars : vars name = none) :
    Condition.holds format vars e ⟨.column name, .literal s⟩ = true ↔
      e.cell name = .text s := by
  rw [Condition.holds_iff]
  simp only [Expr.eval, column_or e hvars]
  exact and_iff_left nofun

theorem holds_dimension {key s : String} :
    Condition.holds format vars e ⟨dimension key, .literal s⟩ = true ↔
      eventProperty e key = .text s := by
  rw [Condition.holds_iff]
  exact and_iff_left nofun

theorem holds_lastRunId {v : Cell} (he : e.column "lastRunId" = none)
    (hvars : vars "lastRunId" = some v) {key : String} :
    Condition.holds format vars e ⟨dimension key, .column "lastRunId"⟩ = true ↔
      eventProperty e key = v ∧ v ≠ .null := by
  rw [Condition.holds_iff]
  simp only [Expr.eval, he, hvars]
  rfl

end

/-! ### Answers -/

section

variable {format : ℤ → String} {log : Log} {releaseId : String} {answer : AnswerTable}

/-- The run that the first part of a query finds. -/
theorem lastRun_of_gives {table : String} {conditions : List Condition} {P : Row → Prop}
    (hP : ∀ e ∈ log.tables table,
      (∀ c ∈ conditions, c.holds format (fun _ => none) e = true) ↔ P e) {found : List Row}
    (h : StagesGive format (fun _ => none) (lastRunIdOf table conditions).stages
      (log.tables table) found) :
    LastRun format (log.tables table) P
      (toscalar (lastRunIdOf table conditions).columns found) := by
  obtain ⟨newest, ⟨between, rfl, rfl⟩, hnewest⟩ := stagesGive_newest rfl h
  rcases hnewest with ⟨rfl, hnone⟩ | ⟨e, he, rfl, hholds, hnewest⟩
  · exact .none fun e he hPe => hnone e he ((hP e he).mpr hPe)
  · exact .newest he ((hP e he).mp hholds) fun e' he' hPe' =>
      hnewest e' he' ((hP e' he').mpr hPe')

/-- The cells of a test in the answer. -/
def testCells (e : Row) : List Cell :=
  [e.cell "timestamp", eventProperty e "environment", eventProperty e "releaseId",
    eventProperty e "runId", eventProperty e "logSource", eventProperty e "testContainer",
    eventProperty e "testName", eventProperty e "scenarioName", eventProperty e "scanId",
    eventProperty e "result", eventProperty e "error"]

/-- The cells of an availability result in the answer. -/
def availabilityCells (e : Row) : List Cell :=
  [e.cell "timestamp", eventProperty e "releaseId", eventProperty e "runId",
    eventProperty e "testScenarioName", (e.cell "success").equals (.number 1)]

/-- The answer with these tests. -/
def testsAnswer (tests : List Row) : AnswerTable :=
  ⟨testItems.map Projection.column, tests.map testCells⟩

/-- The answer with these availability results. -/
def availabilityAnswer (results : List Row) : AnswerTable :=
  ⟨availabilityItems.map Projection.column, results.map availabilityCells⟩

theorem map_cell_testItems {vars : Variables} (hvars : vars "timestamp" = none) (e : Row) :
    (testItems.map Projection.column).map (e.project format vars testItems).cell =
      testCells e := by
  rw [map_cell_project format vars (by decide)]
  simp only [testItems, projected, dimension, List.map_cons, List.map_nil, Expr.eval,
    column_or e hvars]
  rfl

theorem map_cell_availabilityItems {vars : Variables} (htimestamp : vars "timestamp" = none)
    (hsuccess : vars "success" = none) (e : Row) :
    (availabilityItems.map Projection.column).map
      (e.project format vars availabilityItems).cell = availabilityCells e := by
  rw [map_cell_project format vars (by decide)]
  simp only [availabilityItems, projected, dimension, List.map_cons, List.map_nil, Expr.eval,
    column_or e htimestamp, column_or e hsuccess]
  rfl

/-- The rows of an answer are those that meet the conditions. -/
theorem filter_holds {vars : Variables} {conditions : List Condition} {P : Row → Prop}
    [DecidablePred P] {events : List Row}
    (hP : ∀ e ∈ events, (∀ c ∈ conditions, c.holds format vars e = true) ↔ P e) :
    (events.filter fun e => conditions.all (Condition.holds format vars e)) =
      events.filter (P ·) := by
  refine List.filter_congr fun e he => ?_
  rw [Bool.eq_iff_iff, List.all_eq_true, decide_eq_true_iff]
  exact hP e he

/-- A permutation of values is one of what they are the values of. -/
theorem exists_perm_of_perm_map {α β : Type} {f : α → β} {l : List α} {l' : List β}
    (h : l'.Perm (l.map f)) : ∃ l'' : List α, l''.Perm l ∧ l' = l''.map f := by
  have hcomp : Relation.Comp (· = List.map f ·) (List.Perm · ·) l' l := by
    rw [List.eq_map_comp_perm]
    exact h
  obtain ⟨l'', hl', hperm⟩ := hcomp
  exact ⟨l'', hperm, hl'⟩

/-- **The tests of an answer**: those of the last run that has a finalizer, in the order of
time. -/
theorem testResults_gives (h : (testResultsQuery releaseId).Gives format log.tables answer) :
    ∃ (runId : Cell) (events : List Row),
      LastRun format (log.tables "customEvents") (FinalizerEvent releaseId) runId ∧
      events.Perm ((log.tables "customEvents").filter (TestRunEvent releaseId runId ·)) ∧
      events.Pairwise (OldestFirst "timestamp") ∧
      answer = testsAnswer events := by
  obtain ⟨found, rows, hscalar, hbody, rfl⟩ := h
  have hlast : LastRun format (log.tables "customEvents") (FinalizerEvent releaseId)
      (toscalar (testResultsQuery releaseId).scalar.columns found) :=
    lastRun_of_gives (fun e _ => by
      rw [List.forall_mem_cons, List.forall_mem_cons, List.forall_mem_singleton,
        holds_column rfl, holds_dimension, holds_dimension]
      rfl) hscalar
  generalize toscalar (testResultsQuery releaseId).scalar.columns found = runId at hlast hbody
  obtain ⟨selected, hselected, projected, rfl, sorted, ⟨hperm, hsorted⟩, rfl⟩ := hbody
  obtain rfl : selected = (log.tables "customEvents").filter (TestRunEvent releaseId runId ·) := by
    refine hselected.trans (filter_holds fun e he => ?_)
    rw [List.forall_mem_cons, List.forall_mem_cons, List.forall_mem_cons,
      List.forall_mem_singleton, holds_column rfl, holds_dimension, holds_dimension,
      holds_lastRunId (log.noVariable _ e he) rfl]
    rfl
  obtain ⟨events, hevents, rfl⟩ := exists_perm_of_perm_map hperm
  refine ⟨runId, events, hlast, hevents, ?_, ?_⟩
  · refine (List.pairwise_map.mp hsorted).imp fun {e e'} hle => ?_
    -- a row has the time of its event
    have htime : ∀ e : Row, (e.project format ((testResultsQuery releaseId).variables runId)
        testItems).cell "timestamp" = e.cell "timestamp" := fun e =>
      (List.cons.inj (@map_cell_testItems format
        ((testResultsQuery releaseId).variables runId) rfl e)).1
    rwa [OldestFirst, htime, htime] at hle
  · rw [List.map_map]
    refine congrArg (AnswerTable.mk _) (List.map_congr_left fun e _ => ?_)
    exact map_cell_testItems rfl e

/-- **The availability results of an answer**: those of the last run that has one. -/
theorem availabilityResults_gives
    (h : (availabilityResultsQuery releaseId).Gives format log.tables answer) :
    ∃ runId : Cell,
      LastRun format (log.tables "availabilityResults")
        (fun e => eventProperty e "releaseId" = .text releaseId) runId ∧
      answer = availabilityAnswer
        ((log.tables "availabilityResults").filter (AvailabilityEvent releaseId runId ·)) := by
  obtain ⟨found, rows, hscalar, hbody, rfl⟩ := h
  -- any result makes a run the last one: there is no finalizer to wait for
  have hlast : LastRun format (log.tables "availabilityResults")
      (fun e => eventProperty e "releaseId" = .text releaseId)
      (toscalar (availabilityResultsQuery releaseId).scalar.columns found) :=
    lastRun_of_gives (fun e _ => by rw [List.forall_mem_singleton, holds_dimension]) hscalar
  generalize toscalar (availabilityResultsQuery releaseId).scalar.columns found = runId
    at hlast hbody
  obtain ⟨selected, hselected, projected, rfl, rfl⟩ := hbody
  obtain rfl : selected =
      (log.tables "availabilityResults").filter (AvailabilityEvent releaseId runId ·) := by
    refine hselected.trans (filter_holds fun e he => ?_)
    rw [List.forall_mem_cons, List.forall_mem_singleton, holds_dimension,
      holds_lastRunId (log.noVariable _ e he) rfl]
    rfl
  refine ⟨runId, hlast, ?_⟩
  rw [List.map_map]
  refine congrArg (AnswerTable.mk _) (List.map_congr_left fun e _ => ?_)
  exact map_cell_availabilityItems rfl rfl e

end

end WebInsights.StorageApi
