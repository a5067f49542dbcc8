/-
Queries and what they answer.

A query is a chain of stages over the rows of a table; a first query may compute a value that
the second one uses under a name. A comparison with `null` is `null`, which is not true. The
sort of the language promises an order and nothing about rows that are equal in it, so a query
may have several answers: `Gives` says of each what it is, and `answer` computes one.
-/
import Mathlib.Data.List.Sort
import Mathlib.Data.Prod.Lex
import Mathlib.Data.String.Basic
import Mathlib.Order.Basic
import Mathlib.Tactic.Common
import WebInsights.Data.Keyed

set_option autoImplicit false

namespace WebInsights.Kql

/-! ## Values -/

inductive Cell where
  | datetime (ticks : ℤ)
  | number (n : ℤ)
  | bool (b : Bool)
  | text (s : String)
  | null
  deriving DecidableEq

namespace Cell

/-- Where a value stands in the order: `null` is last. -/
def key : Cell → ℕ ×ₗ ℤ ×ₗ String
  | .datetime ticks => toLex (0, toLex (ticks, ""))
  | .number n => toLex (1, toLex (n, ""))
  | .bool b => toLex (2, toLex (if b then 1 else 0, ""))
  | .text s => toLex (3, toLex (0, s))
  | .null => toLex (4, toLex (0, ""))

/-- `==` -/
def equals (a b : Cell) : Cell := if a = .null ∨ b = .null then .null else .bool (a = b)

@[simp] theorem equals_eq_true_iff {a b : Cell} :
    a.equals b = .bool true ↔ a = b ∧ b ≠ .null := by
  unfold equals
  by_cases h : a = .null ∨ b = .null
  · rw [if_pos h]
    refine iff_of_false nofun ?_
    rintro ⟨rfl, hb⟩
    exact h.elim hb hb
  · rw [if_neg h]
    rw [not_or] at h
    simp [h.2]

/-- `tostring`, where `format` writes a time. -/
def tostring (format : ℤ → String) : Cell → Cell
  | .datetime ticks => .text (format ticks)
  | .number n => .text (toString n)
  | .bool b => .text (toString b)
  | .text s => .text s
  | .null => .text ""

end Cell

/-- A row: what is in its columns, and the properties of the columns that hold objects. -/
structure Row where
  column : String → Option Cell
  property : String → String → Cell

/-- The tables of a database. -/
abbrev Database : Type := String → List Row

/-! ## Expressions -/

inductive Expr where
  | column (name : String)
  | path (object key : String)
  | literal (s : String)
  | number (digits : List Char)
  | tostring (e : Expr)
  | equals (left right : Expr)
  deriving DecidableEq

/-- The number with these digits. -/
def ofDigits (digits : List Char) : ℕ := digits.foldl (fun n c => 10 * n + (c.toNat - 48)) 0

/-- The values that were given a name. -/
abbrev Variables : Type := String → Option Cell

section

variable (format : ℤ → String) (vars : Variables)

/-- A name is that of a column, or else of a variable. -/
def Expr.eval (row : Row) : Expr → Cell
  | .column name => (row.column name <|> vars name).getD .null
  | .path object key => row.property object key
  | .literal s => .text s
  | .number digits => .number (ofDigits digits)
  | .tostring e => (eval row e).tostring format
  | .equals left right => (eval row left).equals (eval row right)

/-- A condition of `where`. -/
structure Condition where
  left : Expr
  right : Expr
  deriving DecidableEq

def Condition.holds (row : Row) (c : Condition) : Bool :=
  (c.left.eval format vars row).equals (c.right.eval format vars row) = .bool true

theorem Condition.holds_iff {row : Row} {c : Condition} : c.holds format vars row = true ↔
    c.left.eval format vars row = c.right.eval format vars row ∧
      c.right.eval format vars row ≠ .null := by
  rw [Condition.holds, decide_eq_true_iff, Cell.equals_eq_true_iff]

/-- An item of `project`; one without a name gets the name of what it is. -/
structure Projection where
  name : Option String
  value : Expr
  deriving DecidableEq

def Expr.defaultName : Expr → String
  | .column name => name
  | .path object key => object ++ "_" ++ key
  | .tostring e => defaultName e
  | _ => "Column1"

def Projection.column (p : Projection) : String := p.name.getD p.value.defaultName

/-- The row with these columns and no others. -/
def Row.project (items : List Projection) (row : Row) : Row where
  column name := (items.find? fun item => item.column = name).map fun item =>
    item.value.eval format vars row
  property _ _ := .null

end

/-! ## Stages -/

inductive Stage where
  /-- `where` -/
  | filter (conditions : List Condition)
  /-- `top .. by .. desc nulls last` -/
  | top (digits : List Char) (column : String)
  | project (items : List Projection)
  /-- `order by .. asc nulls last` -/
  | order (column : String)
  deriving DecidableEq

/-- What is in a column of a row. -/
def Row.cell (row : Row) (column : String) : Cell := (row.column column).getD .null

/-- `desc nulls last` -/
abbrev NewestFirst (column : String) (row row' : Row) : Prop :=
  row'.cell column = .null ∨
    row.cell column ≠ .null ∧ (row'.cell column).key ≤ (row.cell column).key

/-- `asc nulls last` -/
abbrev OldestFirst (column : String) (row row' : Row) : Prop :=
  (row.cell column).key ≤ (row'.cell column).key

instance (column : String) : Std.Total (NewestFirst column) where
  total row row' := by
    by_cases h : row.cell column = .null
    · exact Or.inr (Or.inl h)
    by_cases h' : row'.cell column = .null
    · exact Or.inl (Or.inl h')
    rcases le_total (row'.cell column).key (row.cell column).key with hle | hle
    · exact Or.inl (Or.inr ⟨h, hle⟩)
    · exact Or.inr (Or.inr ⟨h', hle⟩)

instance (column : String) : IsTrans Row (NewestFirst column) where
  trans row row' row'' := by
    rintro h (h' | ⟨hne, h'⟩)
    · exact Or.inl h'
    · rcases h with h | ⟨hne', h⟩
      · exact absurd h hne
      · exact Or.inr ⟨hne', h'.trans h⟩

instance (column : String) : Std.Total (OldestFirst column) where
  total _ _ := le_total _ _

instance (column : String) : IsTrans Row (OldestFirst column) where
  trans _ _ _ h h' := h.trans h'

section

variable (format : ℤ → String) (vars : Variables)

/-- What a stage can make of some rows. -/
def Stage.Gives : Stage → List Row → List Row → Prop
  | .filter conditions, rows, result =>
    result = rows.filter fun row => conditions.all (Condition.holds format vars row)
  | .top digits column, rows, result =>
    ∃ sorted : List Row, sorted.Perm rows ∧ sorted.Pairwise (NewestFirst column) ∧
      result = sorted.take (ofDigits digits)
  | .project items, rows, result => result = rows.map (Row.project format vars items)
  | .order column, rows, result => result.Perm rows ∧ result.Pairwise (OldestFirst column)

def Stage.run : Stage → List Row → List Row
  | .filter conditions, rows =>
    rows.filter fun row => conditions.all (Condition.holds format vars row)
  | .top digits column, rows =>
    (rows.insertionSort (NewestFirst column)).take (ofDigits digits)
  | .project items, rows => rows.map (Row.project format vars items)
  | .order column, rows => rows.insertionSort (OldestFirst column)

theorem Stage.gives_run (stage : Stage) (rows : List Row) :
    stage.Gives format vars rows (stage.run format vars rows) := by
  cases stage with
  | filter conditions => exact rfl
  | top digits column =>
    exact ⟨_, List.perm_insertionSort _ rows, List.pairwise_insertionSort _ rows, rfl⟩
  | project items => exact rfl
  | order column => exact ⟨List.perm_insertionSort _ rows, List.pairwise_insertionSort _ rows⟩

/-- What a chain of stages can make of some rows. -/
def StagesGive : List Stage → List Row → List Row → Prop
  | [], rows, result => result = rows
  | stage :: stages, rows, result =>
    ∃ between, stage.Gives format vars rows between ∧ StagesGive stages between result

def runStages (stages : List Stage) (rows : List Row) : List Row :=
  stages.foldl (fun rows stage => stage.run format vars rows) rows

theorem stagesGive_runStages (stages : List Stage) (rows : List Row) :
    StagesGive format vars stages rows (runStages format vars stages rows) := by
  induction stages generalizing rows with
  | nil => rfl
  | cons stage stages ih => exact ⟨_, stage.gives_run format vars rows, ih _⟩

end

/-! ## Queries -/

/-- A table and the stages its rows go through. -/
structure Pipeline where
  table : String
  stages : List Stage
  deriving DecidableEq

/-- The columns of an answer: those of the last `project`. -/
def Pipeline.columns (p : Pipeline) : List String :=
  p.stages.foldl (fun columns stage => match stage with
    | .project items => items.map Projection.column
    | _ => columns) []

/-- `let name = toscalar(scalar); body` -/
structure Query where
  name : String
  scalar : Pipeline
  body : Pipeline
  deriving DecidableEq

/-- The table that answers a query. -/
structure AnswerTable where
  columns : List String
  rows : List (List Cell)

/-- The first cell of the first row, if there is one. -/
def toscalar (columns : List String) (rows : List Row) : Cell :=
  ((rows.head?.bind fun row => columns.head?.map row.cell)).getD .null

/-- The one variable of the second query. -/
def Query.variables (q : Query) (v : Cell) : Variables := fun name =>
  if name = q.name then some v else none

section

variable (format : ℤ → String) (db : Database)

/-- What a query can answer. -/
def Query.Gives (q : Query) (answer : AnswerTable) : Prop :=
  ∃ scalars rows,
    StagesGive format (fun _ => none) q.scalar.stages (db q.scalar.table) scalars ∧
    StagesGive format (q.variables (toscalar q.scalar.columns scalars)) q.body.stages
      (db q.body.table) rows ∧
    answer = ⟨q.body.columns, rows.map fun row => q.body.columns.map row.cell⟩

def Query.answer (q : Query) : AnswerTable :=
  let scalars := runStages format (fun _ => none) q.scalar.stages (db q.scalar.table)
  let rows := runStages format (q.variables (toscalar q.scalar.columns scalars)) q.body.stages
    (db q.body.table)
  ⟨q.body.columns, rows.map fun row => q.body.columns.map row.cell⟩

/-- **Every query has an answer.** -/
theorem Query.gives_answer (q : Query) : q.Gives format db (q.answer format db) :=
  ⟨_, _, stagesGive_runStages format _ _ _, stagesGive_runStages format _ _ _, rfl⟩

end

/-! ## The cells of a row -/

/-- The cells of a row that was made of these items, where no two have one name. -/
theorem map_cell_project (format : ℤ → String) (vars : Variables) {items : List Projection}
    (hnd : (items.map Projection.column).Nodup) (row : Row) :
    (items.map Projection.column).map (row.project format vars items).cell =
      items.map fun item => item.value.eval format vars row := by
  rw [List.map_map]
  refine List.map_congr_left fun item hitem => ?_
  have hfind : items.find? (fun item' => item'.column = item.column) = some item :=
    (Keyed.lookup_eq_some_iff Projection.column hnd).mpr ⟨hitem, rfl⟩
  simp only [Function.comp_apply, Row.cell, Row.project, hfind, Option.map_some, Option.getD_some]

/-! ## The newest row of some -/

section

variable {format : ℤ → String} {vars : Variables}

/-- `where .. | top 1 by .. desc nulls last`: one of the newest rows that meet the conditions,
and none only if no row does. -/
theorem stagesGive_newest {conditions : List Condition} {column : String} {digits : List Char}
    (hone : ofDigits digits = 1) {stages : List Stage} {rows result : List Row}
    (h : StagesGive format vars (.filter conditions :: .top digits column :: stages) rows result) :
    ∃ found, StagesGive format vars stages found result ∧
      ((found = [] ∧ ∀ row ∈ rows, ¬ ∀ c ∈ conditions, c.holds format vars row = true) ∨
      ∃ row ∈ rows, found = [row] ∧ (∀ c ∈ conditions, c.holds format vars row = true) ∧
        ∀ row' ∈ rows, (∀ c ∈ conditions, c.holds format vars row' = true) →
          NewestFirst column row row') := by
  obtain ⟨selected, rfl, found, ⟨sorted, hperm, hsorted, rfl⟩, hrest⟩ := h
  refine ⟨_, hrest, ?_⟩
  rw [hone]
  have hmem : ∀ row, row ∈ sorted ↔
      row ∈ rows ∧ ∀ c ∈ conditions, c.holds format vars row = true := by
    intro row
    rw [hperm.mem_iff, List.mem_filter, List.all_eq_true]
  rcases sorted with _ | ⟨row, others⟩
  · refine Or.inl ⟨rfl, fun row hrow hholds => ?_⟩
    exact absurd ((hmem row).mpr ⟨hrow, hholds⟩) List.not_mem_nil
  · obtain ⟨hrow, hholds⟩ := (hmem row).mp List.mem_cons_self
    refine Or.inr ⟨row, hrow, rfl, hholds, fun row' hrow' hholds' => ?_⟩
    rcases List.mem_cons.mp ((hmem row').mpr ⟨hrow', hholds'⟩) with rfl | hother
    · exact or_iff_not_imp_left.mpr fun h => ⟨h, le_refl _⟩
    · exact (List.pairwise_cons.mp hsorted).1 row' hother

end

end WebInsights.Kql
