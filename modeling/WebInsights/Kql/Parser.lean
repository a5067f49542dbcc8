/-
The tokens of a query, and the query of some tokens.

Writing a query down and reading it again gives the query back (`parse_tokens`), so two queries
never have the same tokens. What is asked of a query (`Query.Wf`) is that no name reads as
something else: as a number, or as `tostring`. The parser of an expression stops where the next
token cannot continue it (`Stops`).
-/
import WebInsights.Kql.Lexer
import WebInsights.Kql.Query

set_option autoImplicit false

namespace WebInsights.Kql

/-! ## Writing -/

def wordToken (s : String) : Token := .word s.toList

/-- The tokens of the text of a stage's keywords, or of another fixed text. -/
def keywords (words : List String) : List Token := words.map wordToken

def Expr.tokens : Expr → List Token
  | .column name => [wordToken name]
  | .path object key => [wordToken object, .symbol '.', wordToken key]
  | .literal s => [.literal s.toList]
  | .number digits => [.word digits]
  | .tostring e => wordToken "tostring" :: .symbol '(' :: (tokens e ++ [.symbol ')'])
  | .equals left right =>
    .symbol '(' :: (tokens left ++ .symbol '=' :: .symbol '=' :: (tokens right ++ [.symbol ')']))

def Condition.tokens (c : Condition) : List Token :=
  c.left.tokens ++ .symbol '=' :: .symbol '=' :: c.right.tokens

def Projection.tokens (p : Projection) : List Token :=
  (match p.name with
    | some name => [wordToken name, .symbol '=']
    | none => []) ++ p.value.tokens

/-- The tokens of a list of things with a separator between each two. -/
def separated {α : Type} (separator : Token) (tokens : α → List Token) : List α → List Token
  | [] => []
  | [a] => tokens a
  | a :: as => tokens a ++ separator :: separated separator tokens as

def Stage.tokens : Stage → List Token
  | .filter conditions =>
    wordToken "where" :: separated (wordToken "and") Condition.tokens conditions
  | .top digits column =>
    wordToken "top" :: .word digits :: wordToken "by" :: wordToken column ::
      keywords ["desc", "nulls", "last"]
  | .project items =>
    wordToken "project" :: separated (.symbol ',') Projection.tokens items
  | .order column =>
    wordToken "order" :: wordToken "by" :: wordToken column :: keywords ["asc", "nulls", "last"]

def stagesTokens : List Stage → List Token
  | [] => []
  | stage :: stages => .symbol '|' :: (stage.tokens ++ stagesTokens stages)

def Pipeline.tokens (p : Pipeline) : List Token := wordToken p.table :: stagesTokens p.stages

def Query.tokens (q : Query) : List Token :=
  wordToken "let" :: wordToken q.name :: .symbol '=' :: wordToken "toscalar" :: .symbol '(' ::
    (q.scalar.tokens ++ .symbol ')' :: .symbol ';' :: q.body.tokens)

/-! ## Reading -/

/-- What stands at the start of some tokens, and the tokens after it. -/
abbrev Parser (α : Type) : Type := List Token → Option (α × List Token)

/-- The tokens after the expected ones. -/
def skip : List Token → List Token → Option (List Token)
  | [], ts => some ts
  | _ :: _, [] => none
  | expected :: es, t :: ts => if t = expected then skip es ts else none

def word : Parser (List Char)
  | .word chars :: ts => some (chars, ts)
  | _ => none

/-- The expressions of at most this depth. -/
def expr : ℕ → Parser Expr
  | 0, _ => none
  | _ + 1, .literal chars :: ts => some (.literal (String.ofList chars), ts)
  | depth + 1, .symbol '(' :: ts => do
    let (left, ts) ← expr depth ts
    let ts ← skip [.symbol '=', .symbol '='] ts
    let (right, ts) ← expr depth ts
    let ts ← skip [.symbol ')'] ts
    pure (.equals left right, ts)
  | depth + 1, .word chars :: ts =>
    if chars.all Char.isDigit = true then some (.number chars, ts)
    else if chars = "tostring".toList then do
      let ts ← skip [.symbol '('] ts
      let (e, ts) ← expr depth ts
      let ts ← skip [.symbol ')'] ts
      pure (.tostring e, ts)
    else
      match ts with
      | .symbol '.' :: .word key :: ts =>
        some (.path (String.ofList chars) (String.ofList key), ts)
      | _ => some (.column (String.ofList chars), ts)
  | _ + 1, _ => none

section

variable (depth : ℕ)

def condition : Parser Condition := fun ts => do
  let (left, ts) ← expr depth ts
  let ts ← skip [.symbol '=', .symbol '='] ts
  let (right, ts) ← expr depth ts
  pure (⟨left, right⟩, ts)

def projection : Parser Projection := fun ts =>
  match ts with
  | .word name :: .symbol '=' :: ts => do
    let (value, ts) ← expr depth ts
    pure (⟨some (String.ofList name), value⟩, ts)
  | ts => do
    let (value, ts) ← expr depth ts
    pure (⟨none, value⟩, ts)

/-- At most this many things, with a separator between each two. -/
def separatedBy {α : Type} (separator : Token) (parser : Parser α) : ℕ → Parser (List α)
  | 0, _ => none
  | n + 1, ts => do
    let (a, ts) ← parser ts
    match skip [separator] ts with
    | some ts => do
      let (as, ts) ← separatedBy separator parser n ts
      pure (a :: as, ts)
    | none => pure ([a], ts)

/-- A stage after its first word. -/
def stageOf (keyword : List Char) : Parser Stage := fun ts =>
  if keyword = "where".toList then do
    let (conditions, ts) ← separatedBy (wordToken "and") (condition depth) depth ts
    pure (.filter conditions, ts)
  else if keyword = "top".toList then do
    let (digits, ts) ← word ts
    let ts ← skip (keywords ["by"]) ts
    let (column, ts) ← word ts
    let ts ← skip (keywords ["desc", "nulls", "last"]) ts
    pure (.top digits (String.ofList column), ts)
  else if keyword = "project".toList then do
    let (items, ts) ← separatedBy (.symbol ',') (projection depth) depth ts
    pure (.project items, ts)
  else if keyword = "order".toList then do
    let ts ← skip (keywords ["by"]) ts
    let (column, ts) ← word ts
    let ts ← skip (keywords ["asc", "nulls", "last"]) ts
    pure (.order (String.ofList column), ts)
  else none

/-- At most this many stages. -/
def stages : ℕ → Parser (List Stage)
  | 0, _ => none
  | n + 1, .symbol '|' :: .word keyword :: ts => do
    let (stage, ts) ← stageOf depth keyword ts
    let (others, ts) ← stages n ts
    pure (stage :: others, ts)
  | _ + 1, ts => pure ([], ts)

def pipeline : Parser Pipeline := fun ts => do
  let (table, ts) ← word ts
  let (stages, ts) ← stages depth depth ts
  pure (⟨String.ofList table, stages⟩, ts)

def query : Parser Query := fun ts => do
  let ts ← skip [wordToken "let"] ts
  let (name, ts) ← word ts
  let ts ← skip [.symbol '=', wordToken "toscalar", .symbol '('] ts
  let (scalar, ts) ← pipeline depth ts
  let ts ← skip [.symbol ')', .symbol ';'] ts
  let (body, ts) ← pipeline depth ts
  pure (⟨String.ofList name, scalar, body⟩, ts)

end

/-- The query of some tokens: nothing in it is deeper or longer than the tokens are. -/
def parse (ts : List Token) : Option Query :=
  match query ts.length ts with
  | some (q, []) => some q
  | _ => none

/-- The query of a text. -/
def read (escapes : Escapes) (text : String) : Option Query := (lex escapes text.toList).bind parse

/-! ## What can be read back -/

/-- The name is not read as a number or as the function. -/
def PlainName (name : String) : Prop :=
  name.toList.all Char.isDigit = false ∧ name ≠ "tostring"

instance (name : String) : Decidable (PlainName name) := inferInstanceAs (Decidable (_ ∧ _))

def Expr.Wf : Expr → Prop
  | .column name => PlainName name
  | .path object _ => PlainName object
  | .literal _ => True
  | .number digits => digits.all Char.isDigit = true
  | .tostring e => Wf e
  | .equals left right => Wf left ∧ Wf right

def Expr.depth : Expr → ℕ
  | .tostring e => depth e + 1
  | .equals left right => max (depth left) (depth right) + 1
  | _ => 1

def Stage.Wf : Stage → Prop
  | .filter conditions => conditions ≠ [] ∧ ∀ c ∈ conditions, c.left.Wf ∧ c.right.Wf
  | .project items => items ≠ [] ∧ ∀ item ∈ items, item.value.Wf
  | _ => True

structure Query.Wf (q : Query) : Prop where
  scalar : ∀ stage ∈ q.scalar.stages, stage.Wf
  body : ∀ stage ∈ q.body.stages, stage.Wf

/-- The next token, if there is one, is none of these. -/
def Stops (others : List Token) (ts : List Token) : Prop := ∀ t ∈ ts.head?, t ∉ others

theorem Stops.mono {others others' ts : List Token} (h : Stops others ts)
    (hsub : ∀ t ∈ others', t ∈ others) : Stops others' ts :=
  fun t ht hmem => h t ht (hsub t hmem)

theorem stops_cons {others : List Token} {t : Token} (h : t ∉ others) (ts : List Token) :
    Stops others (t :: ts) := by
  intro t' ht'
  obtain rfl := Option.some.inj ht'
  exact h

@[simp] theorem skip_append (es ts : List Token) : skip es (es ++ ts) = some ts := by
  induction es with
  | nil => rfl
  | cons e es ih => rw [List.cons_append, skip, if_pos rfl, ih]

theorem skip_eq_none {e : Token} {ts : List Token} (h : Stops [e] ts) : skip [e] ts = none := by
  rcases ts with _ | ⟨t, ts⟩
  · rfl
  · have hne : t ≠ e := fun heq => h t rfl (List.mem_singleton.mpr heq)
    rw [skip, if_neg hne]

/-! ## Round trip -/

theorem depth_le_length (e : Expr) : e.depth ≤ e.tokens.length := by
  induction e with
  | tostring e ih =>
    simp only [Expr.depth, Expr.tokens, List.length_cons, List.length_append]
    omega
  | equals left right ihl ihr =>
    simp only [Expr.depth, Expr.tokens, List.length_cons, List.length_append]
    omega
  | _ => simp [Expr.depth, Expr.tokens]

theorem expr_number {digits : List Char} (h : digits.all Char.isDigit = true) (n : ℕ)
    (ts : List Token) : expr (n + 1) (.word digits :: ts) = some (.number digits, ts) :=
  if_pos h

/-- A name is that of a column, unless a dot comes after it. -/
theorem expr_name {name : String} (h : PlainName name) (n : ℕ) (ts : List Token) :
    expr (n + 1) (wordToken name :: ts) =
      match ts with
      | .symbol '.' :: .word key :: ts => some (.path name (String.ofList key), ts)
      | _ => some (.column name, ts) := by
  obtain ⟨hdigits, hname⟩ := h
  have hword : name.toList ≠ "tostring".toList := fun h => hname (String.toList_inj.mp h)
  refine (if_neg (by rw [hdigits]; decide)).trans ((if_neg hword).trans ?_)
  rw [String.ofList_toList]

theorem expr_tostring (n : ℕ) (ts : List Token) :
    expr (n + 1) (wordToken "tostring" :: ts) = (do
      let ts ← skip [.symbol '('] ts
      let (e, ts) ← expr n ts
      let ts ← skip [.symbol ')'] ts
      pure (.tostring e, ts)) :=
  (if_neg (by decide)).trans (if_pos rfl)

/-- **An expression is read back** where nothing continues it. -/
theorem expr_tokens {e : Expr} (he : e.Wf) {n : ℕ} (hn : e.depth ≤ n) {ts : List Token}
    (hts : Stops [.symbol '.'] ts) : expr n (e.tokens ++ ts) = some (e, ts) := by
  -- in brackets, or before `==`, nothing continues an expression
  have hstops : ∀ (c : Char) (rest : List Token), c ≠ '.' →
      Stops [.symbol '.'] (.symbol c :: rest) := fun c rest hc =>
    stops_cons (by simpa using hc) rest
  induction e generalizing n ts with
  | column name =>
    obtain ⟨n, rfl⟩ : ∃ m, n = m + 1 := ⟨n - 1, by simp only [Expr.depth] at hn; omega⟩
    rw [Expr.tokens, List.singleton_append, expr_name he]
    split
    · exact absurd (List.mem_singleton.mpr rfl) (hts _ rfl)
    · rfl
  | path object key =>
    obtain ⟨n, rfl⟩ : ∃ m, n = m + 1 := ⟨n - 1, by simp only [Expr.depth] at hn; omega⟩
    rw [Expr.tokens, List.cons_append, expr_name he]
    simp only [wordToken, List.cons_append, List.nil_append, String.ofList_toList]
  | literal s =>
    obtain ⟨n, rfl⟩ : ∃ m, n = m + 1 := ⟨n - 1, by simp only [Expr.depth] at hn; omega⟩
    simp only [Expr.tokens, List.singleton_append, expr, String.ofList_toList]
  | number digits =>
    obtain ⟨n, rfl⟩ : ∃ m, n = m + 1 := ⟨n - 1, by simp only [Expr.depth] at hn; omega⟩
    exact expr_number he n ts
  | tostring e ih =>
    obtain ⟨n, rfl⟩ : ∃ m, n = m + 1 := ⟨n - 1, by simp only [Expr.depth] at hn; omega⟩
    simp only [Expr.depth] at hn
    have hinner := @ih he n (by omega) (.symbol ')' :: ts) (hstops ')' ts (by decide))
    simp only [Expr.tokens, List.cons_append, List.append_assoc, List.nil_append, expr_tostring,
      skip, Option.pure_def, Option.bind_eq_bind, Option.bind_some, hinner, if_pos]
  | equals left right ihl ihr =>
    obtain ⟨n, rfl⟩ : ∃ m, n = m + 1 := ⟨n - 1, by simp only [Expr.depth] at hn; omega⟩
    simp only [Expr.depth] at hn
    have hright := @ihr he.2 n (by omega) (.symbol ')' :: ts) (hstops ')' ts (by decide))
    have hleft := @ihl he.1 n (by omega)
      (.symbol '=' :: .symbol '=' :: (right.tokens ++ .symbol ')' :: ts))
      (hstops '=' _ (by decide))
    simp only [Expr.tokens, List.cons_append, List.append_assoc, List.nil_append]
    rw [expr, hleft]
    simp only [skip, Option.pure_def, Option.bind_eq_bind, Option.bind_some, hright, if_pos]

theorem condition_tokens {c : Condition} (hleft : c.left.Wf) (hright : c.right.Wf) {n : ℕ}
    (hn : c.tokens.length ≤ n) {ts : List Token} (hts : Stops [.symbol '.'] ts) :
    condition n (c.tokens ++ ts) = some (c, ts) := by
  have hl := depth_le_length c.left
  have hr := depth_le_length c.right
  simp only [Condition.tokens, List.length_append, List.length_cons] at hn
  have heq : Stops [.symbol '.'] (.symbol '=' :: .symbol '=' :: (c.right.tokens ++ ts)) :=
    stops_cons (by decide) _
  unfold condition
  rw [Condition.tokens, List.append_assoc, List.cons_append, List.cons_append,
    expr_tokens hleft (by omega) heq]
  simp only [skip, Option.pure_def, Option.bind_eq_bind, Option.bind_some, if_pos,
    expr_tokens hright (show c.right.depth ≤ n by omega) hts]

/-- An expression alone does not read as an item with a name. -/
theorem projection_unnamed {e : Expr} {n : ℕ} {ts : List Token}
    (hts : Stops [.symbol '='] ts) :
    projection n (e.tokens ++ ts) = (expr n (e.tokens ++ ts)).bind fun p =>
      some (⟨none, p.1⟩, p.2) := by
  -- the second token is what follows the expression, or one of its own that is no `=`
  have hother : ∀ name rest, e.tokens ++ ts ≠ .word name :: .symbol '=' :: rest := by
    intro name rest h
    cases e with
    | column name' =>
      obtain ⟨-, rfl⟩ := List.cons.inj h
      exact absurd (List.mem_singleton.mpr rfl) (hts _ rfl)
    | number digits =>
      obtain ⟨-, rfl⟩ := List.cons.inj h
      exact absurd (List.mem_singleton.mpr rfl) (hts _ rfl)
    | path object key =>
      obtain ⟨-, h⟩ := List.cons.inj h
      exact absurd (List.cons.inj h).1 (by decide)
    | tostring e =>
      obtain ⟨-, h⟩ := List.cons.inj h
      exact absurd (List.cons.inj h).1 (by decide)
    | literal s => cases (List.cons.inj h).1
    | equals left right => cases (List.cons.inj h).1
  unfold projection
  split
  · rename_i name rest heq
    exact absurd heq (hother name rest)
  · rfl

theorem projection_tokens {p : Projection} (hp : p.value.Wf) {n : ℕ}
    (hn : p.tokens.length ≤ n) {ts : List Token} (hts : Stops [.symbol '.', .symbol '='] ts) :
    projection n (p.tokens ++ ts) = some (p, ts) := by
  have hvalue := depth_le_length p.value
  simp only [Projection.tokens, List.length_append] at hn
  have hread : expr n (p.value.tokens ++ ts) = some (p.value, ts) :=
    expr_tokens hp (by omega) (hts.mono (by simp))
  obtain ⟨_ | name, value⟩ := p
  · rw [Projection.tokens, List.nil_append, projection_unnamed (hts.mono (by simp)), hread,
      Option.bind_some]
  · simp only [Projection.tokens, List.cons_append, List.nil_append, wordToken, projection, hread,
      Option.pure_def, Option.bind_eq_bind, Option.bind_some, String.ofList_toList]

theorem length_le_separated {α : Type} {separator : Token} {tokens : α → List Token}
    (as : List α) : as.length ≤ (separated separator tokens as).length + 1 ∧
      ∀ a ∈ as, (tokens a).length ≤ (separated separator tokens as).length := by
  induction as with
  | nil => exact ⟨Nat.zero_le _, nofun⟩
  | cons a as ih =>
    rcases as with _ | ⟨a', as⟩
    · refine ⟨by simp, fun b hb => ?_⟩
      rw [List.mem_singleton.mp hb]
      exact le_refl _
    · simp only [separated, List.length_append, List.length_cons] at ih ⊢
      refine ⟨by omega, fun b hb => ?_⟩
      rcases List.mem_cons.mp hb with rfl | hb
      · omega
      · have := ih.2 b hb
        omega

/-- A list is read back if each of its elements is, before the separator and before what comes
after the list. -/
theorem separatedBy_tokens {α : Type} {separator : Token} {tokens : α → List Token}
    {parser : Parser α} {others : List Token} (hseparator : separator ∉ others) {as : List α}
    (has : as ≠ [])
    (hparser : ∀ a ∈ as, ∀ ts, Stops others ts → parser (tokens a ++ ts) = some (a, ts)) {n : ℕ}
    (hn : as.length ≤ n) {ts : List Token} (hts : Stops (separator :: others) ts) :
    separatedBy separator parser n (separated separator tokens as ++ ts) = some (as, ts) := by
  -- the parser looks past each element for the separator: none follows the last one
  induction as generalizing n with
  | nil => exact absurd rfl has
  | cons a as ih =>
    obtain ⟨n, rfl⟩ : ∃ m, n = m + 1 := ⟨n - 1, by rw [List.length_cons] at hn; omega⟩
    rcases as with _ | ⟨a', as⟩
    · have ha := hparser a List.mem_cons_self ts
        (hts.mono fun t ht => List.mem_cons_of_mem separator ht)
      have hend := @skip_eq_none separator _
        (hts.mono fun t ht => List.mem_singleton.mp ht ▸ List.mem_cons_self)
      simp only [separated, separatedBy, ha, hend, Option.pure_def, Option.bind_eq_bind,
        Option.bind_some]
    · have ha := hparser a List.mem_cons_self
        (separator :: (separated separator tokens (a' :: as) ++ ts)) (stops_cons hseparator _)
      have hrest := ih nofun (fun b hb => hparser b (List.mem_cons_of_mem a hb))
        (Nat.le_of_succ_le_succ hn)
      simp only [separated, List.append_assoc, List.cons_append] at ha ⊢
      simp only [separatedBy, ha, skip, if_pos, hrest, Option.pure_def, Option.bind_eq_bind,
        Option.bind_some]

/-- What may not follow a stage: what may not follow a list of conditions or of items. -/
abbrev continuations : List Token :=
  [.symbol '.', .symbol '=', .symbol ',', wordToken "and"]

theorem stage_tokens {stage : Stage} (hstage : stage.Wf) {n : ℕ}
    (hn : stage.tokens.length ≤ n) {ts : List Token} (hts : Stops continuations ts) :
    ∃ keyword rest, stage.tokens = .word keyword :: rest ∧
      stageOf n keyword (rest ++ ts) = some (stage, ts) := by
  -- the keywords are tried in order, and each is the first token of one kind of stage
  cases stage with
  | filter conditions =>
    refine ⟨_, _, rfl, ?_⟩
    obtain ⟨hlength, hone⟩ :=
      @length_le_separated _ (wordToken "and") Condition.tokens conditions
    simp only [Stage.tokens, List.length_cons] at hn
    have hread := @separatedBy_tokens _ (wordToken "and") Condition.tokens (condition n)
      [.symbol '.'] (by decide) conditions hstage.1
      (fun c hc ts hts => condition_tokens (hstage.2 c hc).1 (hstage.2 c hc).2
        ((hone c hc).trans (by omega)) hts)
      n (by omega) ts (hts.mono (by simp))
    rw [stageOf, if_pos rfl, hread]
    rfl
  | top digits column =>
    refine ⟨_, _, rfl, ?_⟩
    rw [stageOf, if_neg (by decide), if_pos rfl]
    simp only [List.cons_append, word, wordToken, keywords, List.map_cons, List.map_nil, skip,
      List.nil_append, Option.pure_def, Option.bind_eq_bind, Option.bind_some, if_pos,
      String.ofList_toList]
  | project items =>
    refine ⟨_, _, rfl, ?_⟩
    obtain ⟨hlength, hone⟩ := @length_le_separated _ (.symbol ',') Projection.tokens items
    simp only [Stage.tokens, List.length_cons] at hn
    have hread := @separatedBy_tokens _ (.symbol ',') Projection.tokens (projection n)
      [.symbol '.', .symbol '='] (by decide) items hstage.1
      (fun p hp ts hts => projection_tokens (hstage.2 p hp) ((hone p hp).trans (by omega)) hts)
      n (by omega) ts (hts.mono (by simp))
    rw [stageOf, if_neg (by decide), if_neg (by decide), if_pos rfl, hread]
    rfl
  | order column =>
    refine ⟨_, _, rfl, ?_⟩
    rw [stageOf, if_neg (by decide), if_neg (by decide), if_neg (by decide), if_pos rfl]
    simp only [List.cons_append, word, wordToken, keywords, List.map_cons, List.map_nil, skip,
      List.nil_append, Option.pure_def, Option.bind_eq_bind, Option.bind_some, if_pos,
      String.ofList_toList]

/-- What may not follow a chain of stages. -/
abbrev noStage : List Token := .symbol '|' :: continuations

theorem stages_tokens {ss : List Stage} (hss : ∀ stage ∈ ss, stage.Wf) {depth n : ℕ}
    (hdepth : (stagesTokens ss).length ≤ depth) (hn : (stagesTokens ss).length < n)
    {ts : List Token} (hts : Stops noStage ts) :
    stages depth n (stagesTokens ss ++ ts) = some (ss, ts) := by
  induction ss generalizing n with
  | nil =>
    obtain ⟨n, rfl⟩ : ∃ m, n = m + 1 := ⟨n - 1, by omega⟩
    rw [stagesTokens, List.nil_append, stages]
    · rfl
    · rintro keyword rest rfl
      exact absurd List.mem_cons_self (hts _ rfl)
  | cons stage ss ih =>
    obtain ⟨n, rfl⟩ : ∃ m, n = m + 1 := ⟨n - 1, by omega⟩
    simp only [stagesTokens, List.length_cons, List.length_append] at hdepth hn
    have hrest := @ih (fun s hs => hss s (List.mem_cons_of_mem stage hs)) n (by omega) (by omega)
    -- another stage, or what comes after the chain, does not continue this one
    have hnext : Stops continuations (stagesTokens ss ++ ts) := by
      rcases ss with _ | ⟨stage', ss⟩
      · exact hts.mono fun t ht => List.mem_cons_of_mem _ ht
      · exact stops_cons (by decide) _
    obtain ⟨keyword, rest, htokens, hread⟩ :=
      stage_tokens (hss stage List.mem_cons_self) (show stage.tokens.length ≤ depth by omega) hnext
    rw [stagesTokens, List.cons_append, List.append_assoc, htokens, List.cons_append, stages, hread]
    simp only [hrest, Option.pure_def, Option.bind_eq_bind, Option.bind_some]

theorem pipeline_tokens {p : Pipeline} (hp : ∀ stage ∈ p.stages, stage.Wf) {n : ℕ}
    (hn : p.tokens.length ≤ n) {ts : List Token} (hts : Stops noStage ts) :
    pipeline n (p.tokens ++ ts) = some (p, ts) := by
  simp only [Pipeline.tokens, List.length_cons] at hn
  have hstages := stages_tokens hp (show (stagesTokens p.stages).length ≤ n by omega)
    (show (stagesTokens p.stages).length < n by omega) hts
  simp only [pipeline, Pipeline.tokens, List.cons_append, word, wordToken, hstages, Option.pure_def,
    Option.bind_eq_bind, Option.bind_some, String.ofList_toList]

/-- **A query is read back from its tokens.** -/
theorem parse_tokens {q : Query} (hq : q.Wf) : parse q.tokens = some q := by
  have hread : ∀ n, q.tokens.length ≤ n → query n q.tokens = some (q, []) := by
    intro n hn
    simp only [Query.tokens, List.length_cons, List.length_append] at hn
    have hscalar := @pipeline_tokens q.scalar hq.scalar n (by omega)
      (.symbol ')' :: .symbol ';' :: q.body.tokens) (stops_cons (by decide) _)
    have hbody := @pipeline_tokens q.body hq.body n (by omega) [] nofun
    rw [List.append_nil] at hbody
    simp only [query, Query.tokens, skip, word, wordToken, hscalar, hbody, Option.pure_def,
      Option.bind_eq_bind, Option.bind_some, if_pos, String.ofList_toList]
  rw [parse, hread _ (le_refl _)]

/-! ### Nothing else is read -/

theorem eq_append_of_skip {es ts rest : List Token} (h : skip es ts = some rest) :
    ts = es ++ rest := by
  induction es generalizing ts with
  | nil => exact Option.some.inj h
  | cons e es ih =>
    rcases ts with _ | ⟨t, ts⟩
    · cases h
    · rw [skip] at h
      split at h
      · rename_i heq
        rw [heq, ih h, List.cons_append]
      · cases h

theorem eq_cons_of_word {ts rest : List Token} {chars : List Char}
    (h : word ts = some (chars, rest)) : ts = .word chars :: rest := by
  unfold word at h
  split at h
  · cases h
    rfl
  · cases h

theorem wordToken_ofList (chars : List Char) :
    wordToken (String.ofList chars) = .word chars := by
  rw [wordToken, String.toList_ofList]

/-- An expression that was read stands at the start of the tokens. -/
theorem eq_append_of_expr {n : ℕ} {e : Expr} {ts rest : List Token}
    (h : expr n ts = some (e, rest)) : ts = e.tokens ++ rest := by
  -- the fuel bounds how deep the expression is
  induction n generalizing e ts rest with
  | zero => cases h
  | succ n ih =>
    unfold expr at h
    split at h
    · cases h
    · cases h
      rw [Expr.tokens, String.toList_ofList]
      rfl
    · cases Nat.succ.inj ‹n + 1 = _ + 1›
      simp only [Option.pure_def, Option.bind_eq_bind, Option.bind_eq_some_iff, Prod.exists] at h
      obtain ⟨left, ts₁, hleft, ts₂, hequals, right, ts₃, hright, ts₄, hclose, heq⟩ := h
      cases heq
      rw [ih hleft, eq_append_of_skip hequals, ih hright, eq_append_of_skip hclose]
      simp [Expr.tokens]
    · split at h
      · cases h
        rfl
      · split at h
        · rename_i hname
          cases Nat.succ.inj ‹n + 1 = _ + 1›
          simp only [Option.pure_def, Option.bind_eq_bind, Option.bind_eq_some_iff,
            Prod.exists] at h
          obtain ⟨ts₁, hopen, e', ts₂, he, ts₃, hclose, heq⟩ := h
          cases heq
          rw [eq_append_of_skip hopen, ih he, eq_append_of_skip hclose, hname]
          simp [Expr.tokens, wordToken]
        · split at h
          · cases h
            rw [Expr.tokens, wordToken_ofList, wordToken_ofList]
            rfl
          · cases h
            rw [Expr.tokens, wordToken_ofList]
            rfl
    · cases h

theorem eq_append_of_condition {n : ℕ} {c : Condition} {ts rest : List Token}
    (h : condition n ts = some (c, rest)) : ts = c.tokens ++ rest := by
  simp only [condition, Option.pure_def, Option.bind_eq_bind, Option.bind_eq_some_iff,
    Prod.exists] at h
  obtain ⟨left, ts₁, hleft, ts₂, hequals, right, ts₃, hright, heq⟩ := h
  cases heq
  rw [eq_append_of_expr hleft, eq_append_of_skip hequals, eq_append_of_expr hright]
  simp [Condition.tokens]

theorem eq_append_of_projection {n : ℕ} {p : Projection} {ts rest : List Token}
    (h : projection n ts = some (p, rest)) : ts = p.tokens ++ rest := by
  unfold projection at h
  split at h
  all_goals
    simp only [Option.pure_def, Option.bind_eq_bind, Option.bind_eq_some_iff, Prod.exists] at h
    obtain ⟨value, ts₁, hvalue, heq⟩ := h
    cases heq
    rw [eq_append_of_expr hvalue]
    simp [Projection.tokens, wordToken_ofList]

theorem eq_append_of_separatedBy {α : Type} {separator : Token} {parser : Parser α}
    {tokens : α → List Token}
    (hparser : ∀ a ts rest, parser ts = some (a, rest) → ts = tokens a ++ rest) {n : ℕ}
    {as : List α} {ts rest : List Token} (h : separatedBy separator parser n ts = some (as, rest)) :
    ts = separated separator tokens as ++ rest ∧ as ≠ [] := by
  induction n generalizing as ts rest with
  | zero => cases h
  | succ n ih =>
    simp only [separatedBy, Option.pure_def, Option.bind_eq_bind, Option.bind_eq_some_iff,
      Prod.exists] at h
    obtain ⟨a, ts₁, ha, h⟩ := h
    split at h
    · rename_i ts₂ hskip
      rw [Option.bind_eq_some_iff, Prod.exists] at h
      obtain ⟨as', ts₃, has, heq⟩ := h
      cases heq
      obtain ⟨hrest, hne⟩ := ih has
      rw [hparser a ts ts₁ ha, eq_append_of_skip hskip, hrest]
      rcases as' with _ | ⟨a', as'⟩
      · exact absurd rfl hne
      · exact ⟨by simp [separated], nofun⟩
    · cases h
      exact ⟨hparser a ts rest ha, nofun⟩

theorem eq_append_of_stageOf {n : ℕ} {keyword : List Char} {stage : Stage} {ts rest : List Token}
    (h : stageOf n keyword ts = some (stage, rest)) :
    .word keyword :: ts = stage.tokens ++ rest := by
  -- one keyword after another
  unfold stageOf at h
  split at h
  · rename_i hkeyword
    simp only [Option.pure_def, Option.bind_eq_bind, Option.bind_eq_some_iff, Prod.exists] at h
    obtain ⟨conditions, ts₁, hread, heq⟩ := h
    cases heq
    rw [(eq_append_of_separatedBy (fun c ts rest => eq_append_of_condition) hread).1, hkeyword]
    rfl
  split at h
  · rename_i hkeyword
    simp only [Option.pure_def, Option.bind_eq_bind, Option.bind_eq_some_iff, Prod.exists] at h
    obtain ⟨digits, ts₁, hdigits, ts₂, hby, column, ts₃, hcolumn, ts₄, hdesc, heq⟩ := h
    cases heq
    rw [eq_cons_of_word hdigits, eq_append_of_skip hby, eq_cons_of_word hcolumn,
      eq_append_of_skip hdesc, hkeyword]
    simp only [Stage.tokens, wordToken_ofList]
    rfl
  split at h
  · rename_i hkeyword
    simp only [Option.pure_def, Option.bind_eq_bind, Option.bind_eq_some_iff, Prod.exists] at h
    obtain ⟨items, ts₁, hread, heq⟩ := h
    cases heq
    rw [(eq_append_of_separatedBy (fun p ts rest => eq_append_of_projection) hread).1, hkeyword]
    rfl
  split at h
  · rename_i hkeyword
    simp only [Option.pure_def, Option.bind_eq_bind, Option.bind_eq_some_iff, Prod.exists] at h
    obtain ⟨ts₁, hby, column, ts₂, hcolumn, ts₃, hasc, heq⟩ := h
    cases heq
    rw [eq_append_of_skip hby, eq_cons_of_word hcolumn, eq_append_of_skip hasc, hkeyword]
    simp only [Stage.tokens, wordToken_ofList]
    rfl
  · cases h

theorem eq_append_of_stages {depth n : ℕ} {ss : List Stage} {ts rest : List Token}
    (h : stages depth n ts = some (ss, rest)) : ts = stagesTokens ss ++ rest := by
  induction n generalizing ss ts rest with
  | zero => cases h
  | succ n ih =>
    unfold stages at h
    split at h
    · cases h
    · cases Nat.succ.inj ‹n + 1 = _ + 1›
      simp only [Option.pure_def, Option.bind_eq_bind, Option.bind_eq_some_iff, Prod.exists] at h
      obtain ⟨stage, ts₁, hstage, others, ts₂, hothers, heq⟩ := h
      cases heq
      rw [stagesTokens, List.cons_append, List.append_assoc, ← ih hothers,
        ← eq_append_of_stageOf hstage]
    · cases h
      rfl

theorem eq_append_of_pipeline {n : ℕ} {p : Pipeline} {ts rest : List Token}
    (h : pipeline n ts = some (p, rest)) : ts = p.tokens ++ rest := by
  simp only [pipeline, Option.pure_def, Option.bind_eq_bind, Option.bind_eq_some_iff,
    Prod.exists] at h
  obtain ⟨table, ts₁, htable, ss, ts₂, hstages, heq⟩ := h
  cases heq
  rw [eq_cons_of_word htable, eq_append_of_stages hstages, Pipeline.tokens, wordToken_ofList]
  rfl

/-- **Only the tokens of a query are read as it.** -/
theorem eq_tokens_of_parse {ts : List Token} {q : Query} (h : parse ts = some q) :
    ts = q.tokens := by
  unfold parse at h
  split at h
  · rename_i q' hread
    cases h
    simp only [query, Option.pure_def, Option.bind_eq_bind, Option.bind_eq_some_iff,
      Prod.exists] at hread
    obtain ⟨ts₁, hlet, name, ts₂, hname, ts₃, hopen, scalar, ts₄, hscalar, ts₅, hclose,
      body, ts₆, hbody, heq⟩ := hread
    cases heq
    rw [eq_append_of_skip hlet, eq_cons_of_word hname, eq_append_of_skip hopen,
      eq_append_of_pipeline hscalar, eq_append_of_skip hclose, eq_append_of_pipeline hbody]
    simp [Query.tokens, wordToken_ofList]
  · cases h

/-- **A text is read as a query exactly if it has its tokens.** -/
theorem read_eq_some_iff {escapes : Escapes} {text : String} {q : Query} (hq : q.Wf) :
    read escapes text = some q ↔ lex escapes text.toList = some q.tokens := by
  rw [read, Option.bind_eq_some_iff]
  constructor
  · rintro ⟨ts, hlex, hparse⟩
    rw [hlex, eq_tokens_of_parse hparse]
  · exact fun h => ⟨q.tokens, h, parse_tokens hq⟩

end WebInsights.Kql
