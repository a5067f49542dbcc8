/-
A lexer for queries, one character at a time.

The tokens are words, single symbols and literals in double quotes. A literal ends at the
first quote that is not escaped; a backslash starts an escape. Which escapes there are is a
parameter (`Escapes`): all that is used of them is that an escape is no shorter than what it
stands for, and that `\"` is the only one with a quote in it.

The result for a literal whose value is put into a text as it is
(`Template.Sound.keeps_iff`): the text has the tokens it is meant to have exactly when the
value is plain, that is, when it has neither a quote nor a backslash.
-/
import Mathlib.Data.List.Induction
import Mathlib.Order.Basic
import Mathlib.Tactic.Common

set_option autoImplicit false

namespace WebInsights.Kql

/-! ## The lexer -/

inductive Token where
  | word (chars : List Char)
  | symbol (c : Char)
  | literal (chars : List Char)
  deriving DecidableEq

/-- What the characters after a backslash are: part of a longer escape, a whole one that
stands for some characters, or none. -/
inductive Escape where
  | more
  | stands (chars : List Char)
  | invalid

/-- The escapes of a language.

* An escape is no shorter than what it stands for, its backslash not counted.
* `\"` stands for a quote, and no other escape has a quote in it.
-/
structure Escapes where
  escape : List Char → Escape
  shorter : ∀ seq chars, escape seq = .stands chars → chars.length ≤ seq.length
  quote : escape ['"'] = .stands ['"']
  no_quote : ∀ seq, seq ≠ [] → escape (seq ++ ['"']) = .invalid

/-- Where the lexer is. -/
inductive Mode where
  | between
  | word (chars : List Char)
  | literal (chars : List Char)
  | escape (chars seq : List Char)
  | failed
  deriving DecidableEq

structure LexState where
  tokens : List Token
  mode : Mode
  deriving DecidableEq

def isWordChar (c : Char) : Bool := c.isAlphanum || c = '_'

namespace LexState

/-- The tokens, with the word that ends here. -/
def flushed (s : LexState) : List Token :=
  match s.mode with
  | .word chars => s.tokens ++ [.word chars]
  | _ => s.tokens

/-- A character outside of words and literals. -/
def start (tokens : List Token) (c : Char) : LexState :=
  if c = '"' then ⟨tokens, .literal []⟩
  else if c.isWhitespace = true then ⟨tokens, .between⟩
  else if isWordChar c = true then ⟨tokens, .word [c]⟩
  else ⟨tokens ++ [.symbol c], .between⟩

def step (escapes : Escapes) (s : LexState) (c : Char) : LexState :=
  match s.mode with
  | .between => start s.tokens c
  | .word chars =>
    if isWordChar c = true then ⟨s.tokens, .word (chars ++ [c])⟩ else start s.flushed c
  | .literal chars =>
    if c = '"' then ⟨s.tokens ++ [.literal chars], .between⟩
    else if c = '\\' then ⟨s.tokens, .escape chars []⟩
    else ⟨s.tokens, .literal (chars ++ [c])⟩
  | .escape chars seq =>
    match escapes.escape (seq ++ [c]) with
    | .more => ⟨s.tokens, .escape chars (seq ++ [c])⟩
    | .stands decoded => ⟨s.tokens, .literal (chars ++ decoded)⟩
    | .invalid => ⟨s.tokens, .failed⟩
  | .failed => s

def run (escapes : Escapes) (s : LexState) (text : List Char) : LexState :=
  text.foldl (step escapes) s

/-- The tokens, if no literal is left open. -/
def finish (s : LexState) : Option (List Token) :=
  match s.mode with
  | .between => some s.flushed
  | .word _ => some s.flushed
  | _ => none

end LexState

def lex (escapes : Escapes) (text : List Char) : Option (List Token) :=
  (LexState.run escapes ⟨[], .between⟩ text).finish

namespace LexState

variable {escapes : Escapes}

@[simp] theorem run_nil (s : LexState) : s.run escapes [] = s := rfl

@[simp] theorem run_cons (s : LexState) (c : Char) (text : List Char) :
    s.run escapes (c :: text) = (s.step escapes c).run escapes text := rfl

@[simp] theorem run_append (s : LexState) (text text' : List Char) :
    s.run escapes (text ++ text') = (s.run escapes text).run escapes text' := by
  unfold run
  rw [List.foldl_append]

/-! ### Tokens stay -/

/-- What the lexer does does not depend on the tokens before. -/
def after (tokens : List Token) (s : LexState) : LexState := ⟨tokens ++ s.tokens, s.mode⟩

theorem start_after (tokens tokens' : List Token) (c : Char) :
    start (tokens ++ tokens') c = (start tokens' c).after tokens := by
  unfold start after
  by_cases hquote : c = '"'
  · simp only [if_pos hquote]
  by_cases hspace : c.isWhitespace = true
  · simp only [if_neg hquote, if_pos hspace]
  by_cases hword : isWordChar c = true
  · simp only [if_neg hquote, if_neg hspace, if_pos hword]
  · simp only [if_neg hquote, if_neg hspace, if_neg hword, List.append_assoc]

theorem flushed_after (tokens : List Token) (s : LexState) :
    (s.after tokens).flushed = tokens ++ s.flushed := by
  obtain ⟨tokens', mode⟩ := s
  cases mode with
  | word chars => exact List.append_assoc tokens tokens' _
  | _ => rfl

theorem step_after (tokens : List Token) (s : LexState) (c : Char) :
    (s.after tokens).step escapes c = (s.step escapes c).after tokens := by
  have hflushed := flushed_after tokens s
  obtain ⟨tokens', mode⟩ := s
  -- the tokens that were read are never looked at
  cases mode with
  | between => exact start_after tokens tokens' c
  | word chars =>
    simp only [step, after] at hflushed ⊢
    by_cases hword : isWordChar c = true
    · simp only [if_pos hword]
    · simp only [if_neg hword, hflushed]
      exact start_after tokens _ c
  | literal chars =>
    simp only [step, after]
    by_cases hquote : c = '"'
    · simp only [if_pos hquote, List.append_assoc]
    by_cases hslash : c = '\\'
    · simp only [if_neg hquote, if_pos hslash]
    · simp only [if_neg hquote, if_neg hslash]
  | escape chars seq =>
    simp only [step, after]
    cases escapes.escape (seq ++ [c]) <;> rfl
  | failed => rfl

theorem run_after (tokens : List Token) (s : LexState) (text : List Char) :
    (s.after tokens).run escapes text = (s.run escapes text).after tokens := by
  induction text generalizing s with
  | nil => rfl
  | cons c text ih => rw [run_cons, step_after, ih, run_cons]

theorem finish_after (tokens : List Token) (s : LexState) :
    (s.after tokens).finish = s.finish.map (tokens ++ ·) := by
  have hflushed := flushed_after tokens s
  obtain ⟨tokens', mode⟩ := s
  cases mode with
  | between => exact congrArg some hflushed
  | word chars => exact congrArg some hflushed
  | _ => rfl

/-- What was lexed stays in front. -/
theorem prefix_run (s : LexState) (text : List Char) :
    s.tokens <+: (s.run escapes text).tokens := by
  have hrun : s.run escapes text = (run escapes ⟨[], s.mode⟩ text).after s.tokens := by
    rw [← run_after]
    simp only [after, List.append_nil]
  rw [hrun]
  exact List.prefix_append s.tokens _

theorem prefix_finish {s : LexState} {tokens : List Token} (h : s.finish = some tokens) :
    s.tokens <+: tokens := by
  obtain ⟨tokens', mode⟩ := s
  cases mode with
  | between =>
    obtain rfl := Option.some.inj h
    exact List.prefix_rfl
  | word chars =>
    obtain rfl := Option.some.inj h
    exact List.prefix_append tokens' _
  | _ => cases h

theorem run_failed (tokens : List Token) (text : List Char) :
    run escapes ⟨tokens, .failed⟩ text = ⟨tokens, .failed⟩ := by
  induction text with
  | nil => rfl
  | cons c text ih => exact ih

/-- A quote after a lexed text opens a literal. -/
theorem step_quote {s : LexState} {tokens : List Token} (h : s.finish = some tokens) :
    s.step escapes '"' = ⟨tokens, .literal []⟩ := by
  obtain ⟨tokens', mode⟩ := s
  cases mode with
  | between =>
    obtain rfl := Option.some.inj h
    rfl
  | word chars =>
    obtain rfl := Option.some.inj h
    rfl
  | _ => cases h

end LexState

/-- A text that is lexed after other tokens. -/
theorem finish_run_between {escapes : Escapes} {text : List Char} {tokens : List Token}
    (h : lex escapes text = some tokens) (before : List Token) :
    (LexState.run escapes ⟨before, .between⟩ text).finish = some (before ++ tokens) := by
  have hafter : (⟨before, .between⟩ : LexState) =
      (⟨[], .between⟩ : LexState).after before := by
    simp only [LexState.after, List.append_nil]
  rw [hafter, LexState.run_after, LexState.finish_after]
  exact congrArg (Option.map (before ++ ·)) h

/-! ### Texts without a backslash -/

theorem run_escapes {escapes escapes' : Escapes} {text : List Char} (h : '\\' ∉ text)
    {s : LexState} (hmode : ∀ chars seq, s.mode ≠ .escape chars seq) :
    s.run escapes text = s.run escapes' text := by
  induction text generalizing s with
  | nil => rfl
  | cons c text ih =>
    have hslash : c ≠ '\\' := fun heq => h (heq ▸ List.mem_cons_self)
    -- a step enters an escape by a backslash only
    have hstart : ∀ tokens chars seq, (LexState.start tokens c).mode ≠ .escape chars seq := by
      intro tokens chars seq
      unfold LexState.start
      split_ifs <;> exact nofun
    obtain ⟨tokens, mode⟩ := s
    have hstep : LexState.step escapes ⟨tokens, mode⟩ c = LexState.step escapes' ⟨tokens, mode⟩ c ∧
        ∀ chars seq, (LexState.step escapes ⟨tokens, mode⟩ c).mode ≠ .escape chars seq := by
      cases mode with
      | between => exact ⟨rfl, hstart tokens⟩
      | word chars =>
        refine ⟨rfl, ?_⟩
        simp only [LexState.step]
        split_ifs
        · exact nofun
        · exact hstart _
      | literal chars =>
        refine ⟨rfl, ?_⟩
        simp only [LexState.step, if_neg hslash]
        split_ifs <;> exact nofun
      | escape chars seq => exact absurd rfl (hmode chars seq)
      | failed => exact ⟨rfl, nofun⟩
    rw [LexState.run_cons, LexState.run_cons, ← hstep.1]
    exact ih (fun hmem => h (List.mem_cons_of_mem c hmem)) hstep.2

/-- Where no backslash is, it does not matter which escapes there are. -/
theorem lex_escapes {text : List Char} (h : '\\' ∉ text) (escapes escapes' : Escapes) :
    lex escapes text = lex escapes' text :=
  congrArg LexState.finish (run_escapes h nofun)

/-! ## A value in quotes -/

/-- A value with neither a quote nor a backslash. -/
def Plain (value : List Char) : Prop := ∀ c ∈ value, c ≠ '"' ∧ c ≠ '\\'

instance (value : List Char) : Decidable (Plain value) :=
  decidable_of_iff (value.all fun c => c ≠ '"' && c ≠ '\\') (by simp [Plain])

/-- Where the lexer can be once it read these characters of a value, after a quote. -/
inductive Inside (tokens : List Token) (value : List Char) : LexState → Prop
  | plain (h : Plain value) : Inside tokens value ⟨tokens, .literal value⟩
  | shorter {chars : List Char} (h : chars.length < value.length) :
      Inside tokens value ⟨tokens, .literal chars⟩
  | escape {chars seq before : List Char} (hvalue : value = before ++ '\\' :: seq)
      (h : chars.length ≤ before.length) : Inside tokens value ⟨tokens, .escape chars seq⟩
  | closed {chars : List Char} {s : LexState} (h : chars.length < value.length)
      (hstays : tokens ++ [.literal chars] <+: s.tokens) : Inside tokens value s
  | failed {tokens' : List Token} : Inside tokens value ⟨tokens', .failed⟩

section

variable {escapes : Escapes} {tokens : List Token} {value : List Char}

/-- **One more character** of a value. -/
theorem Inside.step {s : LexState} (h : Inside tokens value s) (c : Char) :
    Inside tokens (value ++ [c]) (s.step escapes c) := by
  have hlength : (value ++ [c]).length = value.length + 1 := List.length_append
  -- in a literal whose characters so far are no more than those of the value
  have hliteral : ∀ chars : List Char, chars.length ≤ value.length →
      (c ≠ '"' → c ≠ '\\' → Inside tokens (value ++ [c]) ⟨tokens, .literal (chars ++ [c])⟩) →
      Inside tokens (value ++ [c]) (LexState.step escapes ⟨tokens, .literal chars⟩ c) := by
    intro chars hchars hother
    unfold LexState.step
    by_cases hquote : c = '"'
    · simp only [if_pos hquote]
      exact .closed (by omega) List.prefix_rfl
    by_cases hslash : c = '\\'
    · simp only [if_neg hquote, if_pos hslash]
      exact .escape (by rw [hslash]) hchars
    · simp only [if_neg hquote, if_neg hslash]
      exact hother hquote hslash
  cases h with
  | plain h =>
    refine hliteral value (Nat.le_refl _) fun hquote hslash => .plain ?_
    intro c' hc'
    rcases List.mem_append.mp hc' with hc' | hc'
    · exact h c' hc'
    · rw [List.mem_singleton.mp hc']
      exact ⟨hquote, hslash⟩
  | shorter h =>
    refine hliteral _ (Nat.le_of_lt h) fun _ _ => .shorter ?_
    simp only [List.length_append, List.length_singleton]
    omega
  | @escape chars seq before hvalue h =>
    simp only [LexState.step]
    rcases hread : escapes.escape (seq ++ [c]) with _ | decoded | _
    · have hsplit : value ++ [c] = before ++ '\\' :: (seq ++ [c]) := by
        rw [hvalue, List.append_assoc, List.cons_append]
      exact .escape hsplit h
    · -- the escape stands for fewer characters than it has, with its backslash
      have hdecoded := escapes.shorter _ _ hread
      refine .shorter ?_
      rw [hvalue]
      simp only [List.length_append, List.length_cons, List.length_nil] at hdecoded ⊢
      omega
    · exact .failed
  | closed h hstays =>
    exact .closed (by omega) (hstays.trans (LexState.prefix_run s [c]))
  | failed => exact .failed

/-- Where the lexer can be once it read a value. -/
theorem inside_run (escapes : Escapes) (tokens : List Token) (value : List Char) :
    Inside tokens value (LexState.run escapes ⟨tokens, .literal []⟩ value) := by
  induction value using List.reverseRecOn with
  | nil => exact .plain nofun
  | append_singleton value c ih =>
    rw [LexState.run_append]
    exact ih.step c

/-- A plain value is read as it is. -/
theorem run_plain (h : Plain value) (chars : List Char) :
    LexState.run escapes ⟨tokens, .literal chars⟩ value = ⟨tokens, .literal (chars ++ value)⟩ := by
  induction value generalizing chars with
  | nil => rw [LexState.run_nil, List.append_nil]
  | cons c value ih =>
    obtain ⟨hquote, hslash⟩ := h c List.mem_cons_self
    have hstep : LexState.step escapes ⟨tokens, .literal chars⟩ c =
        ⟨tokens, .literal (chars ++ [c])⟩ := by
      simp only [LexState.step, if_neg hquote, if_neg hslash]
    rw [LexState.run_cons, hstep, ih fun c' hc' => h c' (List.mem_cons_of_mem c hc'),
      List.append_assoc, List.singleton_append]

/-- What stands before the first quote of a text without a backslash. -/
theorem exists_gap {text : List Char} (hslash : '\\' ∉ text) (hquote : '"' ∈ text)
    (hhead : text.head? ≠ some '"') :
    ∃ gap c rest, text = gap ++ c :: '"' :: rest ∧ Plain (gap ++ [c]) := by
  induction text with
  | nil => cases hquote
  | cons c text ih =>
    have hc : c ≠ '"' ∧ c ≠ '\\' :=
      ⟨fun heq => hhead (congrArg some heq), fun heq => hslash (heq ▸ List.mem_cons_self)⟩
    by_cases hnext : text.head? = some '"'
    · obtain ⟨rest, rfl⟩ := List.head?_eq_some_iff.mp hnext
      refine ⟨[], c, rest, rfl, fun c' hc' => ?_⟩
      rw [List.mem_singleton.mp hc']
      exact hc
    · have hmem : '"' ∈ text := (List.mem_cons.mp hquote).resolve_left fun heq => hc.1 heq.symm
      obtain ⟨gap, c', rest, rfl, hplain⟩ :=
        ih (fun h => hslash (List.mem_cons_of_mem c h)) hmem hnext
      refine ⟨c :: gap, c', rest, rfl, fun d hd => ?_⟩
      rcases List.mem_cons.mp hd with rfl | hd
      · exact hc
      · exact hplain d hd

/-- A value in quotes is lexed to a literal, with the tokens before it, only if it is plain.
What comes behind it is more than a quote and has no backslash up to its next quote. -/
theorem plain_of_lexed {gap rest : List Char} {c : Char} (hgap : Plain (gap ++ [c]))
    {after : List Token}
    (h : (LexState.run escapes ⟨tokens, .literal []⟩
      (value ++ '"' :: (gap ++ c :: '"' :: rest))).finish =
        some (tokens ++ .literal value :: after)) : Plain value := by
  -- the literal that is closed first is this one
  have hfirst : ∀ {chars : List Char} {s : LexState} {text : List Char},
      tokens ++ [.literal chars] <+: s.tokens →
      (s.run escapes text).finish = some (tokens ++ .literal value :: after) → chars = value := by
    intro chars s text hclosed hfinish
    obtain ⟨others, hothers⟩ :=
      (hclosed.trans (LexState.prefix_run s text)).trans (LexState.prefix_finish hfinish)
    rw [List.append_assoc, List.append_right_inj, List.singleton_append, List.cons.injEq] at hothers
    exact Token.literal.inj hothers.1
  rw [LexState.run_append] at h
  have hinside := inside_run escapes tokens value
  generalize LexState.run escapes ⟨tokens, .literal []⟩ value = s at h hinside
  cases hinside with
  | plain hplain => exact hplain
  | @shorter chars hchars =>
    rw [LexState.run_cons] at h
    have heq : chars = value := hfirst List.prefix_rfl h
    rw [heq] at hchars
    exact absurd hchars (Nat.lt_irrefl _)
  | @escape chars seq before hvalue hchars =>
    by_cases hseq : seq = []
    · -- the quote is escaped, and the literal goes on to the next one
      subst hseq
      have hopen : LexState.step escapes ⟨tokens, .escape chars []⟩ '"' =
          ⟨tokens, .literal (chars ++ ['"'])⟩ := by
        simp only [LexState.step, List.nil_append, escapes.quote]
      have hsplit : gap ++ c :: '"' :: rest = (gap ++ [c]) ++ '"' :: rest := by
        rw [List.append_assoc, List.singleton_append]
      rw [LexState.run_cons, hopen, hsplit, LexState.run_append, run_plain hgap,
        LexState.run_cons] at h
      have heq : chars ++ ['"'] ++ (gap ++ [c]) = value := hfirst List.prefix_rfl h
      rw [hvalue, ← List.append_assoc] at heq
      have hlast : c = '\\' := List.singleton_inj.mp (List.append_inj' heq rfl).2
      exact absurd hlast (hgap c (by simp)).2
    · have hfailed : LexState.step escapes ⟨tokens, .escape chars seq⟩ '"' = ⟨tokens, .failed⟩ := by
        simp only [LexState.step, escapes.no_quote seq hseq]
      rw [LexState.run_cons, hfailed, LexState.run_failed] at h
      cases h
  | closed hchars hclosed =>
    have heq := hfirst hclosed h
    rw [heq] at hchars
    exact absurd hchars (Nat.lt_irrefl _)
  | failed =>
    rw [LexState.run_failed] at h
    cases h

end

/-! ## A text with a value in two places -/

/-- The escapes of one character. -/
def simpleEscape (c : Char) : Escape :=
  match c with
  | '"' => .stands ['"']
  | '\\' => .stands ['\\']
  | 'n' => .stands ['\n']
  | 'r' => .stands ['\r']
  | 't' => .stands ['\t']
  | _ => .invalid

def Escapes.simple : Escapes where
  escape
    | [c] => simpleEscape c
    | _ => .invalid
  shorter := by
    intro seq chars h
    split at h
    · unfold simpleEscape at h
      split at h <;> cases h <;> exact Nat.le_refl _
    · cases h
  quote := rfl
  no_quote := by
    intro seq hseq
    rcases seq with _ | ⟨c, _ | ⟨c', seq⟩⟩
    · exact absurd rfl hseq
    · rfl
    · rfl

/-- The three pieces of a text around two quoted places. -/
structure Template where
  before : String
  between : String
  after : String

namespace Template

/-- The text with a value put into both places, as it is. -/
def fill (t : Template) (value : String) : String :=
  t.before ++ "\"" ++ value ++ "\"" ++ t.between ++ "\"" ++ value ++ "\"" ++ t.after

/-- The tokens the text is meant to have: those of the pieces, and the value itself as a
literal in each place. -/
def tokens (escapes : Escapes) (t : Template) (value : String) : Option (List Token) := do
  let before ← lex escapes t.before.toList
  let between ← lex escapes t.between.toList
  let after ← lex escapes t.after.toList
  pure (before ++ .literal value.toList :: (between ++ .literal value.toList :: after))

/-- A piece of whole tokens without a backslash. -/
structure Clean (piece : String) : Prop where
  noBackslash : '\\' ∉ piece.toList
  lexed : (lex Escapes.simple piece.toList).isSome = true

/-- [`Clean`], of the characters themselves. -/
theorem clean_of {piece : String} {text : List Char} (h : piece = String.ofList text)
    (hslash : '\\' ∉ text) (hlex : (lex Escapes.simple text).isSome = true) : Clean piece := by
  have htext : piece.toList = text := by rw [h, String.toList_ofList]
  exact ⟨htext ▸ hslash, htext ▸ hlex⟩

/-- A piece has the same tokens whatever the escapes are. -/
theorem Clean.lex {piece : String} (h : Clean piece) (escapes : Escapes) :
    ∃ tokens, Kql.lex escapes piece.toList = some tokens := by
  rw [lex_escapes h.noBackslash escapes Escapes.simple]
  exact Option.isSome_iff_exists.mp h.lexed

/-- What is asked of a template: its pieces are clean, and no quote comes right after the
first place. -/
structure Sound (t : Template) : Prop where
  before : Clean t.before
  between : Clean t.between
  after : Clean t.after
  gap : ∃ c rest, t.between.toList = c :: rest ∧ c ≠ '"'

/-- No quote comes right after the first place. -/
theorem gap_of {piece : String} {c : Char} {text : List Char}
    (h : piece = String.ofList (c :: text)) (hc : c ≠ '"') :
    ∃ c rest, piece.toList = c :: rest ∧ c ≠ '"' :=
  ⟨c, text, by rw [h, String.toList_ofList], hc⟩

theorem toList_fill (t : Template) (value : String) :
    (t.fill value).toList = t.before.toList ++ '"' :: (value.toList ++ '"' ::
      (t.between.toList ++ '"' :: (value.toList ++ '"' :: t.after.toList))) := by
  simp [fill]

/-- The lexer gets to the first place of a text. -/
theorem lex_fill_open {escapes : Escapes} {t : Template} {before : List Token}
    (hbefore : Kql.lex escapes t.before.toList = some before) (value : String) :
    Kql.lex escapes (t.fill value).toList =
      (LexState.run escapes ⟨before, .literal []⟩ (value.toList ++ '"' ::
        (t.between.toList ++ '"' :: (value.toList ++ '"' :: t.after.toList)))).finish := by
  rw [toList_fill, Kql.lex, LexState.run_append, LexState.run_cons, LexState.step_quote hbefore]

/-- **The tokens of a text whose value leaves the lexer in a literal**: in each place those
that the value begins with, and what is left of it as a literal. -/
theorem lex_fill {escapes : Escapes} {t : Template} {before between after own : List Token}
    {value : String} {chars : List Char}
    (hbefore : Kql.lex escapes t.before.toList = some before)
    (hbetween : Kql.lex escapes t.between.toList = some between)
    (hafter : Kql.lex escapes t.after.toList = some after)
    (hvalue : LexState.run escapes ⟨[], .literal []⟩ value.toList = ⟨own, .literal chars⟩) :
    Kql.lex escapes (t.fill value).toList =
      some (before ++
        (own ++ .literal chars :: (between ++ (own ++ .literal chars :: after)))) := by
  have hplace : ∀ (tokens : List Token) (text : List Char),
      LexState.run escapes ⟨tokens, .literal []⟩ (value.toList ++ '"' :: text) =
        LexState.run escapes ⟨tokens ++ own ++ [.literal chars], .between⟩ text := by
    intro tokens text
    have hopen : (⟨tokens, .literal []⟩ : LexState) =
        (⟨[], .literal []⟩ : LexState).after tokens := by
      simp only [LexState.after, List.append_nil]
    rw [LexState.run_append, hopen, LexState.run_after, hvalue]
    rfl
  rw [lex_fill_open hbefore, hplace, LexState.run_append, LexState.run_cons,
    LexState.step_quote (finish_run_between hbetween _), hplace, finish_run_between hafter]
  simp

/-- The text has the tokens it is meant to have. -/
def Keeps (escapes : Escapes) (t : Template) (value : String) : Prop :=
  ∃ tokens, t.tokens escapes value = some tokens ∧
    lex escapes (t.fill value).toList = some tokens

/-- **A value keeps the tokens of the text exactly when it is plain.** -/
theorem Sound.keeps_iff {t : Template} (h : t.Sound) (escapes : Escapes) (value : String) :
    t.Keeps escapes value ↔ Plain value.toList := by
  obtain ⟨before, hbefore⟩ := h.before.lex escapes
  obtain ⟨between, hbetween⟩ := h.between.lex escapes
  obtain ⟨after, hafter⟩ := h.after.lex escapes
  have htokens : t.tokens escapes value =
      some (before ++ .literal value.toList :: (between ++ .literal value.toList :: after)) := by
    simp only [tokens, hbefore, hbetween, hafter]
    rfl
  constructor
  · rintro ⟨all, hall, hlex⟩
    rw [htokens] at hall
    obtain rfl := Option.some.inj hall
    -- between the two literals the text closes a quote and opens the next
    obtain ⟨gap, c, rest, hgap, hplain⟩ :
        ∃ gap c rest, t.between.toList ++ ['"'] = gap ++ c :: '"' :: rest ∧ Plain (gap ++ [c]) := by
      obtain ⟨c, rest, hbetween, hc⟩ := h.gap
      refine exists_gap ?_ (by simp) ?_
      · have hslash := h.between.noBackslash
        simp [hslash]
      · rw [hbetween]
        simpa using hc
    have hsplit : t.between.toList ++ '"' :: (value.toList ++ '"' :: t.after.toList) =
        gap ++ c :: '"' :: (rest ++ (value.toList ++ '"' :: t.after.toList)) := by
      have hquote : t.between.toList ++ '"' :: (value.toList ++ '"' :: t.after.toList) =
          (t.between.toList ++ ['"']) ++ (value.toList ++ '"' :: t.after.toList) := by simp
      rw [hquote, hgap]
      simp
    rw [lex_fill_open hbefore, hsplit] at hlex
    exact plain_of_lexed hplain hlex
  · intro hplain
    refine ⟨_, htokens, ?_⟩
    have hvalue : LexState.run escapes ⟨[], .literal []⟩ value.toList =
        ⟨[], .literal value.toList⟩ := run_plain hplain []
    exact lex_fill hbefore hbetween hafter hvalue

end Template

end WebInsights.Kql
