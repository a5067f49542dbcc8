/-
`JSON.stringify` of a value.

Strings are quoted with the escapes of the standard. What has no JSON, `undefined`, is
left out of an object and `null` in an array; on its own it has no text.
-/
import WebInsights.Js.Lodash

set_option autoImplicit false

namespace WebInsights.Js

def hexDigit (n : ℕ) : Char :=
  if n < 10 then Char.ofNat (48 + n) else Char.ofNat (87 + n)

/-- One character of a quoted string. -/
def quoteChar (c : Char) : List Char :=
  if c = '"' then ['\\', '"']
  else if c = '\\' then ['\\', '\\']
  else if c.toNat = 8 then ['\\', 'b']
  else if c = '\t' then ['\\', 't']
  else if c = '\n' then ['\\', 'n']
  else if c.toNat = 12 then ['\\', 'f']
  else if c = '\r' then ['\\', 'r']
  else if c.toNat < 32 then ['\\', 'u', '0', '0', hexDigit (c.toNat / 16), hexDigit (c.toNat % 16)]
  else [c]

/-- `JSON.stringify(s)` of a string. -/
def quote (s : String) : String := String.ofList ('"' :: s.toList.flatMap quoteChar ++ ['"'])

theorem quoteChar_length_pos (c : Char) : 0 < (quoteChar c).length := by
  unfold quoteChar
  split_ifs <;> exact Nat.succ_pos _

/-- Quoting adds two characters at least, the quotes. -/
theorem length_quote (s : String) : s.length + 2 ≤ (quote s).length := by
  have hbody : s.toList.length ≤ (s.toList.flatMap quoteChar).length := by
    induction s.toList with
    | nil => exact le_rfl
    | cons c cs ih =>
      have hpos := quoteChar_length_pos c
      rw [List.flatMap_cons, List.length_append, List.length_cons]
      omega
  rw [quote, String.length_ofList, ← String.length_toList]
  simp only [List.cons_append, List.length_cons, List.length_append, List.length_nil]
  omega

theorem length_iterate_quote (s : String) (k : ℕ) : s.length + 2 * k ≤ (quote^[k] s).length := by
  induction k with
  | zero => exact le_rfl
  | succ k ih =>
    have hquote := length_quote (quote^[k] s)
    rw [Function.iterate_succ_apply']
    omega

/-- A text that was quoted again is another text. -/
theorem iterate_quote_eq_self_iff {s : String} {k : ℕ} : quote^[k] s = s ↔ k = 0 := by
  constructor
  · intro h
    have hlength := length_iterate_quote s k
    rw [h] at hlength
    omega
  · rintro rfl
    rfl

/-- `JSON.stringify(v)`, and `none` where that is `undefined`. -/
def stringify : Val → Option String
  | .undefined => none
  | .null => some "null"
  | .bool b => some (toString b)
  | .num n => some (numberText n)
  | .str s => some (quote s)
  | .arr vs => some ("[" ++ ",".intercalate (elements vs) ++ "]")
  | .obj fs => some ("\x7b" ++ ",".intercalate (members fs) ++ "\x7d")
where
  elements : List Val → List String
    | [] => []
    | v :: vs => (stringify v).getD "null" :: elements vs
  members : List (String × Val) → List String
    | [] => []
    | (k, v) :: fs => match stringify v with
      | some text => (quote k ++ ":" ++ text) :: members fs
      | none => members fs

example : stringify (.obj [("a", .arr [.str "x\"\n", .undefined]), ("b", .undefined)]) =
    some "\x7b\"a\":[\"x\\\"\\n\",null]\x7d" := by decide +kernel

end WebInsights.Js
