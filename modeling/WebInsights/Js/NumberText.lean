/-
Numbers and their texts.

`numberText` is `String(n)`: the fewest digits that are read as the number, and an exponent
where the point is far away from them. `textNumber` is `Number(s)`, and `none` for what is no
number, `Infinity` among it. Overflow and the subnormal range are left out.
-/
import Mathlib.Data.List.DropRight
import WebInsights.Js.Number

set_option autoImplicit false

namespace WebInsights.Js

/-! ## `String(n)` -/

/-- An integer of `k` digits that stands for `x` at the exponent: the nearest one, or the one on
the other side, if it is read as the same Number. -/
def significand? (x : ℚ) (exponent : ℤ) : Option ℤ :=
  let scaled := x / 10 ^ exponent
  let nearest := roundHalfEven scaled
  let other := if nearest = ⌊scaled⌋ then nearest + 1 else nearest - 1
  [nearest, other].find? fun s => toNumber (s * 10 ^ exponent) = toNumber x

/-- The digits of a positive number, and how many of them stand before the point. Seventeen
digits are always enough. -/
def shortestDigits (x : ℚ) : List Char × ℤ :=
  let found := (List.range 17).findSome? fun k =>
    let exponent := Int.log 10 x - k
    (significand? x exponent).map fun s => ((toString s).toList, exponent)
  let (digits, exponent) := found.getD ([], 0)
  (digits.rdropWhile (· = '0'), exponent + digits.length)

/-- The digits with the point in its place. -/
def placePoint (digits : List Char) (point : ℤ) : List Char :=
  if digits.length ≤ point ∧ point ≤ 21 then
    digits ++ List.replicate (point - digits.length).toNat '0'
  else if 0 < point ∧ point ≤ 21 then
    digits.take point.toNat ++ '.' :: digits.drop point.toNat
  else if -6 < point ∧ point ≤ 0 then '0' :: '.' :: List.replicate (-point).toNat '0' ++ digits
  else
    digits.take 1 ++ (if digits.length = 1 then [] else '.' :: digits.drop 1) ++
      'e' :: (if 0 < point then '+' else '-') :: (toString |point - 1|).toList

/-- `String(n)` of a number. -/
def numberText (x : ℚ) : String :=
  if x.den = 1 ∧ |x.num| ≤ 2 ^ 53 then toString x.num
  else
    let (digits, point) := shortestDigits |x|
    String.ofList ((if x < 0 then ['-'] else []) ++ placePoint digits point)

example : [1 / 2, -1 / 3, 10 ^ 21, 2 ^ 60, 1 / 10 ^ 7, 12345 / 1000].map numberText =
    ["0.5", "-0.3333333333333333", "1e+21", "1152921504606847000", "1e-7", "12.345"] := by
  decide +kernel

/-! ## `Number(s)` -/

/-- The white space and the line ends of the language. -/
def isStrWhiteSpace (c : Char) : Bool :=
  let n := c.toNat
  (0x9 ≤ n ∧ n ≤ 0xD) ∨ n ∈ [0x20, 0xA0, 0x1680] ∨ (0x2000 ≤ n ∧ n ≤ 0x200A) ∨
    n ∈ [0x2028, 0x2029, 0x202F, 0x205F, 0x3000, 0xFEFF]

def digitValue (c : Char) : ℕ :=
  if c.isDigit then c.toNat - 48
  else if 'a' ≤ c ∧ c ≤ 'f' then c.toNat - 87
  else if 'A' ≤ c ∧ c ≤ 'F' then c.toNat - 55
  else 16

/-- The number that digits to a base stand for, the most significant one first. -/
def digitsNumber (base : ℕ) (cs : List Char) : Option ℕ :=
  if cs ≠ [] ∧ cs.all (fun c => digitValue c < base) = true then
    some (cs.foldl (fun n c => base * n + digitValue c) 0)
  else none

/-- The part of a literal from the exponent on. -/
def exponentNumber : List Char → Option ℤ
  | [] => some 0
  | e :: cs =>
    if e = 'e' ∨ e = 'E' then
      match cs with
      | '-' :: cs => (digitsNumber 10 cs).map fun n => -n
      | '+' :: cs => (digitsNumber 10 cs).map Int.ofNat
      | cs => (digitsNumber 10 cs).map Int.ofNat
    else none

/-- A decimal literal without a sign. -/
def decimalNumber (cs : List Char) : Option ℚ := do
  let whole := cs.takeWhile Char.isDigit
  let rest := cs.dropWhile Char.isDigit
  let fraction := if rest.head? = some '.' then rest.tail.takeWhile Char.isDigit else []
  let rest := if rest.head? = some '.' then rest.tail.dropWhile Char.isDigit else rest
  let digits ← digitsNumber 10 (whole ++ fraction)
  let exponent ← exponentNumber rest
  pure (toNumber (digits * 10 ^ (exponent - fraction.length)))

/-- `Number(s)` of a text. -/
def textNumber (s : String) : Option ℚ :=
  match (s.toList.dropWhile isStrWhiteSpace).rdropWhile isStrWhiteSpace with
  | [] => some 0
  | '0' :: 'x' :: cs | '0' :: 'X' :: cs => (digitsNumber 16 cs).map Nat.cast
  | '0' :: 'o' :: cs | '0' :: 'O' :: cs => (digitsNumber 8 cs).map Nat.cast
  | '0' :: 'b' :: cs | '0' :: 'B' :: cs => (digitsNumber 2 cs).map Nat.cast
  | '-' :: cs => (decimalNumber cs).map Neg.neg
  | '+' :: cs => decimalNumber cs
  | cs => decimalNumber cs

example : [" 2 ", "-1.5e1", "0x1F", "", "2px", "."].map textNumber =
    [some 2, some (-15), some 31, some 0, none, none] := by
  decide +kernel

end WebInsights.Js
