/-
Numbers: the value a binary64 operation delivers for an exact result.

`toNumber` rounds a non-negative rational to 53 significant bits, to the even
one of two equally near neighbours. Overflow and the subnormal range are left
out: the values here are between `2^-40` and `2^53`. What the library is for is
the last theorem, that the floor of a rounded quotient of integers is the floor
of the quotient itself.
-/
import Mathlib.Data.Int.Log
import Mathlib.Data.Rat.Floor
import Mathlib.Algebra.Order.Field.Power
import Mathlib.Tactic.Linarith
import Mathlib.Tactic.NormNum
import Mathlib.Tactic.Positivity
import Mathlib.Tactic.FieldSimp
import Mathlib.Tactic.Ring

set_option autoImplicit false

namespace WebInsights.Js

/-! ## Rounding to an integer -/

/-- The integer nearest to `x`, the even one of two that are equally near. -/
def roundHalfEven (x : ℚ) : ℤ :=
  if 2 * (x - ⌊x⌋) < 1 then ⌊x⌋
  else if 1 < 2 * (x - ⌊x⌋) then ⌊x⌋ + 1
  else if ⌊x⌋ % 2 = 0 then ⌊x⌋ else ⌊x⌋ + 1

@[simp] theorem roundHalfEven_intCast (k : ℤ) : roundHalfEven (k : ℚ) = k := by
  simp [roundHalfEven]

theorem floor_le_roundHalfEven (x : ℚ) : ⌊x⌋ ≤ roundHalfEven x := by
  rw [roundHalfEven]
  split_ifs <;> omega

theorem roundHalfEven_le_floor_add_one (x : ℚ) : roundHalfEven x ≤ ⌊x⌋ + 1 := by
  rw [roundHalfEven]
  split_ifs <;> omega

/-- An integer below a number is below what the number rounds to. -/
theorem le_roundHalfEven {k : ℤ} {x : ℚ} (h : (k : ℚ) ≤ x) : k ≤ roundHalfEven x :=
  le_trans (Int.le_floor.mpr h) (floor_le_roundHalfEven x)

/-- A number more than half a unit below an integer rounds to less than it. -/
theorem roundHalfEven_lt {k : ℤ} {x : ℚ} (h : 1 < 2 * (k - x)) : roundHalfEven x < k := by
  have hfloor : (⌊x⌋ : ℚ) ≤ x := Int.floor_le x
  by_cases hhalf : 2 * (x - ⌊x⌋) < 1
  · rw [roundHalfEven, if_pos hhalf]
    have hlt : (⌊x⌋ : ℚ) < k := by linarith
    exact_mod_cast hlt
  · -- the integer above `x` is still too far away to be `k`
    have hlt : ((⌊x⌋ + 1 : ℤ) : ℚ) < k := by
      push_cast
      linarith
    have hlt' : ⌊x⌋ + 1 < k := by exact_mod_cast hlt
    exact lt_of_le_of_lt (roundHalfEven_le_floor_add_one x) hlt'

/-! ## Rounding to 53 bits -/

/-- The unit in the last place of a Number as large as `x`. -/
def ulp (x : ℚ) : ℚ := 2 ^ (Int.log 2 x - 52)

/-- The Number nearest to `x`. -/
def toNumber (x : ℚ) : ℚ := roundHalfEven (x / ulp x) * ulp x

theorem ulp_pos (x : ℚ) : 0 < ulp x := zpow_pos (by norm_num) _

/-- A number in `[2^e, 2^(e+1))` is between `2^52` and `2^53` units. -/
theorem ulp_mul (x : ℚ) : ulp x * 2 ^ 52 = 2 ^ Int.log 2 x := by
  rw [ulp, zpow_sub₀ (by norm_num)]
  norm_num

/-- A whole number of units is a Number. -/
theorem toNumber_of_units {x : ℚ} {k : ℤ} (h : x = k * ulp x) : toNumber x = x := by
  have hunits : x / ulp x = k := by
    rw [div_eq_iff (ulp_pos x).ne']
    exact h
  rw [toNumber, hunits, roundHalfEven_intCast]
  exact h.symm

/-- The units of a number in `[2^e, 2^(e+1))`. -/
theorem ulp_eq {x : ℚ} {e : ℤ} (hlow : (2 : ℚ) ^ e ≤ x) (hhigh : x < 2 ^ (e + 1)) :
    ulp x = 2 ^ (e - 52) := by
  have hx : 0 < x := lt_of_lt_of_le (zpow_pos (by norm_num) _) hlow
  have hge : e ≤ Int.log 2 x := by
    rw [← Int.zpow_le_iff_le_log (by norm_num) hx]
    exact_mod_cast hlow
  have hlt : Int.log 2 x < e + 1 := by
    rw [← Int.lt_zpow_iff_log_lt (by norm_num) hx]
    exact_mod_cast hhigh
  have hlog : Int.log 2 x = e := by omega
  rw [ulp, hlog]

/-- Units at most one divide every integer. -/
theorem exists_units_of_ulp_le_one {x : ℚ} (h : Int.log 2 x ≤ 52) (k : ℤ) :
    ∃ c : ℤ, (k : ℚ) = c * ulp x := by
  obtain ⟨s, hs⟩ : ∃ s : ℕ, Int.log 2 x - 52 = -(s : ℤ) := ⟨(52 - Int.log 2 x).toNat, by omega⟩
  refine ⟨k * 2 ^ s, ?_⟩
  rw [ulp, hs, zpow_neg, zpow_natCast]
  push_cast
  field_simp

/-- **Integers up to `2^53` are Numbers.** -/
theorem toNumber_natCast {n : ℕ} (hn : n ≤ 2 ^ 53) : toNumber (n : ℚ) = n := by
  rcases Nat.eq_zero_or_pos n with rfl | hpos
  · simp [toNumber, roundHalfEven]
  have hq : (0 : ℚ) < n := by exact_mod_cast hpos
  rcases Nat.lt_or_ge n (2 ^ 53) with hlt | hge
  · have hlog : Int.log 2 (n : ℚ) < 53 := by
      rw [← Int.lt_zpow_iff_log_lt (by norm_num) hq]
      exact_mod_cast hlt
    obtain ⟨c, hc⟩ := exists_units_of_ulp_le_one (show Int.log 2 (n : ℚ) ≤ 52 by omega) n
    exact toNumber_of_units (k := c) (by exact_mod_cast hc)
  · -- the bound itself is `2^52` units of two
    have hn53 : n = 2 ^ 53 := le_antisymm hn hge
    have hulp : ulp (n : ℚ) = 2 ^ ((53 : ℤ) - 52) := by
      apply ulp_eq
      · rw [hn53]
        norm_num
      · rw [hn53]
        norm_num
    apply toNumber_of_units (k := 2 ^ 52)
    rw [hulp, hn53]
    norm_num

/-! ## The floor of a rounded quotient -/

/-- Rounding does not take a number below an integer it has reached. -/
theorem intCast_le_toNumber {x : ℚ} (h : Int.log 2 x ≤ 52) {k : ℤ} (hk : (k : ℚ) ≤ x) :
    (k : ℚ) ≤ toNumber x := by
  obtain ⟨c, hc⟩ := exists_units_of_ulp_le_one h k
  have hu := ulp_pos x
  have hcx : (c : ℚ) ≤ x / ulp x := by
    rw [le_div_iff₀ hu, ← hc]
    exact hk
  have hround : (c : ℚ) ≤ roundHalfEven (x / ulp x) := by
    exact_mod_cast le_roundHalfEven hcx
  rw [hc, toNumber]
  exact mul_le_mul_of_nonneg_right hround hu.le

/-- Rounding does not take a number up to an integer more than half a unit above. -/
theorem toNumber_lt_intCast {x : ℚ} (h : Int.log 2 x ≤ 52) {k : ℤ}
    (hk : ulp x < 2 * (k - x)) : toNumber x < k := by
  obtain ⟨c, hc⟩ := exists_units_of_ulp_le_one h k
  have hu := ulp_pos x
  have hcx : 1 < 2 * ((c : ℚ) - x / ulp x) := by
    have hscaled : 2 * ((c : ℚ) - x / ulp x) = 2 * (k - x) / ulp x := by
      rw [hc]
      field_simp
    rw [hscaled, lt_div_iff₀ hu, one_mul]
    exact hk
  have hround : ((roundHalfEven (x / ulp x) : ℤ) : ℚ) < c := by
    exact_mod_cast roundHalfEven_lt hcx
  rw [hc, toNumber]
  exact mul_lt_mul_of_pos_right hround hu

section

variable {a d : ℕ} (ha : a ≤ 2 ^ 53) (hd : 0 < d)
include ha hd

/-- A quotient with a dividend up to `2^53` that is no power of two is below `2^53`. -/
theorem log_div_le (hstrict : (2 : ℚ) ^ Int.log 2 ((a : ℚ) / d) < a / d) :
    Int.log 2 ((a : ℚ) / d) ≤ 52 := by
  have hdq : (1 : ℚ) ≤ d := by exact_mod_cast hd
  have ha53 : (a : ℚ) ≤ 2 ^ (53 : ℤ) := by exact_mod_cast ha
  have hlt : (2 : ℚ) ^ Int.log 2 ((a : ℚ) / d) < 2 ^ (53 : ℤ) := by
    calc (2 : ℚ) ^ Int.log 2 ((a : ℚ) / d) < a / d := hstrict
      _ ≤ a := div_le_self (Nat.cast_nonneg a) hdq
      _ ≤ 2 ^ (53 : ℤ) := ha53
  have hlog := (zpow_lt_zpow_iff_right₀ (by norm_num : (1 : ℚ) < 2)).mp hlt
  omega

/-- Half a unit of such a quotient is less than one over the divisor. -/
theorem ulp_div_mul_lt (hstrict : (2 : ℚ) ^ Int.log 2 ((a : ℚ) / d) < a / d) :
    ulp ((a : ℚ) / d) * d < 2 := by
  have hdq : (0 : ℚ) < d := by exact_mod_cast hd
  have ha53 : (a : ℚ) ≤ 2 ^ 53 := by exact_mod_cast ha
  have hscaled : ulp ((a : ℚ) / d) * 2 ^ 52 * d < 2 ^ 53 := by
    calc ulp ((a : ℚ) / d) * 2 ^ 52 * d = 2 ^ Int.log 2 ((a : ℚ) / d) * d := by rw [ulp_mul]
      _ < a / d * d := mul_lt_mul_of_pos_right hstrict hdq
      _ = a := div_mul_cancel₀ _ hdq.ne'
      _ ≤ 2 ^ 53 := ha53
  linarith

/-- **The floor of a quotient survives rounding**, for a dividend up to `2^53`: the quotient
is at least `1 / d` below the next integer, which is more than half a unit unless the
quotient is a Number itself. -/
theorem floor_toNumber_div : ⌊toNumber ((a : ℚ) / d)⌋ = ((a / d : ℕ) : ℤ) := by
  have hdq : (0 : ℚ) < d := by exact_mod_cast hd
  have hfloor : ⌊(a : ℚ) / d⌋ = ((a / d : ℕ) : ℤ) := by
    rw [Rat.floor_natCast_div_natCast]
    rfl
  rcases Nat.eq_zero_or_pos a with rfl | hapos
  · simp [toNumber, roundHalfEven]
  have hxpos : (0 : ℚ) < a / d := div_pos (by exact_mod_cast hapos) hdq
  have hlow : (2 : ℚ) ^ Int.log 2 ((a : ℚ) / d) ≤ a / d := by
    exact_mod_cast Int.zpow_log_le_self (by norm_num : 1 < 2) hxpos
  rcases eq_or_lt_of_le hlow with hpower | hstrict
  · -- a power of two is `2^52` units
    have hexact : toNumber ((a : ℚ) / d) = a / d := by
      apply toNumber_of_units (k := 2 ^ 52)
      have hmul := ulp_mul ((a : ℚ) / d)
      push_cast
      linarith
    rw [hexact, hfloor]
  · -- else the next integer is further away than half a unit
    have hlog := log_div_le ha hd hstrict
    have hunit := ulp_div_mul_lt ha hd hstrict
    have hquot : a + 1 ≤ (a / d + 1) * d := by
      have := Nat.lt_div_mul_add hd (a := a)
      rw [Nat.add_mul]
      omega
    generalize a / d = q at hfloor hquot ⊢
    have hgap : 1 ≤ ((q : ℚ) + 1 - a / d) * d := by
      have hquotq : ((a : ℚ) + 1) ≤ ((q : ℚ) + 1) * d := by exact_mod_cast hquot
      rw [sub_mul, div_mul_cancel₀ _ hdq.ne']
      linarith
    rw [Int.floor_eq_iff]
    constructor
    · apply intCast_le_toNumber hlog
      rw [← hfloor]
      exact Int.floor_le _
    · have hlt : toNumber ((a : ℚ) / d) < ((q : ℤ) + 1 : ℤ) := by
        apply toNumber_lt_intCast hlog
        have hcompare : ulp ((a : ℚ) / d) * d < 2 * (((q : ℤ) + 1 : ℤ) - a / d) * d := by
          calc ulp ((a : ℚ) / d) * d < 2 * 1 := by linarith
            _ ≤ 2 * (((q : ℚ) + 1 - a / d) * d) := by linarith
            _ = 2 * (((q : ℤ) + 1 : ℤ) - a / d) * d := by
              push_cast
              ring
        exact lt_of_mul_lt_mul_right hcompare hdq.le
      exact_mod_cast hlt

end

end WebInsights.Js
