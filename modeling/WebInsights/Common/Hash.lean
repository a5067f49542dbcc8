/-
`HashGenerator` and `JumpConsistentHash`: from the node of a document id to the
partition bucket of the document.

The bucket loop has no bound in the source. Here it runs on fuel, and
`getBucketLoop_isSome` says how much it takes: a round either moves `j` up or
leaves it and multiplies the key by zero modulo `2^64`, after which the next
round moves. The division is the exact floor, as that of the code is up to `2^22`
buckets (`JumpConsistentHash.lean`). `fnv1a`, a package of its own, is a parameter.
-/
import Mathlib.Data.List.Basic
import Mathlib.Tactic.Common
import Mathlib.Tactic.Ring
import Mathlib.Tactic.Linarith

set_option autoImplicit false

namespace WebInsights.Common

/-! ## `JumpConsistentHash` -/

/-- The key of the next round. -/
def nextKey (key : ℕ) : ℕ := key * 2862933555777941757 % 2 ^ 64 + 1

/-- Where round `b` with key `key` jumps to. -/
def jump (b key : ℕ) : ℕ := (b + 1) * 2 ^ 31 / (key / 2 ^ 33 + 1)

/-- The loop of `getBucket`, from key `key` and the values `b` and `j` of its two
variables; `none` when the fuel is spent first. -/
def getBucketLoop (buckets : ℕ) : ℕ → ℕ → ℤ → ℕ → Option ℤ
  | 0, _, _, _ => none
  | fuel + 1, key, b, j =>
    if j < buckets then getBucketLoop buckets fuel (nextKey key) j (jump j (nextKey key))
    else some b

/-- `getBucket(key, buckets)`. The fuel is enough for every bucket count up to
`2^31` (`getBucketLoop_isSome`). -/
def getBucket (key buckets : ℕ) : ℤ :=
  (getBucketLoop buckets (2 * buckets + 2) key (-1) 0).getD (-1)

theorem nextKey_le (key : ℕ) : nextKey key ≤ 2 ^ 64 :=
  Nat.succ_le_of_lt (Nat.mod_lt _ (by norm_num))

/-- A key below `2^64` jumps at least one bucket ahead. -/
theorem lt_jump {b key : ℕ} (h : key < 2 ^ 64) : b < jump b key := by
  have hdiv : key / 2 ^ 33 + 1 ≤ 2 ^ 31 := by omega
  refine (Nat.le_div_iff_mul_le (Nat.succ_pos _)).mpr ?_
  exact Nat.mul_le_mul_left (b + 1) hdiv

/-- The largest key does not fall back, as long as the buckets are few. -/
theorem le_jump_max {b : ℕ} (h : b ≤ 2 ^ 31) : b ≤ jump b (2 ^ 64) := by
  have hdiv : (2 : ℕ) ^ 64 / 2 ^ 33 + 1 = 2 ^ 31 + 1 := by norm_num
  rw [jump, hdiv]
  refine (Nat.le_div_iff_mul_le (Nat.succ_pos _)).mpr ?_
  calc b * (2 ^ 31 + 1) = b * 2 ^ 31 + b := by ring
    _ ≤ b * 2 ^ 31 + 2 ^ 31 := by omega
    _ = (b + 1) * 2 ^ 31 := by ring

/-- The largest key is followed by the key `1`. -/
theorem nextKey_max : nextKey (2 ^ 64) = 1 := by
  norm_num [nextKey]

/-- **The bucket loop ends.** Two rounds of fuel for every bucket still ahead are
enough, one less when the next round is bound to move. -/
theorem getBucketLoop_isSome {buckets : ℕ} (hb : buckets ≤ 2 ^ 31) (fuel key : ℕ) (b : ℤ)
    (j : ℕ) (hfuel : 2 * (buckets - j) + (if nextKey key = 2 ^ 64 then 1 else 0) < fuel) :
    (getBucketLoop buckets fuel key b j).isSome := by
  induction fuel generalizing key b j with
  | zero => exact absurd hfuel (Nat.not_lt_zero _)
  | succ fuel ih =>
    rw [getBucketLoop]
    by_cases hj : j < buckets
    · rw [if_pos hj]
      apply ih
      by_cases hmax : nextKey key = 2 ^ 64
      · -- the round stands still, and the key after it is not the largest one
        have hle := le_jump_max (show j ≤ 2 ^ 31 by omega)
        have hnext : nextKey (nextKey key) ≠ 2 ^ 64 := by
          rw [hmax, nextKey_max]
          norm_num
        rw [if_pos hmax] at hfuel
        rw [if_neg hnext, hmax]
        omega
      · have hlt : j < jump j (nextKey key) :=
          lt_jump (lt_of_le_of_ne (nextKey_le key) hmax)
        rw [if_neg hmax] at hfuel
        split <;> omega
    · rw [if_neg hj]
      rfl

theorem getBucketLoop_enough {buckets : ℕ} (hb : buckets ≤ 2 ^ 31) (key : ℕ) :
    (getBucketLoop buckets (2 * buckets + 2) key (-1) 0).isSome := by
  apply getBucketLoop_isSome hb
  split <;> omega

/-! ## `HashGenerator` -/

/-- What `fnv1a` computes of an ASCII text: the 32-bit FNV-1a hash. -/
def fnv1aAscii (s : String) : ℕ :=
  s.toList.foldl (fun hash c => (hash ^^^ c.toNat) * 16777619 % 2 ^ 32) 2166136261

/-- `s.toLowerCase()` on the letters of a UUID. -/
def toLowerCase (s : String) : String := String.ofList (s.toList.map Char.toLower)

section

variable (fnv1a : String → ℕ)

/-- `getHashBucket(prefix, buckets, ...values)`. -/
def getHashBucket (bucketPrefix : String) (buckets : ℕ) (values : List String) : String :=
  let hashSeed := toLowerCase ("|".intercalate values)
  let bucket := getBucket (fnv1a hashSeed) buckets
  bucketPrefix ++ "-" ++ toString bucket

/-- `getDbHashBucket(prefix, ...values)`. -/
def getDbHashBucket (bucketPrefix : String) (values : List String) : String :=
  getHashBucket fnv1a bucketPrefix 1000 values

/-- The text before the first dash of a bucket name is its prefix. -/
theorem takeWhile_getDbHashBucket {bucketPrefix : String} (h : '-' ∉ bucketPrefix.toList)
    (values : List String) :
    (getDbHashBucket fnv1a bucketPrefix values).toList.takeWhile (· ≠ '-') =
      bucketPrefix.toList := by
  have hdash : ("-" : String).toList = ['-'] := rfl
  rw [getDbHashBucket, getHashBucket, String.toList_append, String.toList_append, hdash,
    List.append_assoc, List.singleton_append, List.takeWhile_append_of_pos]
  · simp
  · intro c hc
    have hne : c ≠ '-' := fun e => h (e ▸ hc)
    simpa using hne

/-- Buckets of different prefixes have different names. -/
theorem getDbHashBucket_ne {p q : String} (hp : '-' ∉ p.toList) (hq : '-' ∉ q.toList)
    (hpq : p ≠ q) (vs ws : List String) :
    getDbHashBucket fnv1a p vs ≠ getDbHashBucket fnv1a q ws := by
  intro h
  apply hpq
  apply String.toList_injective
  rw [← takeWhile_getDbHashBucket fnv1a hp vs, h, takeWhile_getDbHashBucket fnv1a hq]

end

end WebInsights.Common
