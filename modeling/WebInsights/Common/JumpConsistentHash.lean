/-
`JumpConsistentHash` in the arithmetic of the source, against the algorithm it
implements.

The key of a round is a BigInt, and the jump a quotient of Numbers whose floor is
turned back into a BigInt. Up to `2^22` buckets every Number of the quotient is
exact and its floor is the exact one, so the loop is the loop of `getBucket` over
the naturals. From there two things are shown: what one more bucket moves, and
that the bucket is the one of the published loop on a 64-bit key. The code adds
one after it reduces, so its key can be `2^64` where the published one is zero;
the code then stands still for a round and leaves in the next, from the bucket
the published loop leaves from at once.
-/
import Mathlib.Data.BitVec
import WebInsights.Common.Hash
import WebInsights.Data.Walk
import WebInsights.Js.Number

set_option autoImplicit false

namespace WebInsights.Common

open WebInsights.Js
open WebInsights.Walk

/-! ## The source's loop -/

namespace JumpConsistentHash

/-- `Number((keyBigInt >> 33n) + 1n)`. -/
def divisor (key : ℕ) : ℚ := toNumber ((key >>> 33 + 1 : ℕ) : ℚ)

/-- `BigInt(Math.floor(((Number(b) + 1) * Number(1n << 31n)) / …))`. Over a zero divisor the
quotient is infinite, and `BigInt` throws: there is no result. -/
def jump (b key : ℕ) : Option ℕ :=
  if divisor key = 0 then none
  else
    let dividend := toNumber (toNumber (toNumber (b : ℚ) + 1) * toNumber ((1 <<< 31 : ℕ) : ℚ))
    some ⌊toNumber (dividend / divisor key)⌋.toNat

/-- The loop of `getBucket`; no result when a jump throws or the fuel is spent first. -/
def getBucketLoop (buckets : ℕ) : ℕ → ℕ → ℤ → ℕ → Option ℤ
  | 0, _, _, _ => none
  | fuel + 1, key, b, j =>
    if j < buckets then do
      let j' ← jump j (nextKey key)
      getBucketLoop buckets fuel (nextKey key) j j'
    else some b

/-- `getBucket(key, buckets)` -/
def getBucket (key buckets : ℕ) : Option ℤ :=
  getBucketLoop buckets (2 * buckets + 2) key (-1) 0

/-! ## The Numbers of a jump are exact -/

theorem divisor_eq {key : ℕ} (hkey : key ≤ 2 ^ 64) :
    divisor key = ((key / 2 ^ 33 + 1 : ℕ) : ℚ) := by
  rw [divisor, Nat.shiftRight_eq_div_pow]
  apply toNumber_natCast
  omega

/-- No key of the loop makes the divisor zero. -/
theorem divisor_ne_zero {key : ℕ} (hkey : key ≤ 2 ^ 64) : divisor key ≠ 0 := by
  rw [divisor_eq hkey]
  exact Nat.cast_ne_zero.mpr (Nat.succ_ne_zero _)

/-- From a bucket below `2^22` the jump is the exact one. -/
theorem jump_eq {b key : ℕ} (hb : b < 2 ^ 22) (hkey : key ≤ 2 ^ 64) :
    jump b key = some (Common.jump b key) := by
  have hpow : ((1 <<< 31 : ℕ) : ℚ) = ((2 ^ 31 : ℕ) : ℚ) := rfl
  have hsum : (b : ℚ) + 1 = ((b + 1 : ℕ) : ℚ) := by push_cast; rfl
  have hmul : ((b + 1 : ℕ) : ℚ) * ((2 ^ 31 : ℕ) : ℚ) = (((b + 1) * 2 ^ 31 : ℕ) : ℚ) := by
    push_cast
    rfl
  have hdividend : (b + 1) * 2 ^ 31 ≤ 2 ^ 53 := by omega
  rw [jump, if_neg (divisor_ne_zero hkey), divisor_eq hkey, hpow]
  dsimp only
  rw [toNumber_natCast (by omega : b ≤ 2 ^ 53), hsum, toNumber_natCast (by omega),
    toNumber_natCast (by norm_num : 2 ^ 31 ≤ 2 ^ 53), hmul, toNumber_natCast hdividend,
    floor_toNumber_div hdividend (Nat.succ_pos _), Int.toNat_natCast, Common.jump]

/-- The loop is the one over the naturals. -/
theorem getBucketLoop_eq {buckets : ℕ} (hn : buckets ≤ 2 ^ 22) (fuel key : ℕ) (b : ℤ) (j : ℕ) :
    getBucketLoop buckets fuel key b j = Common.getBucketLoop buckets fuel key b j := by
  induction fuel generalizing key b j with
  | zero => rfl
  | succ fuel ih =>
    rw [getBucketLoop, Common.getBucketLoop]
    by_cases hj : j < buckets
    · have hjump := jump_eq (by omega : j < 2 ^ 22) (nextKey_le key)
      rw [if_pos hj, if_pos hj, hjump]
      exact ih _ _ _
    · rw [if_neg hj, if_neg hj]

end JumpConsistentHash

/-! ## The loop as a walk -/

/-- A round of the loop: the next key, and where it jumps to. -/
def hashRound (key j : ℕ) : ℕ × ℕ := (nextKey key, jump j (nextKey key))

/-- What the loop returns is where the walk leaves the buckets. -/
theorem leaves_of_getBucketLoop {buckets fuel key : ℕ} {b r : ℤ} {j : ℕ}
    (h : getBucketLoop buckets fuel key b j = some r) :
    Leaves hashRound buckets key b j r := by
  induction fuel generalizing key b j with
  | zero => exact absurd h (by simp [getBucketLoop])
  | succ fuel ih =>
    rw [getBucketLoop] at h
    by_cases hj : j < buckets
    · rw [if_pos hj] at h
      exact .round hj (ih h)
    · rw [if_neg hj, Option.some_inj] at h
      subst h
      exact .out (by omega)

/-- The rounds never go back. -/
theorem le_hashRound {key j : ℕ} (hj : j ≤ 2 ^ 31) : j ≤ (hashRound key j).2 := by
  show j ≤ jump j (nextKey key)
  rcases Nat.lt_or_ge (nextKey key) (2 ^ 64) with hlt | hge
  · exact le_of_lt (lt_jump hlt)
  · rw [le_antisymm (nextKey_le key) hge]
    exact le_jump_max hj

namespace JumpConsistentHash

/-- **The bucket of a key**: for up to `2^22` buckets the code returns one, and the walk leaves
from it. -/
theorem getBucket_leaves {n : ℕ} (hn : n ≤ 2 ^ 22) (key : ℕ) :
    ∃ r, getBucket key n = some r ∧ Leaves hashRound n key (-1) 0 r := by
  have hsome := getBucketLoop_enough (show n ≤ 2 ^ 31 by omega) key
  obtain ⟨r, hr⟩ := Option.isSome_iff_exists.mp hsome
  refine ⟨r, ?_, leaves_of_getBucketLoop hr⟩
  rw [getBucket, getBucketLoop_eq hn]
  exact hr

/-- The buckets of the documents are the buckets of the source's loop. -/
theorem getBucket_eq {n : ℕ} (hn : n ≤ 2 ^ 22) (key : ℕ) :
    getBucket key n = some (Common.getBucket key n) := by
  obtain ⟨r, hr, _⟩ := getBucket_leaves hn key
  rw [getBucket, getBucketLoop_eq hn] at hr
  rw [getBucket, getBucketLoop_eq hn, hr, Common.getBucket, hr]
  rfl

/-! ## What one more bucket moves -/

/-- One more bucket leaves a key where it is or takes it to the new bucket. -/
theorem getBucket_succ {n : ℕ} (hn : n < 2 ^ 22) {key : ℕ} {r r' : ℤ}
    (hr : getBucket key n = some r) (hr' : getBucket key (n + 1) = some r') :
    r' = r ∨ r' = n := by
  obtain ⟨_, hsome, hleaves⟩ := getBucket_leaves (le_of_lt hn) key
  obtain ⟨_, hsome', hleaves'⟩ := getBucket_leaves (Nat.succ_le_of_lt hn) key
  obtain rfl := Option.some_inj.mp (hsome.symm.trans hr)
  obtain rfl := Option.some_inj.mp (hsome'.symm.trans hr')
  exact hleaves.of_succ (fun key j hj => le_hashRound (by omega)) hleaves'

/-- **Minimal movement.** One more bucket leaves a key where it is or takes it to the new
bucket, so growing the buckets from `n` to `m` moves a key only into one of the new ones. -/
theorem getBucket_minimal_movement (key n : ℕ) (hn : n < 2 ^ 22) :
    ∃ r : ℤ, getBucket key n = some r ∧
      (∃ r' : ℤ, getBucket key (n + 1) = some r' ∧ (r' = r ∨ r' = n)) ∧
      ∀ m, n ≤ m → m ≤ 2 ^ 22 →
        ∃ r' : ℤ, getBucket key m = some r' ∧ (r' = r ∨ (n : ℤ) ≤ r' ∧ r' < m) := by
  obtain ⟨r, hr, _⟩ := getBucket_leaves (le_of_lt hn) key
  -- one bucket more at a time: a key that has moved stays at or above `n`
  have hgrow : ∀ m, n ≤ m → m ≤ 2 ^ 22 →
      ∃ r' : ℤ, getBucket key m = some r' ∧ (r' = r ∨ (n : ℤ) ≤ r' ∧ r' < m) := by
    intro m hnm
    induction m, hnm using Nat.le_induction with
    | base => exact fun _ => ⟨r, hr, Or.inl rfl⟩
    | succ m hnm ih =>
      intro hm
      obtain ⟨q, hq, hold⟩ := ih (by omega)
      obtain ⟨q', hq', _⟩ := getBucket_leaves hm key
      refine ⟨q', hq', ?_⟩
      rcases getBucket_succ (by omega) hq hq' with rfl | hnew
      · rcases hold with hsame | ⟨hlow, hhigh⟩
        · exact Or.inl hsame
        · exact Or.inr ⟨hlow, by omega⟩
      · exact Or.inr ⟨by omega, by omega⟩
  obtain ⟨r', hr', _⟩ := getBucket_leaves (Nat.succ_le_of_lt hn) key
  exact ⟨r, hr, ⟨r', hr', getBucket_succ hn hr hr'⟩, hgrow⟩

theorem getBucket_minimal_movement_one :
    ∃ r : ℤ, getBucket 1 1 = some r ∧
      (∃ r' : ℤ, getBucket 1 (1 + 1) = some r' ∧ (r' = r ∨ r' = (1 : ℕ))) ∧
      ∀ m, 1 ≤ m → m ≤ 2 ^ 22 →
        ∃ r' : ℤ, getBucket 1 m = some r' ∧ (r' = r ∨ ((1 : ℕ) : ℤ) ≤ r' ∧ r' < m) :=
  getBucket_minimal_movement 1 1 (by norm_num)

end JumpConsistentHash

/-! ## The published algorithm -/

namespace Published

/-- The jump of the published loop from bucket `b` with key `key`. -/
def jump (b : ℕ) (key : UInt64) : ℕ := (b + 1) * 2 ^ 31 / ((key >>> 33).toNat + 1)

/-- The published loop, on a 64-bit key that wraps; no result when the fuel is spent first. -/
def loop (buckets : ℕ) : ℕ → UInt64 → ℤ → ℕ → Option ℤ
  | 0, _, _, _ => none
  | fuel + 1, key, b, j =>
    if j < buckets then
      let key' := key * 2862933555777941757 + 1
      loop buckets fuel key' j (jump j key')
    else some b

/-- The bucket of a 64-bit key. -/
def bucket (key : UInt64) (buckets : ℕ) : Option ℤ := loop buckets (buckets + 1) key (-1) 0

/-- A round of the published loop. -/
def round (key : UInt64) (j : ℕ) : UInt64 × ℕ :=
  (key * 2862933555777941757 + 1, jump j (key * 2862933555777941757 + 1))

theorem toNat_shift (key : UInt64) : (key >>> 33).toNat = key.toNat / 2 ^ 33 := by
  rw [UInt64.toNat_shiftRight, Nat.shiftRight_eq_div_pow]
  rfl

/-- The published jump is the jump of the value of its key. -/
theorem jump_eq (b : ℕ) (key : UInt64) : jump b key = Common.jump b key.toNat := by
  rw [jump, Common.jump, toNat_shift]

theorem lt_jump (b : ℕ) (key : UInt64) : b < jump b key := by
  rw [jump_eq]
  exact Common.lt_jump key.toNat_lt

/-- The loop ends where its walk leaves the buckets: every round moves. -/
theorem loop_of_leaves {buckets fuel : ℕ} {key : UInt64} {b r : ℤ} {j : ℕ}
    (h : Leaves round buckets key b j r) (hfuel : buckets - j < fuel) :
    loop buckets fuel key b j = some r := by
  induction h generalizing fuel with
  | out hout =>
    obtain ⟨fuel, rfl⟩ := Nat.exists_eq_succ_of_ne_zero (by omega : fuel ≠ 0)
    rw [loop, if_neg (by omega)]
  | @round key b j r hlt _ ih =>
    obtain ⟨fuel, rfl⟩ := Nat.exists_eq_succ_of_ne_zero (by omega : fuel ≠ 0)
    have hmove := lt_jump j (key * 2862933555777941757 + 1)
    rw [loop, if_pos hlt]
    apply ih
    show buckets - jump j (key * 2862933555777941757 + 1) < fuel
    omega

end Published

/-! ## The two loops leave together -/

/-- The keys of the two loops are one modulo `2^64`. -/
def SameKey (key : ℕ) (w : UInt64) : Prop := w.toNat = key % 2 ^ 64

theorem SameKey.nextKey {key : ℕ} {w : UInt64} (h : SameKey key w) :
    SameKey (nextKey key) (w * 2862933555777941757 + 1) := by
  have hmul : (2862933555777941757 : UInt64).toNat = 2862933555777941757 := rfl
  have hone : (1 : UInt64).toNat = 1 := rfl
  rw [SameKey] at h ⊢
  rw [UInt64.toNat_add, UInt64.toNat_mul, h, hmul, hone, Common.nextKey, Nat.mod_mul_mod]

/-- The largest key stands still. -/
theorem jump_max {b : ℕ} (h : b ≤ 2 ^ 31) : jump b (2 ^ 64) = b := by
  apply le_antisymm _ (le_jump_max h)
  rw [jump]
  apply Nat.le_of_lt_succ
  rw [Nat.div_lt_iff_lt_mul (Nat.succ_pos _)]
  omega

/-- A key below `2^33` leaves at once. -/
theorem jump_of_lt {b key : ℕ} (h : key < 2 ^ 33) : jump b key = (b + 1) * 2 ^ 31 := by
  rw [jump, Nat.div_eq_of_lt h, Nat.zero_add, Nat.div_one]

/-- **The two loops in step.** From one key modulo `2^64` a round takes both to the same
bucket. Only where the code's next key is `2^64`, and the published one is zero, it does not:
there the published loop leaves at once and the code one round later, both from where they
are. -/
theorem hashRound_in_step {buckets : ℕ} (hn : buckets ≤ 2 ^ 22) (key : ℕ) (w : UInt64) (j : ℕ)
    (h : SameKey key w) (hj : j < buckets) :
    (SameKey (hashRound key j).1 (Published.round w j).1 ∧
      (hashRound key j).2 = (Published.round w j).2) ∨
    (Leaves hashRound buckets (hashRound key j).1 j (hashRound key j).2 j ∧
      Leaves Published.round buckets (Published.round w j).1 j (Published.round w j).2 j) := by
  have hnext := h.nextKey
  have hfar : buckets ≤ (j + 1) * 2 ^ 31 := by omega
  rcases Nat.lt_or_ge (nextKey key) (2 ^ 64) with hlt | hge
  · refine Or.inl ⟨hnext, ?_⟩
    rw [SameKey, Nat.mod_eq_of_lt hlt] at hnext
    show jump j (nextKey key) = Published.jump j (w * 2862933555777941757 + 1)
    rw [Published.jump_eq, hnext]
  · have hmax : nextKey key = 2 ^ 64 := le_antisymm (nextKey_le key) hge
    rw [SameKey, hmax, Nat.mod_self] at hnext
    refine Or.inr ⟨?_, ?_⟩
    · -- the code: one round in place, and the key after it is `1`
      show Leaves hashRound buckets (nextKey key) j (jump j (nextKey key)) j
      rw [hmax, jump_max (by omega)]
      apply Leaves.round hj
      apply Leaves.out
      show buckets ≤ jump j (nextKey (2 ^ 64))
      rw [nextKey_max, jump_of_lt (by norm_num)]
      exact hfar
    · apply Leaves.out
      show buckets ≤ Published.jump j (w * 2862933555777941757 + 1)
      rw [Published.jump_eq, hnext, jump_of_lt (by norm_num)]
      exact hfar

/-- **The code computes the published bucket.** For every key and up to `2^22` buckets the loop
ends, in range, without a zero divisor, with the bucket of the published loop on the key
modulo `2^64`. -/
theorem JumpConsistentHash.getBucket_eq_published (key n : ℕ) (hpos : 1 ≤ n) (hn : n ≤ 2 ^ 22) :
    ∃ r : ℤ, JumpConsistentHash.getBucket key n = some r ∧ 0 ≤ r ∧ r < n ∧
      (∀ k, JumpConsistentHash.divisor (nextKey k) ≠ 0) ∧
      Published.bucket (UInt64.ofNat key) n = some r := by
  obtain ⟨r, hr, hleaves⟩ := JumpConsistentHash.getBucket_leaves hn key
  have hkey : SameKey key (UInt64.ofNat key) := UInt64.toNat_ofNat'
  have hpublished := hleaves.transfer (fun key w j => hashRound_in_step hn key w j) hkey
  have hrange := hleaves.mem_range_of_lt hpos
  refine ⟨r, hr, hrange.1, hrange.2, ?_, ?_⟩
  · exact fun k => JumpConsistentHash.divisor_ne_zero (nextKey_le k)
  · exact Published.loop_of_leaves hpublished (by omega)

theorem JumpConsistentHash.getBucket_eq_published_thousand :
    ∃ r : ℤ, JumpConsistentHash.getBucket 2166136261 1000 = some r ∧ 0 ≤ r ∧ r < (1000 : ℕ) ∧
      (∀ k, JumpConsistentHash.divisor (nextKey k) ≠ 0) ∧
      Published.bucket (UInt64.ofNat 2166136261) 1000 = some r :=
  JumpConsistentHash.getBucket_eq_published 2166136261 1000 (by norm_num) (by norm_num)

example : JumpConsistentHash.getBucket 10863919174838991 11 = some 6 := by decide +kernel

example : Published.bucket 10863919174838991 11 = some 6 := by decide +kernel

end WebInsights.Common
