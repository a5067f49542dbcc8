/-
A cache whose entries expire.

An entry keeps its value, the time it was stored and the time it is kept until, if there
is one. Times are in milliseconds and lifetimes in seconds. A lifetime of zero keeps an
entry for good; a negative one makes it a miss at once.
-/
import Mathlib.Logic.Function.Basic
import Mathlib.Data.Int.Notation
import Mathlib.Tactic.Common

set_option autoImplicit false

namespace WebInsights.Data

variable {K V : Type}

structure Entry (V : Type) where
  value : V
  storedAt : ℤ
  /-- `none`: kept without expiry. -/
  expiresAt : Option ℤ
  deriving DecidableEq

/-- The entry is not expired. -/
def Entry.Live (e : Entry V) (now : ℤ) : Bool :=
  match e.expiresAt with
  | none => true
  | some t => now ≤ t

/-- The entry that is stored now for so many seconds. -/
def Entry.store (v : V) (ttl now : ℤ) : Entry V where
  value := v
  storedAt := now
  expiresAt := if ttl = 0 then none else some (now + ttl * 1000)

abbrev TimedCache (K V : Type) : Type := K → Option (Entry V)

namespace TimedCache

def get (c : TimedCache K V) (k : K) (now : ℤ) : Option V :=
  match c k with
  | none => none
  | some e => if e.Live now then some e.value else none

def set [DecidableEq K] (c : TimedCache K V) (k : K) (v : V) (ttl now : ℤ) : TimedCache K V :=
  Function.update c k (some (Entry.store v ttl now))

/-- What is served is a live entry. -/
theorem get_eq_some {c : TimedCache K V} {k : K} {now : ℤ} {v : V} (h : c.get k now = some v) :
    ∃ e, c k = some e ∧ e.Live now = true ∧ e.value = v := by
  unfold get at h
  rcases hk : c k with _ | e
  · simp [hk] at h
  · simp only [hk] at h
    by_cases hlive : e.Live now = true
    · rw [if_pos hlive] at h
      exact ⟨e, rfl, hlive, Option.some.inj h⟩
    · rw [if_neg hlive] at h
      cases h

/-- A miss: there is no entry, or it is expired. -/
theorem get_eq_none {c : TimedCache K V} {k : K} {now : ℤ} (h : c.get k now = none) {e : Entry V}
    (hk : c k = some e) : e.Live now = false := by
  rw [get, hk] at h
  by_cases hlive : e.Live now = true
  · simp [hlive] at h
  · exact Bool.eq_false_iff.mpr hlive

variable [DecidableEq K]

@[simp] theorem set_self (c : TimedCache K V) (k : K) (v : V) (ttl now : ℤ) :
    c.set k v ttl now k = some (Entry.store v ttl now) := by
  unfold set
  exact Function.update_self _ _ _

theorem set_ne (c : TimedCache K V) {k k' : K} (h : k' ≠ k) (v : V) (ttl now : ℤ) :
    c.set k v ttl now k' = c k' := by
  unfold set
  exact Function.update_of_ne h _ _

/-- What is stored is served during its lifetime. -/
theorem get_set_self (c : TimedCache K V) (k : K) (v : V) {ttl now t : ℤ}
    (h : t ≤ now + ttl * 1000) : (c.set k v ttl now).get k t = some v := by
  have hlive : (Entry.store v ttl now).Live t = true := by
    by_cases httl : ttl = 0
    · simp only [Entry.Live, Entry.store, if_pos httl]
    · simpa only [Entry.Live, Entry.store, if_neg httl, decide_eq_true_eq] using h
  unfold get
  rw [set_self]
  exact if_pos hlive

end TimedCache

/-- An expired entry stays expired. -/
theorem Entry.live_mono {e : Entry V} {now now' : ℤ} (h : now ≤ now') (hlive : e.Live now' = true) :
    e.Live now = true := by
  unfold Live at hlive ⊢
  split
  · rfl
  · rename_i t ht
    simp only [ht, decide_eq_true_eq] at hlive ⊢
    exact Int.le_trans h hlive

/-- A miss stays one until something is stored. -/
theorem TimedCache.get_none_mono {c : TimedCache K V} {k : K} {now now' : ℤ} (h : now ≤ now')
    (hget : c.get k now = none) : c.get k now' = none := by
  rcases hk : c k with _ | e
  · simp only [get, hk]
  · have hdead := get_eq_none hget hk
    have hdead' : ¬ e.Live now' = true := by
      intro hlive
      rw [Entry.live_mono h hlive] at hdead
      cases hdead
    simp only [get, hk, if_neg hdead']

/-- A stored entry is served no longer than its lifetime, unless that is zero. -/
theorem Entry.live_store {v : V} {ttl now t : ℤ} (httl : ttl ≠ 0)
    (h : (Entry.store v ttl now).Live t = true) : t ≤ now + ttl * 1000 := by
  simp only [Live, store, if_neg httl, decide_eq_true_eq] at h
  exact h

end WebInsights.Data
