/-
Taking items off the front of a list in batches, until enough good ones are had.

A batch has as many items as good ones are still wanted, and at most `size`. The
items that are not good are thrown away, and a batch without a good one is taken
for the end of the list. `Fed` says that it never is one before the end: then, and
only then, the taker gets the good items that are there, up to the number wanted.
-/
import Mathlib.Data.List.Basic
import Mathlib.Tactic.Common

set_option autoImplicit false

namespace WebInsights.Batches

variable {α : Type} {good : α → Bool} {size n : ℕ} {l : List α}

/-- The good items of the next batch. -/
def goods (good : α → Bool) (size n : ℕ) (l : List α) : List α :=
  (l.take (min n size)).filter good

/-- What is left after the next batch. -/
def rest (size n : ℕ) (l : List α) : List α := l.drop (min n size)

/-- **No batch comes without a good item** while some are wanted and some are left. -/
inductive Fed (good : α → Bool) (size : ℕ) : ℕ → List α → Prop
  | enough {l : List α} : Fed good size 0 l
  | dry {n : ℕ} {l : List α} (h : l.filter good = []) : Fed good size n l
  | batch {n : ℕ} {l : List α} (h : goods good size n l ≠ [])
      (next : Fed good size (n - (goods good size n l).length) (rest size n l)) :
      Fed good size n l

theorem goods_append (good : α → Bool) (size n : ℕ) (l : List α) :
    goods good size n l ++ (rest size n l).filter good = l.filter good := by
  rw [goods, rest, ← List.filter_append, List.take_append_drop]

/-- A batch has no more good items than were wanted. -/
theorem length_goods_le (good : α → Bool) (size n : ℕ) (l : List α) :
    (goods good size n l).length ≤ n := by
  have hfilter := List.length_filter_le good (l.take (min n size))
  have htake := List.length_take_le (min n size) l
  rw [goods]
  omega

/-- After a batch with a good item the question is the same of what is left. -/
theorem fed_iff_of_goods (h : goods good size n l ≠ []) :
    Fed good size n l ↔
      Fed good size (n - (goods good size n l).length) (rest size n l) := by
  constructor
  · intro hfed
    cases hfed with
    | enough => exact absurd (by simp [goods]) h
    | dry hdry =>
      rw [← goods_append good size n l, List.append_eq_nil_iff] at hdry
      exact absurd hdry.1 h
    | batch _ next => exact next
  · exact Fed.batch h

/-- At a batch without one everything was had, or it was not. -/
theorem fed_iff_of_goods_eq_nil (hn : 0 < n) (h : goods good size n l = []) :
    Fed good size n l ↔ l.filter good = [] := by
  constructor
  · intro hfed
    cases hfed with
    | enough => omega
    | dry hdry => exact hdry
    | batch hne _ => exact absurd h hne
  · exact Fed.dry

end WebInsights.Batches
