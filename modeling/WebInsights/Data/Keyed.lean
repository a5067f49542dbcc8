/-
Lists as keyed tables: one element per key, written in place.

`put` is what an upsert does to such a list and `lookup` what a point read
does. The rules are the ones a proof about a table needs: what is under a key
after a write, what an element was before it, and which selections of the
table a write leaves alone.
-/
import Mathlib.Data.List.Nodup
import Mathlib.Tactic.Common

set_option autoImplicit false

namespace WebInsights.Keyed

variable {α κ : Type} [DecidableEq κ] (key : α → κ)

/-- Replace the element with the key of `x`, or put `x` behind the others. -/
def put (x : α) : List α → List α
  | [] => [x]
  | y :: ys => if key y = key x then x :: ys else y :: put x ys

/-- The element under a key. -/
def lookup (k : κ) (l : List α) : Option α := l.find? fun x => key x = k

theorem lookup_eq_some_iff {l : List α} (hnd : (l.map key).Nodup) {k : κ} {x : α} :
    lookup key k l = some x ↔ x ∈ l ∧ key x = k := by
  constructor
  · intro h
    exact ⟨List.mem_of_find?_eq_some h, by simpa using List.find?_some h⟩
  · rintro ⟨hx, rfl⟩
    induction l with
    | nil => exact absurd hx List.not_mem_nil
    | cons y ys ih =>
      rw [List.map_cons, List.nodup_cons] at hnd
      rcases List.mem_cons.mp hx with rfl | hx
      · simp [lookup]
      · have hne : key y ≠ key x := fun e => hnd.1 (e ▸ List.mem_map_of_mem hx)
        have hrest := ih hnd.2 hx
        simpa [lookup, List.find?_cons, hne] using hrest

theorem lookup_eq_none_iff {l : List α} {k : κ} :
    lookup key k l = none ↔ ∀ x ∈ l, key x ≠ k := by
  simp [lookup]

/-- An element whose key is new goes behind the others. -/
theorem put_of_forall_ne {x : α} {l : List α} (h : ∀ y ∈ l, key y ≠ key x) :
    put key x l = l ++ [x] := by
  induction l with
  | nil => rfl
  | cons y ys ih =>
    rw [put, if_neg (h y List.mem_cons_self), ih fun z hz => h z (List.mem_cons_of_mem _ hz),
      List.cons_append]

/-- A write keeps the keys that are there, and adds at most its own. -/
theorem map_key_put (x : α) (l : List α) :
    (put key x l).map key =
      if key x ∈ l.map key then l.map key else l.map key ++ [key x] := by
  induction l with
  | nil => rfl
  | cons y ys ih =>
    by_cases h : key y = key x
    · simp [put, h]
    · have h' : ¬ key x = key y := fun e => h e.symm
      rw [put, if_neg h, List.map_cons, ih]
      by_cases hm : key x ∈ ys.map key
      · simp [hm]
      · simp [hm, h']

theorem nodup_map_key_put {l : List α} (hnd : (l.map key).Nodup) (x : α) :
    ((put key x l).map key).Nodup := by
  rw [map_key_put]
  by_cases hm : key x ∈ l.map key
  · rwa [if_pos hm]
  · rw [if_neg hm]
    exact List.nodup_append.mpr ⟨hnd, List.nodup_singleton _, fun a ha b hb e =>
      hm (by rwa [← List.mem_singleton.mp hb, ← e])⟩

theorem mem_put_self (x : α) (l : List α) : x ∈ put key x l := by
  induction l with
  | nil => exact List.mem_cons_self
  | cons y ys ih =>
    rw [put]
    by_cases h : key y = key x
    · rw [if_pos h]
      exact List.mem_cons_self
    · rw [if_neg h]
      exact List.mem_cons_of_mem _ ih

/-- What is in the table after a write: the new element, and the old ones under
other keys. -/
theorem mem_put_iff {l : List α} (hnd : (l.map key).Nodup) {x y : α} :
    y ∈ put key x l ↔ y = x ∨ y ∈ l ∧ key y ≠ key x := by
  induction l with
  | nil => simp [put]
  | cons z zs ih =>
    rw [List.map_cons, List.nodup_cons] at hnd
    rw [put]
    by_cases h : key z = key x
    · -- the key of the replaced element is nowhere else
      have hzs : ∀ w ∈ zs, key w ≠ key x := fun w hw e =>
        hnd.1 (h.trans e.symm ▸ List.mem_map_of_mem hw)
      rw [if_pos h, List.mem_cons, List.mem_cons]
      constructor
      · rintro (rfl | hy)
        · exact Or.inl rfl
        · exact Or.inr ⟨Or.inr hy, hzs y hy⟩
      · rintro (rfl | ⟨rfl | hy, hne⟩)
        · exact Or.inl rfl
        · exact absurd h hne
        · exact Or.inr hy
    · rw [if_neg h, List.mem_cons, List.mem_cons, ih hnd.2]
      constructor
      · rintro (rfl | rfl | hy)
        · exact Or.inr ⟨Or.inl rfl, h⟩
        · exact Or.inl rfl
        · exact Or.inr ⟨Or.inr hy.1, hy.2⟩
      · rintro (rfl | ⟨rfl | hy, hne⟩)
        · exact Or.inr (Or.inl rfl)
        · exact Or.inl rfl
        · exact Or.inr (Or.inr ⟨hy, hne⟩)

theorem lookup_put_self {l : List α} (hnd : (l.map key).Nodup) (x : α) :
    lookup key (key x) (put key x l) = some x :=
  (lookup_eq_some_iff key (nodup_map_key_put key hnd x)).mpr ⟨mem_put_self key x l, rfl⟩

theorem lookup_put_ne {l : List α} (hnd : (l.map key).Nodup) {x : α} {k : κ} (h : k ≠ key x) :
    lookup key k (put key x l) = lookup key k l := by
  have hiff : ∀ y, lookup key k (put key x l) = some y ↔ lookup key k l = some y := by
    intro y
    rw [lookup_eq_some_iff key (nodup_map_key_put key hnd x), lookup_eq_some_iff key hnd,
      mem_put_iff key hnd]
    constructor
    · rintro ⟨rfl | hy, rfl⟩
      · exact absurd rfl h
      · exact ⟨hy.1, rfl⟩
    · rintro ⟨hy, rfl⟩
      exact ⟨Or.inr ⟨hy, h⟩, rfl⟩
  exact Option.ext hiff

/-- A selection that neither the new element nor the one it replaces belongs to
is left alone, order included. -/
theorem filter_put_of_neg {p : α → Bool} {x : α} {l : List α} (hx : p x = false)
    (h : ∀ y ∈ l, key y = key x → p y = false) : (put key x l).filter p = l.filter p := by
  induction l with
  | nil => simp [put, hx]
  | cons y ys ih =>
    have hys : ∀ z ∈ ys, key z = key x → p z = false := fun z hz =>
      h z (List.mem_cons_of_mem _ hz)
    rw [put]
    by_cases hk : key y = key x
    · rw [if_pos hk, List.filter_cons_of_neg (by simp [hx]),
        List.filter_cons_of_neg (by simp [h y List.mem_cons_self hk])]
    · rw [if_neg hk, List.filter_cons, List.filter_cons, ih hys]

/-! ## Another column that is unique -/

section

variable {β : Type} (p : α → Prop) (column : α → β)

/-- No two of the elements in `p` share the column's value. -/
def UniqueBy (l : List α) : Prop :=
  ∀ x ∈ l, ∀ y ∈ l, p x → p y → column x = column y → key x = key y

/-- No element in `p` under another key has the value. -/
def FreeFor (k : κ) (b : β) (l : List α) : Prop :=
  ∀ x ∈ l, p x → key x ≠ k → column x ≠ b

variable {p column} {l : List α} (hnd : (l.map key).Nodup) {x : α}

include hnd

/-- **A write keeps the column unique** if what it writes has a value that is free. -/
theorem UniqueBy.put (h : UniqueBy key p column l)
    (hfree : p x → FreeFor key p column (key x) (column x) l) :
    UniqueBy key p column (Keyed.put key x l) := by
  intro y hy z hz hpy hpz hsame
  rcases (mem_put_iff key hnd).mp hy with rfl | ⟨hyl, hykey⟩
  · rcases (mem_put_iff key hnd).mp hz with rfl | ⟨hzl, hzkey⟩
    · rfl
    · exact absurd hsame.symm (hfree hpy z hzl hpz hzkey)
  · rcases (mem_put_iff key hnd).mp hz with rfl | ⟨hzl, hzkey⟩
    · exact absurd hsame (hfree hpz y hyl hpy hykey)
    · exact h y hyl z hzl hpy hpz hsame

/-- And ends it if it is not. -/
theorem not_uniqueBy_put (hx : p x) (hnot : ¬ FreeFor key p column (key x) (column x) l) :
    ¬ UniqueBy key p column (Keyed.put key x l) := by
  intro h
  apply hnot
  intro y hy hpy hkey hsame
  have hy' := (mem_put_iff key hnd).mpr (Or.inr ⟨hy, hkey⟩)
  exact hkey (h y hy' x (mem_put_self key x l) hpy hx hsame)

end

end WebInsights.Keyed
