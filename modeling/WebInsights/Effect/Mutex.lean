/-
One lock shared by the threads of a pool.

A lock is told by what each operation does to it: some operation takes it, some releases
it, the others leave it alone. Whether a thread holds it follows from what the thread was
answered. If a thread is admitted to the lock only while it is free and releases it only
while it holds it, at most one thread holds it at a time (`Lock.exclusive`); meanwhile the
others take only steps that need no lock (`Lock.only_holder_steps`).
-/
import WebInsights.Effect.History

set_option autoImplicit false

namespace WebInsights.Effect

variable {ι Op σ ε α : Type} {Res : Op → Type}

/-- A lock of a system.

* `sets op`: `some true` takes the lock, `some false` releases it.
* `locked s`: the lock is taken.
-/
structure Lock (h : Handler Op Res σ) where
  sets : Op → Option Bool
  locked : σ → Bool
  locked_handle : ∀ op s, locked (h op s).2 = (sets op).getD (locked s)

/-- Take the lock, run the body whether it returns or throws, and release the lock:
`mutex.runExclusive(body)`. -/
def Program.runExclusive (acquire release : Op) (body : Program Op Res ε α) :
    Program Op Res ε α := do
  let _ ← perform acquire
  let r ← body.settle
  let _ ← perform release
  ofExcept r

/-- The lock is taken before the body and released after it, however it ends. -/
theorem Program.meets_runExclusive {acquire release : Op} {body : Program Op Res ε α}
    {C : List (Sigma Res) → Op → Prop} {R Q : List (Sigma Res) → Except ε α → Prop}
    {seen : List (Sigma Res)} (hacquire : C seen acquire)
    (hbody : ∀ a, body.Meets C R (seen ++ [⟨acquire, a⟩]))
    (hrelease : ∀ seen' x, R seen' x →
      C seen' release ∧ ∀ a, Q (seen' ++ [⟨release, a⟩]) x) :
    (runExclusive acquire release body).Meets C Q seen := by
  refine meets_perform hacquire fun a => (hbody a).settle.bind ?_ ?_
  · rintro seen' _ ⟨x, hx, hR⟩
    obtain rfl := Except.ok.inj hx
    obtain ⟨hC, hQ⟩ := hrelease seen' _ hR
    exact meets_perform hC fun a => meets_ofExcept (hQ a)
  · rintro seen' e ⟨x, hx, -⟩
    cases hx

namespace Lock

variable {h : Handler Op Res σ} (L : Lock h)

/-- A thread that was answered `seen` holds the lock. -/
def Held (seen : List (Sigma Res)) : Bool :=
  seen.foldl (fun held x => (L.sets x.1).getD held) false

@[simp] theorem held_nil : L.Held ([] : List (Sigma Res)) = false := rfl

@[simp] theorem held_append (seen : List (Sigma Res)) (x : Sigma Res) :
    L.Held (seen ++ [x]) = (L.sets x.1).getD (L.Held seen) := by
  unfold Held
  rw [List.foldl_append]
  rfl

/-- The lock is free if the operation takes it. -/
def Admits (p : Pool ι Op Res σ ε α) (op : Op) : Prop :=
  L.sets op = some true → L.locked p.shared = false

/-- [`Admits`] as a check. -/
def admits (p : Pool ι Op Res σ ε α) (_ : ι) (op : Op) : Bool :=
  L.sets op ≠ some true ∨ L.locked p.shared = false

theorem admits_of_admits {p : Pool ι Op Res σ ε α} {i : ι} {op : Op} (h : L.admits p i op = true) :
    L.Admits p op := by
  intro hsets
  rcases of_decide_eq_true h with hnot | hfree
  · exact absurd hsets hnot
  · exact hfree

variable [DecidableEq ι] {G : Pool ι Op Res σ ε α → ι → Op → Prop}
  {progs : ι → Program Op Res ε α} {s : σ} {q : Pool ι Op Res σ ε α}
  {C : ι → List (Sigma Res) → Op → Prop} {Q : ι → List (Sigma Res) → Except ε α → Prop}

/-- **Mutual exclusion.** The lock is taken while some thread holds it, and at most one
does. -/
theorem exclusive (hrun : Pool.Runs h G (Pool.start progs s) q)
    (hadmits : ∀ p i op, G p i op → L.Admits p op)
    (hprogs : ∀ i, (progs i).Meets (C i) (Q i) [])
    (hreleases : ∀ i seen op, C i seen op → L.sets op = some false → L.Held seen = true) :
    (∀ i, L.Held (q.threads i).seen = true → L.locked q.shared = true) ∧
      ∀ i j, L.Held (q.threads i).seen = true → L.Held (q.threads j).seen = true → i = j := by
  refine hrun.invariant_reached (I := fun q =>
    (∀ i, L.Held (q.threads i).seen = true → L.locked q.shared = true) ∧
      ∀ i j, L.Held (q.threads i).seen = true → L.Held (q.threads j).seen = true → i = j)
    ⟨nofun, fun i j hi => absurd hi Bool.false_ne_true⟩ ?_
  rintro p i op k hp ⟨hlocked, honly⟩ hG hk
  have hself : L.Held ((p.perform h i op k).threads i).seen =
      (L.sets op).getD (L.Held (p.threads i).seen) := by
    rw [Pool.perform_threads_self, held_append]
  have hother : ∀ j, j ≠ i → L.Held ((p.perform h i op k).threads j).seen =
      L.Held (p.threads j).seen := by
    intro j hj
    rw [Pool.perform_threads_ne h p hj]
  have hshared : L.locked (p.perform h i op k).shared = (L.sets op).getD (L.locked p.shared) :=
    L.locked_handle op p.shared
  rcases hsets : L.sets op with _ | _ | _
  · -- the operation leaves the lock alone
    rw [hsets] at hself hshared
    have hsame : ∀ j, L.Held ((p.perform h i op k).threads j).seen =
        L.Held (p.threads j).seen := by
      intro j
      by_cases hj : j = i
      · rw [hj]
        exact hself
      · exact hother j hj
    refine ⟨fun j hj => ?_, fun j j' hj hj' => ?_⟩
    · rw [hshared]
      exact hlocked j (by rw [← hsame j]; exact hj)
    · exact honly j j' (by rw [← hsame j]; exact hj) (by rw [← hsame j']; exact hj')
  · -- a release: the thread held the lock, so nobody does now
    have hheld : L.Held (p.threads i).seen = true :=
      hreleases i _ _ (hp.allowed hprogs hk) hsets
    have hnone : ∀ j, L.Held ((p.perform h i op k).threads j).seen ≠ true := by
      intro j hj
      by_cases hji : j = i
      · rw [hji, hself, hsets] at hj
        cases hj
      · rw [hother j hji] at hj
        exact hji (honly j i hj hheld)
    exact ⟨fun j hj => absurd hj (hnone j), fun j _ hj => absurd hj (hnone j)⟩
  · -- the lock was free, so nobody held it; now only this thread does
    have hfree : ∀ j, L.Held (p.threads j).seen ≠ true := by
      intro j hj
      have htaken := hlocked j hj
      rw [hadmits p i op hG hsets] at htaken
      cases htaken
    have honly' : ∀ j, L.Held ((p.perform h i op k).threads j).seen = true → j = i := by
      intro j hj
      by_contra hji
      rw [hother j hji] at hj
      exact hfree j hj
    refine ⟨fun j _ => ?_, fun j j' hj hj' => (honly' j hj).trans (honly' j' hj').symm⟩
    rw [hshared, hsets]
    rfl

/-- While a thread holds the lock, the others take only steps that are free to all. -/
theorem only_holder_steps (hrun : Pool.Runs h G (Pool.start progs s) q)
    (hadmits : ∀ p i op, G p i op → L.Admits p op)
    (hprogs : ∀ i, (progs i).Meets (C i) (Q i) []) {Free : Op → Prop}
    (hfree : ∀ op, Free op → L.sets op = none)
    (hheld : ∀ i seen op, C i seen op → L.sets op = some true ∨ L.Held seen = true ∨ Free op)
    {i j : ι} {op : Op} {k : Res op → Program Op Res ε α}
    (hj : L.Held (q.threads j).seen = true) (hG : G q i op)
    (hk : (q.threads i).prog = .call op k) : j = i ∨ Free op := by
  have hreleases : ∀ i seen op, C i seen op → L.sets op = some false → L.Held seen = true := by
    intro i seen op hC hsets
    rcases hheld i seen op hC with htakes | hheld | hop
    · rw [hsets] at htakes
      cases htakes
    · exact hheld
    · rw [hfree op hop] at hsets
      cases hsets
  obtain ⟨hlocked, honly⟩ := L.exclusive hrun hadmits hprogs hreleases
  rcases hheld i _ _ (hrun.allowed hprogs hk) with htakes | hi | hop
  · have hopen := hadmits q i op hG htakes
    rw [hlocked j hj] at hopen
    cases hopen
  · exact Or.inl (honly j i hj hi)
  · exact Or.inr hop

end Lock

end WebInsights.Effect
