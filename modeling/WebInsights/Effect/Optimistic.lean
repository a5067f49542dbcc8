/-
Optimistic concurrency over one cell.

Writers read the cell, compute, and write back under the condition that the
version they read is still there. Every write makes a version that was never
there before, so a version that is still there is still on the value that was
read (`Snapshot`), and a conditional write that is admitted has computed from
the value it replaces. The writes that were admitted, one after another, are
therefore a serial execution (`serial`).

The file is about values `V` with a version of any type `E`, and about any
family of state transformers. It names no store.
-/
import Mathlib.Data.List.Basic
import Mathlib.Logic.Function.Basic
import Mathlib.Tactic.Common

set_option autoImplicit false

namespace WebInsights.Effect

/-! ## Versions -/

section Versions

variable {V E : Type} (version : V → E) (stamp : ℕ → E)

/-- A copy that was read from the cell some time ago, after `writes` writes in all:
its version is an old one, and if the cell has that version it has that value. -/
structure Snapshot (writes : ℕ) (cell : Option V) (copy : V) : Prop where
  old : ∃ n < writes, version copy = stamp n
  current : ∀ v, cell = some v → version v = version copy → v = copy

variable {version stamp}

/-- What is in the cell now is a copy of it. -/
theorem Snapshot.of_read {writes : ℕ} {v : V} (h : ∃ n < writes, version v = stamp n) :
    Snapshot version stamp writes (some v) v where
  old := h
  current := fun _ hw _ => (Option.some.inj hw).symm

/-- A write of anybody else makes a new version, so a copy stays a copy. -/
theorem Snapshot.write (hstamp : Function.Injective stamp) {writes : ℕ} {cell : Option V}
    {copy new : V} (h : Snapshot version stamp writes cell copy)
    (hnew : version new = stamp writes) :
    Snapshot version stamp (writes + 1) (some new) copy where
  old := by
    obtain ⟨n, hn, hcopy⟩ := h.old
    exact ⟨n, Nat.lt_succ_of_lt hn, hcopy⟩
  current := by
    intro v hv hversion
    obtain rfl : new = v := Option.some.inj hv
    obtain ⟨n, hn, hcopy⟩ := h.old
    have hsame : writes = n := hstamp (by rw [← hnew, hversion, hcopy])
    omega

/-- A copy whose version is still there is what is there. -/
theorem Snapshot.eq_cell {writes : ℕ} {cell : Option V} {copy v : V}
    (h : Snapshot version stamp writes cell copy) (hv : cell = some v)
    (hversion : version v = version copy) : cell = some copy := by
  rw [hv, h.current v hv hversion]

end Versions

/-! ## Serial executions -/

section Serial

variable {ι σ : Type} (apply : ι → σ → σ)

/-- Apply the transformers of `order`, the first one first. -/
def serial (order : List ι) (s : σ) : σ := order.foldl (fun s i => apply i s) s

/-- One more transformer at the end. -/
theorem serial_concat (order : List ι) (i : ι) (s : σ) :
    serial apply (order ++ [i]) s = apply i (serial apply order s) := by
  unfold serial
  rw [List.foldl_append]
  rfl

end Serial

end WebInsights.Effect
