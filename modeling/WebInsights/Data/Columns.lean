/-
Rows under named columns.

`cell` is how a reader of a table finds a value: by the position of the name among the
columns. Where the names are distinct it is the value that stands under the name
(`cell_eq_some_iff`), and the order of the columns does not matter (`cell_rearranged`).
-/
import Mathlib.Data.List.Nodup
import Mathlib.Logic.Equiv.Defs
import Mathlib.Tactic.Common

set_option autoImplicit false

namespace WebInsights.Columns

section

variable {κ α : Type} [DecidableEq κ]

/-- The value of a row under the first column of the name. -/
def cell (columns : List κ) (row : List α) (name : κ) : Option α :=
  (columns.findIdx? fun c => c = name).bind fun index => row[index]?

/-- Distinct names have one position each. -/
theorem findIdx?_eq_some_iff {columns : List κ} (hnd : columns.Nodup) {name : κ} {index : ℕ} :
    (columns.findIdx? fun c => c = name) = some index ↔ columns[index]? = some name := by
  rw [List.findIdx?_eq_some_iff_getElem]
  constructor
  · rintro ⟨h, hname, -⟩
    rw [List.getElem?_eq_getElem h, of_decide_eq_true hname]
  · intro hget
    obtain ⟨h, hname⟩ := List.getElem?_eq_some_iff.mp hget
    refine ⟨h, decide_eq_true hname, fun j hj hfirst => ?_⟩
    have hjlt : j < columns.length := by omega
    have hj' : columns[j]? = columns[index]? := by
      rw [hget, List.getElem?_eq_getElem hjlt, of_decide_eq_true hfirst]
    have hsame : j = index := (List.getElem?_inj hjlt hnd).mp hj'
    omega

theorem cell_eq_some_iff {columns : List κ} (hnd : columns.Nodup) {row : List α} {name : κ}
    {v : α} : cell columns row name = some v ↔ (name, v) ∈ columns.zip row := by
  unfold cell
  rw [Option.bind_eq_some_iff, List.mem_iff_getElem?]
  constructor
  · rintro ⟨index, hindex, hv⟩
    exact ⟨index, List.getElem?_zip_eq_some.mpr ⟨(findIdx?_eq_some_iff hnd).mp hindex, hv⟩⟩
  · rintro ⟨index, hindex⟩
    obtain ⟨hname, hv⟩ := List.getElem?_zip_eq_some.mp hindex
    exact ⟨index, (findIdx?_eq_some_iff hnd).mpr hname, hv⟩

end

/-! ## Another order of the columns -/

/-- `l'` has the `n` elements of `l` in the order `σ`. -/
structure Rearranged {n : ℕ} {α : Type} (σ : Equiv.Perm (Fin n)) (l l' : List α) : Prop where
  length_eq : l.length = n
  length_eq' : l'.length = n
  getElem?_eq : ∀ i : Fin n, l'[(i : ℕ)]? = l[(σ i : ℕ)]?

namespace Rearranged

variable {n : ℕ} {σ : Equiv.Perm (Fin n)} {κ α : Type} {columns columns' : List κ}
  {row row' : List α}

/-- It is a matter of order on either side. -/
theorem symm {l l' : List α} (h : Rearranged σ l l') : Rearranged σ.symm l' l := by
  refine ⟨h.length_eq', h.length_eq, fun i => ?_⟩
  rw [h.getElem?_eq (σ.symm i), Equiv.apply_symm_apply]

theorem nodup (h : Rearranged σ columns columns') (hnd : columns.Nodup) : columns'.Nodup := by
  rw [List.nodup_iff_injective_get]
  intro i j hij
  have hi : (i : ℕ) < n := h.length_eq' ▸ i.isLt
  have hj : (j : ℕ) < n := h.length_eq' ▸ j.isLt
  have hget : columns[(σ ⟨i, hi⟩ : ℕ)]? = columns[(σ ⟨j, hj⟩ : ℕ)]? := by
    rw [← h.getElem?_eq ⟨i, hi⟩, ← h.getElem?_eq ⟨j, hj⟩, List.getElem?_eq_getElem i.isLt,
      List.getElem?_eq_getElem j.isLt]
    exact congrArg some hij
  have hlt : (σ ⟨i, hi⟩ : ℕ) < columns.length := h.length_eq.symm ▸ (σ ⟨i, hi⟩).isLt
  have hσ : σ ⟨i, hi⟩ = σ ⟨j, hj⟩ := Fin.ext ((List.getElem?_inj hlt hnd).mp hget)
  exact Fin.ext (Fin.mk.inj (σ.injective hσ))

theorem mem_zip (h : Rearranged σ columns columns') (hrow : Rearranged σ row row') {p : κ × α}
    (hp : p ∈ columns'.zip row') : p ∈ columns.zip row := by
  obtain ⟨index, hindex⟩ := List.mem_iff_getElem?.mp hp
  obtain ⟨hname, hv⟩ := List.getElem?_zip_eq_some.mp hindex
  have hlt : index < n := by
    rw [← h.length_eq']
    exact (List.getElem?_eq_some_iff.mp hname).1
  refine List.mem_iff_getElem?.mpr ⟨σ ⟨index, hlt⟩, List.getElem?_zip_eq_some.mpr ⟨?_, ?_⟩⟩
  · rw [← h.getElem?_eq ⟨index, hlt⟩, hname]
  · rw [← hrow.getElem?_eq ⟨index, hlt⟩, hv]

end Rearranged

/-- **The order of the columns does not matter** for a row that has a value under each. -/
theorem cell_rearranged {κ α : Type} [DecidableEq κ] {n : ℕ} {σ : Equiv.Perm (Fin n)}
    {columns columns' : List κ} {row row' : List α} (h : Rearranged σ columns columns')
    (hrow : Rearranged σ row row') (hnd : columns.Nodup) (name : κ) :
    cell columns' row' name = cell columns row name := by
  ext v
  rw [cell_eq_some_iff (h.nodup hnd), cell_eq_some_iff hnd]
  exact ⟨h.mem_zip hrow, h.symm.mem_zip hrow.symm⟩

end WebInsights.Columns
