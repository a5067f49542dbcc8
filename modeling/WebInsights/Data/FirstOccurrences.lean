/-
The first occurrences in a list, in their order: `List.eraseDups`.

The rules say what it does to a filtered list and to a list that goes on, and when two
lists give the same whichever of them comes first: when one continues the other.
-/
import Mathlib.Data.List.Basic
import Mathlib.Data.List.Nodup
import Mathlib.Tactic.Common

set_option autoImplicit false

namespace WebInsights.FirstOccurrences

variable {α : Type} [DecidableEq α]

/-- Filtering goes before or after. -/
theorem eraseDups_filter (p : α → Bool) (l : List α) :
    (l.filter p).eraseDups = l.eraseDups.filter p := by
  induction hn : l.length using Nat.strongRecOn generalizing l with
  | ind n ih =>
    subst hn
    cases l with
    | nil => rfl
    | cons a l =>
      have hshort : (l.filter fun b => !b == a).length < (a :: l).length :=
        Nat.lt_succ_of_le (List.length_filter_le _ _)
      have hrest := ih _ hshort (l.filter fun b => !b == a) rfl
      rw [List.eraseDups_cons]
      by_cases hp : p a = true
      · rw [List.filter_cons_of_pos hp, List.filter_cons_of_pos hp, List.eraseDups_cons,
          List.filter_comm, hrest]
      · -- what is filtered out is not missed
        have hsame : (l.filter fun b => !b == a).filter p = l.filter p := by
          rw [List.filter_filter]
          apply List.filter_congr
          intro b _
          by_cases hb : b = a
          · subst hb
            simp [hp]
          · simp [hb]
        rw [List.filter_cons_of_neg hp, List.filter_cons_of_neg hp, ← hrest, hsame]

theorem nodup_eraseDups (l : List α) : l.eraseDups.Nodup := by
  induction l with
  | nil => exact List.nodup_nil
  | cons a l ih =>
    rw [List.eraseDups_cons, eraseDups_filter, List.nodup_cons]
    exact ⟨by simp, ih.filter _⟩

/-- A list keeps all its elements exactly if none is there twice. -/
theorem eraseDups_eq_self_iff {l : List α} : l.eraseDups = l ↔ l.Nodup := by
  constructor
  · intro h
    rw [← h]
    exact nodup_eraseDups l
  · intro h
    induction l with
    | nil => rfl
    | cons a l ih =>
      rw [List.nodup_cons] at h
      rw [List.eraseDups_cons, eraseDups_filter, ih h.2, List.filter_eq_self.mpr]
      intro b hb
      have hne : b ≠ a := fun e => h.1 (e ▸ hb)
      simp [hne]

/-- A list that goes on adds what is new. -/
theorem eraseDups_append (l m : List α) :
    (l ++ m).eraseDups = l.eraseDups ++ m.eraseDups.filter (· ∉ l) := by
  rw [List.eraseDups_append, List.removeAll, eraseDups_filter]
  simp

theorem eraseDups_append_left (l m : List α) :
    (l.eraseDups ++ m).eraseDups = (l ++ m).eraseDups := by
  rw [eraseDups_append, eraseDups_append, eraseDups_eq_self_iff.mpr (nodup_eraseDups l)]
  simp only [List.mem_eraseDups]

/-- What is new of a list that starts like another one with no repetition. -/
theorem append_filter_of_startsWith {l m : List α} (hm : m.Nodup) (h : l <+: m) :
    l ++ m.filter (· ∉ l) = m := by
  obtain ⟨rest, rfl⟩ := h
  have hdisjoint := List.disjoint_of_nodup_append hm
  have hold : l.filter (· ∉ l) = [] := by
    rw [List.filter_eq_nil_iff]
    intro a ha
    simpa using ha
  have hnew : rest.filter (· ∉ l) = rest := by
    rw [List.filter_eq_self]
    intro a ha
    have hnot : a ∉ l := fun hl => hdisjoint hl ha
    simpa using hnot
  rw [List.filter_append, hold, hnew, List.nil_append]

/-- What is new of a list that another one goes on from. -/
theorem filter_notMem_of_subset {l m : List α} (h : ∀ a ∈ l, a ∈ m) :
    l.filter (· ∉ m) = [] := by
  rw [List.filter_eq_nil_iff]
  intro a ha
  simpa using h a ha

/-- **The order of two lists does not matter** exactly if one of them goes on from the other.
The first occurrences of both orders begin with those of either list. -/
theorem eraseDups_append_comm_iff {l t : List α} (ht : t.Nodup) :
    (l ++ t).eraseDups = (t ++ l).eraseDups ↔ l.eraseDups <+: t ∨ t <+: l.eraseDups := by
  have hself := eraseDups_eq_self_iff.mpr ht
  rw [eraseDups_append, eraseDups_append, hself]
  constructor
  · intro h
    have hleft : l.eraseDups <+: t ++ l.eraseDups.filter (· ∉ t) := ⟨_, h⟩
    exact List.prefix_or_prefix_of_prefix hleft ⟨_, rfl⟩
  · have hmem : (fun a => decide (a ∉ l)) = fun a => decide (a ∉ l.eraseDups) := by
      funext a
      simp
    rw [hmem]
    rintro (h | h)
    · rw [append_filter_of_startsWith ht h, filter_notMem_of_subset fun a ha => h.subset ha,
        List.append_nil]
    · rw [append_filter_of_startsWith (nodup_eraseDups l) h,
        filter_notMem_of_subset fun a ha => h.subset ha, List.append_nil]

end WebInsights.FirstOccurrences
