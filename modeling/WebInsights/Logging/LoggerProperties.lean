/-
The properties that are logged with an event: objects whose values are texts.

Of such objects a merge and a spread are one operation, the properties of the second over
those of the first, and what comes of it is read one key at a time (`get_spread`,
`get_merge`).
-/
import WebInsights.Js.Merge

set_option autoImplicit false

namespace WebInsights.Logging

open Js

structure LoggerProperties where
  fields : Fields
  distinct : (Fields.keys fields).Nodup
  texts : ∀ p ∈ fields, ∃ s, p.2 = Val.str s

namespace LoggerProperties

variable {base overrides : LoggerProperties} {key : String}

/-- The value of a property, `undefined` if there is none. -/
def get (properties : LoggerProperties) (key : String) : Val := Fields.get properties.fields key

def empty : LoggerProperties := ⟨[], List.nodup_nil, nofun⟩

/-- `{ key: value }` -/
def single (key value : String) : LoggerProperties :=
  ⟨[(key, .str value)], List.nodup_singleton _,
    fun _ h => ⟨value, congrArg Prod.snd (List.mem_singleton.mp h)⟩⟩

theorem texts_spread {base overrides : Fields} (hbase : ∀ p ∈ base, ∃ s, p.2 = Val.str s)
    (hoverrides : ∀ p ∈ overrides, ∃ s, p.2 = Val.str s) :
    ∀ p ∈ Fields.spread base overrides, ∃ s, p.2 = Val.str s := by
  induction overrides generalizing base with
  | nil => exact hbase
  | cons q overrides ih =>
    obtain ⟨hq, hrest⟩ := List.forall_mem_cons.mp hoverrides
    rw [Fields.spread_cons]
    refine ih (fun p hp => ?_) hrest
    rcases Fields.mem_set hp with rfl | hmem
    · exact hq
    · exact hbase p hmem

theorem distinct_spread {base : Fields} (hbase : (Fields.keys base).Nodup) (overrides : Fields) :
    (Fields.keys (Fields.spread base overrides)).Nodup := by
  induction overrides generalizing base with
  | nil => exact hbase
  | cons p overrides ih => exact ih (Fields.nodup_keys_set hbase p.1 p.2)

/-- `{ ...base, ...overrides }` -/
def spread (base overrides : LoggerProperties) : LoggerProperties where
  fields := Fields.spread base.fields overrides.fields
  distinct := distinct_spread base.distinct overrides.fields
  texts := texts_spread base.texts overrides.texts

theorem merge_fields (base overrides : LoggerProperties) :
    Js.merge base.fields overrides.fields = Fields.spread base.fields overrides.fields := by
  refine merge_eq_spread (fun p hp => ?_) base.fields
  obtain ⟨s, hs⟩ := overrides.texts p hp
  exact ⟨.str s, hs, nofun⟩

/-- `merge(base, overrides)` -/
def merge (base overrides : LoggerProperties) : LoggerProperties where
  fields := Js.merge base.fields overrides.fields
  distinct := by
    rw [merge_fields]
    exact distinct_spread base.distinct overrides.fields
  texts := by
    rw [merge_fields]
    exact texts_spread base.texts overrides.texts

theorem merge_eq : base.merge overrides = base.spread overrides := by
  unfold merge spread
  congr 1
  exact merge_fields base overrides

@[simp] theorem get_empty : empty.get key = .undefined := rfl

/-- A property that is there is a text. -/
theorem mem_keys_iff {properties : LoggerProperties} :
    key ∈ Fields.keys properties.fields ↔ properties.get key ≠ .undefined := by
  constructor
  · intro hmem hundefined
    obtain ⟨s, hs⟩ := properties.texts _ (Fields.mem_of_mem_keys hmem)
    exact Val.str_ne_undefined s (hs.symm.trans hundefined)
  · exact fun hget => by_contra fun hmem => hget (Fields.get_eq_undefined_of_notMem hmem)

/-- One value where it is there, else the other. -/
def orElse (value other : Val) : Val := if value = .undefined then other else value

theorem get_spread :
    (base.spread overrides).get key = orElse (overrides.get key) (base.get key) := by
  rw [get, spread, Fields.get_spread overrides.distinct, orElse]
  by_cases hmem : key ∈ Fields.keys overrides.fields
  · rw [if_pos hmem, if_neg (mem_keys_iff.mp hmem)]
    rfl
  · rw [if_neg hmem, if_pos (not_not.mp fun h => hmem (mem_keys_iff.mpr h))]
    rfl

theorem get_merge : (base.merge overrides).get key = orElse (overrides.get key) (base.get key) := by
  rw [merge_eq, get_spread]

@[simp] theorem orElse_undefined {value : Val} : orElse value .undefined = value := by
  unfold orElse
  split
  · rename_i h
    exact h.symm
  · rfl

@[simp] theorem undefined_orElse {value : Val} : orElse .undefined value = value := rfl

/-- Which of two values comes first does not matter where one is missing or both are one. -/
theorem orElse_comm_iff {value other : Val} :
    orElse value other = orElse other value ↔
      value = .undefined ∨ other = .undefined ∨ value = other := by
  unfold orElse
  by_cases hvalue : value = .undefined
  · by_cases hother : other = .undefined
    · simp [hvalue, hother]
    · simp [hvalue, hother]
  · by_cases hother : other = .undefined
    · simp [hvalue, hother]
    · simp [hvalue, hother]

end LoggerProperties

end WebInsights.Logging
