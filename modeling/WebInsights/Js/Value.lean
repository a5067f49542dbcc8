/-
JavaScript values as trees: what a document, a request body or a response body
is while the service works on it, and the JSON it becomes when it is written.

Objects are association lists in insertion order, read by the first entry of a
key and written in place, so a spread or an assignment keeps the position a
key already has, as it does in JavaScript. `undefined` is a value of its own
because the merge of two documents tells an absent property from a `null` one.
Numbers are exact rationals. The trees carry no sharing and no prototypes.
-/
import Mathlib.Data.List.Basic
import Mathlib.Data.List.Nodup
import Mathlib.Data.Rat.Defs

set_option autoImplicit false

namespace WebInsights.Js

/-- The values with no parts. -/
inductive Scalar where
  | undefined
  | null
  | bool (b : Bool)
  | num (n : ℚ)
  | str (s : String)
  deriving DecidableEq

/-- A JavaScript value: a scalar, an array, or an object with its own enumerable
properties in insertion order. -/
inductive Val where
  | scalar (s : Scalar)
  | arr (vs : List Val)
  | obj (fs : List (String × Val))

instance : Inhabited Val := ⟨.scalar .undefined⟩

/-- The properties of an object. -/
abbrev Fields := List (String × Val)

namespace Val

@[match_pattern] abbrev undefined : Val := .scalar .undefined
@[match_pattern] abbrev null : Val := .scalar .null
@[match_pattern] abbrev bool (b : Bool) : Val := .scalar (.bool b)
@[match_pattern] abbrev num (n : ℚ) : Val := .scalar (.num n)
@[match_pattern] abbrev str (s : String) : Val := .scalar (.str s)

/-! ## Equality of trees -/

mutual

def decEq : (v w : Val) → Decidable (v = w)
  | .scalar a, .scalar b =>
    if h : a = b then isTrue (congrArg _ h) else isFalse fun e => h (Val.scalar.inj e)
  | .arr a, .arr b => match decEqElems a b with
    | isTrue h => isTrue (congrArg _ h)
    | isFalse h => isFalse fun e => h (Val.arr.inj e)
  | .obj a, .obj b => match decEqFields a b with
    | isTrue h => isTrue (congrArg _ h)
    | isFalse h => isFalse fun e => h (Val.obj.inj e)
  | .scalar _, .arr _ => isFalse nofun
  | .scalar _, .obj _ => isFalse nofun
  | .arr _, .scalar _ => isFalse nofun
  | .arr _, .obj _ => isFalse nofun
  | .obj _, .scalar _ => isFalse nofun
  | .obj _, .arr _ => isFalse nofun
termination_by structural v => v

def decEqElems : (vs ws : List Val) → Decidable (vs = ws)
  | [], [] => isTrue rfl
  | [], _ :: _ => isFalse nofun
  | _ :: _, [] => isFalse nofun
  | v :: vs, w :: ws => match decEq v w, decEqElems vs ws with
    | isTrue h, isTrue h' => isTrue (by rw [h, h'])
    | isFalse h, _ => isFalse fun e => h (List.cons.inj e).1
    | _, isFalse h => isFalse fun e => h (List.cons.inj e).2
termination_by structural vs => vs

def decEqFields : (fs gs : List (String × Val)) → Decidable (fs = gs)
  | [], [] => isTrue rfl
  | [], _ :: _ => isFalse nofun
  | _ :: _, [] => isFalse nofun
  | (k, v) :: fs, (l, w) :: gs =>
    if hk : k = l then
      match decEq v w, decEqFields fs gs with
      | isTrue h, isTrue h' => isTrue (by rw [hk, h, h'])
      | isFalse h, _ => isFalse fun e => h (Prod.mk.inj (List.cons.inj e).1).2
      | _, isFalse h => isFalse fun e => h (List.cons.inj e).2
    else isFalse fun e => hk (Prod.mk.inj (List.cons.inj e).1).1
termination_by structural fs => fs

end

instance : DecidableEq Val := decEq

theorem str_ne_undefined (s : String) : Val.str s ≠ .undefined := nofun

/-- The induction every proof about values uses: the parts of an array or an
object come with the hypothesis. -/
@[elab_as_elim, induction_eliminator]
theorem induction {motive : Val → Prop} (scalar : ∀ s, motive (.scalar s))
    (arr : ∀ vs, (∀ v ∈ vs, motive v) → motive (.arr vs))
    (obj : ∀ fs, (∀ p ∈ fs, motive p.2) → motive (.obj fs)) (v : Val) : motive v := by
  refine @Val.rec motive (fun vs => ∀ v ∈ vs, motive v) (fun fs => ∀ p ∈ fs, motive p.2)
    (fun p => motive p.2) scalar arr obj ?_ ?_ ?_ ?_ ?_ v
  · exact fun _ hv => absurd hv List.not_mem_nil
  · intro v vs hv hvs w hw
    rcases List.mem_cons.mp hw with rfl | hw
    · exact hv
    · exact hvs w hw
  · exact fun _ hp => absurd hp List.not_mem_nil
  · intro p fs hp hfs q hq
    rcases List.mem_cons.mp hq with rfl | hq
    · exact hp
    · exact hfs q hq
  · exact fun _ _ hv => hv

end Val

/-! ## Properties of an object -/

namespace Fields

/-- `obj[k]`: the value of an own property, `undefined` when there is none. -/
def get : Fields → String → Val
  | [], _ => .undefined
  | (k', v) :: fs, k => if k' = k then v else get fs k

/-- `Object.keys(obj)`. -/
def keys (fs : Fields) : List String := fs.map Prod.fst

/-- `obj[k] = v`: in place when the property exists, else as the last one. -/
def set : Fields → String → Val → Fields
  | [], k, v => [(k, v)]
  | (k', w) :: fs, k, v => if k' = k then (k', v) :: fs else (k', w) :: set fs k v

/-- `{ ...base, ...overrides }`. -/
def spread (base overrides : Fields) : Fields :=
  overrides.foldl (fun acc p => set acc p.1 p.2) base

/-- The rest of `{ k, ...rest } = obj`. -/
def without (fs : Fields) (k : String) : Fields := fs.filter fun p => p.1 ≠ k

@[simp] theorem get_nil (k : String) : get [] k = .undefined := rfl

theorem get_cons (k' : String) (v : Val) (fs : Fields) (k : String) :
    get ((k', v) :: fs) k = if k' = k then v else get fs k := rfl

@[simp] theorem get_cons_self (k : String) (v : Val) (fs : Fields) :
    get ((k, v) :: fs) k = v := if_pos rfl

theorem get_cons_ne {k' k : String} (h : k' ≠ k) (v : Val) (fs : Fields) :
    get ((k', v) :: fs) k = get fs k := if_neg h

@[simp] theorem keys_nil : keys [] = [] := rfl

@[simp] theorem keys_cons (p : String × Val) (fs : Fields) :
    keys (p :: fs) = p.1 :: keys fs := rfl

theorem mem_keys_of_mem {fs : Fields} {p : String × Val} (h : p ∈ fs) : p.1 ∈ keys fs :=
  List.mem_map_of_mem h

theorem get_eq_undefined_of_notMem {fs : Fields} {k : String} (h : k ∉ keys fs) :
    get fs k = .undefined := by
  induction fs with
  | nil => rfl
  | cons p fs ih =>
    rw [keys_cons, List.mem_cons, not_or] at h
    rw [get_cons_ne (Ne.symm h.1), ih h.2]

theorem get_append (fs gs : Fields) (k : String) :
    get (fs ++ gs) k = if k ∈ keys fs then get fs k else get gs k := by
  induction fs with
  | nil => rfl
  | cons p fs ih =>
    obtain ⟨k', v⟩ := p
    rw [List.cons_append, get_cons, get_cons, keys_cons]
    by_cases hk : k' = k
    · rw [if_pos hk, if_pos hk, if_pos (hk ▸ List.mem_cons_self)]
    · have hiff : k ∈ k' :: keys fs ↔ k ∈ keys fs := by
        rw [List.mem_cons]
        exact or_iff_right fun e => hk e.symm
      rw [if_neg hk, if_neg hk, ih]
      exact (if_congr hiff rfl rfl).symm

/-- The value of a property that is there is one of the object's entries. -/
theorem mem_of_mem_keys {fs : Fields} {k : String} (h : k ∈ keys fs) : (k, get fs k) ∈ fs := by
  induction fs with
  | nil => exact absurd h List.not_mem_nil
  | cons p fs ih =>
    obtain ⟨k', v⟩ := p
    by_cases hk : k' = k
    · subst hk
      rw [get_cons_self]
      exact List.mem_cons_self
    · rw [get_cons_ne hk]
      refine List.mem_cons_of_mem _ (ih ?_)
      rcases List.mem_cons.mp h with h | h
      · exact absurd h.symm hk
      · exact h

/-- In an object, whose keys are distinct, every entry is the value of its key. -/
theorem get_eq_of_mem {fs : Fields} (hnd : (keys fs).Nodup) {p : String × Val} (h : p ∈ fs) :
    get fs p.1 = p.2 := by
  induction fs with
  | nil => exact absurd h List.not_mem_nil
  | cons q fs ih =>
    rw [keys_cons, List.nodup_cons] at hnd
    rcases List.mem_cons.mp h with rfl | h
    · exact get_cons_self _ _ _
    · have hne : q.1 ≠ p.1 := fun e => hnd.1 (e ▸ mem_keys_of_mem h)
      rw [get_cons_ne hne, ih hnd.2 h]

/-- Two objects with the same keys in the same order are equal when they have the
same values. -/
theorem ext_of_keys {fs gs : Fields} (hk : keys fs = keys gs) (hnd : (keys fs).Nodup)
    (h : ∀ k ∈ keys fs, get fs k = get gs k) : fs = gs := by
  induction fs generalizing gs with
  | nil =>
    cases gs with
    | nil => rfl
    | cons q gs => cases hk
  | cons p fs ih =>
    cases gs with
    | nil => cases hk
    | cons q gs =>
      obtain ⟨k, v⟩ := p
      obtain ⟨l, w⟩ := q
      simp only [keys_cons, List.cons.injEq] at hk
      obtain ⟨rfl, hk⟩ := hk
      rw [keys_cons, List.nodup_cons] at hnd
      have hv : v = w := by
        have h' := h k List.mem_cons_self
        rwa [get_cons_self, get_cons_self] at h'
      -- the values under the other keys are not under the first
      have hrest : fs = gs := by
        refine ih hk hnd.2 fun k' hk' => ?_
        have hne : k ≠ k' := fun e => hnd.1 (e ▸ hk')
        have h' := h k' (List.mem_cons_of_mem _ hk')
        rwa [get_cons_ne hne, get_cons_ne hne] at h'
      rw [hv, hrest]

@[simp] theorem get_set_self (fs : Fields) (k : String) (v : Val) : get (set fs k v) k = v := by
  induction fs with
  | nil => exact get_cons_self k v []
  | cons p fs ih =>
    obtain ⟨k', w⟩ := p
    by_cases h : k' = k
    · rw [set, if_pos h, get_cons, if_pos h]
    · rw [set, if_neg h, get_cons_ne h, ih]

theorem get_set_ne {fs : Fields} {k k' : String} (h : k ≠ k') (v : Val) :
    get (set fs k v) k' = get fs k' := by
  induction fs with
  | nil => exact get_cons_ne h v []
  | cons p fs ih =>
    obtain ⟨l, w⟩ := p
    by_cases hl : l = k
    · have hne : l ≠ k' := hl ▸ h
      rw [set, if_pos hl, get_cons_ne hne, get_cons_ne hne]
    · rw [set, if_neg hl, get_cons, get_cons, ih]

theorem get_set (fs : Fields) (k k' : String) (v : Val) :
    get (set fs k v) k' = if k = k' then v else get fs k' := by
  by_cases h : k = k'
  · rw [if_pos h, ← h, get_set_self]
  · rw [if_neg h, get_set_ne h]

theorem keys_set (fs : Fields) (k : String) (v : Val) :
    keys (set fs k v) = if k ∈ keys fs then keys fs else keys fs ++ [k] := by
  induction fs with
  | nil => simp [set, keys]
  | cons p fs ih =>
    obtain ⟨k', w⟩ := p
    by_cases h : k' = k
    · subst h
      simp [set]
    · have h' : ¬ k = k' := fun e => h e.symm
      rw [set, if_neg h, keys_cons, ih]
      by_cases hm : k ∈ keys fs
      · simp [hm]
      · simp [hm, h']

/-- Writing the value a property has already changes nothing. -/
theorem set_eq_self {fs : Fields} {k : String} {v : Val} (hk : get fs k ≠ .undefined)
    (h : get fs k = v) : set fs k v = fs := by
  induction fs with
  | nil => exact absurd rfl hk
  | cons p fs ih =>
    obtain ⟨k', w⟩ := p
    by_cases hkk : k' = k
    · rw [get_cons, if_pos hkk] at h
      rw [set, if_pos hkk, h]
    · rw [get_cons_ne hkk] at hk h
      rw [set, if_neg hkk, ih hk h]

/-- A write adds no entry but its own. -/
theorem mem_set {fs : Fields} {k : String} {v : Val} {p : String × Val} (h : p ∈ set fs k v) :
    p = (k, v) ∨ p ∈ fs := by
  induction fs with
  | nil => exact Or.inl (List.mem_singleton.mp h)
  | cons q fs ih =>
    obtain ⟨k', w⟩ := q
    by_cases hk : k' = k
    · rw [set, if_pos hk, List.mem_cons] at h
      exact h.imp (fun e => hk ▸ e) (List.mem_cons_of_mem _)
    · rw [set, if_neg hk, List.mem_cons] at h
      rcases h with h | h
      · exact Or.inr (h ▸ List.mem_cons_self)
      · exact (ih h).imp id (List.mem_cons_of_mem _)

theorem mem_keys_set {fs : Fields} {k k' : String} {v : Val} :
    k' ∈ keys (set fs k v) ↔ k' = k ∨ k' ∈ keys fs := by
  rw [keys_set]
  by_cases h : k ∈ keys fs
  · rw [if_pos h]
    exact ⟨Or.inr, fun e => e.elim (fun e => e ▸ h) id⟩
  · rw [if_neg h, List.mem_append, List.mem_singleton, or_comm]

theorem nodup_keys_set {fs : Fields} (h : (keys fs).Nodup) (k : String) (v : Val) :
    (keys (set fs k v)).Nodup := by
  rw [keys_set]
  by_cases hm : k ∈ keys fs
  · rwa [if_pos hm]
  · rw [if_neg hm]
    exact List.nodup_append.mpr ⟨h, List.nodup_singleton k, fun a ha b hb e =>
      hm (by rwa [← List.mem_singleton.mp hb, ← e])⟩

@[simp] theorem spread_nil (base : Fields) : spread base [] = base := rfl

@[simp] theorem spread_cons (base : Fields) (p : String × Val) (overrides : Fields) :
    spread base (p :: overrides) = spread (set base p.1 p.2) overrides := rfl

theorem get_spread {overrides : Fields} (hnd : (keys overrides).Nodup) (base : Fields)
    (k : String) :
    get (spread base overrides) k = if k ∈ keys overrides then get overrides k else get base k := by
  induction overrides generalizing base with
  | nil => rfl
  | cons p overrides ih =>
    obtain ⟨k', v⟩ := p
    rw [keys_cons, List.nodup_cons] at hnd
    rw [spread_cons, ih hnd.2]
    by_cases hk : k' = k
    · subst hk
      simp [hnd.1]
    · have hk' : ¬ k = k' := fun e => hk e.symm
      simp [get_set_ne hk, get_cons_ne hk, hk']

theorem mem_keys_spread {base overrides : Fields} {k : String} :
    k ∈ keys (spread base overrides) ↔ k ∈ keys overrides ∨ k ∈ keys base := by
  induction overrides generalizing base with
  | nil => simp
  | cons p overrides ih =>
    rw [spread_cons, ih, mem_keys_set, keys_cons, List.mem_cons]
    tauto

theorem keys_without (fs : Fields) (k : String) :
    keys (without fs k) = (keys fs).filter (· ≠ k) := by
  induction fs with
  | nil => rfl
  | cons p fs ih =>
    by_cases h : p.1 = k <;> simp_all [without, keys]

theorem get_without {fs : Fields} {k k' : String} (h : k' ≠ k) :
    get (without fs k) k' = get fs k' := by
  induction fs with
  | nil => rfl
  | cons p fs ih =>
    obtain ⟨l, v⟩ := p
    by_cases hl : l = k
    · have hne : l ≠ k' := fun e => h (e.symm.trans hl)
      rw [without, List.filter_cons_of_neg (by simpa using hl), get_cons_ne hne]
      exact ih
    · rw [without, List.filter_cons_of_pos (by simpa using hl), get_cons, get_cons, ← ih]
      rfl

theorem without_eq_self {fs : Fields} {k : String} (h : k ∉ keys fs) : without fs k = fs := by
  refine List.filter_eq_self.mpr fun p hp => ?_
  have hne : p.1 ≠ k := fun e => h (e ▸ mem_keys_of_mem hp)
  simpa using hne

end Fields

namespace Val

/-- `v.k` for a value that may be anything but `null` and `undefined`: only
objects have the properties the service reads. -/
def get : Val → String → Val
  | .obj fs, k => Fields.get fs k
  | _, _ => .undefined

@[simp] theorem get_obj (fs : Fields) (k : String) : (Val.obj fs).get k = Fields.get fs k := rfl

/-- `v !== undefined && v !== null ? v : d`, the operator `??`. -/
def nullish (v d : Val) : Val :=
  match v with
  | .undefined | .null => d
  | v => v

/-! ## Well-formed values and JSON -/

mutual

/-- Every object in the value has distinct keys. All JavaScript values do; the
association lists have to be told. -/
def Wf : Val → Prop
  | .scalar _ => True
  | .arr vs => WfElems vs
  | .obj fs => (Fields.keys fs).Nodup ∧ WfFields fs
termination_by structural v => v

def WfElems : List Val → Prop
  | [] => True
  | v :: vs => v.Wf ∧ WfElems vs
termination_by structural vs => vs

def WfFields : List (String × Val) → Prop
  | [] => True
  | (_, v) :: fs => v.Wf ∧ WfFields fs
termination_by structural fs => fs

end

theorem wfElems_iff {vs : List Val} : WfElems vs ↔ ∀ v ∈ vs, v.Wf := by
  induction vs with
  | nil => simp [WfElems]
  | cons v vs ih => simp [WfElems, ih]

theorem wfFields_iff {fs : Fields} : WfFields fs ↔ ∀ p ∈ fs, p.2.Wf := by
  induction fs with
  | nil => simp [WfFields]
  | cons p fs ih => simp [WfFields, ih]

theorem wf_get {fs : Fields} (h : (Val.obj fs).Wf) (k : String) : (Fields.get fs k).Wf := by
  by_cases hk : k ∈ Fields.keys fs
  · exact wfFields_iff.mp h.2 _ (Fields.mem_of_mem_keys hk)
  · rw [Fields.get_eq_undefined_of_notMem hk]
    trivial

mutual

/-- `JSON.parse(JSON.stringify(v))`: what is left of a value after it went over
the wire. An `undefined` property is dropped, an `undefined` element is `null`. -/
def toJson : Val → Val
  | .scalar s => .scalar s
  | .arr vs => .arr (toJsonElems vs)
  | .obj fs => .obj (toJsonFields fs)
termination_by structural v => v

def toJsonElems : List Val → List Val
  | [] => []
  | v :: vs => (if v = .undefined then .null else v.toJson) :: toJsonElems vs
termination_by structural vs => vs

def toJsonFields : List (String × Val) → List (String × Val)
  | [] => []
  | (k, v) :: fs =>
    if v = .undefined then Fields.without (toJsonFields fs) k
    else (k, v.toJson) :: Fields.without (toJsonFields fs) k
termination_by structural fs => fs

end

/-- A property of the written object is the written value of the property. -/
theorem get_toJsonFields (fs : Fields) (k : String) :
    Fields.get (toJsonFields fs) k = (Fields.get fs k).toJson := by
  induction fs with
  | nil => rfl
  | cons p fs ih =>
    obtain ⟨k', v⟩ := p
    -- of equal keys the first counts: those after it are dropped
    have hself : Fields.get (Fields.without (toJsonFields fs) k') k' = .undefined := by
      apply Fields.get_eq_undefined_of_notMem
      rw [Fields.keys_without]
      simp
    by_cases hk : k' = k
    · subst hk
      rw [toJsonFields, Fields.get_cons_self]
      by_cases hv : v = .undefined
      · rw [if_pos hv, hself, hv, toJson]
      · rw [if_neg hv, Fields.get_cons_self]
    · have hk' : k ≠ k' := fun e => hk e.symm
      rw [toJsonFields, Fields.get_cons_ne hk, ← ih]
      by_cases hv : v = .undefined
      · rw [if_pos hv, Fields.get_without hk']
      · rw [if_neg hv, Fields.get_cons_ne hk, Fields.get_without hk']

theorem nodup_keys_toJsonFields (fs : Fields) : (Fields.keys (toJsonFields fs)).Nodup := by
  induction fs with
  | nil => exact List.nodup_nil
  | cons p fs ih =>
    obtain ⟨k, v⟩ := p
    have hrest : (Fields.keys (Fields.without (toJsonFields fs) k)).Nodup := by
      rw [Fields.keys_without]
      exact ih.filter _
    rw [toJsonFields]
    by_cases hv : v = .undefined
    · rwa [if_pos hv]
    · rw [if_neg hv, Fields.keys_cons, List.nodup_cons]
      exact ⟨by simp [Fields.keys_without], hrest⟩

mutual

/-- The value is one `JSON.parse` can return: no `undefined` anywhere, and every
object has distinct keys. -/
def IsJson : Val → Prop
  | .scalar s => s ≠ .undefined
  | .arr vs => IsJsonElems vs
  | .obj fs => (Fields.keys fs).Nodup ∧ IsJsonFields fs
termination_by structural v => v

def IsJsonElems : List Val → Prop
  | [] => True
  | v :: vs => v.IsJson ∧ IsJsonElems vs
termination_by structural vs => vs

def IsJsonFields : List (String × Val) → Prop
  | [] => True
  | (_, v) :: fs => v.IsJson ∧ IsJsonFields fs
termination_by structural fs => fs

end

mutual

def decWf : (v : Val) → Decidable v.Wf
  | .scalar _ => isTrue trivial
  | .arr vs => decWfElems vs
  | .obj fs => @instDecidableAnd _ _ inferInstance (decWfFields fs)
termination_by structural v => v

def decWfElems : (vs : List Val) → Decidable (WfElems vs)
  | [] => isTrue trivial
  | v :: vs => @instDecidableAnd _ _ (decWf v) (decWfElems vs)
termination_by structural vs => vs

def decWfFields : (fs : List (String × Val)) → Decidable (WfFields fs)
  | [] => isTrue trivial
  | (_, v) :: fs => @instDecidableAnd _ _ (decWf v) (decWfFields fs)
termination_by structural fs => fs

end

instance (v : Val) : Decidable v.Wf := decWf v

mutual

def decIsJson : (v : Val) → Decidable v.IsJson
  | .scalar s => inferInstanceAs (Decidable (s ≠ .undefined))
  | .arr vs => decIsJsonElems vs
  | .obj fs => @instDecidableAnd _ _ inferInstance (decIsJsonFields fs)
termination_by structural v => v

def decIsJsonElems : (vs : List Val) → Decidable (IsJsonElems vs)
  | [] => isTrue trivial
  | v :: vs => @instDecidableAnd _ _ (decIsJson v) (decIsJsonElems vs)
termination_by structural vs => vs

def decIsJsonFields : (fs : List (String × Val)) → Decidable (IsJsonFields fs)
  | [] => isTrue trivial
  | (_, v) :: fs => @instDecidableAnd _ _ (decIsJson v) (decIsJsonFields fs)
termination_by structural fs => fs

end

instance (v : Val) : Decidable v.IsJson := decIsJson v

theorem isJsonElems_iff {vs : List Val} : IsJsonElems vs ↔ ∀ v ∈ vs, v.IsJson := by
  induction vs with
  | nil => simp [IsJsonElems]
  | cons v vs ih => simp [IsJsonElems, ih]

theorem isJsonFields_iff {fs : Fields} : IsJsonFields fs ↔ ∀ p ∈ fs, p.2.IsJson := by
  induction fs with
  | nil => simp [IsJsonFields]
  | cons p fs ih => simp [IsJsonFields, ih]

theorem isJson_str (s : String) : (Val.str s).IsJson := by
  intro h
  cases h

theorem isJson_num (n : ℚ) : (Val.num n).IsJson := by
  intro h
  cases h

theorem IsJson.ne_undefined {v : Val} (h : v.IsJson) : v ≠ .undefined := by
  rintro rfl
  exact h rfl

theorem IsJson.wf {v : Val} (h : v.IsJson) : v.Wf := by
  induction v with
  | scalar s => trivial
  | arr vs ih =>
    exact wfElems_iff.mpr fun v hv => ih v hv (isJsonElems_iff.mp h v hv)
  | obj fs ih =>
    exact ⟨h.1, wfFields_iff.mpr fun p hp => ih p hp (isJsonFields_iff.mp h.2 p hp)⟩

theorem toJsonElems_eq_map (vs : List Val) :
    toJsonElems vs = vs.map fun v => if v = .undefined then .null else v.toJson := by
  induction vs with
  | nil => rfl
  | cons v vs ih => rw [toJsonElems, ih, List.map_cons]

theorem mem_toJsonFields {fs : Fields} {p : String × Val} (h : p ∈ toJsonFields fs) :
    ∃ q ∈ fs, q.2 ≠ .undefined ∧ p = (q.1, q.2.toJson) := by
  induction fs with
  | nil => exact absurd h List.not_mem_nil
  | cons q fs ih =>
    obtain ⟨k, v⟩ := q
    have hrest : p ∈ Fields.without (toJsonFields fs) k →
        ∃ q ∈ (k, v) :: fs, q.2 ≠ .undefined ∧ p = (q.1, q.2.toJson) := by
      intro hp
      obtain ⟨q, hq, hqv⟩ := ih (List.mem_filter.mp hp).1
      exact ⟨q, List.mem_cons_of_mem _ hq, hqv⟩
    rw [toJsonFields] at h
    by_cases hv : v = .undefined
    · rw [if_pos hv] at h
      exact hrest h
    · rw [if_neg hv] at h
      rcases List.mem_cons.mp h with rfl | h
      · exact ⟨(k, v), List.mem_cons_self, hv, rfl⟩
      · exact hrest h

theorem wf_set {fs : Fields} (h : (Val.obj fs).Wf) {v : Val} (hv : v.Wf) (k : String) :
    (Val.obj (Fields.set fs k v)).Wf := by
  refine ⟨Fields.nodup_keys_set h.1 k v, wfFields_iff.mpr fun p hp => ?_⟩
  rcases Fields.mem_set hp with rfl | hp
  · exact hv
  · exact wfFields_iff.mp h.2 p hp

theorem wf_spread {base overrides : Fields} (hbase : (Val.obj base).Wf)
    (h : ∀ p ∈ overrides, p.2.Wf) : (Val.obj (Fields.spread base overrides)).Wf := by
  induction overrides generalizing base with
  | nil => exact hbase
  | cons p overrides ih =>
    exact ih (wf_set hbase (h p List.mem_cons_self) p.1)
      fun q hq => h q (List.mem_cons_of_mem _ hq)

/-- A document stays JSON when one property is written. -/
theorem isJson_set {fs : Fields} (h : (Val.obj fs).IsJson) {v : Val} (hv : v.IsJson)
    (k : String) : (Val.obj (Fields.set fs k v)).IsJson := by
  refine ⟨Fields.nodup_keys_set h.1 k v, isJsonFields_iff.mpr fun p hp => ?_⟩
  rcases Fields.mem_set hp with rfl | hp
  · exact hv
  · exact isJsonFields_iff.mp h.2 p hp

/-- What goes over the wire is JSON. -/
theorem isJson_toJson {v : Val} (h : v ≠ .undefined) : v.toJson.IsJson := by
  induction v with
  | scalar s => exact fun e => h (congrArg _ e)
  | arr vs ih =>
    rw [toJson, toJsonElems_eq_map]
    refine isJsonElems_iff.mpr fun w hw => ?_
    obtain ⟨v, hv, rfl⟩ := List.mem_map.mp hw
    by_cases hu : v = .undefined
    · rw [if_pos hu]
      exact nofun
    · rw [if_neg hu]
      exact ih v hv hu
  | obj fs ih =>
    refine ⟨nodup_keys_toJsonFields fs, isJsonFields_iff.mpr fun p hp => ?_⟩
    obtain ⟨q, hq, hqv, rfl⟩ := mem_toJsonFields hp
    exact ih q hq hqv

theorem toJsonFields_eq_self {fs : Fields} (hnd : (Fields.keys fs).Nodup)
    (h : ∀ p ∈ fs, p.2 ≠ .undefined ∧ p.2.toJson = p.2) : toJsonFields fs = fs := by
  induction fs with
  | nil => rfl
  | cons p fs ih =>
    obtain ⟨k, v⟩ := p
    obtain ⟨hk, hnd⟩ := List.nodup_cons.mp hnd
    obtain ⟨hv, hjson⟩ := h _ List.mem_cons_self
    rw [toJsonFields, if_neg hv, ih hnd fun q hq => h q (List.mem_cons_of_mem _ hq), hjson,
      Fields.without_eq_self hk]

/-- Writing a value that came from JSON changes nothing. -/
theorem IsJson.toJson_eq {v : Val} (h : v.IsJson) : v.toJson = v := by
  induction v with
  | scalar s => rfl
  | arr vs ih =>
    rw [toJson, toJsonElems_eq_map]
    have helem : ∀ v ∈ vs, (if v = .undefined then .null else v.toJson) = v := by
      intro v hv
      have hj := isJsonElems_iff.mp h v hv
      rw [if_neg hj.ne_undefined, ih v hv hj]
    rw [List.map_congr_left helem, List.map_id']
  | obj fs ih =>
    rw [toJson, toJsonFields_eq_self h.1]
    intro p hp
    have hj := isJsonFields_iff.mp h.2 p hp
    exact ⟨hj.ne_undefined, ih p hp hj⟩

end Val

/-- An object the program holds: its property names are distinct, also inside. -/
structure Obj where
  fields : Fields
  wf : (Val.obj fields).Wf

/-- A value `JSON.parse` returned: a request body, or a document as the storage
keeps it. -/
structure Json where
  val : Val
  isJson : val.IsJson

end WebInsights.Js
