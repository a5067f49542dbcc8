/-
`_.mergeWith`: the recursive merge of one value tree into another under a
customizer, with the rules a proof about a merge needs.

The customizer is asked first, for every property and every element. What it
answers is the merged value, unless it answers `undefined`; then plain objects
are merged property by property, an array is merged element by element into
what is there already, and any other source value replaces the target. An
exception of the customizer ends the merge.

The rules come in one shape. The merge of an object visits the entries of the
source, and for an object, whose keys are distinct, what it leaves under one
key depends on nothing but the two values under that key (`mergeFields_spec`),
so every statement about a merge is one about its cells.
-/
import WebInsights.Js.Lodash

set_option autoImplicit false

namespace WebInsights.Js

open Val

/-- What a merge asks before it merges a property by itself: target value, source
value and key. -/
abbrev Customizer (ε : Type) : Type := Val → Val → String → Except ε Val

/-- What a property holds after `value` is assigned to it in a merge: a merge
never overwrites a property with `undefined`. -/
def assigned (target value : Val) : Val := if value = .undefined then target else value

/-- Assign a merged value to a property of the target. -/
def assignMergeValue (ts : Fields) (k : String) (value : Val) : Fields :=
  if value = .undefined ∧ k ∈ Fields.keys ts then ts else Fields.set ts k value

/-- The elements an array source is merged into: those of a target that is an
array or like one, and none otherwise. -/
def arrayTarget : Val → List Val
  | .arr ts => ts
  | .obj ts => (arrayLikeLength ts).elim [] (copyArray ts)
  | _ => []

/-- The properties an object source is merged into: those of a target that is an
object, and none otherwise. -/
def objectTarget : Val → Fields
  | .obj ts => ts
  | _ => []

@[simp] theorem arrayTarget_undefined : arrayTarget .undefined = [] := rfl

@[simp] theorem objectTarget_undefined : objectTarget .undefined = [] := rfl

variable {ε : Type}

mutual

/-- The merged value of one property (`baseMergeDeep` for a source value with
parts). -/
def mergeValue (c : Customizer ε) (k : String) (target : Val) : Val → Except ε Val
  | .scalar s => do
    let r ← c target (.scalar s) k
    pure (if r = .undefined then .scalar s else r)
  | .arr ss => do
    let r ← c target (.arr ss) k
    if r = .undefined then
      let es ← mergeElems c (arrayTarget target) 0 ss
      pure (.arr es)
    else pure r
  | .obj ss => do
    let r ← c target (.obj ss) k
    if r = .undefined then
      match target with
      -- an array target would get named properties, which a tree has no place for
      | .arr ts => pure (.arr ts)
      | target =>
        let fs ← mergeFields c (objectTarget target) ss
        pure (.obj fs)
    else pure r
termination_by structural v => v

/-- Merge the elements of an array, from index `i` on, into the elements `ts`. -/
def mergeElems (c : Customizer ε) (ts : List Val) (i : ℕ) : List Val → Except ε (List Val)
  | [] => pure ts
  | s :: ss => do
    let r ← mergeValue c (toString i) (ts.headD .undefined) s
    let rest ← mergeElems c ts.tail (i + 1) ss
    pure (assigned (ts.headD .undefined) r :: rest)
termination_by structural vs => vs

/-- Merge the properties of an object into the properties `ts` (`baseMerge`). -/
def mergeFields (c : Customizer ε) (ts : Fields) : List (String × Val) → Except ε Fields
  | [] => pure ts
  | (k, s) :: ss => do
    let r ← mergeValue c k (Fields.get ts k) s
    mergeFields c (assignMergeValue ts k r) ss
termination_by structural fs => fs

end

/-- `_.mergeWith(object, source, c)`, the object it returns. For `undefined` it is
a fresh object. -/
def mergeWith (object source : Val) (c : Customizer ε) : Except ε Val :=
  match source with
  | .obj ss => do
    let fs ← mergeFields c (objectTarget object) ss
    pure (.obj fs)
  | _ => pure object

/-! ## One entry of the source -/

theorem ne_of_notMem_keys {fs : Fields} {k : String} (hk : k ∉ Fields.keys fs)
    {p : String × Val} (hp : p ∈ fs) : k ≠ p.1 := by
  rintro rfl
  exact hk (Fields.mem_keys_of_mem hp)

theorem get_assignMergeValue (ts : Fields) (k k' : String) (v : Val) :
    Fields.get (assignMergeValue ts k v) k' =
      if k = k' then assigned (Fields.get ts k') v else Fields.get ts k' := by
  unfold assignMergeValue assigned
  by_cases hk : k = k'
  · subst hk
    by_cases hv : v = .undefined
    · by_cases hm : k ∈ Fields.keys ts
      · simp [hv, hm]
      · simp [hv, hm, Fields.get_eq_undefined_of_notMem hm]
    · simp [hv]
  · by_cases hc : v = .undefined ∧ k ∈ Fields.keys ts
    · simp [hc, hk]
    · rw [if_neg hc, if_neg hk, Fields.get_set_ne hk]

/-- A merge adds the keys it meets, behind those that are there. -/
theorem keys_assignMergeValue (ts : Fields) (k : String) (v : Val) :
    Fields.keys (assignMergeValue ts k v) = Fields.keys (Fields.set ts k v) := by
  unfold assignMergeValue
  by_cases hc : v = .undefined ∧ k ∈ Fields.keys ts
  · rw [if_pos hc, Fields.keys_set, if_pos hc.2]
  · rw [if_neg hc]

/-- The keys of `ts`, followed by the new ones among `ks`. -/
def addKeys (ts : List String) : List String → List String
  | [] => ts
  | k :: ks => addKeys (if k ∈ ts then ts else ts ++ [k]) ks

theorem mem_addKeys {ts ks : List String} {k : String} : k ∈ addKeys ts ks ↔ k ∈ ts ∨ k ∈ ks := by
  induction ks generalizing ts with
  | nil => simp [addKeys]
  | cons l ks ih =>
    rw [addKeys, ih]
    by_cases hl : l ∈ ts
    · simp only [if_pos hl, List.mem_cons]
      constructor
      · tauto
      · rintro (h | rfl | h)
        · exact Or.inl h
        · exact Or.inl hl
        · exact Or.inr h
    · simp only [if_neg hl, List.mem_append, List.mem_cons, List.not_mem_nil, or_false]
      tauto

theorem nodup_addKeys {ts : List String} (h : ts.Nodup) (ks : List String) :
    (addKeys ts ks).Nodup := by
  induction ks generalizing ts with
  | nil => exact h
  | cons k ks ih =>
    rw [addKeys]
    by_cases hk : k ∈ ts
    · rw [if_pos hk]
      exact ih h
    · rw [if_neg hk]
      refine ih (List.nodup_append.mpr ⟨h, List.nodup_singleton k, fun a ha b hb e => hk ?_⟩)
      rwa [← List.mem_singleton.mp hb, ← e]

theorem prefix_addKeys (ts ks : List String) : ts <+: addKeys ts ks := by
  induction ks generalizing ts with
  | nil => exact List.prefix_refl ts
  | cons k ks ih =>
    rw [addKeys]
    by_cases hk : k ∈ ts
    · rw [if_pos hk]
      exact ih ts
    · rw [if_neg hk]
      exact (List.prefix_append ts [k]).trans (ih _)

theorem addKeys_append (ts ks ls : List String) :
    addKeys ts (ks ++ ls) = addKeys (addKeys ts ks) ls := by
  induction ks generalizing ts with
  | nil => rfl
  | cons k ks ih => rw [List.cons_append, addKeys, ih, addKeys]

theorem addKeys_of_subset {ts ks : List String} (h : ∀ k ∈ ks, k ∈ ts) : addKeys ts ks = ts := by
  induction ks with
  | nil => rfl
  | cons k ks ih =>
    rw [addKeys, if_pos (h k List.mem_cons_self)]
    exact ih fun l hl => h l (List.mem_cons_of_mem _ hl)

/-- Keys that are all new go behind in order. -/
theorem addKeys_of_disjoint {ts ks : List String} (hnd : ks.Nodup) (h : ∀ k ∈ ks, k ∉ ts) :
    addKeys ts ks = ts ++ ks := by
  induction ks generalizing ts with
  | nil => rw [addKeys, List.append_nil]
  | cons k ks ih =>
    obtain ⟨hk, hnd⟩ := List.nodup_cons.mp hnd
    have hrest : ∀ l ∈ ks, l ∉ ts ++ [k] := by
      intro l hl hm
      rcases List.mem_append.mp hm with hm | hm
      · exact h l (List.mem_cons_of_mem _ hl) hm
      · exact hk (List.mem_singleton.mp hm ▸ hl)
    rw [addKeys, if_neg (h k List.mem_cons_self), ih hnd hrest, List.append_assoc,
      List.singleton_append]

/-- Nothing is added exactly when the keys there are come first. -/
theorem addKeys_eq_right_iff {ts ks : List String} (hnd : ks.Nodup) :
    addKeys ts ks = ks ↔ ts <+: ks := by
  constructor
  · intro h
    rw [← h]
    exact prefix_addKeys ts ks
  · rintro ⟨rest, rfl⟩
    obtain ⟨-, hrest, hdisj⟩ := List.nodup_append.mp hnd
    rw [addKeys_append, addKeys_of_subset fun k hk => hk]
    exact addKeys_of_disjoint hrest fun k hk hts => hdisj k hts k hk rfl

/-! ## The cells of a merge -/

/-- **A merge goes cell by cell.** If the merge of every source property gives
`r k`, the merge of the objects exists, its keys are those of the target and
then the new ones, and under each key it has the assigned value. -/
theorem mergeFields_spec {c : Customizer ε} {ts : Fields} {ss : Fields}
    (hnd : (Fields.keys ss).Nodup) (r : String → Val)
    (hr : ∀ p ∈ ss, mergeValue c p.1 (Fields.get ts p.1) p.2 = .ok (r p.1)) :
    ∃ fs, mergeFields c ts ss = .ok fs ∧
      Fields.keys fs = addKeys (Fields.keys ts) (Fields.keys ss) ∧
      ∀ k, Fields.get fs k =
        if k ∈ Fields.keys ss then assigned (Fields.get ts k) (r k) else Fields.get ts k := by
  induction ss generalizing ts with
  | nil => exact ⟨ts, rfl, rfl, fun k => by simp⟩
  | cons p ss ih =>
    obtain ⟨k, s⟩ := p
    rw [Fields.keys_cons, List.nodup_cons] at hnd
    obtain ⟨hk, hnd⟩ := hnd
    have hhead := hr (k, s) List.mem_cons_self
    -- the later entries have other keys, so their targets are still those of `ts`
    have htail : ∀ p ∈ ss,
        mergeValue c p.1 (Fields.get (assignMergeValue ts k (r k)) p.1) p.2 = .ok (r p.1) := by
      intro p hp
      have hne : k ≠ p.1 := ne_of_notMem_keys hk hp
      rw [get_assignMergeValue, if_neg hne]
      exact hr p (List.mem_cons_of_mem _ hp)
    obtain ⟨fs, hfs, hkeys, hget⟩ := ih hnd htail
    refine ⟨fs, ?_, ?_, fun k' => ?_⟩
    · rw [mergeFields, hhead]
      exact hfs
    · rw [hkeys, keys_assignMergeValue, Fields.keys_set, Fields.keys_cons, addKeys]
    · rw [hget k', get_assignMergeValue]
      by_cases hkk : k = k'
      · subst hkk
        simp [hk]
      · have hkk' : ¬ k' = k := fun e => hkk e.symm
        simp [hkk, hkk']

/-- Conversely, a merge of objects that exists has merged every source property. -/
theorem exists_of_mergeFields_eq_ok {c : Customizer ε} {ts ss fs : Fields}
    (hnd : (Fields.keys ss).Nodup) (h : mergeFields c ts ss = .ok fs) :
    ∃ r : String → Val, ∀ p ∈ ss, mergeValue c p.1 (Fields.get ts p.1) p.2 = .ok (r p.1) := by
  induction ss generalizing ts with
  | nil => exact ⟨fun _ => .undefined, fun p hp => absurd hp List.not_mem_nil⟩
  | cons p ss ih =>
    obtain ⟨k, s⟩ := p
    rw [Fields.keys_cons, List.nodup_cons] at hnd
    obtain ⟨hk, hnd⟩ := hnd
    rw [mergeFields] at h
    rcases hv : mergeValue c k (Fields.get ts k) s with e | v
    · rw [hv] at h
      cases h
    · rw [hv] at h
      obtain ⟨r, hr⟩ := ih hnd h
      -- the later properties are merged into an object that has this one
      refine ⟨fun l => if l = k then v else r l, fun p hp => ?_⟩
      rcases List.mem_cons.mp hp with rfl | hp
      · simpa using hv
      · have hne : k ≠ p.1 := ne_of_notMem_keys hk hp
        have hp' := hr p hp
        rw [get_assignMergeValue, if_neg hne] at hp'
        simp [hp', Ne.symm hne]

/-- A merge of objects throws exactly when the merge of one of the source
properties does. -/
theorem mergeFields_error_iff {c : Customizer ε} {ts ss : Fields}
    (hnd : (Fields.keys ss).Nodup) :
    (∃ e, mergeFields c ts ss = .error e) ↔
      ∃ p ∈ ss, ∃ e, mergeValue c p.1 (Fields.get ts p.1) p.2 = .error e := by
  constructor
  · rintro ⟨e, he⟩
    by_contra hno
    push Not at hno
    have hall : ∀ p ∈ ss, ∃ v, mergeValue c p.1 (Fields.get ts p.1) p.2 = .ok v := by
      intro p hp
      rcases hv : mergeValue c p.1 (Fields.get ts p.1) p.2 with e' | v
      · exact absurd hv (hno p hp e')
      · exact ⟨v, rfl⟩
    -- if no property throws, all of them have merges
    have hr : ∃ r : String → Val, ∀ p ∈ ss,
        mergeValue c p.1 (Fields.get ts p.1) p.2 = .ok (r p.1) := by
      refine ⟨fun k => match mergeValue c k (Fields.get ts k) (Fields.get ss k) with
        | .ok v => v
        | .error _ => .undefined, fun p hp => ?_⟩
      obtain ⟨v, hv⟩ := hall p hp
      dsimp only
      rw [Fields.get_eq_of_mem hnd hp, hv]
    obtain ⟨r, hr⟩ := hr
    obtain ⟨fs, hfs, -⟩ := mergeFields_spec hnd r hr
    rw [hfs] at he
    cases he
  · rintro ⟨p, hp, e, he⟩
    rcases hm : mergeFields c ts ss with e' | fs
    · exact ⟨e', rfl⟩
    · -- a merge that succeeds has merged every property
      obtain ⟨r, hr⟩ := exists_of_mergeFields_eq_ok hnd hm
      rw [hr p hp] at he
      cases he

/-- A property the source does not have is left alone. -/
theorem get_mergeFields_of_notMem {c : Customizer ε} {ts ss fs : Fields}
    (hnd : (Fields.keys ss).Nodup) (h : mergeFields c ts ss = .ok fs) {k : String}
    (hk : k ∉ Fields.keys ss) : Fields.get fs k = Fields.get ts k := by
  obtain ⟨r, hr⟩ := exists_of_mergeFields_eq_ok hnd h
  obtain ⟨fs', hfs', -, hget⟩ := mergeFields_spec hnd r hr
  rw [h] at hfs'
  cases hfs'
  rw [hget, if_neg hk]

/-- A property the source has is the assigned merge of the two values. -/
theorem get_mergeFields_of_mem {c : Customizer ε} {ts ss fs : Fields}
    (hnd : (Fields.keys ss).Nodup) (h : mergeFields c ts ss = .ok fs) {k : String}
    (hk : k ∈ Fields.keys ss) :
    ∃ v, mergeValue c k (Fields.get ts k) (Fields.get ss k) = .ok v ∧
      Fields.get fs k = assigned (Fields.get ts k) v := by
  obtain ⟨r, hr⟩ := exists_of_mergeFields_eq_ok hnd h
  obtain ⟨fs', hfs', -, hget⟩ := mergeFields_spec hnd r hr
  rw [h] at hfs'
  cases hfs'
  exact ⟨r k, hr _ (Fields.mem_of_mem_keys hk), by rw [hget, if_pos hk]⟩

/-! ## Where the customizer answers, and where it does not -/

/-- The customizer's answer is the merged value. -/
theorem mergeValue_of_custom {c : Customizer ε} {k : String} {t s r : Val}
    (h : c t s k = .ok r) (hr : r ≠ .undefined) : mergeValue c k t s = .ok r := by
  cases s <;> simp [mergeValue, h, hr, bind, Except.bind, pure, Except.pure]

/-- A scalar the customizer leaves alone replaces the target. -/
theorem mergeValue_scalar {c : Customizer ε} {k : String} {t : Val} {s : Scalar}
    (h : c t (.scalar s) k = .ok .undefined) :
    mergeValue c k t (.scalar s) = .ok (.scalar s) := by
  simp [mergeValue, h, bind, Except.bind, pure, Except.pure]

/-- An exception of the customizer is one of the merge. -/
theorem mergeValue_of_custom_error {c : Customizer ε} {k : String} {t s : Val} {e : ε}
    (h : c t s k = .error e) : mergeValue c k t s = .error e := by
  cases s <;> simp [mergeValue, h, bind, Except.bind]

theorem mergeValue_arr {c : Customizer ε} {k : String} {t : Val} {ss : List Val}
    (h : c t (.arr ss) k = .ok .undefined) :
    mergeValue c k t (.arr ss) = (mergeElems c (arrayTarget t) 0 ss).map .arr := by
  cases hm : mergeElems c (arrayTarget t) 0 ss <;>
    simp [mergeValue, h, hm, bind, Except.bind, pure, Except.pure, Except.map]

theorem mergeValue_obj {c : Customizer ε} {k : String} {t : Val} {ss : Fields}
    (h : c t (.obj ss) k = .ok .undefined) (ht : isArray t = false) :
    mergeValue c k t (.obj ss) = (mergeFields c (objectTarget t) ss).map .obj := by
  cases t with
  | arr ts => cases ht
  | scalar s =>
    cases hm : mergeFields c (objectTarget (.scalar s)) ss <;>
      simp [mergeValue, h, hm, bind, Except.bind, pure, Except.pure, Except.map]
  | obj ts =>
    cases hm : mergeFields c (objectTarget (.obj ts)) ss <;>
      simp [mergeValue, h, hm, bind, Except.bind, pure, Except.pure, Except.map]

/-! ## Customizers that never throw -/

theorem exists_mergeElems {c : Customizer ε} {vs : List Val}
    (h : ∀ v ∈ vs, ∀ (j : ℕ) t, ∃ r, mergeValue c (toString j) t v = .ok r) (ts : List Val)
    (i : ℕ) :
    ∃ es, mergeElems c ts i vs = .ok es := by
  induction vs generalizing ts i with
  | nil => exact ⟨ts, rfl⟩
  | cons v vs ih =>
    obtain ⟨r, hr⟩ := h v List.mem_cons_self i (ts.headD .undefined)
    obtain ⟨es, hes⟩ := ih (fun w hw => h w (List.mem_cons_of_mem _ hw)) ts.tail (i + 1)
    refine ⟨assigned (ts.headD .undefined) r :: es, ?_⟩
    rw [mergeElems, hr, hes]
    rfl

theorem exists_mergeFields {c : Customizer ε} {fs : Fields}
    (h : ∀ p ∈ fs, ∀ k t, ∃ r, mergeValue c k t p.2 = .ok r) (ts : Fields) :
    ∃ gs, mergeFields c ts fs = .ok gs := by
  induction fs generalizing ts with
  | nil => exact ⟨ts, rfl⟩
  | cons p fs ih =>
    obtain ⟨k, v⟩ := p
    obtain ⟨r, hr⟩ := h (k, v) List.mem_cons_self k (Fields.get ts k)
    obtain ⟨gs, hgs⟩ := ih (fun q hq => h q (List.mem_cons_of_mem _ hq)) (assignMergeValue ts k r)
    refine ⟨gs, ?_⟩
    rw [mergeFields, hr]
    exact hgs

/-- The merge of a scalar exists if the customizer's answer does. -/
theorem exists_mergeValue_scalar {c : Customizer ε} {t : Val} {s : Scalar} {k : String}
    (h : ∃ r, c t (.scalar s) k = .ok r) : ∃ r, mergeValue c k t (.scalar s) = .ok r := by
  obtain ⟨r, hr⟩ := h
  by_cases hu : r = .undefined
  · exact ⟨_, mergeValue_scalar (hu ▸ hr)⟩
  · exact ⟨r, mergeValue_of_custom hr hu⟩

/-- A merge throws only where its customizer does. -/
theorem exists_mergeValue {c : Customizer ε} (hc : ∀ t s k, ∃ r, c t s k = .ok r) (v : Val)
    (k : String) (t : Val) : ∃ r, mergeValue c k t v = .ok r := by
  induction v generalizing k t with
  | scalar s => exact exists_mergeValue_scalar (hc t (.scalar s) k)
  | arr vs ih =>
    obtain ⟨r, hr⟩ := hc t (.arr vs) k
    by_cases h : r = .undefined
    · obtain ⟨es, hes⟩ := exists_mergeElems (fun w hw j => ih w hw (toString j)) (arrayTarget t) 0
      exact ⟨.arr es, by rw [mergeValue_arr (h ▸ hr), hes]; rfl⟩
    · exact ⟨r, mergeValue_of_custom hr h⟩
  | obj fs ih =>
    obtain ⟨r, hr⟩ := hc t (.obj fs) k
    by_cases h : r = .undefined
    · rw [h] at hr
      obtain ⟨gs, hgs⟩ := exists_mergeFields ih (objectTarget t)
      -- an object is merged into any target, an array among them
      cases t with
      | arr ts =>
        refine ⟨.arr ts, ?_⟩
        simp [mergeValue, hr, bind, Except.bind, pure, Except.pure]
      | scalar s => exact ⟨.obj gs, by rw [mergeValue_obj hr rfl, hgs]; rfl⟩
      | obj ts => exact ⟨.obj gs, by rw [mergeValue_obj hr rfl, hgs]; rfl⟩
    · exact ⟨r, mergeValue_of_custom hr h⟩

/-- A scalar, or an array of scalars. -/
def Flat : Val → Prop
  | .scalar _ => True
  | .arr vs => ∀ v ∈ vs, ∃ s, v = .scalar s
  | .obj _ => False

/-- The merge of a flat value asks about the value and its elements only. -/
theorem exists_mergeValue_of_flat {c : Customizer ε} {v : Val} (hv : Flat v) {k : String}
    (hc : ∀ t s, ∃ r, c t s k = .ok r)
    (helem : ∀ (i : ℕ) t s, ∃ r, c t s (toString i) = .ok r) (t : Val) :
    ∃ r, mergeValue c k t v = .ok r := by
  cases v with
  | scalar s => exact exists_mergeValue_scalar (hc t (.scalar s))
  | arr vs =>
    obtain ⟨r, hr⟩ := hc t (.arr vs)
    by_cases h : r = .undefined
    · have helems : ∀ v ∈ vs, ∀ (j : ℕ) t, ∃ r, mergeValue c (toString j) t v = .ok r := by
        intro v hmem j t
        obtain ⟨s, rfl⟩ := hv v hmem
        exact exists_mergeValue_scalar (helem j t (.scalar s))
      obtain ⟨es, hes⟩ := exists_mergeElems helems (arrayTarget t) 0
      exact ⟨.arr es, by rw [mergeValue_arr (h ▸ hr), hes]; rfl⟩
    · exact ⟨r, mergeValue_of_custom hr h⟩
  | obj fs => exact hv.elim

/-- An index is a text of digits. -/
theorem toString_ne_of_not_isDigit {s : String} {c : Char} (hc : c ∈ s.toList)
    (hdigit : c.isDigit = false) (i : ℕ) : toString i ≠ s := by
  rintro rfl
  have hmem : c ∈ Nat.toDigits 10 i := by
    simpa [toString, Nat.repr] using hc
  rw [Nat.isDigit_of_mem_toDigits (by omega) (by omega) hmem] at hdigit
  cases hdigit

@[simp] theorem assigned_undefined (v : Val) : assigned .undefined v = v := by
  unfold assigned
  split <;> simp_all

/-! ## `_.merge` -/

/-- What `merge` asks: nothing. -/
def noCustomizer : Customizer Empty := fun _ _ _ => .ok .undefined

/-- `_.merge` of two objects. -/
def merge (object source : Fields) : Fields :=
  match mergeFields noCustomizer object source with
  | .ok fields => fields
  | .error e => e.elim

/-- Values without parts that are not `undefined` are merged as they are spread. -/
theorem merge_eq_spread {source : Fields}
    (hscalar : ∀ p ∈ source, ∃ s : Scalar, p.2 = .scalar s ∧ s ≠ .undefined) (object : Fields) :
    merge object source = Fields.spread object source := by
  induction source generalizing object with
  | nil => rfl
  | cons p source ih =>
    obtain ⟨k, v⟩ := p
    obtain ⟨⟨s, rfl, hs⟩, hrest⟩ := List.forall_mem_cons.mp hscalar
    have hvalue : mergeValue noCustomizer k (Fields.get object k) (.scalar s) = .ok (.scalar s) :=
      mergeValue_scalar rfl
    have hassign : assignMergeValue object k (.scalar s) = Fields.set object k (.scalar s) :=
      if_neg fun h => hs (Val.scalar.inj h.1)
    have hcons : merge object ((k, .scalar s) :: source) =
        merge (Fields.set object k (.scalar s)) source := by
      rw [merge, mergeFields, hvalue, ← hassign]
      rfl
    rw [hcons, ih hrest, Fields.spread_cons]

end WebInsights.Js
