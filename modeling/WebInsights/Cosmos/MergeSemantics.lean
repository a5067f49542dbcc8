/-
What a merge stores, against what the comment on `mergeOrWriteDocument`
promises.

The comment describes a recursive merge property by property; `documentedValue`
is that description, with `{ ...stored, ...cells }` for what it says about a plain
object. The code agrees with it property by property too, and `Aligned` says for
which pairs of a stored value and a source value it does. It does not when an
array is stored and the source value is no array, because the customizer asks
whether the stored value is an array and then deduplicates the source value; nor
when an array with repetitions meets no array, because then nobody deduplicates
it.
-/
import WebInsights.Cosmos.ClientSpec

set_option autoImplicit false

namespace WebInsights.Cosmos.CosmosContainerClient

open Effect Js CosmosClientWrapper

/-! ## The documented merge -/

mutual

/-- What the comment says becomes of a source value over a stored one. -/
def documentedValue (stored : Val) : Val → Val
  | .scalar .undefined => normalizeValue stored
  | .scalar .null => .undefined
  | .scalar s => .scalar s
  | .arr ds => .arr (uniqElems ds)
  | .obj ds => .obj (Fields.spread (normalizeFields (objectTarget stored))
      (documentedCells (objectTarget stored) ds))
termination_by structural v => v

/-- The source's properties after the merge; a stored `_etag` stays. -/
def documentedCells (stored : Fields) : List (String × Val) → List (String × Val)
  | [] => []
  | (k, d) :: ds =>
    (k, if k = "_etag" ∧ Fields.get stored k ≠ .undefined then normalizeValue (Fields.get stored k)
      else documentedValue (Fields.get stored k) d) :: documentedCells stored ds
termination_by structural fs => fs

end

/-- The documented merge of a source document into a stored one. -/
def documentedMerge (stored document : Fields) : Fields :=
  Fields.spread (normalizeFields stored) (documentedCells stored document)

/-! ## Where the code agrees with it -/

/-- The key is `_etag` and there is a stored one. -/
def KeepsEtag (k : String) (stored : Val) : Prop := k = "_etag" ∧ stored ≠ .undefined

instance (k : String) (stored : Val) : Decidable (KeepsEtag k stored) :=
  inferInstanceAs (Decidable (_ ∧ _))

/-- No element of the array is there twice. -/
def Distinct (vs : List Val) : Prop := vs.Pairwise fun v w => sameValueZero v w = false

mutual

/-- Merging the value, element by element and property by property, over what is
there gives the value. -/
def Absorbed (k : String) (target : Val) : Val → Prop
  | .scalar s => if KeepsEtag k target then target = .scalar s
      else isArray target = false ∧ (s = .undefined → target = .undefined)
  | .arr vs => if KeepsEtag k target then target = .arr vs
      else if isArray target = true then Distinct vs
      else AbsorbedElems (arrayTarget target) 0 vs
  | .obj fs => if KeepsEtag k target then target = .obj fs
      else isArray target = false ∧ Fields.keys (objectTarget target) <+: Fields.keys fs ∧
        AbsorbedFields (objectTarget target) fs
termination_by structural v => v

def AbsorbedElems (targets : List Val) (i : ℕ) : List Val → Prop
  | [] => targets = []
  | v :: vs => Absorbed (toString i) (targets.headD .undefined) v ∧
      AbsorbedElems targets.tail (i + 1) vs
termination_by structural vs => vs

def AbsorbedFields (targets : Fields) : List (String × Val) → Prop
  | [] => True
  | (k, v) :: fs => Absorbed k (Fields.get targets k) v ∧ AbsorbedFields targets fs
termination_by structural fs => fs

end

mutual

/-- The pairs of a stored and a source value the code merges as documented. -/
def Aligned (k : String) (stored : Val) : Val → Prop
  | .scalar s => KeepsEtag k stored ∨
      (isArray stored = true → s = .undefined ∧ stored = .arr [])
  | .arr ds => KeepsEtag k stored ∨ isArray stored = true ∨
      Distinct ds ∧ AbsorbedElems (arrayTarget stored) 0 ds
  | .obj ds => KeepsEtag k stored ∨
      isArray stored = false ∧ AlignedFields (objectTarget stored) ds
termination_by structural v => v

def AlignedFields (stored : Fields) : List (String × Val) → Prop
  | [] => True
  | (k, d) :: ds => Aligned k (Fields.get stored k) d ∧ AlignedFields stored ds
termination_by structural fs => fs

end

theorem absorbedFields_iff {ts fs : Fields} :
    AbsorbedFields ts fs ↔ ∀ p ∈ fs, Absorbed p.1 (Fields.get ts p.1) p.2 := by
  induction fs with
  | nil => simp [AbsorbedFields]
  | cons p fs ih => simp [AbsorbedFields, ih]

theorem alignedFields_iff {ss ds : Fields} :
    AlignedFields ss ds ↔ ∀ p ∈ ds, Aligned p.1 (Fields.get ss p.1) p.2 := by
  induction ds with
  | nil => simp [AlignedFields]
  | cons p ds ih => simp [AlignedFields, ih]

theorem keys_documentedCells (stored ds : Fields) :
    Fields.keys (documentedCells stored ds) = Fields.keys ds := by
  induction ds with
  | nil => rfl
  | cons p ds ih => exact congrArg (p.1 :: ·) ih

/-- What the documented merge has for one property of the source. -/
def documentedCell (k : String) (stored source : Val) : Val :=
  if KeepsEtag k stored then normalizeValue stored else documentedValue stored source

theorem get_documentedCells {stored ds : Fields} {k : String} (hk : k ∈ Fields.keys ds) :
    Fields.get (documentedCells stored ds) k =
      documentedCell k (Fields.get stored k) (Fields.get ds k) := by
  induction ds with
  | nil => exact absurd hk List.not_mem_nil
  | cons p ds ih =>
    obtain ⟨l, d⟩ := p
    rw [documentedCells]
    by_cases hl : l = k
    · subst hl
      rw [Fields.get_cons_self, Fields.get_cons_self]
      rfl
    · rw [Fields.get_cons_ne hl, Fields.get_cons_ne hl]
      refine ih ?_
      rcases List.mem_cons.mp hk with h | h
      · exact absurd h.symm hl
      · exact h

/-! ## One property -/

/-- What the merge leaves under one key, before it is normalized. -/
def mergedCell (k : String) (stored source : Val) : Except JsError Val :=
  (mergeValue (mergeCustomizer none) k stored source).map (assigned stored)

/-- A stored etag is what the merge keeps. -/
theorem mergedCell_etag {k : String} {stored : Val} (h : KeepsEtag k stored) (source : Val) :
    mergedCell k stored source = .ok stored := by
  obtain ⟨rfl, hstored⟩ := h
  unfold mergedCell
  rw [mergeValue_of_custom (mergeCustomizer_etag stored source) hstored]
  exact congrArg Except.ok (if_neg hstored)

/-- Over a stored array the merge leaves the deduplicated source value, whatever it
is. -/
theorem mergedCell_array {k : String} {stored : Val} (hetag : ¬ KeepsEtag k stored)
    (h : isArray stored = true) (source : Val) :
    mergedCell k stored source = .ok (uniq source) := by
  have hkey : k ≠ "_etag" := by
    intro hk
    apply hetag
    refine ⟨hk, ?_⟩
    rintro rfl
    exact absurd h (by decide)
  obtain ⟨us, hus⟩ := exists_uniq_eq_arr source
  unfold mergedCell
  rw [mergeValue_of_custom (mergeCustomizer_array hkey h) (by rw [hus]; nofun), hus]
  rfl

/-- Otherwise the customizer has nothing to say. -/
theorem mergeCustomizer_silent {k : String} {stored : Val} (hetag : ¬ KeepsEtag k stored)
    (h : isArray stored = false) (source : Val) :
    mergeCustomizer none stored source k = .ok .undefined := by
  by_cases hkey : k = "_etag"
  · have hstored : stored = .undefined := by
      by_contra hne
      exact hetag ⟨hkey, hne⟩
    rw [hstored]
    exact mergeCustomizer_absent source k
  · exact mergeCustomizer_other hkey h

theorem mergedCell_scalar {k : String} {stored : Val} (hetag : ¬ KeepsEtag k stored)
    (h : isArray stored = false) (s : Scalar) :
    mergedCell k stored (.scalar s) = .ok (assigned stored (.scalar s)) := by
  unfold mergedCell
  rw [mergeValue_scalar (mergeCustomizer_silent hetag h _)]
  rfl

theorem assigned_arr (t : Val) (vs : List Val) : assigned t (.arr vs) = .arr vs :=
  if_neg nofun

theorem assigned_obj (t : Val) (fs : Fields) : assigned t (.obj fs) = .obj fs :=
  if_neg nofun

theorem mergedCell_arr {k : String} {stored : Val} (hetag : ¬ KeepsEtag k stored)
    (h : isArray stored = false) (ds : List Val) :
    mergedCell k stored (.arr ds) =
      (mergeElems (mergeCustomizer none) (arrayTarget stored) 0 ds).map .arr := by
  unfold mergedCell
  rw [mergeValue_arr (mergeCustomizer_silent hetag h _)]
  cases mergeElems (mergeCustomizer none) (arrayTarget stored) 0 ds with
  | error e => rfl
  | ok es => exact congrArg Except.ok (assigned_arr stored es)

theorem mergedCell_obj {k : String} {stored : Val} (hetag : ¬ KeepsEtag k stored)
    (h : isArray stored = false) (ds : Fields) :
    mergedCell k stored (.obj ds) =
      (mergeFields (mergeCustomizer none) (objectTarget stored) ds).map .obj := by
  unfold mergedCell
  rw [mergeValue_obj (mergeCustomizer_silent hetag h _) h]
  cases mergeFields (mergeCustomizer none) (objectTarget stored) ds with
  | error e => rfl
  | ok fs => exact congrArg Except.ok (assigned_obj stored fs)

/-! ## The merge of two objects from its cells -/

theorem keys_spread_eq_addKeys (base overrides : Fields) :
    Fields.keys (Fields.spread base overrides) =
      addKeys (Fields.keys base) (Fields.keys overrides) := by
  induction overrides generalizing base with
  | nil => rfl
  | cons p overrides ih => rw [Fields.spread_cons, ih, Fields.keys_set, Fields.keys_cons, addKeys]

/-- The cells of a merge, all of which exist, are the properties of the merged
object. -/
theorem mergeFields_of_cells {ts ss : Fields} (hnd : (Fields.keys ss).Nodup) (r : String → Val)
    (hr : ∀ p ∈ ss, mergedCell p.1 (Fields.get ts p.1) p.2 = .ok (r p.1)) :
    ∃ fs, mergeFields (mergeCustomizer none) ts ss = .ok fs ∧
      Fields.keys fs = addKeys (Fields.keys ts) (Fields.keys ss) ∧
      ∀ k, Fields.get fs k = if k ∈ Fields.keys ss then r k else Fields.get ts k := by
  have hvalue : ∀ p ∈ ss, ∃ v, mergeValue (mergeCustomizer none) p.1 (Fields.get ts p.1) p.2 =
      .ok v ∧ assigned (Fields.get ts p.1) v = r p.1 := by
    intro p hp
    have hcell := hr p hp
    unfold mergedCell at hcell
    rcases hv : mergeValue (mergeCustomizer none) p.1 (Fields.get ts p.1) p.2 with e | v
    · rw [hv] at hcell
      cases hcell
    · rw [hv] at hcell
      exact ⟨v, rfl, Except.ok.inj hcell⟩
  -- the merge assigns these values property by property
  choose! v hv using hvalue
  obtain ⟨fs, hfs, hkeys, hget⟩ :=
    @mergeFields_spec JsError (mergeCustomizer none) ts ss hnd
      (fun k => v (k, Fields.get ss k)) fun p hp => by
        rw [Fields.get_eq_of_mem hnd hp]
        exact (hv p hp).1
  refine ⟨fs, hfs, hkeys, fun k => ?_⟩
  rw [hget]
  by_cases hk : k ∈ Fields.keys ss
  · rw [if_pos hk, if_pos hk]
    exact (hv _ (Fields.mem_of_mem_keys hk)).2
  · rw [if_neg hk, if_neg hk]

/-! ## Merges that reproduce the source -/

/-- Without a merge of the caller, every cell of a merge exists. -/
theorem exists_mergedCell (k : String) (t v : Val) : ∃ r, mergedCell k t v = .ok r := by
  obtain ⟨r, hr⟩ := exists_mergeValue mergeCustomizer_total v k t
  unfold mergedCell
  rw [hr]
  exact ⟨assigned t r, rfl⟩

theorem exists_mergeElems_total (vs ts : List Val) (i : ℕ) :
    ∃ es, mergeElems (mergeCustomizer none) ts i vs = .ok es :=
  exists_mergeElems (fun v _ j t => exists_mergeValue mergeCustomizer_total v (toString j) t) ts i

theorem mergeElems_cons {ts : List Val} {i : ℕ} {v : Val} {vs es : List Val} {r : Val}
    (hr : mergedCell (toString i) (ts.headD .undefined) v = .ok r)
    (hes : mergeElems (mergeCustomizer none) ts.tail (i + 1) vs = .ok es) :
    mergeElems (mergeCustomizer none) ts i (v :: vs) = .ok (r :: es) := by
  unfold mergedCell at hr
  rcases hv : mergeValue (mergeCustomizer none) (toString i) (ts.headD .undefined) v with e | w
  · rw [hv] at hr
    cases hr
  · rw [hv] at hr
    rw [mergeElems, hv, hes, ← Except.ok.inj hr]
    rfl

/-- Elements of the source are never dropped. -/
theorem length_le_of_mergeElems {ts vs es : List Val} {i : ℕ}
    (h : mergeElems (mergeCustomizer none) ts i vs = .ok es) : vs.length ≤ es.length := by
  induction vs generalizing ts i es with
  | nil => exact Nat.zero_le _
  | cons v vs ih =>
    obtain ⟨r, hr⟩ := exists_mergedCell (toString i) (ts.headD .undefined) v
    obtain ⟨rest, hrest⟩ := exists_mergeElems_total vs ts.tail (i + 1)
    rw [mergeElems_cons hr hrest] at h
    cases h
    exact Nat.succ_le_succ (ih hrest)

/-- Elementwise: an array is reproduced when every element is. -/
theorem mergeElems_eq_self_iff {vs : List Val}
    (ih : ∀ v ∈ vs, ∀ k t, mergedCell k t v = .ok v ↔ Absorbed k t v) (ts : List Val) (i : ℕ) :
    mergeElems (mergeCustomizer none) ts i vs = .ok vs ↔ AbsorbedElems ts i vs := by
  induction vs generalizing ts i with
  | nil =>
    rw [mergeElems, AbsorbedElems]
    exact ⟨fun h => Except.ok.inj h, fun h => congrArg Except.ok h⟩
  | cons v vs ihs =>
    obtain ⟨r, hr⟩ := exists_mergedCell (toString i) (ts.headD .undefined) v
    obtain ⟨es, hes⟩ := exists_mergeElems_total vs ts.tail (i + 1)
    have hhead := ih v List.mem_cons_self (toString i) (ts.headD .undefined)
    have htail := ihs (fun w hw => ih w (List.mem_cons_of_mem _ hw)) ts.tail (i + 1)
    rw [hr, Except.ok.injEq] at hhead
    rw [hes, Except.ok.injEq] at htail
    rw [mergeElems_cons hr hes, AbsorbedElems, ← hhead, ← htail, Except.ok.injEq,
      List.cons.injEq]

/-- Property by property: an object is reproduced when every property is, and it
names the properties that are there first. -/
theorem mergeFields_eq_self_iff {ts fs : Fields} (hnd : (Fields.keys fs).Nodup)
    (ih : ∀ p ∈ fs, ∀ k t, mergedCell k t p.2 = .ok p.2 ↔ Absorbed k t p.2) :
    mergeFields (mergeCustomizer none) ts fs = .ok fs ↔
      Fields.keys ts <+: Fields.keys fs ∧ AbsorbedFields ts fs := by
  have hex : ∀ k, ∃ r, mergedCell k (Fields.get ts k) (Fields.get fs k) = .ok r :=
    fun k => exists_mergedCell k _ _
  choose r hr using hex
  obtain ⟨gs, hgs, hkeys, hget⟩ := mergeFields_of_cells hnd r fun p hp => by
    rw [← Fields.get_eq_of_mem hnd hp]
    exact hr p.1
  -- what a property becomes is the source's, if it is absorbed
  have hcell : ∀ p ∈ fs, r p.1 = p.2 ↔ Absorbed p.1 (Fields.get ts p.1) p.2 := by
    intro p hp
    have hp' := ih p hp p.1 (Fields.get ts p.1)
    have hr' := hr p.1
    rw [Fields.get_eq_of_mem hnd hp] at hr'
    rwa [hr', Except.ok.injEq] at hp'
  rw [hgs, Except.ok.injEq, absorbedFields_iff, ← addKeys_eq_right_iff hnd, ← hkeys]
  constructor
  · rintro rfl
    refine ⟨rfl, fun p hp => (hcell p hp).mp ?_⟩
    have hmem := Fields.mem_keys_of_mem hp
    have hp' := hget p.1
    rwa [if_pos hmem, Fields.get_eq_of_mem hnd hp, eq_comm] at hp'
  · rintro ⟨hk, habs⟩
    -- the keys are in the same order, and each value is the same
    refine Fields.ext_of_keys hk (hk ▸ hnd) fun k hmem => ?_
    rw [hk] at hmem
    have hmem' := Fields.mem_of_mem_keys hmem
    rw [hget, if_pos hmem]
    exact (hcell _ hmem').mpr (habs _ hmem')

/-- **A cell reproduces its source value exactly when the value is absorbed.** -/
theorem mergedCell_eq_self_iff {v : Val} (hv : v.Wf) (k : String) (t : Val) :
    mergedCell k t v = .ok v ↔ Absorbed k t v := by
  induction v generalizing k t with
  | scalar s =>
    rw [Absorbed]
    by_cases hetag : KeepsEtag k t
    · rw [mergedCell_etag hetag, if_pos hetag, Except.ok.injEq]
    · rw [if_neg hetag]
      rcases harr : isArray t with _ | _
      · rw [mergedCell_scalar hetag harr, Except.ok.injEq]
        by_cases hs : s = .undefined
        · subst hs
          simp [assigned]
        · simp [assigned, hs]
      · obtain ⟨us, hus⟩ := exists_uniq_eq_arr (.scalar s)
        rw [mergedCell_array hetag harr, hus]
        simp
  | arr vs ih =>
    rw [Absorbed]
    by_cases hetag : KeepsEtag k t
    · rw [mergedCell_etag hetag, if_pos hetag, Except.ok.injEq]
    · rw [if_neg hetag]
      rcases harr : isArray t with _ | _
      · rw [mergedCell_arr hetag harr, if_neg nofun]
        have helems := mergeElems_eq_self_iff
          (fun v hmem k t => ih v hmem (Val.wfElems_iff.mp hv v hmem) k t) (arrayTarget t) 0
        rw [← helems]
        cases mergeElems (mergeCustomizer none) (arrayTarget t) 0 vs <;> simp [Except.map]
      · -- a stored array is replaced, without its repetitions
        rw [mergedCell_array hetag harr, if_pos rfl, Distinct, ← uniqElems_eq_self]
        simp [uniq]
  | obj fs ih =>
    rw [Absorbed]
    by_cases hetag : KeepsEtag k t
    · rw [mergedCell_etag hetag, if_pos hetag, Except.ok.injEq]
    · rw [if_neg hetag]
      rcases harr : isArray t with _ | _
      · rw [mergedCell_obj hetag harr]
        have hfields := @mergeFields_eq_self_iff (objectTarget t) fs hv.1
          fun p hmem k t => ih p hmem (Val.wfFields_iff.mp hv.2 p hmem) k t
        rw [← hfields]
        cases mergeFields (mergeCustomizer none) (objectTarget t) fs <;> simp [Except.map]
      · obtain ⟨us, hus⟩ := exists_uniq_eq_arr (.obj fs)
        rw [mergedCell_array hetag harr, hus]
        simp

/-! ## The merge as documented -/

/-- An array keeps its length under `_.uniq` only if nothing is repeated. -/
theorem eq_uniqElems_iff {ds es : List Val} (h : ds.length ≤ es.length) :
    es = uniqElems ds ↔ Distinct ds ∧ es = ds := by
  rw [Distinct, ← uniqElems_eq_self]
  constructor
  · rintro rfl
    have huniq := (uniqElems_sublist ds).eq_of_length_le h
    exact ⟨huniq, huniq⟩
  · rintro ⟨huniq, rfl⟩
    exact huniq.symm

theorem documentedCells_get {ss ds : Fields} (hds : (Fields.keys ds).Nodup) (k : String) :
    Fields.get (Fields.spread (normalizeFields ss) (documentedCells ss ds)) k =
      if k ∈ Fields.keys ds then documentedCell k (Fields.get ss k) (Fields.get ds k)
      else normalizeValue (Fields.get ss k) := by
  rw [Fields.get_spread (by rwa [keys_documentedCells]), keys_documentedCells]
  by_cases hk : k ∈ Fields.keys ds
  · rw [if_pos hk, if_pos hk, get_documentedCells hk]
  · rw [if_neg hk, if_neg hk, get_normalizeFields]

theorem keys_documentedMerge (ss ds : Fields) :
    Fields.keys (documentedMerge ss ds) = addKeys (Fields.keys ss) (Fields.keys ds) := by
  unfold documentedMerge
  rw [keys_spread_eq_addKeys, keys_documentedCells, keys_normalizeFields]

/-- The merge of two objects, normalized, against the documented one, key by key.
Where the two can differ is under the keys of the source. -/
theorem normalized_cells {ss ds : Fields} (hds : (Fields.keys ds).Nodup) :
    ∃ fs, mergeFields (mergeCustomizer none) ss ds = .ok fs ∧
      Fields.keys (normalizeFields fs) = Fields.keys (documentedMerge ss ds) ∧
      ∀ k, Fields.get (normalizeFields fs) k = Fields.get (documentedMerge ss ds) k ↔
        (k ∈ Fields.keys ds →
          (mergedCell k (Fields.get ss k) (Fields.get ds k)).map normalizeValue =
            .ok (documentedCell k (Fields.get ss k) (Fields.get ds k))) := by
  have hex : ∀ k, ∃ r, mergedCell k (Fields.get ss k) (Fields.get ds k) = .ok r :=
    fun k => exists_mergedCell k _ _
  choose r hr using hex
  obtain ⟨fs, hfs, hkeys, hget⟩ := mergeFields_of_cells hds r fun p hp => by
    rw [← Fields.get_eq_of_mem hds hp]
    exact hr p.1
  refine ⟨fs, hfs, ?_, fun k => ?_⟩
  · rw [keys_normalizeFields, hkeys, keys_documentedMerge]
  · rw [get_normalizeFields, hget, documentedMerge, documentedCells_get hds, hr]
    by_cases hk : k ∈ Fields.keys ds
    · simp [hk, Except.map]
    · simp [hk]

theorem nodup_keys_objectTarget {v : Val} (h : v.Wf) : (Fields.keys (objectTarget v)).Nodup := by
  cases v with
  | scalar s => exact List.nodup_nil
  | arr vs => exact List.nodup_nil
  | obj fs => exact h.1

theorem wf_get_objectTarget {v : Val} (h : v.Wf) (k : String) :
    (Fields.get (objectTarget v) k).Wf := by
  cases v with
  | scalar s => trivial
  | arr vs => trivial
  | obj fs => exact Val.wf_get h k

/-- Two objects are merged as documented when all their cells are. -/
theorem normalizedMerge_eq_iff {ss ds : Fields} (hss : (Fields.keys ss).Nodup)
    (hds : (Fields.keys ds).Nodup)
    (hcell : ∀ p ∈ ds, ∀ k,
      (mergedCell k (Fields.get ss k) p.2).map normalizeValue =
        .ok (documentedCell k (Fields.get ss k) p.2) ↔ Aligned k (Fields.get ss k) p.2) :
    (mergeFields (mergeCustomizer none) ss ds).map normalizeFields =
      .ok (documentedMerge ss ds) ↔ AlignedFields ss ds := by
  obtain ⟨fs, hfs, hkeys, hget⟩ := @normalized_cells ss ds hds
  have hnd : (Fields.keys (normalizeFields fs)).Nodup := by
    rw [hkeys, keys_documentedMerge]
    exact nodup_addKeys hss _
  have hmap : (mergeFields (mergeCustomizer none) ss ds).map normalizeFields =
      .ok (documentedMerge ss ds) ↔ normalizeFields fs = documentedMerge ss ds := by
    simp [hfs, Except.map]
  rw [hmap, alignedFields_iff]
  constructor
  · intro heq p hp
    have hp' := (hget p.1).mp (by rw [heq]) (Fields.mem_keys_of_mem hp)
    rw [Fields.get_eq_of_mem hds hp] at hp'
    exact (hcell p hp p.1).mp hp'
  · intro hal
    refine Fields.ext_of_keys hkeys hnd fun k _ => (hget k).mpr fun hk => ?_
    exact (hcell _ (Fields.mem_of_mem_keys hk) k).mpr (hal _ (Fields.mem_of_mem_keys hk))

/-- **The code merges a value as documented exactly when the pair is aligned.** -/
theorem mergedCell_documented_iff {d : Val} (hd : d.Wf) (k : String) {s : Val} (hs : s.Wf) :
    (mergedCell k s d).map normalizeValue = .ok (documentedCell k s d) ↔ Aligned k s d := by
  induction d generalizing k s with
  | scalar a =>
    rw [Aligned]
    by_cases hetag : KeepsEtag k s
    · simp [mergedCell_etag hetag, documentedCell, hetag, Except.map]
    · rw [documentedCell, if_neg hetag]
      rcases harr : isArray s with _ | _
      · -- over what is no array a scalar is stored as documented, whatever it is
        rw [mergedCell_scalar hetag harr]
        cases a <;> simp [assigned, Except.map, normalizeValue, documentedValue]
      · -- over an array it is deduplicated into one
        obtain ⟨ss, rfl⟩ : ∃ ss, s = .arr ss := by
          cases s with
          | arr ss => exact ⟨ss, rfl⟩
          | scalar b => cases harr
          | obj fs => cases harr
        rw [mergedCell_array hetag harr]
        cases a <;> simp [uniq, Except.map, normalizeValue, documentedValue, hetag, eq_comm]
  | arr ds ih =>
    rw [Aligned]
    by_cases hetag : KeepsEtag k s
    · simp [mergedCell_etag hetag, documentedCell, hetag, Except.map]
    · rw [documentedCell, if_neg hetag, documentedValue]
      rcases harr : isArray s with _ | _
      · rw [mergedCell_arr hetag harr]
        obtain ⟨es, hes⟩ := exists_mergeElems_total ds (arrayTarget s) 0
        have hself := mergeElems_eq_self_iff (fun v hv k t =>
          mergedCell_eq_self_iff (Val.wfElems_iff.mp hd v hv) k t) (arrayTarget s) 0
        rw [hes, Except.ok.injEq] at hself
        have huniq := eq_uniqElems_iff (length_le_of_mergeElems hes)
        rw [hself] at huniq
        simpa [hes, Except.map, normalizeValue, hetag] using huniq
      · simp [mergedCell_array hetag harr, uniq, Except.map, normalizeValue]
  | obj ds ih =>
    rw [Aligned]
    by_cases hetag : KeepsEtag k s
    · simp [mergedCell_etag hetag, documentedCell, hetag, Except.map]
    · rw [documentedCell, if_neg hetag, documentedValue]
      rcases harr : isArray s with _ | _
      · have hfields := normalizedMerge_eq_iff (nodup_keys_objectTarget hs) hd.1 fun p hp k =>
          ih p hp (Val.wfFields_iff.mp hd.2 p hp) k (wf_get_objectTarget hs k)
        rw [mergedCell_obj hetag harr, ← documentedMerge, ← hfields]
        cases mergeFields (mergeCustomizer none) (objectTarget s) ds <;>
          simp [Except.map, normalizeValue, hetag]
      · obtain ⟨us, hus⟩ := exists_uniq_eq_arr (.obj ds)
        simp [mergedCell_array hetag harr, hus, Except.map, normalizeValue, hetag]

/-- **A document whose values are aligned with the stored ones** is merged as documented. -/
theorem mergedDocument_documented {S : Document} {D : Obj}
    (h : ∀ p ∈ D.fields, Aligned p.1 (S.get p.1) p.2) :
    mergedDocument S.val D.fields none = .ok (documentedMerge S.fields D.fields) := by
  rw [Document.val, mergedDocument_obj]
  refine (normalizedMerge_eq_iff S.isJson.1 D.wf.1 fun p hp k => ?_).mpr
    (alignedFields_iff.mpr h)
  exact mergedCell_documented_iff (Val.wfFields_iff.mp D.wf.2 p hp) k (Val.wf_get S.isJson.wf k)

/-! ## The document that is upserted -/

/-- The call sends an upsert of `item`. -/
def SendsUpsert {α : Type} (svc : Service) (container : Container) (p : Async α) (w : World)
    (item : Fields) : Prop :=
  ∃ ifMatch, Operation.cosmos container (.upsert item ifMatch) ∈ p.ops (World.handle svc) w

theorem sendsUpsert_upsertItem (svc : Service) (container : Container) (document : Fields)
    (epk : Val) (throwIfNotSuccess : Bool) (w : World) (item : Fields) :
    SendsUpsert svc container (upsertItem container document epk throwIfNotSuccess) w item ↔
      assignPartitionKey document epk = item := by
  unfold SendsUpsert
  rw [ops_upsertItem, upsertRequest]
  simp [eq_comm]

/-- The initial read was answered with the document `S` and a success status. -/
def ReadsStored (svc : Service) (container : Container) (w : World) (id epk : Val)
    (S : Document) : Prop :=
  ∃ status, client.isSuccessStatusCode status = true ∧
    (World.handle svc (.cosmos container (.read id epk)) w).1 = .ok ⟨S.val, status⟩

/-- After a successful read a merge upserts the one document it merged. -/
theorem sendsUpsert_merged {svc : Service} {container : Container} {w : World} {S : Document}
    {document : Fields} {partitionKey : Val} {customMerge : Option CustomMerge} {merged : Fields}
    (hid : Fields.get document "id" ≠ .undefined)
    (hpk : effectivePartitionKey document partitionKey ≠ .undefined)
    (hread : ReadsStored svc container w (Fields.get document "id")
      (effectivePartitionKey document partitionKey) S)
    (hmerged : mergedDocument S.val document customMerge = .ok merged)
    (throwIfNotSuccess : Bool) (item : Fields) :
    SendsUpsert svc container
        (mergeOrWriteDocument container document partitionKey throwIfNotSuccess customMerge) w
        item ↔
      assignPartitionKey merged (effectivePartitionKey document partitionKey) = item := by
  obtain ⟨status, hstatus, hanswer⟩ := hread
  have h404 : status ≠ .code 404 := by
    rintro rfl
    exact absurd hstatus (by decide)
  unfold SendsUpsert
  rw [mergeOrWriteDocument_eq hid hpk, World.ops_request_bind, hanswer]
  -- the read itself is no upsert, and the rest is the upsert of the merged document
  have hrest : mergeOrWrite container document (effectivePartitionKey document partitionKey)
      throwIfNotSuccess customMerge ⟨S.val, .undefined, status⟩ =
      upsertItem container merged (effectivePartitionKey document partitionKey)
        throwIfNotSuccess := mergeOrWrite_merged h404 hmerged _ _
  rw [readResponse, Program.ofExcept_ok, pure_bind, hrest]
  simpa [SendsUpsert] using sendsUpsert_upsertItem svc container merged
    (effectivePartitionKey document partitionKey) throwIfNotSuccess _ item

/-- Two documents with the same keys are equal apart from the assigned partition key
when they agree on every other key. -/
theorem assignPartitionKey_eq_iff {fs gs : Fields} (hkeys : Fields.keys fs = Fields.keys gs)
    (hnd : (Fields.keys fs).Nodup) (epk : Val) :
    assignPartitionKey fs epk = assignPartitionKey gs epk ↔
      ∀ k ∈ Fields.keys fs,
        (k = "partitionKey" ∧ isEmpty epk = false) ∨ Fields.get fs k = Fields.get gs k := by
  unfold assignPartitionKey
  rcases hempty : isEmpty epk with _ | _
  · rw [if_neg nofun, if_neg nofun]
    constructor
    · intro heq k _
      by_cases hk : k = "partitionKey"
      · exact Or.inl ⟨hk, rfl⟩
      · right
        -- setting the partition key hides no other property
        have hget := congrArg (fun hs => Fields.get hs k) heq
        simpa only [Fields.get_set_ne (Ne.symm hk)] using hget
    · intro h
      have hkeys' : Fields.keys (Fields.set fs "partitionKey" epk) =
          Fields.keys (Fields.set gs "partitionKey" epk) := by
        rw [Fields.keys_set, Fields.keys_set, hkeys]
      refine Fields.ext_of_keys hkeys' (Fields.nodup_keys_set hnd _ _) fun k hk => ?_
      rw [Fields.get_set, Fields.get_set]
      by_cases hpk : "partitionKey" = k
      · rw [if_pos hpk, if_pos hpk]
      · rw [if_neg hpk, if_neg hpk]
        have hmem : k ∈ Fields.keys fs :=
          (Fields.mem_keys_set.mp hk).resolve_left fun e => hpk e.symm
        exact (h k hmem).resolve_left fun e => hpk e.1.symm
  · rw [if_pos rfl, if_pos rfl]
    constructor
    · rintro rfl k _
      exact Or.inr rfl
    · intro h
      exact Fields.ext_of_keys hkeys hnd fun k hk =>
        (h k hk).resolve_left fun e => absurd e.2 (by decide)

/-- **What is stored is the documented merge, apart from the partition key, exactly
when every property of the document is aligned with the stored one.** -/
theorem mergeOrWriteDocument_documented_iff (svc : Service) (container : Container) (w : World)
    (S : Document) (D : Obj) (partitionKey : Val) (throwIfNotSuccess : Bool)
    (hid : Fields.get D.fields "id" ≠ .undefined)
    (hpk : effectivePartitionKey D.fields partitionKey ≠ .undefined)
    (hread : ReadsStored svc container w (Fields.get D.fields "id")
      (effectivePartitionKey D.fields partitionKey) S) :
    SendsUpsert svc container
        (mergeOrWriteDocument container D.fields partitionKey throwIfNotSuccess none) w
        (assignPartitionKey (documentedMerge S.fields D.fields)
          (effectivePartitionKey D.fields partitionKey)) ↔
      ∀ p ∈ D.fields,
        (p.1 = "partitionKey" ∧ isEmpty (effectivePartitionKey D.fields partitionKey) = false) ∨
          Aligned p.1 (S.get p.1) p.2 := by
  obtain ⟨fs, hfs, hkeys, hget⟩ := @normalized_cells S.fields D.fields D.wf.1
  have hmerged : mergedDocument S.val D.fields none = .ok (normalizeFields fs) := by
    rw [Document.val, mergedDocument_obj, hfs]
    rfl
  have hnd : (Fields.keys (normalizeFields fs)).Nodup := by
    rw [hkeys, keys_documentedMerge]
    exact nodup_addKeys S.isJson.1 _
  rw [sendsUpsert_merged hid hpk hread hmerged, assignPartitionKey_eq_iff hkeys hnd]
  -- a key the document does not have is kept by both merges
  have hcell : ∀ p ∈ D.fields, Fields.get (normalizeFields fs) p.1 =
      Fields.get (documentedMerge S.fields D.fields) p.1 ↔ Aligned p.1 (S.get p.1) p.2 := by
    intro p hp
    have hcell' := @mergedCell_documented_iff p.2 (Val.wfFields_iff.mp D.wf.2 p hp) p.1
      (S.get p.1) (Val.wf_get S.isJson.wf p.1)
    rw [← hcell', hget, Fields.get_eq_of_mem D.wf.1 hp]
    exact ⟨fun h => h (Fields.mem_keys_of_mem hp), fun h _ => h⟩
  constructor
  · intro h p hp
    have hmem : p.1 ∈ Fields.keys (normalizeFields fs) := by
      rw [hkeys, keys_documentedMerge, mem_addKeys]
      exact Or.inr (Fields.mem_keys_of_mem hp)
    exact (h p.1 hmem).imp id (hcell p hp).mp
  · intro h k _
    by_cases hk : k ∈ Fields.keys D.fields
    · exact (h _ (Fields.mem_of_mem_keys hk)).imp id (hcell _ (Fields.mem_of_mem_keys hk)).mpr
    · exact Or.inr ((hget k).mpr fun hk' => absurd hk' hk)

/-! A stored array against a source that leaves it undefined, and against one that
replaces it. -/

/-- A document with one property beside its keys. -/
def taggedFields (tags : Val) : Fields :=
  [("id", .str "a"), ("partitionKey", .str "p"), ("tags", tags)]

/-- What Cosmos stored when it was given the tags `["x"]`. -/
def taggedStored : Document := Service.counting.stamp 0 (taggedFields (.arr [.str "x"]))

/-- A world that holds that document. -/
def taggedWorld : World where
  repo := fun _ => Collection.empty.put taggedStored
  guids := fun _ => Common.V6Guid.zero
  nextGuid := 0
  faults := []

/-- The stored tags do not survive a source that leaves them undefined. -/
theorem mergeOrWriteDocument_undefined_over_array :
    ¬ SendsUpsert Service.counting .websiteData
        (mergeOrWriteDocument .websiteData (taggedFields .undefined) .undefined true none)
        taggedWorld
        (assignPartitionKey (documentedMerge taggedStored.fields (taggedFields .undefined))
          (.str "p")) := by
  have hmerged : mergedDocument taggedStored.val (taggedFields .undefined) none =
      .ok [("id", .str "a"), ("partitionKey", .str "p"), ("tags", .arr []),
        ("_etag", .str ""), ("_ts", .num 0)] := rfl
  rw [sendsUpsert_merged (S := taggedStored) (by decide) (by decide) ⟨.code 200, rfl, rfl⟩ hmerged]
  decide

/-- Other tags replace them. -/
theorem mergeOrWriteDocument_array_over_array :
    SendsUpsert Service.counting .websiteData
        (mergeOrWriteDocument .websiteData (taggedFields (.arr [.str "y"])) .undefined true none)
        taggedWorld
        (assignPartitionKey (documentedMerge taggedStored.fields (taggedFields (.arr [.str "y"])))
          (.str "p")) := by
  refine (mergeOrWriteDocument_documented_iff Service.counting .websiteData taggedWorld
    taggedStored ⟨taggedFields (.arr [.str "y"]), by decide⟩ .undefined true (by decide)
    (by decide) ⟨.code 200, rfl, rfl⟩).mpr ?_
  have hstored : taggedStored.fields = [("id", .str "a"), ("partitionKey", .str "p"),
      ("tags", .arr [.str "x"]), ("_etag", .str ""), ("_ts", .num 0)] := rfl
  simp [taggedFields, Aligned, Document.get, hstored, Fields.get, isArray]

end WebInsights.Cosmos.CosmosContainerClient
