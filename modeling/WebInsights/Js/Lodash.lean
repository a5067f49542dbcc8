/-
The lodash functions the service calls, on the value trees of `Js/Value.lean`.

Each definition follows the documented behaviour of lodash 4.17 for the
arguments a tree can be. Two of them are looser than their names say, and the
code that calls them meets both: `uniq` and `includes` also accept what is not
an array, and then answer something other than an error.

Two elements are the same element when they are the same scalar. Arrays and
objects are compared by identity in JavaScript, and in a tree no two parts are
the same object.
-/
import Mathlib.Data.List.Infix
import WebInsights.Data.FirstOccurrences
import WebInsights.Js.NumberText
import WebInsights.Js.Value

set_option autoImplicit false

namespace WebInsights.Js

open Val

/-- `_.isArray`. -/
def isArray : Val → Bool
  | .arr _ => true
  | _ => false

/-- `_.isEmpty`: no elements, no characters or no properties; also true of every
number, boolean, `null` and `undefined`. -/
def isEmpty : Val → Bool
  | .str s => s = ""
  | .arr vs => vs.isEmpty
  | .obj fs => fs.isEmpty
  | _ => true

/-- `Boolean(v)`. -/
def toBoolean : Val → Bool
  | .undefined | .null => false
  | .bool b => b
  | .num n => n ≠ 0
  | .str s => s ≠ ""
  | .arr _ | .obj _ => true

/-- `String(v)`. -/
def toStr : Val → String
  | .undefined => "undefined"
  | .null => "null"
  | .bool b => toString b
  | .num n => numberText n
  | .str s => s
  | .arr vs => ",".intercalate (elems vs)
  | .obj _ => "[object Object]"
where
  /-- The parts `Array.prototype.join` puts between the commas. -/
  elems : List Val → List String
    | [] => []
    | v :: vs => (match v with
        | .undefined | .null => ""
        | v => toStr v) :: elems vs

/-- `Number(v)`, and `none` for what is no number. -/
def toNum : Val → Option ℚ
  | .undefined | .obj _ => none
  | .null => some 0
  | .bool b => some (if b then 1 else 0)
  | .num n => some n
  | .str s => textNumber s
  | .arr vs => textNumber (toStr (.arr vs))

/-- Equality of elements (`SameValueZero`). -/
def sameValueZero : Val → Val → Bool
  | .scalar a, .scalar b => a = b
  | _, _ => false

/-- The number of elements `_.isArrayLike` reads off an object with a valid
`length`; `none` when the object is not array-like. -/
def arrayLikeLength (fs : Fields) : Option ℕ :=
  match Fields.get fs "length" with
  | .num n => if n.den = 1 ∧ 0 ≤ n.num ∧ n.num ≤ 9007199254740991 then some n.num.toNat else none
  | _ => none

/-- How many indices, from zero on, are less than a `length`. -/
def indicesBelow (length : Val) : ℕ := (toNum length).elim 0 fun n => ⌈n⌉.toNat

/-- The elements of an array-like object. -/
def copyArray (fs : Fields) (length : ℕ) : List Val :=
  (List.range length).map fun i => Fields.get fs (toString i)

/-- The own properties `{ ...v }` copies: of an array its elements and of a text its
characters, under their indices. -/
def ownFields : Val → Fields
  | .obj fs => fs
  | .arr vs => vs.mapIdx fun i v => (toString i, v)
  | .str s => s.toList.mapIdx fun i c => (toString i, .str (String.singleton c))
  | _ => []

/-! ## `_.uniq` and `_.difference` -/

/-- `_.uniq` of an array: the first occurrence of every element. -/
def uniqElems : List Val → List Val
  | [] => []
  | v :: vs => v :: (uniqElems vs).filter fun w => !sameValueZero v w

/-- `_.uniq`: of a string its distinct characters, of an object the distinct ones of the values
below its `length`, whatever that is (from 200 of them on lodash makes a `Set` of the object and
throws, which is left out); of anything else that is not an array the empty array. -/
def uniq : Val → Val
  | .arr vs => .arr (uniqElems vs)
  | .str s => .arr (uniqElems (s.toList.map fun c => .str (String.singleton c)))
  | .obj fs => .arr (uniqElems (copyArray fs (indicesBelow (Fields.get fs "length"))))
  | _ => .arr []

/-- `_.difference(vs, ws)`: the elements of `vs`, repetitions included, that are
not in `ws`. -/
def difference (vs ws : List Val) : List Val :=
  vs.filter fun v => !ws.any (sameValueZero v)

theorem sameValueZero_iff {v w : Val} :
    sameValueZero v w = true ↔ ∃ s, v = .scalar s ∧ w = .scalar s := by
  cases v <;> cases w <;> simp [sameValueZero, eq_comm]

theorem eq_of_sameValueZero {v w : Val} (h : sameValueZero v w = true) : v = w := by
  obtain ⟨s, rfl, rfl⟩ := sameValueZero_iff.mp h
  rfl

@[simp] theorem sameValueZero_scalar (s : Scalar) :
    sameValueZero (.scalar s) (.scalar s) = true := by simp [sameValueZero]

/-- `_.uniq` of anything is an array. -/
theorem exists_uniq_eq_arr (v : Val) : ∃ vs, uniq v = .arr vs := by
  unfold uniq
  split <;> exact ⟨_, rfl⟩

/-- No two elements of a `_.uniq` are the same element. -/
theorem pairwise_uniqElems (vs : List Val) :
    (uniqElems vs).Pairwise fun v w => sameValueZero v w = false := by
  induction vs with
  | nil => exact List.Pairwise.nil
  | cons v vs ih =>
    refine List.pairwise_cons.mpr ⟨fun w hw => ?_, ih.filter _⟩
    simpa using (List.mem_filter.mp hw).2

/-- `_.uniq` changes nothing exactly on the arrays that have no repetition. -/
theorem uniqElems_eq_self {vs : List Val} :
    uniqElems vs = vs ↔ vs.Pairwise fun v w => sameValueZero v w = false := by
  constructor
  · intro h
    rw [← h]
    exact pairwise_uniqElems vs
  · intro h
    induction h with
    | nil => rfl
    | cons hv _ ih =>
      rw [uniqElems, ih]
      refine congrArg _ (List.filter_eq_self.mpr fun w hw => ?_)
      simp [hv w hw]

/-- `_.uniq` only leaves elements out. -/
theorem uniqElems_sublist (vs : List Val) : (uniqElems vs).Sublist vs := by
  induction vs with
  | nil => exact List.Sublist.slnil
  | cons v vs ih =>
    rw [uniqElems]
    exact (List.filter_sublist.trans ih).cons_cons v

/-! Arrays of strings, which is what the service deduplicates. -/

/-- The array of the strings `ss`. -/
def strings (ss : List String) : List Val := ss.map .str

@[simp] theorem mem_strings {s : String} {ss : List String} : .str s ∈ strings ss ↔ s ∈ ss := by
  simp [strings]

theorem strings_injective : Function.Injective strings :=
  List.map_injective_iff.mpr fun a b h => by simpa using h

@[simp] theorem strings_append (ss ts : List String) :
    strings (ss ++ ts) = strings ss ++ strings ts := List.map_append

/-- `_.uniq` of strings are their first occurrences. -/
theorem uniqElems_strings (ss : List String) : uniqElems (strings ss) = strings ss.eraseDups := by
  induction ss with
  | nil => rfl
  | cons s ss ih =>
    have hfilter : (strings ss.eraseDups).filter (fun w => !sameValueZero (.str s) w) =
        strings (ss.eraseDups.filter fun b => !b == s) := by
      rw [strings, strings, List.filter_map]
      refine congrArg _ (List.filter_congr fun b _ => ?_)
      by_cases hb : b = s
      · simp [sameValueZero, hb]
      · simp [sameValueZero, hb, Ne.symm hb]
    show Val.str s :: (uniqElems (strings ss)).filter _ = _
    rw [ih, hfilter, ← FirstOccurrences.eraseDups_filter, List.eraseDups_cons]
    rfl

/-- `_.difference` of strings: those that are not among the others. -/
theorem difference_strings (ss : List String) (ws : List Val) :
    difference (strings ss) ws = strings (ss.filter fun s => .str s ∉ ws) := by
  have hmem : ∀ s : String, ws.any (sameValueZero (.str s)) = decide (.str s ∈ ws) := by
    intro s
    rw [Bool.eq_iff_iff, List.any_eq_true, decide_eq_true_iff]
    constructor
    · rintro ⟨v, hv, hs⟩
      rwa [← eq_of_sameValueZero hs] at hv
    · exact fun hs => ⟨.str s, hs, sameValueZero_scalar _⟩
  have hss : difference (strings ss) ws =
      (ss.filter fun s => !ws.any (sameValueZero (.str s))).map .str := List.filter_map
  rw [hss]
  refine congrArg _ (List.filter_congr fun s _ => ?_)
  rw [hmem, decide_not]

/-! ## `_.includes` -/

/-- `_.includes`: a string includes its substrings, a list its elements and an
object its property values. -/
def includes (collection value : Val) : Bool :=
  match collection with
  | .str s => (toStr value).toList <:+: s.toList
  | .arr vs => vs.any (sameValueZero value)
  | .obj fs =>
    ((arrayLikeLength fs).elim (fs.map Prod.snd) (copyArray fs)).any (sameValueZero value)
  | _ => false

end WebInsights.Js
