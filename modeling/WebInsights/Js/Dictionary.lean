/-
A plain object used as a dictionary, `{ [key: string]: T }`.

It has own properties and a prototype, which is `Object.prototype` at first. A lookup that
finds no own property goes on along the prototypes. An assignment makes an own property,
except under `__proto__` while the accessor of `Object.prototype` is what it finds: that one
makes an object or `null` the prototype, and ignores all other values. `delete` and
`Object.keys` are about own properties.

`undefined` is `none`, so a `Value` is any other value. What the engine's values are to such an
object is a parameter.
-/
import Mathlib.Data.List.Sort
import WebInsights.Data.Keyed

set_option autoImplicit false

namespace WebInsights.Js

/-- The names of the properties of `Object.prototype`. -/
def objectPrototypeNames : List String :=
  ["constructor", "__defineGetter__", "__defineSetter__", "hasOwnProperty", "__lookupGetter__",
    "__lookupSetter__", "isPrototypeOf", "propertyIsEnumerable", "toString", "valueOf",
    "__proto__", "toLocaleString"]

/-- What comes after an object in a lookup. -/
inductive Prototype (Value : Type) where
  | null
  /-- An object, what is found from it on before `Object.prototype` (properties that can be
  written), and whether `Object.prototype` comes after that. -/
  | object (self : Value) (found : String → Option Value) (rooted : Bool)

/-- What the values of an engine are to a dictionary. -/
structure Engine (Value : Type) where
  objectPrototype : Value
  /-- The methods of `Object.prototype`. -/
  method : String → Value
  /-- An object or `null` as a prototype, and `none` of all other values. -/
  asPrototype : Value → Option (Prototype Value)

section Prototype

variable {Value : Type} (engine : Engine Value)

def Engine.objectPrototypeChain : Prototype Value :=
  .object engine.objectPrototype (fun _ => none) true

/-- A lookup on the prototypes; the getter `__proto__` answers the first of them. -/
def Prototype.get (name : String) : Prototype Value → Option Value
  | .null => none
  | .object self found rooted =>
    (found name).or <|
      if rooted ∧ name ∈ objectPrototypeNames then
        some (if name = "__proto__" then self else engine.method name)
      else none

/-- Whether an assignment finds the accessor `__proto__`. -/
def Prototype.hasSetter : Prototype Value → Bool
  | .null => false
  | .object _ found rooted => rooted && (found "__proto__").isNone

theorem get_objectPrototypeChain {name : String} :
    (engine.objectPrototypeChain.get engine name).isSome ↔ name ∈ objectPrototypeNames := by
  rw [Engine.objectPrototypeChain, Prototype.get, Option.none_or]
  by_cases h : name ∈ objectPrototypeNames
  · rw [if_pos ⟨rfl, h⟩]
    exact ⟨fun _ => h, fun _ => rfl⟩
  · rw [if_neg fun hand => h hand.2]
    exact ⟨nofun, fun hmem => absurd hmem h⟩

theorem hasSetter_objectPrototypeChain : engine.objectPrototypeChain.hasSetter = true := rfl

end Prototype

/-- The number of a name that is an array index: decimal, without leading zeros, and less than
`2^32 - 1`. -/
def arrayIndex (name : String) : Option ℕ :=
  let digits := name.toList
  let n := digits.foldl (fun n digit => 10 * n + (digit.toNat - '0'.toNat)) 0
  if digits ≠ [] ∧ digits.all Char.isDigit ∧ (digits.head? = some '0' → digits = ['0']) ∧
      n < 4294967295 then some n
  else none

/-- `Object.keys`: the array indices in the order of their numbers, then the other names. -/
def objectKeys (names : List String) : List String :=
  (names.filter fun name => (arrayIndex name).isSome).insertionSort
      (fun name other => (arrayIndex name).getD 0 ≤ (arrayIndex other).getD 0) ++
    names.filter fun name => (arrayIndex name).isNone

theorem objectKeys_perm (names : List String) : (objectKeys names).Perm names := by
  have hnot : (names.filter fun name => (arrayIndex name).isNone) =
      names.filter fun name => !(arrayIndex name).isSome :=
    List.filter_congr fun name _ => by rw [Option.not_isSome]
  rw [objectKeys, hnot]
  exact ((List.perm_insertionSort _ _).append_right _).trans (List.filter_append_perm _ names)

example : objectKeys ["b", "10", "a", "2"] = ["2", "10", "b", "a"] := by decide

structure Dictionary (Value : Type) where
  own : List (String × Value)
  distinct : (own.map Prod.fst).Nodup
  prototype : Prototype Value

namespace Dictionary

variable {Value : Type} (engine : Engine Value) (d : Dictionary Value) (name : String)

/-- `{}`. -/
def empty : Dictionary Value := ⟨[], List.nodup_nil, engine.objectPrototypeChain⟩

def ownValue : Option Value := (Keyed.lookup Prod.fst name d.own).map Prod.snd

/-- `d[name]`. -/
def get : Option Value := (d.ownValue name).or (d.prototype.get engine name)

/-- `d[name] = value`. -/
def assign (value : Value) : Dictionary Value :=
  if name = "__proto__" ∧ d.ownValue name = none ∧ d.prototype.hasSetter then
    match engine.asPrototype value with
    | some prototype => { d with prototype := prototype }
    | none => d
  else { d with
    own := Keyed.put Prod.fst (name, value) d.own
    distinct := Keyed.nodup_map_key_put Prod.fst d.distinct (name, value) }

/-- `delete d[name]`. -/
def delete : Dictionary Value where
  own := d.own.filter fun property => property.1 ≠ name
  distinct := d.distinct.sublist (List.filter_sublist.map Prod.fst)
  prototype := d.prototype

def keys : List String := objectKeys (d.own.map Prod.fst)

/-! ## Own properties -/

variable {engine d name} {other : String} {value : Value}

theorem nodup_keys : d.keys.Nodup := (objectKeys_perm _).nodup_iff.mpr d.distinct

theorem ownValue_eq_some : d.ownValue name = some value ↔ (name, value) ∈ d.own := by
  rw [ownValue, Option.map_eq_some_iff]
  constructor
  · rintro ⟨property, hlookup, rfl⟩
    obtain ⟨hmem, rfl⟩ := (Keyed.lookup_eq_some_iff Prod.fst d.distinct).mp hlookup
    exact hmem
  · exact fun hmem => ⟨_, (Keyed.lookup_eq_some_iff Prod.fst d.distinct).mpr ⟨hmem, rfl⟩, rfl⟩

theorem mem_keys : name ∈ d.keys ↔ (d.ownValue name).isSome := by
  rw [keys, (objectKeys_perm _).mem_iff, Option.isSome_iff_exists, List.mem_map]
  constructor
  · rintro ⟨property, hmem, rfl⟩
    exact ⟨property.2, ownValue_eq_some.mpr hmem⟩
  · rintro ⟨value, hvalue⟩
    exact ⟨_, ownValue_eq_some.mp hvalue, rfl⟩

theorem get_of_ownValue (h : d.ownValue name = some value) : d.get engine name = some value := by
  rw [get, h, Option.some_or]

theorem get_of_ownValue_none (h : d.ownValue name = none) :
    d.get engine name = d.prototype.get engine name := by
  rw [get, h, Option.none_or]

/-- Under any other name an assignment makes an own property. -/
theorem assign_of_ne (hname : name ≠ "__proto__") : d.assign engine name value = { d with
    own := Keyed.put Prod.fst (name, value) d.own
    distinct := Keyed.nodup_map_key_put Prod.fst d.distinct (name, value) } :=
  if_neg fun h => hname h.1

theorem ownValue_assign (hname : name ≠ "__proto__") :
    (d.assign engine name value).ownValue other =
      if other = name then some value else d.ownValue other := by
  rw [assign_of_ne hname]
  by_cases hother : other = name
  · rw [if_pos hother, hother]
    exact congrArg (Option.map Prod.snd) (Keyed.lookup_put_self Prod.fst d.distinct (name, value))
  · rw [if_neg hother]
    exact congrArg (Option.map Prod.snd)
      (Keyed.lookup_put_ne Prod.fst d.distinct (x := (name, value)) hother)

/-- The setter makes no own property. -/
theorem own_assign_proto (hown : d.ownValue "__proto__" = none)
    (hsetter : d.prototype.hasSetter = true) :
    (d.assign engine "__proto__" value).own = d.own := by
  rw [assign, if_pos ⟨rfl, hown, hsetter⟩]
  split
  · rfl
  · rfl

theorem ownValue_delete :
    (d.delete name).ownValue other = if other = name then none else d.ownValue other := by
  by_cases hother : other = name
  · rw [if_pos hother, Option.eq_none_iff_forall_ne_some]
    intro value hvalue
    have hmem := (List.mem_filter.mp (ownValue_eq_some.mp hvalue)).2
    exact of_decide_eq_true hmem hother
  · rw [if_neg hother]
    refine Option.ext fun value => ?_
    rw [ownValue_eq_some, ownValue_eq_some, delete, List.mem_filter]
    exact and_iff_left (decide_eq_true hother)

end Dictionary

end WebInsights.Js
