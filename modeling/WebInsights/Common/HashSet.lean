/-
`HashSet`: values under string keys, which is its own iterator.

The keys are properties of a plain object, and an iteration is a copy of the keys and a
position in it, both kept in the set itself. So a lookup also sees what the object inherits,
and a loop that was left early goes on in the next one.

A run is any list of operations on a new set. The finite map it should be is what was added and
not removed since (`present`). The set is that map after every step of a run, as far as a key
tells, exactly if the key is no name of `Object.prototype`, nothing is added under `__proto__`
and each iteration goes to its end (`refines_iff`).
-/
import Mathlib.Data.Finmap
import WebInsights.Effect.Machine
import WebInsights.Js.Dictionary

set_option autoImplicit false

namespace WebInsights.Common

open Effect Js

/-- `undefined` is `none`. -/
structure IteratorResult (Value : Type) where
  done : Bool
  value : Option Value

structure HashSet (Value : Type) where
  pointer : ℕ
  keysSnapshot : Option (List String)
  hashDictionary : Dictionary Value

namespace HashSet

variable {Value : Type} (engine : Engine Value) (s : HashSet Value) (key : String)

/-- `new HashSet<T>()` -/
def new : HashSet Value := ⟨0, none, .empty engine⟩

def add (value : Value) : HashSet Value :=
  { s with hashDictionary := s.hashDictionary.assign engine key value }

def get : Option Value := s.hashDictionary.get engine key

def remove : HashSet Value := { s with hashDictionary := s.hashDictionary.delete key }

/-- `this.hashDictionary[key] !== undefined` -/
def has : Bool := (s.hashDictionary.get engine key).isSome

def keys : List String := s.hashDictionary.keys

def getSnapshot : HashSet Value := { s with pointer := 0, keysSnapshot := some s.keys }

def next : IteratorResult Value × HashSet Value :=
  let s := if s.keysSnapshot.isNone then s.getSnapshot else s
  match (s.keysSnapshot.getD [])[s.pointer]? with
  | some name => (⟨false, s.get engine name⟩, { s with pointer := s.pointer + 1 })
  | none => (⟨true, none⟩, { s with keysSnapshot := none })

/-- `[Symbol.iterator]` -/
def iterator : HashSet Value := s

/-- A `for` loop over the set that is left in its body after this many others, if it gets there,
and what its bodies are given. The set has no `return`, so that it was left is not noticed. -/
def forOf : ℕ → HashSet Value → List (Option Value) × HashSet Value
  | 0, s =>
    match s.next engine with
    | (⟨true, _⟩, s) => ([], s)
    | (⟨false, value⟩, s) => ([value], s)
  | turns + 1, s =>
    match s.next engine with
    | (⟨true, _⟩, s) => ([], s)
    | (⟨false, value⟩, s) =>
      let (values, s) := forOf turns s
      (value :: values, s)

/-- `Array.from`, if it ends after no more calls of `next` than this. -/
def arrayFrom : ℕ → HashSet Value → Option (List (Option Value) × HashSet Value)
  | 0, _ => none
  | calls + 1, s =>
    match s.next engine with
    | (⟨true, _⟩, s) => some ([], s)
    | (⟨false, value⟩, s) => (arrayFrom calls s).map fun (values, s) => (value :: values, s)

/-- The names that an iteration has before it. -/
def left : List String := s.keysSnapshot.elim s.keys fun names => names.drop s.pointer

/-- Any other bound that is large enough gives the same (`arrayFrom_eq`). -/
def values : Option (List (Option Value) × HashSet Value) :=
  s.iterator.arrayFrom engine (s.left.length + 1)

/-! ## Operations -/

inductive Operation (Value : Type) where
  | add (key : String) (value : Value)
  | remove (key : String)
  | get (key : String)
  | has (key : String)
  | keys
  | values
  | next
  /-- A loop that is left in its body after so many others; one with operations in its bodies is
  calls of `next` and these. -/
  | forOf (turns : ℕ)

def step (s : HashSet Value) : Operation Value → Option (HashSet Value)
  | .add key value => some (s.add engine key value)
  | .remove key => some (s.remove key)
  | .get _ => some s
  | .has _ => some s
  | .keys => some s
  | .values => (s.values engine).map Prod.snd
  | .next => some (s.next engine).2
  | .forOf turns => some (s.iterator.forOf engine turns).2

/-- A new set after these operations. -/
def runs (operations : List (Operation Value)) : Option (HashSet Value) :=
  Machine.runs (step engine) (new engine) operations

/-! ## The finite map -/

abbrev FiniteMap (Value : Type) := Finmap fun _ : String => Value

def Operation.effect (m : FiniteMap Value) : Operation Value → FiniteMap Value
  | .add key value => m.insert key value
  | .remove key => m.erase key
  | _ => m

/-- What was added last and not removed since. -/
def present (operations : List (Operation Value)) : FiniteMap Value :=
  operations.foldl Operation.effect ∅

/-- The set is the map, as far as this key tells. -/
structure Refines (m : FiniteMap Value) (s : HashSet Value) (key : String) : Prop where
  has : s.has engine key = true ↔ key ∈ m
  get : s.get engine key = m.lookup key
  keys : s.keys.Nodup ∧ ∀ name, name ∈ s.keys ↔ name ∈ m
  values : ∃ names : List String, names.Nodup ∧ (∀ name, name ∈ names ↔ name ∈ m) ∧
    ∃ s', s.values engine = some (names.map fun name => m.lookup name, s')

/-- An operation that the prototype does not notice, and that leaves no iteration unfinished. -/
def Operation.Whole (m : FiniteMap Value) : Operation Value → Prop
  | .add key _ => key ≠ "__proto__"
  | .next => m.keys.card = 0
  | .forOf turns => m.keys.card ≤ turns
  | _ => True

/-! ## Iterations -/

section Iterations

variable {engine s} {name : String} {names : List String}

/-- The snapshot of a call of `next`, an old one or a new one, and the position in it. -/
theorem exists_next_eq : ∃ names pointer, s.left = names.drop pointer ∧
    s.next engine = match names[pointer]? with
      | some name => (⟨false, s.get engine name⟩, ⟨pointer + 1, some names, s.hashDictionary⟩)
      | none => (⟨true, none⟩, ⟨pointer, none, s.hashDictionary⟩) := by
  obtain ⟨pointer, _ | names, hashDictionary⟩ := s
  · exact ⟨hashDictionary.keys, 0, List.drop_zero.symm, rfl⟩
  · exact ⟨names, pointer, rfl, rfl⟩

theorem next_of_left_nil (h : s.left = []) :
    ∃ s', s.next engine = (⟨true, none⟩, s') ∧ s'.keysSnapshot = none ∧
      s'.hashDictionary = s.hashDictionary := by
  obtain ⟨snapshot, pointer, hleft, hnext⟩ := @exists_next_eq _ engine s
  have hnone : snapshot[pointer]? = none := by
    rw [← List.head?_drop, ← hleft, h, List.head?_nil]
  rw [hnone] at hnext
  exact ⟨_, hnext, rfl, rfl⟩

theorem next_of_left_cons (h : s.left = name :: names) :
    ∃ s', s.next engine = (⟨false, s.get engine name⟩, s') ∧ s'.left = names ∧
      s'.hashDictionary = s.hashDictionary := by
  obtain ⟨snapshot, pointer, hleft, hnext⟩ := @exists_next_eq _ engine s
  have hsome : snapshot[pointer]? = some name := by
    rw [← List.head?_drop, ← hleft, h, List.head?_cons]
  rw [hsome] at hnext
  refine ⟨_, hnext, ?_, rfl⟩
  change snapshot.drop (pointer + 1) = names
  rw [← List.tail_drop, ← hleft, h, List.tail_cons]

theorem get_congr {s' : HashSet Value} (h : s'.hashDictionary = s.hashDictionary) :
    s'.get engine = s.get engine := by
  funext key
  rw [get, get, h]

/-- **`Array.from` ends**, and gives the values under the names that were left. -/
theorem arrayFrom_eq {calls : ℕ} (hcalls : s.left.length < calls) :
    ∃ s', s.arrayFrom engine calls = some (s.left.map (s.get engine), s') ∧
      s'.keysSnapshot = none ∧ s'.hashDictionary = s.hashDictionary := by
  induction calls generalizing s with
  | zero => exact absurd hcalls (Nat.not_lt_zero _)
  | succ calls ih =>
    rcases hleft : s.left with _ | ⟨name, names⟩
    · obtain ⟨s', hnext, hfinished, hsame⟩ := @next_of_left_nil _ engine s hleft
      rw [arrayFrom, hnext]
      exact ⟨s', rfl, hfinished, hsame⟩
    · obtain ⟨s', hnext, hleft', hsame⟩ := @next_of_left_cons _ engine s _ _ hleft
      rw [hleft, List.length_cons] at hcalls
      obtain ⟨s'', hrest, hfinished, hsame'⟩ := @ih s' (by rw [hleft']; omega)
      rw [hleft', get_congr hsame] at hrest
      rw [arrayFrom, hnext]
      dsimp only
      rw [hrest]
      exact ⟨s'', rfl, hfinished, hsame'.trans hsame⟩

theorem values_eq : ∃ s', s.values engine = some (s.left.map (s.get engine), s') ∧
    s'.keysSnapshot = none ∧ s'.hashDictionary = s.hashDictionary :=
  arrayFrom_eq (Nat.lt_succ_self _)

/-- A loop that comes to its end leaves no iteration; another goes on after its names. -/
theorem forOf_eq (turns : ℕ) :
    (s.forOf engine turns).1 = (s.left.take (turns + 1)).map (s.get engine) ∧
      (s.forOf engine turns).2.hashDictionary = s.hashDictionary ∧
      (s.left.length ≤ turns → (s.forOf engine turns).2.keysSnapshot = none) ∧
      (turns < s.left.length → (s.forOf engine turns).2.left = s.left.drop (turns + 1)) := by
  -- the loop ends when no name is left, or breaks off after its last turn
  induction turns generalizing s with
  | zero =>
    rcases hleft : s.left with _ | ⟨name, names⟩
    · obtain ⟨s', hnext, hfinished, hsame⟩ := @next_of_left_nil _ engine s hleft
      rw [forOf, hnext]
      exact ⟨rfl, hsame, fun _ => hfinished, fun h => absurd h (Nat.not_lt_zero _)⟩
    · obtain ⟨s', hnext, hleft', hsame⟩ := @next_of_left_cons _ engine s _ _ hleft
      rw [forOf, hnext]
      exact ⟨rfl, hsame, fun h => absurd h (Nat.not_succ_le_zero _), fun _ => hleft'⟩
  | succ turns ih =>
    rcases hleft : s.left with _ | ⟨name, names⟩
    · obtain ⟨s', hnext, hfinished, hsame⟩ := @next_of_left_nil _ engine s hleft
      rw [forOf, hnext]
      exact ⟨rfl, hsame, fun _ => hfinished, fun h => absurd h (Nat.not_lt_zero _)⟩
    · obtain ⟨s', hnext, hleft', hsame⟩ := @next_of_left_cons _ engine s _ _ hleft
      obtain ⟨hvalues, hsame', hends, hgoes⟩ := @ih s'
      rw [hleft', get_congr hsame] at hvalues
      rw [hleft'] at hends hgoes
      rw [forOf, hnext]
      refine ⟨congrArg (s.get engine name :: ·) hvalues, hsame'.trans hsame, fun h => ?_,
        fun h => ?_⟩
      · exact hends (Nat.le_of_succ_le_succ h)
      · exact hgoes (Nat.lt_of_succ_lt_succ h)

end Iterations

/-! ## What operations keep -/

/-- The own properties are the map, and nothing has replaced the prototype. -/
structure Tracks (m : FiniteMap Value) (s : HashSet Value) : Prop where
  ownValue : ∀ name, s.hashDictionary.ownValue name = m.lookup name
  prototype : s.hashDictionary.prototype = engine.objectPrototypeChain
  proto : "__proto__" ∉ m

section Tracks

variable {engine s} {s' : HashSet Value} {m : FiniteMap Value} {operation : Operation Value}
  {key : String}

theorem tracks_new : Tracks engine ∅ (new engine) where
  ownValue := fun _ => rfl
  prototype := rfl
  proto := Finmap.notMem_empty

theorem Tracks.mem_keys (h : Tracks engine m s) {name : String} : name ∈ s.keys ↔ name ∈ m := by
  rw [keys, Dictionary.mem_keys, h.ownValue, Finmap.lookup_isSome]

theorem Tracks.length_keys (h : Tracks engine m s) : s.keys.length = m.keys.card := by
  have hkeys : s.keys.toFinset = m.keys := by
    ext name
    rw [List.mem_toFinset, h.mem_keys, Finmap.mem_keys]
  rw [← hkeys]
  exact (List.toFinset_card_of_nodup Dictionary.nodup_keys).symm

theorem Tracks.get_of_mem (h : Tracks engine m s) (hmem : key ∈ m) :
    s.get engine key = m.lookup key := by
  obtain ⟨value, hvalue⟩ := Finmap.mem_iff.mp hmem
  rw [get, Dictionary.get_of_ownValue ((h.ownValue key).trans hvalue), hvalue]

/-- What is not in the map is looked up in `Object.prototype`. -/
theorem Tracks.get_of_notMem (h : Tracks engine m s) (hmem : key ∉ m) :
    s.get engine key = engine.objectPrototypeChain.get engine key := by
  have hnone := (h.ownValue key).trans (Finmap.lookup_eq_none.mpr hmem)
  rw [get, Dictionary.get_of_ownValue_none hnone, h.prototype]

theorem Tracks.same (h : Tracks engine m s) (hsame : s'.hashDictionary = s.hashDictionary) :
    Tracks engine m s' := by
  obtain ⟨hown, hprototype, hproto⟩ := h
  exact ⟨by rwa [hsame], by rwa [hsame], hproto⟩

theorem Tracks.add (h : Tracks engine m s) (hkey : key ≠ "__proto__") (value : Value) :
    Tracks engine (m.insert key value) (s.add engine key value) where
  ownValue := by
    intro name
    rw [HashSet.add, Dictionary.ownValue_assign hkey]
    by_cases hname : name = key
    · rw [if_pos hname, hname, Finmap.lookup_insert]
    · rw [if_neg hname, Finmap.lookup_insert_of_ne m hname, h.ownValue]
  prototype := by
    rw [HashSet.add, Dictionary.assign_of_ne hkey]
    exact h.prototype
  proto := by
    rw [Finmap.mem_insert]
    rintro (hproto | hproto)
    · exact hkey hproto.symm
    · exact h.proto hproto

theorem Tracks.remove (h : Tracks engine m s) (key : String) :
    Tracks engine (m.erase key) (s.remove key) where
  ownValue := by
    intro name
    rw [HashSet.remove, Dictionary.ownValue_delete]
    by_cases hname : name = key
    · rw [if_pos hname, hname, Finmap.lookup_erase]
    · rw [if_neg hname, Finmap.lookup_erase_ne hname, h.ownValue]
  prototype := h.prototype
  proto := fun hproto => h.proto (Finmap.mem_erase.mp hproto).2

/-- What is added under other keys than `__proto__` is tracked, whatever iterations do. -/
theorem Tracks.step (h : Tracks engine m s)
    (hadd : ∀ key value, operation = .add key value → key ≠ "__proto__")
    (hstep : step engine s operation = some s') : Tracks engine (operation.effect m) s' := by
  cases operation with
  | add key value =>
    obtain rfl := Option.some.inj hstep
    exact h.add (hadd key value rfl) value
  | remove key =>
    obtain rfl := Option.some.inj hstep
    exact h.remove key
  -- iterations only move the pointer
  | values =>
    obtain ⟨s'', hvalues, -, hsame⟩ := @values_eq _ engine s
    rw [HashSet.step, hvalues] at hstep
    obtain rfl := Option.some.inj hstep
    exact h.same hsame
  | next =>
    obtain rfl := Option.some.inj hstep
    obtain ⟨names, pointer, -, hnext⟩ := @exists_next_eq _ engine s
    rw [hnext]
    split
    · exact h.same rfl
    · exact h.same rfl
  | forOf turns =>
    obtain rfl := Option.some.inj hstep
    exact h.same (@forOf_eq _ engine s turns).2.1
  | get _ | has _ | keys =>
    obtain rfl := Option.some.inj hstep
    exact h

/-- **Between iterations** a set is its map as far as the keys that are present tell, and those
that name nothing in `Object.prototype`. -/
theorem Tracks.refines (h : Tracks engine m s) (hfinished : s.keysSnapshot = none)
    (hkey : key ∈ m ∨ key ∉ objectPrototypeNames) : Refines engine m s key := by
  have hget : s.get engine key = m.lookup key := by
    by_cases hmem : key ∈ m
    · exact h.get_of_mem hmem
    · have hnot := mt (get_objectPrototypeChain engine).mp (hkey.resolve_left hmem)
      rw [h.get_of_notMem hmem, Finmap.lookup_eq_none.mpr hmem]
      exact Option.not_isSome_iff_eq_none.mp hnot
  refine ⟨?_, hget, ⟨Dictionary.nodup_keys, fun _ => h.mem_keys⟩, s.keys, Dictionary.nodup_keys,
    fun _ => h.mem_keys, ?_⟩
  · rw [has, ← get, hget, Finmap.lookup_isSome]
  · obtain ⟨s', hvalues, -⟩ := @values_eq _ engine s
    have hleft : s.left = s.keys := by rw [left, hfinished, Option.elim_none]
    refine ⟨s', ?_⟩
    rw [hvalues, hleft]
    refine congrArg (fun values => some (values, s')) (List.map_congr_left fun name hname => ?_)
    exact h.get_of_mem (h.mem_keys.mp hname)

/-- The values are as many as the keys that are present only if so many names are left. -/
theorem Refines.length_left (hrefines : Refines engine m s key) :
    s.left.length = m.keys.card := by
  obtain ⟨names, hnodup, hmem, s', hvalues⟩ := hrefines.values
  obtain ⟨s'', hall, -⟩ := @values_eq _ engine s
  rw [hall] at hvalues
  have hlength := congrArg List.length (Prod.mk.inj (Option.some.inj hvalues)).1
  rw [List.length_map, List.length_map] at hlength
  have hkeys : names.toFinset = m.keys := by
    ext name
    rw [List.mem_toFinset, hmem, Finmap.mem_keys]
  rw [hlength, ← hkeys, List.toFinset_card_of_nodup hnodup]

theorem Tracks.length_left (h : Tracks engine m s) (hfinished : s.keysSnapshot = none) :
    s.left.length = m.keys.card := by
  rw [left, hfinished, Option.elim_none, h.length_keys]

/-- A whole operation keeps the set between iterations. -/
theorem Tracks.finished (h : Tracks engine m s) (hfinished : s.keysSnapshot = none)
    (hwhole : operation.Whole m) (hstep : HashSet.step engine s operation = some s') :
    s'.keysSnapshot = none := by
  -- with no iteration open, as many names are left as there are keys
  have hleft := h.length_left hfinished
  cases operation with
  | values =>
    obtain ⟨s'', hvalues, hnone, -⟩ := @values_eq _ engine s
    rw [HashSet.step, hvalues] at hstep
    obtain rfl := Option.some.inj hstep
    exact hnone
  | next =>
    obtain rfl := Option.some.inj hstep
    have hnil : s.left = [] := List.length_eq_zero_iff.mp (hleft.trans hwhole)
    obtain ⟨s', hnext, hnone, -⟩ := @next_of_left_nil _ engine s hnil
    rw [hnext]
    exact hnone
  | forOf turns =>
    obtain rfl := Option.some.inj hstep
    exact (@forOf_eq _ engine s turns).2.2.1 (hleft.trans_le hwhole)
  | add _ _ | remove _ | get _ | has _ | keys =>
    obtain rfl := Option.some.inj hstep
    exact hfinished

/-- **An operation after which the set is its map was whole.** -/
theorem Tracks.whole (h : Tracks engine m s) (hfinished : s.keysSnapshot = none)
    (hstep : HashSet.step engine s operation = some s')
    (hrefines : Refines engine (operation.effect m) s' key) : operation.Whole m := by
  have hleft := h.length_left hfinished
  cases operation with
  | add key' value =>
    rintro rfl
    obtain rfl := Option.some.inj hstep
    -- the setter makes no property, so `__proto__` is no key
    have hown : s.hashDictionary.ownValue "__proto__" = none := by
      rw [h.ownValue, Finmap.lookup_eq_none]
      exact h.proto
    have hsetter : s.hashDictionary.prototype.hasSetter = true := by
      rw [h.prototype]
      exact hasSetter_objectPrototypeChain engine
    have hkeys : (s.add engine "__proto__" value).keys = s.keys := by
      rw [keys, keys, Dictionary.keys, Dictionary.keys, HashSet.add,
        Dictionary.own_assign_proto hown hsetter]
    have hmem := (hrefines.keys.2 "__proto__").mpr (Finmap.mem_insert.mpr (Or.inl rfl))
    rw [hkeys, h.mem_keys] at hmem
    exact h.proto hmem
  | next =>
    obtain rfl := Option.some.inj hstep
    rcases hnames : s.left with _ | ⟨name, names⟩
    · rw [Operation.Whole, ← hleft, hnames, List.length_nil]
    · -- a name is gone from the iteration that was begun
      obtain ⟨s', hnext, hleft', -⟩ := @next_of_left_cons _ engine s _ _ hnames
      rw [hnext] at hrefines
      have hafter : s'.left.length = m.keys.card := hrefines.length_left
      rw [hleft', ← hleft, hnames, List.length_cons] at hafter
      omega
  | forOf turns =>
    obtain rfl := Option.some.inj hstep
    obtain ⟨-, -, -, hgoes⟩ := @forOf_eq _ engine s turns
    have hafter : (s.forOf engine turns).2.left.length = m.keys.card := hrefines.length_left
    by_contra hmore
    rw [Operation.Whole, ← hleft, Nat.not_le] at hmore
    rw [hgoes hmore, List.length_drop, ← hleft] at hafter
    omega
  | remove _ | get _ | has _ | keys | values => trivial

end Tracks

/-! ## Runs -/

section Runs

variable {engine s} {operations before : List (Operation Value)} {key : String}

theorem exists_step (operation : Operation Value) : ∃ s', step engine s operation = some s' := by
  cases operation with
  | values =>
    obtain ⟨s', hvalues, -⟩ := @values_eq _ engine s
    rw [step, hvalues]
    exact ⟨s', rfl⟩
  | _ => exact ⟨_, rfl⟩

/-- Every list of operations is a run. -/
theorem exists_runs (operations : List (Operation Value)) :
    ∃ s, runs engine operations = some s := by
  induction operations using List.reverseRecOn with
  | nil => exact ⟨_, rfl⟩
  | append_singleton operations operation ih =>
    obtain ⟨between, hbetween⟩ := ih
    obtain ⟨s, hs⟩ := @exists_step _ engine between operation
    exact ⟨s, Machine.runs_append_singleton.mpr ⟨between, hbetween, hs⟩⟩

theorem present_append_singleton (operation : Operation Value) :
    present (operations ++ [operation]) = operation.effect (present operations) := by
  rw [present, List.foldl_append]
  rfl

/-- **Between iterations** the set is the map again, however iterations were run before. -/
theorem runs_refines (hadd : ∀ key value, .add key value ∈ operations → key ≠ "__proto__")
    (hruns : runs engine operations = some s) (hfinished : s.keysSnapshot = none)
    (hkey : key ∈ present operations ∨ key ∉ objectPrototypeNames) :
    Refines engine (present operations) s key := by
  have htracks : (∀ key value, .add key value ∈ operations → key ≠ "__proto__") →
      Tracks engine (present operations) s := by
    refine Machine.runs_invariant (I := fun past s => (∀ key value, .add key value ∈ past →
      key ≠ "__proto__") → Tracks engine (present past) s) (fun _ => tracks_new) ?_ hruns
    intro past operation between after ih hstep hadd
    rw [present_append_singleton]
    refine (ih fun key value hmem => ?_).step ?_ hstep
    · exact hadd key value (List.mem_append_left _ hmem)
    · rintro key value rfl
      exact hadd key value (List.mem_append_right _ List.mem_cons_self)
  exact (htracks hadd).refines hfinished hkey

/-- A run whose operations are whole, each if all before it were. -/
theorem runs_tracks (hwhole : ∀ past operation between after, past ++ [operation] <+: operations →
      runs engine (past ++ [operation]) = some after → Tracks engine (present past) between →
        between.keysSnapshot = none → step engine between operation = some after →
          operation.Whole (present past))
    (hbefore : before <+: operations) (hruns : runs engine before = some s) :
    Tracks engine (present before) s ∧ s.keysSnapshot = none := by
  refine (Machine.runs_invariant (I := fun past s => runs engine past = some s ∧
    (past <+: operations → Tracks engine (present past) s ∧ s.keysSnapshot = none))
    ⟨rfl, fun _ => ⟨tracks_new, rfl⟩⟩ ?_ hruns).2 hbefore
  rintro past between operation after ⟨hpast, htracks⟩ hstep
  have hafter : runs engine (past ++ [operation]) = some after :=
    Machine.runs_append_singleton.mpr ⟨between, hpast, hstep⟩
  refine ⟨hafter, fun hprefix => ?_⟩
  obtain ⟨h, hfinished⟩ := htracks ((List.prefix_append _ _).trans hprefix)
  have hoperation := hwhole past operation between after hprefix hafter h hfinished hstep
  rw [present_append_singleton]
  refine ⟨h.step ?_ hstep, h.finished hfinished hoperation hstep⟩
  rintro key value rfl
  exact hoperation

/-- **A hash set is a finite map, after every step of a run,** as far as a key tells, exactly if
`Object.prototype` has nothing under the key, nothing is added under `__proto__` and each
iteration goes to its end. -/
theorem refines_iff (engine : Engine Value) (operations : List (Operation Value)) (key : String) :
    (∀ before s, before <+: operations → runs engine before = some s →
      Refines engine (present before) s key) ↔
    key ∉ objectPrototypeNames ∧ ∀ before operation, before ++ [operation] <+: operations →
      operation.Whole (present before) := by
  constructor
  · intro hrefines
    have hwhole : ∀ past operation between after, past ++ [operation] <+: operations →
        runs engine (past ++ [operation]) = some after → Tracks engine (present past) between →
          between.keysSnapshot = none → step engine between operation = some after →
            operation.Whole (present past) := by
      intro past operation between after hprefix hafter h hfinished hstep
      have hlast := hrefines _ _ hprefix hafter
      rw [present_append_singleton] at hlast
      exact h.whole hfinished hstep hlast
    refine ⟨fun hname => ?_, fun before operation hprefix => ?_⟩
    · -- the new set inherits the name
      have hget := (hrefines [] (new engine) List.nil_prefix rfl).get
      have hinherits := (get_objectPrototypeChain engine).mpr hname
      rw [tracks_new.get_of_notMem Finmap.notMem_empty, present, List.foldl_nil,
        Finmap.lookup_empty] at hget
      rw [hget] at hinherits
      cases hinherits
    · obtain ⟨after, hafter⟩ := @exists_runs _ engine (before ++ [operation])
      obtain ⟨between, hbetween, hstep⟩ := Machine.runs_append_singleton.mp hafter
      obtain ⟨h, hfinished⟩ :=
        runs_tracks hwhole ((List.prefix_append _ _).trans hprefix) hbetween
      exact hwhole before operation between after hprefix hafter h hfinished hstep
  · rintro ⟨hname, hwhole⟩ before s hprefix hruns
    obtain ⟨h, hfinished⟩ := runs_tracks
      (fun past operation _ _ hpast _ _ _ _ => hwhole past operation hpast) hprefix hruns
    exact h.refines hfinished (Or.inr hname)

/-! A loop over two keys that is left at the first one. -/

/-- Numbers, and what the engine has of its own. -/
inductive SampleValue where
  | number (n : ℤ)
  | objectPrototype
  | method (name : String)
  deriving DecidableEq

/-- Numbers are no prototypes; what methods inherit from `Function.prototype` is left out. -/
def sampleEngine : Engine SampleValue where
  objectPrototype := .objectPrototype
  method := .method
  asPrototype
    | .number _ => none
    | .objectPrototype => some (.object .objectPrototype (fun _ => none) true)
    | .method name => some (.object (.method name) (fun _ => none) true)

def sampleOperations : List (Operation SampleValue) :=
  [.add "a" (.number 1), .add "b" (.number 2), .forOf 0]

/-- `values` then gives the other one only; and a new set has `toString`. -/
theorem values_abandoned :
    (∃ s, runs sampleEngine sampleOperations = some s ∧ s.keys = ["a", "b"] ∧
      (s.values sampleEngine).map Prod.fst = some [some (.number 2)] ∧
      ¬ Refines sampleEngine (present sampleOperations) s "a") ∧
    (new sampleEngine).has sampleEngine "toString" = true ∧
      ¬ Refines sampleEngine ∅ (new sampleEngine) "toString" := by
  refine ⟨⟨_, rfl, rfl, rfl, fun h => ?_⟩, by decide, fun h => ?_⟩
  · have hlength := h.length_left
    exact absurd hlength (by decide)
  · exact Finmap.notMem_empty (h.has.mp (by decide))

end Runs

end HashSet

end WebInsights.Common
