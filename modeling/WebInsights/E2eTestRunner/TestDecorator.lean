/-
The decorator `test`: the tests of a test group are metadata of its class.

The metadata is an array. `Reflect.getMetadata` finds it at the class or at the class nearest
to it that has any, the decorator pushes to what it finds, and makes that the metadata of the
class it decorates. A class without decorated ancestors so begins an array of its own. One
that has any pushes to theirs, and the two share it from then on (`definedTests_inherited_iff`).
-/
import Mathlib.Data.List.Nodup
import WebInsights.Effect.Machine

set_option autoImplicit false

namespace WebInsights.E2eTestRunner

open Effect

/-! ## Classes, arrays and metadata -/

/-- A function, by its identity. -/
structure TestFunction where
  identity : ℕ
  deriving DecidableEq

structure TestDefinition where
  testContainer : String
  testName : String
  environments : ℕ
  testImplFunc : TestFunction
  deriving DecidableEq

/-- A class. Two classes of one name that extend one class differ in their identity. -/
inductive TestGroup where
  | FunctionalTestGroup
  | extending (identity : ℕ) (name : String) (parent : TestGroup)
  deriving DecidableEq

namespace TestGroup

def name : TestGroup → String
  | FunctionalTestGroup => "FunctionalTestGroup"
  | extending _ name _ => name

/-- The classes that a class extends, from the nearest one on. -/
def ancestors : TestGroup → List TestGroup
  | FunctionalTestGroup => []
  | extending _ _ parent => parent :: parent.ancestors

end TestGroup

/-- What the decorators work on: the classes that were defined, the arrays, by reference, and
the metadata of the classes themselves, the last one first. -/
structure Realm where
  classes : List TestGroup
  arrays : List (List TestDefinition)
  metadata : List (TestGroup × ℕ)
  deriving DecidableEq

namespace Realm

/-- `Reflect.getMetadata`: of the class itself, or of the class it extends. -/
def getMetadata (realm : Realm) : TestGroup → Option ℕ
  | .FunctionalTestGroup => realm.metadata.lookup .FunctionalTestGroup
  | .extending identity name parent =>
    (realm.metadata.lookup (.extending identity name parent)).or (realm.getMetadata parent)

/-- `Reflect.defineMetadata` -/
def defineMetadata (realm : Realm) (metadata : ℕ) (target : TestGroup) : Realm :=
  { realm with metadata := (target, metadata) :: realm.metadata }

def addClass (realm : Realm) (C : TestGroup) : Realm :=
  { realm with classes := realm.classes ++ [C] }

def push (realm : Realm) (array : ℕ) (definition : TestDefinition) : Realm :=
  { realm with arrays := realm.arrays.modify array (· ++ [definition]) }

/-- `getDefinedTestsMetadata`: the array of the metadata, or a new one. -/
def getDefinedTestsMetadata (realm : Realm) (target : TestGroup) : ℕ × Realm :=
  match realm.getMetadata target with
  | some metadata => (metadata, realm)
  | none => (realm.arrays.length, { realm with arrays := realm.arrays ++ [[]] })

/-- The tests in the array that `getDefinedTestsMetadata` returns. -/
def definedTests (realm : Realm) (target : TestGroup) : List TestDefinition :=
  let (metadata, realm) := realm.getDefinedTestsMetadata target
  realm.arrays[metadata]?.getD []

end Realm

/-- What `test` is applied to in a class. -/
structure DecoratedMethod where
  environments : ℕ
  propertyKey : String
  value : TestFunction
  deriving DecidableEq

/-- The definition that is pushed for a method. -/
def DecoratedMethod.definition (method : DecoratedMethod) (testContainer : String) :
    TestDefinition :=
  ⟨testContainer, method.propertyKey, method.environments, method.value⟩

/-- The decorator `test` of a method. -/
def test (target : TestGroup) (realm : Realm) (method : DecoratedMethod) : Realm :=
  let (metadata, realm) := realm.getDefinedTestsMetadata target
  (realm.push metadata (method.definition target.name)).defineMetadata metadata target

structure ClassDefinition where
  identity : ℕ
  name : String
  parent : TestGroup
  methods : List DecoratedMethod
  deriving DecidableEq

def ClassDefinition.testGroup (definition : ClassDefinition) : TestGroup :=
  .extending definition.identity definition.name definition.parent

/-- The decorators of a class are applied in the order of its methods. -/
def decorate (realm : Realm) (definition : ClassDefinition) : Realm :=
  definition.methods.foldl (test definition.testGroup) realm

/-- A class definition is evaluated: it makes a new class, of one that exists. -/
def define (realm : Realm) (definition : ClassDefinition) : Option Realm :=
  if definition.parent ∈ realm.classes ∧ definition.testGroup ∉ realm.classes then
    some (decorate (realm.addClass definition.testGroup) definition)
  else none

/-- The realm after these class definitions, if they come in an order they can come in. -/
def defineAll (definitions : List ClassDefinition) : Option Realm :=
  Machine.runs define ⟨[.FunctionalTestGroup], [], []⟩ definitions

/-! ## What the tests of a class should be -/

/-- The tests that are decorated in a class. -/
def decoratedTests (definitions : List ClassDefinition) (C : TestGroup) : List TestDefinition :=
  (definitions.filter fun definition => definition.testGroup = C).flatMap fun definition =>
    definition.methods.map fun method => method.definition definition.name

/-- The tests of a class and of its ancestors, ancestors first. -/
def inheritedTests (definitions : List ClassDefinition) : TestGroup → List TestDefinition
  | .FunctionalTestGroup => []
  | .extending identity name parent =>
    inheritedTests definitions parent ++
      decoratedTests definitions (.extending identity name parent)

/-- What is expected of the tests of the classes. -/
structure RespectsInheritance (definitions : List ClassDefinition) (realm : Realm) : Prop where
  lists : ∀ C ∈ realm.classes, realm.definedTests C = inheritedTests definitions C
  /-- No class definition changes the tests of a class that there was. -/
  frame : ∀ earlier definition later before after,
    definitions = earlier ++ definition :: later → defineAll earlier = some before →
      define before definition = some after →
        ∀ C ∈ before.classes, after.definedTests C = before.definedTests C

/-- No class with tests extends one with tests, directly or not. -/
def OneDecorated (definitions : List ClassDefinition) : Prop :=
  ∀ C A, decoratedTests definitions C ≠ [] → A ∈ C.ancestors → decoratedTests definitions A = []

/-! ## One class definition -/

section Decorate

variable {realm : Realm} {definition : ClassDefinition} {C : TestGroup} {array : ℕ}

/-- The tests that a class definition decorates. -/
def ClassDefinition.tests (definition : ClassDefinition) : List TestDefinition :=
  definition.methods.map fun method => method.definition definition.name

theorem getMetadata_of_lookup (h : realm.metadata.lookup C = some array) :
    realm.getMetadata C = some array := by
  cases C with
  | FunctionalTestGroup => exact h
  | extending identity name parent => rw [Realm.getMetadata, h, Option.some_or]

/-- The metadata of a class is that of a class it is or extends. -/
theorem lookup_of_getMetadata (h : realm.getMetadata C = some array) :
    ∃ A ∈ C :: C.ancestors, realm.metadata.lookup A = some array := by
  induction C with
  | FunctionalTestGroup => exact ⟨_, List.mem_cons_self, h⟩
  | extending identity name parent ih =>
    rw [Realm.getMetadata] at h
    rcases Option.or_eq_some_iff.mp h with hown | ⟨-, hparent⟩
    · exact ⟨_, List.mem_cons_self, hown⟩
    · obtain ⟨A, hmem, hlookup⟩ := ih hparent
      exact ⟨A, List.mem_cons_of_mem _ hmem, hlookup⟩

/-- A class has metadata if a class it extends has any. -/
theorem getMetadata_isSome {A : TestGroup} (hmem : A ∈ C :: C.ancestors)
    (h : (realm.metadata.lookup A).isSome) : (realm.getMetadata C).isSome := by
  induction C with
  | FunctionalTestGroup =>
    obtain rfl := List.mem_singleton.mp hmem
    exact h
  | extending identity name parent ih =>
    rw [Realm.getMetadata, Option.isSome_or]
    rcases List.mem_cons.mp hmem with rfl | hancestor
    · rw [h, Bool.true_or]
    · rw [ih hancestor, Bool.or_true]

/-- The metadata of a class depends on that of the classes it is or extends. -/
theorem getMetadata_congr {realm' : Realm}
    (h : ∀ A ∈ C :: C.ancestors, realm'.metadata.lookup A = realm.metadata.lookup A) :
    realm'.getMetadata C = realm.getMetadata C := by
  induction C with
  | FunctionalTestGroup => exact h _ List.mem_cons_self
  | extending identity name parent ih =>
    rw [Realm.getMetadata, Realm.getMetadata, h _ List.mem_cons_self,
      ih fun A hmem => h A (List.mem_cons_of_mem _ hmem)]

@[simp] theorem getMetadata_addClass {D : TestGroup} :
    (realm.addClass D).getMetadata C = realm.getMetadata C :=
  getMetadata_congr fun _ _ => rfl

@[simp] theorem metadata_addClass : (realm.addClass C).metadata = realm.metadata := rfl

@[simp] theorem arrays_addClass : (realm.addClass C).arrays = realm.arrays := rfl

theorem definedTests_of_some (h : realm.getMetadata C = some array) :
    realm.definedTests C = realm.arrays[array]?.getD [] := by
  rw [Realm.definedTests, Realm.getDefinedTestsMetadata, h]

theorem definedTests_of_none (h : realm.getMetadata C = none) : realm.definedTests C = [] := by
  rw [Realm.definedTests, Realm.getDefinedTestsMetadata, h]
  simp

theorem definedTests_congr {D : TestGroup} (h : realm.getMetadata C = realm.getMetadata D) :
    realm.definedTests C = realm.definedTests D := by
  rw [Realm.definedTests, Realm.definedTests, Realm.getDefinedTestsMetadata,
    Realm.getDefinedTestsMetadata, h]

/-- Where there is metadata, all the tests are pushed to its array. -/
theorem decorate_of_some (h : realm.getMetadata definition.testGroup = some array) :
    decorate realm definition = { realm with
      arrays := realm.arrays.modify array (· ++ definition.tests)
      metadata := List.replicate definition.methods.length (definition.testGroup, array) ++
        realm.metadata } := by
  unfold decorate ClassDefinition.tests
  induction definition.methods generalizing realm with
  | nil =>
    simp only [List.foldl_nil, List.map_nil, List.append_nil, List.length_nil,
      List.replicate_zero, List.nil_append]
    rw [show (fun tests : List TestDefinition => tests) = id from rfl, List.modify_id]
  | cons method methods ih =>
    -- each decorator finds the array that is there, and sets it again
    have htest : test definition.testGroup realm method = { realm with
        arrays := realm.arrays.modify array (· ++ [method.definition definition.name])
        metadata := (definition.testGroup, array) :: realm.metadata } := by
      rw [test, Realm.getDefinedTestsMetadata, h]
      rfl
    rw [List.foldl_cons, htest, ih (getMetadata_of_lookup List.lookup_cons_self)]
    congr 1
    · rw [List.modify_modify_eq]
      congr 1
      funext tests
      simp
    · rw [List.length_cons, List.replicate_succ', List.append_assoc, List.singleton_append]

/-- Where there is none, the tests make a new array. -/
theorem decorate_of_none (h : realm.getMetadata definition.testGroup = none)
    (hmethods : definition.methods ≠ []) :
    decorate realm definition = { realm with
      arrays := realm.arrays ++ [definition.tests]
      metadata := List.replicate definition.methods.length
        (definition.testGroup, realm.arrays.length) ++ realm.metadata } := by
  obtain ⟨method, methods, hcons⟩ := List.exists_cons_of_ne_nil hmethods
  have hpush : (realm.arrays ++ [[]]).modify realm.arrays.length
      (· ++ [method.definition definition.name]) =
        realm.arrays ++ [[method.definition definition.name]] :=
    List.modifyTailIdx_add _ 0 realm.arrays [[]]
  have htest : test definition.testGroup realm method = { realm with
      arrays := realm.arrays ++ [[method.definition definition.name]]
      metadata := (definition.testGroup, realm.arrays.length) :: realm.metadata } := by
    rw [test, Realm.getDefinedTestsMetadata, h, ← hpush]
    rfl
  -- the decorators of the other methods find the array of the first
  have hrest := @decorate_of_some (test definition.testGroup realm method)
    { definition with methods := methods } realm.arrays.length (by
      rw [htest]
      exact getMetadata_of_lookup List.lookup_cons_self)
  have hcollect : (realm.arrays ++ [[method.definition definition.name]]).modify
      realm.arrays.length (· ++ methods.map fun method => method.definition definition.name) =
        realm.arrays ++ [definition.tests] := by
    rw [ClassDefinition.tests, hcons]
    exact List.modifyTailIdx_add _ 0 realm.arrays [[method.definition definition.name]]
  rw [decorate, hcons, List.foldl_cons]
  refine hrest.trans ?_
  rw [htest, List.length_cons, List.replicate_succ', List.append_assoc, List.singleton_append,
    ← hcollect]
  rfl

theorem decorate_nil (h : definition.methods = []) : decorate realm definition = realm := by
  rw [decorate, h]
  rfl

theorem classes_decorate : (decorate realm definition).classes = realm.classes := by
  rcases h : realm.getMetadata definition.testGroup with _ | array
  · by_cases hmethods : definition.methods = []
    · rw [decorate_nil hmethods]
    · rw [decorate_of_none h hmethods]
  · rw [decorate_of_some h]

theorem length_arrays_decorate :
    realm.arrays.length ≤ (decorate realm definition).arrays.length := by
  rcases h : realm.getMetadata definition.testGroup with _ | array
  · by_cases hmethods : definition.methods = []
    · exact Nat.le_of_eq (by rw [decorate_nil hmethods])
    · rw [decorate_of_none h hmethods, List.length_append]
      exact Nat.le_add_right _ _
  · exact Nat.le_of_eq (by rw [decorate_of_some h, List.length_modify])

/-- A class definition leaves the metadata of the other classes alone. -/
theorem lookup_decorate_ne (hne : C ≠ definition.testGroup) :
    (decorate realm definition).metadata.lookup C = realm.metadata.lookup C := by
  have hskip : ∀ n array, (List.replicate n (definition.testGroup, array) ++
      realm.metadata).lookup C = realm.metadata.lookup C := by
    intro n array
    rw [List.lookup_append, List.lookup_replicate_ne (by simpa using hne), Option.none_or]
  rcases h : realm.getMetadata definition.testGroup with _ | array
  · by_cases hmethods : definition.methods = []
    · rw [decorate_nil hmethods]
    · rw [decorate_of_none h hmethods]
      exact hskip _ _
  · rw [decorate_of_some h]
    exact hskip _ _

/-- The metadata of a class with tests is what was found when it was defined, or a new array. -/
theorem lookup_decorate_self (hmethods : definition.methods ≠ []) :
    (decorate realm definition).metadata.lookup definition.testGroup =
      some ((realm.getMetadata definition.testGroup).getD realm.arrays.length) := by
  have hself : ∀ array, (List.replicate definition.methods.length (definition.testGroup, array) ++
      realm.metadata).lookup definition.testGroup = some array := by
    intro array
    rw [List.lookup_append, List.lookup_replicate_self_of_pos (List.length_pos_of_ne_nil hmethods),
      Option.some_or]
  rcases h : realm.getMetadata definition.testGroup with _ | array
  · rw [decorate_of_none h hmethods]
    exact hself _
  · rw [decorate_of_some h]
    exact hself _

end Decorate

/-! ## What every order of definitions keeps -/

section Registered

variable {definitions : List ClassDefinition} {definition : ClassDefinition}
  {realm realm' : Realm} {C : TestGroup}

/-- The definitions have been evaluated: a class has metadata if it has tests. -/
structure Registered (definitions : List ClassDefinition) (realm : Realm) : Prop where
  classes : realm.classes = .FunctionalTestGroup :: definitions.map ClassDefinition.testGroup
  distinct : realm.classes.Nodup
  closed : ∀ C ∈ realm.classes, ∀ A ∈ C.ancestors, A ∈ realm.classes
  metadata : ∀ C, (realm.metadata.lookup C).isSome ↔ decoratedTests definitions C ≠ []
  arrays : ∀ C array, realm.metadata.lookup C = some array → array < realm.arrays.length

theorem decoratedTests_append (later : List ClassDefinition) :
    decoratedTests (definitions ++ later) C =
      decoratedTests definitions C ++ decoratedTests later C := by
  rw [decoratedTests, List.filter_append, List.flatMap_append]
  rfl

theorem decoratedTests_self :
    decoratedTests [definition] definition.testGroup = definition.tests := by
  rw [decoratedTests, List.filter_singleton, decide_eq_true rfl]
  exact List.flatMap_singleton _ _

theorem decoratedTests_ne (hne : C ≠ definition.testGroup) :
    decoratedTests [definition] C = [] := by
  rw [decoratedTests, List.filter_singleton, decide_eq_false (Ne.symm hne)]
  rfl

/-- What is decorated in a class is decorated where it is defined. -/
theorem exists_of_decoratedTests (h : decoratedTests definitions C ≠ []) :
    ∃ definition ∈ definitions, definition.testGroup = C ∧ definition.methods ≠ [] := by
  obtain ⟨t, ht⟩ := List.exists_mem_of_ne_nil _ h
  obtain ⟨definition, hmem, htest⟩ := List.mem_flatMap.mp ht
  obtain ⟨hdefinition, hclass⟩ := List.mem_filter.mp hmem
  refine ⟨definition, hdefinition, of_decide_eq_true hclass, ?_⟩
  rintro hmethods
  rw [hmethods] at htest
  cases htest

/-- A class that is not defined has no tests. -/
theorem decoratedTests_of_notMem (h : C ∉ definitions.map ClassDefinition.testGroup) :
    decoratedTests definitions C = [] := by
  by_contra hne
  obtain ⟨definition, hmem, rfl, -⟩ := exists_of_decoratedTests hne
  exact h (List.mem_map_of_mem hmem)

theorem registered_nil : Registered [] ⟨[.FunctionalTestGroup], [], []⟩ where
  classes := rfl
  distinct := List.nodup_singleton _
  closed := by
    intro C hC A hA
    obtain rfl := List.mem_singleton.mp hC
    cases hA
  metadata := fun C => ⟨nofun, fun h => absurd rfl h⟩
  arrays := nofun

theorem define_eq_some : define realm definition = some realm' ↔
    definition.parent ∈ realm.classes ∧ definition.testGroup ∉ realm.classes ∧
      decorate (realm.addClass definition.testGroup) definition = realm' := by
  rw [define, Option.ite_none_right_eq_some, Option.some.injEq, and_assoc]

/-- Metadata is an array that exists. -/
theorem Registered.lt_of_getMetadata (h : Registered definitions realm) {array : ℕ}
    (hget : realm.getMetadata C = some array) : array < realm.arrays.length := by
  obtain ⟨A, -, hlookup⟩ := lookup_of_getMetadata hget
  exact h.arrays A array hlookup

/-- A new class has no tests. -/
theorem Registered.decoratedTests_new (h : Registered definitions realm)
    (hnew : C ∉ realm.classes) : decoratedTests definitions C = [] := by
  refine decoratedTests_of_notMem fun hmem => hnew ?_
  rw [h.classes]
  exact List.mem_cons_of_mem _ hmem

theorem Registered.lookup_eq_none (h : Registered definitions realm) :
    realm.metadata.lookup C = none ↔ decoratedTests definitions C = [] := by
  rw [← Option.not_isSome_iff_eq_none, h.metadata C, not_not]

/-- A new class has no metadata of its own. -/
theorem Registered.lookup_new (h : Registered definitions realm) (hnew : C ∉ realm.classes) :
    realm.metadata.lookup C = none :=
  h.lookup_eq_none.mpr (h.decoratedTests_new hnew)

theorem tests_eq_nil : definition.tests = [] ↔ definition.methods = [] := List.map_eq_nil_iff

theorem Registered.closed_define (h : Registered definitions realm)
    (hparent : definition.parent ∈ realm.classes) :
    ∀ C ∈ realm.classes ++ [definition.testGroup],
      ∀ A ∈ C.ancestors, A ∈ realm.classes ++ [definition.testGroup] := by
  intro C hC A hA
  refine List.mem_append_left _ ?_
  rcases List.mem_append.mp hC with hold | hlast
  · exact h.closed C hold A hA
  · obtain rfl := List.mem_singleton.mp hlast
    rcases List.mem_cons.mp hA with rfl | hancestor
    · exact hparent
    · exact h.closed _ hparent A hancestor

theorem Registered.metadata_define (h : Registered definitions realm)
    (hnew : definition.testGroup ∉ realm.classes) (C : TestGroup) :
    ((decorate (realm.addClass definition.testGroup) definition).metadata.lookup C).isSome ↔
      decoratedTests (definitions ++ [definition]) C ≠ [] := by
  rw [decoratedTests_append]
  by_cases hC : C = definition.testGroup
  · rw [hC, decoratedTests_self, h.decoratedTests_new hnew, List.nil_append]
    -- without methods no decorator runs, so the class gets no metadata of its own
    by_cases hmethods : definition.methods = []
    · rw [decorate_nil hmethods, metadata_addClass, h.lookup_new hnew, tests_eq_nil.mpr hmethods]
      exact ⟨nofun, fun hne => absurd rfl hne⟩
    · rw [lookup_decorate_self hmethods]
      exact ⟨fun _ => mt tests_eq_nil.mp hmethods, fun _ => rfl⟩
  · rw [lookup_decorate_ne hC, decoratedTests_ne hC, List.append_nil]
    exact h.metadata C

theorem Registered.arrays_define (h : Registered definitions realm)
    (hnew : definition.testGroup ∉ realm.classes) {array : ℕ}
    (hlookup : (decorate (realm.addClass definition.testGroup) definition).metadata.lookup C =
      some array) :
    array < (decorate (realm.addClass definition.testGroup) definition).arrays.length := by
  have hlength : realm.arrays.length ≤
      (decorate (realm.addClass definition.testGroup) definition).arrays.length :=
    @length_arrays_decorate (realm.addClass definition.testGroup) definition
  by_cases hC : C = definition.testGroup
  · rw [hC] at hlookup
    by_cases hmethods : definition.methods = []
    · rw [decorate_nil hmethods, metadata_addClass, h.lookup_new hnew] at hlookup
      cases hlookup
    · rw [lookup_decorate_self hmethods, getMetadata_addClass] at hlookup
      obtain rfl := Option.some.inj hlookup
      -- the array is an ancestor's, if one has an array, and else a new one
      rcases hget : realm.getMetadata definition.testGroup with _ | array
      · rw [decorate_of_none (getMetadata_addClass.trans hget) hmethods, List.length_append]
        exact Nat.lt_succ_self _
      · exact Nat.lt_of_lt_of_le (h.lt_of_getMetadata hget) hlength
  · rw [lookup_decorate_ne hC] at hlookup
    exact Nat.lt_of_lt_of_le (h.arrays C array hlookup) hlength

/-- One more class definition. -/
theorem Registered.define (h : Registered definitions realm)
    (hdefine : define realm definition = some realm') :
    Registered (definitions ++ [definition]) realm' := by
  obtain ⟨hparent, hnew, rfl⟩ := define_eq_some.mp hdefine
  have hclasses : (decorate (realm.addClass definition.testGroup) definition).classes =
      realm.classes ++ [definition.testGroup] := classes_decorate
  refine ⟨?_, ?_, ?_, h.metadata_define hnew, fun C array => h.arrays_define hnew⟩
  · rw [hclasses, h.classes, List.map_append, List.map_singleton]
    rfl
  · rw [hclasses, ← List.concat_eq_append]
    exact h.distinct.concat hnew
  · rw [hclasses]
    exact h.closed_define hparent

theorem registered_defineAll (hruns : defineAll definitions = some realm) :
    Registered definitions realm :=
  Machine.runs_invariant (I := Registered) registered_nil
    (fun _ _ _ _ h hdefine => h.define hdefine) hruns

/-! ## Classes that share no array -/

theorem OneDecorated.earlier {later : List ClassDefinition}
    (h : OneDecorated (definitions ++ later)) : OneDecorated definitions := by
  intro C A hC hA
  have hboth := h C A (by
    rw [decoratedTests_append]
    exact List.append_ne_nil_of_left_ne_nil hC _) hA
  rw [decoratedTests_append] at hboth
  exact (List.append_eq_nil_iff.mp hboth).1

/-- Each class that has tests has an array of its own with them. -/
def OwnArrays (definitions : List ClassDefinition) (realm : Realm) : Prop :=
  ∀ C array, realm.metadata.lookup C = some array →
    realm.arrays[array]? = some (decoratedTests definitions C)

/-- The metadata of a class none of whose ancestors has tests. -/
theorem Registered.getMetadata_eq_none (h : Registered definitions realm)
    (hundecorated : ∀ A ∈ C :: C.ancestors, decoratedTests definitions A = []) :
    realm.getMetadata C = none := by
  refine Option.eq_none_iff_forall_ne_some.mpr fun array hget => ?_
  obtain ⟨A, hmem, hA⟩ := lookup_of_getMetadata hget
  rw [h.lookup_eq_none.mpr (hundecorated A hmem)] at hA
  cases hA

/-- A class with tests begins an array. -/
theorem OwnArrays.define (h : OwnArrays definitions realm)
    (hregistered : Registered definitions realm) (hone : OneDecorated (definitions ++ [definition]))
    (hdefine : define realm definition = some realm') :
    OwnArrays (definitions ++ [definition]) realm' := by
  obtain ⟨hparent, hnew, rfl⟩ := define_eq_some.mp hdefine
  have hself : decoratedTests (definitions ++ [definition]) definition.testGroup =
      definition.tests := by
    rw [decoratedTests_append, hregistered.decoratedTests_new hnew, decoratedTests_self,
      List.nil_append]
  have hother : ∀ C ≠ definition.testGroup,
      decoratedTests (definitions ++ [definition]) C = decoratedTests definitions C := by
    intro C hC
    rw [decoratedTests_append, decoratedTests_ne hC, List.append_nil]
  intro C array hlookup
  by_cases hmethods : definition.methods = []
  · rw [decorate_nil hmethods, metadata_addClass] at hlookup
    rw [decorate_nil hmethods, arrays_addClass, h C array hlookup, hother]
    rintro rfl
    rw [hregistered.lookup_new hnew] at hlookup
    cases hlookup
  · -- no ancestor has tests, so no array is found and one is begun
    have hnone : (realm.addClass definition.testGroup).getMetadata definition.testGroup = none := by
      rw [getMetadata_addClass]
      refine hregistered.getMetadata_eq_none (List.forall_mem_cons.mpr
        ⟨hregistered.decoratedTests_new hnew, fun A hancestor => ?_⟩)
      have htests := hone _ A (by rw [hself]; exact mt tests_eq_nil.mp hmethods) hancestor
      rw [decoratedTests_append] at htests
      exact (List.append_eq_nil_iff.mp htests).1
    have harrays : (decorate (realm.addClass definition.testGroup) definition).arrays =
        realm.arrays ++ [definition.tests] := by
      rw [decorate_of_none hnone hmethods, arrays_addClass]
    rw [harrays]
    by_cases hC : C = definition.testGroup
    · rw [hC, lookup_decorate_self hmethods, hnone] at hlookup
      obtain rfl := Option.some.inj hlookup
      rw [hC, hself]
      exact List.getElem?_concat_length
    · rw [lookup_decorate_ne hC, metadata_addClass] at hlookup
      rw [List.getElem?_append_left (hregistered.arrays C array hlookup), h C array hlookup,
        hother C hC]

theorem ownArrays_defineAll (hone : OneDecorated definitions)
    (hruns : defineAll definitions = some realm) : OwnArrays definitions realm := by
  refine (Machine.runs_invariant (I := fun definitions realm => Registered definitions realm ∧
    (OneDecorated definitions → OwnArrays definitions realm)) ⟨registered_nil, fun _ => nofun⟩
    ?_ hruns).2 hone
  rintro past before definition after ⟨hregistered, hown⟩ hdefine
  exact ⟨hregistered.define hdefine,
    fun hone => (hown hone.earlier).define hregistered hone hdefine⟩

theorem decoratedTests_FunctionalTestGroup :
    decoratedTests definitions .FunctionalTestGroup = [] := by
  refine decoratedTests_of_notMem fun hmem => ?_
  obtain ⟨definition, -, hroot⟩ := List.mem_map.mp hmem
  cases hroot

theorem inheritedTests_eq_nil
    (hundecorated : ∀ A ∈ C :: C.ancestors, decoratedTests definitions A = []) :
    inheritedTests definitions C = [] := by
  induction C with
  | FunctionalTestGroup => rfl
  | extending identity name parent ih =>
    obtain ⟨hself, hparent⟩ := List.forall_mem_cons.mp hundecorated
    rw [inheritedTests, hself, ih hparent, List.append_nil]

/-- Classes that share no array have the tests they should have. -/
theorem OwnArrays.definedTests (h : OwnArrays definitions realm)
    (hregistered : Registered definitions realm) (hone : OneDecorated definitions) :
    realm.definedTests C = inheritedTests definitions C := by
  induction C with
  | FunctionalTestGroup =>
    exact definedTests_of_none (hregistered.lookup_eq_none.mpr decoratedTests_FunctionalTestGroup)
  | extending identity name parent ih =>
    rw [inheritedTests]
    rcases hlookup : realm.metadata.lookup (.extending identity name parent) with _ | array
    · have hget : realm.getMetadata (.extending identity name parent) =
          realm.getMetadata parent := by
        rw [Realm.getMetadata, hlookup, Option.none_or]
      rw [definedTests_congr hget, ih, hregistered.lookup_eq_none.mp hlookup, List.append_nil]
    · have hdecorated : decoratedTests definitions (.extending identity name parent) ≠ [] :=
        (hregistered.metadata _).mp (by rw [hlookup]; rfl)
      rw [definedTests_of_some (getMetadata_of_lookup hlookup), h _ _ hlookup, Option.getD_some,
        inheritedTests_eq_nil fun A hmem => hone _ A hdecorated hmem, List.nil_append]

/-- What a class inherits does not depend on the classes after it. -/
theorem inheritedTests_append (hC : ∀ A ∈ C :: C.ancestors, A ≠ definition.testGroup) :
    inheritedTests (definitions ++ [definition]) C = inheritedTests definitions C := by
  induction C with
  | FunctionalTestGroup => rfl
  | extending identity name parent ih =>
    obtain ⟨hself, hparent⟩ := List.forall_mem_cons.mp hC
    rw [inheritedTests, inheritedTests, ih hparent, decoratedTests_append, decoratedTests_ne hself,
      List.append_nil]

/-- A class is none of those that come after it, and nor are its ancestors. -/
theorem Registered.ne_testGroup (h : Registered definitions realm) (hC : C ∈ realm.classes)
    (hnew : definition.testGroup ∉ realm.classes) :
    ∀ A ∈ C :: C.ancestors, A ≠ definition.testGroup := by
  rintro A hmem rfl
  rcases List.mem_cons.mp hmem with rfl | hancestor
  · exact hnew hC
  · exact hnew (h.closed C hC _ hancestor)

/-! ## A class that extends one with tests -/

/-- The tests of such a class are tests of its parent from then on. -/
theorem definedTests_parent {array : ℕ} (hregistered : Registered definitions realm)
    (hget : realm.getMetadata definition.parent = some array)
    (hdefine : define realm definition = some realm') :
    realm'.definedTests definition.parent =
      realm.definedTests definition.parent ++ definition.tests := by
  obtain ⟨hparent, hnew, rfl⟩ := define_eq_some.mp hdefine
  have hgetSelf : (realm.addClass definition.testGroup).getMetadata definition.testGroup =
      some array := by
    rw [getMetadata_addClass, ClassDefinition.testGroup, Realm.getMetadata]
    rw [← ClassDefinition.testGroup, hregistered.lookup_new hnew, Option.none_or, hget]
  have hgetParent : (decorate (realm.addClass definition.testGroup) definition).getMetadata
      definition.parent = some array := by
    rw [← hget, ← @getMetadata_addClass realm definition.parent definition.testGroup]
    exact getMetadata_congr fun A hmem =>
      lookup_decorate_ne (hregistered.ne_testGroup hparent hnew A hmem)
  have hlt := hregistered.lt_of_getMetadata hget
  rw [definedTests_of_some hgetParent, definedTests_of_some hget, decorate_of_some hgetSelf,
    arrays_addClass, List.getElem?_modify_eq, List.getElem?_eq_getElem hlt]
  rfl

/-- What was defined before and after a class definition. -/
theorem exists_of_mem (hruns : defineAll definitions = some realm)
    (hmem : definition ∈ definitions) :
    ∃ earlier later before after, definitions = earlier ++ definition :: later ∧
      defineAll earlier = some before ∧ define before definition = some after := by
  obtain ⟨earlier, later, rfl⟩ := List.append_of_mem hmem
  rw [List.append_cons] at hruns
  obtain ⟨after, hafter, -⟩ := Machine.runs_append.mp hruns
  obtain ⟨before, hbefore, hdefine⟩ := Machine.runs_append_singleton.mp hafter
  exact ⟨earlier, later, before, after, rfl, hbefore, hdefine⟩

/-- **The tests of the classes** are as expected exactly if no class with tests extends one with
tests. -/
theorem definedTests_inherited_iff (hruns : defineAll definitions = some realm) :
    RespectsInheritance definitions realm ↔ OneDecorated definitions := by
  have hregistered := registered_defineAll hruns
  constructor
  · intro h C A hC hA
    -- otherwise the class adds its tests to the array of `A`
    by_contra hdecorated
    obtain ⟨definition, hmem, rfl, hmethods⟩ := exists_of_decoratedTests hC
    obtain ⟨earlier, later, before, after, rfl, hbefore, hdefine⟩ := exists_of_mem hruns hmem
    have hbeforeRegistered := registered_defineAll hbefore
    obtain ⟨hparent, -, -⟩ := define_eq_some.mp hdefine
    have hAmem : A ∈ definition.parent :: definition.parent.ancestors := hA
    have hAclass : A ∈ before.classes := by
      rcases List.mem_cons.mp hAmem with rfl | hancestor
      · exact hparent
      · exact hbeforeRegistered.closed _ hparent A hancestor
    -- `A` was defined before, so its tests come from earlier definitions
    have hAlater : decoratedTests (definition :: later) A = [] := by
      refine decoratedTests_of_notMem fun hlater => ?_
      have hdistinct := hregistered.distinct
      rw [hregistered.classes, List.map_append, ← List.cons_append, ← hbeforeRegistered.classes]
        at hdistinct
      exact (List.nodup_append.mp hdistinct).2.2 A hAclass A hlater rfl
    rw [decoratedTests_append, hAlater, List.append_nil] at hdecorated
    obtain ⟨array, hget⟩ := Option.isSome_iff_exists.mp
      (getMetadata_isSome hAmem ((hbeforeRegistered.metadata A).mpr hdecorated))
    have hchanged := definedTests_parent hbeforeRegistered hget hdefine
    rw [h.frame _ _ _ _ _ rfl hbefore hdefine _ hparent] at hchanged
    exact hmethods (tests_eq_nil.mp (List.self_eq_append_right.mp hchanged))
  · intro hone
    refine ⟨fun C _ => (ownArrays_defineAll hone hruns).definedTests hregistered hone, ?_⟩
    rintro earlier definition later before after rfl hbefore hdefine C hC
    have hbeforeRegistered := registered_defineAll hbefore
    have hafter : defineAll (earlier ++ [definition]) = some after :=
      Machine.runs_append_singleton.mpr ⟨before, hbefore, hdefine⟩
    rw [List.append_cons] at hone
    obtain ⟨-, hnew, -⟩ := define_eq_some.mp hdefine
    rw [(ownArrays_defineAll hone.earlier hafter).definedTests (registered_defineAll hafter)
        hone.earlier,
      (ownArrays_defineAll hone.earlier.earlier hbefore).definedTests hbeforeRegistered
        hone.earlier.earlier,
      inheritedTests_append (hbeforeRegistered.ne_testGroup hC hnew)]

end Registered

/-! Two test groups that extend one. -/

def parentGroup : TestGroup := .extending 0 "ParentTestGroup" .FunctionalTestGroup

def siblings (parentTests : List DecoratedMethod) : List ClassDefinition :=
  [⟨0, "ParentTestGroup", .FunctionalTestGroup, parentTests⟩,
    ⟨1, "FirstTestGroup", parentGroup, [⟨7, "testB", ⟨1⟩⟩]⟩,
    ⟨2, "SecondTestGroup", parentGroup, [⟨7, "testC", ⟨2⟩⟩]⟩]

/-- Without tests of its parent each has its own. -/
theorem definedTests_inherited_iff_siblings :
    ∃ realm, defineAll (siblings []) = some realm ∧ RespectsInheritance (siblings []) realm := by
  obtain ⟨realm, hruns⟩ : ∃ realm, defineAll (siblings []) = some realm := ⟨_, rfl⟩
  refine ⟨realm, hruns, (definedTests_inherited_iff hruns).mpr fun C A hC hA => ?_⟩
  obtain ⟨definition, hmem, rfl, hmethods⟩ := exists_of_decoratedTests hC
  have hancestors : ∀ definition ∈ siblings [], definition.methods ≠ [] →
      ∀ A ∈ definition.testGroup.ancestors, decoratedTests (siblings []) A = [] := by decide
  exact hancestors definition hmem hmethods A hA

/-- With a test of its parent, each has the test of the other, and so has the parent. -/
theorem definedTests_siblings_shared :
    ∃ realm, defineAll (siblings [⟨7, "testA", ⟨0⟩⟩]) = some realm ∧
      (realm.definedTests parentGroup).map (fun definition => definition.testName) =
        ["testA", "testB", "testC"] ∧
      (realm.definedTests (.extending 1 "FirstTestGroup" parentGroup)).map
        (fun definition => definition.testName) = ["testA", "testB", "testC"] ∧
      ¬ RespectsInheritance (siblings [⟨7, "testA", ⟨0⟩⟩]) realm := by
  refine ⟨_, rfl, rfl, rfl, fun h => ?_⟩
  have hlists := h.lists parentGroup (by decide)
  exact absurd hlists (by decide)

end WebInsights.E2eTestRunner
