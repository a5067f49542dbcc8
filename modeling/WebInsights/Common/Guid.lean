/-
`GuidGenerator`: the version 6 UUIDs every document id is, and the splice that
gives a child document the node part of its parent.

The methods work on the text of a UUID by character position. This file says
what they compute on a text that `isValidV6Guid` accepts: the node is the last
twelve digits, and the splice of two valid UUIDs is a valid UUID with the first
24 characters of the fresh one and the node of the base. `getGuidTimestamp` is in
`GuidTimestamp.lean`.
-/
import Mathlib.Data.List.Basic
import Mathlib.Tactic.Common

set_option autoImplicit false

namespace WebInsights.Common

/-- `s.substr(start, length)`. -/
def substr (s : String) (start length : ℕ) : String :=
  String.ofList ((s.toList.drop start).take length)

@[simp] theorem toList_substr (s : String) (start length : ℕ) :
    (substr s start length).toList = (s.toList.drop start).take length :=
  String.toList_ofList

/-! ## `isValidV6Guid` -/

/-- The character classes of the expression that describes a version 6 UUID. -/
inductive CharClass where
  | hexDigit
  | dash
  | six
  deriving DecidableEq

/-- `[0-9a-fA-F]`, `-` and `6`. -/
def CharClass.accepts : CharClass → Char → Bool
  | .hexDigit, c => ('0' ≤ c && c ≤ '9') || ('a' ≤ c && c ≤ 'f') || ('A' ≤ c && c ≤ 'F')
  | .dash, c => c = '-'
  | .six, c => c = '6'

/-- The whole text is one character of every class, in order. -/
def matchesClasses : List CharClass → List Char → Bool
  | [], [] => true
  | p :: ps, c :: cs => p.accepts c && matchesClasses ps cs
  | _, _ => false

/-- What stands before the node: groups of eight, four, four and four digits, each
with the dash behind it; the third group starts with the version. -/
def guidV6Head : List CharClass :=
  List.replicate 8 .hexDigit ++ [.dash] ++ List.replicate 4 .hexDigit ++ [.dash, .six] ++
    List.replicate 3 .hexDigit ++ [.dash] ++ List.replicate 4 .hexDigit ++ [.dash]

/-- The node: twelve digits. -/
def guidV6Node : List CharClass := List.replicate 12 .hexDigit

/-- Returns if the input string is a valid version 6 UUID. -/
def isValidV6Guid (guid : String) : Bool := matchesClasses (guidV6Head ++ guidV6Node) guid.toList

/-- The UUID node part. -/
def getGuidNode (guid : String) : String :=
  substr (String.ofList (guid.toList.filter fun c => c ≠ '-')) 20 12

/-- The UUID that `createGuidFromBaseGuid(baseGuid)` makes of a fresh one. -/
def createGuidFromBaseGuid (guid baseGuid : String) : String :=
  substr guid 0 24 ++ getGuidNode baseGuid

/-! ## Texts that match a list of classes -/

theorem matchesClasses_length {ps : List CharClass} {cs : List Char}
    (h : matchesClasses ps cs = true) : cs.length = ps.length := by
  induction ps generalizing cs with
  | nil => cases cs with
    | nil => rfl
    | cons c cs => cases h
  | cons p ps ih => cases cs with
    | nil => cases h
    | cons c cs =>
      rw [matchesClasses, Bool.and_eq_true] at h
      rw [List.length_cons, List.length_cons, ih h.2]

theorem matchesClasses_append {ps qs : List CharClass} {cs : List Char} :
    matchesClasses (ps ++ qs) cs = true ↔
      matchesClasses ps (cs.take ps.length) = true ∧
        matchesClasses qs (cs.drop ps.length) = true := by
  induction ps generalizing cs with
  | nil => simp [matchesClasses]
  | cons p ps ih => cases cs with
    | nil => simp [matchesClasses]
    | cons c cs => simp [matchesClasses, ih, and_assoc]

/-- Every class but the dash rejects the dash, so removing the dashes of a text
removes exactly the characters its dash classes stand for. -/
theorem length_filter_of_matches {ps : List CharClass} {cs : List Char}
    (h : matchesClasses ps cs = true) :
    (cs.filter fun c => c ≠ '-').length = (ps.filter fun p => p ≠ .dash).length := by
  induction ps generalizing cs with
  | nil => cases cs with
    | nil => rfl
    | cons c cs => cases h
  | cons p ps ih => cases cs with
    | nil => cases h
    | cons c cs =>
      rw [matchesClasses, Bool.and_eq_true] at h
      -- a dash of the text stands for a dash class, and nothing else does
      have hhead : c = '-' ↔ p = .dash := by
        constructor
        · rintro rfl
          cases p with
          | dash => rfl
          | hexDigit => exact absurd h.1 (by decide)
          | six => exact absurd h.1 (by decide)
        · rintro rfl
          simpa [CharClass.accepts] using h.1
      by_cases hc : c = '-'
      · have hp := hhead.mp hc
        rw [List.filter_cons_of_neg (by simp [hc]), List.filter_cons_of_neg (by simp [hp]),
          ih h.2]
      · have hp : p ≠ .dash := fun e => hc (hhead.mpr e)
        rw [List.filter_cons_of_pos (by simp [hc]), List.filter_cons_of_pos (by simp [hp]),
          List.length_cons, List.length_cons, ih h.2]

/-! ## The parts of a valid UUID -/

/-- A valid UUID: 24 characters that match the head and twelve that match the
node. -/
theorem isValidV6Guid_iff {guid : String} :
    isValidV6Guid guid = true ↔
      matchesClasses guidV6Head (guid.toList.take 24) = true ∧
        matchesClasses guidV6Node (guid.toList.drop 24) = true :=
  matchesClasses_append

/-- The node of a valid UUID is what stands behind its first 24 characters. -/
theorem toList_getGuidNode {guid : String} (h : isValidV6Guid guid = true) :
    (getGuidNode guid).toList = guid.toList.drop 24 := by
  obtain ⟨hhead, hnode⟩ := isValidV6Guid_iff.mp h
  have hlen : ((guid.toList.take 24).filter fun c => c ≠ '-').length = 20 :=
    length_filter_of_matches hhead
  have hnolen : ((guid.toList.drop 24).filter fun c => c ≠ '-').length = 12 :=
    length_filter_of_matches hnode
  have hself : (guid.toList.drop 24).filter (fun c => c ≠ '-') = guid.toList.drop 24 :=
    List.length_filter_eq_length_iff.mp (hnolen.trans (matchesClasses_length hnode).symm) |>
      List.filter_eq_self.mpr
  have hsplit : guid.toList.filter (fun c => c ≠ '-') =
      (guid.toList.take 24).filter (fun c => c ≠ '-') ++ guid.toList.drop 24 := by
    conv_lhs => rw [← List.take_append_drop 24 guid.toList, List.filter_append, hself]
  rw [getGuidNode, toList_substr, String.toList_ofList, hsplit, ← hlen, List.drop_left]
  exact List.take_of_length_le (by rw [matchesClasses_length hnode]; decide)

/-- The spliced UUID: the first 24 characters of the fresh one, the node of the
base. -/
theorem toList_createGuidFromBaseGuid {guid baseGuid : String}
    (hbase : isValidV6Guid baseGuid = true) :
    (createGuidFromBaseGuid guid baseGuid).toList =
      guid.toList.take 24 ++ baseGuid.toList.drop 24 := by
  rw [createGuidFromBaseGuid, String.toList_append, toList_getGuidNode hbase, toList_substr,
    List.drop_zero]

theorem ne_empty_of_valid {guid : String} (h : isValidV6Guid guid = true) : guid ≠ "" := by
  rintro rfl
  exact absurd h (by decide)

theorem length_take_of_valid {guid : String} (h : isValidV6Guid guid = true) :
    (guid.toList.take 24).length = 24 :=
  matchesClasses_length (isValidV6Guid_iff.mp h).1

section Splice

variable {guid baseGuid : String} (hguid : isValidV6Guid guid = true)
  (hbase : isValidV6Guid baseGuid = true)

include hguid hbase

theorem take_createGuidFromBaseGuid :
    (createGuidFromBaseGuid guid baseGuid).toList.take 24 = guid.toList.take 24 := by
  rw [toList_createGuidFromBaseGuid hbase, List.take_left' (length_take_of_valid hguid)]

theorem drop_createGuidFromBaseGuid :
    (createGuidFromBaseGuid guid baseGuid).toList.drop 24 = baseGuid.toList.drop 24 := by
  rw [toList_createGuidFromBaseGuid hbase, List.drop_left' (length_take_of_valid hguid)]

/-- The splice of valid UUIDs is a valid UUID. -/
theorem isValidV6Guid_createGuidFromBaseGuid :
    isValidV6Guid (createGuidFromBaseGuid guid baseGuid) = true := by
  rw [isValidV6Guid_iff, take_createGuidFromBaseGuid hguid hbase,
    drop_createGuidFromBaseGuid hguid hbase]
  exact ⟨(isValidV6Guid_iff.mp hguid).1, (isValidV6Guid_iff.mp hbase).2⟩

/-- **The splice keeps the node of its base.** -/
theorem getGuidNode_createGuidFromBaseGuid :
    getGuidNode (createGuidFromBaseGuid guid baseGuid) = getGuidNode baseGuid := by
  apply String.toList_injective
  rw [toList_getGuidNode (isValidV6Guid_createGuidFromBaseGuid hguid hbase),
    toList_getGuidNode hbase, drop_createGuidFromBaseGuid hguid hbase]

end Splice

/-! ## Valid UUIDs as a type -/

/-- A version 6 UUID, as `uuid.v6()` returns them. -/
structure V6Guid where
  text : String
  valid : isValidV6Guid text = true

/-- A UUID to compute with. -/
def V6Guid.zero : V6Guid where
  text := "00000000-0000-6000-8000-000000000000"
  valid := by decide

/-- UUIDs to compute with, the first four of them different. -/
def V6Guid.sample : ℕ → V6Guid
  | 0 => ⟨"1ed10000-0000-6000-8000-00000000000a", by decide⟩
  | 1 => ⟨"1ed10001-0000-6000-8000-00000000000b", by decide⟩
  | 2 => ⟨"1ed10002-0000-6000-8000-00000000000c", by decide⟩
  | _ => ⟨"1ed10003-0000-6000-8000-00000000000d", by decide⟩

/-- The characters before the node, which tell two generated UUIDs apart. -/
def guidPrefix (guid : String) : List Char := guid.toList.take 24

end WebInsights.Common
