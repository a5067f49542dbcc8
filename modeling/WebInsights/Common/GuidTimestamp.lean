/-
`GuidGenerator.getGuidTimestamp`: the moment a version 6 UUID was made.

The time fields of the UUID, 32, 16 and 12 bits, are one number of hundreds of nanoseconds
since 1582. The method takes the first dash out of the text and reads the fields by position.
On a valid UUID it reads all of them (`exists_parts_of_valid` says where they stand) and does
not throw; the last theorem puts it together with the node and the splice of `Guid.lean`.

Of `BigInt` and `Date` this file says what the method uses.
-/
import Mathlib.Data.List.DropRight
import Mathlib.Data.Nat.Digits.Defs
import WebInsights.Common.Guid
import WebInsights.Js.NumberText

set_option autoImplicit false

namespace WebInsights.Common

open Js

/-! ## `BigInt` and `Date` -/

/-- The value of a hex digit. -/
def hexDigitValue (c : Char) : ℕ :=
  if c ≤ '9' then c.toNat - 48 else if 'a' ≤ c then c.toNat - 87 else c.toNat - 55

/-- The number hex digits stand for, the most significant one first. -/
def hexValue (cs : List Char) : ℕ := Nat.ofDigits 16 (cs.reverse.map hexDigitValue)

inductive GuidError where
  /-- `new Error(message)` -/
  | error (message : String)
  /-- What `BigInt` throws for a text that is no number. -/
  | syntaxError
  deriving DecidableEq

/-- ``BigInt(`0x${digits}`)``, which does not mind white space behind the digits. -/
def bigIntOfHex (digits : String) : Except GuidError ℕ :=
  let digits := digits.toList.rdropWhile isStrWhiteSpace
  if digits ≠ [] ∧ digits.all CharClass.hexDigit.accepts = true then .ok (hexValue digits)
  else .error .syntaxError

/-- `Number(n)` of a `BigInt`. -/
def numberOfBigInt (n : ℤ) : ℚ := if n < 0 then -toNumber ((-n : ℤ) : ℚ) else toNumber (n : ℚ)

/-- `new Date(v).valueOf()`; there is no date more than 100 million days from the epoch. -/
def timeValue (v : ℚ) : Option ℤ :=
  if |v| ≤ 8640000000000000 then some (v.num.tdiv v.den) else none

/-- The day a year begins with, from the first of January 1970 on. -/
def dayFromYear (y : ℤ) : ℤ :=
  365 * (y - 1970) + (y - 1969) / 4 - (y - 1901) / 100 + (y - 1601) / 400

def isLeapYear (y : ℤ) : Bool := (4 ∣ y ∧ ¬ 100 ∣ y) ∨ 400 ∣ y

/-- The days of the months of a year. -/
def monthLengths (y : ℤ) : List ℤ :=
  [31, if isLeapYear y then 29 else 28, 31, 30, 31, 30, 31, 31, 30, 31, 30, 31]

/-- `Date.UTC(year, month, date)`, for a year of at least three digits; months start at 0. -/
def dateUTC (year : ℤ) (month : ℕ) (date : ℤ) : ℤ :=
  (dayFromYear year + ((monthLengths year).take month).sum + (date - 1)) * 86400000

/-! ## `getGuidTimestamp` -/

/-- `s.replace(c, '')`: the first one is taken out. -/
def replaceFirst (s : String) (c : Char) : String := String.ofList (s.toList.erase c)

/-- The timestamp of a UUID, as the value of its date. -/
def getGuidTimestamp (guid : String) : Except GuidError (Option ℤ) := do
  let guidValue := replaceFirst guid '-'
  if substr guidValue 13 1 ≠ "6" then
    throw (.error "Only version 6 of UUID is supported.")
  let timestamp ← bigIntOfHex (substr guidValue 0 12 ++ substr guidValue 14 3)
  let timestampMilliseconds : ℕ := timestamp / 10000
  let baseDate := |dateUTC 1582 9 15|
  pure (timeValue (numberOfBigInt (timestampMilliseconds - baseDate)))

/-! ## The parts of a valid UUID -/

/-- The first 32, the next 16 and the last 12 bits of the time. -/
def timeHigh (guid : String) : ℕ := hexValue (guid.toList.take 8)

def timeMid (guid : String) : ℕ := hexValue ((guid.toList.drop 9).take 4)

def timeLow (guid : String) : ℕ := hexValue ((guid.toList.drop 15).take 3)

/-- The time of a UUID, in hundreds of nanoseconds since its epoch. -/
def guidTime (guid : String) : ℕ := timeHigh guid * 2 ^ 28 + timeMid guid * 2 ^ 12 + timeLow guid

/-- A run of hex digits. -/
def HexDigits (n : ℕ) (cs : List Char) : Prop :=
  cs.length = n ∧ ∀ c ∈ cs, CharClass.hexDigit.accepts c = true

theorem matches_replicate_hexDigit {n : ℕ} {cs : List Char} :
    matchesClasses (List.replicate n .hexDigit) cs = true ↔ HexDigits n cs := by
  induction n generalizing cs with
  | zero => cases cs <;> simp [matchesClasses, HexDigits]
  | succ n ih =>
    cases cs with
    | nil => simp [matchesClasses, HexDigits, List.replicate_succ]
    | cons c cs =>
      rw [List.replicate_succ, matchesClasses, Bool.and_eq_true, ih]
      simp only [HexDigits, List.length_cons, List.forall_mem_cons, Nat.add_right_cancel_iff]
      tauto

/-- A group of digits and the dash behind it. -/
theorem exists_group_of_matches {n : ℕ} {ps : List CharClass} {cs : List Char}
    (h : matchesClasses (List.replicate n .hexDigit ++ .dash :: ps) cs = true) :
    ∃ ds rest, HexDigits n ds ∧ matchesClasses ps rest = true ∧ cs = ds ++ '-' :: rest := by
  obtain ⟨hdigits, hrest⟩ := matchesClasses_append.mp h
  rw [List.length_replicate] at hdigits hrest
  rcases hdrop : cs.drop n with _ | ⟨c, rest⟩
  · rw [hdrop] at hrest
    cases hrest
  · rw [hdrop, matchesClasses, Bool.and_eq_true] at hrest
    have hdash : c = '-' := of_decide_eq_true hrest.1
    subst hdash
    exact ⟨cs.take n, rest, matches_replicate_hexDigit.mp hdigits, hrest.2, by
      rw [← hdrop, List.take_append_drop]⟩

/-- Where the parts of a valid UUID stand. -/
theorem exists_parts_of_valid {guid : String} (h : isValidV6Guid guid = true) :
    ∃ high mid low tail, HexDigits 8 high ∧ HexDigits 4 mid ∧ HexDigits 3 low ∧
      guid.toList = high ++ '-' :: (mid ++ '-' :: '6' :: (low ++ '-' :: tail)) := by
  have hclasses : guidV6Head ++ guidV6Node =
      List.replicate 8 .hexDigit ++ .dash :: (List.replicate 4 .hexDigit ++ .dash :: .six ::
        (List.replicate 3 .hexDigit ++ .dash :: (List.replicate 4 .hexDigit ++ .dash ::
          guidV6Node))) := rfl
  rw [isValidV6Guid, hclasses] at h
  obtain ⟨high, rest₁, hhigh, h₁, hguid⟩ := exists_group_of_matches h
  obtain ⟨mid, rest₂, hmid, h₂, rfl⟩ := exists_group_of_matches h₁
  rcases rest₂ with _ | ⟨c, rest₂⟩
  · cases h₂
  rw [matchesClasses, Bool.and_eq_true] at h₂
  have hsix : c = '6' := of_decide_eq_true h₂.1
  subst hsix
  obtain ⟨low, tail, hlow, -, rfl⟩ := exists_group_of_matches h₂.2
  exact ⟨high, mid, low, tail, hhigh, hmid, hlow, hguid⟩

/-! ## Hex digits as a number -/

/-- Where the hex digits stand among the characters. -/
theorem toNat_of_hexDigit {c : Char} (h : CharClass.hexDigit.accepts c = true) :
    (48 ≤ c.toNat ∧ c.toNat ≤ 57) ∨ (97 ≤ c.toNat ∧ c.toNat ≤ 102) ∨
      (65 ≤ c.toNat ∧ c.toNat ≤ 70) := by
  simp only [CharClass.accepts, Bool.or_eq_true, Bool.and_eq_true, decide_eq_true_eq] at h
  rcases h with (h | h) | h
  · exact Or.inl h
  · exact Or.inr (Or.inl h)
  · exact Or.inr (Or.inr h)

theorem hexDigitValue_lt {c : Char} (h : CharClass.hexDigit.accepts c = true) :
    hexDigitValue c < 16 := by
  have hc := toNat_of_hexDigit h
  unfold hexDigitValue
  split_ifs with hdigit hlower
  · have hle : c.toNat ≤ 57 := hdigit
    omega
  · omega
  · have hlt : ¬ 97 ≤ c.toNat := hlower
    omega

theorem HexDigits.value_lt {n : ℕ} {cs : List Char} (h : HexDigits n cs) :
    hexValue cs < 16 ^ n := by
  have hlt : Nat.ofDigits 16 (cs.reverse.map hexDigitValue) <
      16 ^ (cs.reverse.map hexDigitValue).length := by
    apply Nat.ofDigits_lt_base_pow_length (by norm_num)
    intro x hx
    obtain ⟨c, hc, rfl⟩ := List.mem_map.mp hx
    exact hexDigitValue_lt (h.2 c (List.mem_reverse.mp hc))
  rwa [List.length_map, List.length_reverse, h.1] at hlt

theorem hexValue_append (cs ds : List Char) :
    hexValue (cs ++ ds) = hexValue cs * 16 ^ ds.length + hexValue ds := by
  unfold hexValue
  rw [List.reverse_append, List.map_append, Nat.ofDigits_append, List.length_map,
    List.length_reverse, Nat.mul_comm, Nat.add_comm]

theorem HexDigits.append {m n : ℕ} {cs ds : List Char} (hcs : HexDigits m cs)
    (hds : HexDigits n ds) : HexDigits (m + n) (cs ++ ds) :=
  ⟨by rw [List.length_append, hcs.1, hds.1], List.forall_mem_append.mpr ⟨hcs.2, hds.2⟩⟩

theorem not_isStrWhiteSpace {c : Char} (h : CharClass.hexDigit.accepts c = true) :
    isStrWhiteSpace c = false := by
  have hc := toNat_of_hexDigit h
  simp only [isStrWhiteSpace, decide_eq_false_iff_not, List.mem_cons, List.not_mem_nil,
    or_false]
  omega

/-- No digit is white space, so a run of digits is read as it is. -/
theorem HexDigits.bigIntOfHex {n : ℕ} {cs : List Char} (h : HexDigits (n + 1) cs) :
    bigIntOfHex (String.ofList cs) = .ok (hexValue cs) := by
  have hne : cs ≠ [] := by
    rintro rfl
    cases h.1
  have hkept : cs.rdropWhile isStrWhiteSpace = cs := by
    rw [List.rdropWhile_eq_self_iff]
    intro hne
    rw [not_isStrWhiteSpace (h.2 _ (List.getLast_mem hne))]
    exact Bool.false_ne_true
  simp only [Common.bigIntOfHex, String.toList_ofList, hkept]
  rw [if_pos ⟨hne, List.all_eq_true.mpr h.2⟩]

/-! ## The timestamp of a valid UUID -/

theorem HexDigits.dash_notMem {n : ℕ} {cs : List Char} (h : HexDigits n cs) : '-' ∉ cs :=
  fun hdash => absurd (h.2 _ hdash) (by decide)

/-- The time fields of a UUID whose parts are told. -/
theorem timeFields_of_parts {guid : String} {high mid low tail : List Char}
    (hhigh : high.length = 8) (hmid : mid.length = 4) (hlow : low.length = 3)
    (hguid : guid.toList = high ++ '-' :: (mid ++ '-' :: '6' :: (low ++ '-' :: tail))) :
    timeHigh guid = hexValue high ∧ timeMid guid = hexValue mid ∧ timeLow guid = hexValue low := by
  have hdrop9 : guid.toList.drop 9 = mid ++ '-' :: '6' :: (low ++ '-' :: tail) := by
    rw [hguid, List.append_cons]
    exact List.drop_left' (by rw [List.length_append, hhigh]; rfl)
  have hdrop15 : guid.toList.drop 15 = low ++ '-' :: tail := by
    rw [← List.drop_drop (i := 6) (j := 9), hdrop9, List.append_cons, List.append_cons]
    exact List.drop_left' (by rw [List.length_append, List.length_append, hmid]; rfl)
  rw [timeHigh, timeMid, timeLow, hdrop9, hdrop15, hguid, List.take_left' hhigh,
    List.take_left' hmid, List.take_left' hlow]
  exact ⟨rfl, rfl, rfl⟩

/-- The time fields of a valid UUID have 32, 16 and 12 bits. -/
theorem timeFields_lt {guid : String} (h : isValidV6Guid guid = true) :
    timeHigh guid < 2 ^ 32 ∧ timeMid guid < 2 ^ 16 ∧ timeLow guid < 2 ^ 12 := by
  obtain ⟨high, mid, low, tail, hhigh, hmid, hlow, hguid⟩ := exists_parts_of_valid h
  obtain ⟨hhigh', hmid', hlow'⟩ := timeFields_of_parts hhigh.1 hmid.1 hlow.1 hguid
  rw [hhigh', hmid', hlow']
  exact ⟨hhigh.value_lt, hmid.value_lt, hlow.value_lt⟩

/-- So the time has 60 bits. -/
theorem guidTime_lt {guid : String} (h : isValidV6Guid guid = true) : guidTime guid < 2 ^ 60 := by
  obtain ⟨hhigh, hmid, hlow⟩ := timeFields_lt h
  rw [guidTime]
  omega

/-- `Date.UTC(1582, 9, 15)`, the epoch of the UUIDs. -/
theorem dateUTC_epoch : dateUTC 1582 9 15 = -12219292800000 := by decide

/-- An integer that a Number holds exactly is the value of its date, if it is not too far
from the epoch. -/
theorem timeValue_numberOfBigInt {n : ℤ} (hlow : -8640000000000000 ≤ n)
    (hhigh : n ≤ 8640000000000000) : timeValue (numberOfBigInt n) = some n := by
  have hnumber : numberOfBigInt n = n := by
    obtain ⟨k, rfl | rfl⟩ := n.eq_nat_or_neg
    · rw [numberOfBigInt, if_neg (by omega), Int.cast_natCast, toNumber_natCast (by omega)]
    · rcases Nat.eq_zero_or_pos k with rfl | hk
      · exact (if_neg (by omega)).trans (toNumber_natCast (n := 0) (by omega))
      · rw [numberOfBigInt, if_pos (by omega), neg_neg, Int.cast_natCast,
          toNumber_natCast (by omega)]
        push_cast
        rfl
  have hbound : |(n : ℚ)| ≤ 8640000000000000 := by
    rw [abs_le]
    exact ⟨by exact_mod_cast hlow, by exact_mod_cast hhigh⟩
  rw [hnumber, timeValue, if_pos hbound]
  simp

/-- A part of a text, taken out by its position and its length. -/
theorem substr_part {s : String} {before part after : List Char} {start length : ℕ}
    (h : s.toList = before ++ (part ++ after)) (hstart : before.length = start)
    (hlength : part.length = length) : substr s start length = String.ofList part := by
  rw [substr, h, List.drop_left' hstart, List.take_left' hlength]

/-- What `getGuidTimestamp` reads of a valid UUID: the version, and all digits of the time. -/
theorem guidValue_of_valid {guid : String} (h : isValidV6Guid guid = true) :
    substr (replaceFirst guid '-') 13 1 = "6" ∧
      bigIntOfHex (substr (replaceFirst guid '-') 0 12 ++ substr (replaceFirst guid '-') 14 3) =
        .ok (guidTime guid) := by
  obtain ⟨high, mid, low, tail, hhigh, hmid, hlow, hguid⟩ := exists_parts_of_valid h
  obtain ⟨hhigh', hmid', hlow'⟩ := timeFields_of_parts hhigh.1 hmid.1 hlow.1 hguid
  -- only the first dash is gone
  have hvalue : (replaceFirst guid '-').toList =
      (high ++ mid) ++ (['-'] ++ (['6'] ++ (low ++ '-' :: tail))) := by
    rw [replaceFirst, String.toList_ofList, hguid, List.erase_append_right _ hhigh.dash_notMem,
      List.erase_cons_head, List.append_assoc]
    rfl
  have hfirst : (high ++ mid).length = 12 := (hhigh.append hmid).1
  have hversion : substr (replaceFirst guid '-') 13 1 = "6" := by
    rw [← List.append_assoc] at hvalue
    exact substr_part hvalue (by rw [List.length_append, hfirst]; rfl) rfl
  have hupper : substr (replaceFirst guid '-') 0 12 = String.ofList (high ++ mid) :=
    @substr_part _ [] _ _ _ _ hvalue rfl hfirst
  have hlower : substr (replaceFirst guid '-') 14 3 = String.ofList low := by
    rw [← List.append_assoc, ← List.append_assoc] at hvalue
    exact substr_part hvalue (by rw [List.length_append, List.length_append, hfirst]; rfl) hlow.1
  have htime : hexValue (high ++ mid ++ low) = guidTime guid := by
    rw [hexValue_append, hexValue_append, hmid.1, hlow.1, guidTime, hhigh', hmid', hlow']
    ring
  refine ⟨hversion, ?_⟩
  rw [hupper, hlower, ← String.ofList_append, ← htime]
  exact ((hhigh.append hmid).append hlow).bigIntOfHex

/-- **The timestamp of a valid UUID**: its time in milliseconds, from the epoch of dates on. -/
theorem getGuidTimestamp_of_valid {guid : String} (h : isValidV6Guid guid = true) :
    getGuidTimestamp guid = .ok (some ((guidTime guid / 10000 : ℕ) - 12219292800000)) := by
  have hlt := guidTime_lt h
  obtain ⟨hversion, hread⟩ := guidValue_of_valid h
  have hepoch : |(-12219292800000 : ℤ)| = 12219292800000 := rfl
  unfold getGuidTimestamp
  dsimp only
  rw [hversion, hread, dateUTC_epoch, hepoch, if_neg (fun hne => hne rfl)]
  exact congrArg Except.ok (timeValue_numberOfBigInt (by omega) (by omega))

/-- The time fields stand before the node, so a splice has those of the fresh UUID. -/
theorem guidTime_createGuidFromBaseGuid {guid baseGuid : String} (hguid : isValidV6Guid guid = true)
    (hbase : isValidV6Guid baseGuid = true) :
    guidTime (createGuidFromBaseGuid guid baseGuid) = guidTime guid := by
  have htake := take_createGuidFromBaseGuid hguid hbase
  have hhigh : ∀ cs : List Char, cs.take 8 = (cs.take 24).take 8 := fun cs => by
    rw [List.take_take]
    rfl
  have hfield : ∀ (cs : List Char) (start length : ℕ), start + length ≤ 24 →
      (cs.drop start).take length = ((cs.take 24).drop start).take length := by
    intro cs start length hle
    rw [List.drop_take, List.take_take, Nat.min_eq_left (by omega)]
  rw [guidTime, guidTime, timeHigh, timeMid, timeLow, timeHigh, timeMid, timeLow, hhigh,
    hfield _ 9 4 (by decide), hfield _ 15 3 (by decide), htake, ← hhigh,
    ← hfield _ 9 4 (by decide), ← hfield _ 15 3 (by decide)]

/-! ## The codec -/

/-- What the methods make of a UUID: its last twelve digits, and the moment its time fields
tell, in milliseconds since 1970. -/
structure Decoded (guid : String) : Prop where
  node : (getGuidNode guid).toList = guid.toList.drop 24
  digits : HexDigits 12 (guid.toList.drop 24)
  fields : timeHigh guid < 2 ^ 32 ∧ timeMid guid < 2 ^ 16 ∧ timeLow guid < 2 ^ 12
  timestamp : getGuidTimestamp guid = .ok (some ((guidTime guid / 10000 : ℕ) - 12219292800000))

/-- **The codec of version 6 UUIDs**: every text that `isValidV6Guid` accepts is decoded, and
the splice of a fresh UUID and a base is accepted, with the node of the base and the
timestamp of the fresh one. -/
theorem v6Guid_codec {guid : String} (hguid : isValidV6Guid guid = true) :
    Decoded guid ∧ ∀ baseGuid, isValidV6Guid baseGuid = true →
      isValidV6Guid (createGuidFromBaseGuid guid baseGuid) = true ∧
        getGuidNode (createGuidFromBaseGuid guid baseGuid) = getGuidNode baseGuid ∧
        getGuidTimestamp (createGuidFromBaseGuid guid baseGuid) = getGuidTimestamp guid := by
  have hnode : HexDigits 12 (guid.toList.drop 24) :=
    matches_replicate_hexDigit.mp (isValidV6Guid_iff.mp hguid).2
  refine ⟨⟨toList_getGuidNode hguid, hnode, timeFields_lt hguid,
    getGuidTimestamp_of_valid hguid⟩, fun baseGuid hbase => ?_⟩
  have hvalid := isValidV6Guid_createGuidFromBaseGuid hguid hbase
  refine ⟨hvalid, getGuidNode_createGuidFromBaseGuid hguid hbase, ?_⟩
  rw [getGuidTimestamp_of_valid hvalid, getGuidTimestamp_of_valid hguid,
    guidTime_createGuidFromBaseGuid hguid hbase]

theorem v6Guid_codec_sample :
    Decoded "1e9ce66b-fb58-6080-1a9d-ed3459ab8b4f" ∧
      guidTime "1e9ce66b-fb58-6080-1a9d-ed3459ab8b4f" / 10000 - 12219292800000 = 1567527630984 ∧
      getGuidTimestamp (createGuidFromBaseGuid "1e9ce66b-fb58-6080-1a9d-ed3459ab8b4f"
        "1e9d0176-8301-6e80-bfb4-e55503791248") =
          getGuidTimestamp "1e9ce66b-fb58-6080-1a9d-ed3459ab8b4f" := by
  obtain ⟨hdecoded, hsplice⟩ :=
    @v6Guid_codec "1e9ce66b-fb58-6080-1a9d-ed3459ab8b4f" (by decide)
  exact ⟨hdecoded, by decide +kernel, (hsplice _ (by decide)).2.2⟩

end WebInsights.Common
