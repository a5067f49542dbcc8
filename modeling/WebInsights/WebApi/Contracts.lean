/-
The types of the API contracts, as the checks `typescript-is` makes of them.

An object is accepted when every property the interface requires is there, every
property that is there has its type, and there is no other
(`disallowSuperfluousObjectProperties`). `Website` leaves the properties of
`StorageDocument` out, so a payload cannot name them.
-/
import WebInsights.Js.Merge

set_option autoImplicit false

namespace WebInsights.WebApi

open Js

/-! ## Checks -/

/-- A check of a value. -/
abbrev Check := Val → Bool

/-- A property of an interface. -/
structure Property where
  name : String
  check : Check
  optional : Bool

namespace Check

def string : Check
  | .str _ => true
  | _ => false

def number : Check
  | .num _ => true
  | _ => false

def boolean : Check
  | .bool _ => true
  | _ => false

/-- A union of string literals. -/
def literals (ss : List String) : Check
  | .str s => s ∈ ss
  | _ => false

def arrayOf (c : Check) : Check
  | .arr vs => vs.all c
  | _ => false

/-- An interface. -/
def object (properties : List Property) : Check
  | .obj fs =>
    (properties.all fun p =>
      if p.name ∈ Fields.keys fs then p.check (Fields.get fs p.name) else p.optional) &&
    (Fields.keys fs).all fun k => k ∈ properties.map Property.name
  | _ => false

/-- What is accepted as an array of strings is one. -/
theorem exists_strings_of_arrayOf {v : Val} (h : arrayOf string v = true) :
    ∃ ss : List String, v = .arr (ss.map .str) := by
  unfold arrayOf at h
  split at h
  · rename_i vs
    induction vs with
    | nil => exact ⟨[], rfl⟩
    | cons v vs ih =>
      rw [List.all_cons, Bool.and_eq_true] at h
      obtain ⟨ss, hss⟩ := ih h.2
      obtain ⟨s, rfl⟩ : ∃ s, v = .str s := by
        have hv := h.1
        unfold string at hv
        split at hv
        · exact ⟨_, rfl⟩
        · cases hv
      exact ⟨s :: ss, by rw [Val.arr.inj hss]; rfl⟩
  · cases h

/-- A check that accepts no objects, and no arrays with parts. -/
def Flat (c : Check) : Prop := ∀ v, c v = true → Js.Flat v

theorem flat_string : Flat string := by
  intro v h
  unfold string at h
  split at h
  · trivial
  · cases h

theorem flat_number : Flat number := by
  intro v h
  unfold number at h
  split at h
  · trivial
  · cases h

theorem flat_boolean : Flat boolean := by
  intro v h
  unfold boolean at h
  split at h
  · trivial
  · cases h

theorem flat_literals (ss : List String) : Flat (literals ss) := by
  intro v h
  unfold literals at h
  split at h
  · trivial
  · cases h

/-- An array of what is flat and no array. -/
theorem flat_arrayOf {c : Check} (hc : Flat c) (harr : ∀ vs, c (.arr vs) = false) :
    Flat (arrayOf c) := by
  intro v h
  unfold arrayOf at h
  split at h
  · rename_i vs
    intro w hw
    have hcheck := List.all_eq_true.mp h w hw
    have hflat := hc w hcheck
    cases w with
    | scalar s => exact ⟨s, rfl⟩
    | arr ws => rw [harr] at hcheck; cases hcheck
    | obj fs => exact hflat.elim
  · cases h

theorem exists_num_of_number {v : Val} (h : number v = true) : ∃ n, v = .num n := by
  unfold number at h
  split at h
  · exact ⟨_, rfl⟩
  · cases h

section

variable {properties : List Property} {v : Val} (h : object properties v = true)

include h

/-- What an interface accepts is an object. -/
theorem exists_obj_of_object : ∃ fs, v = .obj fs ∧
    (∀ p ∈ properties, if p.name ∈ Fields.keys fs then p.check (Fields.get fs p.name) = true
      else p.optional = true) ∧
    ∀ k ∈ Fields.keys fs, k ∈ properties.map Property.name := by
  unfold object at h
  split at h
  · rename_i fs
    rw [Bool.and_eq_true, List.all_eq_true, List.all_eq_true] at h
    refine ⟨fs, rfl, fun p hp => ?_, fun k hk => by simpa using h.2 k hk⟩
    have hcheck := h.1 p hp
    split
    · rename_i hmem
      rwa [if_pos hmem] at hcheck
    · rename_i hmem
      rwa [if_neg hmem] at hcheck
  · cases h

/-- A required property is there, and has its type. -/
theorem get_required {p : Property} (hp : p ∈ properties) (hreq : p.optional = false) :
    p.check (v.get p.name) = true := by
  obtain ⟨fs, rfl, hfs, -⟩ := exists_obj_of_object h
  have hcheck := hfs p hp
  split at hcheck
  · exact hcheck
  · rw [hreq] at hcheck
    cases hcheck

/-- An optional property has its type if it is there. -/
theorem get_optional {p : Property} (hp : p ∈ properties) :
    v.get p.name = .undefined ∨ p.check (v.get p.name) = true := by
  obtain ⟨fs, rfl, hfs, -⟩ := exists_obj_of_object h
  have hcheck := hfs p hp
  split at hcheck
  · exact Or.inr hcheck
  · rename_i hmem
    exact Or.inl (Fields.get_eq_undefined_of_notMem hmem)

end

end Check

/-! ## The contracts -/

/-- `ScanType`. -/
def scanTypes : List String := ["a11y", "privacy", "security"]

/-- A property that has to be there. -/
def required (name : String) (check : Check) : Property := ⟨name, check, false⟩

/-- A property `name?`. -/
def optional (name : String) (check : Check) : Property := ⟨name, check, true⟩

def pageProperties : List Property :=
  [optional "id" .string, optional "websiteId" .string, required "url" .string,
    optional "lastScanTimestamp" .number,
    optional "disabledScans" (.arrayOf (.literals scanTypes))]

/-- The properties of a website the storage document has as well. -/
def websiteDataProperties : List Property :=
  [required "name" .string, required "baseUrl" .string, required "priority" .number,
    required "discoveryPatterns" (.arrayOf .string), required "knownPages" (.arrayOf .string),
    required "scanners" (.arrayOf (.literals scanTypes)), required "domainId" .string,
    optional "owners" (.arrayOf .string), optional "orgCvp" .string,
    optional "usingUhf" .boolean, required "compliant" .boolean,
    required "enableCrawler" .boolean, required "deleted" .boolean,
    optional "divisionId" .number, optional "stateId" .number, required "noBanner" .boolean,
    optional "noBannerReasonId" .number, required "serviceTreeId" .string,
    optional "notes" .string, optional "alias" .string, optional "organizationId" .number,
    optional "celaAccessibilityContacts" (.arrayOf .string),
    optional "privacyEGRCExceptionId" .string, optional "A11yEGRCExceptionId" .string,
    optional "optOutSecurityReason" .string, required "isCustomBanner" .boolean,
    required "isMicrosoftOwned" .boolean, optional "requireAuthentication" .boolean,
    optional "manageCookieXpath" .string, required "isCookieManagable" .boolean]

/-- None of them holds an object. -/
theorem flat_websiteDataProperties : ∀ p ∈ websiteDataProperties, p.check.Flat := by
  have hstrings := Check.flat_arrayOf Check.flat_string fun _ => rfl
  have hscanners := Check.flat_arrayOf (Check.flat_literals scanTypes) fun _ => rfl
  simp [websiteDataProperties, required, optional, Check.flat_string, Check.flat_number,
    Check.flat_boolean, hstrings, hscanners]

def websiteProperties : List Property :=
  websiteDataProperties ++
    [optional "id" .string, optional "pages" (.arrayOf (.object pageProperties))]

def websiteScanRequestProperties : List Property :=
  [required "websiteId" .string, required "scanType" (.literals scanTypes),
    optional "priority" .number, optional "scanFrequency" .string]

def pageUpdateProperties : List Property :=
  [required "pageId" .string, optional "disabledScans" (.arrayOf (.literals scanTypes))]

def isValidWebsiteObject : Check := .object websiteProperties

def isValidWebsiteScanRequestObject : Check := .object websiteScanRequestProperties

def isValidPageUpdateObject : Check := .object pageUpdateProperties

def isValidScanType : Check := .literals scanTypes

end WebInsights.WebApi
