import Paigasus.Foundation.Cedar
import Paigasus.Foundation.Delimited
import Paigasus.Foundation.Uuid

/-!
# Resource names

A resource name is `prn:pgs:<service>:<region>:<org>:<type>/<id>`.  A value of
`Prn` carries the proofs that its text fields are well formed, so it can only
be built by the grammar checks of `Prn.parse`.
-/

namespace Paigasus.Kernel

open Foundation

inductive PrnError where
  | empty
  | tooLong
  | badScheme
  | badPartition
  | wrongFieldCount
  | badService
  | badRegion
  | badOrg
  | badResourcePath
  | badResourceType
  | badResourceId
deriving DecidableEq

namespace PrnError

/-- The stable, lowercase, cross-language error-kind token. -/
def kind : PrnError → String
  | empty => "empty"
  | tooLong => "too-long"
  | badScheme => "bad-scheme"
  | badPartition => "bad-partition"
  | wrongFieldCount => "wrong-field-count"
  | badService => "bad-service"
  | badRegion => "bad-region"
  | badOrg => "bad-org"
  | badResourcePath => "bad-resource-path"
  | badResourceType => "bad-resource-type"
  | badResourceId => "bad-resource-id"

end PrnError

def maxLen : Nat := 512

def isAsciiLowercase (char : Char) : Bool :=
  97 ≤ char.toNat ∧ char.toNat ≤ 122

def isAsciiDigit (char : Char) : Bool :=
  48 ≤ char.toNat ∧ char.toNat ≤ 57

def isLabelChar (char : Char) : Bool :=
  isAsciiLowercase char || isAsciiDigit char

def isLabelSegment : List Char → Bool
  | [] => false
  | first :: rest => isAsciiLowercase first && rest.all isLabelChar

/-- Lowercase segments joined by hyphens, each starting with a letter. -/
def isValidLabel (text : List Char) : Bool :=
  (text.splitOn '-').all isLabelSegment

/-- Like a label, but a segment may start with a digit. -/
def isValidRegion (text : List Char) : Bool :=
  !text.isEmpty &&
    (text.splitOn '-').all fun segment =>
      !segment.isEmpty && segment.all isLabelChar

/-- A parsed, validated resource name. -/
@[ext]
structure Prn where
  service : String
  region : String
  org : Option Uuid
  resourceType : String
  resourceId : Uuid
  serviceValid : isValidLabel service.toList = true
  regionValid : region = "" ∨ isValidRegion region.toList = true
  resourceTypeValid : isValidLabel resourceType.toList = true
deriving DecidableEq

namespace Prn

def parseUuidField (text : List Char) : Option Uuid :=
  if (String.ofList text).utf8ByteSize ≠ 36 then
    none
  else
    Uuid.tryParse text

/-- Reads the resource path `<type>/<id>` under checked leading fields. -/
def parsePath (service region : String) (org : Option Uuid)
    (serviceValid : isValidLabel service.toList = true)
    (regionValid : region = "" ∨ isValidRegion region.toList = true)
    (path : List Char) : Except PrnError Prn :=
  match path.splitOn '/' with
  | [resourceType, resourceId] =>
      if typeValid : isValidLabel (String.ofList resourceType).toList = true then
        match parseUuidField resourceId with
        | none => .error .badResourceId
        | some id =>
            .ok
              { service
                region
                org
                resourceType := String.ofList resourceType
                resourceId := id
                serviceValid
                regionValid
                resourceTypeValid := typeValid }
      else
        .error .badResourceType
  | _ => .error .badResourcePath

def parse (text : String) : Except PrnError Prn :=
  if text = "" then
    .error .empty
  else if text.utf8ByteSize > maxLen then
    .error .tooLong
  else
    match text.toList.splitOn ':' with
    | [scheme, partition, service, region, org, path] =>
        if scheme ≠ ['p', 'r', 'n'] then
          .error .badScheme
        else if partition ≠ ['p', 'g', 's'] then
          .error .badPartition
        else if serviceValid :
            isValidLabel (String.ofList service).toList = true then
          if regionValid : String.ofList region = "" ∨
              isValidRegion (String.ofList region).toList = true then
            if org = [] then
              parsePath (String.ofList service) (String.ofList region) none
                serviceValid regionValid path
            else
              match parseUuidField org with
              | none => .error .badOrg
              | some id =>
                  parsePath (String.ofList service) (String.ofList region)
                    (some id) serviceValid regionValid path
          else
            .error .badRegion
        else
          .error .badService
    | _ => .error .wrongFieldCount

def orgText (org : Option Uuid) : List Char :=
  (org.map Uuid.hyphenated).getD []

/-- The text of the given fields, before any of them is checked. -/
def candidate (service region : String) (org : Option Uuid)
    (resourceType : String) (resourceId : Uuid) : String :=
  "prn:pgs:" ++ service ++ ":" ++ region ++ ":" ++
    String.ofList (orgText org) ++ ":" ++ resourceType ++ "/" ++
    String.ofList resourceId.hyphenated

/-- Builds a name from typed fields, through `parse`. -/
def build (service region : String) (org : Option Uuid)
    (resourceType : String) (resourceId : Uuid) : Except PrnError Prn :=
  parse (candidate service region org resourceType resourceId)

def canonical (prn : Prn) : String :=
  candidate prn.service prn.region prn.org prn.resourceType prn.resourceId

theorem not_mem_of_label {separator : Char} {text : List Char}
    (valid : isValidLabel text = true) (notHyphen : separator ≠ '-')
    (notLabel : isLabelChar separator = false) : separator ∉ text := by
  intro member
  obtain ⟨segment, segmentMember, inSegment⟩ := mem_field_of_mem member notHyphen
  have isSegment := List.all_eq_true.mp valid segment segmentMember
  cases segment with
  | nil => cases inSegment
  | cons first rest =>
      rw [isLabelSegment, Bool.and_eq_true] at isSegment
      rcases List.mem_cons.mp inSegment with rfl | later
      · rw [isLabelChar, isSegment.1] at notLabel
        cases notLabel
      · rw [List.all_eq_true.mp isSegment.2 separator later] at notLabel
        cases notLabel

theorem not_mem_of_region {separator : Char} {text : List Char}
    (valid : isValidRegion text = true) (notHyphen : separator ≠ '-')
    (notLabel : isLabelChar separator = false) : separator ∉ text := by
  intro member
  obtain ⟨segment, segmentMember, inSegment⟩ := mem_field_of_mem member notHyphen
  rw [isValidRegion, Bool.and_eq_true] at valid
  have isSegment := List.all_eq_true.mp valid.2 segment segmentMember
  rw [Bool.and_eq_true] at isSegment
  rw [List.all_eq_true.mp isSegment.2 separator inSegment] at notLabel
  cases notLabel

theorem colon_not_mem_region (prn : Prn) : ':' ∉ prn.region.toList := by
  rcases prn.regionValid with isEmpty | valid
  · simp [isEmpty]
  · exact not_mem_of_region valid (by decide) (by decide)

theorem orgText_injective {org other : Option Uuid}
    (same : orgText org = orgText other) : org = other := by
  have nonempty : ∀ id : Uuid, id.hyphenated ≠ [] := by
    intro id isEmpty
    have length := Uuid.hyphenated_length id
    rw [isEmpty] at length
    cases length
  cases org with
  | none =>
      cases other with
      | none => rfl
      | some id => exact absurd same.symm (nonempty id)
  | some id =>
      cases other with
      | none => exact absurd same (nonempty id)
      | some second => rw [Uuid.hyphenated_injective same]

theorem colon_not_mem_orgText (org : Option Uuid) : ':' ∉ orgText org := by
  cases org with
  | none => exact List.not_mem_nil
  | some id => exact Uuid.not_mem_hyphenated rfl (by decide) id

/-- A name in front of a colon ends at that colon. -/
theorem canonical_append_inj {first second : Prn} {rest remaining : List Char}
    (same : first.canonical.toList ++ ':' :: rest =
      second.canonical.toList ++ ':' :: remaining) :
    first = second ∧ rest = remaining := by
  have colon : ":".toList = [':'] := rfl
  have slash : "/".toList = ['/'] := rfl
  unfold canonical candidate at same
  simp only [String.toList_append, String.toList_ofList, List.append_assoc,
    colon, slash, List.cons_append, List.nil_append] at same
  replace same := List.append_cancel_left same
  obtain ⟨service, same⟩ := field_eq_of_append_eq
    (not_mem_of_label first.serviceValid (by decide) (by decide))
    (not_mem_of_label second.serviceValid (by decide) (by decide)) same
  obtain ⟨region, same⟩ := field_eq_of_append_eq
    (colon_not_mem_region first) (colon_not_mem_region second) same
  obtain ⟨org, same⟩ := field_eq_of_append_eq
    (colon_not_mem_orgText first.org) (colon_not_mem_orgText second.org) same
  obtain ⟨resourceType, same⟩ := field_eq_of_append_eq
    (not_mem_of_label first.resourceTypeValid (by decide) (by decide))
    (not_mem_of_label second.resourceTypeValid (by decide) (by decide)) same
  obtain ⟨resourceId, same⟩ := field_eq_of_append_eq
    (Uuid.not_mem_hyphenated rfl (by decide) first.resourceId)
    (Uuid.not_mem_hyphenated rfl (by decide) second.resourceId) same
  refine ⟨?_, same⟩
  ext1
  · exact String.toList_inj.mp service
  · exact String.toList_inj.mp region
  · exact orgText_injective org
  · exact String.toList_inj.mp resourceType
  · exact Uuid.hyphenated_injective resourceId

/-- The text of a name determines every field. -/
theorem canonical_injective : Function.Injective canonical := by
  intro first second same
  have texts : first.canonical.toList ++ ':' :: [] =
      second.canonical.toList ++ ':' :: [] := by
    rw [same]
  exact (canonical_append_inj texts).1

end Prn

def toAsciiUppercase (char : Char) : Char :=
  if isAsciiLowercase char then Char.ofNat (char.toNat - 32) else char

def capitalize : List Char → List Char
  | [] => []
  | first :: rest => toAsciiUppercase first :: rest

/-- Joins the hyphen-separated segments of a label, each with an upper-case
first letter. -/
def pascal (label : String) : String :=
  String.ofList ((label.toList.splitOn '-').flatMap capitalize)

/-- The entity of a resource name; region and organization do not enter it. -/
def toCedarUid (prn : Prn) : Cedar.EntityUid :=
  ⟨"Pgs::" ++ pascal prn.service ++ "::" ++ pascal prn.resourceType,
    String.ofList prn.resourceId.hyphenated⟩

theorem toAsciiUppercase_toNat {char : Char}
    (lower : isAsciiLowercase char = true) :
    (toAsciiUppercase char).toNat = char.toNat - 32 := by
  rw [toAsciiUppercase, if_pos lower]
  rw [isAsciiLowercase, decide_eq_true_eq] at lower
  have valid : (char.toNat - 32).isValidChar := .inl (by omega)
  rw [Char.ofNat, dif_pos valid]
  rfl

theorem not_isLabelChar_uppercase {char : Char}
    (lower : isAsciiLowercase char = true) :
    isLabelChar (toAsciiUppercase char) = false := by
  have code := toAsciiUppercase_toNat lower
  rw [isAsciiLowercase, decide_eq_true_eq] at lower
  simp only [isLabelChar, isAsciiLowercase, isAsciiDigit, code,
    Bool.or_eq_false_iff, decide_eq_false_iff_not]
  omega

/-- The capital letters mark where the segments begin. -/
theorem segments_eq_of_capitalize_eq {left right : List (List Char)}
    (leftValid : left.all isLabelSegment = true)
    (rightValid : right.all isLabelSegment = true)
    (same : left.flatMap capitalize = right.flatMap capitalize) :
    left = right := by
  have stops : ∀ segments : List (List Char),
      segments.all isLabelSegment = true →
      ∀ symbol ∈ (segments.flatMap capitalize).head?,
        isLabelChar symbol = false := by
    intro segments valid symbol isFirst
    cases segments with
    | nil => cases isFirst
    | cons segment rest =>
        cases segment with
        | nil => cases valid
        | cons first tail =>
            rw [List.all_cons, Bool.and_eq_true, isLabelSegment,
              Bool.and_eq_true] at valid
            cases isFirst
            exact not_isLabelChar_uppercase valid.1.1
  induction left generalizing right with
  | nil =>
      cases right with
      | nil => rfl
      | cons segment rest =>
          cases segment with
          | nil => cases rightValid
          | cons first tail => cases same
  | cons segment rest ih =>
      cases segment with
      | nil => cases leftValid
      | cons first tail =>
          cases right with
          | nil => cases same
          | cons otherSegment others =>
              cases otherSegment with
              | nil => cases rightValid
              | cons other more =>
                  rw [List.all_cons, Bool.and_eq_true, isLabelSegment,
                    Bool.and_eq_true] at leftValid rightValid
                  obtain ⟨sameUpper, sameRest⟩ := List.cons.inj same
                  have codes := congrArg Char.toNat sameUpper
                  rw [toAsciiUppercase_toNat leftValid.1.1,
                    toAsciiUppercase_toNat rightValid.1.1] at codes
                  have sameFirst : first = other := by
                    have lower := leftValid.1.1
                    have otherLower := rightValid.1.1
                    rw [isAsciiLowercase, decide_eq_true_eq] at lower otherLower
                    exact Char.toNat_inj.mp (by omega)
                  obtain ⟨sameTail, sameSegments⟩ := run_eq_of_append_eq
                    (List.all_eq_true.mp leftValid.1.2)
                    (List.all_eq_true.mp rightValid.1.2)
                    (stops rest leftValid.2) (stops others rightValid.2)
                    sameRest
                  rw [sameFirst, sameTail,
                    ih leftValid.2 rightValid.2 sameSegments]

theorem pascal_inj {left right : String}
    (leftValid : isValidLabel left.toList = true)
    (rightValid : isValidLabel right.toList = true)
    (same : pascal left = pascal right) : left = right := by
  have segments := segments_eq_of_capitalize_eq leftValid rightValid
    (String.ofList_injective same)
  have texts := congrArg (List.intercalate ['-']) segments
  rw [List.intercalate_splitOn, List.intercalate_splitOn] at texts
  exact String.toList_inj.mp texts

theorem colon_not_mem_pascal {label : String}
    (valid : isValidLabel label.toList = true) :
    ':' ∉ (pascal label).toList := by
  intro member
  rw [pascal, String.toList_ofList] at member
  obtain ⟨segment, isSegment, inside⟩ := List.mem_flatMap.mp member
  have segmentValid := List.all_eq_true.mp valid segment isSegment
  cases segment with
  | nil => cases inside
  | cons first tail =>
      rw [isLabelSegment, Bool.and_eq_true] at segmentValid
      rcases List.mem_cons.mp inside with isFirst | later
      · have code := toAsciiUppercase_toNat segmentValid.1
        rw [← isFirst] at code
        have lower := segmentValid.1
        rw [isAsciiLowercase, decide_eq_true_eq] at lower
        have colon : ':'.toNat = 58 := rfl
        omega
      · have isLabel := List.all_eq_true.mp segmentValid.2 ':' later
        cases isLabel

/-- Two names have one entity when they agree up to region and
organization. -/
theorem toCedarUid_eq_iff {left right : Prn} :
    toCedarUid left = toCedarUid right ↔
      left.service = right.service ∧ left.resourceType = right.resourceType ∧
        left.resourceId = right.resourceId := by
  constructor
  · intro same
    obtain ⟨sameType, sameId⟩ := Cedar.EntityUid.mk.inj same
    simp only [String.append_assoc] at sameType
    have parts : pascal left.service ++ (":" ++ (":" ++
        pascal left.resourceType)) =
        pascal right.service ++ (":" ++ (":" ++ pascal right.resourceType)) :=
      (String.append_right_inj _).mp sameType
    obtain ⟨services, types⟩ := texts_eq_of_append_eq
      (colon_not_mem_pascal left.serviceValid)
      (colon_not_mem_pascal right.serviceValid) parts
    exact ⟨pascal_inj left.serviceValid right.serviceValid services,
      pascal_inj left.resourceTypeValid right.resourceTypeValid
        ((String.append_right_inj _).mp types),
      Uuid.hyphenated_injective (String.ofList_injective sameId)⟩
  · rintro ⟨service, resourceType, resourceId⟩
    rw [toCedarUid, toCedarUid, service, resourceType, resourceId]

end Paigasus.Kernel
