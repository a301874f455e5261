import Paigasus.Gateway.IamAuth
import Paigasus.Kernel.Grammar

/-!
# The organization a caller is in

Without a header the organization is inferred from the names of the nodes that
the caller reaches.  The loop sees nothing of these names but the organizations
that they name, so its answer depends on the set of these organizations only.
-/

namespace Paigasus.Gateway.IamAuth

open Foundation Core Kernel

/-- The name of a tenancy node of the organization. -/
def NamesOrg (raw : String) (org : Uuid) : Prop :=
  ∃ prn, Prn.parse raw = .ok prn ∧ prn.service = "iam" ∧
    ((prn.resourceType = "organization" ∧ prn.resourceId = org) ∨
      ((prn.resourceType = "team" ∨ prn.resourceType = "project") ∧
        prn.org = some org))

theorem orgOf_eq_some_iff (raw : String) (org : Uuid) :
    orgOf raw = some org ↔ NamesOrg raw org := by
  unfold orgOf NamesOrg
  cases parsed : Prn.parse raw with
  | error refusal => simp
  | ok prn =>
      by_cases isIam : prn.service = "iam"
      · by_cases isOrganization : prn.resourceType = "organization"
        · simp [isIam, isOrganization]
        · by_cases isNode : prn.resourceType = "team" ∨
              prn.resourceType = "project"
          · simp [isIam, isOrganization, isNode]
          · simp [isIam, isOrganization, isNode]
      · simp [isIam]

section LetterCase

/-- Two texts that differ in the case of their letters only. -/
def SameLetters (left right : List Char) : Prop :=
  left.map Char.toLower = right.map Char.toLower

instance (left right : List Char) : Decidable (SameLetters left right) :=
  inferInstanceAs (Decidable (_ = _))

/-- An upper-case letter moves by 32, and nothing else moves. -/
theorem toLower_cases (char : Char) :
    char.toLower = char ∧ (char.toNat < 65 ∨ 90 < char.toNat) ∨
      65 ≤ char.toNat ∧ char.toNat ≤ 90 ∧
        char.toLower.toNat = char.toNat + 32 := by
  unfold Char.toLower
  split
  case isTrue upper =>
    have low : 65 ≤ char.toNat := UInt32.le_iff_toNat_le.mp upper.1
    have high : char.toNat ≤ 90 := UInt32.le_iff_toNat_le.mp upper.2
    refine .inr ⟨low, high, ?_⟩
    change (char.val + ('a'.val - 'A'.val)).toNat = _
    rw [UInt32.toNat_add]
    change (char.toNat + 32) % 2 ^ 32 = _
    omega
  case isFalse other =>
    refine .inl ⟨rfl, ?_⟩
    by_contra inside
    have low : 65 ≤ char.toNat := by omega
    have high : char.toNat ≤ 90 := by omega
    exact other ⟨UInt32.le_iff_toNat_le.mpr low, UInt32.le_iff_toNat_le.mpr high⟩

theorem toLower_eq_hyphen (char : Char) : char.toLower = '-' ↔ char = '-' := by
  rcases toLower_cases char with ⟨same, _⟩ | ⟨low, high, code⟩
  · rw [same]
  · constructor
    · intro isHyphen
      rw [isHyphen] at code
      have hyphen : '-'.toNat = 45 := rfl
      omega
    · rintro rfl
      exact absurd low (by decide)

theorem hexValue?_toLower (char : Char) :
    Uuid.hexValue? char.toLower = Uuid.hexValue? char := by
  rcases toLower_cases char with ⟨same, _⟩ | ⟨low, high, code⟩
  · rw [same]
  · unfold Uuid.hexValue?
    have notDigit : ¬ (48 ≤ char.toNat ∧ char.toNat ≤ 57) := by omega
    have notLower : ¬ (97 ≤ char.toNat ∧ char.toNat ≤ 102) := by omega
    rw [code, if_neg (by omega), if_neg notDigit, if_neg notLower]
    by_cases isHex : char.toNat ≤ 70
    · rw [if_pos (by omega), if_pos (by omega)]
      congr 1
    · rw [if_neg (by omega), if_neg (by omega), if_neg (by omega)]

theorem parseHexFrom_map_toLower (high : Nat) (text : List Char) :
    Uuid.parseHexFrom high (text.map Char.toLower) =
      Uuid.parseHexFrom high text := by
  induction text generalizing high with
  | nil => rfl
  | cons char rest ih =>
      rw [List.map_cons, Uuid.parseHexFrom, hexValue?_toLower, Uuid.parseHexFrom]
      cases Uuid.hexValue? char with
      | none => rfl
      | some digit => exact ih _

theorem tryParse_map_toLower (text : List Char) :
    Uuid.tryParse (text.map Char.toLower) = Uuid.tryParse text := by
  unfold Uuid.tryParse
  rw [splitOn_map toLower_eq_hyphen]
  match text.splitOn '-' with
  | [first, second, third, fourth, fifth] =>
      simp only [List.map_cons, List.map_nil, List.length_map, Uuid.parseHex,
        ← List.map_append, parseHexFrom_map_toLower]
  | [] => rfl
  | [_] => rfl
  | [_, _] => rfl
  | [_, _, _] => rfl
  | [_, _, _, _] => rfl
  | _ :: _ :: _ :: _ :: _ :: _ :: _ => rfl

theorem SameLetters.tryParse {left right : List Char}
    (same : SameLetters left right) :
    Uuid.tryParse left = Uuid.tryParse right := by
  rw [← tryParse_map_toLower left, same, tryParse_map_toLower]

theorem SameLetters.parseOrgField {left right : List Char}
    (same : SameLetters left right) :
    Prn.parseOrgField left = Prn.parseOrgField right := by
  have empty : left = [] ↔ right = [] := by
    rw [← List.map_eq_nil_iff, same, List.map_eq_nil_iff]
  unfold Prn.parseOrgField
  rw [Prn.parseUuidField_eq, Prn.parseUuidField_eq, same.tryParse]
  simp only [empty]

/-- The same text, or one that differs in the letter case of the two fields of
a name that hold a UUID. -/
def Recased (raw other : String) : Prop :=
  other = raw ∨
    ∃ service region org otherOrg resourceType resourceId otherId : String,
      raw = Prn.spell service region org resourceType resourceId ∧
        other = Prn.spell service region otherOrg resourceType otherId ∧
          SameLetters org.toList otherOrg.toList ∧
            SameLetters resourceId.toList otherId.toList

theorem Recased.symm {raw other : String} (recased : Recased raw other) :
    Recased other raw := by
  rcases recased with same | ⟨service, region, org, otherOrg, resourceType,
    resourceId, otherId, spelled, otherSpelled, orgs, ids⟩
  · exact .inl same.symm
  · exact .inr ⟨service, region, otherOrg, org, resourceType, otherId,
      resourceId, otherSpelled, spelled, orgs.symm, ids.symm⟩

/-- A name keeps its meaning. -/
theorem Recased.parse {raw other : String} {prn : Prn}
    (recased : Recased raw other) (parsed : Prn.parse raw = .ok prn) :
    Prn.parse other = .ok prn := by
  rcases recased with same | ⟨service, region, org, otherOrg, resourceType,
    resourceId, otherId, spelled, otherSpelled, orgs, ids⟩
  · rw [same]
    exact parsed
  · have short : raw.utf8ByteSize ≤ maxLen := by
      obtain ⟨_, _, spells⟩ := Prn.spells_of_parse parsed
      exact spells.short
    rw [spelled] at parsed short
    obtain ⟨rfl, rfl, isOrg, rfl, isId⟩ := Prn.fields_of_parse_spell parsed
    have otherIsOrg : Prn.parseOrgField otherOrg.toList = some prn.org := by
      rw [← orgs.parseOrgField]
      exact isOrg
    have otherIsId : Prn.parseUuidField otherId.toList =
        some prn.resourceId := by
      rw [Prn.parseUuidField_eq, ← ids.tryParse, ← Prn.parseUuidField_eq]
      exact isId
    have orgSize : otherOrg.utf8ByteSize = org.utf8ByteSize := by
      rw [← Prn.utf8ByteSize_orgText otherIsOrg,
        ← Prn.utf8ByteSize_orgText isOrg]
    have size (text : String) (id : Uuid)
        (isText : Prn.parseUuidField text.toList = some id) :
        text.utf8ByteSize = 36 := by
      have isHyphenated := (Prn.parseUuidField_iff _).mp ⟨id, isText⟩
      have bytes := isHyphenated.utf8ByteSize
      rwa [String.ofList_toList] at bytes
    have spells : Prn.Spells other prn otherOrg otherId := by
      refine ⟨otherSpelled, otherIsOrg, otherIsId, ?_⟩
      rw [otherSpelled, Prn.utf8ByteSize_spell, orgSize,
        size otherId _ otherIsId]
      rw [Prn.utf8ByteSize_spell, size resourceId _ isId] at short
      exact short
    exact spells.parse

theorem Recased.namesOrg {raw other : String} {org : Uuid}
    (recased : Recased raw other) : NamesOrg raw org ↔ NamesOrg other org := by
  constructor
  · rintro ⟨prn, parsed, names⟩
    exact ⟨prn, recased.parse parsed, names⟩
  · rintro ⟨prn, parsed, names⟩
    exact ⟨prn, recased.symm.parse parsed, names⟩

end LetterCase

section Inference

variable {nodePrns others : List String}

/-- Some name of the list names the organization. -/
def Names (nodePrns : List String) (org : Uuid) : Prop :=
  ∃ raw ∈ nodePrns, NamesOrg raw org

/-- One organization is all that was found and all that is named. -/
theorem inferOrg_of_only {found : Option Uuid} {org : Uuid}
    (source : found = some org ∨ Names nodePrns org)
    (onlyFound : ∀ existing, found = some existing → existing = org)
    (only : ∀ other, Names nodePrns other → other = org) :
    inferOrg found nodePrns = .ok (orgPrn org) := by
  induction nodePrns generalizing found with
  | nil =>
      rcases source with isFound | ⟨raw, member, _⟩
      · rw [isFound]
        rfl
      · cases member
  | cons raw rest ih =>
      have onlyRest : ∀ other, Names rest other → other = org := by
        rintro other ⟨later, member, names⟩
        exact only other ⟨later, List.mem_cons_of_mem _ member, names⟩
      unfold inferOrg
      cases named : orgOf raw with
      | none =>
          refine ih ?_ onlyFound onlyRest
          rcases source with isFound | ⟨later, member, names⟩
          · exact .inl isFound
          · rcases List.mem_cons.mp member with rfl | inRest
            · rw [← orgOf_eq_some_iff, named] at names
              cases names
            · exact .inr ⟨later, inRest, names⟩
      | some first =>
          have isOrg : first = org :=
            only first ⟨raw, List.mem_cons_self, (orgOf_eq_some_iff _ _).mp named⟩
          subst isOrg
          cases found with
          | none =>
              refine ih (.inl rfl) ?_ onlyRest
              intro existing same
              exact (Option.some.inj same).symm
          | some existing =>
              simp only [onlyFound existing rfl, if_true]
              refine ih (.inl rfl) ?_ onlyRest
              intro other same
              exact (Option.some.inj same).symm

/-- The loop answers with the one organization that is named. -/
theorem resolveOrg_absent_ok (nodePrns : List String) (prn : Prn) :
    resolveOrg .absent nodePrns = .ok prn ↔
      ∃ org, prn = orgPrn org ∧
        ∀ other, Names nodePrns other ↔ other = org := by
  constructor
  · intro inferred
    obtain ⟨org, isPrn, source, _, only⟩ := inferOrg_ok inferred
    refine ⟨org, isPrn, fun other => ⟨?_, ?_⟩⟩
    · rintro ⟨raw, member, names⟩
      exact only raw member other ((orgOf_eq_some_iff _ _).mpr names)
    · rintro rfl
      rcases source with isFound | ⟨raw, member, named⟩
      · cases isFound
      · exact ⟨raw, member, (orgOf_eq_some_iff _ _).mp named⟩
  · rintro ⟨org, rfl, named⟩
    exact inferOrg_of_only (.inr ((named org).mpr rfl)) nofun
      fun other names => (named other).mp names

theorem inferOrg_error {found : Option Uuid} {nodePrns : List String}
    {refusal : OrgResolutionError}
    (refused : inferOrg found nodePrns = .error refusal) :
    refusal = .orgRequired := by
  induction nodePrns generalizing found with
  | nil =>
      cases found with
      | none =>
          cases refused
          rfl
      | some org => cases refused
  | cons raw rest ih =>
      unfold inferOrg at refused
      split at refused
      case h_1 => exact ih refused
      case h_2 =>
        split at refused
        case h_1 => exact ih refused
        case h_2 =>
          split at refused
          case isTrue => exact ih refused
          case isFalse =>
            cases refused
            rfl

/-- The answer depends on the organizations that are named, and on nothing
else. -/
theorem resolveOrg_congr
    (same : ∀ org, Names others org ↔ Names nodePrns org) :
    resolveOrg .absent others = resolveOrg .absent nodePrns := by
  have transfer (prn : Prn) : resolveOrg .absent others = .ok prn ↔
      resolveOrg .absent nodePrns = .ok prn := by
    rw [resolveOrg_absent_ok, resolveOrg_absent_ok]
    simp only [same]
  cases answer : resolveOrg .absent nodePrns with
  | ok prn => exact (transfer prn).mpr answer
  | error refusal =>
      cases otherAnswer : resolveOrg .absent others with
      | ok prn =>
          rw [(transfer prn).mp otherAnswer] at answer
          cases answer
      | error otherRefusal =>
          rw [inferOrg_error answer, inferOrg_error otherAnswer]

theorem names_insert (before after : List String) (raw : String) (org : Uuid) :
    Names (before ++ raw :: after) org ↔
      NamesOrg raw org ∨ Names (before ++ after) org := by
  simp only [Names, List.mem_append, List.mem_cons]
  constructor
  · rintro ⟨other, inBefore | rfl | inAfter, names⟩
    · exact .inr ⟨other, .inl inBefore, names⟩
    · exact .inl names
    · exact .inr ⟨other, .inr inAfter, names⟩
  · rintro (names | ⟨other, inBefore | inAfter, names⟩)
    · exact ⟨raw, .inr (.inl rfl), names⟩
    · exact ⟨other, .inl inBefore, names⟩
    · exact ⟨other, .inr (.inr inAfter), names⟩

theorem names_recased (recased : List.Forall₂ Recased nodePrns others)
    (org : Uuid) : Names others org ↔ Names nodePrns org := by
  induction recased with
  | nil => rfl
  | @cons raw other rest otherRest first _ ih =>
      have front := names_insert [] otherRest other org
      have back := names_insert [] rest raw org
      rw [List.nil_append] at front back
      rw [front, back, first.namesOrg]
      exact or_congr_right ih

/-- The inferred organization is the only one that is named, and the answer
ignores the order of the names, repetitions, names of no organization and the
letter case of the UUIDs. -/
theorem resolveOrg_absent_spec (nodePrns : List String) :
    (∀ prn, resolveOrg .absent nodePrns = .ok prn ↔
      ∃ org, prn = orgPrn org ∧
        ∀ other, Names nodePrns other ↔ other = org) ∧
    (∀ others, nodePrns.Perm others →
      resolveOrg .absent others = resolveOrg .absent nodePrns) ∧
    (∀ before after raw, nodePrns = before ++ after → raw ∈ nodePrns →
      resolveOrg .absent (before ++ raw :: after) =
        resolveOrg .absent nodePrns) ∧
    (∀ before after raw, nodePrns = before ++ after →
      (∀ org, ¬ NamesOrg raw org) →
      resolveOrg .absent (before ++ raw :: after) =
        resolveOrg .absent nodePrns) ∧
    ∀ others, List.Forall₂ Recased nodePrns others →
      resolveOrg .absent others = resolveOrg .absent nodePrns := by
  refine ⟨resolveOrg_absent_ok nodePrns, ?_, ?_, ?_, ?_⟩
  · intro others permuted
    apply resolveOrg_congr
    intro org
    simp only [Names, permuted.mem_iff]
  · rintro before after raw rfl member
    apply resolveOrg_congr
    intro org
    rw [names_insert]
    exact or_iff_right_of_imp fun names => ⟨raw, member, names⟩
  · rintro before after raw rfl unnamed
    apply resolveOrg_congr
    intro org
    rw [names_insert]
    exact or_iff_right (unnamed org)
  · intro others recased
    exact resolveOrg_congr (names_recased recased)

/-- The name of one team, with the given texts of its two UUIDs. -/
def teamName (org team : String) : String := Prn.spell "iam" "" org "team" team

def rootName : String :=
  Prn.spell "iam" "" "" "root" "00000000-0000-0000-0000-000000000000"

/-- A team in upper case next to a grant at the root. -/
theorem resolveOrg_absent_sample :
    resolveOrg .absent
        [teamName "0190A100-0000-7000-8000-0000000000A1"
            "0190A100-0000-7000-8000-0000000000B2",
          rootName] =
      .ok (orgPrn 0x0190a1000000700080000000000000a1) := by
  let lower := teamName "0190a100-0000-7000-8000-0000000000a1"
    "0190a100-0000-7000-8000-0000000000b2"
  let shouted := teamName "0190A100-0000-7000-8000-0000000000A1"
    "0190A100-0000-7000-8000-0000000000B2"
  have alone : resolveOrg .absent [lower] =
      .ok (orgPrn 0x0190a1000000700080000000000000a1) := by
    decide +kernel
  have unnamed (org : Uuid) : ¬ NamesOrg rootName org := by
    have none : orgOf rootName = none := by decide +kernel
    rw [← orgOf_eq_some_iff, none]
    exact nofun
  have recased : List.Forall₂ Recased [lower] [shouted] :=
    .cons (.inr ⟨"iam", "", _, _, "team", _, _, rfl, rfl, by decide +kernel,
      by decide +kernel⟩) .nil
  have upper := (resolveOrg_absent_spec [lower]).2.2.2.2 _ recased
  have inserted := (resolveOrg_absent_spec [shouted]).2.2.2.1 [shouted] []
    rootName rfl unnamed
  exact inserted.trans (upper.trans alone)

end Inference

end Paigasus.Gateway.IamAuth
