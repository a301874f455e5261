import Paigasus.Kernel.ResourceName

/-!
# The grammar of resource names

The texts `Prn.parse` takes are those of the grammar
`prn:pgs:<service>:<region>:<org>:<type>/<id>`.  A name is spelled in one
canonical way, which reads back as the name, and a name built from given fields
has these fields and no others.
-/

namespace Paigasus.Kernel

open Foundation

/-- `[a-z][a-z0-9]*` -/
def LabelSegment (text : List Char) : Prop :=
  ∃ first rest, text = first :: rest ∧ isAsciiLowercase first = true ∧
    ∀ char ∈ rest, isLabelChar char = true

/-- `[a-z][a-z0-9]*(-[a-z][a-z0-9]*)*` -/
def Label : List Char → Prop := Joined '-' LabelSegment

/-- `[a-z0-9]+` -/
def RegionSegment (text : List Char) : Prop :=
  text ≠ [] ∧ ∀ char ∈ text, isLabelChar char = true

/-- `[a-z0-9]+(-[a-z0-9]+)*` -/
def Region : List Char → Prop := Joined '-' RegionSegment

theorem isLabelSegment_iff (text : List Char) :
    isLabelSegment text = true ↔ LabelSegment text := by
  cases text with
  | nil => simp [isLabelSegment, LabelSegment]
  | cons first rest => simp [isLabelSegment, LabelSegment]

theorem hyphen_not_mem_labelChars {text : List Char}
    (labels : ∀ char ∈ text, isLabelChar char = true) : '-' ∉ text := by
  intro member
  have isLabel := labels '-' member
  cases isLabel

theorem RegionSegment.hyphen_not_mem {text : List Char}
    (segment : RegionSegment text) : '-' ∉ text :=
  hyphen_not_mem_labelChars segment.2

theorem LabelSegment.regionSegment {text : List Char}
    (segment : LabelSegment text) : RegionSegment text := by
  obtain ⟨first, rest, rfl, isFirst, isRest⟩ := segment
  refine ⟨List.cons_ne_nil first rest, ?_⟩
  intro char member
  rcases List.mem_cons.mp member with rfl | later
  · rw [isLabelChar, isFirst, Bool.true_or]
  · exact isRest char later

theorem isValidLabel_iff (text : List Char) :
    isValidLabel text = true ↔ Label text := by
  rw [Label, joined_iff_splitOn
    (fun _ segment => segment.regionSegment.hyphen_not_mem), isValidLabel,
    List.all_eq_true]
  exact forall₂_congr fun segment _ => isLabelSegment_iff segment

theorem isValidRegion_iff (text : List Char) :
    isValidRegion text = true ↔ Region text := by
  rw [Region, joined_iff_splitOn (fun _ segment => segment.hyphen_not_mem),
    isValidRegion, Bool.and_eq_true, List.all_eq_true]
  have segments : (∀ segment ∈ text.splitOn '-',
      (!segment.isEmpty && segment.all isLabelChar) = true) ↔
      ∀ segment ∈ text.splitOn '-', RegionSegment segment := by
    apply forall₂_congr
    intro segment _
    simp [RegionSegment]
  rw [segments]
  constructor
  · exact And.right
  · intro regions
    refine ⟨?_, regions⟩
    cases text with
    | nil =>
        have isEmpty := (regions [] (by simp)).1
        exact absurd rfl isEmpty
    | cons char rest => rfl

namespace Prn

/-- The text of the given field texts, before any of them is checked. -/
def spell (service region org resourceType resourceId : String) : String :=
  "prn:pgs:" ++ service ++ ":" ++ region ++ ":" ++ org ++ ":" ++
    resourceType ++ "/" ++ resourceId

theorem candidate_eq_spell (service region : String) (org : Option Uuid)
    (resourceType : String) (resourceId : Uuid) :
    candidate service region org resourceType resourceId =
      spell service region (String.ofList (orgText org)) resourceType
        (String.ofList resourceId.hyphenated) := by
  unfold candidate spell
  rfl

/-- The grammar of resource names whose resource ids are of the given form. -/
def InGrammar (isId : List Char → Prop) (text : String) : Prop :=
  ∃ service region org resourceType resourceId : String,
    text = spell service region org resourceType resourceId ∧
      Label service.toList ∧ (region = "" ∨ Region region.toList) ∧
        (org = "" ∨ Uuid.IsHyphenated org.toList) ∧
          Label resourceType.toList ∧ isId resourceId.toList ∧
            text.utf8ByteSize ≤ maxLen

/-- Reads the organization field, which may be empty. -/
def parseOrgField (org : List Char) : Option (Option Uuid) :=
  if org = [] then some none else (parseUuidField org).map some

theorem parseUuidField_eq (text : List Char) :
    parseUuidField text = Uuid.tryParse text := by
  rw [parseUuidField]
  split
  case isTrue size =>
    cases parsed : Uuid.tryParse text with
    | none => rfl
    | some id =>
        have isText := (Uuid.tryParse_isSome_iff text).mp ⟨id, parsed⟩
        exact absurd isText.utf8ByteSize size
  case isFalse => rfl

theorem parseUuidField_iff (text : List Char) :
    (∃ id, parseUuidField text = some id) ↔ Uuid.IsHyphenated text := by
  simp only [parseUuidField_eq]
  exact Uuid.tryParse_isSome_iff text

theorem parseOrgField_iff (text : List Char) :
    (∃ org, parseOrgField text = some org) ↔
      text = [] ∨ Uuid.IsHyphenated text := by
  rw [← parseUuidField_iff, parseOrgField]
  by_cases isEmpty : text = []
  · simp [isEmpty]
  · simp [isEmpty]

theorem parseOrgField_orgText (org : Option Uuid) :
    parseOrgField (orgText org) = some org := by
  cases org with
  | none => rfl
  | some id =>
      have nonempty : id.hyphenated ≠ [] := by
        intro isEmpty
        have length := Uuid.hyphenated_length id
        rw [isEmpty] at length
        cases length
      change parseOrgField id.hyphenated = some (some id)
      rw [parseOrgField, if_neg nonempty, parseUuidField_eq,
        Uuid.tryParse_hyphenated, Option.map_some]

theorem not_mem_org {text : List Char} {org : Option Uuid} {separator : Char}
    (parsed : parseOrgField text = some org)
    (notHex : Uuid.hexValue? separator = none) (notHyphen : separator ≠ '-') :
    separator ∉ text := by
  rcases (parseOrgField_iff text).mp ⟨org, parsed⟩ with rfl | isText
  · exact List.not_mem_nil
  · exact isText.not_mem notHex notHyphen

theorem not_mem_id {text : List Char} {id : Uuid} {separator : Char}
    (parsed : parseUuidField text = some id)
    (notHex : Uuid.hexValue? separator = none) (notHyphen : separator ≠ '-') :
    separator ∉ text :=
  ((parseUuidField_iff text).mp ⟨id, parsed⟩).not_mem notHex notHyphen

/-- A text spells a name when its fields denote the fields of the name. -/
structure Spells (text : String) (prn : Prn) (org resourceId : String) :
    Prop where
  spelled : text =
    spell prn.service prn.region org prn.resourceType resourceId
  org : parseOrgField org.toList = some prn.org
  resourceId : parseUuidField resourceId.toList = some prn.resourceId
  short : text.utf8ByteSize ≤ maxLen

theorem parsePath_eq_ok {service region : String} {org : Option Uuid}
    {serviceValid : isValidLabel service.toList = true}
    {regionValid : region = "" ∨ isValidRegion region.toList = true}
    {path : List Char} {prn : Prn}
    (parsed : parsePath service region org serviceValid regionValid path =
      .ok prn) :
    ∃ resourceId : List Char,
      path = prn.resourceType.toList ++ '/' :: resourceId ∧
        parseUuidField resourceId = some prn.resourceId ∧
          prn.service = service ∧ prn.region = region ∧ prn.org = org := by
  rw [parsePath] at parsed
  split at parsed
  case h_1 resourceType resourceId fields =>
    split at parsed
    case isTrue typeValid =>
      split at parsed
      case h_1 => cases parsed
      case h_2 id isId =>
        cases parsed
        refine ⟨resourceId, ?_, isId, rfl, rfl, rfl⟩
        have whole : ['/'].intercalate (path.splitOn '/') = path :=
          List.intercalate_splitOn '/'
        rw [fields] at whole
        rw [← whole, List.intercalate_cons_cons, List.intercalate_singleton,
          String.toList_ofList, List.append_assoc]
        rfl
    case isFalse => cases parsed
  case h_2 => cases parsed

theorem toList_spell (service region org resourceType resourceId : String) :
    (spell service region org resourceType resourceId).toList =
      ['p', 'r', 'n'] ++ ':' :: (['p', 'g', 's'] ++ ':' ::
        (service.toList ++ ':' :: (region.toList ++ ':' ::
          (org.toList ++ ':' ::
            (resourceType.toList ++ '/' :: resourceId.toList))))) := by
  have scheme : "prn:pgs:".toList =
      ['p', 'r', 'n', ':', 'p', 'g', 's', ':'] := rfl
  have colon : ":".toList = [':'] := rfl
  have slash : "/".toList = ['/'] := rfl
  unfold spell
  simp only [String.toList_append, scheme, colon, slash,
    List.append_assoc, List.cons_append, List.nil_append]

theorem spells_of_parse {text : String} {prn : Prn}
    (parsed : parse text = .ok prn) :
    ∃ org resourceId, Spells text prn org resourceId := by
  have spells : ∀ {service region org path : List Char} {value : Option Uuid}
      {serviceValid : isValidLabel (String.ofList service).toList = true}
      {regionValid : String.ofList region = "" ∨
        isValidRegion (String.ofList region).toList = true},
      text.utf8ByteSize ≤ maxLen →
      text.toList.splitOn ':' =
        [['p', 'r', 'n'], ['p', 'g', 's'], service, region, org, path] →
      parseOrgField org = some value →
      parsePath (String.ofList service) (String.ofList region) value
        serviceValid regionValid path = .ok prn →
      ∃ org resourceId, Spells text prn org resourceId := by
    intro service region org path value serviceValid regionValid short fields
      isOrg isPath
    obtain ⟨resourceId, rfl, isId, sameService, sameRegion, sameOrg⟩ :=
      parsePath_eq_ok isPath
    refine ⟨String.ofList org, String.ofList resourceId,
      ⟨?_, ?_, ?_, short⟩⟩
    · have whole : [':'].intercalate (text.toList.splitOn ':') = text.toList :=
        List.intercalate_splitOn ':'
      rw [fields] at whole
      apply String.toList_inj.mp
      rw [toList_spell, ← whole, sameService, sameRegion]
      simp only [List.intercalate_cons_cons, List.intercalate_singleton,
        String.toList_ofList, List.append_assoc, List.cons_append,
        List.nil_append]
    · rw [String.toList_ofList, sameOrg]
      exact isOrg
    · rw [String.toList_ofList]
      exact isId
  rw [parse] at parsed
  split at parsed
  case isTrue => cases parsed
  case isFalse =>
    split at parsed
    case isTrue => cases parsed
    case isFalse fits =>
      have short : text.utf8ByteSize ≤ maxLen := Nat.le_of_not_lt fits
      split at parsed
      case h_1 scheme partition service region org path fields =>
        split at parsed
        case isTrue => cases parsed
        case isFalse isScheme =>
          split at parsed
          case isTrue => cases parsed
          case isFalse isPartition =>
            rw [not_not.mp isScheme, not_not.mp isPartition] at fields
            split at parsed
            case isTrue serviceValid =>
              split at parsed
              case isTrue regionValid =>
                split at parsed
                case isTrue isEmpty =>
                  exact spells short fields
                    (by rw [parseOrgField, if_pos isEmpty]) parsed
                case isFalse nonempty =>
                  split at parsed
                  case h_1 => cases parsed
                  case h_2 id isId =>
                    exact spells short fields
                      (by rw [parseOrgField, if_neg nonempty, isId,
                        Option.map_some]) parsed
              case isFalse => cases parsed
            case isFalse => cases parsed
      case h_2 => cases parsed

theorem parsePath_spelled {prn : Prn} {resourceId : List Char}
    (isId : parseUuidField resourceId = some prn.resourceId) :
    parsePath prn.service prn.region prn.org prn.serviceValid prn.regionValid
      (prn.resourceType.toList ++ '/' :: resourceId) = .ok prn := by
  have fields : (prn.resourceType.toList ++ '/' :: resourceId).splitOn '/' =
      [prn.resourceType.toList, resourceId] := by
    rw [List.splitOn_append_cons_self_of_not_mem
        (not_mem_of_label prn.resourceTypeValid (by decide) (by decide)),
      List.splitOn_eq_singleton (not_mem_id isId rfl (by decide))]
  rw [parsePath, fields]
  simp only [String.ofList_toList, prn.resourceTypeValid, isId, dif_pos]

theorem Spells.splitOn {text : String} {prn : Prn} {org resourceId : String}
    (spells : Spells text prn org resourceId) :
    text.toList.splitOn ':' =
      [['p', 'r', 'n'], ['p', 'g', 's'], prn.service.toList,
        prn.region.toList, org.toList,
        prn.resourceType.toList ++ '/' :: resourceId.toList] := by
  have path : ':' ∉ prn.resourceType.toList ++ '/' :: resourceId.toList := by
    simp only [List.mem_append, List.mem_cons, not_or]
    exact ⟨not_mem_of_label prn.resourceTypeValid (by decide) (by decide),
      by decide, not_mem_id spells.resourceId rfl (by decide)⟩
  rw [spells.spelled, toList_spell,
    List.splitOn_append_cons_self_of_not_mem (by decide),
    List.splitOn_append_cons_self_of_not_mem (by decide),
    List.splitOn_append_cons_self_of_not_mem
      (not_mem_of_label prn.serviceValid (by decide) (by decide)),
    List.splitOn_append_cons_self_of_not_mem (colon_not_mem_region prn),
    List.splitOn_append_cons_self_of_not_mem
      (not_mem_org spells.org rfl (by decide)),
    List.splitOn_eq_singleton path]

theorem Spells.parse {text : String} {prn : Prn} {org resourceId : String}
    (spells : Spells text prn org resourceId) : parse text = .ok prn := by
  have nonempty : text ≠ "" := by
    intro isEmpty
    have fields := spells.splitOn
    rw [isEmpty] at fields
    cases fields
  have isOrg := spells.org
  have isPath := parsePath_spelled spells.resourceId
  rw [Prn.parse, if_neg nonempty, if_neg (Nat.not_lt.mpr spells.short),
    spells.splitOn]
  simp only [ne_eq, not_true_eq_false, if_false, String.ofList_toList,
    prn.serviceValid, prn.regionValid, dif_pos]
  rw [parseOrgField] at isOrg
  split at isOrg
  case isTrue isEmpty =>
    rw [if_pos isEmpty, Option.some.inj isOrg]
    exact isPath
  case isFalse present =>
    rw [if_neg present]
    cases isId : parseUuidField org.toList with
    | none =>
        rw [isId] at isOrg
        cases isOrg
    | some id =>
        rw [isId, Option.map_some] at isOrg
        simp only [Option.some.inj isOrg]
        exact isPath

/-- A text denotes the name it spells, and no other text denotes it. -/
theorem parse_eq_ok_iff (text : String) (prn : Prn) :
    parse text = .ok prn ↔ ∃ org resourceId, Spells text prn org resourceId :=
  ⟨spells_of_parse, fun ⟨_, _, spells⟩ => spells.parse⟩

/-- The accepted texts are those of the grammar. -/
theorem accepted_iff (text : String) :
    (∃ prn, parse text = .ok prn) ↔ InGrammar Uuid.IsHyphenated text := by
  constructor
  · rintro ⟨prn, parsed⟩
    obtain ⟨org, resourceId, spells⟩ := spells_of_parse parsed
    refine ⟨prn.service, prn.region, org, prn.resourceType, resourceId,
      spells.spelled, (isValidLabel_iff _).mp prn.serviceValid,
      prn.regionValid.imp_right (isValidRegion_iff _).mp, ?_,
      (isValidLabel_iff _).mp prn.resourceTypeValid,
      (parseUuidField_iff _).mp ⟨_, spells.resourceId⟩, spells.short⟩
    rcases (parseOrgField_iff _).mp ⟨_, spells.org⟩ with isEmpty | isText
    · exact .inl (String.toList_eq_nil_iff.mp isEmpty)
    · exact .inr isText
  · rintro ⟨service, region, org, resourceType, resourceId, spelled,
      isService, isRegion, isOrg, isType, isId, short⟩
    have orgForm : org.toList = [] ∨ Uuid.IsHyphenated org.toList :=
      isOrg.imp_left String.toList_eq_nil_iff.mpr
    obtain ⟨orgValue, orgParsed⟩ := (parseOrgField_iff _).mpr orgForm
    obtain ⟨id, idParsed⟩ := (parseUuidField_iff _).mpr isId
    let prn : Prn :=
      { service
        region
        org := orgValue
        resourceType
        resourceId := id
        serviceValid := (isValidLabel_iff _).mpr isService
        regionValid := isRegion.imp_right (isValidRegion_iff _).mpr
        resourceTypeValid := (isValidLabel_iff _).mpr isType }
    have spells : Spells text prn org resourceId :=
      ⟨spelled, orgParsed, idParsed, short⟩
    exact ⟨prn, spells.parse⟩

theorem utf8ByteSize_spell (service region org resourceType resourceId :
    String) :
    (spell service region org resourceType resourceId).utf8ByteSize =
      service.utf8ByteSize + region.utf8ByteSize + org.utf8ByteSize +
        resourceType.utf8ByteSize + resourceId.utf8ByteSize + 12 := by
  have scheme : "prn:pgs:".utf8ByteSize = 8 := rfl
  have colon : ":".utf8ByteSize = 1 := rfl
  have slash : "/".utf8ByteSize = 1 := rfl
  unfold spell
  simp only [String.utf8ByteSize_append, scheme, colon, slash]
  omega

theorem utf8ByteSize_hyphenated (id : Uuid) :
    (String.ofList id.hyphenated).utf8ByteSize = 36 :=
  (Uuid.isHyphenated_hyphenated id).utf8ByteSize

/-- A field text and the canonical text of its value have one size. -/
theorem utf8ByteSize_orgText {org : String} {value : Option Uuid}
    (parsed : parseOrgField org.toList = some value) :
    (String.ofList (orgText value)).utf8ByteSize = org.utf8ByteSize := by
  rw [parseOrgField] at parsed
  split at parsed
  case isTrue isEmpty =>
    rw [← Option.some.inj parsed, String.toList_eq_nil_iff.mp isEmpty]
    rfl
  case isFalse =>
    cases isId : parseUuidField org.toList with
    | none =>
        rw [isId] at parsed
        cases parsed
    | some id =>
        rw [isId, Option.map_some] at parsed
        rw [← Option.some.inj parsed]
        have isText := (parseUuidField_iff _).mp ⟨id, isId⟩
        have size := isText.utf8ByteSize
        rw [String.ofList_toList] at size
        rw [size]
        exact utf8ByteSize_hyphenated id

/-- The canonical text of a name that was read spells it again. -/
theorem Spells.canonical {text : String} {prn : Prn} {org resourceId : String}
    (spells : Spells text prn org resourceId) :
    Spells prn.canonical prn (String.ofList (orgText prn.org))
      (String.ofList prn.resourceId.hyphenated) := by
  have spelled : prn.canonical = spell prn.service prn.region
      (String.ofList (orgText prn.org)) prn.resourceType
        (String.ofList prn.resourceId.hyphenated) :=
    candidate_eq_spell _ _ _ _ _
  refine ⟨spelled, ?_, ?_, ?_⟩
  · rw [String.toList_ofList]
    exact parseOrgField_orgText prn.org
  · rw [String.toList_ofList, parseUuidField_eq]
    exact Uuid.tryParse_hyphenated prn.resourceId
  · have isText := (parseUuidField_iff _).mp ⟨_, spells.resourceId⟩
    have size := isText.utf8ByteSize
    rw [String.ofList_toList] at size
    have short := spells.short
    rw [spells.spelled, utf8ByteSize_spell] at short
    rw [spelled, utf8ByteSize_spell, utf8ByteSize_orgText spells.org,
      utf8ByteSize_hyphenated]
    omega

/-- The canonical text of an accepted name reads back as the name. -/
theorem parse_canonical {text : String} {prn : Prn}
    (parsed : parse text = .ok prn) : parse prn.canonical = .ok prn := by
  obtain ⟨org, resourceId, spells⟩ := spells_of_parse parsed
  exact spells.canonical.parse

end Prn

/-- The canonical text of the name a text denotes. -/
def prnCanonicalize (text : String) : Except PrnError String :=
  (Prn.parse text).map Prn.canonical

/-- The wire form: the kind of the error, and the five canonical fields. -/
def prnParseFields (text : String) : List String :=
  match Prn.parse text with
  | .ok prn =>
      ["", prn.service, prn.region, String.ofList (Prn.orgText prn.org),
        prn.resourceType, String.ofList prn.resourceId.hyphenated]
  | .error error => [error.kind, "", "", "", "", ""]

theorem PrnError.kind_ne_empty (error : PrnError) : error.kind ≠ "" := by
  cases error <;> decide

theorem prnCanonicalize_eq_ok {text canonical : String} :
    prnCanonicalize text = .ok canonical ↔
      ∃ prn, Prn.parse text = .ok prn ∧ prn.canonical = canonical := by
  rw [prnCanonicalize]
  cases parsed : Prn.parse text with
  | error error => simp [Except.map]
  | ok prn => simp [Except.map]

/-- The wire form of an accepted text tells the name. -/
theorem prnParseFields_inj {first second : String} {left right : Prn}
    (isLeft : Prn.parse first = .ok left)
    (isRight : Prn.parse second = .ok right) :
    prnParseFields first = prnParseFields second ↔ left = right := by
  rw [prnParseFields, prnParseFields, isLeft, isRight]
  constructor
  · intro same
    simp only [List.cons.injEq, true_and, and_true] at same
    obtain ⟨service, region, org, resourceType, resourceId⟩ := same
    ext1
    · exact service
    · exact region
    · exact Prn.orgText_injective (String.ofList_injective org)
    · exact resourceType
    · exact Uuid.hyphenated_injective (String.ofList_injective resourceId)
  · intro same
    rw [same]

/-- No rejected text has the wire form of an accepted one. -/
theorem prnParseFields_rejected {first second : String} {prn : Prn}
    {error : PrnError} (accepted : Prn.parse first = .ok prn)
    (rejected : Prn.parse second = .error error) :
    prnParseFields first ≠ prnParseFields second := by
  rw [prnParseFields, prnParseFields, accepted, rejected]
  intro same
  exact error.kind_ne_empty (List.cons.inj same).1.symm

/-- The accepted texts are those of the grammar, with a UUID as the resource
id; the canonical text of an accepted name denotes it, and is its own canonical
text; texts denote one name when they have one canonical text. -/
theorem Prn.codec :
    (∀ text, (∃ prn, parse text = .ok prn) ↔
      InGrammar Uuid.IsHyphenated text) ∧
    (∀ text prn, parse text = .ok prn → parse prn.canonical = .ok prn) ∧
    (∀ text canonical, prnCanonicalize text = .ok canonical →
      prnCanonicalize canonical = .ok canonical) ∧
    (∀ first second left right, parse first = .ok left →
      parse second = .ok right →
        ((left = right ↔ left.canonical = right.canonical) ∧
          (prnParseFields first = prnParseFields second ↔ left = right))) := by
  refine ⟨accepted_iff, fun _ _ => parse_canonical, ?_, ?_⟩
  · intro text canonical canonicalized
    obtain ⟨prn, parsed, rfl⟩ := prnCanonicalize_eq_ok.mp canonicalized
    exact prnCanonicalize_eq_ok.mpr ⟨prn, parse_canonical parsed, rfl⟩
  · intro first second left right isLeft isRight
    exact ⟨canonical_injective.eq_iff.symm, prnParseFields_inj isLeft isRight⟩

/-- An accepted text in upper case, and the canonical text it has. -/
theorem Prn.codec_sample :
    InGrammar Uuid.IsHyphenated
      "prn:pgs:iam:::user/0190A1E5-0000-7000-8000-00000000ABCD" ∧
    prnCanonicalize "prn:pgs:iam:::user/0190a1e5-0000-7000-8000-00000000abcd" =
      .ok "prn:pgs:iam:::user/0190a1e5-0000-7000-8000-00000000abcd" := by
  have upper : prnCanonicalize
      "prn:pgs:iam:::user/0190A1E5-0000-7000-8000-00000000ABCD" =
      .ok "prn:pgs:iam:::user/0190a1e5-0000-7000-8000-00000000abcd" := by
    decide
  refine ⟨(codec.1 _).mp ?_, codec.2.2.1 _ _ upper⟩
  obtain ⟨prn, parsed, _⟩ := prnCanonicalize_eq_ok.mp upper
  exact ⟨prn, parsed⟩

/-- A resource id must be a UUID: no other non-empty one is accepted. -/
theorem Prn.resourceId_not_any :
    ¬ ∀ text, (∃ prn, parse text = .ok prn) ↔ InGrammar (· ≠ []) text := by
  intro claimed
  have service : Label "iam".toList :=
    (isValidLabel_iff _).mp (by decide)
  have resourceType : Label "user".toList :=
    (isValidLabel_iff _).mp (by decide)
  have inGrammar : InGrammar (· ≠ []) "prn:pgs:iam:::user/x" :=
    ⟨"iam", "", "", "user", "x", by decide, service, .inl rfl, .inl rfl,
      resourceType, by decide, by decide⟩
  obtain ⟨prn, parsed⟩ := (claimed _).mpr inGrammar
  have rejected : parse "prn:pgs:iam:::user/x" = .error .badResourceId := by
    decide
  rw [rejected] at parsed
  cases parsed

namespace Prn

/-- Fields without a separator are found again in any text that spells
them. -/
theorem spell_inj {service region org resourceType resourceId
      otherService otherRegion otherOrg otherType otherId : String}
    (serviceFree : ':' ∉ service.toList) (regionFree : ':' ∉ region.toList)
    (orgFree : ':' ∉ org.toList)
    (pathFree : ':' ∉ resourceType.toList ++ '/' :: resourceId.toList)
    (typeFree : '/' ∉ resourceType.toList)
    (idFree : '/' ∉ resourceId.toList)
    (same : spell otherService otherRegion otherOrg otherType otherId =
      spell service region org resourceType resourceId) :
    otherService = service ∧ otherRegion = region ∧ otherOrg = org ∧
      otherType = resourceType ∧ otherId = resourceId := by
  have texts := congrArg String.toList same
  rw [toList_spell, toList_spell] at texts
  replace texts := (List.cons.inj (List.append_cancel_left texts)).2
  replace texts := (List.cons.inj (List.append_cancel_left texts)).2
  have colons := congrArg (List.count ':') texts
  simp only [List.count_append, List.count_cons_self,
    List.count_eq_zero.mpr serviceFree, List.count_eq_zero.mpr regionFree,
    List.count_eq_zero.mpr orgFree, List.count_eq_zero.mpr pathFree] at colons
  have free : List.count ':' otherService.toList = 0 ∧
      List.count ':' otherRegion.toList = 0 ∧
        List.count ':' otherOrg.toList = 0 := by
    simp only [List.count_cons] at colons
    omega
  obtain ⟨services, texts⟩ := field_eq_of_append_eq
    (List.count_eq_zero.mp free.1) serviceFree texts
  obtain ⟨regions, texts⟩ := field_eq_of_append_eq
    (List.count_eq_zero.mp free.2.1) regionFree texts
  obtain ⟨orgs, texts⟩ := field_eq_of_append_eq
    (List.count_eq_zero.mp free.2.2) orgFree texts
  have slashes := congrArg (List.count '/') texts
  simp only [List.count_append, List.count_cons_self,
    List.count_eq_zero.mpr typeFree, List.count_eq_zero.mpr idFree] at slashes
  have otherFree : List.count '/' otherType.toList = 0 := by omega
  obtain ⟨types, ids⟩ := field_eq_of_append_eq
    (List.count_eq_zero.mp otherFree) typeFree texts
  exact ⟨String.toList_inj.mp services, String.toList_inj.mp regions,
    String.toList_inj.mp orgs, String.toList_inj.mp types,
    String.toList_inj.mp ids⟩

/-- A text made of given fields denotes a name with these fields only. -/
theorem fields_of_parse_spell {service region org resourceType resourceId :
      String} {prn : Prn}
    (parsed : parse (spell service region org resourceType resourceId) =
      .ok prn) :
    prn.service = service ∧ prn.region = region ∧
      parseOrgField org.toList = some prn.org ∧
        prn.resourceType = resourceType ∧
          parseUuidField resourceId.toList = some prn.resourceId := by
  obtain ⟨orgText, idText, spells⟩ := spells_of_parse parsed
  have pathFree : ':' ∉ prn.resourceType.toList ++ '/' :: idText.toList := by
    simp only [List.mem_append, List.mem_cons, not_or]
    exact ⟨not_mem_of_label prn.resourceTypeValid (by decide) (by decide),
      by decide, not_mem_id spells.resourceId rfl (by decide)⟩
  obtain ⟨services, regions, orgs, types, ids⟩ := spell_inj
    (not_mem_of_label prn.serviceValid (by decide) (by decide))
    (colon_not_mem_region prn) (not_mem_org spells.org rfl (by decide))
    pathFree (not_mem_of_label prn.resourceTypeValid (by decide) (by decide))
    (not_mem_id spells.resourceId rfl (by decide)) spells.spelled
  exact ⟨services.symm, regions.symm, by rw [orgs]; exact spells.org,
    types.symm, by rw [ids]; exact spells.resourceId⟩

/-- A text made of given fields denotes a name when each field is well formed
on its own and the whole is short enough. -/
theorem parse_spell_iff (service region org resourceType resourceId : String) :
    (∃ prn, parse (spell service region org resourceType resourceId) =
        .ok prn) ↔
      isValidLabel service.toList = true ∧
        (region = "" ∨ isValidRegion region.toList = true) ∧
          (∃ value, parseOrgField org.toList = some value) ∧
            isValidLabel resourceType.toList = true ∧
              (∃ id, parseUuidField resourceId.toList = some id) ∧
                (spell service region org resourceType
                  resourceId).utf8ByteSize ≤ maxLen := by
  constructor
  · rintro ⟨prn, parsed⟩
    obtain ⟨rfl, rfl, isOrg, rfl, isId⟩ := fields_of_parse_spell parsed
    obtain ⟨_, _, spells⟩ := spells_of_parse parsed
    exact ⟨prn.serviceValid, prn.regionValid, ⟨_, isOrg⟩,
      prn.resourceTypeValid, ⟨_, isId⟩, spells.short⟩
  · rintro ⟨serviceValid, regionValid, ⟨value, isOrg⟩, typeValid,
      ⟨id, isId⟩, short⟩
    let prn : Prn :=
      { service
        region
        org := value
        resourceType
        resourceId := id
        serviceValid
        regionValid
        resourceTypeValid := typeValid }
    have spells : Spells (spell service region org resourceType resourceId)
        prn org resourceId := ⟨rfl, isOrg, isId, short⟩
    exact ⟨prn, spells.parse⟩

theorem build_fields {service region : String} {org : Option Uuid}
    {resourceType : String} {resourceId : Uuid} {prn : Prn}
    (built : build service region org resourceType resourceId = .ok prn) :
    prn.service = service ∧ prn.region = region ∧ prn.org = org ∧
      prn.resourceType = resourceType ∧ prn.resourceId = resourceId := by
  rw [build, candidate_eq_spell] at built
  obtain ⟨services, regions, isOrg, types, isId⟩ := fields_of_parse_spell built
  rw [String.toList_ofList, parseOrgField_orgText] at isOrg
  rw [String.toList_ofList, parseUuidField_eq, Uuid.tryParse_hyphenated] at isId
  exact ⟨services, regions, (Option.some.inj isOrg).symm, types,
    (Option.some.inj isId).symm⟩

end Prn

/-- The builder of the bindings, which takes every field as a text. -/
def prnBuild (service region org resourceType resourceId : String) :
    Except PrnError String :=
  prnCanonicalize (Prn.spell service region org resourceType resourceId)

/-- A built name has the fields it was built from, whether these come typed or
as texts; it is built when each of them is well formed on its own and the whole
is short enough. -/
theorem Prn.build_no_injection :
    (∀ service region org resourceType resourceId prn,
      build service region org resourceType resourceId = .ok prn →
        prn.service = service ∧ prn.region = region ∧ prn.org = org ∧
          prn.resourceType = resourceType ∧ prn.resourceId = resourceId) ∧
    (∀ service region org resourceType resourceId
        otherService otherRegion otherOrg otherType otherId prn,
      build service region org resourceType resourceId = .ok prn →
      build otherService otherRegion otherOrg otherType otherId = .ok prn →
        service = otherService ∧ region = otherRegion ∧ org = otherOrg ∧
          resourceType = otherType ∧ resourceId = otherId) ∧
    (∀ service region org resourceType resourceId,
      (∃ prn, build service region org resourceType resourceId = .ok prn) ↔
        isValidLabel service.toList = true ∧
          (region = "" ∨ isValidRegion region.toList = true) ∧
            isValidLabel resourceType.toList = true ∧
              (candidate service region org resourceType
                resourceId).utf8ByteSize ≤ maxLen) ∧
    (∀ service region org resourceType resourceId text,
      prnBuild service region org resourceType resourceId = .ok text →
        ∃ prn, parse text = .ok prn ∧ prn.canonical = text ∧
          prn.service = service ∧ prn.region = region ∧
            parseOrgField org.toList = some prn.org ∧
              prn.resourceType = resourceType ∧
                parseUuidField resourceId.toList = some prn.resourceId) ∧
    (∀ service region org resourceType resourceId,
      (∃ text, prnBuild service region org resourceType resourceId =
          .ok text) ↔
        isValidLabel service.toList = true ∧
          (region = "" ∨ isValidRegion region.toList = true) ∧
            (∃ value, parseOrgField org.toList = some value) ∧
              isValidLabel resourceType.toList = true ∧
                (∃ id, parseUuidField resourceId.toList = some id) ∧
                  (spell service region org resourceType
                    resourceId).utf8ByteSize ≤ maxLen) := by
  refine ⟨?_, ?_, ?_, ?_, ?_⟩
  · intro service region org resourceType resourceId prn built
    exact build_fields built
  · intro service region org resourceType resourceId otherService otherRegion
      otherOrg otherType otherId prn built otherBuilt
    obtain ⟨rfl, rfl, rfl, rfl, rfl⟩ := build_fields built
    exact build_fields otherBuilt
  · intro service region org resourceType resourceId
    have orgRead : ∃ value,
        parseOrgField (String.ofList (orgText org)).toList = some value := by
      rw [String.toList_ofList]
      exact ⟨org, parseOrgField_orgText org⟩
    have idRead : ∃ id,
        parseUuidField (String.ofList resourceId.hyphenated).toList =
          some id := by
      rw [String.toList_ofList]
      exact (parseUuidField_iff _).mpr (Uuid.isHyphenated_hyphenated resourceId)
    unfold build
    rw [candidate_eq_spell, parse_spell_iff]
    simp only [orgRead, idRead, true_and]
  · intro service region org resourceType resourceId text built
    obtain ⟨prn, parsed, rfl⟩ := prnCanonicalize_eq_ok.mp built
    obtain ⟨services, regions, orgs, types, ids⟩ :=
      fields_of_parse_spell parsed
    exact ⟨prn, parse_canonical parsed, rfl, services, regions, orgs, types,
      ids⟩
  · intro service region org resourceType resourceId
    rw [← parse_spell_iff]
    constructor
    · rintro ⟨text, built⟩
      obtain ⟨prn, parsed, _⟩ := prnCanonicalize_eq_ok.mp built
      exact ⟨prn, parsed⟩
    · rintro ⟨prn, parsed⟩
      exact ⟨prn.canonical, prnCanonicalize_eq_ok.mpr ⟨prn, parsed, rfl⟩⟩

/-- A name with every field present is built from them. -/
theorem Prn.build_no_injection_sample :
    (∃ prn, build "iam" "eu-central-1" (some 1) "team" 2 = .ok prn) ∧
      ∀ prn, build "iam" "eu-central-1" (some 1) "team" 2 = .ok prn →
        prn.org = some 1 :=
  ⟨(build_no_injection.2.2.1 _ _ _ _ _).mpr
      ⟨by decide, .inr (by decide), by decide,
        by decide⟩,
    fun _ built => (build_no_injection.1 _ _ _ _ _ _ built).2.2.1⟩

/-- The entity of a name determines everything but its region and
organization. -/
theorem toCedarUid_determines {left right : Prn}
    (same : toCedarUid left = toCedarUid right) :
    left.service = right.service ∧ left.resourceType = right.resourceType ∧
      left.resourceId = right.resourceId :=
  toCedarUid_eq_iff.mp same

/-- Names that differ in region and organization only have one entity. -/
theorem toCedarUid_determines_sample :
    ∃ left right : Prn, left.region ≠ right.region ∧
      toCedarUid left = toCedarUid right ∧
        left.resourceType = right.resourceType := by
  let left : Prn :=
    { service := "iam"
      region := ""
      org := none
      resourceType := "api-key"
      resourceId := 1
      serviceValid := by decide
      regionValid := .inl rfl
      resourceTypeValid := by decide }
  let right : Prn :=
    { left with
      region := "eu-1"
      org := some 2
      regionValid := .inr (by decide) }
  have same : toCedarUid left = toCedarUid right :=
    toCedarUid_eq_iff.mpr ⟨rfl, rfl, rfl⟩
  exact ⟨left, right, by decide, same, (toCedarUid_determines same).2.1⟩

end Paigasus.Kernel
