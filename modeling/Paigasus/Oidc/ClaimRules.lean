import Paigasus.Oidc.Validator
import Mathlib.Tactic.Tauto

/-!
# Claim rules only narrow what is accepted

The strict reading of a payload and the plain one agree on every object whose
members occur once.  No array is a payload: its issuer would be its only element.
-/

namespace Paigasus.Oidc

open Foundation Core
open Dpop (Algorithm Jkt)

/-- What the rules ask of the members of a payload. -/
structure ClaimRules.Admits (rules : ClaimRules)
    (members : List (String × JsonDocument)) : Prop where
  unique : (members.map Prod.fst).Nodup
  noMarker : ∀ name ∈ rules.idTokenMarkers, ∀ document,
    (name, document) ∈ members → document = .null
  carried : ∀ name ∈ rules.required, ∃ document,
    (name, document) ∈ members ∧ document ≠ .null

/-- The same issuer with both lists empty. -/
def ConfiguredIssuer.withoutRules (config : ConfiguredIssuer) :
    ConfiguredIssuer :=
  { config with claimRules := ClaimRules.none }

def OidcAuthenticator.withoutRules (authenticator : OidcAuthenticator) :
    OidcAuthenticator :=
  { authenticator with
    issuers := authenticator.issuers.map ConfiguredIssuer.withoutRules }

/-- The issuer whose rules apply to a token. -/
def OidcAuthenticator.issuerOf (authenticator : OidcAuthenticator)
    (token : String) : Option ConfiguredIssuer :=
  ((authenticator.library.document token).bind unverifiedIss).bind
    authenticator.findIssuerConfig

section Reading

theorem WireClaims.ofFields_map (field : String → Option JsonDocument) :
    ofFields Json.fieldReader (fun name => (field name).map JsonDocument.value) =
      ofFields JsonDocument.fieldReader field := by
  have agrees := JsonDocument.agrees
  have audience (source : JsonDocument) :
      WireAudience.read Json.fieldReader source.value =
        WireAudience.read JsonDocument.fieldReader source := by
    simp only [WireAudience.read, agrees.string, agrees.strings]
  have value (source : JsonDocument) :
      (some ∘ Json.fieldReader.value) source.value =
        (some ∘ JsonDocument.fieldReader.value) source := rfl
  simp only [ofFields, FieldReader.required_map agrees.string,
    FieldReader.required_map agrees.unsigned,
    FieldReader.optional_map agrees audience,
    FieldReader.optional_map agrees agrees.string,
    FieldReader.optional_map agrees value]

theorem uniqueMembers_eq_some {members : List (String × JsonDocument)}
    {before result : List (String × Json)} :
    uniqueMembers members before = some result ↔
      (members.map Prod.fst).Nodup ∧
        (∀ name ∈ members.map Prod.fst, name ∉ before.map Prod.fst) ∧
          before ++ JsonDocument.memberValues members = result := by
  induction members generalizing before with
  | nil => simp [uniqueMembers, JsonDocument.memberValues]
  | cons member rest ih =>
      obtain ⟨name, document⟩ := member
      rw [uniqueMembers]
      split
      case isTrue read =>
        have listed := lookup_isSome.mp read
        simp only [reduceCtorEq, List.map_cons, List.mem_cons, false_iff]
        rintro ⟨_, unread, _⟩
        exact unread name (.inl rfl) listed
      case isFalse unread =>
        rw [lookup_isSome] at unread
        rw [ih]
        simp only [List.map_cons, List.nodup_cons, List.mem_cons,
          List.map_append, List.mem_append, List.map_nil, List.not_mem_nil,
          or_false, not_or, JsonDocument.memberValues, List.append_assoc,
          List.singleton_append]
        constructor
        · rintro ⟨unique, fresh, rfl⟩
          refine ⟨⟨fun listed => (fresh name listed).2 rfl, unique⟩, ?_, rfl⟩
          rintro other (rfl | listed)
          · exact unread
          · exact (fresh other listed).1
        · rintro ⟨⟨first, unique⟩, fresh, rfl⟩
          refine ⟨unique, fun other listed => ⟨fresh other (.inr listed), ?_⟩,
            rfl⟩
          rintro rfl
          exact first listed

/-- The strict reading is the plain one on objects whose members occur once. -/
theorem StrictPayload.deserialize_eq_some {document : JsonDocument}
    {payload : StrictPayload} :
    deserialize document = some payload ↔
      ∃ members, document = .object members ∧
        (members.map Prod.fst).Nodup ∧
          payload.members = JsonDocument.memberValues members ∧
            WireClaims.deserialize document = some payload.claims := by
  cases document with
  | object members =>
      have readBack (unique : (members.map Prod.fst).Nodup) :
          WireClaims.deserializeMap (JsonDocument.memberValues members) =
            WireClaims.deserialize (.object members) := by
        have uniqueValues :
            ((JsonDocument.memberValues members).map Prod.fst).Nodup := by
          simpa [JsonDocument.memberValues_eq, Function.comp_def] using unique
        unfold WireClaims.deserializeMap WireClaims.deserialize
        rw [JsonDocument.fields, memberFields_of_nodup uniqueValues,
          memberFields_of_nodup unique, Option.bind_some, Option.bind_some,
          ← WireClaims.ofFields_map, JsonDocument.memberValues_eq]
        simp only [lookup_map_snd]
      simp only [deserialize, Option.bind_eq_bind, Option.bind_eq_some_iff,
        uniqueMembers_eq_some, List.nil_append, Option.pure_def,
        Option.some.injEq]
      constructor
      · rintro ⟨_, ⟨unique, _, rfl⟩, claims, read, rfl⟩
        exact ⟨members, rfl, unique, rfl, (readBack unique).symm.trans read⟩
      · rintro ⟨_, same, unique, isMembers, read⟩
        cases same
        refine ⟨_, ⟨unique, by simp, rfl⟩, payload.claims,
          (readBack unique).trans read, ?_⟩
        rw [← isMembers]
  | _ => simp [deserialize]

/-- No array is both: its issuer would be all of it. -/
theorem isObject_of_read {document : JsonDocument} {iss : String}
    {claims : WireClaims} (issuer : unverifiedIss document = some iss)
    (read : WireClaims.deserialize document = some claims) :
    ∃ members, document = .object members := by
  cases document with
  | object members => exact ⟨members, rfl⟩
  | array items =>
      simp only [unverifiedIss, WireClaims.deserialize, JsonDocument.fields,
        elementFields, WireClaims.fieldNames, List.length_cons,
        List.length_nil] at issuer read
      split at issuer
      · next one =>
          simp [one] at read
      · cases issuer
  | _ => cases issuer

end Reading

section Refusal

variable {rules : ClaimRules} {members : List (String × JsonDocument)}

theorem isNull_value (document : JsonDocument) :
    Json.fieldReader.isNull document.value = true ↔ document = .null := by
  cases document with
  | null => simp [JsonDocument.value, Json.fieldReader]
  | _ => simp [JsonDocument.value, Json.fieldReader]

theorem isPresent_iff (unique : (members.map Prod.fst).Nodup) {name : String} :
    isPresent (JsonDocument.memberValues members) name = true ↔
      ∃ document, (name, document) ∈ members ∧ document ≠ .null := by
  rw [isPresent, JsonDocument.memberValues_eq, lookup_map_snd,
    Option.any_eq_true]
  constructor
  · rintro ⟨value, found, notNull⟩
    obtain ⟨document, listed, rfl⟩ := Option.map_eq_some_iff.mp found
    refine ⟨document, (lookup_eq_some_iff_mem unique).mp listed, ?_⟩
    simpa [← isNull_value] using notNull
  · rintro ⟨document, listed, notNull⟩
    refine ⟨document.value, ?_, by simpa [← isNull_value] using notNull⟩
    rw [(lookup_eq_some_iff_mem unique).mpr listed, Option.map_some]

theorem refusal_eq_none_iff (unique : (members.map Prod.fst).Nodup) :
    rules.refusal (JsonDocument.memberValues members) = none ↔
      rules.Admits members := by
  have marker (name : String) :
      ¬ isPresent (JsonDocument.memberValues members) name = true ↔
        ∀ document, (name, document) ∈ members → document = .null := by
    rw [isPresent_iff unique]
    push Not
    rfl
  unfold ClaimRules.refusal
  split
  case h_1 name found =>
    obtain ⟨listed, present⟩ : name ∈ rules.idTokenMarkers ∧
        isPresent (JsonDocument.memberValues members) name = true :=
      ⟨List.mem_of_find?_eq_some found, List.find?_some found⟩
    simp only [reduceCtorEq, false_iff]
    intro admits
    exact (marker name).mpr (admits.noMarker name listed) present
  case h_2 missing =>
    have noMarker := List.find?_eq_none.mp missing
    rw [Option.map_eq_none_iff, missingRequiredClaim, List.find?_eq_none]
    constructor
    · intro carried
      refine ⟨unique, fun name listed => (marker name).mp (noMarker name listed),
        fun name listed => (isPresent_iff unique).mp ?_⟩
      simpa using carried name listed
    · intro admits name listed
      simpa using (isPresent_iff unique).mpr (admits.carried name listed)

end Refusal

section Accepting

variable {authenticator : OidcAuthenticator} {token : String}
  {scheme : TokenScheme} {config : ConfiguredIssuer} {alg : Algorithm}

theorem JwtLibrary.decode_ok {library : JwtLibrary} {Claims : Type}
    {read : JsonDocument → Option Claims} {key : library.Key}
    {validation : Validation} {header : JwtHeader} {claims : Claims} :
    library.decode read token key validation = .ok (header, claims) ↔
      ∃ payload document,
        library.verify token key validation.algorithm =
          .ok (header, payload) ∧
        library.readJson payload = some document ∧
        read document = some claims ∧
        library.validate validation payload = .ok () := by
  simp only [decode, bind_ok, okOr_ok, Option.bind_eq_some_iff]
  constructor
  · rintro ⟨⟨_, payload⟩, verified, found, ⟨document, parsed, read⟩, _,
      validated, same⟩
    cases same
    exact ⟨payload, document, verified, parsed, read, validated⟩
  · rintro ⟨payload, document, verified, parsed, read, validated⟩
    exact ⟨(header, payload), verified, claims, ⟨document, parsed, read⟩, (),
      validated, rfl⟩

theorem document_of_verify {library : JwtLibrary} {key : library.Key}
    {header : JwtHeader} {payload : List UInt8}
    (verified : library.verify token key alg = .ok (header, payload)) :
    library.document token = library.readJson payload := by
  rw [JwtLibrary.document, library.payload_of_verify _ _ _ _ _ verified]
  rfl

namespace OidcAuthenticator

/-- Steps 1 to 4, the issuer apart. -/
def KeyOf (authenticator : OidcAuthenticator) (token : String)
    (issuer : String) (alg : Algorithm) (key : authenticator.library.Key) :
    Prop :=
  token.utf8ByteSize ≤ authenticator.maxTokenBytes ∧
    ∃ header kid jwk,
      authenticator.library.decodeHeader token = some header ∧
        header.alg = alg ∧ alg ∈ allowedAlgorithms ∧ header.kid = some kid ∧
          authenticator.keyFor issuer kid = .ok jwk ∧
            checkKtyMatchesAlg authenticator.library jwk alg = .ok () ∧
              authenticator.library.fromJwk jwk = some key

theorem selectKey_ok {key : authenticator.library.Key} :
    authenticator.selectKey token = .ok (config, alg, key) ↔
      authenticator.issuerOf token = some config ∧
        authenticator.KeyOf token config.issuer alg key := by
  simp only [selectKey, readUnverifiedIssuer, issuerOf, KeyOf, bind_ok, okOr_ok,
    ensure_ok, exists_const, Option.bind_eq_some_iff]
  constructor
  · rintro ⟨fits, header, decoded, allowed, kid, isKid, iss, isIss, found,
      isConfig, jwk, isKey, _, suits, key', isDecodingKey, same⟩
    cases same
    exact ⟨⟨iss, isIss, isConfig⟩, by simpa using fits, header, kid, jwk,
      decoded, rfl, by simpa using allowed, isKid, isKey, suits, isDecodingKey⟩
  · rintro ⟨⟨iss, isIss, isConfig⟩, fits, header, kid, jwk, decoded, rfl,
      allowed, isKid, isKey, suits, isDecodingKey⟩
    exact ⟨by simpa using fits, header, decoded, by simpa using allowed, kid,
      isKid, iss, isIss, config, isConfig, jwk, isKey, (), suits, key,
      isDecodingKey, rfl⟩

/-- What an authenticator makes of the claims of a verified token, its issuer
apart. -/
theorem verifiedClaims_ok {key : authenticator.library.Key}
    {header : JwtHeader} {claims : WireClaims} :
    authenticator.verifiedClaims token config alg key =
        .ok (header, claims, none) ↔
      ∃ payload document,
        authenticator.library.verify token key alg = .ok (header, payload) ∧
          authenticator.library.readJson payload = some document ∧
            WireClaims.deserialize document = some claims ∧
              authenticator.library.validate
                  (authenticator.validation config alg) payload = .ok () ∧
                (config.claimRules.needsStrictDecode = true →
                  (∃ members, document = .object members) ∧
                    config.claimRules.Admits document.members) := by
  unfold verifiedClaims
  split
  case isTrue strict =>
    simp only [bind_ok, mapError_ok]
    constructor
    · rintro ⟨⟨header', payload'⟩, decoded, same⟩
      obtain ⟨payload, document, verified, parsed, read, validated⟩ :=
        JwtLibrary.decode_ok.mp decoded
      obtain ⟨members, rfl, unique, isMembers, read⟩ :=
        StrictPayload.deserialize_eq_some.mp read
      simp only [Except.ok.injEq, Prod.mk.injEq, isMembers] at same
      obtain ⟨rfl, rfl, accepted⟩ := same
      exact ⟨payload, _, verified, parsed, read, validated, fun _ =>
        ⟨⟨members, rfl⟩, (refusal_eq_none_iff unique).mp accepted⟩⟩
    · rintro ⟨payload, document, verified, parsed, read, validated, admitted⟩
      obtain ⟨⟨members, rfl⟩, admits⟩ := admitted strict
      refine ⟨(header, ⟨JsonDocument.memberValues members, claims⟩),
        JwtLibrary.decode_ok.mpr ⟨payload, _, verified, parsed, ?_, validated⟩,
        ?_⟩
      · exact StrictPayload.deserialize_eq_some.mpr
          ⟨members, rfl, admits.unique, rfl, read⟩
      · have unrefused :
            config.claimRules.refusal (JsonDocument.memberValues members) =
              none := (refusal_eq_none_iff admits.unique).mpr admits
        simp only [unrefused]
  case isFalse plain =>
    simp only [bind_ok, mapError_ok, plain, Bool.false_eq_true, false_implies,
      and_true]
    constructor
    · rintro ⟨⟨header', claims'⟩, decoded, same⟩
      cases same
      exact JwtLibrary.decode_ok.mp decoded
    · intro verified
      exact ⟨(header, claims), JwtLibrary.decode_ok.mpr verified, rfl⟩

theorem accept_ok_of_refused {header : JwtHeader} {claims : WireClaims}
    {refusal : Option RefusalDetail} {accepted : ValidatedClaims}
    (isAccepted : accept config header claims refusal scheme = .ok accepted) :
    refusal = none := by
  unfold accept at isAccepted
  obtain ⟨_, _, isAccepted⟩ := bind_ok.mp isAccepted
  obtain ⟨_, unrefused, _⟩ := bind_ok.mp isAccepted
  simpa using ensure_ok.mp unrefused

/-- When a token is accepted, with the part of the claim rules split off. -/
theorem authenticate_ok {accepted : ValidatedClaims} :
    authenticator.authenticate token scheme = .ok accepted ↔
      ∃ config alg key header claims payload document,
        authenticator.issuerOf token = some config ∧
        authenticator.KeyOf token config.issuer alg key ∧
        authenticator.library.verify token key alg = .ok (header, payload) ∧
        authenticator.library.readJson payload = some document ∧
        WireClaims.deserialize document = some claims ∧
        authenticator.library.validate (authenticator.validation config alg)
          payload = .ok () ∧
        accept config header claims none scheme = .ok accepted ∧
        (config.claimRules.needsStrictDecode = true →
          config.claimRules.Admits document.members) := by
  simp only [authenticate, bind_ok]
  constructor
  · rintro ⟨⟨config, alg, key⟩, selected, ⟨header, claims, refusal⟩, decoded,
      isAccepted⟩
    obtain rfl := accept_ok_of_refused isAccepted
    obtain ⟨isConfig, isKey⟩ := selectKey_ok.mp selected
    obtain ⟨payload, document, verified, parsed, read, validated, admitted⟩ :=
      verifiedClaims_ok.mp decoded
    exact ⟨config, alg, key, header, claims, payload, document, isConfig, isKey,
      verified, parsed, read, validated, isAccepted,
      fun strict => (admitted strict).2⟩
  · rintro ⟨config, alg, key, header, claims, payload, document, isConfig,
      isKey, verified, parsed, read, validated, isAccepted, admitted⟩
    have isObject : ∃ members, document = .object members := by
      have whole := isConfig
      rw [issuerOf, document_of_verify verified, parsed] at whole
      obtain ⟨iss, isIss, _⟩ := Option.bind_eq_some_iff.mp whole
      exact isObject_of_read isIss read
    exact ⟨(config, alg, key), selectKey_ok.mpr ⟨isConfig, isKey⟩,
      (header, claims, none), verifiedClaims_ok.mpr ⟨payload, document,
        verified, parsed, read, validated, fun strict =>
          ⟨isObject, admitted strict⟩⟩, isAccepted⟩

theorem issuerOf_withoutRules :
    authenticator.withoutRules.issuerOf token =
      (authenticator.issuerOf token).map ConfiguredIssuer.withoutRules := by
  unfold issuerOf
  cases found : (authenticator.library.document token).bind unverifiedIss with
  | none => simp [withoutRules, found]
  | some iss =>
      simp only [withoutRules, found, Option.bind_some, findIssuerConfig,
        List.find?_map]
      rfl

/-- The rules hold of the payload of a token. -/
def RulesHold (authenticator : OidcAuthenticator) (token : String) : Prop :=
  ∀ config document, authenticator.issuerOf token = some config →
    authenticator.library.document token = some document →
      config.claimRules.needsStrictDecode = true →
        config.claimRules.Admits document.members

theorem authenticate_iff_withoutRules {accepted : ValidatedClaims} :
    authenticator.authenticate token scheme = .ok accepted ↔
      authenticator.withoutRules.authenticate token scheme = .ok accepted ∧
        authenticator.RulesHold token := by
  rw [authenticate_ok, authenticate_ok]
  constructor
  · rintro ⟨config, alg, key, header, claims, payload, document, isConfig,
      isKey, verified, parsed, read, validated, isAccepted, admitted⟩
    refine ⟨⟨config.withoutRules, alg, key, header, claims, payload, document,
      ?_, isKey, verified, parsed, read, validated, isAccepted, ?_⟩, ?_⟩
    · rw [issuerOf_withoutRules, isConfig]
      rfl
    · intro strict
      cases strict
    · intro config' document' isConfig' parsed' strict
      rw [isConfig] at isConfig'
      rw [document_of_verify verified, parsed] at parsed'
      cases isConfig'
      cases parsed'
      exact admitted strict
  · rintro ⟨⟨plain, alg, key, header, claims, payload, document, isPlain, isKey,
      verified, parsed, read, validated, isAccepted, _⟩, rulesHold⟩
    rw [issuerOf_withoutRules] at isPlain
    obtain ⟨config, isConfig, rfl⟩ := Option.map_eq_some_iff.mp isPlain
    refine ⟨config, alg, key, header, claims, payload, document, isConfig,
      isKey, verified, parsed, read, validated, isAccepted, ?_⟩
    exact rulesHold config document isConfig
      ((document_of_verify verified).trans parsed)

theorem keyBinding_of_accept {header : JwtHeader} {claims : WireClaims}
    {refusal : Option RefusalDetail} {accepted : ValidatedClaims}
    (isAccepted : accept config header claims refusal scheme = .ok accepted) :
    ∃ binding, keyBinding claims scheme = .ok binding := by
  unfold accept at isAccepted
  obtain ⟨_, _, isAccepted⟩ := bind_ok.mp isAccepted
  obtain ⟨_, _, isAccepted⟩ := bind_ok.mp isAccepted
  obtain ⟨binding, isBinding, _⟩ := bind_ok.mp isAccepted
  exact ⟨binding, isBinding⟩

theorem cnf_of_bearer {claims : WireClaims} {binding : Option Jkt}
    (bound : keyBinding claims .bearer = .ok binding) : claims.cnf = none := by
  simp only [keyBinding, senderConstraintMarker] at bound
  cases isCnf : claims.cnf with
  | none => rfl
  | some value => simp [isCnf] at bound

theorem cnf_of_dpop {claims : WireClaims} {binding : Option Jkt}
    (bound : keyBinding claims .dpop = .ok binding) : claims.cnf ≠ none := by
  intro isNone
  simp [keyBinding, dpopKeyBinding, isNone] at bound

/-- The claims of a token do not depend on the scheme. -/
theorem not_both_schemes {bearer dpop : ValidatedClaims}
    (onBearer : authenticator.authenticate token .bearer = .ok bearer)
    (onDpop : authenticator.authenticate token .dpop = .ok dpop) : False := by
  obtain ⟨_, _, _, _, claims, _, document, _, _, verified, parsed, read, _,
    isBearer, _⟩ := authenticate_ok.mp onBearer
  obtain ⟨_, _, _, _, claims', _, document', _, _, verified', parsed', read', _,
    isDpop, _⟩ := authenticate_ok.mp onDpop
  rw [← document_of_verify verified] at parsed
  rw [← document_of_verify verified', parsed] at parsed'
  cases parsed'
  rw [read] at read'
  cases read'
  obtain ⟨_, bound⟩ := keyBinding_of_accept isBearer
  obtain ⟨_, boundDpop⟩ := keyBinding_of_accept isDpop
  exact cnf_of_dpop boundDpop (cnf_of_bearer bound)

/-- Claim rules refuse some of the tokens that are accepted without them, and
change nothing else: a payload that has a repeated member, a marker claim or no
required claim is refused where its issuer has rules.  No token is accepted on
both schemes. -/
theorem rules_only_narrow (authenticator : OidcAuthenticator)
    (token : String) :
    (∀ scheme accepted,
      authenticator.authenticate token scheme = .ok accepted ↔
        authenticator.withoutRules.authenticate token scheme = .ok accepted ∧
          ∀ config document, authenticator.issuerOf token = some config →
            authenticator.library.document token = some document →
              config.claimRules.needsStrictDecode = true →
                config.claimRules.Admits document.members) ∧
      ¬ ∃ bearer dpop,
        authenticator.authenticate token .bearer = .ok bearer ∧
          authenticator.authenticate token .dpop = .ok dpop := by
  constructor
  · intro scheme accepted
    exact authenticate_iff_withoutRules
  · rintro ⟨bearer, dpop, onBearer, onDpop⟩
    exact not_both_schemes onBearer onDpop

end OidcAuthenticator

end Accepting

section Repeated

/-- The compact form of a token. -/
def compact (header payload signature : List UInt8) : String :=
  String.ofList (Base64.encode header ++
    '.' :: (Base64.encode payload ++ '.' :: Base64.encode signature))

theorem dot_not_mem_encode (bytes : List UInt8) :
    '.' ∉ Base64.encode bytes := by
  intro listed
  obtain ⟨_, isBits⟩ := Base64.bits?_of_mem_encode listed
  cases isBits

theorem payloadBytes_compact (header payload signature : List UInt8) :
    payloadBytes (compact header payload signature) = some payload := by
  simp [payloadBytes, compact, splitFirst_append (dot_not_mem_encode _),
    Base64.decode_encode]

def sampleHeaderBytes : List UInt8 :=
  Dpop.asBytes "\x7b\"alg\":\"ES256\",\"kid\":\"k\"\x7d"

def samplePayload : List UInt8 :=
  Dpop.asBytes ("\x7b\"iss\":\"https://idp.example\",\"sub\":\"s\"," ++
    "\"aud\":\"a\",\"exp\":4102444800,\"x\":1,\"x\":2\x7d")

/-- The payload as it stands, with a member `x` that occurs twice. -/
def sampleDocument : JsonDocument :=
  .object
    [("iss", .string "https://idp.example"), ("sub", .string "s"),
      ("aud", .string "a"), ("exp", .number (.unsigned 4102444800)),
      ("x", .number (.unsigned 1)), ("x", .number (.unsigned 2))]

def sampleToken : String := compact sampleHeaderBytes samplePayload [0]

def sampleHeader : JwtHeader := ⟨.es256, some "k", none⟩

def sampleVerify (token : String) : Except JwtError (JwtHeader × List UInt8) :=
  (okOr .other (payloadBytes token)).map fun payload => (sampleHeader, payload)

theorem payloadBytes_of_sampleVerify {token : String} {header : JwtHeader}
    {payload : List UInt8} (verified : sampleVerify token = .ok (header, payload)) :
    payloadBytes token = some payload := by
  unfold sampleVerify at verified
  cases found : payloadBytes token with
  | none => simp [found, okOr, Except.map] at verified
  | some bytes =>
      simp only [found, okOr, Except.map, Except.ok.injEq, Prod.mk.injEq]
        at verified
      rw [verified.2]

def sampleClaims : WireClaims where
  sub := "s"
  exp := 4102444800
  aud := some (.single "a")
  email := none
  name := none
  locale := none
  zoneinfo := none
  typ := none
  events := none
  cnf := none

/-- The library on a token whose signature is good and that is in time. -/
def sampleLibrary : JwtLibrary where
  Key := Unit
  decodeHeader _ := some sampleHeader
  keyType _ := .ellipticCurve
  fromJwk _ := some ()
  readJson bytes := if bytes = samplePayload then some sampleDocument else none
  verify token _ _ := sampleVerify token
  validate _ _ := .ok ()
  payload_of_verify _ _ _ _ _ verified := payloadBytes_of_sampleVerify verified

def sampleIssuer : ConfiguredIssuer :=
  ⟨"https://idp.example", ["a"], ClaimRules.none⟩

def sampleAuthenticator : OidcAuthenticator where
  library := sampleLibrary
  issuers := [sampleIssuer]
  keyFor _ _ := .ok ⟨some "k", "P-256"⟩
  leewaySecs := 60
  maxTokenBytes := sampleToken.utf8ByteSize

theorem readJson_samplePayload :
    sampleLibrary.readJson samplePayload = some sampleDocument := by
  unfold sampleLibrary
  dsimp only
  exact if_pos rfl

theorem sampleDocument_of_token :
    sampleLibrary.document sampleToken = some sampleDocument := by
  rw [JwtLibrary.document, sampleToken, payloadBytes_compact, Option.bind_some,
    readJson_samplePayload]

/-- Without claim rules a payload may repeat a member that no claim is read
from. -/
theorem OidcAuthenticator.repeated_member_passes :
    ¬ ∀ accepted,
      sampleAuthenticator.authenticate sampleToken .bearer = .ok accepted ↔
        sampleAuthenticator.withoutRules.authenticate sampleToken .bearer =
          .ok accepted ∧ sampleIssuer.claimRules.Admits sampleDocument.members := by
  intro narrows
  have isConfig : sampleAuthenticator.issuerOf sampleToken =
      some sampleIssuer := by
    have document : sampleAuthenticator.library.document sampleToken =
        some sampleDocument := sampleDocument_of_token
    rw [OidcAuthenticator.issuerOf, document]
    rfl
  have isKey : sampleAuthenticator.KeyOf sampleToken sampleIssuer.issuer
      .es256 () :=
    ⟨by simp only [sampleAuthenticator, le_refl], sampleHeader, "k",
      ⟨some "k", "P-256"⟩, rfl, rfl, by decide, rfl, rfl, rfl, rfl⟩
  have verified : sampleLibrary.verify sampleToken () .es256 =
      .ok (sampleHeader, samplePayload) := by
    simp only [sampleLibrary, sampleVerify, sampleToken, payloadBytes_compact]
    rfl
  obtain ⟨accepted, isAccepted⟩ : ∃ accepted, OidcAuthenticator.accept
      sampleIssuer sampleHeader sampleClaims none .bearer = .ok accepted := by
    unfold sampleClaims
    exact ⟨_, rfl⟩
  have accepts : sampleAuthenticator.authenticate sampleToken .bearer =
      .ok accepted :=
    OidcAuthenticator.authenticate_ok.mpr ⟨sampleIssuer, .es256, (),
      sampleHeader, sampleClaims, samplePayload, sampleDocument, isConfig,
      isKey, verified, readJson_samplePayload, rfl, rfl, isAccepted, nofun⟩
  have unique := ((narrows accepted).mp accepts).2.unique
  revert unique
  decide

end Repeated

end Paigasus.Oidc
