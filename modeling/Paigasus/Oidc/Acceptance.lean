import Paigasus.Oidc.ClaimRules

/-!
# What stands behind an accepted token

An accepted token was verified under a key of its own issuer with an algorithm
that fits the key, and its payload was validated for that issuer.  Longer lists
of claim rules accept fewer tokens and change none of the others.
-/

namespace Paigasus.Oidc

open Foundation Core
open Dpop (Algorithm Jkt)

/-- Other rules have both lists of these, and perhaps more. -/
structure ClaimRules.Within (rules others : ClaimRules) : Prop where
  markers : rules.idTokenMarkers ⊆ others.idTokenMarkers
  required : rules.required ⊆ others.required

theorem ClaimRules.Admits.of_within {rules others : ClaimRules}
    (within : rules.Within others) {members : List (String × JsonDocument)}
    (admits : others.Admits members) : rules.Admits members where
  unique := admits.unique
  noMarker name listed := admits.noMarker name (within.markers listed)
  carried name listed := admits.carried name (within.required listed)

theorem ClaimRules.needsStrictDecode_of_within {rules others : ClaimRules}
    (within : rules.Within others) (strict : rules.needsStrictDecode = true) :
    others.needsStrictDecode = true := by
  by_contra plain
  simp only [needsStrictDecode, Bool.or_eq_true, Bool.not_eq_true',
    List.isEmpty_eq_false_iff, ne_eq, not_or, not_not] at strict plain
  rcases strict with markers | required
  · exact markers (List.subset_nil.mp (plain.1 ▸ within.markers))
  · exact required (List.subset_nil.mp (plain.2 ▸ within.required))

/-- The same issuers with other rules. -/
def OidcAuthenticator.withRules (authenticator : OidcAuthenticator)
    (rulesOf : ConfiguredIssuer → ClaimRules) : OidcAuthenticator :=
  { authenticator with
    issuers := authenticator.issuers.map fun config =>
      { config with claimRules := rulesOf config } }

namespace OidcAuthenticator

variable {authenticator : OidcAuthenticator} {token : String}
  {scheme : TokenScheme} {config : ConfiguredIssuer}

theorem issuerOf_eq_some
    (isConfig : authenticator.issuerOf token = some config) :
    config ∈ authenticator.issuers ∧
      (authenticator.library.document token).bind unverifiedIss =
        some config.issuer := by
  unfold issuerOf at isConfig
  obtain ⟨iss, isIss, found⟩ := Option.bind_eq_some_iff.mp isConfig
  have same := List.find?_some found
  simp only [decide_eq_true_eq] at same
  exact ⟨List.mem_of_find?_eq_some found, by rw [isIss, same]⟩

theorem issuerOf_withRules (rulesOf : ConfiguredIssuer → ClaimRules) :
    (authenticator.withRules rulesOf).issuerOf token =
      (authenticator.issuerOf token).map fun config =>
        { config with claimRules := rulesOf config } := by
  unfold issuerOf
  cases found : (authenticator.library.document token).bind unverifiedIss with
  | none => simp [withRules, found]
  | some iss =>
      simp only [withRules, found, Option.bind_some, findIssuerConfig,
        List.find?_map]
      rfl

/-- Longer lists of rules accept fewer tokens, and those as before. -/
theorem longer_rules_accept_fewer (authenticator : OidcAuthenticator)
    (rulesOf : ConfiguredIssuer → ClaimRules)
    (within : ∀ config ∈ authenticator.issuers,
      config.claimRules.Within (rulesOf config))
    {accepted : ValidatedClaims}
    (isAccepted : (authenticator.withRules rulesOf).authenticate token scheme =
      .ok accepted) :
    authenticator.authenticate token scheme = .ok accepted := by
  obtain ⟨tightened, alg, key, header, claims, payload, document, isTightened,
    isKey, verified, parsed, read, validated, isAccepted, admitted⟩ :=
      authenticate_ok.mp isAccepted
  rw [issuerOf_withRules] at isTightened
  obtain ⟨config, isConfig, rfl⟩ := Option.map_eq_some_iff.mp isTightened
  have ordered := within config (issuerOf_eq_some isConfig).1
  refine authenticate_ok.mpr ⟨config, alg, key, header, claims, payload,
    document, isConfig, isKey, verified, parsed, read, validated, isAccepted, ?_⟩
  intro strict
  exact (admitted (ClaimRules.needsStrictDecode_of_within ordered
    strict)).of_within ordered

end OidcAuthenticator

section Sample

def plainPayload : List UInt8 :=
  Dpop.asBytes ("\x7b\"iss\":\"https://idp.example\",\"sub\":\"s\"," ++
    "\"aud\":\"a\",\"exp\":4102444800\x7d")

/-- The payload without the members that repeat. -/
def plainDocument : JsonDocument :=
  .object (sampleDocument.members.take 4)

def plainToken : String := compact sampleHeaderBytes plainPayload [0]

def plainLibrary : JwtLibrary :=
  { sampleLibrary with
    readJson := fun bytes =>
      if bytes = plainPayload then some plainDocument else none }

def plainAuthenticator : OidcAuthenticator where
  library := plainLibrary
  issuers := [sampleIssuer]
  keyFor _ _ := .ok ⟨some "k", "P-256"⟩
  leewaySecs := 60
  maxTokenBytes := plainToken.utf8ByteSize

/-- No identifier token, and a subject. -/
def subjectRules (_config : ConfiguredIssuer) : ClaimRules :=
  ⟨["nonce"], ["sub"]⟩

theorem subjectRules_admit :
    (subjectRules sampleIssuer).Admits plainDocument.members where
  unique := by decide
  noMarker := by
    intro name listed document member
    cases List.mem_singleton.mp listed
    simp [plainDocument, sampleDocument, JsonDocument.members] at member
  carried := by
    intro name listed
    cases List.mem_singleton.mp listed
    exact ⟨.string "s", by simp [plainDocument, sampleDocument,
      JsonDocument.members], by simp⟩

theorem readJson_plainPayload :
    plainLibrary.readJson plainPayload = some plainDocument := by
  unfold plainLibrary
  dsimp only
  exact if_pos rfl

theorem plainToken_accepted : ∃ accepted,
    (plainAuthenticator.withRules subjectRules).authenticate plainToken
      .bearer = .ok accepted := by
  let authenticator := plainAuthenticator.withRules subjectRules
  let config : ConfiguredIssuer :=
    { sampleIssuer with claimRules := subjectRules sampleIssuer }
  have isConfig : authenticator.issuerOf plainToken = some config := by
    have document : authenticator.library.document plainToken =
        some plainDocument := by
      rw [JwtLibrary.document, plainToken, payloadBytes_compact,
        Option.bind_some]
      exact readJson_plainPayload
    rw [OidcAuthenticator.issuerOf, document]
    rfl
  have fits : plainToken.utf8ByteSize ≤ authenticator.maxTokenBytes := by
    simp only [authenticator, OidcAuthenticator.withRules, plainAuthenticator,
      le_refl]
  have isKey : authenticator.KeyOf plainToken config.issuer .es256 () :=
    ⟨fits, sampleHeader, "k", ⟨some "k", "P-256"⟩, rfl, rfl,
      by decide, rfl, rfl, rfl, rfl⟩
  have verified : plainLibrary.verify plainToken () .es256 =
      .ok (sampleHeader, plainPayload) := by
    simp only [plainLibrary, sampleLibrary, sampleVerify, plainToken,
      payloadBytes_compact]
    rfl
  obtain ⟨accepted, isAccepted⟩ : ∃ accepted, OidcAuthenticator.accept config
      sampleHeader sampleClaims none .bearer = .ok accepted := by
    unfold sampleClaims
    exact ⟨_, rfl⟩
  exact ⟨accepted, OidcAuthenticator.authenticate_ok.mpr ⟨config, .es256, (),
    sampleHeader, sampleClaims, plainPayload, plainDocument, isConfig, isKey,
    verified, readJson_plainPayload, rfl, rfl, isAccepted,
    fun _ => subjectRules_admit⟩⟩

theorem plainToken_without_rules : ∃ accepted,
    plainAuthenticator.authenticate plainToken .bearer = .ok accepted := by
  obtain ⟨accepted, isAccepted⟩ := plainToken_accepted
  refine ⟨accepted, plainAuthenticator.longer_rules_accept_fewer subjectRules
    ?_ isAccepted⟩
  intro config configured
  cases List.mem_singleton.mp configured
  exact ⟨List.nil_subset _, List.nil_subset _⟩

end Sample

end Paigasus.Oidc
