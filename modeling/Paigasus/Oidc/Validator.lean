import Paigasus.Config.IamConfig
import Paigasus.Core.UtcDateTime
import Paigasus.Dpop.ProofKey
import Paigasus.Dpop.Verifier
import Paigasus.Foundation.Base64
import Paigasus.Foundation.Delimited
import Paigasus.Foundation.JsonDocument
import Paigasus.Foundation.Results
import Paigasus.Oidc.Jwks

/-!
# The access token validator

A token is verified by the JWT library under a key of its issuer, and its claims
are read from the verified payload.  An issuer with claim rules reads the same
payload member by member, and refuses a member that occurs twice; the claims it
goes on with are read back from these members.
-/

namespace Paigasus.Oidc

open Foundation Core
open Dpop (Algorithm Jkt)

/-- The verified claims of an access token. -/
structure ValidatedClaims where
  issuer : String
  subject : String
  audiences : List String
  expiresAt : UtcDateTime
  email : Option String
  name : Option String
  locale : Option String
  zoneinfo : Option String
  keyBinding : Option Jkt
deriving DecidableEq

structure JwtHeader where
  alg : Algorithm
  kid : Option String
  typ : Option String

inductive KeyType where
  | rsa
  | ellipticCurve
  | octetKey
  | octetKeyPair
deriving DecidableEq

/-- The errors of the library; `other` are all that are not told apart. -/
inductive JwtError where
  | expiredSignature
  | immatureSignature
  | invalidSignature
  | invalidAudience
  | invalidIssuer
  | missingRequiredClaim (claim : String)
  | json
  | other

structure Validation where
  algorithm : Algorithm
  issuers : List String
  audiences : List String
  requiredSpecClaims : List String
  leeway : Nat
  validateNbf : Bool

/-- The bytes of the second of the parts between the dots. -/
def payloadBytes (token : String) : Option (List UInt8) :=
  (splitFirst '.' token.toList).bind fun (_, rest) =>
    match splitFirst '.' rest with
    | some (payload, _) => Base64.decode payload
    | none => Base64.decode rest

/-- The JWT library.  Verification does not look at the claims, and the payload
it verifies is the second part of the token; validation reads the claims that it
needs from the bytes. -/
structure JwtLibrary where
  Key : Type
  decodeHeader : String → Option JwtHeader
  keyType : Jwk → KeyType
  fromJwk : Jwk → Option Key
  readJson : List UInt8 → Option JsonDocument
  verify : String → Key → Algorithm →
    Except JwtError (JwtHeader × List UInt8)
  validate : Validation → List UInt8 → Except JwtError Unit
  payload_of_verify : ∀ token key algorithm header payload,
    verify token key algorithm = .ok (header, payload) →
      payloadBytes token = some payload

namespace JwtLibrary

variable (library : JwtLibrary)

/-- `decode`: the signature, then the claims, then what the claims say. -/
def decode {Claims : Type} (read : JsonDocument → Option Claims)
    (token : String) (key : library.Key) (validation : Validation) :
    Except JwtError (JwtHeader × Claims) :=
  library.verify token key validation.algorithm >>= fun (header, payload) =>
    okOr .json ((library.readJson payload).bind read) >>= fun claims =>
      library.validate validation payload >>= fun _ =>
        .ok (header, claims)

/-- The payload of a token as a document. -/
def document (token : String) : Option JsonDocument :=
  (payloadBytes token).bind library.readJson

end JwtLibrary

inductive WireAudience where
  | single (aud : String)
  | multiple (auds : List String)

def WireAudience.intoVec : WireAudience → List String
  | single aud => [aud]
  | multiple auds => auds

def WireAudience.read {Source : Type} (reader : FieldReader Source)
    (source : Source) : Option WireAudience :=
  match reader.string source with
  | some aud => some (.single aud)
  | none => (reader.strings source).map .multiple

/-- The claims that are read from a verified payload. -/
structure WireClaims where
  sub : String
  exp : Nat
  aud : Option WireAudience
  email : Option String
  name : Option String
  locale : Option String
  zoneinfo : Option String
  typ : Option Json
  events : Option Json
  cnf : Option Json

namespace WireClaims

def fieldNames : List String :=
  ["sub", "exp", "aud", "email", "name", "locale", "zoneinfo", "typ", "events",
    "cnf"]

def ofFields {Source : Type} (reader : FieldReader Source)
    (field : String → Option Source) : Option WireClaims := do
  let sub ← FieldReader.required reader.string (field "sub")
  let exp ← FieldReader.required reader.unsigned (field "exp")
  let aud ← reader.optional (WireAudience.read reader) (field "aud")
  let email ← reader.optional reader.string (field "email")
  let name ← reader.optional reader.string (field "name")
  let locale ← reader.optional reader.string (field "locale")
  let zoneinfo ← reader.optional reader.string (field "zoneinfo")
  let typ ← reader.optional (some ∘ reader.value) (field "typ")
  let events ← reader.optional (some ∘ reader.value) (field "events")
  let cnf ← reader.optional (some ∘ reader.value) (field "cnf")
  return { sub, exp, aud, email, name, locale, zoneinfo, typ, events, cnf }

/-- From the text of the payload. -/
def deserialize (document : JsonDocument) : Option WireClaims :=
  (document.fields fieldNames).bind (ofFields JsonDocument.fieldReader)

/-- From members that were read before. -/
def deserializeMap (members : List (String × Json)) : Option WireClaims :=
  (memberFields fieldNames members).bind (ofFields Json.fieldReader)

end WireClaims

/-- Every top-level member, and the claims read from them. -/
structure StrictPayload where
  members : List (String × Json)
  claims : WireClaims

/-- The members one by one; a name that has been read is refused. -/
def uniqueMembers : List (String × JsonDocument) → List (String × Json) →
    Option (List (String × Json))
  | [], members => some members
  | (name, document) :: rest, members =>
      if (members.lookup name).isSome then none
      else uniqueMembers rest (members ++ [(name, document.value)])

def StrictPayload.deserialize : JsonDocument → Option StrictPayload
  | .object members => do
      let members ← uniqueMembers members []
      let claims ← WireClaims.deserializeMap members
      return ⟨members, claims⟩
  | _ => none

/-- `iss` of a payload that is not verified. -/
def unverifiedIss (document : JsonDocument) : Option String :=
  (document.fields ["iss"]).bind fun field =>
    FieldReader.required JsonDocument.fieldReader.string (field "iss")

def readUnverifiedIssuer (library : JwtLibrary) (token : String) :
    Except AuthnError String :=
  okOr (.invalidToken .malformed) ((library.document token).bind unverifiedIss)

def isPresent (members : List (String × Json)) (name : String) : Bool :=
  (members.lookup name).any fun value => !Json.fieldReader.isNull value

def configuredMarker (members : List (String × Json)) (names : List String) :
    Option String :=
  names.find? fun name => isPresent members name

def missingRequiredClaim (members : List (String × Json))
    (names : List String) : Option String :=
  names.find? fun name => !isPresent members name

/-- Why the claim rules refuse a payload. -/
inductive RefusalDetail where
  | claim (name : String)
  | missingClaim (name : String)

structure ClaimRules where
  idTokenMarkers : List String
  required : List String

namespace ClaimRules

def needsStrictDecode (rules : ClaimRules) : Bool :=
  !rules.idTokenMarkers.isEmpty || !rules.required.isEmpty

def refusal (rules : ClaimRules) (members : List (String × Json)) :
    Option RefusalDetail :=
  match configuredMarker members rules.idTokenMarkers with
  | some name => some (.claim name)
  | none =>
      (missingRequiredClaim members rules.required).map .missingClaim

def none : ClaimRules := ⟨[], []⟩

end ClaimRules

structure ConfiguredIssuer where
  issuer : String
  audiences : List String
  claimRules : ClaimRules

def allowedAlgorithms : List Algorithm := [.rs256, .es256]

def nonAccessTokenTypes : List String := ["ID", "Logout"]

def senderConstrainedTypes : List String := ["DPoP"]

def logoutTokenHeaderTypes : List String :=
  ["logout+jwt", "application/logout+jwt"]

def backchannelLogoutEvent : String :=
  "http://schemas.openid.net/event/backchannel-logout"

def mapJwtError : JwtError → AuthnError
  | .expiredSignature => .invalidToken .expired
  | .immatureSignature => .invalidToken .notYetValid
  | .invalidSignature => .invalidToken .badSignature
  | .invalidAudience => .invalidToken .audienceMismatch
  | .invalidIssuer => .invalidToken .issuerNotConfigured
  | .missingRequiredClaim claim =>
      if claim = "aud" then .invalidToken .audienceMismatch
      else .invalidToken .malformed
  | _ => .invalidToken .malformed

def checkKtyMatchesAlg (library : JwtLibrary) (jwk : Jwk) (alg : Algorithm) :
    Except AuthnError Unit :=
  ensure ((library.keyType jwk = .rsa && alg = .rs256) ||
    (library.keyType jwk = .ellipticCurve && alg = .es256))
    (.invalidToken .unsupportedAlg)

/-- The `typ` of the payload, where it is a text. -/
def WireClaims.typText (claims : WireClaims) : Option String :=
  claims.typ.bind Json.asStr

def nonAccessTokenMarker (headerTyp : Option String) (claims : WireClaims) :
    Option String :=
  if headerTyp.any fun typ =>
      logoutTokenHeaderTypes.any (Config.eqIgnoreAsciiCase typ) then
    some "logout+jwt"
  else if (claims.events.bind Json.asObject).any fun events =>
      (events.lookup backchannelLogoutEvent).isSome then
    some "backchannel-logout event"
  else
    claims.typText.bind fun typ =>
      nonAccessTokenTypes.find? (Config.eqIgnoreAsciiCase typ)

def senderConstraintMarker (claims : WireClaims) : Option String :=
  if claims.cnf.isSome then some "cnf"
  else
    claims.typText.bind fun typ =>
      if senderConstrainedTypes.any (Config.eqIgnoreAsciiCase typ) then
        some "typ DPoP"
      else none

def dpopKeyBinding (claims : WireClaims) : Option Jkt := do
  let cnf ← claims.cnf.bind Json.asObject
  if (cnf.lookup "x5t#S256").isSome then none
  else
    let jkt ← (cnf.lookup "jkt").bind Json.asStr
    if jkt.isEmpty then none else some ⟨jkt⟩

/-- The key binding that the scheme asks for. -/
def keyBinding (claims : WireClaims) :
    TokenScheme → Except AuthnError (Option Jkt)
  | .bearer =>
      match senderConstraintMarker claims with
      | some _ => .error (.invalidToken .senderConstrained)
      | none => .ok none
  | .dpop =>
      match dpopKeyBinding claims with
      | some jkt => .ok (some jkt)
      | none => .error (.invalidToken .notKeyBound)

/-- The largest number of seconds that fits in 64 signed bits. -/
def maxSignedSeconds : Nat := 9223372036854775807

def expiresAt (exp : Nat) : Option UtcDateTime :=
  if exp ≤ maxSignedSeconds then UtcDateTime.fromTimestamp? exp 0 else none

/-- The configured issuers, and the keys as they are answered to a call. -/
structure OidcAuthenticator where
  library : JwtLibrary
  issuers : List ConfiguredIssuer
  keyFor : String → String → Except AuthnError Jwk
  leewaySecs : Nat
  maxTokenBytes : Nat

namespace OidcAuthenticator

variable (authenticator : OidcAuthenticator)

def findIssuerConfig (iss : String) : Option ConfiguredIssuer :=
  authenticator.issuers.find? fun config => config.issuer = iss

/-- Steps 1 to 4: the issuer, the algorithm and the key of a token. -/
def selectKey (token : String) :
    Except AuthnError
      (ConfiguredIssuer × Algorithm × authenticator.library.Key) := do
  ensure (token.utf8ByteSize ≤ authenticator.maxTokenBytes)
    (.invalidToken .oversized)
  let header ← okOr (.invalidToken .malformed)
    (authenticator.library.decodeHeader token)
  ensure (allowedAlgorithms.contains header.alg) (.invalidToken .unsupportedAlg)
  let kid ← okOr (.invalidToken .unknownKid) header.kid
  let iss ← readUnverifiedIssuer authenticator.library token
  let config ← okOr (.invalidToken .issuerNotConfigured)
    (authenticator.findIssuerConfig iss)
  let jwk ← authenticator.keyFor config.issuer kid
  checkKtyMatchesAlg authenticator.library jwk header.alg
  let key ← okOr (.invalidToken .badSignature)
    (authenticator.library.fromJwk jwk)
  return (config, header.alg, key)

def validation (config : ConfiguredIssuer) (alg : Algorithm) : Validation where
  algorithm := alg
  issuers := [config.issuer]
  audiences := config.audiences
  requiredSpecClaims := ["exp", "aud"]
  leeway := authenticator.leewaySecs
  validateNbf := true

/-- Step 5: the verified header and claims, and what the claim rules say. -/
def verifiedClaims (token : String) (config : ConfiguredIssuer)
    (alg : Algorithm) (key : authenticator.library.Key) :
    Except AuthnError (JwtHeader × WireClaims × Option RefusalDetail) :=
  if config.claimRules.needsStrictDecode then
    (authenticator.library.decode StrictPayload.deserialize token key
      (authenticator.validation config alg)).mapError mapJwtError >>=
        fun (header, payload) =>
          .ok (header, payload.claims,
            config.claimRules.refusal payload.members)
  else
    (authenticator.library.decode WireClaims.deserialize token key
      (authenticator.validation config alg)).mapError mapJwtError >>=
        fun (header, claims) => .ok (header, claims, none)

/-- Steps 6 and 7: what a verified token is accepted as. -/
def accept (config : ConfiguredIssuer) (header : JwtHeader)
    (claims : WireClaims) (refusal : Option RefusalDetail)
    (scheme : TokenScheme) : Except AuthnError ValidatedClaims := do
  ensure (nonAccessTokenMarker header.typ claims).isNone
    (.invalidToken .notAnAccessToken)
  ensure refusal.isNone (.invalidToken .notAnAccessToken)
  let keyBinding ← keyBinding claims scheme
  let expiresAt ← okOr (.invalidToken .malformed) (expiresAt claims.exp)
  let aud ← okOr (.invalidToken .malformed) claims.aud
  return {
    issuer := config.issuer
    subject := claims.sub
    audiences := aud.intoVec
    expiresAt
    email := claims.email
    name := claims.name
    locale := claims.locale
    zoneinfo := claims.zoneinfo
    keyBinding }

def authenticate (token : String) (scheme : TokenScheme) :
    Except AuthnError ValidatedClaims :=
  authenticator.selectKey token >>= fun (config, alg, key) =>
    authenticator.verifiedClaims token config alg key >>=
      fun (header, claims, refusal) =>
        accept config header claims refusal scheme

end OidcAuthenticator

end Paigasus.Oidc
