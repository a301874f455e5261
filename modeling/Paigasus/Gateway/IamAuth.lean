import Paigasus.Core.Tenancy
import Paigasus.Foundation.Traced
import Paigasus.Gateway.ChargeGuard
import Paigasus.Kernel.Grammar

/-!
# The admission of a request

Before the protected handler runs, the middleware reads the credential of the
request, introspects it, resolves the scope, and asks whether the caller itself
may invoke a model there.  A bearer credential may be an API key or an access
token, and both are tried; a credential with a proof is a token.  The identity
service is a port that answers as it likes.
-/

namespace Paigasus.Gateway.IamAuth

open Foundation Kernel Core

/-- The header fields in their order, under names in lower case. -/
abbrev HeaderMap : Type := List (String × List UInt8)

def HeaderMap.getAll (headers : HeaderMap) (name : String) :
    List (List UInt8) :=
  (headers.filter fun field => field.1 = name).map Prod.snd

def HeaderMap.get (headers : HeaderMap) (name : String) :
    Option (List UInt8) :=
  (headers.getAll name).head?

def isVisibleAscii (byte : UInt8) : Bool :=
  32 ≤ byte && byte < 127 || byte = 9

/-- The text of a header value of visible characters, blanks and tabs. -/
def toStr (value : List UInt8) : Option String :=
  if value.all isVisibleAscii then
    some (String.ofList (value.map fun byte => Char.ofNat byte.toNat))
  else
    none

/-- The parts before and after the first separator. -/
def splitOnce (separator : Char) : List Char → Option (List Char × List Char)
  | [] => none
  | char :: rest =>
      if char = separator then
        some ([], rest)
      else
        (splitOnce separator rest).map fun (before, after) =>
          (char :: before, after)

def trim (text : List Char) : List Char :=
  ((text.dropWhile Char.isWhitespace).reverse.dropWhile
    Char.isWhitespace).reverse

def eqIgnoreAsciiCase (left right : List Char) : Bool :=
  left.map Char.toLower = right.map Char.toLower

structure Request where
  headers : HeaderMap
  method : String
  uriPath : String
  /-- The path as the outermost router received it. -/
  originalPath : Option String

inductive ProofHeader where
  | one (proof : String)
  | missing
  | invalid
deriving DecidableEq

inductive Credentials where
  | bearer (token : String)
  | dpop (token : String) (proof : ProofHeader)
deriving DecidableEq

def dpopHeader : String := "dpop"

def proofHeader (headers : HeaderMap) : ProofHeader :=
  match headers.getAll dpopHeader with
  | [] => .missing
  | [value] =>
      match toStr value with
      | some proof => if proof ≠ "" then .one proof else .invalid
      | none => .invalid
  | _ => .invalid

/-- The credential of the `Authorization` header; a proof counts only when the
gateway accepts proofs. -/
def credentials (headers : HeaderMap) (dpopEnabled : Bool) :
    Option Credentials := do
  let value ← (headers.get "authorization").bind toStr
  let (scheme, rest) ← splitOnce ' ' value.toList
  let token := trim rest
  if token = [] then
    none
  else if eqIgnoreAsciiCase scheme "Bearer".toList then
    return .bearer (String.ofList token)
  else if dpopEnabled && eqIgnoreAsciiCase scheme "DPoP".toList then
    return .dpop (String.ofList token) (proofHeader headers)
  else
    none

/-! ## The identity service -/

/-- The status codes of a remote call. -/
inductive Code where
  | ok
  | cancelled
  | unknown
  | invalidArgument
  | deadlineExceeded
  | notFound
  | alreadyExists
  | permissionDenied
  | resourceExhausted
  | failedPrecondition
  | aborted
  | outOfRange
  | unimplemented
  | internal
  | unavailable
  | dataLoss
  | unauthenticated
deriving DecidableEq

structure ErrorInfo where
  reason : String
  domain : String
deriving DecidableEq

/-- A status with the details that are read of it; the delay is in whole
seconds. -/
structure Status where
  code : Code
  errorInfo : Option ErrorInfo
  retryDelay : Option Nat
deriving DecidableEq

inductive IamError where
  | connect
  | rpc (status : Status)
deriving DecidableEq

structure IntrospectApiKeyResponse where
  principalPrn : String
  status : String
  keyId : String
  scopePrn : String
deriving DecidableEq

/-- The nodes are those of the memberships, the scopes those of the grants. -/
structure IntrospectResponse where
  principalPrn : String
  status : String
  membershipNodePrns : List String
  roleGrantScopePrns : List String
deriving DecidableEq

def IntrospectResponse.nodePrns (user : IntrospectResponse) : List String :=
  user.membershipNodePrns ++ user.roleGrantScopePrns

structure DpopContext where
  proof : String
  method : String
  path : String
deriving DecidableEq

/-- The credential that the self-query presents. -/
inductive CallerCredential where
  | apiKey (secret : String)
  | bearer (token : String)
  | dpop (token proof : String)
deriving DecidableEq

/-- The port.  A request makes each of these calls at most once. -/
structure Iam where
  introspectApiKey : String → Except IamError IntrospectApiKeyResponse
  introspectToken :
    String → Option DpopContext → Except IamError IntrospectResponse
  isAuthorizedSelf :
    CallerCredential → String → String → String → Except IamError Bool

/-- A call of the port, with its answer. -/
inductive IamCall where
  | introspectApiKey (token : String)
      (answer : Except IamError IntrospectApiKeyResponse)
  | introspectToken (token : String) (dpop : Option DpopContext)
      (answer : Except IamError IntrospectResponse)
  | isAuthorizedSelf (caller : CallerCredential)
      (principalPrn action resourcePrn : String)
      (answer : Except IamError Bool)

/-! ## Refusals -/

/-- The cases of `GatewayError` on this path. -/
inductive AuthError where
  | missingBearer
  | invalidCredential
  | invalidDpopProof
  | authzDenied
  | missingScope
  | iamUnavailable
  | internal
  | invalidOrgHeader
  | orgRequired
  | rateLimited (retryAfterSecs : Nat)
deriving DecidableEq

/-- What the error envelope holds. -/
structure ErrorParts where
  status : Nat
  type : String
  code : String
  param : Option String
  message : String
deriving DecidableEq

namespace AuthError

def parts : AuthError → ErrorParts
  | missingBearer =>
      ⟨401, "invalid_request_error", "missing-authorization", none,
        "Missing bearer credentials in the Authorization header."⟩
  | invalidCredential =>
      ⟨401, "invalid_request_error", "invalid-api-key", none,
        "Invalid credential."⟩
  | invalidDpopProof =>
      ⟨401, "invalid_request_error", "invalid-dpop-proof", none,
        "Invalid DPoP proof."⟩
  | authzDenied =>
      ⟨403, "invalid_request_error", "insufficient-permissions", none,
        "The caller is not permitted to perform this action."⟩
  | missingScope =>
      ⟨500, "api_error", "missing-scope", none, "Internal error."⟩
  | iamUnavailable =>
      ⟨503, "api_error", "iam-unavailable", none,
        "The authorization service is temporarily unavailable."⟩
  | internal => ⟨500, "api_error", "internal", none, "Internal error."⟩
  | invalidOrgHeader =>
      ⟨400, "invalid_request_error", "invalid-org-header",
        some "paigasus-org",
        "The paigasus-org header must hold exactly one organization UUID in " ++
          "the 36-character form."⟩
  | orgRequired =>
      ⟨400, "invalid_request_error", "org-required", some "paigasus-org",
        "Send the paigasus-org header with the organization UUID: the gateway " ++
          "cannot choose one organization for this user."⟩
  | rateLimited _ =>
      ⟨429, "requests", "rate-limited", none,
        "Too many requests. Wait for the number of seconds in the Retry-After " ++
          "header, then try again."⟩

def status (error : AuthError) : Nat := error.parts.status

end AuthError

def iamDomain : String := "iam.paigasus.io"

def principalInactive : String := "principal-inactive"

def provisioningFailed : String := "provisioning-failed"

def invalidDpopProofReason : String := "invalid-dpop-proof"

def dpopQuotaExceeded : String := "dpop-quota-exceeded"

/-- The reason of a status, read on the domain of the identity service only. -/
def iamReasonQuiet (status : Status) : Option String :=
  match status.errorInfo with
  | none => none
  | some info => if info.domain = iamDomain then some info.reason else none

/-- The same reason, with a warning where the status carries none. -/
def iamReason (status : Status) : Option String :=
  if status.errorInfo.isNone then none else iamReasonQuiet status

def isDpopQuota (status : Status) : Bool :=
  status.code = .resourceExhausted &&
    iamReasonQuiet status = some dpopQuotaExceeded

def u32Max : Nat := 2 ^ 32 - 1

def retryAfterSecs (status : Status) : Nat :=
  match status.retryDelay with
  | none => 1
  | some delay => max (if delay ≤ u32Max then delay else u32Max) 1

def unauthenticatedError (status : Status) : AuthError :=
  if iamReasonQuiet status = some invalidDpopProofReason then
    .invalidDpopProof
  else
    .invalidCredential

def resourceExhaustedError (status : Status) : AuthError :=
  if isDpopQuota status then .rateLimited (retryAfterSecs status)
  else .iamUnavailable

/-- An outage of the key leg keeps a rejected credential from being final. -/
def preserveOutage (apiKeyInconclusive : Bool) (mapped : AuthError) :
    AuthError :=
  match mapped with
  | .invalidCredential =>
      if apiKeyInconclusive then .iamUnavailable else .invalidCredential
  | other => other

def introspectError : IamError → AuthError
  | .connect => .iamUnavailable
  | .rpc status =>
      match status.code with
      | .unauthenticated => unauthenticatedError status
      | .permissionDenied => .invalidCredential
      | .resourceExhausted => resourceExhaustedError status
      | _ => .iamUnavailable

def authzError : IamError → AuthError
  | .connect => .iamUnavailable
  | .rpc status =>
      match status.code with
      | .permissionDenied =>
          match iamReason status with
          | some reason =>
              if reason = principalInactive ∨ reason = provisioningFailed then
                .invalidCredential
              else
                .internal
          | none => .internal
      | .unauthenticated => unauthenticatedError status
      | .resourceExhausted => resourceExhaustedError status
      | _ => .iamUnavailable

/-! ## The organization -/

/-- What the organization header of a request held. -/
inductive OrgHeader where
  | absent
  | one (value : String)
  | many
deriving DecidableEq

inductive OrgResolutionError where
  | invalidOrgHeader
  | orgRequired
deriving DecidableEq

/-- The 36-character form only. -/
def parseOrgUuid (value : String) : Option Uuid :=
  if value.utf8ByteSize ≠ 36 then none else Uuid.tryParse value.toList

/-- The name that the kernel builds for an organization; `build_orgPrn`. -/
def orgPrn (id : Uuid) : Prn :=
  nodePrn none "organization" id organization_isValidLabel

/-- The one organization that the names seen so far and the rest belong to. -/
def inferOrg (found : Option Uuid) :
    List String → Except OrgResolutionError Prn
  | [] =>
      match found with
      | some org => .ok (orgPrn org)
      | none => .error .orgRequired
  | raw :: rest =>
      match orgOf raw with
      | none => inferOrg found rest
      | some org =>
          match found with
          | none => inferOrg (some org) rest
          | some existing =>
              if existing = org then inferOrg found rest
              else .error .orgRequired

def resolveOrg (header : OrgHeader) (nodePrns : List String) :
    Except OrgResolutionError Prn :=
  match header with
  | .many => .error .invalidOrgHeader
  | .one value =>
      match parseOrgUuid value with
      | some id => .ok (orgPrn id)
      | none => .error .invalidOrgHeader
  | .absent => inferOrg none nodePrns

def AuthError.ofOrgResolution : OrgResolutionError → AuthError
  | .invalidOrgHeader => .invalidOrgHeader
  | .orgRequired => .orgRequired

def orgHeaderName : String := "paigasus-org"

def orgHeader (headers : HeaderMap) : Except AuthError OrgHeader :=
  match headers.getAll orgHeaderName with
  | [] => .ok .absent
  | [value] =>
      match toStr value with
      | some text => .ok (.one text)
      | none => .error .invalidOrgHeader
  | _ => .ok .many

/-! ## The middleware -/

inductive Credential where
  | apiKey (keyId : String)
  | oidc
deriving DecidableEq

structure CallerContext extends Gateway.CallerContext where
  credential : Credential

structure AuthState where
  iam : Iam
  dpopEnabled : Bool

/-- A part of the admission: the calls it makes, and its value or a refusal. -/
abbrev Admission (Value : Type) : Type := Traced IamCall AuthError Value

def invokeModelAction : String := "InvokeModel"

def proofValue : ProofHeader → Admission String
  | .one proof => pure proof
  | .missing | .invalid => Traced.refuse .invalidDpopProof

def dpopContext (request : Request) (proof : String) : DpopContext where
  proof := proof
  method := request.method
  path := request.originalPath.getD request.uriPath

def authorizeSelf (iam : Iam) (caller : CallerCredential)
    (principalPrn scopePrn : String) : Admission Unit := do
  let answer :=
    iam.isAuthorizedSelf caller principalPrn invokeModelAction scopePrn
  Traced.record (.isAuthorizedSelf caller principalPrn invokeModelAction
    scopePrn answer)
  match answer with
  | .ok true => return ()
  | .ok false => Traced.refuse .authzDenied
  | .error error => Traced.refuse (authzError error)

def resolvedScope (headers : HeaderMap) (user : IntrospectResponse) :
    Admission String :=
  match orgHeader headers with
  | .error error => Traced.refuse error
  | .ok header =>
      match resolveOrg header user.nodePrns with
      | .error error => Traced.refuse (.ofOrgResolution error)
      | .ok prn => pure prn.canonical

def oidcCaller (iam : Iam) (caller : CallerCredential)
    (user : IntrospectResponse) (request : Request) :
    Admission CallerContext := do
  let orgPrn ← resolvedScope request.headers user
  authorizeSelf iam caller user.principalPrn orgPrn
  return ⟨⟨user.principalPrn, orgPrn⟩, .oidc⟩

def apiKeyCaller (iam : Iam) (token : String)
    (response : IntrospectApiKeyResponse) : Admission CallerContext :=
  if response.scopePrn = "" then
    Traced.refuse .missingScope
  else do
    authorizeSelf iam (.apiKey token) response.principalPrn response.scopePrn
    return ⟨⟨response.principalPrn, response.scopePrn⟩,
      .apiKey response.keyId⟩

/-- The second leg of a bearer credential. -/
def bearerTokenLeg (iam : Iam) (token : String) (apiKeyInconclusive : Bool)
    (request : Request) : Admission CallerContext := do
  let answer := iam.introspectToken token none
  Traced.record (.introspectToken token none answer)
  match answer with
  | .ok user =>
      if user.status = "active" then
        oidcCaller iam (.bearer token) user request
      else
        Traced.refuse (preserveOutage apiKeyInconclusive .invalidCredential)
  | .error error =>
      Traced.refuse (preserveOutage apiKeyInconclusive (introspectError error))

def bearerIamAuth (iam : Iam) (token : String) (request : Request) :
    Admission CallerContext := do
  let answer := iam.introspectApiKey token
  Traced.record (.introspectApiKey token answer)
  match answer with
  | .ok response =>
      if response.status = "active" then
        apiKeyCaller iam token response
      else
        bearerTokenLeg iam token false request
  | .error error =>
      bearerTokenLeg iam token (introspectError error = .iamUnavailable)
        request

/-- The scheme with a proof has no key leg. -/
def dpopIamAuth (iam : Iam) (token : String) (header : ProofHeader)
    (request : Request) : Admission CallerContext := do
  let proof ← proofValue header
  let context := dpopContext request proof
  let answer := iam.introspectToken token (some context)
  Traced.record (.introspectToken token (some context) answer)
  match answer with
  | .ok user =>
      if user.status = "active" then
        oidcCaller iam (.dpop token proof) user request
      else
        Traced.refuse .invalidCredential
  | .error error => Traced.refuse (introspectError error)

def iamAuth (iam : Iam) (presented : Option Credentials)
    (request : Request) : Admission CallerContext :=
  match presented with
  | none => Traced.refuse .missingBearer
  | some (.bearer token) => bearerIamAuth iam token request
  | some (.dpop token proof) => dpopIamAuth iam token proof request

inductive SchemeUsed where
  | none
  | bearer
  | dpop
deriving DecidableEq

def SchemeUsed.of : Option Credentials → SchemeUsed
  | .none => .none
  | some (.bearer _) => .bearer
  | some (.dpop _ _) => .dpop

/-- The value of the challenge header; only a 401 carries one, and only when
the gateway accepts proofs. -/
def dpopChallenge (dpopEnabled : Bool) (scheme : SchemeUsed)
    (error : AuthError) : Option String :=
  if !dpopEnabled || error.status ≠ 401 then
    none
  else
    match scheme, error with
    | .dpop, .invalidDpopProof =>
        some "DPoP error=\"invalid_dpop_proof\", algs=\"ES256 RS256\""
    | .dpop, _ => some "DPoP error=\"invalid_token\", algs=\"ES256 RS256\""
    | _, _ => some "DPoP algs=\"ES256 RS256\""

/-- How the request goes on: the protected handler runs for the caller, or the
middleware answers. -/
inductive Response where
  | handled (caller : CallerContext)
  | refused (error : AuthError) (challenge : Option String)

def admission (auth : AuthState) (request : Request) :
    Admission CallerContext :=
  iamAuth auth.iam (credentials request.headers auth.dpopEnabled) request

def requireIamAuth (auth : AuthState) (request : Request) : Response :=
  match (admission auth request).outcome with
  | .ok caller => .handled caller
  | .error error =>
      .refused error (dpopChallenge auth.dpopEnabled
        (.of (credentials request.headers auth.dpopEnabled)) error)

/-! ## What an admission rests on -/

/-- The scope that a request may name for a token: the organization of its one
header, or else the only organization among its memberships and grants. -/
inductive ScopeOf (headers : HeaderMap) (user : IntrospectResponse) :
    String → Prop
  | header (value : List UInt8) (text : String) (id : Uuid)
      (only : headers.getAll orgHeaderName = [value])
      (visible : toStr value = some text)
      (isUuid : parseOrgUuid text = some id) :
      ScopeOf headers user (orgPrn id).canonical
  | inferred (id : Uuid) (absent : headers.getAll orgHeaderName = [])
      (named : ∃ raw ∈ user.nodePrns, orgOf raw = some id)
      (only : ∀ raw ∈ user.nodePrns, ∀ other, orgOf raw = some other →
        other = id) :
      ScopeOf headers user (orgPrn id).canonical

/-- The calls of one request justify the caller: its own credential was
introspected as active, and the same credential was allowed the action for the
same principal in the scope. -/
inductive Admitted (headers : HeaderMap) (calls : List IamCall) :
    Option Credentials → CallerContext → Prop
  | apiKey (token : String) (response : IntrospectApiKeyResponse)
      (introspected : .introspectApiKey token (.ok response) ∈ calls)
      (active : response.status = "active")
      (authorized : .isAuthorizedSelf (.apiKey token) response.principalPrn
        "InvokeModel" response.scopePrn (.ok true) ∈ calls) :
      Admitted headers calls (some (.bearer token))
        ⟨⟨response.principalPrn, response.scopePrn⟩, .apiKey response.keyId⟩
  | bearer (token : String) (user : IntrospectResponse) (scope : String)
      (introspected : .introspectToken token none (.ok user) ∈ calls)
      (active : user.status = "active")
      (resolved : ScopeOf headers user scope)
      (authorized : .isAuthorizedSelf (.bearer token) user.principalPrn
        "InvokeModel" scope (.ok true) ∈ calls) :
      Admitted headers calls (some (.bearer token))
        ⟨⟨user.principalPrn, scope⟩, .oidc⟩
  | dpop (token proof : String) (context : DpopContext)
      (user : IntrospectResponse) (scope : String)
      (sameProof : context.proof = proof)
      (introspected : .introspectToken token (some context) (.ok user) ∈ calls)
      (active : user.status = "active")
      (resolved : ScopeOf headers user scope)
      (authorized : .isAuthorizedSelf (.dpop token proof) user.principalPrn
        "InvokeModel" scope (.ok true) ∈ calls) :
      Admitted headers calls (some (.dpop token (.one proof)))
        ⟨⟨user.principalPrn, scope⟩, .oidc⟩

/-- The call presents the token with the proof, and is not one of the key
leg. -/
inductive IamCall.Presents (token proof : String) : IamCall → Prop
  | introspection (context : DpopContext)
      (answer : Except IamError IntrospectResponse)
      (sameProof : context.proof = proof) :
      Presents token proof (.introspectToken token (some context) answer)
  | followUp (principalPrn action resourcePrn : String)
      (answer : Except IamError Bool) :
      Presents token proof (.isAuthorizedSelf (.dpop token proof) principalPrn
        action resourcePrn answer)

/-- A judgement of the credential or of its client, as opposed to a failure to
reach one. -/
def IamError.isVerdict : IamError → Bool
  | .connect => false
  | .rpc status =>
      status.code = .unauthenticated || status.code = .permissionDenied ||
        isDpopQuota status

def Judged {Value : Type} (answer : Except IamError Value) : Prop :=
  ∀ error, answer = .error error → error.isVerdict = true

/-- The two introspections that may accept a bearer credential. -/
inductive Leg where
  | apiKey
  | token
deriving DecidableEq

namespace IamCall

/-- The leg answered that the credential is an active one of its kind. -/
def Accepts : Leg → IamCall → Prop
  | .apiKey, .introspectApiKey _ (.ok response) => response.status = "active"
  | .token, .introspectToken _ _ (.ok user) => user.status = "active"
  | _, _ => False

/-- The leg was asked and reached a verdict. -/
def Judges : Leg → IamCall → Prop
  | .apiKey, .introspectApiKey _ answer => Judged answer
  | .token, .introspectToken _ _ answer => Judged answer
  | _, _ => False

end IamCall

/-- Every leg that could have accepted the credential reached a verdict, and so
did the self-query if it was made.  Once a leg has accepted the credential as
its own, the other could not have. -/
structure FairlyJudged (calls : List IamCall) : Prop where
  legs : ∀ leg, (∀ other, other ≠ leg → ∀ call ∈ calls,
    ¬ call.Accepts other) → ∃ call ∈ calls, call.Judges leg
  selfQuery : ∀ caller principalPrn action resourcePrn answer,
    .isAuthorizedSelf caller principalPrn action resourcePrn answer ∈ calls →
      Judged answer

/-- Admission is justified, a proof stays with its token, and a 401 is the
caller's own. -/
structure Sound (auth : AuthState) (request : Request) : Prop where
  justified : ∀ caller, requireIamAuth auth request = .handled caller →
    Admitted request.headers (admission auth request).calls
      (credentials request.headers auth.dpopEnabled) caller
  confined : ∀ token header,
    credentials request.headers auth.dpopEnabled = some (.dpop token header) →
      ∀ call ∈ (admission auth request).calls,
        ∃ proof, header = .one proof ∧ call.Presents token proof
  blameless : (∀ token header,
      credentials request.headers auth.dpopEnabled ≠
        some (.dpop token header)) →
    ∀ error challenge,
      requireIamAuth auth request = .refused error challenge →
        error.status = 401 →
          credentials request.headers auth.dpopEnabled = none ∨
            FairlyJudged (admission auth request).calls

/-- The key leg of a bearer credential failed to reach a verdict, and the token
leg, which was sent no proof, refused a proof. -/
def ProofRefusedDuringOutage (auth : AuthState) (request : Request) : Prop :=
  ∃ token, credentials request.headers auth.dpopEnabled =
      some (.bearer token) ∧
    (∃ error, auth.iam.introspectApiKey token = .error error ∧
      error.isVerdict = false) ∧
    ∃ status, auth.iam.introspectToken token none = .error (.rpc status) ∧
      status.code = .unauthenticated ∧
      iamReasonQuiet status = some invalidDpopProofReason

/-! ## The mappings of errors -/

/-- Exactly the answers without a verdict are reported as an outage. -/
theorem introspectError_unavailable_iff {error : IamError} :
    introspectError error = .iamUnavailable ↔ error.isVerdict = false := by
  cases error with
  | connect => simp [introspectError, IamError.isVerdict]
  | rpc status =>
      obtain ⟨code, errorInfo, retryDelay⟩ := status
      cases code with
      | unauthenticated =>
          simp only [introspectError, unauthenticatedError, IamError.isVerdict]
          split <;> simp
      | resourceExhausted =>
          simp only [introspectError, resourceExhaustedError,
            IamError.isVerdict]
          split
          case isTrue quota => simp [quota]
          case isFalse other => simp [other]
      | _ => simp [introspectError, IamError.isVerdict, isDpopQuota]

theorem introspectError_judged {error : IamError}
    (rejected : (introspectError error).status = 401) :
    error.isVerdict = true := by
  cases verdict : error.isVerdict with
  | true => rfl
  | false =>
      rw [introspectError_unavailable_iff.mpr verdict] at rejected
      cases rejected

theorem introspectError_proof_iff {error : IamError} :
    introspectError error = .invalidDpopProof ↔
      ∃ status, error = .rpc status ∧ status.code = .unauthenticated ∧
        iamReasonQuiet status = some invalidDpopProofReason := by
  cases error with
  | connect => simp [introspectError]
  | rpc status =>
      obtain ⟨code, errorInfo, retryDelay⟩ := status
      cases code with
      | unauthenticated =>
          simp only [introspectError, unauthenticatedError]
          split
          case isTrue refused => simp [refused]
          case isFalse other => simp [other]
      | resourceExhausted =>
          simp only [introspectError, resourceExhaustedError]
          split <;> simp
      | _ => simp [introspectError]

theorem introspectError_ne_missing (error : IamError) :
    introspectError error ≠ .missingBearer := by
  cases error with
  | connect => simp [introspectError]
  | rpc status =>
      obtain ⟨code, errorInfo, retryDelay⟩ := status
      cases code with
      | unauthenticated =>
          simp only [introspectError, unauthenticatedError]
          split <;> simp
      | resourceExhausted =>
          simp only [introspectError, resourceExhaustedError]
          split <;> simp
      | _ => simp [introspectError]

theorem authzError_judged {error : IamError}
    (rejected : (authzError error).status = 401) : error.isVerdict = true := by
  cases error with
  | connect => cases rejected
  | rpc status =>
      obtain ⟨code, errorInfo, retryDelay⟩ := status
      cases code with
      | unauthenticated => rfl
      | permissionDenied => rfl
      | resourceExhausted =>
          simp only [authzError, resourceExhaustedError] at rejected
          split at rejected
          case isTrue quota => simp [IamError.isVerdict, quota]
          case isFalse other => cases rejected
      | _ => cases rejected

/-- A 401 of the token leg stays one in an outage of the key leg only when it is
a refused proof. -/
theorem preserveOutage_401 {mapped : AuthError} {inconclusive : Bool}
    (rejected : (preserveOutage inconclusive mapped).status = 401) :
    mapped.status = 401 ∧ (inconclusive = true →
      mapped = .invalidDpopProof ∨ mapped = .missingBearer) := by
  cases inconclusive with
  | false =>
      refine ⟨?_, fun impossible => by cases impossible⟩
      cases mapped <;> exact rejected
  | true =>
      cases mapped <;> simp_all [preserveOutage, AuthError.status,
        AuthError.parts]

/-! ## The scope -/

theorem parse_canonical_of_short {prn : Prn}
    (short : prn.canonical.utf8ByteSize ≤ maxLen) :
    Prn.parse prn.canonical = .ok prn := by
  have spells : Prn.Spells prn.canonical prn
      (String.ofList (Prn.orgText prn.org))
      (String.ofList prn.resourceId.hyphenated) := by
    refine ⟨Prn.candidate_eq_spell _ _ _ _ _, ?_, ?_, short⟩
    · rw [String.toList_ofList]
      exact Prn.parseOrgField_orgText prn.org
    · rw [String.toList_ofList, Prn.parseUuidField_eq]
      exact Uuid.tryParse_hyphenated prn.resourceId
  exact spells.parse

/-- The builder of the kernel returns the name, so its result can be relied
on. -/
theorem build_orgPrn (id : Uuid) :
    Prn.build "iam" "" none "organization" id = .ok (orgPrn id) := by
  have size : (orgPrn id).canonical.utf8ByteSize = 63 := by
    unfold Prn.canonical
    rw [Prn.candidate_eq_spell, Prn.utf8ByteSize_spell,
      Prn.utf8ByteSize_hyphenated]
    rfl
  have short : (orgPrn id).canonical.utf8ByteSize ≤ maxLen := by
    rw [size]
    decide
  have read := parse_canonical_of_short short
  unfold Prn.canonical at read
  unfold Prn.build
  exact read

/-- What was found so far is the only organization named so far. -/
theorem inferOrg_ok {found : Option Uuid} {nodePrns : List String} {prn : Prn}
    (inferred : inferOrg found nodePrns = .ok prn) :
    ∃ id, prn = orgPrn id ∧
      (found = some id ∨ ∃ raw ∈ nodePrns, orgOf raw = some id) ∧
      (∀ existing, found = some existing → existing = id) ∧
      ∀ raw ∈ nodePrns, ∀ other, orgOf raw = some other → other = id := by
  induction nodePrns generalizing found with
  | nil =>
      cases found with
      | none => cases inferred
      | some org =>
          cases inferred
          refine ⟨org, rfl, .inl rfl, ?_, ?_⟩
          · intro existing same
            exact (Option.some.inj same).symm
          · intro raw member
            cases member
  | cons raw rest ih =>
      unfold inferOrg at inferred
      cases named : orgOf raw with
      | none =>
          rw [named] at inferred
          obtain ⟨id, isPrn, source, onlyFound, onlyRest⟩ := ih inferred
          refine ⟨id, isPrn, ?_, onlyFound, ?_⟩
          · rcases source with isFound | ⟨other, member, isId⟩
            · exact .inl isFound
            · exact .inr ⟨other, List.mem_cons_of_mem _ member, isId⟩
          · intro other member value isValue
            rcases List.mem_cons.mp member with rfl | member
            · rw [named] at isValue
              cases isValue
            · exact onlyRest other member value isValue
      | some org =>
          rw [named] at inferred
          have rest_ok : inferOrg (some org) rest = .ok prn ∧
              ∀ existing, found = some existing → existing = org := by
            cases found with
            | none => exact ⟨inferred, fun _ impossible => by cases impossible⟩
            | some existing =>
                simp only at inferred
                split at inferred
                case isTrue same =>
                  subst same
                  refine ⟨inferred, ?_⟩
                  intro other isOther
                  exact (Option.some.inj isOther).symm
                case isFalse different => cases inferred
          obtain ⟨id, isPrn, _, onlyFound, onlyRest⟩ := ih rest_ok.1
          have isId : org = id := onlyFound org rfl
          subst isId
          refine ⟨org, isPrn, .inr ⟨raw, List.mem_cons_self, named⟩,
            rest_ok.2, ?_⟩
          intro other member value isValue
          rcases List.mem_cons.mp member with rfl | member
          · rw [named] at isValue
            exact (Option.some.inj isValue).symm
          · exact onlyRest other member value isValue

section Scope

variable {headers : HeaderMap} {user : IntrospectResponse}

theorem orgHeader_cases (headers : HeaderMap) :
    (headers.getAll orgHeaderName = [] ∧ orgHeader headers = .ok .absent) ∨
      (∃ value text, headers.getAll orgHeaderName = [value] ∧
        toStr value = some text ∧ orgHeader headers = .ok (.one text)) ∨
      orgHeader headers = .error .invalidOrgHeader ∨
      orgHeader headers = .ok .many := by
  unfold orgHeader
  cases fields : headers.getAll orgHeaderName with
  | nil => exact .inl ⟨rfl, rfl⟩
  | cons value rest =>
      cases rest with
      | cons second others => exact .inr (.inr (.inr rfl))
      | nil =>
          cases visible : toStr value with
          | none => simp [visible]
          | some text =>
              exact .inr (.inl ⟨value, text, rfl, visible, by simp [visible]⟩)

theorem resolvedScope_ok {scope : String}
    (resolved : (resolvedScope headers user).outcome = .ok scope) :
    ScopeOf headers user scope := by
  unfold resolvedScope at resolved
  rcases orgHeader_cases headers with
    ⟨absent, read⟩ | ⟨value, text, only, visible, read⟩ | read | read
  · simp only [read, resolveOrg] at resolved
    cases inferred : inferOrg none user.nodePrns with
    | error error =>
        rw [inferred] at resolved
        cases resolved
    | ok prn =>
        rw [inferred] at resolved
        cases resolved
        obtain ⟨id, rfl, source, _, onlyNamed⟩ := inferOrg_ok inferred
        rcases source with impossible | named
        · cases impossible
        · exact .inferred id absent named onlyNamed
  · simp only [read, resolveOrg] at resolved
    cases isUuid : parseOrgUuid text with
    | none =>
        rw [isUuid] at resolved
        cases resolved
    | some id =>
        rw [isUuid] at resolved
        cases resolved
        exact .header value text id only visible isUuid
  · rw [read] at resolved
    cases resolved
  · rw [read] at resolved
    cases resolved

theorem resolvedScope_calls : (resolvedScope headers user).calls = [] := by
  unfold resolvedScope
  split
  case h_1 error failed => rfl
  case h_2 header read =>
    split <;> rfl

theorem ofOrgResolution_status (error : OrgResolutionError) :
    (AuthError.ofOrgResolution error).status = 400 := by
  cases error <;> rfl

/-- A scope that cannot be resolved is not a 401. -/
theorem resolvedScope_error {error : AuthError}
    (failed : (resolvedScope headers user).outcome = .error error) :
    error.status = 400 := by
  unfold resolvedScope at failed
  split at failed
  case h_1 refusal unread =>
    cases failed
    rcases orgHeader_cases headers with
      ⟨_, read⟩ | ⟨_, _, _, _, read⟩ | read | read
    · rw [read] at unread
      cases unread
    · rw [read] at unread
      cases unread
    · rw [read] at unread
      cases unread
      rfl
    · rw [read] at unread
      cases unread
  case h_2 header read =>
    split at failed
    case h_1 refusal unresolved =>
      cases failed
      exact ofOrgResolution_status refusal
    case h_2 prn resolved => cases failed

end Scope

/-! ## The self-query -/

/-- Every self-query among the calls reached a verdict. -/
def SelfQueriesJudged (calls : List IamCall) : Prop :=
  ∀ caller principalPrn action resourcePrn answer,
    .isAuthorizedSelf caller principalPrn action resourcePrn answer ∈ calls →
      Judged answer

/-- The only calls are self-queries with the given credential. -/
def OnlySelfQueries (caller : CallerCredential) (calls : List IamCall) : Prop :=
  ∀ call ∈ calls, ∃ principalPrn action resourcePrn answer,
    call = .isAuthorizedSelf caller principalPrn action resourcePrn answer

section SelfQuery

variable {iam : Iam} {caller : CallerCredential}
  {principalPrn scopePrn token : String}

theorem authorizeSelf_calls :
    (authorizeSelf iam caller principalPrn scopePrn).calls =
      [.isAuthorizedSelf caller principalPrn invokeModelAction scopePrn
        (iam.isAuthorizedSelf caller principalPrn invokeModelAction
          scopePrn)] := by
  unfold authorizeSelf
  rw [Traced.record_bind_calls]
  split <;> rfl

theorem authorizeSelf_outcome :
    (authorizeSelf iam caller principalPrn scopePrn).outcome =
      match iam.isAuthorizedSelf caller principalPrn invokeModelAction
        scopePrn with
      | .ok true => .ok ()
      | .ok false => .error .authzDenied
      | .error error => .error (authzError error) := by
  unfold authorizeSelf
  rw [Traced.record_bind_outcome]
  split <;> rfl

theorem authorizeSelf_ok
    (passed : (authorizeSelf iam caller principalPrn scopePrn).outcome =
      .ok ()) :
    .isAuthorizedSelf caller principalPrn "InvokeModel" scopePrn (.ok true) ∈
      (authorizeSelf iam caller principalPrn scopePrn).calls := by
  rw [authorizeSelf_outcome] at passed
  rw [authorizeSelf_calls]
  split at passed
  case h_1 allowed =>
    rw [allowed]
    exact List.mem_cons_self
  case h_2 denied => cases passed
  case h_3 error failed => cases passed

theorem authorizeSelf_401 {error : AuthError}
    (failed : (authorizeSelf iam caller principalPrn scopePrn).outcome =
      .error error) (rejected : error.status = 401) :
    SelfQueriesJudged
      (authorizeSelf iam caller principalPrn scopePrn).calls := by
  intro other otherPrincipal action resourcePrn answer member
  rw [authorizeSelf_calls] at member
  cases List.mem_singleton.mp member
  rw [authorizeSelf_outcome] at failed
  intro refusal isRefusal
  rw [isRefusal] at failed
  cases failed
  exact authzError_judged rejected

theorem authorizeSelf_only :
    OnlySelfQueries caller
      (authorizeSelf iam caller principalPrn scopePrn).calls := by
  intro call member
  rw [authorizeSelf_calls] at member
  exact ⟨_, _, _, _, List.mem_singleton.mp member⟩

variable {user : IntrospectResponse} {request : Request}
  {context : CallerContext} {error : AuthError}
  {response : IntrospectApiKeyResponse}

theorem oidcCaller_ok
    (admitted : (oidcCaller iam caller user request).outcome = .ok context) :
    ∃ scope, context = ⟨⟨user.principalPrn, scope⟩, .oidc⟩ ∧
      ScopeOf request.headers user scope ∧
      .isAuthorizedSelf caller user.principalPrn "InvokeModel" scope
        (.ok true) ∈ (oidcCaller iam caller user request).calls := by
  unfold oidcCaller at admitted ⊢
  obtain ⟨scope, resolved, passed⟩ := Traced.bind_outcome_ok.mp admitted
  obtain ⟨_, authorized, returned⟩ := Traced.bind_outcome_ok.mp passed
  cases returned
  refine ⟨scope, rfl, resolvedScope_ok resolved, ?_⟩
  apply Traced.mem_bind_calls.mpr
  refine .inr ⟨scope, resolved, ?_⟩
  exact Traced.mem_bind_calls.mpr (.inl (authorizeSelf_ok authorized))

theorem oidcCaller_only :
    OnlySelfQueries caller (oidcCaller iam caller user request).calls := by
  intro call member
  unfold oidcCaller at member
  rcases Traced.mem_bind_calls.mp member with early | ⟨scope, _, late⟩
  · rw [resolvedScope_calls] at early
    cases early
  · rcases Traced.mem_bind_calls.mp late with asked | ⟨_, _, none⟩
    · exact authorizeSelf_only call asked
    · cases none

theorem oidcCaller_401
    (failed : (oidcCaller iam caller user request).outcome = .error error)
    (rejected : error.status = 401) :
    SelfQueriesJudged (oidcCaller iam caller user request).calls := by
  unfold oidcCaller at failed ⊢
  rcases Traced.bind_outcome_error.mp failed with
    unresolved | ⟨scope, resolved, later⟩
  · rw [resolvedScope_error unresolved] at rejected
    cases rejected
  · rcases Traced.bind_outcome_error.mp later with unauthorized | ⟨_, _, none⟩
    · intro other principal action resource answer member
      rcases Traced.mem_bind_calls.mp member with early | ⟨same, isSame, late⟩
      · rw [resolvedScope_calls] at early
        cases early
      · rw [resolved] at isSame
        cases isSame
        rcases Traced.mem_bind_calls.mp late with asked | ⟨_, _, none⟩
        · exact authorizeSelf_401 unauthorized rejected _ _ _ _ _ asked
        · cases none
    · cases none

theorem apiKeyCaller_ok
    (admitted : (apiKeyCaller iam token response).outcome = .ok context) :
    context = ⟨⟨response.principalPrn, response.scopePrn⟩,
        .apiKey response.keyId⟩ ∧
      .isAuthorizedSelf (.apiKey token) response.principalPrn "InvokeModel"
        response.scopePrn (.ok true) ∈
          (apiKeyCaller iam token response).calls := by
  unfold apiKeyCaller at admitted ⊢
  split at admitted
  case isTrue missing => cases admitted
  case isFalse present =>
    rw [if_neg present]
    obtain ⟨_, authorized, returned⟩ := Traced.bind_outcome_ok.mp admitted
    cases returned
    exact ⟨rfl, Traced.mem_bind_calls.mpr (.inl (authorizeSelf_ok authorized))⟩

theorem apiKeyCaller_401
    (failed : (apiKeyCaller iam token response).outcome = .error error)
    (rejected : error.status = 401) :
    SelfQueriesJudged (apiKeyCaller iam token response).calls := by
  unfold apiKeyCaller at failed ⊢
  split at failed
  case isTrue missing =>
    cases failed
    cases rejected
  case isFalse present =>
    rw [if_neg present]
    rcases Traced.bind_outcome_error.mp failed with unauthorized | ⟨_, _, none⟩
    · intro other principal action resource answer member
      rcases Traced.mem_bind_calls.mp member with asked | ⟨_, _, none⟩
      · exact authorizeSelf_401 unauthorized rejected _ _ _ _ _ asked
      · cases none
    · cases none

end SelfQuery

/-! ## The legs -/

section Legs

variable {iam : Iam} {token : String} {request : Request}

/-- What a token leg that did not accept maps its answer to. -/
def tokenRefusal : Except IamError IntrospectResponse → AuthError
  | .ok _ => .invalidCredential
  | .error error => introspectError error

theorem tokenRefusal_judged {answer : Except IamError IntrospectResponse}
    (rejected : (tokenRefusal answer).status = 401) : Judged answer := by
  intro error isError
  subst isError
  exact introspectError_judged rejected

/-- The token leg accepts and asks for itself, or refuses. -/
theorem bearerTokenLeg_cases (iam : Iam) (token : String)
    (inconclusive : Bool) (request : Request) :
    (∃ user, iam.introspectToken token none = .ok user ∧
      user.status = "active" ∧
      bearerTokenLeg iam token inconclusive request =
        ⟨.introspectToken token none (.ok user) ::
            (oidcCaller iam (.bearer token) user request).calls,
          (oidcCaller iam (.bearer token) user request).outcome⟩) ∨
    (¬ (IamCall.introspectToken token none
        (iam.introspectToken token none)).Accepts .token ∧
      bearerTokenLeg iam token inconclusive request =
        ⟨[.introspectToken token none (iam.introspectToken token none)],
          .error (preserveOutage inconclusive
            (tokenRefusal (iam.introspectToken token none)))⟩) := by
  unfold bearerTokenLeg
  cases answered : iam.introspectToken token none with
  | error error => exact .inr ⟨id, rfl⟩
  | ok user =>
      by_cases active : user.status = "active"
      · refine .inl ⟨user, rfl, active, ?_⟩
        simp only [active, if_true]
        rfl
      · refine .inr ⟨active, ?_⟩
        simp only [active, if_false]
        rfl

/-- The key leg accepts and asks for itself, or the token leg follows. -/
theorem bearerIamAuth_cases (iam : Iam) (token : String) (request : Request) :
    (∃ response, iam.introspectApiKey token = .ok response ∧
      response.status = "active" ∧
      bearerIamAuth iam token request =
        ⟨.introspectApiKey token (.ok response) ::
            (apiKeyCaller iam token response).calls,
          (apiKeyCaller iam token response).outcome⟩) ∨
    (¬ (IamCall.introspectApiKey token
        (iam.introspectApiKey token)).Accepts .apiKey ∧
      ∃ inconclusive, (inconclusive = true ↔
          ∃ error, iam.introspectApiKey token = .error error ∧
            error.isVerdict = false) ∧
        bearerIamAuth iam token request =
          ⟨.introspectApiKey token (iam.introspectApiKey token) ::
              (bearerTokenLeg iam token inconclusive request).calls,
            (bearerTokenLeg iam token inconclusive request).outcome⟩) := by
  unfold bearerIamAuth
  cases answered : iam.introspectApiKey token with
  | error error =>
      refine .inr ⟨id, decide (introspectError error = .iamUnavailable), ?_,
        rfl⟩
      rw [decide_eq_true_iff, introspectError_unavailable_iff]
      constructor
      · intro noVerdict
        exact ⟨error, rfl, noVerdict⟩
      · rintro ⟨_, same, noVerdict⟩
        cases same
        exact noVerdict
  | ok response =>
      by_cases active : response.status = "active"
      · refine .inl ⟨response, rfl, active, ?_⟩
        simp only [active, if_true]
        rfl
      · refine .inr ⟨active, false, ?_, ?_⟩
        · simp
        · simp only [active, if_false]
          rfl

theorem bearer_justified {caller : CallerContext}
    (admitted : (bearerIamAuth iam token request).outcome = .ok caller) :
    Admitted request.headers (bearerIamAuth iam token request).calls
      (some (.bearer token)) caller := by
  rcases bearerIamAuth_cases iam token request with
    ⟨response, answered, active, taken⟩ | ⟨_, inconclusive, _, taken⟩
  · rw [taken] at admitted ⊢
    obtain ⟨rfl, authorized⟩ := apiKeyCaller_ok admitted
    exact .apiKey token response List.mem_cons_self active
      (List.mem_cons_of_mem _ authorized)
  · rw [taken] at admitted ⊢
    rcases bearerTokenLeg_cases iam token inconclusive request with
      ⟨user, answered, active, followed⟩ | ⟨_, followed⟩
    · rw [followed] at admitted ⊢
      obtain ⟨scope, rfl, resolved, authorized⟩ := oidcCaller_ok admitted
      exact .bearer token user scope
        (List.mem_cons_of_mem _ List.mem_cons_self) active resolved
        (List.mem_cons_of_mem _ (List.mem_cons_of_mem _ authorized))
    · rw [followed] at admitted
      cases admitted

theorem SelfQueriesJudged.cons {calls : List IamCall} {call : IamCall}
    (judged : SelfQueriesJudged calls)
    (introspection : ∀ caller principalPrn action resourcePrn answer,
      call ≠ .isAuthorizedSelf caller principalPrn action resourcePrn answer) :
    SelfQueriesJudged (call :: calls) := by
  intro caller principalPrn action resourcePrn answer member
  rcases List.mem_cons.mp member with same | member
  · exact absurd same.symm (introspection _ _ _ _ _)
  · exact judged _ _ _ _ _ member

theorem selfQueriesJudged_nil : SelfQueriesJudged [] := by
  intro _ _ _ _ _ member
  cases member

/-- Where a leg accepted the credential, a 401 is fair when the self-query
reached a verdict. -/
theorem fairlyJudged_of_accepted {calls : List IamCall} {call : IamCall}
    {leg : Leg} (member : call ∈ calls) (accepted : call.Accepts leg)
    (judges : call.Judges leg) (queries : SelfQueriesJudged calls) :
    FairlyJudged calls := by
  refine ⟨?_, queries⟩
  intro other couldAccept
  by_cases same : leg = other
  · subst same
    exact ⟨call, member, judges⟩
  · exact absurd accepted (couldAccept leg same call member)

/-- A 401 for a bearer credential is fair, unless a refused proof hides an
outage of the key leg. -/
theorem bearer_fairlyJudged {error : AuthError}
    (failed : (bearerIamAuth iam token request).outcome = .error error)
    (rejected : error.status = 401)
    (visible : ¬ ((∃ error, iam.introspectApiKey token = .error error ∧
        error.isVerdict = false) ∧
      ∃ status, iam.introspectToken token none = .error (.rpc status) ∧
        status.code = .unauthenticated ∧
        iamReasonQuiet status = some invalidDpopProofReason)) :
    FairlyJudged (bearerIamAuth iam token request).calls := by
  rcases bearerIamAuth_cases iam token request with
    ⟨response, answered, active, taken⟩ | ⟨_, inconclusive, outage, taken⟩
  · rw [taken] at failed ⊢
    have accepted : (IamCall.introspectApiKey token
        (.ok response)).Accepts .apiKey := active
    apply fairlyJudged_of_accepted List.mem_cons_self accepted
    · intro _ impossible
      cases impossible
    · apply (apiKeyCaller_401 failed rejected).cons
      intro _ _ _ _ _ impossible
      cases impossible
  · rw [taken] at failed ⊢
    rcases bearerTokenLeg_cases iam token inconclusive request with
      ⟨user, answered, active, followed⟩ | ⟨_, followed⟩
    · rw [followed] at failed ⊢
      have accepted : (IamCall.introspectToken token none
          (.ok user)).Accepts .token := active
      apply fairlyJudged_of_accepted
        (List.mem_cons_of_mem _ List.mem_cons_self) accepted
      · intro _ impossible
        cases impossible
      · apply SelfQueriesJudged.cons
        · apply (oidcCaller_401 failed rejected).cons
          intro _ _ _ _ _ impossible
          cases impossible
        · intro _ _ _ _ _ impossible
          cases impossible
    · rw [followed] at failed ⊢
      cases failed
      obtain ⟨refused, proof⟩ := preserveOutage_401 rejected
      have keyJudged : Judged (iam.introspectApiKey token) := by
        intro error isError
        cases verdict : error.isVerdict with
        | true => rfl
        | false =>
            have out := outage.mpr ⟨error, isError, verdict⟩
            rcases proof out with isProof | isMissing
            · exfalso
              apply visible
              refine ⟨⟨error, isError, verdict⟩, ?_⟩
              cases answered : iam.introspectToken token none with
              | ok user =>
                  rw [answered] at isProof
                  cases isProof
              | error tokenError =>
                  rw [answered] at isProof
                  obtain ⟨status, rfl, details⟩ :=
                    introspectError_proof_iff.mp isProof
                  exact ⟨status, rfl, details⟩
            · exfalso
              revert isMissing
              cases iam.introspectToken token none with
              | ok user => simp [tokenRefusal]
              | error tokenError =>
                  exact introspectError_ne_missing tokenError
      refine ⟨?_, ?_⟩
      · intro leg _
        cases leg with
        | apiKey => exact ⟨_, List.mem_cons_self, keyJudged⟩
        | token =>
            exact ⟨_, List.mem_cons_of_mem _ List.mem_cons_self,
              tokenRefusal_judged refused⟩
      · apply SelfQueriesJudged.cons
        · apply selfQueriesJudged_nil.cons
          intro _ _ _ _ _ impossible
          cases impossible
        · intro _ _ _ _ _ impossible
          cases impossible

end Legs

/-! ## The scheme with a proof -/

section Dpop

variable {iam : Iam} {token : String} {request : Request}

/-- Without a proof there is no call; with one there is the token leg. -/
theorem dpopIamAuth_cases (iam : Iam) (token : String) (header : ProofHeader)
    (request : Request) :
    dpopIamAuth iam token header request = ⟨[], .error .invalidDpopProof⟩ ∨
    ∃ proof, header = .one proof ∧
      ((∃ user, user.status = "active" ∧
        dpopIamAuth iam token header request =
          ⟨.introspectToken token (some (dpopContext request proof))
                (.ok user) ::
              (oidcCaller iam (.dpop token proof) user request).calls,
            (oidcCaller iam (.dpop token proof) user request).outcome⟩) ∨
      ∃ answer error, dpopIamAuth iam token header request =
        ⟨[.introspectToken token (some (dpopContext request proof)) answer],
          .error error⟩) := by
  unfold dpopIamAuth
  cases header with
  | missing => exact .inl rfl
  | invalid => exact .inl rfl
  | one proof =>
      refine .inr ⟨proof, rfl, ?_⟩
      have returned : (proofValue (.one proof)).outcome = .ok proof := rfl
      rw [Traced.bind_of_ok returned]
      simp only [proofValue, Traced.pure_calls, List.nil_append]
      cases answered : iam.introspectToken token
          (some (dpopContext request proof)) with
      | error error => exact .inr ⟨_, _, rfl⟩
      | ok user =>
          by_cases active : user.status = "active"
          · refine .inl ⟨user, active, ?_⟩
            simp only [active, if_true]
            rfl
          · refine .inr ⟨.ok user, .invalidCredential, ?_⟩
            simp only [active, if_false]
            rfl

theorem dpop_justified {header : ProofHeader} {caller : CallerContext}
    (admitted : (dpopIamAuth iam token header request).outcome =
      .ok caller) :
    Admitted request.headers (dpopIamAuth iam token header request).calls
      (some (.dpop token header)) caller := by
  rcases dpopIamAuth_cases iam token header request with
    taken | ⟨proof, rfl, ⟨user, active, taken⟩ | ⟨answer, error, taken⟩⟩
  · rw [taken] at admitted
    cases admitted
  · rw [taken] at admitted ⊢
    obtain ⟨scope, rfl, resolved, authorized⟩ := oidcCaller_ok admitted
    exact .dpop token proof _ user scope rfl List.mem_cons_self active
      resolved (List.mem_cons_of_mem _ authorized)
  · rw [taken] at admitted
    cases admitted

theorem dpop_confined (header : ProofHeader) :
    ∀ call ∈ (dpopIamAuth iam token header request).calls,
      ∃ proof, header = .one proof ∧ call.Presents token proof := by
  intro call member
  rcases dpopIamAuth_cases iam token header request with
    taken | ⟨proof, rfl, ⟨user, active, taken⟩ | ⟨answer, error, taken⟩⟩
  · rw [taken] at member
    cases member
  · rw [taken] at member
    refine ⟨proof, rfl, ?_⟩
    rcases List.mem_cons.mp member with rfl | followUp
    · exact .introspection _ _ rfl
    · obtain ⟨_, _, _, _, rfl⟩ := oidcCaller_only call followUp
      exact .followUp _ _ _ _
  · rw [taken] at member
    cases List.mem_singleton.mp member
    exact ⟨proof, rfl, .introspection _ _ rfl⟩

end Dpop

section Admission

variable {auth : AuthState} {request : Request}

theorem requireIamAuth_handled {caller : CallerContext} :
    requireIamAuth auth request = .handled caller ↔
      (admission auth request).outcome = .ok caller := by
  unfold requireIamAuth
  cases (admission auth request).outcome with
  | ok admitted => simp
  | error error => simp

theorem requireIamAuth_refused {error : AuthError}
    (failed : (admission auth request).outcome = .error error) :
    ∃ challenge, requireIamAuth auth request = .refused error challenge := by
  unfold requireIamAuth
  rw [failed]
  exact ⟨_, rfl⟩

theorem outcome_of_refused {error : AuthError} {challenge : Option String}
    (refused : requireIamAuth auth request = .refused error challenge) :
    (admission auth request).outcome = .error error := by
  unfold requireIamAuth at refused
  split at refused
  case h_1 caller admitted => cases refused
  case h_2 other failed =>
    cases refused
    exact failed

theorem admission_justified {caller : CallerContext}
    (handled : requireIamAuth auth request = .handled caller) :
    Admitted request.headers (admission auth request).calls
      (credentials request.headers auth.dpopEnabled) caller := by
  have admitted := requireIamAuth_handled.mp handled
  unfold admission iamAuth at admitted ⊢
  cases presented : credentials request.headers auth.dpopEnabled with
  | none =>
      rw [presented] at admitted
      cases admitted
  | some credential =>
      rw [presented] at admitted
      cases credential with
      | bearer token => exact bearer_justified admitted
      | dpop token header => exact dpop_justified admitted

/-- The port refused a proof that it was not sent, and the refusal hides an
outage. -/
theorem not_sound_of_outage
    (outage : ProofRefusedDuringOutage auth request) :
    ¬ Sound auth request := by
  obtain ⟨token, presented, ⟨keyError, keyAnswer, noVerdict⟩, status,
    tokenAnswer, unauthenticated, reason⟩ := outage
  intro sound
  have refusal : introspectError (.rpc status) = .invalidDpopProof :=
    introspectError_proof_iff.mpr ⟨status, rfl, unauthenticated, reason⟩
  have keyMapped : introspectError keyError = .iamUnavailable :=
    introspectError_unavailable_iff.mpr noVerdict
  have taken : admission auth request =
      ⟨[.introspectApiKey token (.error keyError),
          .introspectToken token none (.error (.rpc status))],
        .error .invalidDpopProof⟩ := by
    unfold admission iamAuth
    rw [presented]
    simp only [bearerIamAuth, keyAnswer]
    simp only [bearerTokenLeg, tokenAnswer, refusal]
    rfl
  have failed : (admission auth request).outcome =
      .error .invalidDpopProof := by
    rw [taken]
  obtain ⟨challenge, refused⟩ := requireIamAuth_refused failed
  have notDpop : ∀ token header,
      credentials request.headers auth.dpopEnabled ≠
        some (.dpop token header) := by
    intro other header isDpop
    rw [presented] at isDpop
    cases isDpop
  rcases sound.blameless notDpop _ _ refused rfl with absent | fair
  · rw [presented] at absent
    cases absent
  · rw [taken] at fair
    have notAccepted : ∀ other, other ≠ Leg.apiKey → ∀ call ∈
        [IamCall.introspectApiKey token (.error keyError),
          .introspectToken token none (.error (.rpc status))],
        ¬ call.Accepts other := by
      intro other _ call member accepted
      rcases List.mem_cons.mp member with rfl | member
      · cases other <;> cases accepted
      · cases List.mem_singleton.mp member
        cases other <;> cases accepted
    obtain ⟨call, member, judges⟩ := fair.legs .apiKey notAccepted
    rcases List.mem_cons.mp member with rfl | member
    · have verdict := judges keyError rfl
      rw [noVerdict] at verdict
      cases verdict
    · cases List.mem_singleton.mp member
      cases judges

/-- Admission is sound for every request and every behaviour of the port, but
where the port refuses a proof that it was not sent during an outage of the key
leg. -/
theorem admission_sound_iff (auth : AuthState) (request : Request) :
    Sound auth request ↔ ¬ ProofRefusedDuringOutage auth request := by
  constructor
  · intro sound outage
    exact not_sound_of_outage outage sound
  · intro visible
    constructor
    · intro caller handled
      exact admission_justified handled
    · intro token header presented call member
      unfold admission iamAuth at member
      rw [presented] at member
      exact dpop_confined header call member
    · intro notDpop error challenge refused rejected
      have failed := outcome_of_refused refused
      unfold admission iamAuth at failed ⊢
      cases presented : credentials request.headers auth.dpopEnabled with
      | none => exact .inl rfl
      | some credential =>
          rw [presented] at failed
          cases credential with
          | dpop token header => exact absurd presented (notDpop token header)
          | bearer token =>
              refine .inr (bearer_fairlyJudged failed rejected ?_)
              intro hidden
              exact visible ⟨token, presented, hidden⟩

end Admission

section Outage

/-- The key leg is down, and the token leg refuses a proof. -/
def outageIam : Iam where
  introspectApiKey := fun _ => .error (.rpc ⟨.unavailable, none, none⟩)
  introspectToken := fun _ _ => .error (.rpc ⟨.unauthenticated,
    some ⟨"invalid-dpop-proof", "iam.paigasus.io"⟩, none⟩)
  isAuthorizedSelf := fun _ _ _ _ => .ok false

def keyRequest : Request where
  headers := [("authorization", utf8 "Bearer pgs_sk_k1")]
  method := "POST"
  uriPath := "/v1/chat/completions"
  originalPath := none

/-- The caller of an API key that could not be checked is told that it has no
valid credential. -/
theorem outage_blames_caller :
    credentials keyRequest.headers true = some (.bearer "pgs_sk_k1") ∧
      requireIamAuth ⟨outageIam, true⟩ keyRequest =
        .refused .invalidDpopProof (some "DPoP algs=\"ES256 RS256\"") ∧
      AuthError.invalidDpopProof.status = 401 ∧
      ¬ Sound ⟨outageIam, true⟩ keyRequest := by
  have presented : credentials keyRequest.headers true =
      some (.bearer "pgs_sk_k1") := by
    decide
  have outage : ProofRefusedDuringOutage ⟨outageIam, true⟩ keyRequest :=
    ⟨"pgs_sk_k1", presented, ⟨_, rfl, rfl⟩, _, rfl, rfl, rfl⟩
  have refused : requireIamAuth ⟨outageIam, true⟩ keyRequest =
      .refused .invalidDpopProof (some "DPoP algs=\"ES256 RS256\"") := by
    unfold requireIamAuth admission iamAuth
    simp only [presented]
    rfl
  exact ⟨presented, refused, rfl, not_sound_of_outage outage⟩

end Outage

end Paigasus.Gateway.IamAuth
