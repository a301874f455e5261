import Paigasus.Core.Tenancy

/-!
# Authentication values

Principals, API keys and the error taxonomy of authentication.
-/

namespace Paigasus.Core

open Foundation

inductive TokenDefect where
  | malformed
  | unsupportedAlg
  | unknownKid
  | badSignature
  | expired
  | notYetValid
  | issuerNotConfigured
  | audienceMismatch
  | oversized
  | notAnAccessToken
  | senderConstrained
  | notKeyBound
deriving DecidableEq

/-- How the caller presented its token. -/
inductive TokenScheme where
  | bearer
  | dpop
deriving DecidableEq

inductive ProofDefect where
  | missing
  | malformed
  | typ
  | alg
  | jwk
  | signature
  | htm
  | htu
  | iat
  | ath
  | thumbprint
  | replayed
  | followUp
deriving DecidableEq

/-- The authentication errors of the API-key and DPoP checks. -/
inductive AuthnError where
  | invalidToken (defect : TokenDefect)
  | invalidDpopProof (defect : ProofDefect)
  | dpopQuotaExceeded (retryAfterSecs : Nat)
  | unavailable
  | principalInactive
  | backend
deriving DecidableEq

inductive PrincipalKind where
  | user
  | serviceAccount
deriving DecidableEq

inductive PrincipalStatus where
  | active
  | disabled
deriving DecidableEq

structure Principal where
  id : PrincipalId
  kind : PrincipalKind
  status : PrincipalStatus
deriving DecidableEq

inductive ApiKeyStatus where
  | active
  | revoked
deriving DecidableEq

/-- The columns of an API key that its validation reads. -/
structure ApiKey where
  id : Uuid
  serviceAccountId : PrincipalId
  scope : TenancyNodeRef
  status : ApiKeyStatus
  expiresAt : Option Timestamp
deriving DecidableEq

/-- Why a presented API key was rejected. -/
inductive ApiKeyDefect where
  | malformed
  | badSecret
  | revoked
  | expired
deriving DecidableEq

/-- The authenticated service account behind an API key. -/
structure AuthnPrincipal where
  principalId : PrincipalId
  kind : PrincipalKind
  status : PrincipalStatus
  keyId : Uuid
  expiresAt : Option Timestamp
  scopePrn : String
deriving DecidableEq

end Paigasus.Core
