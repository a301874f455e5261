import Paigasus.Core.Authn
import Paigasus.Dpop.ReplayStore

/-!
# The DPoP proof verifier

The checks of one `Introspect` and the one-time follow-up of `IsAuthorized`.
The JOSE checks, the hash function and the URL parser are parameters of the
verifier.  A call is split where the source leaves pure code: everything up to
the clock value it read, and then one store operation at that value.
-/

namespace Paigasus.Dpop

open Foundation Core

structure Jkt where
  asStr : String
deriving DecidableEq

/-- The verified token claims that the verifier reads. -/
structure ValidatedClaims where
  issuer : String
  subject : String
  keyBinding : Option Jkt
deriving DecidableEq

structure DpopRequest where
  proof : String
  method : String
  path : String
deriving DecidableEq

structure ProofClaims where
  jti : String
  iat : I64
  htm : String
  htu : String
deriving DecidableEq

structure FollowUpClaims where
  jti : String
  ath : String
deriving DecidableEq

/-- The stateless checks of a proof, behind their port. -/
structure DpopProofChecker where
  check : String → String → Jkt → Except ProofDefect ProofClaims
  followUpClaims : String → Except ProofDefect FollowUpClaims
  athMatches : String → String → Bool

/-- The parts of a parsed URL that are compared; a default port is `none`. -/
structure Url where
  scheme : String
  host : Option String
  port : Option UInt16
  path : String
deriving DecidableEq

structure ForwardedBase where
  scheme : String
  host : String
  port : Option UInt16
  pathPrefix : String
deriving DecidableEq

structure DpopProofVerifier where
  checker : DpopProofChecker
  store : InMemoryReplayStore
  blake3 : List UInt8 → Vector UInt8 32
  parseUrl : String → Option Url
  bases : List ForwardedBase
  iatWindowSecs : I64

/-- The follow-up ticket lives at least this long after `record`. -/
def minFollowUpSecs : I64 := 30

def asBytes (text : String) : List UInt8 :=
  text.toList.flatMap String.utf8EncodeChar

namespace ForwardedBase

/-- The URL that the client signed for `path` through this base. -/
def expected (parseUrl : String → Option Url) (base : ForwardedBase)
    (path : String) : Option Url :=
  let port := (base.port.map fun p => ":" ++ toString p).getD ""
  match parseUrl
      (base.scheme ++ "://" ++ base.host ++ port ++ base.pathPrefix ++ path) with
  | none => none
  | some url =>
      if url.scheme = base.scheme ∧ url.host = some base.host ∧
          url.port = base.port then
        some url
      else
        none

end ForwardedBase

def sameTarget (htu expected : Url) : Bool :=
  htu.scheme = expected.scheme ∧ htu.host = expected.host ∧
    htu.port = expected.port ∧ htu.path = expected.path

/-- Replaces every `%2e` by a dot, from left to right. -/
def decodeDots : List Char → List Char
  | '%' :: '2' :: 'e' :: rest => '.' :: decodeDots rest
  | char :: rest => char :: decodeDots rest
  | [] => []

def isDotSegment (segment : List Char) : Bool :=
  let decoded := decodeDots (segment.map Char.toLower)
  decoded = ['.'] ∨ decoded = ['.', '.']

def isControl (char : Char) : Bool :=
  char.toNat < 0x20 ∨ (0x7f ≤ char.toNat ∧ char.toNat ≤ 0x9f)

def pathIsWellFormed (path : String) : Bool :=
  path.toList.head? = some '/' &&
    !path.toList.any (fun char =>
      char = '?' || char = '#' || char = '\\' || isControl char) &&
    !(path.toList.splitOn '/').any isDotSegment

namespace DpopProofVerifier

variable (verifier : DpopProofVerifier)

def first16 (hash : Vector UInt8 32) : Vector UInt8 16 :=
  hash.take 16

/-- The first 16 bytes of the hash of `jkt || 0x00 || jti`. -/
def proofKey (jkt : Jkt) (jti : String) : ProofKey :=
  ⟨first16 (verifier.blake3 (asBytes jkt.asStr ++ [0] ++ asBytes jti))⟩

def subjectHash (claims : ValidatedClaims) : Vector UInt8 16 :=
  first16 (verifier.blake3
    (asBytes claims.issuer ++ [0] ++ asBytes claims.subject))

def jktHash (jkt : Jkt) : Vector UInt8 16 :=
  first16 (verifier.blake3 (asBytes jkt.asStr))

def proofDigest (proof : String) : Vector UInt8 32 :=
  verifier.blake3 (asBytes proof)

/-- Check 11: the proof matches when it matches one configured base. -/
def htuMatches (htu path : String) : Bool :=
  if pathIsWellFormed path = false then
    false
  else
    match verifier.parseUrl htu with
    | none => false
    | some htu =>
        (verifier.bases.filterMap
          (ForwardedBase.expected verifier.parseUrl · path)).any (sameTarget htu)

/-- Check 12: `some (iat + window)` when `|now - iat|` is within the window. -/
def iatWindowEnd (iat now : I64) : Option I64 :=
  match now.checkedSub iat with
  | none => none
  | some difference =>
      match difference.checkedAbs with
      | none => none
      | some skew =>
          if skew ≤ verifier.iatWindowSecs then
            some (iat.saturatingAdd verifier.iatWindowSecs)
          else
            none

/-- Checks 1 to 12 at the clock value `now`: the checked claims and the entry
that goes to the replay store. -/
def verifyChecks (claims : ValidatedClaims) (token : String)
    (request : DpopRequest) (now : I64) :
    Except AuthnError (ProofClaims × NewProof) :=
  match claims.keyBinding with
  | none => .error (.invalidToken .notKeyBound)
  | some jkt =>
      match verifier.checker.check request.proof token jkt with
      | .error defect => .error (.invalidDpopProof defect)
      | .ok proof =>
          if proof.htm ≠ request.method then
            .error (.invalidDpopProof .htm)
          else if verifier.htuMatches proof.htu request.path = false then
            .error (.invalidDpopProof .htu)
          else
            match verifier.iatWindowEnd proof.iat now with
            | none => .error (.invalidDpopProof .iat)
            | some expiresAt =>
                .ok (proof,
                  { key := verifier.proofKey jkt proof.jti
                    subject := verifier.subjectHash claims
                    jkt := verifier.jktHash jkt
                    expiresAt
                    followUpDeadline :=
                      max expiresAt (now.saturatingAdd minFollowUpSecs)
                    followUpDigest := verifier.proofDigest request.proof })

/-- The answer of `verify` to the outcome of the replay record (check 13). -/
def recordAnswer : RecordOutcome → Except AuthnError Unit
  | .fresh => .ok ()
  | .replayed => .error (.invalidDpopProof .replayed)
  | .quotaExceeded retryAfterSecs => .error (.dpopQuotaExceeded retryAfterSecs)
  | .capacityFull _ => .error .unavailable

/-- A `verify` call that is not interrupted between its two steps. -/
def verify (state : State) (claims : ValidatedClaims) (token : String)
    (request : DpopRequest) (now : I64) : State × Except AuthnError Unit :=
  match verifier.verifyChecks claims token request now with
  | .error refusal => (state, .error refusal)
  | .ok (_, entry) =>
      let (next, outcome) := verifier.store.record state entry now
      (next, recordAnswer outcome)

/-- The checks of `redeem` before its store operation. -/
def redeemChecks (claims : ValidatedClaims) (token proof : String) :
    Except AuthnError (ProofKey × Vector UInt8 32) :=
  match claims.keyBinding with
  | none => .error (.invalidToken .notKeyBound)
  | some jkt =>
      if proof = "" then
        .error (.invalidDpopProof .missing)
      else
        match verifier.checker.followUpClaims proof with
        | .error defect => .error (.invalidDpopProof defect)
        | .ok followUp =>
            if verifier.checker.athMatches followUp.ath token = false then
              .error (.invalidDpopProof .ath)
            else
              .ok (verifier.proofKey jkt followUp.jti,
                verifier.proofDigest proof)

def redeemAnswer : RedeemOutcome → Except AuthnError Unit
  | .redeemed => .ok ()
  | .refused => .error (.invalidDpopProof .followUp)

def redeem (state : State) (claims : ValidatedClaims) (token proof : String)
    (now : I64) : State × Except AuthnError Unit :=
  match verifier.redeemChecks claims token proof with
  | .error refusal => (state, .error refusal)
  | .ok (key, digest) =>
      let (next, outcome) :=
        InMemoryReplayStore.redeemFollowUp state key digest now
      (next, redeemAnswer outcome)

variable {verifier}

/-- A proof that passes the window check was signed at most one window before
the clock value, so its entry outlives that value. -/
theorem iatWindowEnd_spec {iat now expiresAt : I64}
    (passed : verifier.iatWindowEnd iat now = some expiresAt) :
    expiresAt = iat.saturatingAdd verifier.iatWindowSecs ∧
      now ≤ expiresAt := by
  unfold iatWindowEnd at passed
  split at passed
  · cases passed
  · rename_i difference subtracted
    split at passed
    · cases passed
    · rename_i skew absolute
      split at passed
      · rename_i inWindow
        cases passed
        refine ⟨rfl, I64.le_saturatingAdd ?_⟩
        have skewBound : skew.val ≤ verifier.iatWindowSecs.val := inWindow
        rw [I64.checkedAbs_eq_some.mp absolute,
          I64.checkedSub_eq_some.mp subtracted] at skewBound
        have ahead := le_abs_self (now.val - iat.val)
        omega
      · cases passed

theorem verifyChecks_spec {claims : ValidatedClaims} {token : String}
    {request : DpopRequest} {now : I64} {proof : ProofClaims}
    {entry : NewProof}
    (passed : verifier.verifyChecks claims token request now =
      .ok (proof, entry)) :
    ∃ jkt, claims.keyBinding = some jkt ∧
      verifier.checker.check request.proof token jkt = .ok proof ∧
      verifier.iatWindowEnd proof.iat now = some entry.expiresAt ∧
      entry.key = verifier.proofKey jkt proof.jti ∧
      entry.followUpDeadline =
        max entry.expiresAt (now.saturatingAdd minFollowUpSecs) ∧
      entry.followUpDigest = verifier.proofDigest request.proof := by
  unfold verifyChecks at passed
  split at passed
  · cases passed
  · rename_i jkt bound
    split at passed
    · cases passed
    · rename_i checkedProof checked
      split at passed
      · cases passed
      · split at passed
        · cases passed
        · split at passed
          · cases passed
          · rename_i expiresAt inWindow
            cases passed
            exact ⟨jkt, bound, checked, inWindow, rfl, rfl, rfl⟩

theorem redeemChecks_spec {claims : ValidatedClaims} {token proof : String}
    {key : ProofKey} {digest : Vector UInt8 32}
    (passed : verifier.redeemChecks claims token proof = .ok (key, digest)) :
    ∃ jkt followUp, claims.keyBinding = some jkt ∧
      verifier.checker.followUpClaims proof = .ok followUp ∧
      key = verifier.proofKey jkt followUp.jti ∧
      digest = verifier.proofDigest proof := by
  unfold redeemChecks at passed
  split at passed
  · cases passed
  · rename_i jkt bound
    split at passed
    · cases passed
    · split at passed
      · cases passed
      · rename_i followUp read
        split at passed
        · cases passed
        · cases passed
          exact ⟨jkt, followUp, bound, read, rfl, rfl⟩

end DpopProofVerifier

end Paigasus.Dpop
