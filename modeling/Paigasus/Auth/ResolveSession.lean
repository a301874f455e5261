import Paigasus.Foundation.Processes

/-!
# Resolving a session

`resolveSession` with its refresh under a lock and `handleLogout`, as processes
over one session of the store and the identity provider.  Every call of the
store or of the provider is one step; the lock may expire between any two.
-/

namespace Paigasus.Auth

open Foundation

structure IdTokenClaims where
  iss : String
  sub : String
deriving DecidableEq

structure SessionRecord where
  rev : Nat
  accessToken : String
  refreshToken : Option String
  accessExpiresAt : Int
  absoluteExpiresAt : Int
  idToken : String
  idTokenClaims : IdTokenClaims
deriving DecidableEq

structure RefreshedTokens where
  accessToken : String
  refreshToken : Option String
  expiresIn : Int
  rotatedIdToken : Option (String × IdTokenClaims)
deriving DecidableEq

inductive RefreshAnswer where
  | accepted (tokens : RefreshedTokens)
  | rejected
  | failed
deriving DecidableEq

structure Timings where
  skewMs : Int
  lockWaitMs : Int

def minAccessTtlBufferMs : Int := 1000

def shouldRefresh (now expiresAt skewMs : Int) : Bool := expiresAt - skewMs ≤ now

/-- Both expiries lie ahead. -/
def SessionRecord.isLive (record : SessionRecord) (now : Int) : Bool :=
  now < min record.accessExpiresAt record.absoluteExpiresAt

/-- A call of the token endpoint; `rotated` says that it was accepted and has
consumed the token. -/
structure RefreshCall where
  caller : Nat
  token : String
  rotated : Bool
deriving DecidableEq

/-- The session in the store, and the refresh tokens at the provider.  The last
three fields are history that no call reads. -/
structure World where
  stored : Option SessionRecord
  lock : Option Nat
  issued : List String
  consumed : List String
  revoked : List String
  revs : List Nat
  acquired : List Nat
  refreshes : List RefreshCall
deriving DecidableEq

namespace World

/-- The login has stored the record; nobody has read it. -/
def initial (record : Option SessionRecord) : World where
  stored := record
  lock := none
  issued := (record.bind SessionRecord.refreshToken).toList
  consumed := []
  revoked := []
  revs := (record.map SessionRecord.rev).toList
  acquired := []
  refreshes := []

def delete (world : World) : World := { world with stored := none }

/-- `SET_CAS` with the rev that is expected. -/
def set (world : World) (record : SessionRecord) (expected : Nat) :
    World × Bool :=
  if world.stored.map SessionRecord.rev = some expected then
    ({ world with stored := some record, revs := world.revs ++ [record.rev] },
      true)
  else
    (world, false)

def tryAcquireLock (world : World) (token : Nat) : World × Bool :=
  match world.lock with
  | some _ => (world, false)
  | none =>
      ({ world with lock := some token, acquired := world.acquired ++ [token] },
        true)

def releaseLock (world : World) (token : Nat) : World :=
  if world.lock = some token then { world with lock := none } else world

def revoke (world : World) (tokens : List String) : World :=
  { world with revoked := world.revoked ++ tokens }

/-- A refresh that the provider does not accept. -/
def refuses (world : World) (caller : Nat) (token : String) : World :=
  { world with refreshes := world.refreshes ++ [⟨caller, token, false⟩] }

/-- A refresh that the provider accepts: a token that differs is new, and the
presented one is consumed by it. -/
def accepts (world : World) (caller : Nat) (token : String)
    (tokens : RefreshedTokens) : Option World :=
  if token ∈ world.consumed then none
  else
    match tokens.refreshToken with
    | none =>
        some { world with
          refreshes := world.refreshes ++ [⟨caller, token, false⟩] }
    | some new =>
        if new = token then
          some { world with
            refreshes := world.refreshes ++ [⟨caller, token, false⟩] }
        else if new ∈ world.issued then none
        else
          some { world with
            issued := world.issued ++ [new]
            consumed := world.consumed ++ [token]
            refreshes := world.refreshes ++ [⟨caller, token, true⟩] }

end World

inductive RefreshState where
  | pending
  | failed
deriving DecidableEq

inductive ResolveError where
  | store
  | discovery
  | rejected
  | transient
deriving DecidableEq

/-- How a call of `resolveSession` ends. -/
inductive Resolved where
  | absent
  | session (record : SessionRecord) (refreshState : Option RefreshState)
  | throws (error : ResolveError)
deriving DecidableEq

inductive DeleteReason where
  | absoluteExpiry
  | noRefreshToken
  | refreshRejected
  | idTokenMismatch
  | persistFailed
deriving DecidableEq

/-- An accepted refresh: the record it was read from, the token it presented, the
response and the record to write. -/
structure Attempt where
  fresh : SessionRecord
  token : String
  tokens : RefreshedTokens
  next : SessionRecord
deriving DecidableEq

/-- The next call of the store or of the provider.  From `rechecking` to
`releasing` the caller believes that it holds the lock. -/
inductive Phase where
  | reading
  | expiring
  | preparing
  | rereadingUnprepared
  | locking (deadline : Int)
  | readingLast
  | sleeping (deadline : Int)
  | rereading (deadline : Int)
  | rechecking
  | refreshing (fresh : SessionRecord) (token : String)
  | writing (attempt : Attempt)
  | readingWinner (attempt : Attempt)
  | rewriting (attempt : Attempt) (rev : Nat)
  | deleting (reason : DeleteReason) (orphaned : List String)
      (result : Resolved)
  | releasing (orphaned : List String) (result : Resolved)
  | revoking (orphaned : List String) (result : Resolved)
  | finished (result : Resolved)
deriving DecidableEq

/-- What a step does not decide itself: the clock, whether the store (or, before
the lock, the discovery of the provider) fails, and the provider's answer. -/
structure StepInput where
  now : Int
  fails : Bool
  answer : RefreshAnswer
deriving DecidableEq

def transientRefreshFailure (record : SessionRecord) (now : Int)
    (error : ResolveError) : Resolved :=
  if record.isLive now then .session record (some .failed) else .throws error

/-- The record a refresh writes. -/
def nextRecord (timings : Timings) (fresh : SessionRecord)
    (tokens : RefreshedTokens) (now : Int) : SessionRecord :=
  let accessTtlMs :=
    max (tokens.expiresIn * 1000) (timings.skewMs + minAccessTtlBufferMs)
  { fresh with
    rev := fresh.rev + 1
    accessToken := tokens.accessToken
    refreshToken := tokens.refreshToken.or fresh.refreshToken
    accessExpiresAt := min (now + accessTtlMs) fresh.absoluteExpiresAt
    idToken := (tokens.rotatedIdToken.map Prod.fst).getD fresh.idToken }

def idTokenMismatch (fresh : SessionRecord) (tokens : RefreshedTokens) : Bool :=
  match tokens.rotatedIdToken with
  | none => false
  | some (_, claims) => claims.iss ≠ fresh.idTokenClaims.iss ||
      claims.sub ≠ fresh.idTokenClaims.sub

namespace Attempt

/-- The refresh token that no record will hold; one that equals the presented
token is not new. -/
def newRefreshToken (attempt : Attempt) : List String :=
  match attempt.tokens.refreshToken with
  | none => []
  | some new => if new = attempt.token then [] else [new]

/-- The record of the second write. -/
def rewritten (attempt : Attempt) (rev : Nat) : SessionRecord :=
  { attempt.next with rev := rev + 1 }

/-- What is revoked when the write has failed twice. -/
def unpersisted (attempt : Attempt) : List String :=
  attempt.newRefreshToken ++
    if attempt.tokens.refreshToken.all (· = attempt.token) then [attempt.token]
    else []

end Attempt

/-- What is revoked when the claims of the new ID token differ. -/
def mismatchOrphans (token : String) (tokens : RefreshedTokens) : List String :=
  match tokens.refreshToken with
  | none => [token]
  | some new => if new = token then [token] else [new, token]

namespace Phase

variable (timings : Timings) (id : Nat) (world : World) (input : StepInput)

def readStep : World × Phase :=
  match world.stored with
  | none => (world, .finished .absent)
  | some record =>
      if record.absoluteExpiresAt ≤ input.now then (world, .expiring)
      else if !shouldRefresh input.now record.accessExpiresAt timings.skewMs then
        (world, .finished (.session record none))
      else if record.refreshToken.isSome then (world, .preparing)
      else (world, .locking (input.now + timings.lockWaitMs))

def rereadUnpreparedStep : World × Phase :=
  match world.stored with
  | none => (world, .finished .absent)
  | some record =>
      if !shouldRefresh input.now record.accessExpiresAt timings.skewMs then
        (world, .finished (.session record none))
      else
        (world, .finished
          (transientRefreshFailure record input.now .discovery))

def lockStep (deadline : Int) : World × Phase :=
  match world.tryAcquireLock id with
  | (held, true) => (held, .rechecking)
  | (_, false) =>
      if deadline ≤ input.now then (world, .readingLast)
      else (world, .sleeping deadline)

def readLastStep : World × Phase :=
  match world.stored with
  | none => (world, .finished .absent)
  | some record =>
      if record.isLive input.now then
        (world, .finished (.session record (some .pending)))
      else
        (world, .finished .absent)

def rereadStep (deadline : Int) : World × Phase :=
  match world.stored with
  | none => (world, .finished .absent)
  | some record =>
      if !shouldRefresh input.now record.accessExpiresAt timings.skewMs then
        (world, .finished (.session record none))
      else
        (world, .locking deadline)

/-- The double check under the lock. -/
def recheckStep : World × Phase :=
  match world.stored with
  | none => (world, .releasing [] .absent)
  | some fresh =>
      if fresh.absoluteExpiresAt ≤ input.now then
        (world, .deleting .absoluteExpiry [] .absent)
      else if !shouldRefresh input.now fresh.accessExpiresAt timings.skewMs then
        (world, .releasing [] (.session fresh none))
      else
        match fresh.refreshToken with
        | none => (world, .deleting .noRefreshToken [] .absent)
        | some token => (world, .refreshing fresh token)

def refreshStep (fresh : SessionRecord) (token : String) :
    Option (World × Phase) :=
  match input.answer with
  | .rejected =>
      some (world.refuses id token,
        .deleting .refreshRejected [] (.throws .rejected))
  | .failed =>
      some (world.refuses id token,
        .releasing [] (transientRefreshFailure fresh input.now .transient))
  | .accepted tokens =>
      match world.accepts id token tokens with
      | none => none
      | some after =>
          if idTokenMismatch fresh tokens then
            some (after,
              .deleting .idTokenMismatch (mismatchOrphans token tokens) .absent)
          else
            some (after, .writing ⟨fresh, token, tokens,
              nextRecord timings fresh tokens input.now⟩)

def writeStep (attempt : Attempt) : World × Phase :=
  match world.set attempt.next attempt.fresh.rev with
  | (after, true) => (after, .releasing [] (.session attempt.next none))
  | (_, false) => (world, .readingWinner attempt)

def readWinnerStep (attempt : Attempt) : World × Phase :=
  match world.stored with
  | none => (world, .releasing attempt.newRefreshToken .absent)
  | some winner =>
      if winner.rev ≠ attempt.fresh.rev then
        (world, .releasing [] (.session winner none))
      else
        (world, .rewriting attempt winner.rev)

def rewriteStep (attempt : Attempt) (rev : Nat) : World × Phase :=
  match world.set (attempt.rewritten rev) rev with
  | (after, true) =>
      (after, .releasing [] (.session (attempt.rewritten rev) none))
  | (_, false) =>
      (world, .deleting .persistFailed attempt.unpersisted .absent)

/-- What follows the release: the revocations, if any. -/
def released (orphaned : List String) (result : Resolved) : Phase :=
  if orphaned = [] then .finished result else .revoking orphaned result

def step (phase : Phase) : Option (World × Phase) :=
  let storeFails := (world, Phase.finished (.throws .store))
  let storeFailsHeld := (world, Phase.releasing [] (.throws .store))
  match phase with
  | .reading =>
      some (if input.fails then storeFails else readStep timings world input)
  | .expiring =>
      some (if input.fails then storeFails
        else (world.delete, .finished .absent))
  | .preparing =>
      some (world, if input.fails then .rereadingUnprepared
        else .locking (input.now + timings.lockWaitMs))
  | .rereadingUnprepared =>
      some (if input.fails then storeFails
        else rereadUnpreparedStep timings world input)
  | .locking deadline =>
      some (if input.fails then storeFails
        else lockStep id world input deadline)
  | .readingLast =>
      some (if input.fails then storeFails else readLastStep world input)
  | .sleeping deadline => some (world, .rereading deadline)
  | .rereading deadline =>
      some (if input.fails then storeFails
        else rereadStep timings world input deadline)
  | .rechecking =>
      some (if input.fails then storeFailsHeld
        else recheckStep timings world input)
  | .refreshing fresh token => refreshStep timings id world input fresh token
  | .writing attempt =>
      some (if input.fails then storeFailsHeld else writeStep world attempt)
  | .readingWinner attempt =>
      some (if input.fails then storeFailsHeld
        else readWinnerStep world attempt)
  | .rewriting attempt rev =>
      some (if input.fails then storeFailsHeld
        else rewriteStep world attempt rev)
  | .deleting _ orphaned result =>
      some (if input.fails then (world, .releasing orphaned (.throws .store))
        else (world.delete, .releasing orphaned result))
  | .releasing orphaned result =>
      some (if input.fails then world else world.releaseLock id,
        released orphaned result)
  | .revoking orphaned result =>
      some (world.revoke orphaned, .finished result)
  | .finished _ => none

end Phase

inductive LogoutResult where
  | storeUnavailable
  | loggedOut
deriving DecidableEq

inductive LogoutPhase where
  | reading
  | deleting
  | revoking (result : LogoutResult)
  | finished (result : LogoutResult)
deriving DecidableEq

/-- A logout with a session cookie.  `read` is the refresh token it has found. -/
structure Logout where
  read : Option String
  phase : LogoutPhase
deriving DecidableEq

namespace Logout

def start : Logout := ⟨none, .reading⟩

/-- The revocation, if a token was found. -/
def ends (logout : Logout) (result : LogoutResult) : Logout :=
  { logout with
    phase := if logout.read.isSome then .revoking result else .finished result }

def step (world : World) (input : StepInput) (logout : Logout) :
    Option (World × Logout) :=
  match logout.phase with
  | .reading =>
      let read := if input.fails then none
        else world.stored.bind SessionRecord.refreshToken
      some (world, ⟨read, .deleting⟩)
  | .deleting =>
      if input.fails then some (world, logout.ends .storeUnavailable)
      else some (world.delete, logout.ends .loggedOut)
  | .revoking result =>
      some (world.revoke logout.read.toList,
        { logout with phase := .finished result })
  | .finished _ => none

end Logout

inductive Call where
  | resolve (phase : Phase)
  | logout (logout : Logout)
deriving DecidableEq

namespace Call

def starts : Call → Bool
  | .resolve phase => phase = .reading
  | .logout request => request = .start

def step (timings : Timings) (id : Nat) (world : World) (input : StepInput) :
    Call → Option (World × Call)
  | .resolve phase =>
      (phase.step timings id world input).map fun (after, next) =>
        (after, .resolve next)
  | .logout request =>
      (request.step world input).map fun (after, next) => (after, .logout next)

end Call

inductive Expiry where
  | lock
deriving DecidableEq

def sessions (timings : Timings) : Program World Call StepInput Expiry where
  starts := Call.starts
  step id world call input := call.step timings id world input
  outside world _ := some { world with lock := none }

end Paigasus.Auth
