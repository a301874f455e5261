import Paigasus.Auth.RouteHandlers
import Paigasus.Foundation.Transition
import Mathlib.Logic.Function.Basic

/-!
# Logins, callbacks and logouts against one store and one provider

Browsers send logins, callbacks and logouts, with any state, code and cookies
they know.  A handler runs on the answers it will get, and the system takes one
call of one handler after the other: a call is enabled where its answer is what
the store and the identity provider say at that time, or where the store fails.
-/

namespace Paigasus.Auth

open Foundation Traced

namespace Binding

structure AuthorizationRequest where
  url : String
  codeVerifier : String
  nonce : String
deriving DecidableEq

inductive AuthorizationReply where
  | built (authorization : AuthorizationRequest)
  | discoveryFailed
  | failed
deriving DecidableEq

inductive LoginCall where
  | buildAuthorizationUrl (redirectUri state : String)
      (reply : AuthorizationReply)
  | putTransaction (txnId : String) (tx : LoginTransaction) (ttlMs : Nat)
      (reply : StoreStep Unit)
  | delete (sid : String) (reply : StoreStep Unit)

/-- How the promise of a login is rejected: by the provider's metadata, or by
`Headers`. -/
inductive LoginError where
  | authorizationFailed
  | typeError
deriving DecidableEq

/-- What a login reads of a request; `requested` is its validated return
target. -/
structure LoginRequest where
  cookies : List (String × String)
  fetchMode : Option String
  requested : String

structure LoginAnswers where
  txnId : String
  secret : String
  authorization : AuthorizationReply
  put : StoreStep Unit
  deleted : StoreStep Unit
  now : Int

/-- The runtime with the hash of secrets, the bytes of a text in base64url and
the path of a return target, its dots resolved and its slashes collapsed. -/
structure LoginRuntime extends AuthRuntime where
  hashSecret : String → String
  base64urlBytes : String → ByteArray
  resolvedPath : String → String
  /-- Bytes of two lengths differ, so the check of the lengths is left out. -/
  matches_iff : ∀ secret expected,
    secretMatchesHash secret expected = true ↔
      base64urlBytes (hashSecret secret) = base64urlBytes expected

def txnTtlMs : Nat := 10 * 60 * 1000

def maxOutstandingTxnCookies : Nat := 4

def authRouteSuffixes : List String :=
  ["/auth/login", "/auth/callback", "/auth/logout", "/auth/logout/callback"]

def isAuthRoutePath (basePath path : String) : Bool :=
  authRouteSuffixes.any fun suffix =>
    path = basePath ++ suffix ||
      (basePath ++ suffix ++ "/").toList.isPrefixOf path.toList

section Login

variable (runtime : LoginRuntime) (request : LoginRequest)
  (answers : LoginAnswers)

/-- The cookies of the oldest transactions, cleared to make room for one. -/
def evicted : List (String × String) :=
  let outstanding := (request.cookies.map Prod.fst).filter fun name =>
    txnCookiePrefix.toList.isPrefixOf name.toList
  (outstanding.take (outstanding.length + 1 - maxOutstandingTxnCookies)).map
    fun name => ("Set-Cookie", clearCookie name)

def txnCookie : String × String :=
  ("Set-Cookie", serializeCookie (txnCookieName answers.txnId) answers.secret
    (some (txnTtlMs / 1000)))

def redirectToProvider (authorization : AuthorizationRequest) :
    Traced LoginCall LoginError Response :=
  match headerValue? authorization.url with
  | none => refuse .typeError
  | some location => pure
      { status := 302
        headers := ("Location", location) ::
          ("Set-Cookie", clearCookie sessionCookie) ::
            evicted request ++ [txnCookie answers]
        body := none }

def returnTarget : String :=
  if isAuthRoutePath runtime.basePath
      (runtime.resolvedPath request.requested) then
    runtime.basePath ++ "/"
  else
    request.requested

def newTransaction (authorization : AuthorizationRequest) :
    LoginTransaction where
  codeVerifier := authorization.codeVerifier
  nonce := authorization.nonce
  returnTo := returnTarget runtime request
  secretHash := runtime.hashSecret answers.secret
  createdAt := answers.now

/-- Where a failed login is tried again: a browser that holds a session goes to
its target. -/
def retryHref : String :=
  match request.cookies.lookup sessionCookie with
  | some _ => returnTarget runtime request
  | none => loginRetryHref runtime.basePath (some (returnTarget runtime request))

def putTransaction (authorization : AuthorizationRequest) :
    Traced LoginCall LoginError Response := do
  record (.putTransaction answers.txnId
    (newTransaction runtime request answers authorization) txnTtlMs answers.put)
  match answers.put with
  | .down => pure (storeUnavailableResponse
      (.link (retryHref runtime request) false))
  | .ok () =>
      match request.cookies.lookup sessionCookie with
      | none => redirectToProvider request answers authorization
      | some presentedSid => do
          record (.delete presentedSid answers.deleted)
          match answers.deleted with
          | .down => pure (storeUnavailableResponse
              (.link (retryHref runtime request) false))
          | .ok () => redirectToProvider request answers authorization

def handleLogin : Traced LoginCall LoginError Response :=
  if request.fetchMode.any (· ≠ "navigate") then
    pure ⟨403, [], none⟩
  else do
    record (.buildAuthorizationUrl runtime.redirectUri answers.txnId
      answers.authorization)
    match answers.authorization with
    | .failed => refuse .authorizationFailed
    | .discoveryFailed => pure (storeUnavailableResponse
        (.link (retryHref runtime request) true))
    | .built authorization =>
        putTransaction runtime request answers authorization

end Login

section System

variable {Principal : Type}

/-- A request that is handled, with the answers its calls will get. -/
inductive Handling (Principal : Type) where
  | login (request : LoginRequest) (answers : LoginAnswers)
  | callback (request : Request) (answers : CallbackAnswers Principal)
  | logout (request : Request) (answers : LogoutAnswers)

inductive PortCall (Principal : Type) where
  | login (call : LoginCall)
  | handler (call : HandlerCall Principal)

namespace Handling

def calls (runtime : LoginRuntime) :
    Handling Principal → List (PortCall Principal)
  | login request answers =>
      (handleLogin runtime request answers).calls.map .login
  | callback request answers =>
      (handleCallback runtime.toAuthRuntime request answers).calls.map .handler
  | logout request answers =>
      (handleLogout runtime.toAuthRuntime request answers :
        Handler Principal Response).calls.map .handler

def cookies : Handling Principal → List (String × String)
  | login request _ => request.cookies
  | callback request _ => request.cookies
  | logout request _ => request.cookies

end Handling

/-- A code, with the authorization request it was issued for. -/
structure Code where
  text : String
  authorization : AuthorizationRequest
deriving DecidableEq

/-- A handling in flight, and how many of its calls were made. -/
structure Running (Principal : Type) where
  browser : Nat
  handling : Handling Principal
  made : Nat

structure World (Principal : Type) where
  transactions : String → Option LoginTransaction
  sessions : String → Option SessionRecord
  /-- What was built for the logins, by their states. -/
  authorizations : List (String × AuthorizationRequest)
  codes : List Code
  issued : List String
  redeemed : List (Nat × Code)
  /-- The secret of each login, by its transaction. -/
  logins : List (String × String)
  /-- The cookie values that requests have carried. -/
  carried : List String
  /-- The transactions whose login response a browser has received. -/
  received : List (Nat × String)
  running : Nat → Option (Running Principal)
  /-- The calls made, each with its handling and its place there. -/
  log : List (Nat × Nat × PortCall Principal)

inductive Action (Principal : Type) where
  | start (id browser : Nat) (handling : Handling Principal)
  | call (id : Nat) (applied : Bool) (code : Option Code)
  | respond (id : Nat)
  | issue (code : Code)
  | expireTransaction (state : String)
  | expireSession (sid : String)

namespace World

variable (runtime : LoginRuntime) (codeOf : String → Option String)

def initial : World Principal where
  transactions _ := none
  sessions _ := none
  authorizations := []
  codes := []
  issued := []
  redeemed := []
  logins := []
  carried := []
  received := []
  running _ := none
  log := []

variable (world : World Principal)

def putTxn (txnId : String) (tx : LoginTransaction) : World Principal :=
  { world with
    transactions := Function.update world.transactions txnId (some tx) }

def dropTxn (state : String) : World Principal :=
  { world with transactions := Function.update world.transactions state none }

def putSession (sid : String) (session : SessionRecord) : World Principal :=
  { world with sessions := Function.update world.sessions sid (some session) }

def dropSession (sid : String) : World Principal :=
  { world with sessions := Function.update world.sessions sid none }

/-- The answer is a failure of the store: its effect may have been reached. -/
def fallen (applied : Bool) (reached : World Principal) : World Principal :=
  if applied then reached else world

def build (state : String) : AuthorizationReply → Option (World Principal)
  | .built authorization =>
      if authorization.codeVerifier ∈
          world.authorizations.map fun built => built.2.codeVerifier then none
      else some
        { world with
          authorizations := (state, authorization) :: world.authorizations }
  | .discoveryFailed => some world
  | .failed => some world

/-- The provider redeems a code once, with the verifier of its authorization
request, and the client checks the nonce. -/
def redeem (id : Nat) (query verifier nonce : String) (applied : Bool)
    (code : Option Code) : GrantReply → Option (World Principal)
  | .tokens _ =>
      match code with
      | none => none
      | some code =>
          if code ∈ world.codes ∧ codeOf query = some code.text ∧
              code.authorization.codeVerifier = verifier ∧
                code.authorization.nonce = nonce then
            some
              { world with
                codes := world.codes.filter (· ≠ code)
                redeemed := (id, code) :: world.redeemed }
          else
            none
  | .discoveryFailed => some world
  | .failed =>
      some (world.fallen applied
        { world with
          codes := world.codes.filter fun code =>
            codeOf query ≠ some code.text })

def performLogin (applied : Bool) : LoginCall → Option (World Principal)
  | .buildAuthorizationUrl _ state reply => world.build state reply
  | .putTransaction txnId tx _ (.ok ()) => some (world.putTxn txnId tx)
  | .putTransaction txnId tx _ .down =>
      some (world.fallen applied (world.putTxn txnId tx))
  | .delete sid (.ok ()) => some (world.dropSession sid)
  | .delete sid .down => some (world.fallen applied (world.dropSession sid))

def performHandler (id : Nat) (applied : Bool) (code : Option Code) :
    HandlerCall Principal → Option (World Principal)
  | .takeTransaction state (.ok found) =>
      if world.transactions state = found then some (world.dropTxn state)
      else none
  | .takeTransaction state .down =>
      some (world.fallen applied (world.dropTxn state))
  | .authorizationCodeGrant _ query verifier _ nonce reply =>
      world.redeem codeOf id query verifier nonce applied code reply
  | .get sid (.ok found) =>
      if world.sessions sid = found then some world else none
  | .get _ .down => some world
  | .delete sid (.ok ()) => some (world.dropSession sid)
  | .delete sid .down => some (world.fallen applied (world.dropSession sid))
  | .set sid session _ _ (.ok inserted) =>
      if (world.sessions sid).isNone = inserted then
        some (if inserted then world.putSession sid session else world)
      else none
  | .set sid session _ _ .down =>
      some (world.fallen applied
        (if (world.sessions sid).isNone then world.putSession sid session
        else world))
  | .resolve _ _ _ => some world
  | .revoke _ _ => some world
  | .buildEndSessionUrl _ _ _ _ => some world

def perform (id : Nat) (applied : Bool) (code : Option Code) :
    PortCall Principal → Option (World Principal)
  | .login call => world.performLogin applied call
  | .handler call => world.performHandler codeOf id applied code call

/-- A request carries the secret of a login only if its browser received it. -/
def mayCarry (browser : Nat) (cookies : List (String × String)) : Bool :=
  world.logins.all fun login =>
    !(cookies.map Prod.snd).contains login.2 ||
      world.received.contains (browser, login.1)

/-- Transactions and secrets are new, and nobody has guessed the secret. -/
def isFresh (txnId secret : String) : Bool :=
  !(world.logins.map Prod.fst).contains txnId &&
    !(world.logins.map Prod.snd).contains secret &&
      !world.carried.contains secret

def loginsWith (handling : Handling Principal) : List (String × String) :=
  match handling with
  | .login _ answers => (answers.txnId, answers.secret) :: world.logins
  | _ => world.logins

def freshFor : Handling Principal → Bool
  | .login request answers =>
      world.isFresh answers.txnId answers.secret &&
        !(request.cookies.map Prod.snd).contains answers.secret
  | _ => true

def start (id browser : Nat) (handling : Handling Principal) :
    Option (World Principal) :=
  if (world.running id).isNone && world.freshFor handling &&
      world.mayCarry browser handling.cookies then
    some
      { world with
        logins := world.loginsWith handling
        carried := handling.cookies.map Prod.snd ++ world.carried
        running := Function.update world.running id
          (some ⟨browser, handling, 0⟩) }
  else
    none

/-- The next call of a handling. -/
def makeCall (id : Nat) (applied : Bool) (code : Option Code) :
    Option (World Principal) :=
  match world.running id with
  | none => none
  | some run =>
      match (run.handling.calls runtime)[run.made]? with
      | none => none
      | some call =>
          (world.perform codeOf id applied code call).map fun next =>
            { next with
              running := Function.update next.running id
                (some { run with made := run.made + 1 })
              log := (id, run.made, call) :: next.log }

/-- The response of a login reaches its browser. -/
def respond (id : Nat) : Option (World Principal) :=
  match world.running id with
  | some ⟨browser, .login request answers, made⟩ =>
      let run := handleLogin runtime request answers
      match run.outcome with
      | .ok response =>
          if made = run.calls.length ∧ txnCookie answers ∈ response.headers then
            some
              { world with
                received := (browser, answers.txnId) :: world.received }
          else
            some world
      | .error _ => some world
  | _ => some world

def step (world : World Principal) : Action Principal → Option (World Principal)
  | .start id browser handling => world.start id browser handling
  | .call id applied code => world.makeCall runtime codeOf id applied code
  | .respond id => world.respond runtime id
  | .issue code =>
      if code.text ∉ world.issued ∧
          code.authorization ∈ world.authorizations.map Prod.snd then
        some
          { world with
            codes := code :: world.codes
            issued := code.text :: world.issued }
      else
        none
  | .expireTransaction state => some (world.dropTxn state)
  | .expireSession sid => some (world.dropSession sid)

end World

section Handlers

variable {runtime : LoginRuntime}

theorem login_call {request : LoginRequest} {answers : LoginAnswers}
    {place : Nat} {call : LoginCall}
    (isCall : (handleLogin runtime request answers).calls[place]? = some call) :
    (place = 0 ∧ call = .buildAuthorizationUrl runtime.redirectUri
        answers.txnId answers.authorization) ∨
      (place = 1 ∧ ∃ authorization, answers.authorization =
          .built authorization ∧
        call = .putTransaction answers.txnId
          (newTransaction runtime request answers authorization) txnTtlMs
          answers.put) ∨
      ∃ sid, place = 2 ∧ call = .delete sid answers.deleted := by
  have ends (authorization : AuthorizationRequest) :
      (redirectToProvider request answers authorization).calls = [] := by
    unfold redirectToProvider
    split
    · rfl
    · rfl
  unfold handleLogin at isCall
  split at isCall
  · simp at isCall
  · rw [record_bind_calls] at isCall
    cases place with
    | zero =>
        simp only [List.getElem?_cons_zero, Option.some.injEq] at isCall
        exact .inl ⟨rfl, isCall.symm⟩
    | succ place =>
        rw [List.getElem?_cons_succ] at isCall
        split at isCall
        · simp at isCall
        · simp at isCall
        next authorization built =>
          unfold putTransaction at isCall
          rw [record_bind_calls] at isCall
          cases place with
          | zero =>
              simp only [List.getElem?_cons_zero, Option.some.injEq] at isCall
              exact .inr (.inl ⟨rfl, authorization, built, isCall.symm⟩)
          | succ place =>
              rw [List.getElem?_cons_succ] at isCall
              split at isCall
              · simp at isCall
              · split at isCall
                · simp [ends] at isCall
                next sid _ =>
                  rw [record_bind_calls] at isCall
                  cases place with
                  | zero =>
                      simp only [List.getElem?_cons_zero, Option.some.injEq]
                        at isCall
                      exact .inr (.inr ⟨sid, rfl, isCall.symm⟩)
                  | succ place =>
                      rw [List.getElem?_cons_succ] at isCall
                      split at isCall
                      · simp at isCall
                      · simp [ends] at isCall

/-- A call after the exchange of the code. -/
inductive AfterExchange (runtime : AuthRuntime)
    (answers : CallbackAnswers Principal) (tokens : OidcTokens) :
    HandlerCall Principal → Prop where
  | resolve (accessToken : String) (claims : IdTokenClaims) :
      AfterExchange runtime answers tokens
        (.resolve accessToken claims answers.principal)
  | delete (sid : String) :
      AfterExchange runtime answers tokens (.delete sid answers.deleted)
  | set : AfterExchange runtime answers tokens
      (.set answers.sid (newRecord runtime tokens answers.now)
        answers.principal runtime.ttlMs answers.stored)
  | revoke (token : String) :
      AfterExchange runtime answers tokens (.revoke token answers.revoked)

/-- The secret of the cookie of a state matches its transaction. -/
structure Matches (runtime : AuthRuntime) (request : Request)
    (answers : CallbackAnswers Principal) (state : String)
    (tx : LoginTransaction) : Prop where
  isState : request.state = some state
  isTaken : answers.transaction = .ok (some tx)
  matched : ∃ secret, request.cookies.lookup (txnCookieName state) =
    some secret ∧ runtime.secretMatchesHash secret tx.secretHash = true

variable {rt : AuthRuntime} {request : Request}
  {answers : CallbackAnswers Principal}

theorem createSession_calls {tx : LoginTransaction} {tokens : OidcTokens}
    {call : HandlerCall Principal}
    (isCall : call ∈ (createSession rt request answers tx tokens).calls) :
    AfterExchange rt answers tokens call := by
  unfold createSession at isCall
  rw [record_bind_calls] at isCall
  rcases List.mem_cons.mp isCall with rfl | later
  · exact .set
  · split at later
    · unfold failAfterExchange at later
      cases present : tokens.refreshToken with
      | none => simp [present] at later
      | some token =>
          simp only [present, revokeIfPresent_some, record_bind_calls,
            pure_calls, List.mem_singleton] at later
          subst later
          exact .revoke token
    · simp at later
    · simp at later

theorem afterExchange_calls {tx : LoginTransaction} {tokens : OidcTokens}
    {call : HandlerCall Principal}
    (isCall : call ∈ (afterExchange rt request answers tx tokens).calls) :
    AfterExchange rt answers tokens call := by
  unfold afterExchange at isCall
  split at isCall
  · exact createSession_calls isCall
  next sid _ =>
    rw [record_bind_calls] at isCall
    rcases List.mem_cons.mp isCall with rfl | later
    · exact .delete sid
    · split at later
      · unfold failAfterExchange at later
        cases present : tokens.refreshToken with
        | none => simp [present] at later
        | some token =>
            simp only [present, revokeIfPresent_some, record_bind_calls,
              pure_calls, List.mem_singleton] at later
            subst later
            exact .revoke token
      · exact createSession_calls later

theorem callback_call {place : Nat} {call : HandlerCall Principal}
    (isCall : (handleCallback rt request answers).calls[place]? = some call) :
    (place = 0 ∧ ∃ state, request.state = some state ∧
        call = .takeTransaction state answers.transaction) ∨
      ∃ state tx, Matches rt request answers state tx ∧
        ((place = 1 ∧ call = .authorizationCodeGrant rt.redirectUri
            request.query tx.codeVerifier state tx.nonce answers.grant) ∨
          ∃ tokens, 2 ≤ place ∧ answers.grant = .tokens tokens ∧
            AfterExchange rt answers tokens call) := by
  unfold handleCallback at isCall
  split at isCall
  · simp at isCall
  next state isState =>
    split at isCall
    · simp at isCall
    next secret isSecret =>
      rw [record_bind_calls] at isCall
      cases place with
      | zero =>
          simp only [List.getElem?_cons_zero, Option.some.injEq] at isCall
          exact .inl ⟨rfl, state, isState, isCall.symm⟩
      | succ place =>
          rw [List.getElem?_cons_succ] at isCall
          split at isCall
          · simp at isCall
          · simp at isCall
          next tx isTaken =>
            split at isCall
            · simp at isCall
            next matched =>
              split at isCall
              · simp at isCall
              · have holds : Matches rt request answers state tx :=
                  ⟨isState, isTaken, secret, isSecret, by simpa using matched⟩
                refine .inr ⟨state, tx, holds, ?_⟩
                unfold exchangeCode at isCall
                rw [record_bind_calls] at isCall
                cases place with
                | zero =>
                    simp only [List.getElem?_cons_zero, Option.some.injEq]
                      at isCall
                    exact .inl ⟨rfl, isCall.symm⟩
                | succ place =>
                    rw [List.getElem?_cons_succ] at isCall
                    split at isCall
                    · simp at isCall
                    · simp at isCall
                    next tokens granted =>
                      refine .inr ⟨tokens, by omega, granted, ?_⟩
                      have member := List.mem_of_getElem? isCall
                      rw [record_bind_calls] at member
                      rcases List.mem_cons.mp member with rfl | later
                      · exact .resolve _ _
                      · exact afterExchange_calls later

/-- Only a callback whose exchange succeeded sets a cookie. -/
theorem exchanged_of_setCookie {response : Response}
    (answered : (handleCallback rt request answers).outcome = .ok response)
    {value : String} (cookie : ("Set-Cookie", value) ∈ response.headers) :
    ∃ state tx tokens, Matches rt request answers state tx ∧
      (handleCallback rt request answers).calls[1]? =
        some (.authorizationCodeGrant rt.redirectUri request.query
          tx.codeVerifier state tx.nonce (.tokens tokens)) := by
  unfold handleCallback at answered
  split at answered
  · simp at answered
  next state isState =>
    split at answered
    · simp at answered
    next secret isSecret =>
      rw [record_bind_outcome] at answered
      split at answered
      · simp only [pure_outcome, Except.ok.injEq] at answered
        subst answered
        simp [storeUnavailableResponse] at cookie
      · simp at answered
      next tx isTaken =>
        split at answered
        · simp at answered
        next matched =>
          split at answered
          · simp at answered
          next noError =>
            unfold exchangeCode at answered
            rw [record_bind_outcome] at answered
            split at answered
            · simp only [pure_outcome, Except.ok.injEq] at answered
              subst answered
              simp [storeUnavailableResponse] at cookie
            · simp at answered
            next tokens granted =>
              refine ⟨state, tx, tokens, ⟨isState, isTaken, secret, isSecret,
                by simpa using matched⟩, ?_⟩
              have isMatch : rt.secretMatchesHash secret tx.secretHash = true :=
                by simpa using matched
              unfold handleCallback exchangeCode
              simp only [isState, isSecret, isTaken, granted, noError,
                record_bind_calls, List.getElem?_cons_succ]
              rw [if_neg (by simp [isMatch])]
              simp

/-- The calls that only callbacks make. -/
def isOfCallback : HandlerCall Principal → Prop
  | .takeTransaction _ _ => True
  | .authorizationCodeGrant _ _ _ _ _ _ => True
  | .set _ _ _ _ _ => True
  | _ => False

theorem logout_calls {answers : LogoutAnswers} {call : HandlerCall Principal}
    (isCall : call ∈ (handleLogout rt request answers).calls) :
    ¬ isOfCallback call := by
  cases presented : request.cookies.lookup sessionCookie with
  | none =>
      unfold handleLogout at isCall
      rw [presented] at isCall
      dsimp only at isCall
      rw [completeLogout_calls] at isCall
      simp only [Option.map_none, Option.toList_none, List.nil_append,
        List.mem_singleton] at isCall
      subst isCall
      exact id
  | some sid =>
      obtain ⟨rest, whole, ends⟩ := @handleLogout_calls Principal rt request
        answers sid
        presented
      rw [whole] at isCall
      rcases List.mem_cons.mp isCall with rfl | isCall
      · exact id
      · rcases List.mem_cons.mp isCall with rfl | isCall
        · exact id
        · rcases List.mem_append.mp isCall with revoked | isEnd
          · simp only [Option.mem_toList, Option.map_eq_some_iff] at revoked
            obtain ⟨token, _, rfl⟩ := revoked
            exact id
          · obtain ⟨idToken, rfl⟩ := ends call isEnd
            exact id

end Handlers

end System

end Binding

end Paigasus.Auth
