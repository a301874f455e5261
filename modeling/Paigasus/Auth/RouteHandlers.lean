import Paigasus.Auth.ResolveSession
import Paigasus.Foundation.Json
import Paigasus.Foundation.Traced
import Mathlib.Data.List.DropRight

/-!
# The callback and the logout handler

`handleCallback` and `handleLogout` with the answers that the session store and
the identity provider give them.  A handler records its calls; it ends with a
response, or its promise is rejected.
-/

namespace Paigasus.Auth

open Foundation

structure LoginTransaction where
  codeVerifier : String
  nonce : String
  returnTo : String
  secretHash : String
  createdAt : Int
deriving DecidableEq

structure OidcTokens where
  accessToken : String
  refreshToken : Option String
  expiresIn : Int
  idToken : String
  idTokenClaims : IdTokenClaims
deriving DecidableEq

/-- What `storeStep` returns of a store call; `down` is `STORE_DOWN`. -/
inductive StoreStep (Value : Type) where
  | ok (value : Value)
  | down
deriving DecidableEq

inductive GrantReply where
  | tokens (tokens : OidcTokens)
  | discoveryFailed
  | failed
deriving DecidableEq

inductive CallbackRejection where
  | stateUnknown
  | txnMissing
  | txnMismatch
  | idpError
  | codeExchangeFailed
deriving DecidableEq

/-- How the promise of a handler is rejected.  `typeError` is thrown by
`Headers`. -/
inductive HandlerError where
  | callbackRejected (reason : CallbackRejection)
  | typeError
  | sidTaken
deriving DecidableEq

/-- A call of the store, the provider or the resolver, with its answer. -/
inductive HandlerCall (Principal : Type) where
  | takeTransaction (state : String)
      (reply : StoreStep (Option LoginTransaction))
  | authorizationCodeGrant (redirectUri query codeVerifier expectedState
      expectedNonce : String) (reply : GrantReply)
  | resolve (accessToken : String) (claims : IdTokenClaims)
      (principal : Principal)
  | get (sid : String) (reply : StoreStep (Option SessionRecord))
  | delete (sid : String) (reply : StoreStep Unit)
  | set (sid : String) (record : SessionRecord) (principal : Principal)
      (ttlMs : Int) (reply : StoreStep Bool)
  | revoke (token : String) (accepted : Bool)
  | buildEndSessionUrl (postLogoutRedirectUri state : String)
      (idTokenHint url : Option String)

structure Response where
  status : Nat
  headers : List (String × String)
  body : Option String
deriving DecidableEq

structure AuthRuntime where
  basePath : String
  redirectUri : String
  postLogoutRedirectUri : String
  clientId : String
  ttlMs : Int
  absoluteTtlMs : Int
  secretMatchesHash : String → String → Bool
  /-- The payload of an ID token, where it can be decoded. -/
  decodePayload : String → Option Json

/-- What a handler reads of a request.  The cookies are in the order of their
header, each name once; `query` is the query string and `hasError` tells whether
it has an `error` parameter. -/
structure Request where
  cookies : List (String × String)
  query : String
  state : Option String
  hasError : Bool

/-- What the calls of a callback answer, with the new session id and the time. -/
structure CallbackAnswers (Principal : Type) where
  transaction : StoreStep (Option LoginTransaction)
  grant : GrantReply
  principal : Principal
  deleted : StoreStep Unit
  sid : String
  now : Int
  stored : StoreStep Bool
  revoked : Bool

/-- What the calls of a logout answer, with the state of its redirect. -/
structure LogoutAnswers where
  record : StoreStep (Option SessionRecord)
  deleted : StoreStep Unit
  revoked : Bool
  state : String
  endSessionUrl : Option String

def sessionCookie : String := "__Host-pgs_sid"

def txnCookiePrefix : String := "__Host-pgs_txn_"

def txnCookieName (txnId : String) : String := txnCookiePrefix ++ txnId

def serializeCookie (name value : String) (maxAgeSeconds : Option Nat) :
    String :=
  "; ".intercalate ([name ++ "=" ++ value, "HttpOnly", "Secure",
    "SameSite=Lax", "Path=/"] ++
    (maxAgeSeconds.map fun seconds => "Max-Age=" ++ toString seconds).toList)

def clearCookie (name : String) : String := serializeCookie name "" (some 0)

/-- The value of a header as `Headers` takes it: bytes only, without the blanks
at its ends, and with no NUL or line end in it. -/
def headerValue? (text : String) : Option String :=
  if text.toList.all fun char => char.toNat ≤ 255 then
    let isBlank (char : Char) : Bool :=
      char = ' ' || char = '\t' || char = '\n' || char = '\r'
    let inner := (text.toList.dropWhile isBlank).rdropWhile isBlank
    if inner.any fun char =>
        char.toNat = 0 || char = '\n' || char = '\r' then
      none
    else
      some (String.ofList inner)
  else
    none

inductive RetryAffordance where
  | link (href : String) (identityProvider : Bool)
  | post (action : String)
deriving DecidableEq

def escapeHtmlChar (char : Char) : List Char :=
  if char = '&' then "&amp;".toList
  else if char = '<' then "&lt;".toList
  else if char = '>' then "&gt;".toList
  else if char = '"' then "&quot;".toList
  else if char = Char.ofNat 39 then "&#39;".toList
  else [char]

def escapeHtmlAttribute (value : String) : String :=
  String.ofList (value.toList.flatMap escapeHtmlChar)

def upperHexDigit (digit : Nat) : Char :=
  if digit < 10 then Char.ofNat (48 + digit) else Char.ofNat (55 + digit)

def encodeURIComponent (text : String) : String :=
  String.ofList (text.toList.flatMap fun char =>
    if char.isAlphanum || "-_.!~*'()".toList.contains char then [char]
    else (String.utf8EncodeChar char).flatMap fun byte =>
      ['%', upperHexDigit (byte.toNat / 16), upperHexDigit (byte.toNat % 16)])

def loginRetryHref (basePath : String) (returnTo : Option String) : String :=
  match returnTo with
  | none => basePath ++ "/auth/login"
  | some target =>
      basePath ++ "/auth/login?returnTo=" ++ encodeURIComponent target

namespace RetryAffordance

def heading : RetryAffordance → String
  | .post _ => "Sign-out did not complete"
  | .link _ _ => "Sign-in is temporarily unavailable"

def sentence : RetryAffordance → String
  | .post _ =>
      "The session service did not answer, so your session may still be " ++
        "active. Try again in a few seconds."
  | .link _ true =>
      "The identity provider is not available. Try again in a few seconds."
  | .link _ false =>
      "The session service did not answer. Try again in a few seconds."

def control : RetryAffordance → String
  | .post action =>
      "<form method=\"post\" action=\"" ++ escapeHtmlAttribute action ++
        "\"><button type=\"submit\">Sign out again</button></form>"
  | .link href _ =>
      "<p><a href=\"" ++ escapeHtmlAttribute href ++ "\">Try again</a></p>"

def page (retry : RetryAffordance) : String :=
  "\n".intercalate
    ["<!doctype html>", "<html lang=\"en\">",
      "<head><meta charset=\"utf-8\"><title>" ++ retry.heading ++
        "</title></head>",
      "<body>", "<h1>" ++ retry.heading ++ "</h1>",
      "<p>" ++ retry.sentence ++ "</p>", retry.control, "</body>", "</html>",
      ""]

end RetryAffordance

def storeUnavailableResponse (retry : RetryAffordance) : Response where
  status := 503
  headers :=
    [("Retry-After", "5"), ("Cache-Control", "no-store"),
      ("Content-Type", "text/html; charset=utf-8"),
      ("Referrer-Policy", "no-referrer"),
      ("Content-Security-Policy",
        "default-src 'none'; frame-ancestors 'none'; base-uri 'none'")]
  body := some retry.page

abbrev Handler (Principal Value : Type) : Type :=
  Traced (HandlerCall Principal) HandlerError Value

open Traced

section Handlers

variable {Principal : Type} (runtime : AuthRuntime) (request : Request)

/-- `true` where the provider accepted it; a failure is swallowed. -/
def bestEffortRevoke (token : String) (accepted : Bool) :
    Handler Principal Bool := do
  record (.revoke token accepted)
  pure accepted

/-- Nothing is called where there is no token. -/
def revokeIfPresent (token : Option String) (accepted : Bool) :
    Handler Principal Unit := do
  match token with
  | none => pure ()
  | some token => do
      let _ ← bestEffortRevoke token accepted
      pure ()

/-- The cookies of all outstanding transactions, cleared. -/
def clearTxnCookies : List (String × String) :=
  ((request.cookies.map Prod.fst).filter fun name =>
    txnCookiePrefix.toList.isPrefixOf name.toList).map fun name =>
      ("Set-Cookie", clearCookie name)

/-- The store failed after the exchange: its refresh token is revoked. -/
def failAfterExchange (answers : CallbackAnswers Principal)
    (tx : LoginTransaction) (tokens : OidcTokens) : Handler Principal Response := do
  revokeIfPresent tokens.refreshToken answers.revoked
  pure (storeUnavailableResponse
    (.link (loginRetryHref runtime.basePath (some tx.returnTo)) false))

def newRecord (tokens : OidcTokens) (now : Int) : SessionRecord where
  rev := 0
  accessToken := tokens.accessToken
  refreshToken := tokens.refreshToken
  accessExpiresAt := now + tokens.expiresIn * 1000
  absoluteExpiresAt := now + runtime.absoluteTtlMs
  idToken := tokens.idToken
  idTokenClaims := tokens.idTokenClaims

/-- The redirect with the session cookie.  `Headers` may refuse the target. -/
def redirectSignedIn (returnTo sid : String) : Handler Principal Response :=
  match headerValue? returnTo with
  | none => refuse .typeError
  | some location => pure
      { status := 302
        headers := [("Location", location),
          ("Set-Cookie", serializeCookie sessionCookie sid none)] ++
            clearTxnCookies request
        body := none }

def createSession (answers : CallbackAnswers Principal) (tx : LoginTransaction)
    (tokens : OidcTokens) : Handler Principal Response := do
  record (.set answers.sid (newRecord runtime tokens answers.now)
    answers.principal runtime.ttlMs answers.stored)
  match answers.stored with
  | .down => failAfterExchange runtime answers tx tokens
  | .ok false => refuse .sidTaken
  | .ok true => redirectSignedIn request tx.returnTo answers.sid

/-- Whatever session the browser presented is discarded before a new one. -/
def afterExchange (answers : CallbackAnswers Principal) (tx : LoginTransaction)
    (tokens : OidcTokens) : Handler Principal Response :=
  match request.cookies.lookup sessionCookie with
  | none => createSession runtime request answers tx tokens
  | some presentedSid => do
      record (.delete presentedSid answers.deleted)
      match answers.deleted with
      | .down => failAfterExchange runtime answers tx tokens
      | .ok () => createSession runtime request answers tx tokens

def exchangeCode (answers : CallbackAnswers Principal) (state : String)
    (tx : LoginTransaction) : Handler Principal Response := do
  record (.authorizationCodeGrant runtime.redirectUri request.query
    tx.codeVerifier state tx.nonce answers.grant)
  match answers.grant with
  | .discoveryFailed =>
      let href := match request.cookies.lookup sessionCookie with
        | some _ => tx.returnTo
        | none => loginRetryHref runtime.basePath (some tx.returnTo)
      pure (storeUnavailableResponse (.link href true))
  | .failed => refuse (.callbackRejected .codeExchangeFailed)
  | .tokens tokens => do
      record (.resolve tokens.accessToken tokens.idTokenClaims
        answers.principal)
      afterExchange runtime request answers tx tokens

def handleCallback (answers : CallbackAnswers Principal) :
    Handler Principal Response :=
  match request.state with
  | none => refuse (.callbackRejected .stateUnknown)
  | some state =>
      match request.cookies.lookup (txnCookieName state) with
      | none => refuse (.callbackRejected .txnMissing)
      | some cookieSecret => do
          record (.takeTransaction state answers.transaction)
          match answers.transaction with
          | .down => pure (storeUnavailableResponse
              (.link (loginRetryHref runtime.basePath none) false))
          | .ok none => refuse (.callbackRejected .stateUnknown)
          | .ok (some tx) =>
              if runtime.secretMatchesHash cookieSecret tx.secretHash = false then
                refuse (.callbackRejected .txnMismatch)
              else if request.hasError then
                refuse (.callbackRejected .idpError)
              else exchangeCode runtime request answers state tx

/-- The ID token was issued for this client. -/
def hintAudienceMatches (idToken : String) : Bool :=
  match (runtime.decodePayload idToken).bind (Json.field "aud") with
  | some (.string audience) => audience = runtime.clientId
  | some (.array audiences) => audiences.any fun audience =>
      audience.asStr = some runtime.clientId
  | _ => false

/-- The end of a logout, after the record is gone. -/
def completeLogout (answers : LogoutAnswers) (refreshToken idToken :
    Option String) : Handler Principal Response := do
  revokeIfPresent refreshToken answers.revoked
  record (.buildEndSessionUrl runtime.postLogoutRedirectUri answers.state
    idToken answers.endSessionUrl)
  let respond (location : String) : Response :=
    { status := 302
      headers := ("Set-Cookie", clearCookie sessionCookie) ::
        clearTxnCookies request ++ [("Location", location)]
      body := none }
  match answers.endSessionUrl.bind headerValue? with
  | some location => pure (respond location)
  | none =>
      match headerValue? runtime.postLogoutRedirectUri with
      | some location => pure (respond location)
      | none => refuse .typeError

def handleLogout (answers : LogoutAnswers) : Handler Principal Response :=
  match request.cookies.lookup sessionCookie with
  | none => completeLogout runtime request answers none none
  | some sid => do
      record (.get sid answers.record)
      let found := match answers.record with
        | .ok record => record
        | .down => none
      let refreshToken := found.bind SessionRecord.refreshToken
      let idToken := (found.map SessionRecord.idToken).filter
        (hintAudienceMatches runtime)
      record (.delete sid answers.deleted)
      match answers.deleted with
      | .ok () => completeLogout runtime request answers refreshToken idToken
      | .down => do
          revokeIfPresent refreshToken answers.revoked
          pure (storeUnavailableResponse
            (.post (runtime.basePath ++ "/auth/logout")))

@[simp]
theorem revokeIfPresent_none (accepted : Bool) :
    (revokeIfPresent none accepted : Handler Principal Unit) = pure () := rfl

@[simp]
theorem revokeIfPresent_some (token : String) (accepted : Bool) :
    (revokeIfPresent (some token) accepted : Handler Principal Unit) =
      record (.revoke token accepted) := rfl

end Handlers

section HalfStates

variable {Principal : Type}

/-- The token was passed to the provider for revocation. -/
def Revokes (run : Handler Principal Response) (token : String) : Prop :=
  ∃ accepted, HandlerCall.revoke token accepted ∈ run.calls

structure SessionRecord.Holds (session : SessionRecord)
    (tokens : OidcTokens) : Prop where
  accessToken : session.accessToken = tokens.accessToken
  refreshToken : session.refreshToken = tokens.refreshToken
  idToken : session.idToken = tokens.idToken
  idTokenClaims : session.idTokenClaims = tokens.idTokenClaims

/-- The response carries a cookie that names a stored record of the tokens. -/
def SignsIn (run : Handler Principal Response) (tokens : OidcTokens) : Prop :=
  ∃ response sid session principal ttlMs,
    run.outcome = .ok response ∧
    ("Set-Cookie", serializeCookie sessionCookie sid none) ∈
      response.headers ∧
    HandlerCall.set sid session principal ttlMs (.ok true) ∈ run.calls ∧
    session.Holds tokens

structure ExchangeSettled (run : Handler Principal Response)
    (tokens : OidcTokens) : Prop where
  settled : SignsIn run tokens ∨
    ∀ token, tokens.refreshToken = some token → Revokes run token
  exclusive : SignsIn run tokens → ∀ token, ¬ Revokes run token

def NoCookieUnavailable (run : Handler Principal Response) : Prop :=
  ∀ response, run.outcome = .ok response → response.status = 503 →
    ∀ value, ("Set-Cookie", value) ∉ response.headers

/-- No half-state after a callback. -/
structure CallbackSound (run : Handler Principal Response) : Prop where
  exchange : ∀ redirectUri query codeVerifier state nonce tokens,
    HandlerCall.authorizationCodeGrant redirectUri query codeVerifier state
      nonce (.tokens tokens) ∈ run.calls → ExchangeSettled run tokens
  unavailable : NoCookieUnavailable run

/-- No half-state after a logout. -/
structure LogoutSound (request : Request)
    (run : Handler Principal Response) : Prop where
  clears : ∀ response, run.outcome = .ok response →
    ("Set-Cookie", clearCookie sessionCookie) ∈ response.headers →
      ∀ sid, request.cookies.lookup sessionCookie = some sid →
        HandlerCall.delete sid (.ok ()) ∈ run.calls
  revokes : ∀ sid session token,
    HandlerCall.get sid (.ok (some session)) ∈ run.calls →
      session.refreshToken = some token → Revokes run token
  afterDelete : ∀ before token accepted rest,
    run.calls = before ++ HandlerCall.revoke token accepted :: rest →
      ∃ sid reply, request.cookies.lookup sessionCookie = some sid ∧
        HandlerCall.delete sid reply ∈ before
  unavailable : NoCookieUnavailable run

namespace NoCookieUnavailable

theorem of_refused (error : HandlerError) :
    NoCookieUnavailable
      (refuse error : Handler Principal Response) := by
  intro response answered
  simp at answered

theorem of_unavailable (retry : RetryAffordance) :
    NoCookieUnavailable
      (pure (storeUnavailableResponse retry) :
        Handler Principal Response) := by
  intro response answered _unavailable value
  have same : storeUnavailableResponse retry = response := by
    simpa using answered
  subst same
  simp [storeUnavailableResponse]

theorem of_redirect {response : Response} (redirects : response.status = 302) :
    NoCookieUnavailable (pure response : Handler Principal Response) := by
  intro answer answered unavailable
  have same : response = answer := by simpa using answered
  subst same
  omega

/-- What was done before the answer changes nothing about it. -/
theorem bind {Value : Type} {first : Handler Principal Value}
    {next : Value → Handler Principal Response}
    (continues : ∀ value, NoCookieUnavailable (next value)) :
    NoCookieUnavailable (first >>= next) := by
  intro response answered
  obtain ⟨value, _returned, answered⟩ := bind_outcome_ok.mp answered
  exact continues value response answered

end NoCookieUnavailable

section Callback

variable (runtime : AuthRuntime) (request : Request)
  (answers : CallbackAnswers Principal) (tx : LoginTransaction)
  (tokens : OidcTokens)

theorem failAfterExchange_noCookie :
    NoCookieUnavailable (failAfterExchange runtime answers tx tokens) :=
  .bind fun _ => .of_unavailable _

theorem redirectSignedIn_noCookie (returnTo sid : String) :
    NoCookieUnavailable (redirectSignedIn request returnTo sid :
      Handler Principal Response) := by
  unfold redirectSignedIn
  cases headerValue? returnTo with
  | none => exact .of_refused _
  | some location => exact .of_redirect rfl

theorem createSession_noCookie :
    NoCookieUnavailable (createSession runtime request answers tx tokens) := by
  refine .bind fun _ => ?_
  split
  · exact failAfterExchange_noCookie runtime answers tx tokens
  · exact .of_refused _
  · exact redirectSignedIn_noCookie request tx.returnTo answers.sid

theorem afterExchange_noCookie :
    NoCookieUnavailable (afterExchange runtime request answers tx tokens) := by
  unfold afterExchange
  split
  · exact createSession_noCookie runtime request answers tx tokens
  · refine .bind fun _ => ?_
    split
    · exact failAfterExchange_noCookie runtime answers tx tokens
    · exact createSession_noCookie runtime request answers tx tokens

theorem exchangeCode_noCookie (state : String) :
    NoCookieUnavailable (exchangeCode runtime request answers state tx) := by
  refine .bind fun _ => ?_
  split
  · exact .of_unavailable _
  · exact .of_refused _
  · exact .bind fun _ => afterExchange_noCookie runtime request answers tx _

theorem handleCallback_noCookie :
    NoCookieUnavailable (handleCallback runtime request answers) := by
  unfold handleCallback
  split
  · exact .of_refused _
  · split
    · exact .of_refused _
    · refine .bind fun _ => ?_
      split
      · exact .of_unavailable _
      · exact .of_refused _
      · split
        · exact .of_refused _
        · split
          · exact .of_refused _
          · exact exchangeCode_noCookie runtime request answers _ _

/-- The code was exchanged for the tokens. -/
structure Exchanges (state : String) : Prop where
  known : request.state = some state
  secret : ∃ secret,
    request.cookies.lookup (txnCookieName state) = some secret ∧
      runtime.secretMatchesHash secret tx.secretHash = true
  taken : answers.transaction = .ok (some tx)
  noError : request.hasError = false
  granted : answers.grant = .tokens tokens

/-- A store call after the exchange fails. -/
def StoreFails : Prop :=
  (request.cookies.lookup sessionCookie ≠ none ∧ answers.deleted = .down) ∨
    answers.stored = .down

variable {runtime request answers tx tokens} {state : String}

theorem Exchanges.run_eq
    (exchanges : Exchanges runtime request answers tx tokens state) :
    handleCallback runtime request answers =
      record (.takeTransaction state answers.transaction) >>= fun _ =>
        record (.authorizationCodeGrant runtime.redirectUri request.query
          tx.codeVerifier state tx.nonce answers.grant) >>= fun _ =>
        record (.resolve tokens.accessToken tokens.idTokenClaims
          answers.principal) >>= fun _ =>
        afterExchange runtime request answers tx tokens := by
  obtain ⟨secret, presented, secretMatches⟩ := exchanges.secret
  simp [handleCallback, exchangeCode, exchanges.known, presented,
    exchanges.taken, secretMatches, exchanges.noError, exchanges.granted]

@[simp]
theorem failAfterExchange_calls :
    (failAfterExchange runtime answers tx tokens).calls =
      (tokens.refreshToken.map fun token =>
        HandlerCall.revoke token answers.revoked).toList := by
  unfold failAfterExchange
  cases tokens.refreshToken with
  | none => rfl
  | some token => rfl

@[simp]
theorem failAfterExchange_outcome :
    (failAfterExchange runtime answers tx tokens).outcome =
      .ok (storeUnavailableResponse
        (.link (loginRetryHref runtime.basePath (some tx.returnTo)) false)) := by
  unfold failAfterExchange
  cases tokens.refreshToken with
  | none => rfl
  | some token => rfl

@[simp]
theorem redirectSignedIn_calls (returnTo sid : String) :
    (redirectSignedIn request returnTo sid :
      Handler Principal Response).calls = [] := by
  unfold redirectSignedIn
  cases headerValue? returnTo with
  | none => rfl
  | some location => rfl

theorem createSession_call {call : HandlerCall Principal}
    (made : call ∈ (createSession runtime request answers tx tokens).calls) :
    call = .set answers.sid (newRecord runtime tokens answers.now)
        answers.principal runtime.ttlMs answers.stored ∨
      (answers.stored = .down ∧
        ∃ token, call = .revoke token answers.revoked) := by
  cases stored : answers.stored with
  | down =>
      simp only [createSession, stored, record_bind_calls,
        failAfterExchange_calls, List.mem_cons, Option.mem_toList,
        Option.map_eq_some_iff] at made
      rcases made with made | ⟨token, _present, made⟩
      · exact .inl made
      · exact .inr ⟨rfl, token, made.symm⟩
  | ok inserted =>
      left
      cases inserted <;> simpa [createSession, stored] using made

/-- After the exchange a callback deletes, stores and revokes; it revokes only
where a store call failed. -/
theorem afterExchange_call {call : HandlerCall Principal}
    (made : call ∈ (afterExchange runtime request answers tx tokens).calls) :
    (∃ sid, call = .delete sid answers.deleted) ∨
      call = .set answers.sid (newRecord runtime tokens answers.now)
        answers.principal runtime.ttlMs answers.stored ∨
      (StoreFails request answers ∧
        ∃ token, call = .revoke token answers.revoked) := by
  have created (made : call ∈
      (createSession runtime request answers tx tokens).calls) :
      call = .set answers.sid (newRecord runtime tokens answers.now)
          answers.principal runtime.ttlMs answers.stored ∨
        (StoreFails request answers ∧
          ∃ token, call = .revoke token answers.revoked) := by
    rcases createSession_call made with made | ⟨down, revoked⟩
    · exact .inl made
    · exact .inr ⟨.inr down, revoked⟩
  cases presented : request.cookies.lookup sessionCookie with
  | none =>
      simp only [afterExchange, presented] at made
      exact .inr (created made)
  | some sid =>
      cases deleted : answers.deleted with
      | ok value =>
          simp only [afterExchange, presented, deleted, record_bind_calls,
            List.mem_cons] at made
          rcases made with made | made
          · exact .inl ⟨sid, made⟩
          · exact .inr (created made)
      | down =>
          simp only [afterExchange, presented, deleted, record_bind_calls,
            failAfterExchange_calls, List.mem_cons, Option.mem_toList,
            Option.map_eq_some_iff] at made
          rcases made with made | ⟨token, _present, made⟩
          · exact .inl ⟨sid, made⟩
          · have fails : StoreFails request answers :=
              .inl ⟨by simp [presented], deleted⟩
            exact .inr (.inr ⟨fails, token, made.symm⟩)

variable (runtime tx tokens) in
theorem afterExchange_of_fails (fails : StoreFails request answers) :
    (∃ retry, (afterExchange runtime request answers tx tokens).outcome =
      .ok (storeUnavailableResponse retry)) ∧
    ∀ token, tokens.refreshToken = some token →
      HandlerCall.revoke token answers.revoked ∈
        (afterExchange runtime request answers tx tokens).calls := by
  cases presented : request.cookies.lookup sessionCookie with
  | none =>
      have down : answers.stored = .down := by
        simpa [StoreFails, presented] using fails
      simp [afterExchange, presented, createSession, down]
  | some sid =>
      cases deleted : answers.deleted with
      | down => simp [afterExchange, presented, deleted]
      | ok value =>
          have down : answers.stored = .down := by
            simpa [StoreFails, deleted] using fails
          simp [afterExchange, presented, deleted, createSession, down]

variable (runtime tx tokens) in
theorem afterExchange_of_stored (kept : ¬ StoreFails request answers)
    (stored : answers.stored = .ok true) :
    (afterExchange runtime request answers tx tokens).outcome =
      (redirectSignedIn request tx.returnTo answers.sid :
        Handler Principal Response).outcome ∧
    HandlerCall.set answers.sid (newRecord runtime tokens answers.now)
        answers.principal runtime.ttlMs (.ok true) ∈
      (afterExchange runtime request answers tx tokens).calls := by
  cases presented : request.cookies.lookup sessionCookie with
  | none => simp [afterExchange, presented, createSession, stored]
  | some sid =>
      cases deleted : answers.deleted with
      | down =>
          exact absurd (.inl ⟨by simp [presented], deleted⟩) kept
      | ok value =>
          simp [afterExchange, presented, deleted, createSession, stored]

theorem exchanges_of_granted {redirectUri query codeVerifier expectedState
    expectedNonce : String}
    (granted : HandlerCall.authorizationCodeGrant redirectUri query
      codeVerifier expectedState expectedNonce (.tokens tokens) ∈
        (handleCallback runtime request answers).calls) :
    ∃ state tx, Exchanges runtime request answers tx tokens state := by
  cases known : request.state with
  | none => simp [handleCallback, known] at granted
  | some state =>
  cases presented : request.cookies.lookup (txnCookieName state) with
  | none => simp [handleCallback, known, presented] at granted
  | some secret =>
  cases taken : answers.transaction with
  | down => simp [handleCallback, known, presented, taken] at granted
  | ok found =>
  cases found with
  | none => simp [handleCallback, known, presented, taken] at granted
  | some tx =>
  cases secretMatches : runtime.secretMatchesHash secret tx.secretHash with
  | false =>
      simp [handleCallback, known, presented, taken, secretMatches] at granted
  | true =>
  cases noError : request.hasError with
  | true =>
      simp [handleCallback, known, presented, taken, secretMatches,
        noError] at granted
  | false =>
  refine ⟨state, tx, known, ⟨secret, presented, secretMatches⟩, taken,
    noError, ?_⟩
  cases reply : answers.grant with
  | discoveryFailed =>
      simp [handleCallback, known, presented, taken, secretMatches, noError,
        exchangeCode, reply] at granted
  | failed =>
      simp [handleCallback, known, presented, taken, secretMatches, noError,
        exchangeCode, reply] at granted
  | tokens received =>
      have exchanges : Exchanges runtime request answers tx received state :=
        ⟨known, ⟨secret, presented, secretMatches⟩, taken, noError, reply⟩
      rw [exchanges.run_eq, reply] at granted
      simp only [record_bind_calls, List.mem_cons, reduceCtorEq, false_or,
        HandlerCall.authorizationCodeGrant.injEq,
        GrantReply.tokens.injEq] at granted
      rcases granted with ⟨_, _, _, _, _, same⟩ | later
      · rw [same]
      · rcases afterExchange_call later with ⟨_, made⟩ | made | ⟨_, _, made⟩ <;>
          cases made

/-- Every call of a callback that exchanged a code, but the exchange itself. -/
theorem Exchanges.revokes_iff
    (exchanges : Exchanges runtime request answers tx tokens state)
    (token : String) :
    Revokes (handleCallback runtime request answers) token ↔
      Revokes (afterExchange runtime request answers tx tokens) token := by
  simp [Revokes, exchanges.run_eq]

theorem Exchanges.outcome_eq
    (exchanges : Exchanges runtime request answers tx tokens state) :
    (handleCallback runtime request answers).outcome =
      (afterExchange runtime request answers tx tokens).outcome := by
  simp [exchanges.run_eq]

theorem not_revokes_of_stored (kept : ¬ StoreFails request answers)
    (token : String) :
    ¬ Revokes (afterExchange runtime request answers tx tokens) token := by
  rintro ⟨accepted, made⟩
  rcases afterExchange_call made with ⟨_, made⟩ | made | ⟨fails, _⟩
  · cases made
  · cases made
  · exact kept fails

theorem Exchanges.settled_of_fails
    (exchanges : Exchanges runtime request answers tx tokens state)
    (fails : StoreFails request answers) :
    ExchangeSettled (handleCallback runtime request answers) tokens := by
  obtain ⟨⟨retry, answered⟩, revoked⟩ :=
    afterExchange_of_fails runtime tx tokens fails
  constructor
  · right
    intro token present
    exact (exchanges.revokes_iff token).mpr ⟨_, revoked token present⟩
  · rintro ⟨response, sid, _, _, _, signedIn, cookie, _⟩
    rw [exchanges.outcome_eq, answered] at signedIn
    cases signedIn
    simp [storeUnavailableResponse] at cookie

/-- Where the store keeps the session, only a target that `Headers` takes is
left to ask for. -/
theorem Exchanges.settled_iff
    (exchanges : Exchanges runtime request answers tx tokens state)
    (kept : ¬ StoreFails request answers) (fresh : answers.stored ≠ .ok false) :
    ExchangeSettled (handleCallback runtime request answers) tokens ↔
      (tokens.refreshToken.isSome → (headerValue? tx.returnTo).isSome) := by
  have stored : answers.stored = .ok true := by
    cases reply : answers.stored with
    | down => exact absurd (.inr reply) kept
    | ok inserted =>
        cases inserted with
        | false => exact absurd reply fresh
        | true => rfl
  have notRevoked : ∀ token,
      ¬ Revokes (handleCallback runtime request answers) token := fun token =>
    mt (exchanges.revokes_iff token).mp (not_revokes_of_stored kept token)
  obtain ⟨outcome, created⟩ :=
    afterExchange_of_stored runtime tx tokens kept stored
  constructor
  · rintro ⟨settled, _exclusive⟩ present
    obtain ⟨token, present⟩ := Option.isSome_iff_exists.mp present
    rcases settled with ⟨response, _, _, _, _, answered, _⟩ | revoked
    · rw [exchanges.outcome_eq, outcome] at answered
      cases location : headerValue? tx.returnTo with
      | none => simp [redirectSignedIn, location] at answered
      | some location => rfl
    · exact absurd (revoked token present) (notRevoked token)
  · intro targetAccepted
    refine ⟨?_, fun _ => notRevoked⟩
    cases present : tokens.refreshToken with
    | none =>
        right
        simp
    | some token =>
        left
        obtain ⟨location, accepted⟩ :=
          Option.isSome_iff_exists.mp (targetAccepted (by simp [present]))
        have answered :
            (handleCallback runtime request answers).outcome = .ok
              { status := 302
                headers := [("Location", location),
                  ("Set-Cookie",
                    serializeCookie sessionCookie answers.sid none)] ++
                    clearTxnCookies request
                body := none } := by
          rw [exchanges.outcome_eq, outcome]
          simp [redirectSignedIn, accepted]
        refine ⟨_, answers.sid, newRecord runtime tokens answers.now,
          answers.principal, runtime.ttlMs, answered, by simp, ?_,
          ⟨rfl, rfl, rfl, rfl⟩⟩
        simpa [exchanges.run_eq] using created

variable (runtime request answers) in
/-- Where the store keeps a session with a refresh token, `Headers` takes the
target of the redirect. -/
def TargetAccepted : Prop :=
  ∀ state tx tokens, Exchanges runtime request answers tx tokens state →
    ¬ StoreFails request answers → tokens.refreshToken.isSome →
      (headerValue? tx.returnTo).isSome

theorem callbackSound_iff (fresh : answers.stored ≠ .ok false) :
    CallbackSound (handleCallback runtime request answers) ↔
      TargetAccepted runtime request answers := by
  constructor
  · intro sound state tx tokens exchanges kept
    have granted : HandlerCall.authorizationCodeGrant runtime.redirectUri
        request.query tx.codeVerifier state tx.nonce (.tokens tokens) ∈
          (handleCallback runtime request answers).calls := by
      simp [exchanges.run_eq, exchanges.granted]
    have settled := sound.exchange _ _ _ _ _ _ granted
    exact (exchanges.settled_iff kept fresh).mp settled
  · intro targetAccepted
    refine ⟨?_, handleCallback_noCookie runtime request answers⟩
    intro _ _ _ _ _ tokens granted
    obtain ⟨state, tx, exchanges⟩ := exchanges_of_granted granted
    by_cases fails : StoreFails request answers
    · exact exchanges.settled_of_fails fails
    · exact (exchanges.settled_iff fails fresh).mpr
        (targetAccepted state tx tokens exchanges fails)

end Callback

section Logout

variable (runtime : AuthRuntime) (request : Request) (answers : LogoutAnswers)

theorem completeLogout_noCookie (refreshToken idToken : Option String) :
    NoCookieUnavailable (completeLogout runtime request answers refreshToken
      idToken : Handler Principal Response) := by
  refine .bind fun _ => .bind fun _ => ?_
  split
  · exact .of_redirect rfl
  · split
    · exact .of_redirect rfl
    · exact .of_refused _

theorem handleLogout_noCookie :
    NoCookieUnavailable (handleLogout runtime request answers :
      Handler Principal Response) := by
  unfold handleLogout
  split
  · exact completeLogout_noCookie runtime request answers none none
  · refine .bind fun _ => .bind fun _ => ?_
    split
    · exact completeLogout_noCookie runtime request answers _ _
    · exact .bind fun _ => .of_unavailable _

theorem completeLogout_calls (refreshToken idToken : Option String) :
    (completeLogout runtime request answers refreshToken idToken :
      Handler Principal Response).calls =
      (refreshToken.map fun token =>
        HandlerCall.revoke token answers.revoked).toList ++
      [.buildEndSessionUrl runtime.postLogoutRedirectUri answers.state idToken
        answers.endSessionUrl] := by
  cases target : answers.endSessionUrl.bind headerValue? <;>
    cases fallback : headerValue? runtime.postLogoutRedirectUri <;>
    cases refreshToken <;>
    simp [completeLogout, target, fallback]

variable {answers}

/-- The refresh token that the read found. -/
def LogoutAnswers.refreshToken (answers : LogoutAnswers) : Option String :=
  match answers.record with
  | .ok session => session.bind SessionRecord.refreshToken
  | .down => none

theorem handleLogout_calls {sid : String}
    (presented : request.cookies.lookup sessionCookie = some sid) :
    ∃ rest, (handleLogout runtime request answers :
        Handler Principal Response).calls =
      .get sid answers.record :: .delete sid answers.deleted ::
        ((answers.refreshToken.map fun token =>
          HandlerCall.revoke token answers.revoked).toList ++ rest) ∧
      ∀ call ∈ rest, ∃ idToken, call = .buildEndSessionUrl
        runtime.postLogoutRedirectUri answers.state idToken
          answers.endSessionUrl := by
  have found : (match answers.record with
      | .ok session => session
      | .down => none).bind SessionRecord.refreshToken =
        answers.refreshToken := by
    unfold LogoutAnswers.refreshToken
    cases answers.record <;> rfl
  cases deleted : answers.deleted with
  | ok value =>
      simp only [handleLogout, presented, deleted, record_bind_calls,
        completeLogout_calls, found]
      refine ⟨_, rfl, ?_⟩
      simp
  | down =>
      refine ⟨[], ?_, by simp⟩
      simp only [handleLogout, presented, deleted, record_bind_calls, found]
      cases answers.refreshToken <;> simp

theorem handleLogout_sound :
    LogoutSound request (handleLogout runtime request answers :
      Handler Principal Response) := by
  have unavailable : NoCookieUnavailable
      (handleLogout runtime request answers : Handler Principal Response) :=
    handleLogout_noCookie runtime request answers
  cases presented : request.cookies.lookup sessionCookie with
  | none =>
      have calls : (handleLogout runtime request answers :
          Handler Principal Response).calls =
          [.buildEndSessionUrl runtime.postLogoutRedirectUri answers.state
            none answers.endSessionUrl] := by
        simp [handleLogout, presented, completeLogout_calls]
      refine ⟨?_, ?_, ?_, unavailable⟩
      · intro _ _ _ sid offered
        simp [presented] at offered
      · intro sid session token read
        simp [calls] at read
      · intro before token accepted rest split
        have revoked : HandlerCall.revoke token accepted ∈
            (handleLogout runtime request answers :
              Handler Principal Response).calls := by
          rw [split]
          simp
        simp [calls] at revoked
  | some sid =>
      obtain ⟨rest, calls, later⟩ :=
        @handleLogout_calls Principal runtime request answers sid presented
      refine ⟨?_, ?_, ?_, unavailable⟩
      · intro response answered cleared other offered
        have same : sid = other := by simpa [presented] using offered
        subst same
        cases deleted : answers.deleted with
        | ok value => simp [calls, deleted]
        | down =>
            simp only [handleLogout, presented, deleted,
              record_bind_outcome] at answered
            obtain ⟨_, _, answered⟩ := bind_outcome_ok.mp answered
            have same : storeUnavailableResponse
                (.post (runtime.basePath ++ "/auth/logout")) = response := by
              simpa using answered
            subst same
            simp [storeUnavailableResponse] at cleared
      · intro other session token read present
        have found : answers.record = .ok (some session) := by
          rw [calls] at read
          simp only [List.mem_cons, HandlerCall.get.injEq, reduceCtorEq,
            List.mem_append, Option.mem_toList, Option.map_eq_some_iff,
            and_false, exists_false, false_or] at read
          rcases read with ⟨_, read⟩ | read
          · exact read.symm
          · obtain ⟨_, made⟩ := later _ read
            cases made
        refine ⟨answers.revoked, ?_⟩
        simp [calls, LogoutAnswers.refreshToken, found, present]
      · intro before token accepted rest' split
        rw [calls] at split
        refine ⟨sid, answers.deleted, presented, ?_⟩
        match before with
        | [] => simp at split
        | [first] => simp at split
        | first :: second :: before =>
            simp only [List.cons_append, List.cons.injEq] at split
            simp [split.2.1]

end Logout

/-- Neither handler leaves a half-state, exactly where `Headers` takes the
target that a session is redirected to. -/
theorem handlers_sound_iff (runtime : AuthRuntime) (request : Request)
    (answers : CallbackAnswers Principal)
    (fresh : answers.stored ≠ .ok false) :
    (CallbackSound (handleCallback runtime request answers) ∧
      ∀ leaving left, LogoutSound leaving
        (handleLogout runtime leaving left : Handler Principal Response)) ↔
      TargetAccepted runtime request answers := by
  rw [callbackSound_iff fresh]
  constructor
  · exact And.left
  · intro targetAccepted
    exact ⟨targetAccepted, fun leaving left =>
      handleLogout_sound runtime leaving⟩

def sampleRuntime : AuthRuntime where
  basePath := "/iam"
  redirectUri := "https://console.example/iam/auth/callback"
  postLogoutRedirectUri := "https://console.example/iam/"
  clientId := "console"
  ttlMs := 1800000
  absoluteTtlMs := 28800000
  secretMatchesHash := fun secret hash => secret = hash
  decodePayload := fun _ => none

def sampleCallback : Request where
  cookies := [("__Host-pgs_txn_s", "secret")]
  query := "?state=s&code=c"
  state := some "s"
  hasError := false

/-- Every call succeeds; the login asked for `returnTo`. -/
def sampleAnswers (returnTo : String) : CallbackAnswers Unit where
  transaction := .ok (some ⟨"verifier", "nonce", returnTo, "secret", 0⟩)
  grant := .tokens ⟨"access", some "refresh", 300, "id", ⟨"iss", "sub"⟩⟩
  principal := ()
  deleted := .ok ()
  sid := "sid"
  now := 0
  stored := .ok true
  revoked := true

theorem handlers_sound_iff_sample :
    CallbackSound
      (handleCallback sampleRuntime sampleCallback (sampleAnswers "/iam/")) := by
  refine ((handlers_sound_iff sampleRuntime sampleCallback
    (sampleAnswers "/iam/") (by simp [sampleAnswers])).mpr ?_).1
  intro state tx tokens exchanges _kept _present
  have same : (⟨"verifier", "nonce", "/iam/", "secret", 0⟩ :
      LoginTransaction) = tx := by
    simpa [sampleAnswers] using exchanges.taken
  subst same
  decide

/-- The login asked for a path with a character that no header takes: the
session is stored, and neither its cookie nor its refresh token goes anywhere. -/
theorem handleCallback_orphans_session :
    HandlerCall.set "sid" (newRecord sampleRuntime
        ⟨"access", some "refresh", 300, "id", ⟨"iss", "sub"⟩⟩ 0) ()
        1800000 (.ok true) ∈
      (handleCallback sampleRuntime sampleCallback
        (sampleAnswers "/iam/€")).calls ∧
    (handleCallback sampleRuntime sampleCallback
      (sampleAnswers "/iam/€")).outcome = .error .typeError ∧
    ¬ CallbackSound (handleCallback sampleRuntime sampleCallback
      (sampleAnswers "/iam/€")) := by
  have exchanges : Exchanges sampleRuntime sampleCallback
      (sampleAnswers "/iam/€") ⟨"verifier", "nonce", "/iam/€", "secret", 0⟩
      ⟨"access", some "refresh", 300, "id", ⟨"iss", "sub"⟩⟩ "s" := by
    refine ⟨rfl, ⟨"secret", ?_, ?_⟩, rfl, rfl, rfl⟩
    · decide
    · decide
  have kept : ¬ StoreFails sampleCallback (sampleAnswers "/iam/€") := by
    simp [StoreFails, sampleAnswers]
  have refused : headerValue? "/iam/€" = none := by decide
  obtain ⟨outcome, stored⟩ := afterExchange_of_stored sampleRuntime
    ⟨"verifier", "nonce", "/iam/€", "secret", 0⟩
    ⟨"access", some "refresh", 300, "id", ⟨"iss", "sub"⟩⟩ kept rfl
  refine ⟨?_, ?_, ?_⟩
  · rw [exchanges.run_eq]
    simp only [record_bind_calls, List.mem_cons]
    exact .inr (.inr (.inr stored))
  · rw [exchanges.outcome_eq, outcome]
    simp [redirectSignedIn, refused]
  · intro sound
    have targetAccepted := (callbackSound_iff (by simp [sampleAnswers])).mp
      sound _ _ _ exchanges kept rfl
    simp [refused] at targetAccepted

end HalfStates

end Paigasus.Auth
