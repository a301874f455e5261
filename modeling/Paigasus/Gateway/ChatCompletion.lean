import Paigasus.Foundation.Transition
import Paigasus.Gateway.ChargeGuard

/-!
# The chat completion exchange

One exchange is the handler of a chat request together with the relay of its
answer.  It waits for the store, for the upstream and for every chunk, and the
client may go away at each of these points; the guard is dropped by whichever
part owns it then.
-/

namespace Paigasus.Gateway

open Foundation

/-- An error of the HTTP client; a connect timeout is both of these. -/
structure RequestError where
  isTimeout : Bool
  isConnect : Bool
deriving DecidableEq

inductive OpenAiError where
  | build
  | connect
  | timeout
  | transport
  | caBundle
deriving DecidableEq

def OpenAiError.fromRequest (error : RequestError) : OpenAiError :=
  if error.isTimeout then .timeout
  else if error.isConnect then .connect
  else .transport

/-- What happens on the wire: the request fails, or the upstream answers with a
status, and the whole body may then fail to arrive. -/
inductive Wire where
  | sendFailed (error : RequestError)
  | answered (status : Nat) (body : Except RequestError (List UInt8))
deriving DecidableEq

inductive ChatResponse where
  | full (status : Nat) (body : List UInt8)
  | stream (status : Nat)
deriving DecidableEq

/-- The upstream client: a streamed answer is handed over at its head. -/
def chatCompletion (stream : Bool) : Wire → Except OpenAiError ChatResponse
  | .sendFailed error => .error (.fromRequest error)
  | .answered status body =>
      if stream then
        .ok (.stream status)
      else
        match body with
        | .ok bytes => .ok (.full status bytes)
        | .error error => .error (.fromRequest error)

def isSuccess (status : Nat) : Bool := 200 ≤ status && status < 300

inductive GatewayError where
  | internal
  | badRequestBody
  | invalidRequestSchema
  | streamingDisabled
  | upstreamUnavailable
  | upstreamTimeout
  | rateLimited (retryAfterSecs : Nat)
  | budgetExhausted (resetsAtUnix : Int) (period : BudgetPeriod)
deriving DecidableEq

namespace GatewayError

def ofRefusal : LimitRefusal → GatewayError
  | .rateLimited retryAfterSecs _ => .rateLimited retryAfterSecs
  | .budgetExhausted period resetsAtUnix => .budgetExhausted resetsAtUnix period
  | .unscoped => .internal

def ofUpstream : OpenAiError → GatewayError
  | .timeout => .upstreamTimeout
  | _ => .upstreamUnavailable

end GatewayError

def terminalSseError : List UInt8 :=
  utf8 "\n\ndata: \x7b\"error\":\x7b\"message\":\"upstream stream error\",\"type\":\"api_error\",\"param\":null,\"code\":\"upstream-error\"\x7d\x7d\n\n"

inductive StreamState where
  | streaming
  | done
deriving DecidableEq

structure Relay where
  phase : StreamState
  scan : UsageScanner
  guard : Option ChargeGuard
deriving DecidableEq

/-- What the upstream stream yields. -/
inductive UpstreamItem where
  | chunk (bytes : List UInt8)
  | failed
  | ended
deriving DecidableEq

namespace Relay

def start (guard : Option ChargeGuard) : Relay := ⟨.streaming, .new, guard⟩

/-- Without a guard the scanner reads nothing. -/
def feed (json : JsonReader) (relay : Relay) (chunk : List UInt8) : Relay :=
  match relay.guard with
  | none => relay
  | some guard =>
      let scan := relay.scan.feed json chunk
      { relay with
        scan
        guard := some (guard.setStreamProgress scan.records scan.reported) }

def finishScan (json : JsonReader) (relay : Relay) : Relay :=
  match relay.guard with
  | none => relay
  | some guard =>
      let scan := relay.scan.finish json
      { relay with
        scan
        guard := some (guard.setStreamProgress scan.records scan.reported) }

end Relay

/-- The head of the response. -/
inductive Answer where
  | refused (error : GatewayError)
  | forwarded (status : Nat) (contentType : String)
deriving DecidableEq

/-- Where the exchange waits, with the guard it owns there. -/
inductive Phase where
  | admitting (dto : ChatCompletionRequest) (check : StoreCheck)
  | egress (stream : Bool) (guard : Option ChargeGuard)
  | relaying (relay : Relay)
  | passing
  | closed

/-- An exchange with everything others can see of it: the request sent to the
upstream, the answer, the bytes of its body, and the charges. -/
structure Exchange where
  phase : Phase
  upstreamCall : Option (List UInt8 × Bool)
  answer : Option Answer
  body : List UInt8
  charges : List Charge

structure ChatRequest where
  caller : Option CallerContext
  body : List UInt8

structure AppState where
  serde : Serde
  chatStream : Bool
  limits : Option LimitRules

inductive ChatEvent where
  | store (reply : StoreReply)
  | upstream (wire : Wire)
  | item (item : UpstreamItem)
  | pollDone
  | clientDrop
deriving DecidableEq

namespace Exchange

/-- The exchange ends, and the guard goes out of scope. -/
def close (exchange : Exchange) (guard : Option ChargeGuard)
    (now : SystemTime) : Exchange :=
  { exchange with
    phase := .closed
    charges := exchange.charges ++ (guard.map (ChargeGuard.drop · now)).getD [] }

def refuse (error : GatewayError) : Exchange :=
  ⟨.closed, none, some (.refused error), [], []⟩

/-- The request leaves the gateway; the guard is marked just before. -/
def call (request : ChatRequest) (dto : ChatCompletionRequest)
    (guard : Option ChargeGuard) : Exchange where
  phase := .egress dto.stream (guard.map fun guard =>
    (guard.setRequestEstimate
      (requestTokensEstimate dto.messages request.body.length)).markSent)
  upstreamCall := some (request.body, dto.stream)
  answer := none
  body := []
  charges := []

/-- The handler up to its first wait. -/
def chatCompletions (state : AppState) (request : ChatRequest) : Exchange :=
  match request.caller with
  | none => refuse .internal
  | some caller =>
      match state.serde.request request.body with
      | .error .data => refuse .invalidRequestSchema
      | .error .unreadable => refuse .badRequestBody
      | .ok dto =>
          if dto.stream && !state.chatStream then
            refuse .streamingDisabled
          else
            match state.limits with
            | none => call request dto none
            | some rules =>
                match Limits.admission rules caller with
                | .error refusal => refuse (.ofRefusal refusal)
                | .ok (.inl guard) => call request dto (some guard)
                | .ok (.inr check) =>
                    ⟨.admitting dto check, none, none, [], []⟩

/-- The guard after a full answer. -/
def settleFull (serde : Serde) (status : Nat) (body : List UInt8)
    (guard : ChargeGuard) : ChargeGuard :=
  if isSuccess status then
    match nonStreamUsage serde body with
    | .reported total => guard.setReported total
    | .completion tokens => guard.setCompletionEstimate tokens
  else
    guard.markNoCharge

/-- The handler after the upstream: it returns the response, and what is left
of the guard is dropped with the other locals. -/
def respond (serde : Serde) (exchange : Exchange) (guard : Option ChargeGuard)
    (now : SystemTime) : Except OpenAiError ChatResponse → Exchange
  | .ok (.full status body) =>
      { exchange with
        answer := some (.forwarded status "application/json")
        body }.close (guard.map (settleFull serde status body)) now
  | .ok (.stream status) =>
      if isSuccess status then
        { exchange with
          answer := some (.forwarded status "text/event-stream")
          phase := .relaying (.start guard) }
      else
        { { exchange with
            answer := some (.forwarded status "application/json") }.close
              (guard.map ChargeGuard.markNoCharge) now with
          phase := .passing }
  | .error error =>
      { exchange with
        answer := some (.refused (.ofUpstream error)) }.close
          (if error = OpenAiError.connect then guard.map ChargeGuard.markNoCharge
            else guard) now

/-- One poll of the relay while the upstream streams. -/
def relayItem (json : JsonReader) (exchange : Exchange) (relay : Relay)
    (now : SystemTime) : UpstreamItem → Exchange
  | .chunk bytes =>
      { exchange with
        phase := .relaying (relay.feed json bytes)
        body := exchange.body ++ bytes }
  | .failed =>
      { exchange with
        phase := .relaying { relay.finishScan json with phase := .done }
        body := exchange.body ++ terminalSseError }
  | .ended => exchange.close (relay.finishScan json).guard now

/-- A non-2xx stream is passed on as it is. -/
def passItem (exchange : Exchange) : UpstreamItem → Exchange
  | .chunk bytes => { exchange with body := exchange.body ++ bytes }
  | _ => { exchange with phase := .closed }

/-- The guard of the part that is waiting. -/
def guard? (exchange : Exchange) : Option ChargeGuard :=
  match exchange.phase with
  | .egress _ guard => guard
  | .relaying relay => relay.guard
  | _ => none

/-- One event at an instant; `none` when the exchange does not wait for it. -/
def step (state : AppState) (request : ChatRequest) (exchange : Exchange)
    (moment : ChatEvent × SystemTime) : Option Exchange :=
  match exchange.phase, moment.1 with
  | .closed, _ => none
  | _, .clientDrop => some (exchange.close exchange.guard? moment.2)
  | .admitting dto _, .store reply =>
      match Limits.settle reply with
      | .ok guard => some (call request dto (some guard))
      | .error refusal => some (refuse (.ofRefusal refusal))
  | .egress stream guard, .upstream wire =>
      some (exchange.respond state.serde guard moment.2
        (chatCompletion stream wire))
  | .relaying relay, .item item =>
      if relay.phase = .streaming then
        some (exchange.relayItem state.serde.reader relay moment.2 item)
      else
        none
  | .relaying relay, .pollDone =>
      if relay.phase = .done then some (exchange.close relay.guard moment.2)
      else none
  | .passing, .item item => some (exchange.passItem item)
  | _, _ => none

end Exchange

end Paigasus.Gateway
