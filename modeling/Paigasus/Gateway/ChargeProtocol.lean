import Paigasus.Gateway.ChatCompletion

/-!
# The charge protocol

The charges of an exchange are read off the history of its events: the ticket
the store granted, the answer of the upstream and the chunks that arrived.  A
gateway without limits sends and forwards the same bytes.
-/

namespace Paigasus.Gateway

open Foundation

namespace ChatEvent

def wire? : ChatEvent → Option Wire
  | upstream wire => some wire
  | _ => none

def chunk? : ChatEvent → Option (List UInt8)
  | item (.chunk bytes) => some bytes
  | _ => none

/-- The upstream stream ended or failed. -/
def closesStream : ChatEvent → Bool
  | item .failed => true
  | item .ended => true
  | _ => false

def isStore : ChatEvent → Bool
  | store _ => true
  | _ => false

end ChatEvent

/-- The events of an exchange so far. -/
abbrev History : Type := List ChatEvent

namespace History

def wires (history : History) : List Wire := history.filterMap ChatEvent.wire?

/-- The store granted the ticket. -/
def Granted (history : History) (ticket : LimitTicket) : Prop :=
  .store (.decided (.admitted (some ticket))) ∈ history

/-- The scanner that has read the chunks of the history. -/
def scanned (json : JsonReader) (history : History) : UsageScanner :=
  let fed := (history.filterMap ChatEvent.chunk?).foldl (UsageScanner.feed json)
    .new
  if history.any ChatEvent.closesStream then fed.finish json else fed

/-- The usage the answer reported, and the estimate of its completion. -/
def usage (serde : Serde) (stream : Bool) (history : History) :
    Option Nat × Nat :=
  match history.wires.head? with
  | some (.answered _ body) =>
      if stream then
        let scan := history.scanned serde.reader
        (scan.reported, scan.records)
      else
        match body with
        | .ok bytes =>
            match nonStreamUsage serde bytes with
            | .reported total => (some total, 0)
            | .completion tokens => (none, tokens)
        | .error _ => (none, 0)
  | _ => (none, 0)

section Append

variable {history : History} {event : ChatEvent} {json : JsonReader}

theorem wires_append :
    wires (history ++ [event]) = history.wires ++ event.wire?.toList := by
  unfold wires
  rw [List.filterMap_append]
  cases event with
  | upstream wire => rfl
  | _ => rfl

theorem scanned_chunk {bytes : List UInt8}
    (running : history.any ChatEvent.closesStream = false) :
    scanned json (history ++ [ChatEvent.item (.chunk bytes)]) =
      (history.scanned json).feed json bytes := by
  unfold scanned
  rw [List.any_append, List.filterMap_append, List.foldl_append, running]
  rfl

theorem scanned_end (running : history.any ChatEvent.closesStream = false)
    (closes : event.closesStream = true) :
    scanned json (history ++ [event]) = (history.scanned json).finish json := by
  have noChunk : event.chunk? = none := by
    cases event with
    | item item =>
        cases item with
        | chunk bytes => cases closes
        | _ => rfl
    | _ => rfl
  unfold scanned
  rw [List.any_append, List.filterMap_append, running]
  simp [closes, noChunk]

theorem scanned_other (noChunk : event.chunk? = none)
    (goesOn : event.closesStream = false) :
    scanned json (history ++ [event]) = history.scanned json := by
  unfold scanned
  rw [List.any_append, List.filterMap_append]
  simp [goesOn, noChunk]

/-- Before the upstream is called only the store has answered. -/
theorem wires_of_stores (stores : ∀ event ∈ history, event.isStore = true) :
    history.wires = [] := by
  apply List.filterMap_eq_nil_iff.mpr
  intro event member
  have isStore := stores event member
  cases event with
  | store reply => rfl
  | _ => cases isStore

theorem scanned_of_stores (stores : ∀ event ∈ history, event.isStore = true) :
    history.scanned json = .new := by
  induction history using List.reverseRecOn with
  | nil => rfl
  | append_singleton history event ih =>
      have isStore := stores event (by simp)
      have before := ih fun earlier member =>
        stores earlier (List.mem_append_left _ member)
      cases event with
      | store reply => rw [scanned_other rfl rfl, before]
      | _ => cases isStore

end Append

end History

/-- The tokens of a reported usage, or else of an estimate, under the cap. -/
def tokensDue (reported : Option Nat) (estimate : Nat) : Nat :=
  min (reported.getD estimate) maxTokensPerCharge

/-- The upstream client reports a connect failure or a non-2xx answer. -/
def Unbilled (stream : Bool) (wire : Wire) : Prop :=
  match chatCompletion stream wire with
  | .error error => error = .connect
  | .ok (.full status _) => isSuccess status = false
  | .ok (.stream status) => isSuccess status = false

namespace ChargeGuard

variable {guard : ChargeGuard}

theorem tokens_sent (sent : guard.phase = .sent) :
    guard.tokens = tokensDue guard.reported
      (guard.requestEstimate + guard.completionEstimate) := by
  have small : maxTokensPerCharge ≤ U64.maxValue := by decide
  unfold tokens tokensDue
  rw [sent]
  cases guard.reported with
  | some total => rfl
  | none =>
      dsimp only [Option.getD_none]
      rw [U64.saturatingAdd, min_assoc, min_eq_right small]

theorem mem_drop {charge : Charge} {now : SystemTime}
    (dropped : charge ∈ guard.drop now) :
    guard.ticket = some charge.ticket ∧ charge.tokens = guard.tokens := by
  unfold drop at dropped
  split at dropped
  case h_1 ticket held =>
    split at dropped
    · rw [List.mem_singleton] at dropped
      subst dropped
      exact ⟨held, rfl⟩
    · cases dropped
  case h_2 => cases dropped

theorem drop_length (now : SystemTime) : (guard.drop now).length ≤ 1 := by
  unfold drop
  split
  · split
    · exact le_refl 1
    · exact Nat.zero_le 1
  · exact Nat.zero_le 1

theorem drop_markNoCharge (now : SystemTime) :
    guard.markNoCharge.drop now = [] := by
  unfold drop
  split
  · exact if_neg (Nat.lt_irrefl 0)
  · rfl

end ChargeGuard

namespace Exchange

/-- What one event can do to an exchange. -/
inductive Stepped (state : AppState) (request : ChatRequest)
    (exchange : Exchange) : ChatEvent × SystemTime → Exchange → Prop where
  | clientDrop (now : SystemTime) (waiting : exchange.phase ≠ .closed) :
      Stepped state request exchange (.clientDrop, now)
        (exchange.close exchange.guard? now)
  | granted {dto : ChatCompletionRequest} {check : StoreCheck}
      {reply : StoreReply} {guard : ChargeGuard} (now : SystemTime)
      (waiting : exchange.phase = .admitting dto check)
      (settled : Limits.settle reply = .ok guard) :
      Stepped state request exchange (.store reply, now)
        (call request dto (some guard))
  | refused {dto : ChatCompletionRequest} {check : StoreCheck}
      {reply : StoreReply} {refusal : LimitRefusal} (now : SystemTime)
      (waiting : exchange.phase = .admitting dto check)
      (settled : Limits.settle reply = .error refusal) :
      Stepped state request exchange (.store reply, now)
        (refuse (.ofRefusal refusal))
  | upstream {stream : Bool} {guard : Option ChargeGuard} (wire : Wire)
      (now : SystemTime) (waiting : exchange.phase = .egress stream guard) :
      Stepped state request exchange (.upstream wire, now)
        (exchange.respond state.serde guard now (chatCompletion stream wire))
  | relayed {relay : Relay} (item : UpstreamItem) (now : SystemTime)
      (waiting : exchange.phase = .relaying relay)
      (streaming : relay.phase = .streaming) :
      Stepped state request exchange (.item item, now)
        (exchange.relayItem state.serde.reader relay now item)
  | pollDone {relay : Relay} (now : SystemTime)
      (waiting : exchange.phase = .relaying relay)
      (done : relay.phase = .done) :
      Stepped state request exchange (.pollDone, now)
        (exchange.close relay.guard now)
  | passed (item : UpstreamItem) (now : SystemTime)
      (waiting : exchange.phase = .passing) :
      Stepped state request exchange (.item item, now)
        (exchange.passItem item)

theorem step_cases {state : AppState} {request : ChatRequest}
    {exchange next : Exchange} {moment : ChatEvent × SystemTime}
    (stepped : step state request exchange moment = some next) :
    Stepped state request exchange moment next := by
  obtain ⟨event, now⟩ := moment
  unfold step at stepped
  split at stepped
  case h_1 => cases stepped
  case h_2 dropped waiting =>
    cases stepped
    dsimp only at dropped
    subst dropped
    exact .clientDrop now waiting
  case h_3 waiting answered =>
    dsimp only at answered
    subst answered
    split at stepped
    case h_1 settled =>
      cases stepped
      exact .granted now waiting settled
    case h_2 settled =>
      cases stepped
      exact .refused now waiting settled
  case h_4 waiting answered =>
    cases stepped
    dsimp only at answered
    subst answered
    exact .upstream _ now waiting
  case h_5 waiting arrived =>
    dsimp only at arrived
    subst arrived
    split at stepped
    case isTrue streaming =>
      cases stepped
      exact .relayed _ now waiting streaming
    case isFalse => cases stepped
  case h_6 waiting polled =>
    dsimp only at polled
    subst polled
    split at stepped
    case isTrue done =>
      cases stepped
      exact .pollDone now waiting done
    case isFalse => cases stepped
  case h_7 waiting arrived =>
    cases stepped
    dsimp only at arrived
    subst arrived
    exact .passed _ now waiting
  case h_8 => cases stepped

/-- The guard of a request that was sent. -/
structure Owned (request : ChatRequest) (dto : ChatCompletionRequest)
    (history : History) (guard : ChargeGuard) : Prop where
  sent : guard.phase = .sent
  estimate : guard.requestEstimate =
    requestTokensEstimate dto.messages request.body.length
  ticket : ∀ ticket, guard.ticket = some ticket → history.Granted ticket

/-- The charge is the one that the history asks for. -/
structure Justified (serde : Serde) (request : ChatRequest)
    (dto : ChatCompletionRequest) (history : History) (charge : Charge) :
    Prop where
  granted : history.Granted charge.ticket
  billed : ∀ wire ∈ history.wires, ¬ Unbilled dto.stream wire
  amount : charge.tokens = tokensDue (history.usage serde dto.stream).1
    (requestTokensEstimate dto.messages request.body.length +
      (history.usage serde dto.stream).2)

/-- The exchange has sent the parsed request to the upstream. -/
def Sent (serde : Serde) (request : ChatRequest) (dto : ChatCompletionRequest)
    (exchange : Exchange) : Prop :=
  serde.request request.body = .ok dto ∧
    exchange.upstreamCall = some (request.body, dto.stream)

/-- The guard has seen the usage of the history. -/
def UpToDate (serde : Serde) (dto : ChatCompletionRequest) (history : History)
    (guard : ChargeGuard) : Prop :=
  (guard.reported, guard.completionEstimate) = history.usage serde dto.stream

/-- The books of an exchange after the events of its history. -/
inductive Accounted (serde : Serde) (request : ChatRequest)
    (history : History) (exchange : Exchange) : Prop where
  | admitting {dto : ChatCompletionRequest} {check : StoreCheck}
      (waiting : exchange.phase = .admitting dto check)
      (parsed : serde.request request.body = .ok dto)
      (start : history = []) (uncharged : exchange.charges = [])
  | egress {dto : ChatCompletionRequest} {guard : Option ChargeGuard}
      (waiting : exchange.phase = .egress dto.stream guard)
      (sent : Sent serde request dto exchange)
      (noAnswer : ∀ event ∈ history, event.isStore = true)
      (owned : ∀ held ∈ guard, Owned request dto history held ∧
        UpToDate serde dto history held)
      (uncharged : exchange.charges = [])
  | relaying {dto : ChatCompletionRequest} {relay : Relay} {status : Nat}
      {body : Except RequestError (List UInt8)}
      (waiting : exchange.phase = .relaying relay)
      (sent : Sent serde request dto exchange)
      (streams : dto.stream = true)
      (answer : history.wires = [.answered status body])
      (success : isSuccess status = true)
      (running : relay.phase = .streaming →
        history.any ChatEvent.closesStream = false)
      (owned : ∀ held ∈ relay.guard, Owned request dto history held ∧
        UpToDate serde dto history held ∧
        relay.scan = history.scanned serde.reader)
      (uncharged : exchange.charges = [])
  | passing (waiting : exchange.phase = .passing)
      (uncharged : exchange.charges = [])
  | closed (finished : exchange.phase = .closed)
      (once : exchange.charges.length ≤ 1)
      (justified : ∀ charge ∈ exchange.charges, ∃ dto,
        Sent serde request dto exchange ∧
        Justified serde request dto history charge)

section Accounting

variable {serde : Serde} {request : ChatRequest} {dto : ChatCompletionRequest}
  {history : History} {exchange : Exchange}

theorem Owned.append {guard : ChargeGuard}
    (owned : Owned request dto history guard) (event : ChatEvent) :
    Owned request dto (history ++ [event]) guard where
  sent := owned.sent
  estimate := owned.estimate
  ticket ticket held :=
    List.mem_append_left [event] (owned.ticket ticket held)

/-- The drop of an owned guard that is up to date settles the exchange. -/
theorem Accounted.close (dto : ChatCompletionRequest)
    {guard : Option ChargeGuard}
    (sent : Sent serde request dto exchange)
    (uncharged : exchange.charges = [])
    (owned : ∀ held ∈ guard, Owned request dto history held ∧
      UpToDate serde dto history held)
    (billed : ∀ wire ∈ history.wires, ¬ Unbilled dto.stream wire)
    (now : SystemTime) :
    Accounted serde request history (exchange.close guard now) := by
  have charges : (exchange.close guard now).charges =
      (guard.map (ChargeGuard.drop · now)).getD [] := by
    simp [Exchange.close, uncharged]
  cases guard with
  | none =>
      refine .closed rfl ?_ ?_
      · rw [charges]
        exact Nat.zero_le 1
      · intro charge member
        rw [charges] at member
        cases member
  | some guard =>
      obtain ⟨held, upToDate⟩ := owned guard rfl
      have reported := congrArg Prod.fst upToDate
      have completion := congrArg Prod.snd upToDate
      refine .closed rfl ?_ ?_
      · rw [charges]
        exact ChargeGuard.drop_length now
      · intro charge member
        rw [charges] at member
        obtain ⟨ticket, tokens⟩ := ChargeGuard.mem_drop member
        refine ⟨dto, sent, held.ticket _ ticket, billed, ?_⟩
        rw [tokens, ChargeGuard.tokens_sent held.sent, held.estimate,
          ← reported, ← completion]

theorem close_markNoCharge (uncharged : exchange.charges = [])
    (guard : Option ChargeGuard) (now : SystemTime) :
    (exchange.close (guard.map ChargeGuard.markNoCharge) now).charges = [] := by
  unfold Exchange.close
  cases guard with
  | none => simp [uncharged]
  | some guard => simp [uncharged, ChargeGuard.drop_markNoCharge]

theorem Accounted.uncharged (finished : exchange.phase = .closed)
    (uncharged : exchange.charges = []) :
    Accounted serde request history exchange := by
  refine .closed finished ?_ ?_
  · rw [uncharged]
    exact Nat.zero_le 1
  · intro charge member
    rw [uncharged] at member
    cases member

/-- A guard without charge settles every exchange. -/
theorem Accounted.unbilled (uncharged : exchange.charges = [])
    (guard : Option ChargeGuard) (now : SystemTime) :
    Accounted serde request history
      (exchange.close (guard.map ChargeGuard.markNoCharge) now) :=
  .uncharged rfl (close_markNoCharge uncharged guard now)

section Respond

variable {guard : Option ChargeGuard} {wire : Wire}

theorem usage_of_stores (stores : ∀ event ∈ history, event.isStore = true)
    (stream : Bool) : history.usage serde stream = (none, 0) := by
  unfold History.usage
  rw [History.wires_of_stores stores]
  rfl

theorem wires_answered (stores : ∀ event ∈ history, event.isStore = true) :
    History.wires (history ++ [ChatEvent.upstream wire]) = [wire] := by
  rw [History.wires_append, History.wires_of_stores stores]
  rfl

/-- The upstream client failed: a connect failure costs nothing. -/
theorem Accounted.respond_error {error : OpenAiError}
    (sent : Sent serde request dto exchange)
    (stores : ∀ event ∈ history, event.isStore = true)
    (owned : ∀ held ∈ guard, Owned request dto history held ∧
      UpToDate serde dto history held)
    (uncharged : exchange.charges = [])
    (failed : chatCompletion dto.stream wire = .error error)
    (now : SystemTime) :
    Accounted serde request (history ++ [ChatEvent.upstream wire])
      (exchange.respond serde guard now (.error error)) := by
  unfold Exchange.respond
  dsimp only
  by_cases connect : error = OpenAiError.connect
  · rw [if_pos connect]
    apply Accounted.unbilled
    exact uncharged
  · rw [if_neg connect]
    have noUsage : History.usage serde dto.stream
        (history ++ [ChatEvent.upstream wire]) = (none, 0) := by
      unfold History.usage
      rw [wires_answered stores]
      cases wire with
      | sendFailed failure => rfl
      | answered status body =>
          cases stream : dto.stream with
          | true => simp [chatCompletion, stream] at failed
          | false =>
              cases body with
              | ok bytes => simp [chatCompletion, stream] at failed
              | error failure => rfl
    refine .close dto ?_ ?_ ?_ ?_ now
    · exact sent
    · exact uncharged
    · intro held isGuard
      obtain ⟨mine, upToDate⟩ := owned held isGuard
      refine ⟨mine.append _, ?_⟩
      unfold UpToDate at upToDate ⊢
      rw [noUsage, upToDate, usage_of_stores stores]
    · intro answer member
      rw [wires_answered stores, List.mem_singleton] at member
      subst member
      unfold Unbilled
      rw [failed]
      exact connect

/-- The upstream answered in full. -/
theorem Accounted.respond_full {status : Nat} {body : List UInt8}
    (sent : Sent serde request dto exchange)
    (stores : ∀ event ∈ history, event.isStore = true)
    (owned : ∀ held ∈ guard, Owned request dto history held ∧
      UpToDate serde dto history held)
    (uncharged : exchange.charges = []) (full : dto.stream = false)
    (now : SystemTime) :
    Accounted serde request
      (history ++ [ChatEvent.upstream (.answered status (.ok body))])
      (exchange.respond serde guard now (.ok (.full status body))) := by
  unfold Exchange.respond
  dsimp only
  cases success : isSuccess status with
  | false =>
      have spared : settleFull serde status body = ChargeGuard.markNoCharge := by
        funext held
        unfold settleFull
        rw [success]
        rfl
      rw [spared]
      apply Accounted.unbilled
      exact uncharged
  | true =>
      refine .close dto ?_ ?_ ?_ ?_ now
      · exact sent
      · exact uncharged
      · intro held isGuard
        obtain ⟨before, isBefore, rfl⟩ := Option.map_eq_some_iff.mp isGuard
        obtain ⟨mine, upToDate⟩ := owned before isBefore
        have noUsage := upToDate.trans (usage_of_stores stores dto.stream)
        have reported : before.reported = none := congrArg Prod.fst noUsage
        have completion : before.completionEstimate = 0 :=
          congrArg Prod.snd noUsage
        unfold settleFull UpToDate History.usage
        rw [wires_answered stores, full, if_pos success]
        cases said : nonStreamUsage serde body with
        | reported total =>
            refine ⟨⟨mine.sent, mine.estimate, (mine.append _).ticket⟩, ?_⟩
            simp [ChargeGuard.setReported, said, completion]
        | completion tokens =>
            refine ⟨⟨mine.sent, mine.estimate, (mine.append _).ticket⟩, ?_⟩
            simp [ChargeGuard.setCompletionEstimate, said, reported]
      · intro answer member
        rw [wires_answered stores, List.mem_singleton] at member
        subst member
        unfold Unbilled chatCompletion
        simp [full, success]

/-- The upstream answered with the head of a stream. -/
theorem Accounted.respond_stream {status : Nat}
    {body : Except RequestError (List UInt8)}
    (sent : Sent serde request dto exchange)
    (stores : ∀ event ∈ history, event.isStore = true)
    (owned : ∀ held ∈ guard, Owned request dto history held ∧
      UpToDate serde dto history held)
    (uncharged : exchange.charges = []) (streams : dto.stream = true)
    (now : SystemTime) :
    Accounted serde request
      (history ++ [ChatEvent.upstream (.answered status body)])
      (exchange.respond serde guard now (.ok (.stream status))) := by
  unfold Exchange.respond
  dsimp only
  cases success : isSuccess status with
  | false =>
      refine .passing rfl ?_
      exact close_markNoCharge uncharged guard now
  | true =>
      have unread : History.scanned serde.reader
          (history ++ [ChatEvent.upstream (.answered status body)]) = .new := by
        rw [History.scanned_other rfl rfl, History.scanned_of_stores stores]
      refine .relaying rfl sent streams (wires_answered stores)
        success ?_ ?_ uncharged
      · intro _
        rw [List.any_append, List.any_eq_false.mpr]
        · rfl
        · intro event member
          have isStore := stores event member
          cases event with
          | store reply => exact Bool.false_ne_true
          | _ => cases isStore
      · intro held isGuard
        obtain ⟨mine, upToDate⟩ := owned held isGuard
        refine ⟨mine.append _, ?_, unread.symm⟩
        have noUsage := upToDate.trans (usage_of_stores stores dto.stream)
        unfold UpToDate History.usage
        rw [wires_answered stores, streams, unread, noUsage]
        rfl

theorem Accounted.respond
    (sent : Sent serde request dto exchange)
    (stores : ∀ event ∈ history, event.isStore = true)
    (owned : ∀ held ∈ guard, Owned request dto history held ∧
      UpToDate serde dto history held)
    (uncharged : exchange.charges = []) (wire : Wire) (now : SystemTime) :
    Accounted serde request (history ++ [ChatEvent.upstream wire])
      (exchange.respond serde guard now (chatCompletion dto.stream wire)) := by
  cases wire with
  | sendFailed error => exact .respond_error sent stores owned uncharged rfl now
  | answered status body =>
      cases streams : dto.stream with
      | true => exact .respond_stream sent stores owned uncharged streams now
      | false =>
          cases body with
          | ok bytes =>
              exact .respond_full sent stores owned uncharged streams now
          | error error =>
              apply Accounted.respond_error sent stores owned uncharged
              rw [streams]
              rfl

end Respond

theorem upToDate_progress {guard : ChargeGuard} {scan next : UsageScanner}
    (reported : guard.reported = scan.reported)
    (unseen : next.reported = none → scan.reported = none) :
    ((guard.setStreamProgress next.records next.reported).reported,
      (guard.setStreamProgress next.records next.reported).completionEstimate)
      = (next.reported, next.records) := by
  unfold ChargeGuard.setStreamProgress
  cases seen : next.reported with
  | some total => rfl
  | none => simp [reported, unseen seen]

theorem mem_feed_guard {json : JsonReader} {relay : Relay}
    {bytes : List UInt8} {held : ChargeGuard}
    (member : held ∈ (relay.feed json bytes).guard) :
    ∃ guard, relay.guard = some guard ∧
      (relay.feed json bytes).scan = relay.scan.feed json bytes ∧
      held = guard.setStreamProgress (relay.scan.feed json bytes).records
        (relay.scan.feed json bytes).reported := by
  unfold Relay.feed at member ⊢
  cases isGuard : relay.guard with
  | none =>
      simp only [isGuard] at member
      cases member
  | some guard =>
      simp only [isGuard] at member
      cases member
      exact ⟨guard, rfl, rfl, rfl⟩

/-- A guard that follows the scanner of its relay. -/
theorem feed_owned {relay : Relay} {status : Nat}
    {body : Except RequestError (List UInt8)} {event : ChatEvent}
    {bytes : List UInt8} (streams : dto.stream = true)
    (answer : history.wires = [.answered status body])
    (noWire : event.wire? = none)
    (owned : ∀ held ∈ relay.guard, Owned request dto history held ∧
      UpToDate serde dto history held ∧
      relay.scan = history.scanned serde.reader)
    (scanned : History.scanned serde.reader (history ++ [event]) =
      (history.scanned serde.reader).feed serde.reader bytes)
    {held : ChargeGuard}
    (member : held ∈ (relay.feed serde.reader bytes).guard) :
    Owned request dto (history ++ [event]) held ∧
      UpToDate serde dto (history ++ [event]) held ∧
      (relay.feed serde.reader bytes).scan =
        History.scanned serde.reader (history ++ [event]) := by
  obtain ⟨guard, isGuard, feeds, rfl⟩ := mem_feed_guard member
  obtain ⟨mine, upToDate, sameScan⟩ := owned guard isGuard
  have reported : guard.reported = relay.scan.reported := by
    have seen := congrArg Prod.fst upToDate
    unfold History.usage at seen
    rw [answer, streams] at seen
    rw [sameScan]
    exact seen
  refine ⟨⟨mine.sent, mine.estimate, (mine.append event).ticket⟩, ?_, ?_⟩
  · unfold UpToDate History.usage
    rw [upToDate_progress reported (UsageScanner.feed_reported serde.reader),
      History.wires_append, answer, noWire, streams, scanned, sameScan]
    rfl
  · rw [feeds, scanned, sameScan]

/-- An event that brings nothing new may end the exchange. -/
theorem Accounted.drop {event : ChatEvent}
    (accounted : Accounted serde request history exchange)
    (waiting : exchange.phase ≠ .closed) (noWire : event.wire? = none)
    (noChunk : event.chunk? = none) (goesOn : event.closesStream = false)
    (now : SystemTime) :
    Accounted serde request (history ++ [event])
      (exchange.close exchange.guard? now) := by
  have quiet : History.wires (history ++ [event]) = history.wires := by
    rw [History.wires_append, noWire]
    exact List.append_nil _
  have sameScan : History.scanned serde.reader (history ++ [event]) =
      history.scanned serde.reader := History.scanned_other noChunk goesOn
  have sameUsage (stream : Bool) :
      History.usage serde stream (history ++ [event]) =
        history.usage serde stream := by
    unfold History.usage
    rw [quiet, sameScan]
  have unguarded (noGuard : exchange.guard? = none)
      (uncharged : exchange.charges = []) :
      Accounted serde request (history ++ [event])
        (exchange.close exchange.guard? now) := by
    rw [noGuard]
    exact .unbilled uncharged none now
  cases accounted with
  | admitting admitting _ _ uncharged =>
      exact unguarded (by simp [guard?, admitting]) uncharged
  | @egress dto guard egress sent stores owned uncharged =>
      have isGuard : exchange.guard? = guard := by simp [guard?, egress]
      rw [isGuard]
      refine .close dto sent uncharged ?_ ?_ now
      · intro held member
        obtain ⟨mine, upToDate⟩ := owned held member
        exact ⟨mine.append _, upToDate.trans (sameUsage _).symm⟩
      · rw [quiet, History.wires_of_stores stores]
        intro wire member
        cases member
  | @relaying dto relay status body relaying sent streams answer success _ owned
      uncharged =>
      have isGuard : exchange.guard? = relay.guard := by simp [guard?, relaying]
      rw [isGuard]
      refine .close dto sent uncharged ?_ ?_ now
      · intro held member
        obtain ⟨mine, upToDate, _⟩ := owned held member
        exact ⟨mine.append _, upToDate.trans (sameUsage _).symm⟩
      · rw [quiet, answer]
        intro wire member
        rw [List.mem_singleton] at member
        subst member
        simp [Unbilled, chatCompletion, streams, success]
  | passing passing uncharged =>
      exact unguarded (by simp [guard?, passing]) uncharged
  | closed finished => exact absurd finished waiting

theorem Accounted.granted {reply : StoreReply} {guard : ChargeGuard}
    (parsed : serde.request request.body = .ok dto)
    (settled : Limits.settle reply = .ok guard) :
    Accounted serde request [.store reply]
      (call request dto (some guard)) := by
  have fresh : ∃ ticket, guard = .new ticket ∧
      ∀ held, ticket = some held →
        History.Granted [.store reply] held := by
    unfold Limits.settle at settled
    split at settled
    case h_1 ticket =>
      cases settled
      refine ⟨ticket, rfl, ?_⟩
      rintro held rfl
      exact List.mem_singleton.mpr rfl
    case h_2 =>
      split at settled
      · cases settled
      · cases settled
        exact ⟨none, rfl, fun held impossible => by cases impossible⟩
    case h_3 =>
      cases settled
      exact ⟨none, rfl, fun held impossible => by cases impossible⟩
  obtain ⟨ticket, rfl, granted⟩ := fresh
  refine .egress rfl ⟨parsed, rfl⟩ ?_ ?_ rfl
  · intro event member
    rw [List.mem_singleton] at member
    subst member
    rfl
  · rintro held ⟨⟩
    exact ⟨⟨rfl, rfl, granted⟩, rfl⟩

theorem Accounted.relayItem {relay : Relay} {status : Nat}
    {body : Except RequestError (List UInt8)}
    (sent : Sent serde request dto exchange)
    (streams : dto.stream = true)
    (answer : history.wires = [.answered status body])
    (success : isSuccess status = true)
    (running : history.any ChatEvent.closesStream = false)
    (owned : ∀ held ∈ relay.guard, Owned request dto history held ∧
      UpToDate serde dto history held ∧
      relay.scan = history.scanned serde.reader)
    (uncharged : exchange.charges = []) (item : UpstreamItem)
    (now : SystemTime) :
    Accounted serde request (history ++ [ChatEvent.item item])
      (exchange.relayItem serde.reader relay now item) := by
  have quiet : History.wires (history ++ [ChatEvent.item item]) =
      [.answered status body] := by
    rw [History.wires_append, answer]
    rfl
  cases item with
  | chunk bytes =>
      refine .relaying rfl sent streams quiet success ?_ ?_ uncharged
      · intro _
        rw [List.any_append, running]
        rfl
      · intro held member
        exact feed_owned streams answer rfl owned
          (History.scanned_chunk running) member
  | failed =>
      refine .relaying rfl sent streams quiet success ?_ ?_ uncharged
      · intro impossible
        cases impossible
      · intro held member
        exact feed_owned streams answer rfl owned
          (History.scanned_end running rfl) member
  | ended =>
      refine .close dto sent uncharged ?_ ?_ now
      · intro held member
        have ends : ChatEvent.closesStream (.item .ended) = true := rfl
        obtain ⟨mine, upToDate, _⟩ := feed_owned streams answer rfl owned
          (History.scanned_end running ends) member
        exact ⟨mine, upToDate⟩
      · rw [quiet]
        intro wire member
        rw [List.mem_singleton] at member
        subst member
        simp [Unbilled, chatCompletion, streams, success]

/-- Every event keeps the books. -/
theorem Accounted.step {state : AppState} {event : ChatEvent}
    {now : SystemTime} {next : Exchange}
    (accounted : Accounted state.serde request history exchange)
    (stepped : Stepped state request exchange (event, now) next) :
    Accounted state.serde request (history ++ [event]) next := by
  cases stepped with
  | clientDrop _ waiting => exact accounted.drop waiting rfl rfl rfl now
  | granted _ waiting settled =>
      cases accounted with
      | admitting admitting parsed start _ =>
          rw [waiting] at admitting
          cases admitting
          rw [start]
          exact .granted parsed settled
      | _ => simp_all
  | refused _ waiting settled =>
      exact .uncharged rfl rfl
  | upstream wire _ waiting =>
      cases accounted with
      | egress egress sent stores owned uncharged =>
          rw [waiting] at egress
          cases egress
          exact .respond sent stores owned uncharged wire now
      | _ => simp_all
  | relayed item _ waiting streaming =>
      cases accounted with
      | relaying relaying sent streams answer success running owned uncharged =>
          rw [waiting] at relaying
          cases relaying
          exact .relayItem sent streams answer success (running streaming)
            owned uncharged item now
      | _ => simp_all
  | @pollDone relay _ waiting done =>
      have isGuard : exchange.guard? = relay.guard := by simp [guard?, waiting]
      rw [← isGuard]
      exact accounted.drop (by simp [waiting]) rfl rfl rfl now
  | passed item _ waiting =>
      cases accounted with
      | passing _ uncharged =>
          cases item with
          | chunk bytes => exact .passing waiting uncharged
          | _ => exact .uncharged rfl uncharged
      | _ => simp_all

/-- Every run keeps the books. -/
theorem Accounted.run {state : AppState}
    {moments : List (ChatEvent × SystemTime)} {final : Exchange}
    (accounted : Accounted state.serde request history exchange)
    (run : runFrom (Exchange.step state request) exchange moments =
      some final) :
    Accounted state.serde request (history ++ moments.map Prod.fst) final := by
  induction moments generalizing history exchange with
  | nil =>
      cases run
      rw [List.map_nil, List.append_nil]
      exact accounted
  | cons moment rest ih =>
      obtain ⟨next, stepped, remaining⟩ := runFrom_cons.mp run
      rw [List.map_cons, List.append_cons]
      exact ih (accounted.step (step_cases stepped)) remaining

end Accounting

theorem admission_unlimited {rules : LimitRules} {caller : CallerContext}
    {guard : ChargeGuard}
    (admitted : Limits.admission rules caller = .ok (.inl guard)) :
    guard = .new none := by
  unfold Limits.admission at admitted
  dsimp only at admitted
  split at admitted
  · cases admitted
  · split at admitted
    · cases admitted
      rfl
    · cases admitted

theorem chatCompletions_accounted (state : AppState) (request : ChatRequest) :
    Accounted state.serde request [] (chatCompletions state request) := by
  unfold chatCompletions
  split
  · exact .uncharged rfl rfl
  · split
    · exact .uncharged rfl rfl
    · exact .uncharged rfl rfl
    case h_3 dto parsed =>
      split
      · exact .uncharged rfl rfl
      · split
        case h_1 =>
          refine .egress rfl ⟨parsed, rfl⟩ ?_ ?_ rfl
          · intro event member
            cases member
          · intro held member
            cases member
        case h_2 rules _ =>
          split
          case h_1 => exact .uncharged rfl rfl
          case h_2 guard admitted =>
            refine .egress rfl ⟨parsed, rfl⟩ ?_ ?_ rfl
            · intro event member
              cases member
            · cases admission_unlimited admitted
              rintro held ⟨⟩
              refine ⟨⟨rfl, rfl, ?_⟩, rfl⟩
              intro ticket impossible
              cases impossible
          case h_3 => exact .admitting rfl parsed rfl rfl

/-- The exchange as it is without a guard. -/
def unguarded (exchange : Exchange) : Exchange :=
  { exchange with
    phase :=
      match exchange.phase with
      | .egress stream _ => .egress stream none
      | .relaying relay => .relaying ⟨relay.phase, .new, none⟩
      | other => other
    charges := [] }

section Unlimited

variable {state : AppState} {request : ChatRequest} {exchange : Exchange}

theorem unguarded_close (guard : Option ChargeGuard) (now : SystemTime) :
    (exchange.close guard now).unguarded =
      exchange.unguarded.close none now := by
  rfl

theorem unguarded_respond (serde : Serde) (guard : Option ChargeGuard)
    (now : SystemTime) (result : Except OpenAiError ChatResponse) :
    (exchange.respond serde guard now result).unguarded =
      exchange.unguarded.respond serde none now result := by
  cases result with
  | error error =>
      unfold respond
      dsimp only
      rw [unguarded_close]
      split
      · rfl
      · rfl
  | ok response =>
      cases response with
      | full status body => rfl
      | stream status =>
          unfold respond
          dsimp only
          split
          · rfl
          · rfl

theorem respond_started (serde : Serde) (guard : Option ChargeGuard)
    (now : SystemTime) (result : Except OpenAiError ChatResponse)
    (dto : ChatCompletionRequest) (check : StoreCheck) :
    (exchange.respond serde guard now result).phase ≠ .admitting dto check := by
  cases result with
  | error error => exact Phase.noConfusion
  | ok response =>
      cases response with
      | full status body => exact Phase.noConfusion
      | stream status =>
          unfold respond
          dsimp only
          split
          · exact Phase.noConfusion
          · exact Phase.noConfusion

theorem unguarded_relayItem (json : JsonReader) (relay : Relay)
    (now : SystemTime) (item : UpstreamItem) :
    (exchange.relayItem json relay now item).unguarded =
      exchange.unguarded.relayItem json ⟨relay.phase, .new, none⟩ now item := by
  have samePhase (bytes : List UInt8) :
      (relay.feed json bytes).phase = relay.phase := by
    unfold Relay.feed
    split
    · rfl
    · rfl
  cases item with
  | chunk bytes =>
      unfold relayItem unguarded
      dsimp only
      rw [samePhase]
      rfl
  | failed => rfl
  | ended => rfl

/-- Without limits the same event does the same to everything but the guard. -/
theorem step_unguarded {next : Exchange} {moment : ChatEvent × SystemTime}
    (started : ∀ dto check, exchange.phase ≠ .admitting dto check)
    (stepped : step state request exchange moment = some next) :
    moment.1.isStore = false ∧
      (∀ dto check, next.phase ≠ .admitting dto check) ∧
      step { state with limits := none } request exchange.unguarded moment =
        some next.unguarded := by
  have closed {current : Exchange} (finished : current.phase = .closed) :
      ∀ dto check, current.phase ≠ .admitting dto check := by
    intro dto check impossible
    rw [finished] at impossible
    cases impossible
  cases step_cases stepped with
  | clientDrop now waiting =>
      refine ⟨rfl, closed rfl, ?_⟩
      rw [unguarded_close]
      cases phase : exchange.phase with
      | admitting dto check => exact absurd phase (started dto check)
      | closed => exact absurd phase waiting
      | _ => simp [step, guard?, unguarded, phase]
  | granted now waiting => exact absurd waiting (started _ _)
  | refused now waiting => exact absurd waiting (started _ _)
  | @upstream stream guard wire now waiting =>
      have bare : exchange.unguarded.phase = .egress stream none := by
        simp [unguarded, waiting]
      refine ⟨rfl, respond_started _ _ _ _, ?_⟩
      rw [unguarded_respond]
      simp only [step, bare]
  | @relayed relay item now waiting streaming =>
      have bare : exchange.unguarded.phase =
          .relaying ⟨relay.phase, .new, none⟩ := by
        simp [unguarded, waiting]
      refine ⟨rfl, ?_, ?_⟩
      · intro dto check
        cases item with
        | ended => exact closed rfl dto check
        | _ => exact Phase.noConfusion
      · rw [unguarded_relayItem]
        simp only [step, bare, streaming, if_pos]
  | @pollDone relay now waiting done =>
      have bare : exchange.unguarded.phase =
          .relaying ⟨relay.phase, .new, none⟩ := by
        simp [unguarded, waiting]
      refine ⟨rfl, closed rfl, ?_⟩
      rw [unguarded_close]
      simp only [step, bare, done, if_pos]
  | passed item now waiting =>
      have bare : exchange.unguarded.phase = .passing := by
        simp [unguarded, waiting]
      refine ⟨rfl, ?_, ?_⟩
      · intro dto check
        cases item with
        | chunk bytes => exact started dto check
        | _ => exact closed rfl dto check
      · simp only [step, bare]
        cases item with
        | _ => rfl

theorem run_unguarded {final : Exchange}
    {moments : List (ChatEvent × SystemTime)}
    (started : ∀ dto check, exchange.phase ≠ .admitting dto check)
    (run : runFrom (step state request) exchange moments = some final) :
    runFrom (step { state with limits := none } request) exchange.unguarded
      (moments.filter fun moment => !moment.1.isStore) =
        some final.unguarded := by
  induction moments generalizing exchange with
  | nil =>
      cases run
      rfl
  | cons moment rest ih =>
      obtain ⟨next, stepped, remaining⟩ := runFrom_cons.mp run
      obtain ⟨noStore, later, bareStep⟩ := step_unguarded started stepped
      simp only [List.filter_cons, noStore, Bool.not_false, if_true]
      exact runFrom_cons.mpr ⟨next.unguarded, bareStep, ih later remaining⟩

theorem run_closed {final : Exchange} {moments : List (ChatEvent × SystemTime)}
    (finished : exchange.phase = .closed)
    (run : runFrom (step state request) exchange moments = some final) :
    final = exchange := by
  cases moments with
  | nil =>
      cases run
      rfl
  | cons moment rest =>
      obtain ⟨next, stepped, _⟩ := runFrom_cons.mp run
      unfold step at stepped
      rw [finished] at stepped
      cases stepped

/-- Nothing was sent to the upstream, and nothing is forwarded. -/
def Silent (exchange : Exchange) : Prop :=
  exchange.upstreamCall = none ∧ exchange.body = []

/-- The handler starts with the request sent to the upstream, in which case
only the guard can differ from a gateway without limits; or with a question to
the store; or it has answered by itself. -/
theorem chatCompletions_cases (state : AppState) (request : ChatRequest) :
    (∃ dto guard, chatCompletions state request = call request dto guard ∧
        chatCompletions { state with limits := none } request =
          call request dto none) ∨
      (∃ dto check, (chatCompletions state request).phase =
          .admitting dto check ∧ Silent (chatCompletions state request) ∧
        chatCompletions { state with limits := none } request =
          call request dto none) ∨
      ((chatCompletions state request).phase = .closed ∧
        Silent (chatCompletions state request)) := by
  unfold chatCompletions
  cases request.caller with
  | none => exact .inr (.inr ⟨rfl, rfl, rfl⟩)
  | some caller =>
      dsimp only
      split
      · exact .inr (.inr ⟨rfl, rfl, rfl⟩)
      · exact .inr (.inr ⟨rfl, rfl, rfl⟩)
      case h_3 dto parsed =>
        split
        · exact .inr (.inr ⟨rfl, rfl, rfl⟩)
        · cases state.limits with
          | none => exact .inl ⟨dto, none, rfl, rfl⟩
          | some rules =>
              dsimp only
              cases Limits.admission rules caller with
              | error refusal => exact .inr (.inr ⟨rfl, rfl, rfl⟩)
              | ok admitted =>
                  cases admitted with
                  | inl guard => exact .inl ⟨dto, some guard, rfl, rfl⟩
                  | inr check =>
                      exact .inr (.inl ⟨dto, check, rfl, ⟨rfl, rfl⟩, rfl⟩)

/-- The same bytes reach the client without limits. -/
def Transparent (state : AppState) (request : ChatRequest)
    (moments : List (ChatEvent × SystemTime)) (exchange : Exchange) : Prop :=
  Silent exchange ∨
    ∃ bare, runFrom (step { state with limits := none } request)
        (chatCompletions { state with limits := none } request)
        (moments.filter fun moment => !moment.1.isStore) = some bare ∧
      bare.upstreamCall = exchange.upstreamCall ∧
      bare.answer = exchange.answer ∧ bare.body = exchange.body

theorem run_transparent {final : Exchange}
    {moments : List (ChatEvent × SystemTime)}
    (run : runFrom (step state request) (chatCompletions state request)
      moments = some final) :
    Transparent state request moments final := by
  have sends {dto : ChatCompletionRequest} {guard : Option ChargeGuard}
      {rest : List (ChatEvent × SystemTime)}
      (bare : chatCompletions { state with limits := none } request =
        call request dto none)
      (remaining : runFrom (step state request) (call request dto guard) rest =
        some final) :
      Transparent state request rest final := by
    refine .inr ⟨final.unguarded, ?_, rfl, rfl, rfl⟩
    rw [bare]
    exact run_unguarded (fun _ _ => Phase.noConfusion) remaining
  rcases chatCompletions_cases state request with
    ⟨dto, guard, isCall, bare⟩ | ⟨dto, check, admitting, silent, bare⟩ |
    ⟨finished, silent⟩
  · rw [isCall] at run
    exact sends bare run
  · cases moments with
    | nil =>
        cases run
        exact .inl silent
    | cons moment rest =>
        obtain ⟨next, stepped, remaining⟩ := runFrom_cons.mp run
        cases step_cases stepped with
        | clientDrop now waiting =>
            rw [run_closed rfl remaining]
            exact .inl silent
        | refused now waiting settled =>
            rw [run_closed rfl remaining]
            exact .inl ⟨rfl, rfl⟩
        | granted now waiting settled =>
            rw [admitting] at waiting
            cases waiting
            have later := sends bare remaining
            exact later
        | upstream wire now waiting =>
            rw [admitting] at waiting
            cases waiting
        | relayed item now waiting =>
            rw [admitting] at waiting
            cases waiting
        | pollDone now waiting =>
            rw [admitting] at waiting
            cases waiting
        | passed item now waiting =>
            rw [admitting] at waiting
            cases waiting
  · rw [run_closed finished run]
    exact .inl silent

end Unlimited

/-- In every exchange the store is charged at most once, with the ticket it
granted, after the request was sent, not for a connect failure or a non-2xx
answer that the upstream client reports, and by the last usage the answer
reported or else the two estimates, under the cap; what the client receives is
what it receives from a gateway without limits. -/
theorem charge_protocol (state : AppState) (request : ChatRequest)
    (moments : List (ChatEvent × SystemTime)) (exchange : Exchange)
    (run : runFrom (step state request) (chatCompletions state request)
      moments = some exchange) :
    exchange.charges.length ≤ 1 ∧
      (∀ charge ∈ exchange.charges, ∃ dto,
        Sent state.serde request dto exchange ∧
        Justified state.serde request dto (moments.map Prod.fst) charge) ∧
      Transparent state request moments exchange := by
  have accounted := (chatCompletions_accounted state request).run run
  rw [List.nil_append] at accounted
  have none (uncharged : exchange.charges = []) :
      exchange.charges.length ≤ 1 ∧ (∀ charge ∈ exchange.charges, ∃ dto,
        Sent state.serde request dto exchange ∧
        Justified state.serde request dto (moments.map Prod.fst) charge) := by
    rw [uncharged]
    refine ⟨Nat.zero_le 1, ?_⟩
    intro charge member
    cases member
  rw [← and_assoc]
  refine ⟨?_, run_transparent run⟩
  cases accounted with
  | admitting _ _ _ uncharged => exact none uncharged
  | egress _ _ _ _ uncharged => exact none uncharged
  | relaying _ _ _ _ _ _ _ uncharged => exact none uncharged
  | passing _ uncharged => exact none uncharged
  | closed _ once justified => exact ⟨once, justified⟩

def sampleBody : List UInt8 :=
  utf8 ("\x7b\"model\":\"m\",\"messages\":" ++
    "[\x7b\"role\":\"user\",\"content\":\"hello\"\x7d]\x7d")

/-- A gateway with a daily budget, and a request of two tokens.  The readers
know that request, and an empty answer is no JSON. -/
def sampleState : AppState where
  serde :=
    { value := fun _ => none
      request := fun body =>
        if body = sampleBody then
          .ok ⟨false,
            [.object [("role", .string "user"), ("content", .string "hello")]]⟩
        else
          .error .unreadable }
  chatStream := true
  limits := some ⟨none, none, some ⟨1000, by decide⟩, .daily, ∅⟩

def sampleRequest : ChatRequest where
  caller := some
    ⟨"prn:pgs:iam:::user/0190a100-0000-7000-8000-0000000000b1",
      "prn:pgs:iam:::organization/0190a100-0000-7000-8000-0000000000a1"⟩
  body := sampleBody

def sampleTicket : LimitTicket :=
  ⟨0x0190a1000000700080000000000000a1, BudgetPeriod.daily.keyAt 0⟩

def sampleMoments (wire : Wire) : List (ChatEvent × SystemTime) :=
  [(.store (.decided (.admitted (some sampleTicket))), 0), (.upstream wire, 0)]

theorem charge_protocol_sample :
    (∃ exchange, runFrom (step sampleState sampleRequest)
        (chatCompletions sampleState sampleRequest)
        (sampleMoments (.answered 200 (.ok []))) = some exchange ∧
      exchange.charges = [⟨sampleTicket, 2, 0⟩] ∧
      exchange.charges.length ≤ 1) ∧
    orgOf "prn:pgs:iam:::organization/0190a100-0000-7000-8000-0000000000a1" =
      some sampleTicket.org := by
  have charged : (runFrom (step sampleState sampleRequest)
      (chatCompletions sampleState sampleRequest)
      (sampleMoments (.answered 200 (.ok [])))).map Exchange.charges =
        some [⟨sampleTicket, 2, 0⟩] := by
    decide +kernel
  obtain ⟨exchange, run, charges⟩ := Option.map_eq_some_iff.mp charged
  have protocol := charge_protocol _ _ _ exchange run
  exact ⟨⟨exchange, run, charges, protocol.1⟩, by decide +kernel⟩

/-- A connect timeout is a failed connection, and its request is charged. -/
theorem connect_timeout_is_charged :
    ¬ ∀ (state : AppState) (request : ChatRequest)
      (moments : List (ChatEvent × SystemTime)) (exchange : Exchange),
      runFrom (step state request) (chatCompletions state request) moments =
        some exchange →
      ∀ error : RequestError, error.isConnect = true →
        .upstream (.sendFailed error) ∈ moments.map Prod.fst →
        exchange.charges = [] := by
  intro spared
  have charged : (runFrom (step sampleState sampleRequest)
      (chatCompletions sampleState sampleRequest)
      (sampleMoments (.sendFailed ⟨true, true⟩))).map Exchange.charges =
        some [⟨sampleTicket, 2, 0⟩] := by
    decide +kernel
  obtain ⟨exchange, run, charges⟩ := Option.map_eq_some_iff.mp charged
  have none := spared _ _ _ exchange run ⟨true, true⟩ rfl (by decide)
  rw [none] at charges
  cases charges

end Exchange

end Paigasus.Gateway
