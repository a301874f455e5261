import Paigasus.Foundation.Json
import Paigasus.Gateway.Limits
import Paigasus.Gateway.UsageScanner
import Paigasus.Kernel.ResourceName
import Paigasus.Foundation.Table

/-!
# Admission and the charge guard

Every admitted request owns one guard, and the drop of the guard is the only
place that charges.  What it charges is decided by the phase of the request and
by the tokens the answer reports, or else by an estimate.
-/

namespace Paigasus.Gateway

open Foundation Kernel

def fallbackRequestCap : Nat := 32768

def nonTextPartTokens : Nat := 85

def bytesToTokens (bytes : Nat) : Nat := (bytes + 3) / 4

/-- The text and the other parts of the messages read so far. -/
structure MessageCost where
  textBytes : Nat
  otherParts : Nat

namespace MessageCost

def addText (cost : MessageCost) (text : String) : MessageCost :=
  { cost with
    textBytes := U64.saturatingAdd cost.textBytes text.utf8ByteSize }

/-- `none` where the shape is not the expected one. -/
def addPart (cost : MessageCost) (part : Json) : Option MessageCost :=
  match (part.field "type").bind Json.asStr, (part.field "text").bind Json.asStr
  with
  | some "text", some text => some (cost.addText text)
  | some _, _ =>
      some { cost with otherParts := U64.saturatingAdd cost.otherParts 1 }
  | none, _ => none

def addMessage (cost : MessageCost) (message : Json) : Option MessageCost :=
  match message with
  | .object fields =>
      match fields.lookup "content" with
      | none => some cost
      | some .null => some cost
      | some (.string text) => some (cost.addText text)
      | some (.array parts) => parts.foldlM addPart cost
      | some _ => none
  | _ => none

end MessageCost

/-- The tokens of the request by its text, or by the length of the body where
a message has an unexpected shape. -/
def requestTokensEstimate (messages : List Json) (bodyLen : Nat) : Nat :=
  match messages.foldlM MessageCost.addMessage ⟨0, 0⟩ with
  | none => min (bytesToTokens bodyLen) fallbackRequestCap
  | some cost =>
      U64.saturatingAdd (bytesToTokens cost.textBytes)
        (U64.saturatingMul cost.otherParts nonTextPartTokens)

/-- What a body says about its tokens. -/
inductive BodyUsage where
  | reported (total : Nat)
  | completion (tokens : Nat)
deriving DecidableEq

def totalTokens (value : Json) : Option Nat :=
  (value.pointer ["usage", "total_tokens"]).bind Json.asU64

def textLength (value : Option Json) : Nat :=
  ((value.bind Json.asStr).map String.utf8ByteSize).getD 0

/-- Adds the content of a choice and the arguments of its tool calls. -/
def addChoice (bytes : Nat) (choice : Json) : Nat :=
  let calls := ((choice.pointer ["message", "tool_calls"]).bind
    Json.asArray).getD []
  calls.foldl
    (fun sum call => U64.saturatingAdd sum
      (textLength (call.pointer ["function", "arguments"])))
    (U64.saturatingAdd bytes (textLength (choice.pointer
      ["message", "content"])))

/-- The body was JSON of another type, or no JSON at all. -/
inductive Category where
  | data
  | unreadable
deriving DecidableEq

structure ChatCompletionRequest where
  stream : Bool
  messages : List Json

/-- The JSON readers of the gateway: a value, and a chat request. -/
structure Serde where
  value : List UInt8 → Option Json
  request : List UInt8 → Except Category ChatCompletionRequest

def Serde.reader (serde : Serde) : JsonReader where
  usageTotal data := (serde.value data).bind totalTokens

def nonStreamUsage (serde : Serde) (body : List UInt8) : BodyUsage :=
  match serde.value body with
  | none => .completion 0
  | some value =>
      match totalTokens value with
      | some total => .reported total
      | none =>
          let choices := ((value.field "choices").bind Json.asArray).getD []
          .completion (bytesToTokens (choices.foldl addChoice 0))

structure OrgOverride where
  orgRequestsPerMinute : Option NonZeroU64
  tokensPerPeriod : Option NonZeroU64
  exempt : Bool
deriving DecidableEq

def OrgOverride.default : OrgOverride := ⟨none, none, false⟩

structure LimitRules where
  principalRequestsPerMinute : Option NonZeroU64
  orgRequestsPerMinute : Option NonZeroU64
  tokensPerPeriod : Option NonZeroU64
  budgetPeriod : BudgetPeriod
  overrides : Table Uuid OrgOverride

def LimitPolicy.hasOrgDimension (policy : LimitPolicy) : Bool :=
  policy.orgRequestsPerMinute.isSome || policy.budget.isSome

def LimitPolicy.isEmpty (policy : LimitPolicy) : Bool :=
  policy.principalRequestsPerMinute.isNone && !policy.hasOrgDimension

/-- The table defaults, the overrides of the organization, or its exemption. -/
def LimitRules.policyFor (rules : LimitRules) (org : Option Uuid) :
    LimitPolicy :=
  let entry := (org.bind rules.overrides.lookup).getD .default
  if entry.exempt then
    ⟨rules.principalRequestsPerMinute, none, none⟩
  else
    { principalRequestsPerMinute := rules.principalRequestsPerMinute
      orgRequestsPerMinute :=
        entry.orgRequestsPerMinute.or rules.orgRequestsPerMinute
      budget := (entry.tokensPerPeriod.or rules.tokensPerPeriod).map
        fun tokens => ⟨tokens, rules.budgetPeriod⟩ }

/-- The organization a scope belongs to. -/
def orgOf (raw : String) : Option Uuid :=
  match Prn.parse raw with
  | .error _ => none
  | .ok prn =>
      if prn.service ≠ "iam" then none
      else if prn.resourceType = "organization" then some prn.resourceId
      else if prn.resourceType = "team" ∨ prn.resourceType = "project" then
        prn.org
      else none

structure CallerContext where
  principalPrn : String
  scopePrn : String

inductive ChargePhase where
  | admitted
  | sent
  | noCharge
deriving DecidableEq

structure ChargeGuard where
  ticket : Option LimitTicket
  requestEstimate : Nat
  completionEstimate : Nat
  reported : Option Nat
  phase : ChargePhase
deriving DecidableEq

/-- One call of the store's charge operation. -/
structure Charge where
  ticket : LimitTicket
  tokens : Nat
  now : SystemTime
deriving DecidableEq

namespace ChargeGuard

def new (ticket : Option LimitTicket) : ChargeGuard :=
  ⟨ticket, 0, 0, none, .admitted⟩

def setRequestEstimate (guard : ChargeGuard) (tokens : Nat) : ChargeGuard :=
  { guard with requestEstimate := tokens }

def markSent (guard : ChargeGuard) : ChargeGuard :=
  { guard with phase := .sent }

def markNoCharge (guard : ChargeGuard) : ChargeGuard :=
  { guard with phase := .noCharge }

def setReported (guard : ChargeGuard) (totalTokens : Nat) : ChargeGuard :=
  { guard with reported := some totalTokens }

def setCompletionEstimate (guard : ChargeGuard) (tokens : Nat) : ChargeGuard :=
  { guard with completionEstimate := tokens }

def setStreamProgress (guard : ChargeGuard) (completionRecords : Nat)
    (reported : Option Nat) : ChargeGuard :=
  { guard with
    completionEstimate := completionRecords
    reported := if reported.isSome then reported else guard.reported }

def tokens (guard : ChargeGuard) : Nat :=
  match guard.phase, guard.reported with
  | .admitted, _ => 0
  | .noCharge, _ => 0
  | .sent, some total => min total maxTokensPerCharge
  | .sent, none =>
      min (U64.saturatingAdd guard.requestEstimate guard.completionEstimate)
        maxTokensPerCharge

/-- The charge made when the guard goes out of scope. -/
def drop (guard : ChargeGuard) (now : SystemTime) : List Charge :=
  match guard.ticket with
  | some ticket => if 0 < guard.tokens then [⟨ticket, guard.tokens, now⟩] else []
  | none => []

end ChargeGuard

/-- What the store is asked before a request is sent. -/
structure StoreCheck where
  principal : String
  org : Option Uuid
  policy : LimitPolicy

inductive StoreReply where
  | decided (decision : LimitDecision)
  | unavailable
deriving DecidableEq

namespace Limits

/-- The part of the admission before the store: a refusal, a request that no limit
concerns, or the question to the store. -/
def admission (rules : LimitRules) (caller : CallerContext) :
    Except LimitRefusal (ChargeGuard ⊕ StoreCheck) :=
  let org := orgOf caller.scopePrn
  let policy := rules.policyFor org
  if org.isNone && policy.hasOrgDimension then
    .error .unscoped
  else if policy.isEmpty then
    .ok (.inl (.new none))
  else
    .ok (.inr ⟨caller.principalPrn, org, policy⟩)

/-- The part of the admission after the store: a store that failed, or refused for
no reason, admits without a ticket. -/
def settle : StoreReply → Except LimitRefusal ChargeGuard
  | .decided (.admitted ticket) => .ok (.new ticket)
  | .decided (.refused failed) =>
      match chooseRefusal failed with
      | some refusal => .error refusal
      | none => .ok (.new none)
  | .unavailable => .ok (.new none)

end Limits

end Paigasus.Gateway
