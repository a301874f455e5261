import Paigasus.Authorization.EntitySlice
import Paigasus.Foundation.EventLog
import Paigasus.Foundation.JsonText
import Paigasus.Policies.ContentHash
import Paigasus.Policies.Snapshot

/-!
# Cached authorization decisions

A request reads the entity generation, looks for a decision under it, and on a
miss loads its entity slice through a cache that reads the generation again.
Tenancy mutations commit and then bump the generation.  The steps of any number
of requests and mutations interleave, and the caches may lose an entry at any
time.  An entry is stored under a generation that held before its data were
read, so a request that finds it sees every mutation bumped up to then.
-/

namespace Paigasus.Authorization.Cached

open Foundation Kernel Core Cedar Policies Tenancy

variable {Condition : Type}

/-- The stored entities: the tenancy tables and the columns of the principal
table. -/
structure EntityState where
  db : Db
  kind : Uuid → String
  status : Uuid → String

def EntityState.empty : EntityState := ⟨Db.empty, fun _ => "", fun _ => ""⟩

/-- The number of queries of one load. -/
def loadReads : Nat := 7

/-- The reads of a load that saw the given states, one after the other. -/
def readsOf (seen : List EntityState) (principal : Prn) : Reads where
  state := fun index => (seen.getD index .empty).db
  kind := (seen.getD 6 .empty).kind principal.resourceId
  status := (seen.getD 6 .empty).status principal.resourceId

/-- A compiled policy set with the documents and grants it was compiled
from. -/
structure CompiledPolicies (Condition : Type) where
  docs : List PolicyDocument
  grants : List RoleGrant
  policySet : PolicySet Condition

/-- The policy language and the hash function. -/
structure Services (Condition : Type) where
  language : Language Condition
  blake3 : List UInt8 → Vector UInt8 32

/-- A value of the context as JSON, under the name of its kind. -/
def contextValueText : ContextValue → List Char
  | .str value => "\x7b\"Str\":".toList ++ JsonText.quote value ++ ['\x7d']
  | .long value =>
      "\x7b\"Long\":".toList ++ (toString value).toList ++ ['\x7d']
  | .bool value =>
      "\x7b\"Bool\":".toList ++ (toString value).toList ++ ['\x7d']

def contextText (context : RequestContext) : List Char :=
  '\x7b' :: JsonText.separated (context.entries.map fun entry =>
    JsonText.quote entry.1 ++ ':' :: contextValueText entry.2) ++ ['\x7d']

/-- The JSON text of the four fields of a request. -/
def requestBytes (request : AccessRequest) : List UInt8 :=
  utf8 (String.ofList ('[' :: JsonText.separated
    [JsonText.quote request.principal.canonical,
      JsonText.quote request.action.asWire,
      JsonText.quote request.resource.canonical,
      contextText request.context] ++ [']']))

namespace Services

variable (services : Services Condition)

def contentHash (compiled : CompiledPolicies Condition) : String :=
  Policies.contentHash services.blake3 compiled.docs compiled.grants

def requestDigest (request : AccessRequest) : List Char :=
  toHex (services.blake3 (requestBytes request)).toList

def decisionKey (policyContent : String) (entityGen : Nat)
    (request : AccessRequest) : String :=
  "iam:authz:dec:" ++ policyContent ++ ":" ++ toString entityGen ++ ":" ++
    String.ofList (services.requestDigest request)

/-- The decision of one evaluation. -/
def outcome (compiled : CompiledPolicies Condition) (request : AccessRequest) :
    Except SliceError EntitySlice → Option Decision
  | .ok slice =>
      some (decide services.language compiled.policySet slice request)
  | .error .resourceNotFound => some ⟨.deny, [resourceNotFoundMarker]⟩
  | .error .backend => none

end Services

def sliceKey (entityGen : Nat) (resource principal : Prn) : String :=
  "iam:authz:slice:" ++ toString entityGen ++ ":" ++ resource.canonical ++
    ":" ++ principal.canonical

/-- Where an `is_authorized` call stands. -/
inductive Phase (Condition : Type) where
  | current
  | readGen (compiled : CompiledPolicies Condition)
  | getDecision (compiled : CompiledPolicies Condition) (key : String)
  | sliceGen (compiled : CompiledPolicies Condition) (key : Option String)
  | getSlice (compiled : CompiledPolicies Condition) (key : Option String)
      (sliceKey : String)
  | load (compiled : CompiledPolicies Condition) (key : Option String)
      (sliceKey : Option String) (seen : List EntityState)
  | putSlice (compiled : CompiledPolicies Condition) (key : Option String)
      (sliceKey : String) (slice : EntitySlice)
  | decide (compiled : CompiledPolicies Condition) (key : Option String)
      (loaded : Except SliceError EntitySlice)
  | putDecision (key : String) (decision : Decision)
  | answer (decision : Decision)
  | done

inductive WriterPhase where
  | committed
  | bumped
deriving DecidableEq

inductive Event (Condition : Type) where
  | committed (writer : Nat) (state : EntityState)
  | bumped (writer gen : Nat)
  | started (call : Nat) (request : AccessRequest)
  | snapshotTaken (call : Nat) (compiled : CompiledPolicies Condition)
  | entityRead (call : Nat) (state : EntityState)
  | answered (call : Nat) (decision : Decision)

structure World (Condition : Type) where
  entities : EntityState
  generation : Nat
  writers : Nat → Option WriterPhase
  slices : String → Option EntitySlice
  decisions : String → Option Decision
  calls : Nat → Option (AccessRequest × Phase Condition)
  log : List (Event Condition)

inductive Action (Condition : Type) where
  | commit (writer : Nat) (state : EntityState)
  | bump (writer : Nat)
  /-- The counter is raised by a repair, without a writer. -/
  | raise (delta : Nat)
  | start (call : Nat) (request : AccessRequest)
  /-- The call takes the snapshot that its replica holds. -/
  | current (call : Nat) (compiled : CompiledPolicies Condition)
  /-- The next step of a call; `fails` is an unreadable counter, a lost cache
  entry or a lost write. -/
  | advance (call : Nat) (fails : Bool)
  /-- The future of a call is dropped. -/
  | cancel (call : Nat)

namespace World

def initial (entities : EntityState) (generation : Nat) : World Condition where
  entities := entities
  generation := generation
  writers := fun _ => none
  slices := fun _ => none
  decisions := fun _ => none
  calls := fun _ => none
  log := []

def moveTo (world : World Condition) (call : Nat) (request : AccessRequest)
    (phase : Phase Condition) : World Condition :=
  { world with calls := Function.update world.calls call (some (request, phase)) }

def record (world : World Condition) (event : Event Condition) :
    World Condition :=
  { world with log := world.log ++ [event] }

def commit (world : World Condition) (writer : Nat) (state : EntityState) :
    World Condition :=
  { world with
    entities := state
    writers := Function.update world.writers writer
      (some .committed) }.record (.committed writer state)

def bump (world : World Condition) (writer : Nat) : World Condition :=
  { world with
    generation := world.generation + 1
    writers := Function.update world.writers writer (some .bumped) }.record
      (.bumped writer (world.generation + 1))

/-- The decision phase: the decision is stored under the key of the call, if it
has one, and answered. -/
def conclude (world : World Condition) (call : Nat) (request : AccessRequest)
    (key : Option String) (decision : Option Decision) : World Condition :=
  match decision, key with
  | none, _ => world.moveTo call request .done
  | some decision, none => world.moveTo call request (.answer decision)
  | some decision, some key =>
      world.moveTo call request (.putDecision key decision)

/-- The end of the inner load. -/
def loaded (world : World Condition) (call : Nat) (request : AccessRequest)
    (compiled : CompiledPolicies Condition) (key sliceKey : Option String)
    (result : Except SliceError EntitySlice) : World Condition :=
  match result, sliceKey with
  | .ok slice, some sliceKey =>
      world.moveTo call request (.putSlice compiled key sliceKey slice)
  | _, _ => world.moveTo call request (.decide compiled key result)

def advancePhase (services : Services Condition) (world : World Condition)
    (call : Nat) (request : AccessRequest) (fails : Bool) :
    Phase Condition → Option (World Condition)
  | .current => none
  | .readGen compiled =>
      if fails then
        some (world.moveTo call request (.sliceGen compiled none))
      else
        some (world.moveTo call request (.getDecision compiled
          (services.decisionKey (services.contentHash compiled)
            world.generation request)))
  | .getDecision compiled key =>
      match if fails then none else world.decisions key with
      | some decision => some (world.moveTo call request (.answer decision))
      | none => some (world.moveTo call request (.sliceGen compiled (some key)))
  | .sliceGen compiled key =>
      if fails then
        some (world.moveTo call request (.load compiled key none []))
      else
        some (world.moveTo call request (.getSlice compiled key
          (sliceKey world.generation request.resource request.principal)))
  | .getSlice compiled key sliceKey =>
      match if fails then none else world.slices sliceKey with
      | some slice =>
          some (world.moveTo call request (.decide compiled key (.ok slice)))
      | none =>
          some (world.moveTo call request
            (.load compiled key (some sliceKey) []))
  | .load compiled key sliceKey seen =>
      if seen.length < loadReads then
        some ((world.record (.entityRead call world.entities)).moveTo call
          request (.load compiled key sliceKey (seen ++ [world.entities])))
      else
        some (world.loaded call request compiled key sliceKey
          (load (readsOf seen request.principal) request.resource
            request.principal))
  | .putSlice compiled key sliceKey slice =>
      let next := world.moveTo call request (.decide compiled key (.ok slice))
      if fails then
        some next
      else
        some { next with
          slices := Function.update world.slices sliceKey (some slice) }
  | .decide compiled key loaded =>
      some (world.conclude call request key
        (services.outcome compiled request loaded))
  | .putDecision key decision =>
      let next := world.moveTo call request (.answer decision)
      if fails then
        some next
      else
        some { next with
          decisions := Function.update world.decisions key (some decision) }
  | .answer decision =>
      some ((world.record (.answered call decision)).moveTo call request .done)
  | .done => none

def step (services : Services Condition) (world : World Condition) :
    Action Condition → Option (World Condition)
  | .commit writer state =>
      match world.writers writer with
      | some _ => none
      | none => some (world.commit writer state)
  | .bump writer =>
      match world.writers writer with
      | some .committed => some (world.bump writer)
      | _ => none
  | .raise delta => some { world with generation := world.generation + delta }
  | .start call request =>
      match world.calls call with
      | some _ => none
      | none =>
          some ((world.record (.started call request)).moveTo call request
            .current)
  | .current call compiled =>
      match world.calls call with
      | some (request, .current) =>
          some ((world.record (.snapshotTaken call compiled)).moveTo call
            request (.readGen compiled))
      | _ => none
  | .advance call fails =>
      match world.calls call with
      | none => none
      | some (request, phase) =>
          world.advancePhase services call request fails phase
  | .cancel call =>
      match world.calls call with
      | none => none
      | some (request, _) => some (world.moveTo call request .done)

end World

/-- The committed entities at a moment of the log. -/
def entitiesAt (initial : EntityState) (log : List (Event Condition))
    (moment : Nat) : EntityState :=
  (log.take moment).foldl
    (fun state event =>
      match event with
      | .committed _ committed => committed
      | _ => state) initial

section Keys

theorem contentHash_injective {services : Services Condition}
    {compiled other : CompiledPolicies Condition}
    (same : services.contentHash compiled = services.contentHash other) :
    services.blake3 (contentEncoding compiled.docs compiled.grants) =
      services.blake3 (contentEncoding other.docs other.grants) := by
  have digits := String.ofList_injective same
  exact Vector.toList_inj.mp (toHex_injective digits)

theorem decisionKey_inj {services : Services Condition}
    {compiled other : CompiledPolicies Condition} {gen otherGen : Nat}
    {request otherRequest : AccessRequest}
    (same : services.decisionKey (services.contentHash compiled) gen request =
      services.decisionKey (services.contentHash other) otherGen
        otherRequest) :
    services.contentHash compiled = services.contentHash other ∧
      gen = otherGen ∧
      services.requestDigest request = services.requestDigest otherRequest := by
  have colonFree : ∀ policies : CompiledPolicies Condition,
      ':' ∉ (services.contentHash policies).toList := by
    intro policies
    rw [Services.contentHash, Policies.contentHash, String.toList_ofList]
    exact not_mem_toHex rfl _
  delta Services.decisionKey at same
  simp only [String.append_assoc] at same
  obtain ⟨content, fields⟩ := texts_eq_of_append_eq (colonFree compiled)
    (colonFree other) ((String.append_right_inj _).mp same)
  obtain ⟨generation, digest⟩ := texts_eq_of_append_eq
    (not_mem_toString rfl gen) (not_mem_toString rfl otherGen) fields
  exact ⟨content, toString_inj generation, String.ofList_injective digest⟩

theorem sliceKey_inj {gen otherGen : Nat}
    {resource otherResource principal otherPrincipal : Prn}
    (same : sliceKey gen resource principal =
      sliceKey otherGen otherResource otherPrincipal) :
    gen = otherGen ∧ resource = otherResource ∧
      principal = otherPrincipal := by
  delta sliceKey at same
  simp only [String.append_assoc] at same
  obtain ⟨generation, names⟩ := texts_eq_of_append_eq
    (not_mem_toString rfl gen) (not_mem_toString rfl otherGen)
    ((String.append_right_inj _).mp same)
  have symbols := congrArg String.toList names
  simp only [String.toList_append] at symbols
  obtain ⟨sameResource, principals⟩ := Prn.canonical_append_inj symbols
  exact ⟨toString_inj generation, sameResource,
    Prn.canonical_injective (String.toList_inj.mp principals)⟩

end Keys

section Evidence

variable {services : Services Condition} {start : EntityState}
  {log next : List (Event Condition)} {gen nextGen : Nat}

/-- The moment is after every bump up to the generation. -/
def Since (log : List (Event Condition)) (gen moment : Nat) : Prop :=
  ∀ (bump : Nat) writer value,
    log[bump]? = some (.bumped writer value) → value ≤ gen → bump < moment

/-- Every state was the stored one at a moment after every bump up to the
generation. -/
def SeenSince (start : EntityState) (log : List (Event Condition)) (gen : Nat)
    (seen : List EntityState) : Prop :=
  ∀ state ∈ seen, ∃ (moment call : Nat),
    log[moment]? = some (.entityRead call state) ∧
      state = entitiesAt start log moment ∧ Since log gen moment

/-- A generation that the counter has reached and that every bump before the
start of the call is up to. -/
structure Floor (log : List (Event Condition)) (gen begun floor : Nat) :
    Prop where
  reached : floor ≤ gen
  started : begun ≤ log.length
  below : ∀ (bump : Nat) writer value,
    log[bump]? = some (.bumped writer value) → bump < begun → value ≤ floor

/-- The slice was loaded from states seen since the generation. -/
def LoadedSince (start : EntityState) (log : List (Event Condition))
    (gen : Nat) (resource principal : Prn)
    (result : Except SliceError EntitySlice) : Prop :=
  ∃ seen, seen.length = loadReads ∧ SeenSince start log gen seen ∧
    load (readsOf seen principal) resource principal = result

/-- The decision was computed from states seen since the generation. -/
def DecidedSince (services : Services Condition) (start : EntityState)
    (log : List (Event Condition)) (gen : Nat)
    (compiled : CompiledPolicies Condition) (request : AccessRequest)
    (decision : Decision) : Prop :=
  ∃ result, LoadedSince start log gen request.resource request.principal
      result ∧
    services.outcome compiled request result = some decision

/-- What one step can do to the log and to the counter. -/
structure Grows (log next : List (Event Condition)) (gen nextGen : Nat) :
    Prop where
  appended : ∃ events, next = log ++ events ∧
    ∀ writer value, .bumped writer value ∈ events → gen < value
  monotone : gen ≤ nextGen

theorem Grows.at (grows : Grows log next gen nextGen) {moment : Nat}
    {event : Event Condition} (found : log[moment]? = some event) :
    next[moment]? = some event := by
  obtain ⟨events, rfl, _⟩ := grows.appended
  rw [List.getElem?_append_left (at_lt found)]
  exact found

theorem Grows.entitiesAt (grows : Grows log next gen nextGen) {moment : Nat}
    {event : Event Condition} (found : log[moment]? = some event) :
    Cached.entitiesAt start next moment =
      Cached.entitiesAt start log moment := by
  obtain ⟨events, rfl, _⟩ := grows.appended
  have inLog := at_lt found
  rw [Cached.entitiesAt, List.take_append_of_le_length (by omega)]
  rfl

theorem Since.grow {floor moment : Nat} (since : Since log floor moment)
    (grows : Grows log next gen nextGen) (reached : floor ≤ gen) :
    Since next floor moment := by
  intro bump writer value bumped atMost
  obtain ⟨events, rfl, fresh⟩ := grows.appended
  by_cases inLog : bump < log.length
  · rw [List.getElem?_append_left inLog] at bumped
    exact since bump writer value bumped atMost
  · rw [List.getElem?_append_right (by omega)] at bumped
    have later := fresh writer value (List.mem_of_getElem? bumped)
    omega

theorem SeenSince.grow {floor : Nat} {seen : List EntityState}
    (seenSince : SeenSince start log floor seen)
    (grows : Grows log next gen nextGen) (reached : floor ≤ gen) :
    SeenSince start next floor seen := by
  intro state member
  obtain ⟨moment, call, read, stored, since⟩ := seenSince state member
  refine ⟨moment, call, grows.at read, ?_, since.grow grows reached⟩
  rw [grows.entitiesAt read]
  exact stored

theorem SeenSince.lower {floor : Nat} {seen : List EntityState}
    (seenSince : SeenSince start log floor seen) (below : gen ≤ floor) :
    SeenSince start log gen seen := by
  intro state member
  obtain ⟨moment, call, read, stored, since⟩ := seenSince state member
  refine ⟨moment, call, read, stored, ?_⟩
  intro bump writer value bumped atMost
  exact since bump writer value bumped (atMost.trans below)

theorem LoadedSince.grow {floor : Nat} {resource principal : Prn}
    {result : Except SliceError EntitySlice}
    (loaded : LoadedSince start log floor resource principal result)
    (grows : Grows log next gen nextGen) (reached : floor ≤ gen) :
    LoadedSince start next floor resource principal result := by
  obtain ⟨seen, complete, seenSince, result⟩ := loaded
  exact ⟨seen, complete, seenSince.grow grows reached, result⟩

theorem LoadedSince.lower {floor : Nat} {resource principal : Prn}
    {result : Except SliceError EntitySlice}
    (loaded : LoadedSince start log floor resource principal result)
    (below : gen ≤ floor) :
    LoadedSince start log gen resource principal result := by
  obtain ⟨seen, complete, seenSince, result⟩ := loaded
  exact ⟨seen, complete, seenSince.lower below, result⟩

theorem DecidedSince.grow {floor : Nat}
    {compiled : CompiledPolicies Condition} {request : AccessRequest}
    {decision : Decision}
    (decided : DecidedSince services start log floor compiled request decision)
    (grows : Grows log next gen nextGen) (reached : floor ≤ gen) :
    DecidedSince services start next floor compiled request decision := by
  obtain ⟨result, loaded, outcome⟩ := decided
  exact ⟨result, loaded.grow grows reached, outcome⟩

theorem Floor.grow {begun floor : Nat} (holds : Floor log gen begun floor)
    (grows : Grows log next gen nextGen) : Floor next nextGen begun floor := by
  have started := holds.started
  obtain ⟨events, rfl, _⟩ := grows.appended
  refine ⟨holds.reached.trans grows.monotone, ?_, ?_⟩
  · rw [List.length_append]
    omega
  · intro bump writer value bumped before
    rw [List.getElem?_append_left (by omega)] at bumped
    exact holds.below bump writer value bumped before

theorem Grows.mem (grows : Grows log next gen nextGen)
    {event : Event Condition} (member : event ∈ log) : event ∈ next := by
  obtain ⟨events, rfl, _⟩ := grows.appended
  exact List.mem_append_left events member

end Evidence

section Invariant

/-- The call started at the given moment and at no other. -/
def Begun (log : List (Event Condition)) (call : Nat) (request : AccessRequest)
    (begun : Nat) : Prop :=
  log[begun]? = some (.started call request) ∧
    ∀ (other : Nat) asked, log[other]? = some (.started call asked) →
      other = begun

/-- The key of a call was built from a generation up to the floor. -/
def Keyed (services : Services Condition) (request : AccessRequest)
    (compiled : CompiledPolicies Condition) (key : Option String)
    (floor : Nat) : Prop :=
  ∀ text, key = some text → ∃ gen ≤ floor,
    text = services.decisionKey (services.contentHash compiled) gen request

def SliceEntry (start : EntityState) (log : List (Event Condition)) (gen : Nat)
    (key : String) (slice : EntitySlice) : Prop :=
  ∃ keyGen ≤ gen, ∃ resource principal,
    key = sliceKey keyGen resource principal ∧
      LoadedSince start log keyGen resource principal (.ok slice)

def DecisionEntry (services : Services Condition) (start : EntityState)
    (log : List (Event Condition)) (gen : Nat) (key : String)
    (decision : Decision) : Prop :=
  ∃ keyGen ≤ gen, ∃ call compiled request,
    key = services.decisionKey (services.contentHash compiled) keyGen
        request ∧
      .snapshotTaken call compiled ∈ log ∧
      DecidedSince services start log keyGen compiled request decision

/-- The decision of a call: it was computed, by this call or by another one,
from states at or above the floor of this call, for a request with the same
digest and under a snapshot with the same hash. -/
def Justified (services : Services Condition) (start : EntityState)
    (log : List (Event Condition)) (gen call begun : Nat)
    (request : AccessRequest) (decision : Decision) : Prop :=
  ∃ floor compiled source other asked,
    Floor log gen begun floor ∧
      .snapshotTaken call compiled ∈ log ∧
      .snapshotTaken source other ∈ log ∧
      services.contentHash other = services.contentHash compiled ∧
      services.requestDigest asked = services.requestDigest request ∧
      DecidedSince services start log floor other asked decision

/-- What a call knows in each phase. -/
def Gathered (services : Services Condition) (start : EntityState)
    (log : List (Event Condition)) (gen call begun : Nat)
    (request : AccessRequest) : Phase Condition → Prop
  | .current => True
  | .readGen compiled => .snapshotTaken call compiled ∈ log
  | .getDecision compiled key =>
      .snapshotTaken call compiled ∈ log ∧ ∃ floor,
        Floor log gen begun floor ∧
          key = services.decisionKey (services.contentHash compiled) floor
            request
  | .sliceGen compiled key =>
      .snapshotTaken call compiled ∈ log ∧
        Keyed services request compiled key gen
  | .getSlice compiled key text =>
      .snapshotTaken call compiled ∈ log ∧ ∃ floor,
        Floor log gen begun floor ∧
          Keyed services request compiled key floor ∧
          text = sliceKey floor request.resource request.principal
  | .load compiled key text seen =>
      .snapshotTaken call compiled ∈ log ∧ seen.length ≤ loadReads ∧
        ∃ floor, Floor log gen begun floor ∧
          Keyed services request compiled key floor ∧
          (∀ found, text = some found →
            found = sliceKey floor request.resource request.principal) ∧
          SeenSince start log floor seen
  | .putSlice compiled key text slice =>
      .snapshotTaken call compiled ∈ log ∧ ∃ floor,
        Floor log gen begun floor ∧
          Keyed services request compiled key floor ∧
          text = sliceKey floor request.resource request.principal ∧
          LoadedSince start log floor request.resource request.principal
            (.ok slice)
  | .decide compiled key result =>
      .snapshotTaken call compiled ∈ log ∧ ∃ floor,
        Floor log gen begun floor ∧
          Keyed services request compiled key floor ∧
          LoadedSince start log floor request.resource request.principal
            result
  | .putDecision key decision =>
      DecisionEntry services start log gen key decision ∧
        Justified services start log gen call begun request decision
  | .answer decision =>
      Justified services start log gen call begun request decision
  | .done => True

structure Sound (services : Services Condition) (start : EntityState)
    (world : World Condition) : Prop where
  stored : world.entities = entitiesAt start world.log world.log.length
  bumps : ∀ writer value, .bumped writer value ∈ world.log →
    value ≤ world.generation ∧ world.writers writer ≠ none
  commits : ∀ (commit bump : Nat) writer state value,
    world.log[commit]? = some (.committed writer state) →
    world.log[bump]? = some (.bumped writer value) → commit < bump
  unused : ∀ call, world.calls call = none → ∀ request,
    .started call request ∉ world.log
  slices : ∀ key slice, world.slices key = some slice →
    SliceEntry start world.log world.generation key slice
  decisions : ∀ key decision, world.decisions key = some decision →
    DecisionEntry services start world.log world.generation key decision
  gathered : ∀ call request phase, world.calls call = some (request, phase) →
    ∃ begun, Begun world.log call request begun ∧
      Gathered services start world.log world.generation call begun request
        phase
  answered : ∀ call decision, .answered call decision ∈ world.log →
    ∃ request begun, Begun world.log call request begun ∧
      Justified services start world.log world.generation call begun request
        decision

variable {services : Services Condition} {start : EntityState}
  {log next : List (Event Condition)} {gen nextGen : Nat}

theorem Begun.append {call begun : Nat} {request : AccessRequest}
    (holds : Begun log call request begun) {event : Event Condition}
    (notStart : ∀ asked, event ≠ .started call asked) :
    Begun (log ++ [event]) call request begun := by
  refine ⟨at_append_of_at holds.1, ?_⟩
  intro other asked found
  rcases at_append.mp found with old | ⟨_, isNew⟩
  · exact holds.2 other asked old
  · exact absurd isNew (notStart asked)

theorem Keyed.raise {request : AccessRequest}
    {compiled : CompiledPolicies Condition} {key : Option String}
    {floor higher : Nat} (keyed : Keyed services request compiled key floor)
    (below : floor ≤ higher) :
    Keyed services request compiled key higher := by
  intro text isKey
  obtain ⟨keyGen, atMost, built⟩ := keyed text isKey
  exact ⟨keyGen, atMost.trans below, built⟩

theorem SliceEntry.grow {key : String} {slice : EntitySlice}
    (entry : SliceEntry start log gen key slice)
    (grows : Grows log next gen nextGen) :
    SliceEntry start next nextGen key slice := by
  obtain ⟨keyGen, reached, resource, principal, built, loaded⟩ := entry
  exact ⟨keyGen, reached.trans grows.monotone, resource, principal, built,
    loaded.grow grows reached⟩

theorem DecisionEntry.grow {key : String} {decision : Decision}
    (entry : DecisionEntry services start log gen key decision)
    (grows : Grows log next gen nextGen) :
    DecisionEntry services start next nextGen key decision := by
  obtain ⟨keyGen, reached, call, compiled, request, built, taken, decided⟩ :=
    entry
  exact ⟨keyGen, reached.trans grows.monotone, call, compiled, request, built,
    grows.mem taken, decided.grow grows reached⟩

theorem Justified.grow {call begun : Nat} {request : AccessRequest}
    {decision : Decision}
    (justified : Justified services start log gen call begun request decision)
    (grows : Grows log next gen nextGen) :
    Justified services start next nextGen call begun request decision := by
  obtain ⟨floor, compiled, source, other, asked, holds, taken, otherTaken,
    sameHash, sameDigest, decided⟩ := justified
  exact ⟨floor, compiled, source, other, asked, holds.grow grows,
    grows.mem taken, grows.mem otherTaken, sameHash, sameDigest,
    decided.grow grows holds.reached⟩

theorem Gathered.grow {call begun : Nat} {request : AccessRequest}
    {phase : Phase Condition}
    (gathered : Gathered services start log gen call begun request phase)
    (grows : Grows log next gen nextGen) :
    Gathered services start next nextGen call begun request phase := by
  cases phase with
  | current => trivial
  | readGen compiled => exact grows.mem gathered
  | getDecision compiled key =>
      obtain ⟨taken, floor, holds, built⟩ := gathered
      exact ⟨grows.mem taken, floor, holds.grow grows, built⟩
  | sliceGen compiled key =>
      obtain ⟨taken, keyed⟩ := gathered
      exact ⟨grows.mem taken, keyed.raise grows.monotone⟩
  | getSlice compiled key text =>
      obtain ⟨taken, floor, holds, keyed, built⟩ := gathered
      exact ⟨grows.mem taken, floor, holds.grow grows, keyed, built⟩
  | load compiled key text seen =>
      obtain ⟨taken, short, floor, holds, keyed, built, seenSince⟩ := gathered
      exact ⟨grows.mem taken, short, floor, holds.grow grows, keyed, built,
        seenSince.grow grows holds.reached⟩
  | putSlice compiled key text slice =>
      obtain ⟨taken, floor, holds, keyed, built, loaded⟩ := gathered
      exact ⟨grows.mem taken, floor, holds.grow grows, keyed, built,
        loaded.grow grows holds.reached⟩
  | decide compiled key result =>
      obtain ⟨taken, floor, holds, keyed, loaded⟩ := gathered
      exact ⟨grows.mem taken, floor, holds.grow grows, keyed,
        loaded.grow grows holds.reached⟩
  | putDecision key decision =>
      obtain ⟨entry, justified⟩ := gathered
      exact ⟨entry.grow grows, justified.grow grows⟩
  | answer decision => exact Justified.grow gathered grows
  | done => trivial

/-- The events of a mutation. -/
def Event.isWrite : Event Condition → Bool
  | .committed _ _ => true
  | .bumped _ _ => true
  | _ => false

theorem grows_of_not_write {event : Event Condition}
    (notWrite : event.isWrite = false) :
    Grows log (log ++ [event]) gen gen where
  appended := by
    refine ⟨[event], rfl, ?_⟩
    intro writer value member
    rw [← List.mem_singleton.mp member] at notWrite
    cases notWrite
  monotone := le_rfl

theorem entitiesAt_append (event : Event Condition) :
    entitiesAt start (log ++ [event]) (log ++ [event]).length =
      match event with
      | .committed _ committed => committed
      | _ => entitiesAt start log log.length := by
  simp only [entitiesAt, List.take_length, List.foldl_append, List.foldl_cons,
    List.foldl_nil]

theorem entitiesAt_now (event : Event Condition) :
    entitiesAt start (log ++ [event]) log.length =
      entitiesAt start log log.length := by
  simp [entitiesAt]

namespace Sound

variable {world : World Condition}

theorem initial (services : Services Condition) (start : EntityState)
    (generation : Nat) :
    Sound services start (World.initial start generation) where
  stored := rfl
  bumps := by simp [World.initial]
  commits := by simp [World.initial]
  unused := by simp [World.initial]
  slices := by simp [World.initial]
  decisions := by simp [World.initial]
  gathered := by simp [World.initial]
  answered := by simp [World.initial]

theorem moveTo {call : Nat} {request : AccessRequest}
    {old phase : Phase Condition} (sound : Sound services start world)
    (found : world.calls call = some (request, old))
    (gathered : ∀ begun, begun < world.log.length →
      Gathered services start world.log world.generation call begun request
        old →
      Gathered services start world.log world.generation call begun request
        phase) :
    Sound services start (world.moveTo call request phase) := by
  refine { sound with unused := ?_, gathered := ?_ }
  · intro other isUnused
    by_cases same : other = call
    · subst same
      simp [World.moveTo] at isUnused
    · simp only [World.moveTo, Function.update_of_ne same] at isUnused
      exact sound.unused other isUnused
  · intro other asked otherPhase inPhase
    by_cases same : other = call
    · subst same
      simp only [World.moveTo, Function.update_self, Option.some.injEq,
        Prod.mk.injEq] at inPhase
      obtain ⟨rfl, rfl⟩ := inPhase
      obtain ⟨begun, started, known⟩ := sound.gathered other request old found
      exact ⟨begun, started, gathered begun (at_lt started.1) known⟩
    · simp only [World.moveTo, Function.update_of_ne same] at inPhase
      exact sound.gathered other asked otherPhase inPhase

theorem begun_append (sound : Sound services start world)
    {event : Event Condition}
    (fresh : ∀ call asked, event = .started call asked →
      world.calls call = none)
    {call begun : Nat} {request : AccessRequest}
    (started : Begun world.log call request begun) :
    Begun (world.log ++ [event]) call request begun := by
  apply started.append
  intro asked isStart
  exact sound.unused call (fresh call asked isStart) request
    (List.mem_of_getElem? started.1)

/-- A step that appends one event and leaves the caches as they are. -/
theorem extend (sound : Sound services start world) (event : Event Condition)
    (next : World Condition) (appended : next.log = world.log ++ [event])
    (sameSlices : next.slices = world.slices)
    (sameDecisions : next.decisions = world.decisions)
    (grows : Grows world.log next.log world.generation next.generation)
    (stored : next.entities = entitiesAt start next.log next.log.length)
    (bumps : ∀ writer value, .bumped writer value ∈ next.log →
      value ≤ next.generation ∧ next.writers writer ≠ none)
    (commits : ∀ (commit bump : Nat) writer state value,
      next.log[commit]? = some (.committed writer state) →
      next.log[bump]? = some (.bumped writer value) → commit < bump)
    (fresh : ∀ call asked, event = .started call asked →
      world.calls call = none)
    (unused : ∀ call, next.calls call = none → world.calls call = none ∧
      ∀ asked, event ≠ .started call asked)
    (moved : ∀ call request phase, next.calls call = some (request, phase) →
      world.calls call = some (request, phase) ∨
        ∃ begun, Begun next.log call request begun ∧
          Gathered services start next.log next.generation call begun request
            phase)
    (answers : ∀ call decision, event = .answered call decision →
      ∃ request begun, Begun next.log call request begun ∧
        Justified services start next.log next.generation call begun request
          decision) :
    Sound services start next where
  stored := stored
  bumps := bumps
  commits := commits
  unused := by
    intro call isUnused request member
    obtain ⟨wasUnused, notStart⟩ := unused call isUnused
    rw [appended] at member
    rcases List.mem_append.mp member with old | isNew
    · exact sound.unused call wasUnused request old
    · exact notStart request (List.mem_singleton.mp isNew).symm
  slices := by
    intro key slice found
    rw [sameSlices] at found
    exact (sound.slices key slice found).grow grows
  decisions := by
    intro key decision found
    rw [sameDecisions] at found
    exact (sound.decisions key decision found).grow grows
  gathered := by
    intro call request phase inPhase
    rcases moved call request phase inPhase with old | isNew
    · obtain ⟨begun, started, known⟩ := sound.gathered call request phase old
      refine ⟨begun, ?_, known.grow grows⟩
      rw [appended]
      exact sound.begun_append fresh started
    · exact isNew
  answered := by
    intro call decision member
    rw [appended] at member
    rcases List.mem_append.mp member with old | isNew
    · obtain ⟨request, begun, started, justified⟩ :=
        sound.answered call decision old
      refine ⟨request, begun, ?_, justified.grow grows⟩
      rw [appended]
      exact sound.begun_append fresh started
    · exact answers call decision (List.mem_singleton.mp isNew).symm

/-- A call records an event and moves to its next phase. -/
theorem recordMove (sound : Sound services start world)
    {event : Event Condition} (notWrite : event.isWrite = false)
    {call begun : Nat} {request : AccessRequest} {phase : Phase Condition}
    (fresh : ∀ other asked, event = .started other asked →
      other = call ∧ world.calls call = none)
    (started : Begun (world.log ++ [event]) call request begun)
    (gathered : Gathered services start (world.log ++ [event])
      world.generation call begun request phase)
    (answers : ∀ other decision, event = .answered other decision →
      other = call ∧ Justified services start (world.log ++ [event])
        world.generation call begun request decision) :
    Sound services start
      ((world.record event).moveTo call request phase) := by
  apply sound.extend event ((world.record event).moveTo call request phase) rfl
    rfl rfl (grows_of_not_write notWrite)
  · change world.entities = _
    rw [sound.stored]
    refine Eq.trans ?_ (entitiesAt_append event).symm
    cases event with
    | committed writer state => cases notWrite
    | bumped writer value => rfl
    | started other asked => rfl
    | snapshotTaken other compiled => rfl
    | entityRead other state => rfl
    | answered other decision => rfl
  · intro writer value member
    rcases List.mem_append.mp member with old | isNew
    · exact sound.bumps writer value old
    · rw [← List.mem_singleton.mp isNew] at notWrite
      cases notWrite
  · intro commit bump writer state value committed bumped
    rcases at_append.mp committed with oldCommit | ⟨_, rfl⟩
    · rcases at_append.mp bumped with oldBump | ⟨_, rfl⟩
      · exact sound.commits commit bump writer state value oldCommit oldBump
      · cases notWrite
    · cases notWrite
  · intro other asked isStart
    obtain ⟨rfl, unused⟩ := fresh other asked isStart
    exact unused
  · intro other unused
    by_cases same : other = call
    · subst same
      simp [World.moveTo] at unused
    · simp only [World.moveTo, Function.update_of_ne same] at unused
      exact ⟨unused, fun asked isStart => same (fresh other asked isStart).1⟩
  · intro other asked otherPhase inPhase
    by_cases same : other = call
    · subst same
      simp only [World.moveTo, Function.update_self, Option.some.injEq,
        Prod.mk.injEq] at inPhase
      obtain ⟨rfl, rfl⟩ := inPhase
      exact .inr ⟨begun, started, gathered⟩
    · simp only [World.moveTo, Function.update_of_ne same] at inPhase
      exact .inl inPhase
  · intro other decision isAnswer
    obtain ⟨rfl, justified⟩ := answers other decision isAnswer
    exact ⟨request, begun, started, justified⟩

theorem commit {writer : Nat} (sound : Sound services start world)
    (unused : world.writers writer = none) (state : EntityState) :
    Sound services start (world.commit writer state) := by
  have grows : Grows world.log (world.log ++ [Event.committed writer state])
      world.generation world.generation := by
    refine ⟨⟨_, rfl, ?_⟩, le_rfl⟩
    intro other value member
    cases List.mem_singleton.mp member
  apply sound.extend (.committed writer state) (world.commit writer state) rfl
    rfl rfl grows
  · exact (entitiesAt_append (.committed writer state)).symm
  · intro other value member
    rcases List.mem_append.mp member with old | isNew
    · obtain ⟨reached, used⟩ := sound.bumps other value old
      refine ⟨reached, ?_⟩
      by_cases same : other = writer
      · subst same
        exact absurd unused used
      · simpa only [World.commit, World.record, Function.update_of_ne same]
          using used
    · cases List.mem_singleton.mp isNew
  · intro commit bump other otherState value committed bumped
    rcases at_append.mp bumped with oldBump | ⟨_, isNew⟩
    · rcases at_append.mp committed with oldCommit | ⟨_, isNew⟩
      · exact sound.commits commit bump other otherState value oldCommit
          oldBump
      · cases isNew
        have used :=
          (sound.bumps writer value (List.mem_of_getElem? oldBump)).2
        exact absurd unused used
    · cases isNew
  · intro call asked isStart
    cases isStart
  · intro call unused
    refine ⟨unused, fun asked isStart => ?_⟩
    cases isStart
  · intro call request phase inPhase
    exact .inl inPhase
  · intro call decision isAnswer
    cases isAnswer

theorem bump {writer : Nat} (sound : Sound services start world) :
    Sound services start (world.bump writer) := by
  have grows : Grows world.log
      (world.log ++ [Event.bumped writer (world.generation + 1)])
      world.generation (world.generation + 1) := by
    refine ⟨⟨_, rfl, ?_⟩, Nat.le_succ _⟩
    intro other value member
    cases List.mem_singleton.mp member
    exact Nat.lt_succ_self _
  apply sound.extend (.bumped writer (world.generation + 1))
    (world.bump writer) rfl rfl rfl grows
  · refine Eq.trans sound.stored ?_
    exact (entitiesAt_append (.bumped writer (world.generation + 1))).symm
  · intro other value member
    by_cases same : other = writer
    · subst same
      refine ⟨?_, by simp [World.bump, World.record]⟩
      rcases List.mem_append.mp member with old | isNew
      · exact (sound.bumps other value old).1.trans (Nat.le_succ _)
      · cases List.mem_singleton.mp isNew
        exact le_rfl
    · rcases List.mem_append.mp member with old | isNew
      · obtain ⟨reached, used⟩ := sound.bumps other value old
        refine ⟨reached.trans (Nat.le_succ _), ?_⟩
        simpa only [World.bump, World.record, Function.update_of_ne same]
          using used
      · cases List.mem_singleton.mp isNew
        exact absurd rfl same
  · intro commit bump other state value committed bumped
    rcases at_append.mp committed with oldCommit | ⟨_, isNew⟩
    · rcases at_append.mp bumped with oldBump | ⟨isLast, _⟩
      · exact sound.commits commit bump other state value oldCommit oldBump
      · rw [isLast]
        exact at_lt oldCommit
    · cases isNew
  · intro call asked isStart
    cases isStart
  · intro call unused
    refine ⟨unused, fun asked isStart => ?_⟩
    cases isStart
  · intro call request phase inPhase
    exact .inl inPhase
  · intro call decision isAnswer
    cases isAnswer

theorem raise (sound : Sound services start world) (delta : Nat) :
    Sound services start
      { world with generation := world.generation + delta } := by
  have grows : Grows world.log world.log world.generation
      (world.generation + delta) := by
    refine ⟨⟨[], by simp, ?_⟩, Nat.le_add_right _ _⟩
    intro writer value member
    cases member
  refine { sound with
    bumps := ?_, slices := ?_, decisions := ?_, gathered := ?_,
    answered := ?_ }
  · intro writer value member
    obtain ⟨reached, used⟩ := sound.bumps writer value member
    exact ⟨reached.trans grows.monotone, used⟩
  · intro key slice found
    exact (sound.slices key slice found).grow grows
  · intro key decision found
    exact (sound.decisions key decision found).grow grows
  · intro call request phase inPhase
    obtain ⟨begun, started, known⟩ := sound.gathered call request phase inPhase
    exact ⟨begun, started, known.grow grows⟩
  · intro call decision member
    obtain ⟨request, begun, started, justified⟩ :=
      sound.answered call decision member
    exact ⟨request, begun, started, justified.grow grows⟩

/-- The current generation is a floor for every call that has started. -/
theorem floor_now (sound : Sound services start world) {begun : Nat}
    (started : begun < world.log.length) :
    Floor world.log world.generation begun world.generation where
  reached := le_rfl
  started := started.le
  below := by
    intro bump writer value bumped _
    exact (sound.bumps writer value (List.mem_of_getElem? bumped)).1

/-- A read that happens now is after every bump. -/
theorem seenSince_read (sound : Sound services start world) {call floor : Nat}
    {seen : List EntityState}
    (seenSince : SeenSince start world.log floor seen)
    (reached : floor ≤ world.generation) :
    SeenSince start (world.log ++ [Event.entityRead call world.entities]) floor
      (seen ++ [world.entities]) := by
  intro state member
  rcases List.mem_append.mp member with old | isNew
  · have grows : Grows world.log
        (world.log ++ [Event.entityRead call world.entities]) world.generation
        world.generation := grows_of_not_write rfl
    exact seenSince.grow grows reached state old
  · cases List.mem_singleton.mp isNew
    refine ⟨world.log.length, call, at_last _ _, ?_, ?_⟩
    · rw [entitiesAt_now]
      exact sound.stored
    · intro bump writer value bumped _
      rcases at_append.mp bumped with old | ⟨_, isRead⟩
      · exact at_lt old
      · cases isRead

theorem startCall {call : Nat} {request : AccessRequest}
    (sound : Sound services start world) (unused : world.calls call = none) :
    Sound services start
      ((world.record (.started call request)).moveTo call request
        .current) := by
  apply @recordMove _ services start world sound (.started call request) rfl
    call world.log.length
  · intro other asked isStart
    cases isStart
    exact ⟨rfl, unused⟩
  · refine ⟨at_last _ _, ?_⟩
    intro other asked found
    rcases at_append.mp found with old | ⟨isLast, _⟩
    · exact absurd (List.mem_of_getElem? old)
        (sound.unused call unused asked)
    · exact isLast
  · trivial
  · intro other decision isAnswer
    cases isAnswer

/-- A call that has started records an event, other than its answer. -/
theorem recordOwn {call : Nat} {request : AccessRequest}
    {old phase : Phase Condition} (sound : Sound services start world)
    (found : world.calls call = some (request, old))
    (event : Event Condition) (notWrite : event.isWrite = false)
    (notStart : ∀ other asked, event ≠ .started other asked)
    (gathered : ∀ begun,
      Gathered services start world.log world.generation call begun request
        old →
      Gathered services start (world.log ++ [event]) world.generation call
        begun request phase)
    (answers : ∀ begun other decision, event = .answered other decision →
      Gathered services start world.log world.generation call begun request
        old →
      other = call ∧ Justified services start (world.log ++ [event])
        world.generation call begun request decision) :
    Sound services start ((world.record event).moveTo call request phase) := by
  obtain ⟨begun, started, known⟩ := sound.gathered call request old found
  apply sound.recordMove notWrite _ _ (gathered begun known)
  · intro other decision isAnswer
    exact answers begun other decision isAnswer known
  · intro other asked isStart
    exact absurd isStart (notStart other asked)
  · exact started.append (notStart call)

theorem current {call : Nat} {request : AccessRequest}
    (sound : Sound services start world)
    (found : world.calls call = some (request, .current))
    (compiled : CompiledPolicies Condition) :
    Sound services start
      ((world.record (.snapshotTaken call compiled)).moveTo call request
        (.readGen compiled)) := by
  apply sound.recordOwn found (.snapshotTaken call compiled) rfl
  · intro other asked isStart
    cases isStart
  · intro begun _
    exact List.mem_append_right _ (List.mem_singleton.mpr rfl)
  · intro begun other decision isAnswer
    cases isAnswer

/-- A stored decision justifies the answer of a call that finds it under its
own key. -/
theorem justified_of_hit (sound : Sound services start world)
    {call begun floor : Nat} {request : AccessRequest}
    {compiled : CompiledPolicies Condition} {decision : Decision}
    (taken : .snapshotTaken call compiled ∈ world.log)
    (holds : Floor world.log world.generation begun floor)
    (hit : world.decisions (services.decisionKey
      (services.contentHash compiled) floor request) = some decision) :
    Justified services start world.log world.generation call begun request
      decision := by
  obtain ⟨keyGen, _, source, other, asked, built, otherTaken, decided⟩ :=
    sound.decisions _ decision hit
  obtain ⟨sameHash, rfl, sameDigest⟩ := decisionKey_inj built
  exact ⟨floor, compiled, source, other, asked, holds, taken, otherTaken,
    sameHash.symm, sameDigest.symm, decided⟩

theorem loadedSince_of_hit (sound : Sound services start world)
    {floor : Nat} {resource principal : Prn} {slice : EntitySlice}
    (hit : world.slices (sliceKey floor resource principal) = some slice) :
    LoadedSince start world.log floor resource principal (.ok slice) := by
  obtain ⟨keyGen, _, otherResource, otherPrincipal, built, loaded⟩ :=
    sound.slices _ slice hit
  obtain ⟨rfl, rfl, rfl⟩ := sliceKey_inj built
  exact loaded

theorem getDecision {call : Nat} {request : AccessRequest} {fails : Bool}
    {compiled : CompiledPolicies Condition} {key : String}
    {next : World Condition} (sound : Sound services start world)
    (found : world.calls call = some (request, .getDecision compiled key))
    (stepped : world.advancePhase services call request fails
      (.getDecision compiled key) = some next) :
    Sound services start next := by
  simp only [World.advancePhase] at stepped
  split at stepped
  case h_1 decision hit =>
    cases stepped
    apply sound.moveTo found
    rintro begun _ ⟨taken, floor, holds, rfl⟩
    cases fails with
    | true => cases hit
    | false => exact sound.justified_of_hit taken holds hit
  case h_2 miss =>
    cases stepped
    apply sound.moveTo found
    rintro begun _ ⟨taken, floor, holds, built⟩
    refine ⟨taken, ?_⟩
    intro text isKey
    cases isKey
    exact ⟨floor, holds.reached, built⟩

theorem sliceGen {call : Nat} {request : AccessRequest} {fails : Bool}
    {compiled : CompiledPolicies Condition} {key : Option String}
    {next : World Condition} (sound : Sound services start world)
    (found : world.calls call = some (request, .sliceGen compiled key))
    (stepped : world.advancePhase services call request fails
      (.sliceGen compiled key) = some next) :
    Sound services start next := by
  simp only [World.advancePhase] at stepped
  split at stepped
  · cases stepped
    apply sound.moveTo found
    rintro begun started ⟨taken, keyed⟩
    refine ⟨taken, Nat.zero_le _, world.generation, sound.floor_now started,
      keyed, ?_, ?_⟩
    · intro text isKey
      cases isKey
    · intro state member
      cases member
  · cases stepped
    apply sound.moveTo found
    rintro begun started ⟨taken, keyed⟩
    exact ⟨taken, world.generation, sound.floor_now started, keyed, rfl⟩

theorem getSlice {call : Nat} {request : AccessRequest} {fails : Bool}
    {compiled : CompiledPolicies Condition} {key : Option String}
    {text : String} {next : World Condition}
    (sound : Sound services start world)
    (found : world.calls call = some (request, .getSlice compiled key text))
    (stepped : world.advancePhase services call request fails
      (.getSlice compiled key text) = some next) :
    Sound services start next := by
  simp only [World.advancePhase] at stepped
  split at stepped
  case h_1 slice hit =>
    cases stepped
    apply sound.moveTo found
    rintro begun _ ⟨taken, floor, holds, keyed, rfl⟩
    cases fails with
    | true => cases hit
    | false =>
        exact ⟨taken, floor, holds, keyed, sound.loadedSince_of_hit hit⟩
  case h_2 miss =>
    cases stepped
    apply sound.moveTo found
    rintro begun _ ⟨taken, floor, holds, keyed, built⟩
    refine ⟨taken, Nat.zero_le _, floor, holds, keyed, ?_, ?_⟩
    · intro other isKey
      cases isKey
      exact built
    · intro state member
      cases member

theorem load {call : Nat} {request : AccessRequest} {fails : Bool}
    {compiled : CompiledPolicies Condition} {key text : Option String}
    {seen : List EntityState} {next : World Condition}
    (sound : Sound services start world)
    (found : world.calls call = some (request, .load compiled key text seen))
    (stepped : world.advancePhase services call request fails
      (.load compiled key text seen) = some next) :
    Sound services start next := by
  simp only [World.advancePhase] at stepped
  split at stepped
  case isTrue short =>
    cases stepped
    apply sound.recordOwn found (.entityRead call world.entities) rfl
    · intro other asked isStart
      cases isStart
    · rintro begun ⟨taken, _, floor, holds, keyed, built, seenSince⟩
      refine ⟨List.mem_append_left _ taken, ?_, floor,
        holds.grow (grows_of_not_write rfl), keyed, built,
        sound.seenSince_read seenSince holds.reached⟩
      rw [List.length_append, List.length_singleton]
      omega
    · intro begun other decision isAnswer
      cases isAnswer
  case isFalse complete =>
    have result : ∀ begun, Gathered services start world.log world.generation
        call begun request (.load compiled key text seen) →
        .snapshotTaken call compiled ∈ world.log ∧ ∃ floor,
          Floor world.log world.generation begun floor ∧
          Keyed services request compiled key floor ∧
          (∀ other, text = some other →
            other = sliceKey floor request.resource request.principal) ∧
          LoadedSince start world.log floor request.resource
            request.principal (Authorization.load
              (readsOf seen request.principal) request.resource
              request.principal) := by
      rintro begun ⟨taken, short, floor, holds, keyed, built, seenSince⟩
      exact ⟨taken, floor, holds, keyed, built, seen, by omega, seenSince, rfl⟩
    cases stepped
    generalize Authorization.load (readsOf seen request.principal)
      request.resource request.principal = outcome at result
    unfold World.loaded
    split
    case h_1 slice other =>
      apply sound.moveTo found
      intro begun _ known
      obtain ⟨taken, floor, holds, keyed, built, loaded⟩ := result begun known
      exact ⟨taken, floor, holds, keyed, built other rfl, loaded⟩
    case h_2 =>
      apply sound.moveTo found
      intro begun _ known
      obtain ⟨taken, floor, holds, keyed, _, loaded⟩ := result begun known
      exact ⟨taken, floor, holds, keyed, loaded⟩

theorem putSlice {call : Nat} {request : AccessRequest} {fails : Bool}
    {compiled : CompiledPolicies Condition} {key : Option String}
    {text : String} {slice : EntitySlice} {next : World Condition}
    (sound : Sound services start world)
    (found : world.calls call =
      some (request, .putSlice compiled key text slice))
    (stepped : world.advancePhase services call request fails
      (.putSlice compiled key text slice) = some next) :
    Sound services start next := by
  have moved : Sound services start
      (world.moveTo call request (.decide compiled key (.ok slice))) := by
    apply sound.moveTo found
    rintro begun _ ⟨taken, floor, holds, keyed, _, loaded⟩
    exact ⟨taken, floor, holds, keyed, loaded⟩
  simp only [World.advancePhase] at stepped
  split at stepped
  · cases stepped
    exact moved
  · cases stepped
    refine { moved with slices := ?_ }
    intro other stored isStored
    by_cases same : other = text
    · subst same
      simp only [Function.update_self, Option.some.injEq] at isStored
      subst isStored
      obtain ⟨begun, _, _, floor, holds, _, built, loaded⟩ :=
        sound.gathered call request _ found
      exact ⟨floor, holds.reached, request.resource, request.principal, built,
        loaded⟩
    · simp only [Function.update_of_ne same] at isStored
      exact sound.slices other stored isStored

theorem decide {call : Nat} {request : AccessRequest} {fails : Bool}
    {compiled : CompiledPolicies Condition} {key : Option String}
    {result : Except SliceError EntitySlice} {next : World Condition}
    (sound : Sound services start world)
    (found : world.calls call = some (request, .decide compiled key result))
    (stepped : world.advancePhase services call request fails
      (.decide compiled key result) = some next) :
    Sound services start next := by
  cases stepped
  cases outcome : services.outcome compiled request result with
  | none =>
      apply sound.moveTo found
      intro begun _ _
      trivial
  | some decision =>
      have justified : ∀ begun, Gathered services start world.log
          world.generation call begun request (.decide compiled key result) →
          Justified services start world.log world.generation call begun
            request decision := by
        rintro begun ⟨taken, floor, holds, _, loaded⟩
        exact ⟨floor, compiled, call, compiled, request, holds, taken, taken,
          rfl, rfl, result, loaded, outcome⟩
      cases key with
      | none =>
          apply sound.moveTo found
          intro begun _ known
          exact justified begun known
      | some text =>
          apply sound.moveTo found
          intro begun _ known
          refine ⟨?_, justified begun known⟩
          obtain ⟨taken, floor, holds, keyed, loaded⟩ := known
          obtain ⟨keyGen, below, built⟩ := keyed text rfl
          exact ⟨keyGen, below.trans holds.reached, call, compiled, request,
            built, taken, result, loaded.lower below, outcome⟩

theorem putDecision {call : Nat} {request : AccessRequest} {fails : Bool}
    {key : String} {decision : Decision} {next : World Condition}
    (sound : Sound services start world)
    (found : world.calls call = some (request, .putDecision key decision))
    (stepped : world.advancePhase services call request fails
      (.putDecision key decision) = some next) :
    Sound services start next := by
  have moved : Sound services start
      (world.moveTo call request (.answer decision)) := by
    apply sound.moveTo found
    intro begun _ known
    exact known.2
  simp only [World.advancePhase] at stepped
  split at stepped
  · cases stepped
    exact moved
  · cases stepped
    refine { moved with decisions := ?_ }
    intro other stored isStored
    by_cases same : other = key
    · subst same
      simp only [Function.update_self, Option.some.injEq] at isStored
      subst isStored
      obtain ⟨begun, _, entry, _⟩ := sound.gathered call request _ found
      exact entry
    · simp only [Function.update_of_ne same] at isStored
      exact sound.decisions other stored isStored

theorem advancePhase {call : Nat} {request : AccessRequest} {fails : Bool}
    {phase : Phase Condition} {next : World Condition}
    (sound : Sound services start world)
    (found : world.calls call = some (request, phase))
    (stepped : world.advancePhase services call request fails phase =
      some next) :
    Sound services start next := by
  cases phase with
  | current => cases stepped
  | readGen compiled =>
      simp only [World.advancePhase] at stepped
      split at stepped
      · cases stepped
        apply sound.moveTo found
        intro begun _ taken
        refine ⟨taken, ?_⟩
        intro text isKey
        cases isKey
      · cases stepped
        apply sound.moveTo found
        intro begun started taken
        exact ⟨taken, world.generation, sound.floor_now started, rfl⟩
  | getDecision compiled key => exact sound.getDecision found stepped
  | sliceGen compiled key => exact sound.sliceGen found stepped
  | getSlice compiled key text => exact sound.getSlice found stepped
  | load compiled key text seen => exact sound.load found stepped
  | putSlice compiled key text slice => exact sound.putSlice found stepped
  | decide compiled key result => exact sound.decide found stepped
  | putDecision key decision => exact sound.putDecision found stepped
  | answer decision =>
      cases stepped
      apply sound.recordOwn found (.answered call decision) rfl
      · intro other asked isStart
        cases isStart
      · intro begun _
        trivial
      · intro begun other answer isAnswer known
        cases isAnswer
        exact ⟨rfl, Justified.grow known (grows_of_not_write rfl)⟩
  | done => cases stepped

theorem step {action : Action Condition} {next : World Condition}
    (sound : Sound services start world)
    (stepped : world.step services action = some next) :
    Sound services start next := by
  cases action with
  | commit writer state =>
      simp only [World.step] at stepped
      split at stepped
      · cases stepped
      case h_2 unused =>
        cases stepped
        exact sound.commit unused state
  | bump writer =>
      simp only [World.step] at stepped
      split at stepped
      · cases stepped
        exact sound.bump
      · cases stepped
  | raise delta =>
      cases stepped
      exact sound.raise delta
  | start call request =>
      simp only [World.step] at stepped
      split at stepped
      · cases stepped
      case h_2 unused =>
        cases stepped
        exact sound.startCall unused
  | current call compiled =>
      simp only [World.step] at stepped
      split at stepped
      case h_1 request found =>
        cases stepped
        exact sound.current found compiled
      case h_2 => cases stepped
  | advance call fails =>
      simp only [World.step] at stepped
      split at stepped
      · cases stepped
      case h_2 request phase found => exact sound.advancePhase found stepped
  | cancel call =>
      simp only [World.step] at stepped
      split at stepped
      · cases stepped
      case h_2 request phase found =>
        cases stepped
        apply sound.moveTo found
        intro begun _ _
        trivial

end Sound

end Invariant

section Freshness

/-- The state was read after the commit of every mutation whose bump had
returned when the call began. -/
def Fresh (start : EntityState) (log : List (Event Condition)) (begun : Nat)
    (state : EntityState) : Prop :=
  ∃ (moment reader : Nat), log[moment]? = some (.entityRead reader state) ∧
    state = entitiesAt start log moment ∧
    ∀ writer (bump : Nat) value (commit : Nat) committed,
      log[bump]? = some (.bumped writer value) → bump < begun →
      log[commit]? = some (.committed writer committed) → commit < moment

/-- The answer was computed from seven fresh reads, for a request with the
digest of the call's own and under a snapshot with the content of the call's
own. -/
def Current (services : Services Condition) (start : EntityState)
    (log : List (Event Condition)) (call : Nat) (decision : Decision) : Prop :=
  ∃ request begun compiled source other asked seen,
    Begun log call request begun ∧
      .snapshotTaken call compiled ∈ log ∧
      .snapshotTaken source other ∈ log ∧
      SameContent other.docs compiled.docs other.grants compiled.grants ∧
      services.requestDigest asked = services.requestDigest request ∧
      seen.length = loadReads ∧
      (∀ state ∈ seen, Fresh start log begun state) ∧
      services.outcome other asked (load (readsOf seen asked.principal)
        asked.resource asked.principal) = some decision

/-- Snapshots that fit in memory and whose encodings do not collide. -/
structure Apart (services : Services Condition)
    (log : List (Event Condition)) : Prop where
  sized : ∀ call compiled, .snapshotTaken call compiled ∈ log →
    Sized compiled.docs compiled.grants
  distinct : ∀ call compiled source other,
    .snapshotTaken call compiled ∈ log → .snapshotTaken source other ∈ log →
    services.blake3 (contentEncoding other.docs other.grants) =
      services.blake3 (contentEncoding compiled.docs compiled.grants) →
    contentEncoding other.docs other.grants =
      contentEncoding compiled.docs compiled.grants

theorem Sound.fresh {services : Services Condition} {start : EntityState}
    {world : World Condition} (sound : Sound services start world)
    {begun floor : Nat} {seen : List EntityState}
    (holds : Floor world.log world.generation begun floor)
    (seenSince : SeenSince start world.log floor seen) :
    ∀ state ∈ seen, Fresh start world.log begun state := by
  intro state member
  obtain ⟨moment, reader, read, stored, since⟩ := seenSince state member
  refine ⟨moment, reader, read, stored, ?_⟩
  intro writer bump value commit committed bumped before isCommit
  have upTo := holds.below bump writer value bumped before
  have committedBefore :=
    sound.commits commit bump writer committed value isCommit bumped
  have readAfter := since bump writer value bumped upTo
  omega

/-- In every interleaving, what a call answers reflects every mutation bumped
before the call and the policies of the snapshot that the call took. -/
theorem answers_are_current (services : Services Condition)
    (start : EntityState) (generation : Nat) (world : World Condition)
    (reachable : Reachable (World.step services)
      (World.initial start generation) world)
    (apart : Apart services world.log) (call : Nat) (decision : Decision)
    (answered : .answered call decision ∈ world.log) :
    Current services start world.log call decision := by
  have sound : Sound services start world := by
    apply reachable.invariant
    · intro before action next sound stepped
      exact sound.step stepped
    · exact Sound.initial services start generation
  obtain ⟨request, begun, started, floor, compiled, source, other, asked,
    holds, taken, otherTaken, sameHash, sameDigest, result,
    ⟨seen, complete, seenSince, loaded⟩, outcome⟩ :=
    sound.answered call decision answered
  have sameContent : SameContent other.docs compiled.docs other.grants
      compiled.grants := by
    apply sameContent_of_encoding_eq (apart.sized source other otherTaken)
      (apart.sized call compiled taken)
    exact apart.distinct call compiled source other taken otherTaken
      (contentHash_injective sameHash)
  refine ⟨request, begun, compiled, source, other, asked, seen, started, taken,
    otherTaken, sameContent, sameDigest, complete, sound.fresh holds seenSince,
    ?_⟩
  rw [loaded]
  exact outcome

section RegisteredPrincipal

open Snapshot (permitAll permitAllFrontend)

def permitAllPolicies : CompiledPolicies String :=
  ⟨[permitAll], [],
    ⟨[("permit-all", ⟨.permit, .any, .any, .any, []⟩)], [], []⟩⟩

def listRequest : AccessRequest :=
  ⟨(PrincipalId.fromUuid 7).prn, .listOrganizations, rootPrn, .empty⟩

/-- The digests of the policies and of the request of the run below. -/
def sampleBlake3 (bytes : List UInt8) : Vector UInt8 32 :=
  if bytes = contentEncoding [permitAll] [] then
    #v[94, 54, 158, 111, 27, 1, 244, 148, 86, 154, 137, 68, 245, 75, 163, 229,
      179, 193, 72, 120, 33, 119, 104, 84, 47, 62, 94, 206, 156, 149, 8, 126]
  else if bytes = requestBytes listRequest then
    #v[194, 161, 218, 72, 120, 153, 88, 135, 180, 13, 37, 208, 231, 237, 23,
      78, 24, 178, 104, 221, 178, 165, 30, 38, 169, 188, 220, 7, 127, 227,
      238, 84]
  else
    Vector.replicate 32 0

def sampleServices : Services String where
  language := ⟨permitAllFrontend, fun _ _ => true, fun _ _ _ => none⟩
  blake3 := sampleBlake3

/-- The principal 7 is stored. -/
def registered : EntityState :=
  ⟨{ Db.empty with principals := [7] }, fun _ => "user", fun _ => "active"⟩

/-- A request of an unknown principal, its registration, and two more requests,
of which the last finds the decision of the one before. -/
def registrationRun : List (Action String) :=
  ([.start 0 listRequest, .current 0 permitAllPolicies] : List (Action _)) ++
    (List.replicate 15 (.advance 0 false) : List (Action _)) ++
    ([.commit 0 registered, .bump 0, .start 1 listRequest,
      .current 1 permitAllPolicies] : List (Action _)) ++
    (List.replicate 16 (.advance 1 false) : List (Action _)) ++
    ([.start 2 listRequest, .current 2 permitAllPolicies] : List (Action _)) ++
    (List.replicate 3 (.advance 2 false) : List (Action _))

def Event.answer? : Event Condition → Option (Nat × Decision)
  | .answered call decision => some (call, decision)
  | _ => none

def Event.content? :
    Event Condition → Option (List PolicyDocument × List RoleGrant)
  | .snapshotTaken _ compiled => some (compiled.docs, compiled.grants)
  | _ => none

theorem registrationRun_logs :
    (runFrom (World.step sampleServices) (World.initial .empty 0)
      registrationRun).map (fun world =>
        (world.log.filterMap Event.answer?,
          world.log.filterMap Event.content?)) =
      some ([(0, ⟨.deny, ["resource-not-found"]⟩),
          (1, ⟨.allow, ["permit-all"]⟩), (2, ⟨.allow, ["permit-all"]⟩)],
        List.replicate 3 ([permitAll], [])) := by
  decide +kernel

theorem permitAll_sized : Sized [permitAll] [] where
  docCount := by decide
  grantCount := by decide
  docFields := by decide
  grantFields := by simp

theorem registrationRun_answers_are_current :
    ∃ world, Reachable (World.step sampleServices) (World.initial .empty 0)
        world ∧
      Apart sampleServices world.log ∧
      .answered 0 ⟨.deny, ["resource-not-found"]⟩ ∈ world.log ∧
      .answered 2 ⟨.allow, ["permit-all"]⟩ ∈ world.log ∧
      Current sampleServices .empty world.log 2
        ⟨.allow, ["permit-all"]⟩ := by
  obtain ⟨world, run, logs⟩ :=
    Option.map_eq_some_iff.mp registrationRun_logs
  obtain ⟨answers, contents⟩ := Prod.mk.inj logs
  have reachable : Reachable (World.step sampleServices)
      (World.initial .empty 0) world := ⟨registrationRun, run⟩
  have answered : ∀ call decision,
      (call, decision) ∈ world.log.filterMap Event.answer? →
      .answered call decision ∈ world.log := by
    intro call decision member
    obtain ⟨event, isEvent, isAnswer⟩ := List.mem_filterMap.mp member
    cases event <;> cases isAnswer
    exact isEvent
  have content : ∀ call compiled, .snapshotTaken call compiled ∈ world.log →
      compiled.docs = [permitAll] ∧ compiled.grants = [] := by
    intro call compiled taken
    have member : (compiled.docs, compiled.grants) ∈
        world.log.filterMap Event.content? :=
      List.mem_filterMap.mpr ⟨_, taken, rfl⟩
    rw [contents] at member
    exact Prod.mk.inj (List.eq_of_mem_replicate member)
  have apart : Apart sampleServices world.log := by
    constructor
    · intro call compiled taken
      obtain ⟨docs, grants⟩ := content call compiled taken
      rw [docs, grants]
      exact permitAll_sized
    · intro call compiled source other taken otherTaken _
      obtain ⟨docs, grants⟩ := content call compiled taken
      obtain ⟨otherDocs, otherGrants⟩ := content source other otherTaken
      rw [docs, grants, otherDocs, otherGrants]
  have last : .answered 2 ⟨.allow, ["permit-all"]⟩ ∈ world.log := by
    apply answered
    rw [answers]
    simp
  refine ⟨world, reachable, apart, ?_, last, ?_⟩
  · apply answered
    rw [answers]
    simp
  · exact answers_are_current sampleServices .empty 0 world reachable apart 2
      ⟨.allow, ["permit-all"]⟩ last

end RegisteredPrincipal

end Freshness

end Paigasus.Authorization.Cached
