import Paigasus.Dpop.OneTimeUse
import Paigasus.Foundation.Bytes
import Paigasus.Foundation.EventLog

/-!
# The follow-up of a verified proof

In a sequential run every successful `redeem` spends the follow-up of one
earlier successful `verify`.  The store links the two calls only through the
proof key and the proof digest, so the statement rests on a hash function that
does not collide on the texts hashed in the run.
-/

namespace Paigasus.Dpop

open Foundation Core

/-- One call of a sequential run, with the second its clock shows. -/
inductive ProofCall where
  | verify (claims : ValidatedClaims) (token : String)
      (request : DpopRequest) (now : I64)
  | redeem (claims : ValidatedClaims) (token proof : String) (now : I64)
deriving DecidableEq

namespace ProofCall

def now : ProofCall → I64
  | .verify _ _ _ now => now
  | .redeem _ _ _ now => now

def proof : ProofCall → String
  | .verify _ _ request _ => request.proof
  | .redeem _ _ proof _ => proof

def keyBinding : ProofCall → Option Jkt
  | .verify claims _ _ _ => claims.keyBinding
  | .redeem claims _ _ _ => claims.keyBinding

def isVerify : ProofCall → Bool
  | .verify _ _ _ _ => true
  | .redeem _ _ _ _ => false

end ProofCall

/-- One finished call, with the store before and after it. -/
structure ProofEvent where
  call : ProofCall
  before : State
  after : State
  answer : Except AuthnError Unit

structure Session where
  clock : I64
  store : State
  log : List ProofEvent

namespace DpopProofVerifier

variable (verifier : DpopProofVerifier)

def answer (state : State) : ProofCall → State × Except AuthnError Unit
  | .verify claims token request now =>
      verifier.verify state claims token request now
  | .redeem claims token proof now =>
      verifier.redeem state claims token proof now

/-- The bytes that are hashed into a proof key. -/
def keyInput (jkt : Jkt) (jti : String) : List UInt8 :=
  asBytes jkt.asStr ++ [0] ++ asBytes jti

/-- The texts that a call hashes into its proof key and its proof digest. -/
def hashInputs : ProofCall → List (List UInt8)
  | .verify claims token request _ =>
      match claims.keyBinding with
      | none => []
      | some jkt =>
          match verifier.checker.check request.proof token jkt with
          | .error _ => []
          | .ok proof => [keyInput jkt proof.jti, asBytes request.proof]
  | .redeem claims _ proof _ =>
      match claims.keyBinding with
      | none => []
      | some jkt =>
          match verifier.checker.followUpClaims proof with
          | .error _ => []
          | .ok followUp => [keyInput jkt followUp.jti, asBytes proof]

/-- The hash of the proof keys does not collide on the texts of the calls. -/
def CollisionFree (calls : List ProofCall) : Prop :=
  ∀ left ∈ calls.flatMap verifier.hashInputs,
    ∀ right ∈ calls.flatMap verifier.hashInputs,
      first16 (verifier.blake3 left) = first16 (verifier.blake3 right) →
        left = right

instance (calls : List ProofCall) :
    Decidable (verifier.CollisionFree calls) :=
  inferInstanceAs (Decidable (∀ left ∈ calls.flatMap verifier.hashInputs,
    ∀ right ∈ calls.flatMap verifier.hashInputs,
      first16 (verifier.blake3 left) = first16 (verifier.blake3 right) →
        left = right))

end DpopProofVerifier

/-- Both readings of a proof take its `jti` from the same payload member. -/
def DpopProofChecker.ReadsOneJti (checker : DpopProofChecker) : Prop :=
  ∀ proof token jkt claims followUp,
    checker.check proof token jkt = .ok claims →
    checker.followUpClaims proof = .ok followUp →
    claims.jti = followUp.jti

namespace Session

def initial (clock : I64) : Session := ⟨clock, State.default, []⟩

/-- The next call of the run; its clock never runs back. -/
def step (verifier : DpopProofVerifier) (session : Session)
    (call : ProofCall) : Option Session :=
  if call.now < session.clock then
    none
  else
    let (store, answer) := verifier.answer session.store call
    some
      { clock := call.now
        store
        log := session.log ++
          [{ call, before := session.store, after := store, answer }] }

end Session

namespace ProofEvent

def Verifies (event : ProofEvent) : Prop :=
  event.call.isVerify = true ∧ event.answer = .ok ()

def Redeems (event : ProofEvent) : Prop :=
  event.call.isVerify = false ∧ event.answer = .ok ()

/-- The redeeming call has the proof bytes and the key thumbprint of the
verifying one and finds the entry that the verifying one stored. -/
structure FollowsUp (redeeming verifying : ProofEvent) : Prop where
  verifies : verifying.Verifies
  sameProof : redeeming.call.proof = verifying.call.proof
  sameKey : ∃ jkt, redeeming.call.keyBinding = some jkt ∧
    verifying.call.keyBinding = some jkt
  retained : ∃ key entry,
    (verifying.before.purge verifying.call.now).entries.lookup key = none ∧
      verifying.after.entries.lookup key = some entry ∧
      redeeming.call.now ≤ entry.removeAt ∧
      (redeeming.before.purge redeeming.call.now).entries.lookup key =
        some entry

/-- The call adds no entry, changes no entry, and drops only entries whose
removal second is over. -/
structure Spares (event : ProofEvent) : Prop where
  unchanged : ∀ key entry, event.after.entries.lookup key = some entry →
    event.before.entries.lookup key = some entry
  kept : ∀ key entry, event.before.entries.lookup key = some entry →
    event.call.now ≤ entry.removeAt →
    event.after.entries.lookup key = some entry

end ProofEvent

theorem asBytes_injective : Function.Injective asBytes := utf8_injective

namespace DpopProofVerifier

variable {verifier : DpopProofVerifier}

/-- What a `verify` call can do. -/
theorem verify_cases (state : State) (claims : ValidatedClaims)
    (token : String) (request : DpopRequest) (now : I64) :
    (∃ jkt proof entry, claims.keyBinding = some jkt ∧
        verifier.checker.check request.proof token jkt = .ok proof ∧
        entry.key = verifier.proofKey jkt proof.jti ∧
        entry.followUpDigest = verifier.proofDigest request.proof ∧
        (state.purge now).entries.lookup entry.key = none ∧
        verifier.verify state claims token request now =
          (InMemoryReplayStore.insertFresh (state.purge now) entry, .ok ())) ∨
      ∃ refusal,
        verifier.verify state claims token request now =
            (state, .error refusal) ∨
          verifier.verify state claims token request now =
            (state.purge now, .error refusal) := by
  unfold verify
  cases checks : verifier.verifyChecks claims token request now with
  | error refusal => exact .inr ⟨refusal, .inl rfl⟩
  | ok checked =>
      obtain ⟨proof, entry⟩ := checked
      obtain ⟨jkt, bound, accepted, _, key, _, digest⟩ :=
        verifyChecks_spec checks
      rcases verifier.store.record_cases state entry now with
        ⟨admits, recorded⟩ | ⟨outcome, notFresh, refused⟩
      · exact .inl ⟨jkt, proof, entry, bound, accepted, key, digest,
          admits.absent, by simp only [recorded, recordAnswer]⟩
      · simp only [refused]
        cases outcome with
        | fresh => exact absurd rfl notFresh
        | replayed => exact .inr ⟨_, .inr rfl⟩
        | quotaExceeded retryAfterSecs => exact .inr ⟨_, .inr rfl⟩
        | capacityFull entries => exact .inr ⟨_, .inr rfl⟩

/-- What a `redeem` call can do. -/
theorem redeem_cases (state : State) (claims : ValidatedClaims)
    (token proof : String) (now : I64) :
    (∃ jkt followUp entry, claims.keyBinding = some jkt ∧
        verifier.checker.followUpClaims proof = .ok followUp ∧
        (state.purge now).entries.lookup
          (verifier.proofKey jkt followUp.jti) = some entry ∧
        entry.redeemed = false ∧
        entry.followUpDigest = verifier.proofDigest proof ∧
        verifier.redeem state claims token proof now =
          ({ state.purge now with
              entries := (state.purge now).entries.insert
                (verifier.proofKey jkt followUp.jti)
                { entry with redeemed := true } }, .ok ())) ∨
      ∃ refusal,
        verifier.redeem state claims token proof now =
            (state, .error refusal) ∨
          verifier.redeem state claims token proof now =
            (state.purge now, .error refusal) := by
  unfold redeem
  cases checks : verifier.redeemChecks claims token proof with
  | error refusal => exact .inr ⟨refusal, .inl rfl⟩
  | ok checked =>
      obtain ⟨key, digest⟩ := checked
      obtain ⟨jkt, followUp, bound, read, rfl, rfl⟩ :=
        redeemChecks_spec checks
      rcases InMemoryReplayStore.redeemFollowUp_cases state
          (verifier.proofKey jkt followUp.jti)
          (verifier.proofDigest proof) now with
        ⟨entry, found, unspent, _, digest, redeemed⟩ | refused
      · exact .inl ⟨jkt, followUp, entry, bound, read, found, unspent,
          digest, by simp only [redeemed, redeemAnswer]⟩
      · exact .inr ⟨.invalidDpopProof .followUp,
          .inr (by simp only [refused, redeemAnswer])⟩

end DpopProofVerifier

namespace ProofEvent

variable {verifier : DpopProofVerifier} {event : ProofEvent}

/-- The event is a successful `verify` that stored `entry` under `key`. -/
def Stores (verifier : DpopProofVerifier) (event : ProofEvent)
    (key : ProofKey) (entry : Entry) : Prop :=
  ∃ claims token request now jkt proof,
    event.call = .verify claims token request now ∧ event.answer = .ok () ∧
      claims.keyBinding = some jkt ∧
      verifier.checker.check request.proof token jkt = .ok proof ∧
      key = verifier.proofKey jkt proof.jti ∧
      entry.followUpDigest = verifier.proofDigest request.proof ∧
      (event.before.purge now).entries.lookup key = none ∧
      event.after.entries.lookup key = some entry

theorem Stores.key_eq {key other : ProofKey} {entry otherEntry : Entry}
    (left : event.Stores verifier key entry)
    (right : event.Stores verifier other otherEntry) : key = other := by
  obtain ⟨claims, token, request, now, jkt, proof, call, _, bound, checked,
    keyed, _⟩ := left
  obtain ⟨_, _, _, _, otherJkt, otherProof, otherCall, _, otherBound,
    otherChecked, otherKeyed, _⟩ := right
  rw [call] at otherCall
  cases otherCall
  rw [bound] at otherBound
  cases otherBound
  rw [checked] at otherChecked
  cases otherChecked
  rw [keyed, otherKeyed]

/-- A refused call, with the store as it was or purged. -/
theorem spares_of_refusal (indexed : event.before.Indexed)
    (left : event.after = event.before ∨
      event.after = event.before.purge event.call.now) : event.Spares := by
  rcases left with same | purged
  · constructor
    · intro key entry found
      rw [same] at found
      exact found
    · intro key entry found _
      rw [same]
      exact found
  · constructor
    · intro key entry found
      rw [purged, indexed.purge_lookup, Option.filter_eq_some_iff] at found
      exact found.1
    · intro key entry found live
      rw [purged, indexed.purge_lookup, found]
      simp [Option.filter_some, live]

/-- The call of a session that redeems the entry stored by another call has
that call's proof and key. -/
theorem Stores.followsUp {calls : List ProofCall}
    {verifying redeeming : ProofEvent} {claims : ValidatedClaims}
    {token proof : String} {now : I64} {jkt : Jkt}
    {followUp : FollowUpClaims} {entry : Entry}
    (readsOneJti : verifier.checker.ReadsOneJti)
    (collisionFree : verifier.CollisionFree calls)
    (verifyingCall : verifying.call ∈ calls)
    (redeemingCall : redeeming.call ∈ calls)
    (stores : verifying.Stores verifier
      (verifier.proofKey jkt followUp.jti) entry)
    (call : redeeming.call = .redeem claims token proof now)
    (bound : claims.keyBinding = some jkt)
    (read : verifier.checker.followUpClaims proof = .ok followUp)
    (indexed : redeeming.before.Indexed)
    (found : (redeeming.before.purge now).entries.lookup
      (verifier.proofKey jkt followUp.jti) = some entry)
    (digest : entry.followUpDigest = verifier.proofDigest proof) :
    redeeming.FollowsUp verifying := by
  obtain ⟨storedClaims, storedToken, request, storedNow, storedJkt,
    storedProof, storedCall, answered, storedBound, checked, sameKey,
    storedDigest, absent, present⟩ := stores
  have redeemInputs : verifier.hashInputs redeeming.call =
      [DpopProofVerifier.keyInput jkt followUp.jti, asBytes proof] := by
    simp [call, DpopProofVerifier.hashInputs, bound, read]
  have verifyInputs : verifier.hashInputs verifying.call =
      [DpopProofVerifier.keyInput storedJkt storedProof.jti,
        asBytes request.proof] := by
    simp [storedCall, DpopProofVerifier.hashInputs, storedBound, checked]
  have sameInput : ∀ left ∈ verifier.hashInputs redeeming.call,
      ∀ right ∈ verifier.hashInputs verifying.call,
        DpopProofVerifier.first16 (verifier.blake3 left) =
            DpopProofVerifier.first16 (verifier.blake3 right) →
          left = right := by
    intro left inLeft right inRight
    exact collisionFree left (List.mem_flatMap.mpr ⟨_, redeemingCall, inLeft⟩)
      right (List.mem_flatMap.mpr ⟨_, verifyingCall, inRight⟩)
  rw [redeemInputs, verifyInputs] at sameInput
  have sameBytes : asBytes proof = asBytes request.proof := by
    apply sameInput _ (by simp) _ (by simp)
    have digests : verifier.blake3 (asBytes proof) =
        verifier.blake3 (asBytes request.proof) :=
      digest.symm.trans storedDigest
    rw [digests]
  have sameProof : proof = request.proof := asBytes_injective sameBytes
  have sameKeyInput : DpopProofVerifier.keyInput jkt followUp.jti =
      DpopProofVerifier.keyInput storedJkt storedProof.jti := by
    apply sameInput _ (by simp) _ (by simp)
    exact congrArg ProofKey.bytes sameKey
  have sameJti : storedProof.jti = followUp.jti := by
    apply readsOneJti proof storedToken storedJkt storedProof followUp _ read
    rw [sameProof]
    exact checked
  -- With one `jti` behind the separator the two thumbprints end together.
  have sameJkt : jkt = storedJkt := by
    rw [sameJti] at sameKeyInput
    have thumbprints : asBytes jkt.asStr = asBytes storedJkt.asStr := by
      simpa [DpopProofVerifier.keyInput] using sameKeyInput
    cases jkt
    cases storedJkt
    exact congrArg Jkt.mk (asBytes_injective thumbprints)
  refine ⟨⟨?_, answered⟩, ?_, ⟨jkt, ?_, ?_⟩, ?_⟩
  · rw [storedCall]
    rfl
  · rw [call, storedCall]
    exact sameProof
  · rw [call]
    exact bound
  · rw [storedCall, sameJkt]
    exact storedBound
  · refine ⟨verifier.proofKey jkt followUp.jti, entry, ?_, present, ?_, ?_⟩
    · rw [storedCall]
      exact absent
    · rw [call]
      rw [indexed.purge_lookup, Option.filter_eq_some_iff] at found
      simpa [ProofCall.now] using found.2
    · rw [call]
      exact found

end ProofEvent

namespace Session

/-- The event of the next call. -/
def nextEvent (verifier : DpopProofVerifier) (session : Session)
    (call : ProofCall) : ProofEvent where
  call := call
  before := session.store
  after := (verifier.answer session.store call).1
  answer := (verifier.answer session.store call).2

/-- What one call of the run does to the store. -/
inductive Effect (verifier : DpopProofVerifier) (event : ProofEvent) :
    Prop where
  | verified (key : ProofKey) (entry : Entry) (unspent : entry.redeemed = false)
      (stores : event.Stores verifier key entry)
      (others : ∀ other, other ≠ key →
        event.after.entries.lookup other =
          (event.before.purge event.call.now).entries.lookup other)
  | redeemed (claims : ValidatedClaims) (token proof : String) (now : I64)
      (jkt : Jkt) (followUp : FollowUpClaims) (entry : Entry)
      (call : event.call = .redeem claims token proof now)
      (answered : event.answer = .ok ())
      (bound : claims.keyBinding = some jkt)
      (read : verifier.checker.followUpClaims proof = .ok followUp)
      (found : (event.before.purge now).entries.lookup
        (verifier.proofKey jkt followUp.jti) = some entry)
      (unspent : entry.redeemed = false)
      (digest : entry.followUpDigest = verifier.proofDigest proof)
      (lookups : ∀ other, event.after.entries.lookup other =
        if other = verifier.proofKey jkt followUp.jti then
          some { entry with redeemed := true }
        else (event.before.purge now).entries.lookup other)
  | refused (refusal : AuthnError) (answered : event.answer = .error refusal)
      (left : event.after = event.before ∨
        event.after = event.before.purge event.call.now)

theorem effect_nextEvent (verifier : DpopProofVerifier) (session : Session)
    (call : ProofCall) : Effect verifier (session.nextEvent verifier call) := by
  cases call with
  | verify claims token request now =>
      rcases verifier.verify_cases session.store claims token request now with
        ⟨jkt, proof, entry, bound, checked, keyed, digest, absent, answered⟩ |
        ⟨refusal, answered | answered⟩
      · have after : ∀ other,
            (session.nextEvent verifier
              (.verify claims token request now)).after.entries.lookup other =
            (InMemoryReplayStore.insertFresh (session.store.purge now)
              entry).entries.lookup other := by
          intro other
          simp only [nextEvent, DpopProofVerifier.answer, answered]
        apply Effect.verified entry.key
          { subject := entry.subject
            jkt := entry.jkt
            removeAt := max entry.expiresAt entry.followUpDeadline
            followUpDeadline := entry.followUpDeadline
            followUpDigest := entry.followUpDigest
            redeemed := false } rfl
        · refine ⟨claims, token, request, now, jkt, proof, rfl, ?_, bound,
            checked, keyed, digest, absent, ?_⟩
          · simp only [nextEvent, DpopProofVerifier.answer, answered]
          · rw [after, InMemoryReplayStore.insertFresh_lookup, if_pos rfl]
        · intro other different
          rw [after, InMemoryReplayStore.insertFresh_lookup,
            if_neg different]
          rfl
      · apply Effect.refused refusal
        · simp only [nextEvent, DpopProofVerifier.answer, answered]
        · exact .inl (by simp only [nextEvent, DpopProofVerifier.answer,
            answered])
      · apply Effect.refused refusal
        · simp only [nextEvent, DpopProofVerifier.answer, answered]
        · exact .inr (by simp only [nextEvent, DpopProofVerifier.answer,
            answered, ProofCall.now])
  | redeem claims token proof now =>
      rcases verifier.redeem_cases session.store claims token proof now with
        ⟨jkt, followUp, entry, bound, read, found, unspent, digest, answered⟩ |
        ⟨refusal, answered | answered⟩
      · apply Effect.redeemed claims token proof now jkt followUp entry rfl
          (by simp only [nextEvent, DpopProofVerifier.answer, answered])
          bound read found unspent digest
        intro other
        simp only [nextEvent, DpopProofVerifier.answer, answered]
        by_cases same : other = verifier.proofKey jkt followUp.jti
        · subst same
          simp
        · simp [same, AList.lookup_insert_ne same]
      · apply Effect.refused refusal
        · simp only [nextEvent, DpopProofVerifier.answer, answered]
        · exact .inl (by simp only [nextEvent, DpopProofVerifier.answer,
            answered])
      · apply Effect.refused refusal
        · simp only [nextEvent, DpopProofVerifier.answer, answered]
        · exact .inr (by simp only [nextEvent, DpopProofVerifier.answer,
            answered, ProofCall.now])

theorem Effect.spares {verifier : DpopProofVerifier} {event : ProofEvent}
    (effect : Effect verifier event) (indexed : event.before.Indexed)
    (failed : event.answer ≠ .ok ()) : event.Spares := by
  cases effect with
  | verified key entry unspent stores others =>
      obtain ⟨_, _, _, _, _, _, _, answered, _⟩ := stores
      exact absurd answered failed
  | redeemed claims token proof now jkt followUp entry call answered =>
      exact absurd answered failed
  | refused refusal answered left =>
      exact ProofEvent.spares_of_refusal indexed left

theorem answer_indexed {verifier : DpopProofVerifier} {state : State}
    (indexed : state.Indexed) (call : ProofCall) :
    (verifier.answer state call).1.Indexed := by
  cases call with
  | verify claims token request now =>
      simp only [DpopProofVerifier.answer, DpopProofVerifier.verify]
      split
      · exact indexed
      · exact InMemoryReplayStore.record_indexed indexed _ now
  | redeem claims token proof now =>
      simp only [DpopProofVerifier.answer, DpopProofVerifier.redeem]
      split
      · exact indexed
      · exact InMemoryReplayStore.redeemFollowUp_indexed indexed _ _ now

theorem step_spec {verifier : DpopProofVerifier} {session next : Session}
    {call : ProofCall} (stepped : session.step verifier call = some next) :
    session.clock ≤ call.now ∧ next.clock = call.now ∧
      next.store = (session.nextEvent verifier call).after ∧
      next.log = session.log ++ [session.nextEvent verifier call] := by
  unfold step at stepped
  split at stepped
  · cases stepped
  · rename_i forward
    cases stepped
    exact ⟨not_lt.mp forward, rfl, rfl, rfl⟩

/-- The redeeming events of a log are assigned, each to a different one, to
the earlier verifying events whose entries they spent. -/
structure Assigned (origin : Nat → Nat) (log : List ProofEvent) : Prop where
  follows : ∀ index event, log[index]? = some event → event.Redeems →
    origin index < index ∧
      ∃ verifying, log[origin index]? = some verifying ∧
        event.FollowsUp verifying
  once : ∀ left right leftEvent rightEvent,
    log[left]? = some leftEvent → leftEvent.Redeems →
    log[right]? = some rightEvent → rightEvent.Redeems →
    origin left = origin right → left = right

/-- No redeeming event of the log is assigned to the position. -/
def Unspent (origin : Nat → Nat) (log : List ProofEvent) (index : Nat) :
    Prop :=
  ∀ later event, log[later]? = some event → event.Redeems →
    origin later ≠ index

variable {origin : Nat → Nat} {log : List ProofEvent} {event : ProofEvent}

theorem Assigned.quiet (assigned : Assigned origin log)
    (quiet : ¬ event.Redeems) : Assigned origin (log ++ [event]) where
  follows := by
    intro index other found redeems
    rcases at_append.mp found with old | ⟨_, rfl⟩
    · obtain ⟨earlier, verifying, verifyingAt, followsUp⟩ :=
        assigned.follows index other old redeems
      exact ⟨earlier, verifying, at_append_of_at verifyingAt, followsUp⟩
    · exact absurd redeems quiet
  once := by
    intro left right leftEvent rightEvent leftAt leftRedeems rightAt
      rightRedeems
    rcases at_append.mp leftAt with leftOld | ⟨_, rfl⟩
    · rcases at_append.mp rightAt with rightOld | ⟨_, rfl⟩
      · exact assigned.once left right leftEvent rightEvent leftOld
          leftRedeems rightOld rightRedeems
      · exact absurd rightRedeems quiet
    · exact absurd leftRedeems quiet

theorem Unspent.quiet {index : Nat} (unspent : Unspent origin log index)
    (quiet : ¬ event.Redeems) : Unspent origin (log ++ [event]) index := by
  intro later other found redeems
  rcases at_append.mp found with old | ⟨_, rfl⟩
  · exact unspent later other old redeems
  · exact absurd redeems quiet

theorem unspent_last (assigned : Assigned origin log)
    (quiet : ¬ event.Redeems) :
    Unspent origin (log ++ [event]) log.length := by
  intro later other found redeems same
  rcases at_append.mp found with old | ⟨_, rfl⟩
  · have earlier := (assigned.follows later other old redeems).1
    have inLog := at_lt old
    omega
  · exact quiet redeems

/-- The positions of the log keep their origin when the next one gets its. -/
theorem update_origin {position index : Nat} {other : ProofEvent}
    (found : log[position]? = some other) :
    Function.update origin log.length index position = origin position := by
  have inLog := at_lt found
  exact Function.update_of_ne (by omega) _ _

theorem Assigned.spend {index : Nat} {verifying : ProofEvent}
    (assigned : Assigned origin log)
    (verifyingAt : log[index]? = some verifying)
    (followsUp : event.FollowsUp verifying)
    (unspent : Unspent origin log index) :
    Assigned (Function.update origin log.length index) (log ++ [event]) where
  follows := by
    intro position other found redeems
    rcases at_append.mp found with old | ⟨isLast, rfl⟩
    · rw [update_origin old]
      obtain ⟨earlier, otherVerifying, otherAt, otherFollows⟩ :=
        assigned.follows position other old redeems
      exact ⟨earlier, otherVerifying, at_append_of_at otherAt, otherFollows⟩
    · subst isLast
      rw [Function.update_self]
      exact ⟨at_lt verifyingAt, verifying, at_append_of_at verifyingAt,
        followsUp⟩
  once := by
    intro left right leftEvent rightEvent leftAt leftRedeems rightAt
      rightRedeems same
    rcases at_append.mp leftAt with leftOld | ⟨leftLast, rfl⟩
    · rw [update_origin leftOld] at same
      rcases at_append.mp rightAt with rightOld | ⟨rightLast, rfl⟩
      · rw [update_origin rightOld] at same
        exact assigned.once left right leftEvent rightEvent leftOld
          leftRedeems rightOld rightRedeems same
      · rw [rightLast, Function.update_self] at same
        exact absurd same (unspent left leftEvent leftOld leftRedeems)
    · rcases at_append.mp rightAt with rightOld | ⟨rightLast, rfl⟩
      · rw [update_origin rightOld, leftLast, Function.update_self] at same
        exact absurd same.symm
          (unspent right rightEvent rightOld rightRedeems)
      · rw [leftLast, rightLast]

theorem Unspent.spend {index other : Nat}
    (unspent : Unspent origin log other) (different : index ≠ other) :
    Unspent (Function.update origin log.length index) (log ++ [event])
      other := by
  intro later laterEvent found redeems
  rcases at_append.mp found with old | ⟨isLast, rfl⟩
  · rw [update_origin old]
    exact unspent later laterEvent old redeems
  · rw [isLast, Function.update_self]
    exact different

/-- Every stored entry knows the event that stored it, and an entry whose
follow-up is open has not been spent by a redeeming event. -/
structure Linked (verifier : DpopProofVerifier) (calls : List ProofCall)
    (origin : Nat → Nat) (session : Session) : Prop where
  indexed : session.store.Indexed
  calls : ∀ event ∈ session.log, event.call ∈ calls
  assigned : Assigned origin session.log
  recorded : ∀ key entry, session.store.entries.lookup key = some entry →
    ∃ index verifying, session.log[index]? = some verifying ∧
      verifying.Stores verifier key { entry with redeemed := false } ∧
      (entry.redeemed = false → Unspent origin session.log index)
  failures : ∀ event ∈ session.log, event.answer ≠ .ok () → event.Spares

theorem linked_initial (verifier : DpopProofVerifier)
    (calls : List ProofCall) (clock : I64) :
    Linked verifier calls id (initial clock) where
  indexed := State.indexed_default
  calls := by simp [initial]
  assigned :=
    { follows := by simp [initial]
      once := by simp [initial] }
  recorded := by simp [initial, State.default]
  failures := by simp [initial]

section Step

variable {verifier : DpopProofVerifier} {calls : List ProofCall}
  {session : Session}

theorem Linked.before_purge (linked : Linked verifier calls origin session)
    {now : I64} {key : ProofKey} {entry : Entry}
    (found : (session.store.purge now).entries.lookup key = some entry) :
    session.store.entries.lookup key = some entry := by
  rw [linked.indexed.purge_lookup, Option.filter_eq_some_iff] at found
  exact found.1

/-- An entry that a quiet event keeps is still linked to its own event. -/
theorem Linked.recorded_quiet (linked : Linked verifier calls origin session)
    (quiet : ¬ event.Redeems) {key : ProofKey} {entry : Entry}
    (found : session.store.entries.lookup key = some entry) :
    ∃ index verifying, (session.log ++ [event])[index]? = some verifying ∧
      verifying.Stores verifier key { entry with redeemed := false } ∧
      (entry.redeemed = false →
        Unspent origin (session.log ++ [event]) index) := by
  obtain ⟨index, verifying, verifyingAt, stores, unspent⟩ :=
    linked.recorded key entry found
  exact ⟨index, verifying, at_append_of_at verifyingAt, stores,
    fun isOpen => (unspent isOpen).quiet quiet⟩

theorem Linked.assigned_recorded
    (readsOneJti : verifier.checker.ReadsOneJti)
    (collisionFree : verifier.CollisionFree calls)
    (linked : Linked verifier calls origin session)
    (effect : Effect verifier event) (before : event.before = session.store)
    (inCalls : event.call ∈ calls) :
    ∃ updated, Assigned updated (session.log ++ [event]) ∧
      ∀ key entry, event.after.entries.lookup key = some entry →
        ∃ index verifying,
          (session.log ++ [event])[index]? = some verifying ∧
            verifying.Stores verifier key { entry with redeemed := false } ∧
            (entry.redeemed = false →
              Unspent updated (session.log ++ [event]) index) := by
  cases effect with
  | verified key entry unspent stores others =>
      have quiet : ¬ event.Redeems := by
        obtain ⟨claims, token, request, now, _, _, call, _⟩ := stores
        simp [ProofEvent.Redeems, call, ProofCall.isVerify]
      refine ⟨origin, linked.assigned.quiet quiet, ?_⟩
      intro other otherEntry found
      by_cases same : other = key
      · subst same
        have present : event.after.entries.lookup other = some entry := by
          obtain ⟨_, _, _, _, _, _, _, _, _, _, _, _, _, present⟩ := stores
          exact present
        rw [present] at found
        cases found
        have opened : { entry with redeemed := false } = entry := by
          cases entry
          cases unspent
          rfl
        refine ⟨session.log.length, event, at_last _ _, ?_,
          fun _ => unspent_last linked.assigned quiet⟩
        rw [opened]
        exact stores
      · rw [others other same, before] at found
        exact linked.recorded_quiet quiet (linked.before_purge found)
  | redeemed claims token proof now jkt followUp entry call answered bound
      read found isOpen digest lookups =>
      rw [before] at found
      obtain ⟨index, verifying, verifyingAt, stores, unspent⟩ :=
        linked.recorded _ entry (linked.before_purge found)
      have opened : { entry with redeemed := false } = entry := by
        cases entry
        cases isOpen
        rfl
      have followsUp : event.FollowsUp verifying := by
        rw [opened] at stores
        apply stores.followsUp readsOneJti collisionFree
          (linked.calls verifying (List.mem_of_getElem? verifyingAt)) inCalls
          call bound read
        · rw [before]
          exact linked.indexed
        · rw [before]
          exact found
        · exact digest
      refine ⟨Function.update origin session.log.length index,
        linked.assigned.spend verifyingAt followsUp (unspent isOpen), ?_⟩
      intro other otherEntry otherFound
      rw [lookups] at otherFound
      split at otherFound
      · rename_i same
        cases otherFound
        refine ⟨index, verifying, at_append_of_at verifyingAt, ?_, ?_⟩
        · rw [same]
          exact stores
        · intro isSpent
          cases isSpent
      · rename_i different
        rw [before] at otherFound
        obtain ⟨otherIndex, otherVerifying, otherAt, otherStores,
          otherUnspent⟩ :=
          linked.recorded other otherEntry (linked.before_purge otherFound)
        refine ⟨otherIndex, otherVerifying, at_append_of_at otherAt,
          otherStores, fun otherOpen => ?_⟩
        apply (otherUnspent otherOpen).spend
        -- One event stores under one key only.
        rintro rfl
        rw [verifyingAt] at otherAt
        cases otherAt
        exact different (otherStores.key_eq stores)
  | refused refusal answered left =>
      have quiet : ¬ event.Redeems := by
        simp [ProofEvent.Redeems, answered]
      refine ⟨origin, linked.assigned.quiet quiet, ?_⟩
      intro key entry found
      apply linked.recorded_quiet quiet
      rcases left with same | purged
      · rw [same, before] at found
        exact found
      · rw [purged, before] at found
        exact linked.before_purge found

theorem Linked.step {next : Session} {call : ProofCall}
    (readsOneJti : verifier.checker.ReadsOneJti)
    (collisionFree : verifier.CollisionFree calls)
    (linked : Linked verifier calls origin session) (inCalls : call ∈ calls)
    (stepped : session.step verifier call = some next) :
    ∃ updated, Linked verifier calls updated next := by
  obtain ⟨_, _, nextStore, nextLog⟩ := step_spec stepped
  have effect := effect_nextEvent verifier session call
  obtain ⟨updated, assigned, recorded⟩ :=
    linked.assigned_recorded readsOneJti collisionFree effect rfl inCalls
  refine ⟨updated, ?_, ?_, ?_, ?_, ?_⟩
  · rw [nextStore]
    exact answer_indexed linked.indexed call
  · intro event member
    rw [nextLog] at member
    rcases List.mem_append.mp member with old | isNew
    · exact linked.calls event old
    · rw [List.mem_singleton.mp isNew]
      exact inCalls
  · rw [nextLog]
    exact assigned
  · rw [nextStore, nextLog]
    exact recorded
  · intro event member failed
    rw [nextLog] at member
    rcases List.mem_append.mp member with old | isNew
    · exact linked.failures event old failed
    · rw [List.mem_singleton.mp isNew] at failed ⊢
      exact effect.spares linked.indexed failed

end Step

/-- In a sequential run the successful redeems are assigned, each to a
different one, to earlier successful verifies of the same proof and key whose
entries they still find, and a call that fails spares every live entry. -/
theorem redeems_follow_verifies (verifier : DpopProofVerifier)
    (readsOneJti : verifier.checker.ReadsOneJti) (clock : I64)
    (calls : List ProofCall)
    (collisionFree : verifier.CollisionFree calls) (final : Session)
    (run : runFrom (Session.step verifier) (initial clock) calls =
      some final) :
    (∃ origin, Assigned origin final.log) ∧
      ∀ event ∈ final.log, event.answer ≠ .ok () → event.Spares := by
  have linked : ∃ origin, Linked verifier calls origin final := by
    apply @runFrom_invariant_of_everyStep Session ProofCall
      (Session.step verifier) (fun _ call => call ∈ calls)
      (fun session => ∃ origin, Linked verifier calls origin session) _ _ _ _
      _ (everyStep_of_mem (fun call member _ => member) _) run
    · intro session call next linked inCalls stepped
      obtain ⟨origin, linked⟩ := linked
      exact linked.step readsOneJti collisionFree inCalls stepped
    · exact ⟨id, linked_initial verifier calls clock⟩
  obtain ⟨origin, linked⟩ := linked
  exact ⟨⟨origin, linked.assigned⟩, linked.failures⟩

section ChatFollowUp

theorem chatChecker_readsOneJti :
    World.chatVerifier.checker.ReadsOneJti := by
  intro proof token jkt claims followUp checked read
  by_cases isChat : proof = "p"
  · subst isChat
    cases checked
    cases read
    rfl
  · simp [World.chatVerifier, isChat] at checked

/-- A verified proof, its follow-up, and a second follow-up that is refused. -/
def chatCalls : List ProofCall :=
  [.verify World.chatClaims "token" World.chatRequest 100,
    .redeem World.chatClaims "token" "p" 110,
    .redeem World.chatClaims "token" "p" 111]

theorem chatCalls_follow_up :
    ∃ final,
      runFrom (Session.step World.chatVerifier) (initial 100) chatCalls =
        some final ∧
      final.log.map (fun event => decide (event.answer = .ok ())) =
        [true, true, false] ∧
      (∃ origin, Assigned origin final.log) ∧
      ∀ event ∈ final.log, event.answer ≠ .ok () → event.Spares := by
  have answers :
      (runFrom (Session.step World.chatVerifier) (initial 100)
        chatCalls).map
        (fun final => final.log.map
          (fun event => decide (event.answer = .ok ()))) =
      some [true, true, false] := by
    decide
  obtain ⟨final, run, answered⟩ := Option.map_eq_some_iff.mp answers
  have collisionFree : World.chatVerifier.CollisionFree chatCalls := by
    decide
  exact ⟨final, run, answered,
    redeems_follow_verifies World.chatVerifier chatChecker_readsOneJti 100
      chatCalls collisionFree final run⟩

end ChatFollowUp

end Session

end Paigasus.Dpop
