import Paigasus.Dpop.Verifier
import Paigasus.Foundation.Transition

/-!
# One-time use of a proof under concurrent calls

Any number of `verify` and `redeem` calls interleave at two points each: the
clock read with the pure checks, and the store operation under its lock with
the clock value read earlier.  The world keeps, beside the store, the history
that one-time use is about: the accepted proofs and the clock values the store
has been used at.
-/

namespace Paigasus.Dpop

open Foundation Core

/-- A call between its clock read and its store operation. -/
inductive Pending where
  | verify (proof : ProofClaims) (entry : NewProof) (now : I64)
  | redeem (key : ProofKey) (digest : Vector UInt8 32) (now : I64)

/-- A proof that was accepted as fresh, with the removal second of its entry and
the number of store operations up to its own. -/
structure Acceptance where
  key : ProofKey
  proof : ProofClaims
  removeAt : I64
  operations : Nat
deriving DecidableEq

structure World where
  clock : I64
  store : State
  pending : Nat → Option Pending
  accepted : List Acceptance
  storeClocks : List I64

inductive Action where
  | verifyBegin (call : Nat) (claims : ValidatedClaims) (token : String)
      (request : DpopRequest) (clock : I64)
  | verifyRecord (call : Nat)
  | redeemBegin (call : Nat) (claims : ValidatedClaims) (token proof : String)
      (clock : I64)
  | redeemFinish (call : Nat)

namespace World

def initial (clock : I64) : World :=
  { clock
    store := State.default
    pending := fun _ => none
    accepted := []
    storeClocks := [] }

/-- The first step of a call: it reads a clock that never runs back, and waits
for the store when its checks pass. -/
def begin (world : World) (call : Nat) (clock : I64)
    (checked : Except AuthnError Pending) : Option World :=
  if clock < world.clock ∨ (world.pending call).isSome then
    none
  else
    match checked with
    | .error _ => some { world with clock }
    | .ok pending =>
        some { world with
          clock
          pending := Function.update world.pending call (some pending) }

def finish (world : World) (call : Nat) (now : I64) (store : State)
    (accepted : List Acceptance) : World :=
  { world with
    store
    accepted
    pending := Function.update world.pending call none
    storeClocks := now :: world.storeClocks }

def step (verifier : DpopProofVerifier) (world : World) :
    Action → Option World
  | .verifyBegin call claims token request clock =>
      world.begin call clock
        ((verifier.verifyChecks claims token request clock).map
          fun checked => .verify checked.1 checked.2 clock)
  | .verifyRecord call =>
      match world.pending call with
      | some (.verify proof entry now) =>
          let (store, outcome) := verifier.store.record world.store entry now
          some (world.finish call now store <|
            if outcome = .fresh then
              { key := entry.key
                proof
                removeAt := max entry.expiresAt entry.followUpDeadline
                operations := world.storeClocks.length + 1 } ::
                  world.accepted
            else
              world.accepted)
      | _ => none
  | .redeemBegin call claims token proof clock =>
      world.begin call clock
        ((verifier.redeemChecks claims token proof).map
          fun checked => .redeem checked.1 checked.2 clock)
  | .redeemFinish call =>
      match world.pending call with
      | some (.redeem key digest now) =>
          some (world.finish call now
            (InMemoryReplayStore.redeemFollowUp world.store key digest now).1
            world.accepted)
      | _ => none

/-- The clock values that the store has been used at since an acceptance. -/
def usedSince (world : World) (acceptance : Acceptance) : List I64 :=
  world.storeClocks.take (world.storeClocks.length - acceptance.operations)

/-- A record is timely unless its proof key was accepted before and a store
operation may have purged the entry since: the clock values used after that
acceptance stay within its removal second, and so does the call's own value
when it carries another `iat` under the same key. -/
def TimelyRecord (world : World) : Pending → Prop
  | .verify proof entry now =>
      ∀ acceptance ∈ world.accepted, acceptance.key = entry.key →
        (∀ used ∈ world.usedSince acceptance, used ≤ acceptance.removeAt) ∧
          (acceptance.proof.iat = proof.iat ∨ now ≤ acceptance.removeAt)
  | .redeem _ _ _ => True

def Timely (world : World) : Action → Prop
  | .verifyRecord call =>
      ∀ waiting ∈ world.pending call, world.TimelyRecord waiting
  | _ => True

instance (world : World) : ∀ pending, Decidable (world.TimelyRecord pending)
  | .verify proof entry now =>
      inferInstanceAs (Decidable (∀ acceptance ∈ world.accepted,
        acceptance.key = entry.key →
          (∀ used ∈ world.usedSince acceptance, used ≤ acceptance.removeAt) ∧
            (acceptance.proof.iat = proof.iat ∨ now ≤ acceptance.removeAt)))
  | .redeem _ _ _ => inferInstanceAs (Decidable True)

instance (world : World) : ∀ action, Decidable (world.Timely action)
  | .verifyRecord call =>
      inferInstanceAs (Decidable
        (∀ waiting ∈ world.pending call, world.TimelyRecord waiting))
  | .verifyBegin _ _ _ _ _ => inferInstanceAs (Decidable True)
  | .redeemBegin _ _ _ _ _ => inferInstanceAs (Decidable True)
  | .redeemFinish _ => inferInstanceAs (Decidable True)

/-- Each accepted proof is still stored unless the store has since been used
after its removal second. -/
structure Retains (verifier : DpopProofVerifier) (world : World) : Prop where
  indexed : world.store.Indexed
  pendingLive : ∀ call proof entry now,
    world.pending call = some (.verify proof entry now) →
    entry.expiresAt = proof.iat.saturatingAdd verifier.iatWindowSecs ∧
      now ≤ entry.expiresAt
  windowKept : ∀ acceptance ∈ world.accepted,
    acceptance.proof.iat.saturatingAdd verifier.iatWindowSecs ≤
      acceptance.removeAt
  counted : ∀ acceptance ∈ world.accepted,
    acceptance.operations ≤ world.storeClocks.length
  stored : ∀ acceptance ∈ world.accepted,
    (∀ used ∈ world.usedSince acceptance, used ≤ acceptance.removeAt) →
    ∃ entry, world.store.entries.lookup acceptance.key = some entry ∧
      entry.removeAt = acceptance.removeAt
  onceEach : (world.accepted.map Acceptance.key).Nodup

theorem retains_initial (verifier : DpopProofVerifier) (clock : I64) :
    (initial clock).Retains verifier where
  indexed := State.indexed_default
  pendingLive := by simp [initial]
  windowKept := by simp [initial]
  counted := by simp [initial]
  stored := by simp [initial]
  onceEach := by simp [initial]

variable {verifier : DpopProofVerifier} {world next : World}

theorem begin_spec {call : Nat} {clock : I64}
    {checked : Except AuthnError Pending}
    (started : world.begin call clock checked = some next) :
    next.store = world.store ∧ next.accepted = world.accepted ∧
      next.storeClocks = world.storeClocks ∧
      ∀ other pending, next.pending other = some pending →
        world.pending other = some pending ∨ checked = .ok pending := by
  unfold begin at started
  split at started
  · cases started
  · split at started
    · cases started
      exact ⟨rfl, rfl, rfl, fun _ _ waiting => .inl waiting⟩
    · cases started
      refine ⟨rfl, rfl, rfl, ?_⟩
      intro other pending waiting
      by_cases same : other = call
      · subst same
        simp only [Function.update_self, Option.some.injEq] at waiting
        exact .inr (by rw [waiting])
      · simp only [Function.update_of_ne same] at waiting
        exact .inl waiting

theorem Retains.begin {call : Nat} {clock : I64}
    {checked : Except AuthnError Pending}
    (retains : world.Retains verifier)
    (live : ∀ proof entry now, checked = .ok (.verify proof entry now) →
      entry.expiresAt = proof.iat.saturatingAdd verifier.iatWindowSecs ∧
        now ≤ entry.expiresAt)
    (started : world.begin call clock checked = some next) :
    next.Retains verifier := by
  obtain ⟨sameStore, sameAccepted, sameClocks, waiting⟩ := begin_spec started
  constructor
  · rw [sameStore]
    exact retains.indexed
  · intro other proof entry now pending
    rcases waiting other _ pending with before | added
    · exact retains.pendingLive other proof entry now before
    · exact live proof entry now added
  · rw [sameAccepted]
    exact retains.windowKept
  · rw [sameAccepted, sameClocks]
    exact retains.counted
  · unfold usedSince
    rw [sameAccepted, sameClocks, sameStore]
    exact retains.stored
  · rw [sameAccepted]
    exact retains.onceEach

theorem finish_pending {call : Nat} {now : I64} {store : State}
    {accepted : List Acceptance} {other : Nat} {pending : Pending}
    (waiting : (world.finish call now store accepted).pending other =
      some pending) :
    world.pending other = some pending := by
  by_cases same : other = call
  · subst same
    simp [finish] at waiting
  · simpa [finish, Function.update_of_ne same] using waiting

/-- A store operation is one more since each acceptance before it. -/
theorem usedSince_finish {acceptance : Acceptance}
    (counted : acceptance.operations ≤ world.storeClocks.length) (call : Nat)
    (now : I64) (store : State) (accepted : List Acceptance) :
    (world.finish call now store accepted).usedSince acceptance =
      now :: world.usedSince acceptance := by
  have later : world.storeClocks.length + 1 - acceptance.operations =
      world.storeClocks.length - acceptance.operations + 1 := by omega
  unfold usedSince
  simp only [finish, List.length_cons, later, List.take_succ_cons]

/-- An entry that a purge at `now` may not touch is found in the purged
store. -/
theorem Retains.purged (retains : world.Retains verifier)
    {acceptance : Acceptance} (member : acceptance ∈ world.accepted)
    {now : I64}
    (unused : ∀ used ∈ now :: world.usedSince acceptance,
      used ≤ acceptance.removeAt) :
    ∃ entry, (world.store.purge now).entries.lookup acceptance.key =
        some entry ∧ entry.removeAt = acceptance.removeAt := by
  obtain ⟨entry, found, sameRemoval⟩ := retains.stored acceptance member
    (fun used usedMember => unused used (by simp [usedMember]))
  refine ⟨entry, ?_, sameRemoval⟩
  have live : now ≤ entry.removeAt := by
    rw [sameRemoval]
    exact unused now (by simp)
  rw [retains.indexed.purge_lookup, found]
  simp [Option.filter_some, live]

theorem Retains.verifyRecord {call : Nat} (retains : world.Retains verifier)
    (timely : world.Timely (.verifyRecord call))
    (stepped : world.step verifier (.verifyRecord call) = some next) :
    next.Retains verifier := by
  unfold step at stepped
  dsimp only at stepped
  split at stepped
  · rename_i proof entry now waiting
    obtain ⟨expiry, live⟩ := retains.pendingLive call proof entry now waiting
    have indexed : (verifier.store.record world.store entry now).1.Indexed :=
      InMemoryReplayStore.record_indexed retains.indexed entry now
    rcases verifier.store.record_cases world.store entry now with
      ⟨⟨absent, _, _, _⟩, recorded⟩ | ⟨outcome, notFresh, refused⟩
    · -- A fresh record is the first one of its key: an earlier acceptance
      -- would still be stored, because the step is timely.
      have newKey : ∀ acceptance ∈ world.accepted,
          acceptance.key ≠ entry.key := by
        intro acceptance member sameKey
        obtain ⟨unused, own⟩ := timely _ waiting acceptance member sameKey
        have ownLive : now ≤ acceptance.removeAt := by
          rcases own with sameIat | ownLive
          · have window := retains.windowKept acceptance member
            rw [sameIat, ← expiry] at window
            exact live.trans window
          · exact ownLive
        have allUnused : ∀ used ∈ now :: world.usedSince acceptance,
            used ≤ acceptance.removeAt := by
          intro used usedMember
          rcases List.mem_cons.mp usedMember with rfl | earlier
          · exact ownLive
          · exact unused used earlier
        obtain ⟨stored, found, _⟩ := retains.purged member allUnused
        rw [sameKey, absent] at found
        cases found
      rw [recorded] at stepped indexed
      simp only [if_true, Option.some.injEq] at stepped
      subst stepped
      constructor
      · exact indexed
      · intro other otherProof otherEntry otherNow otherWaiting
        exact retains.pendingLive other otherProof otherEntry otherNow
          (finish_pending otherWaiting)
      · intro acceptance member
        rcases List.mem_cons.mp member with rfl | earlier
        · change proof.iat.saturatingAdd verifier.iatWindowSecs ≤ _
          rw [← expiry]
          exact le_max_left _ _
        · exact retains.windowKept acceptance earlier
      · intro acceptance member
        rcases List.mem_cons.mp member with rfl | earlier
        · exact le_rfl
        · exact (retains.counted acceptance earlier).trans (Nat.le_succ _)
      · intro acceptance member unused
        rcases List.mem_cons.mp member with rfl | earlier
        · exact ⟨_, by
            simp only [finish]
            rw [InMemoryReplayStore.insertFresh_lookup, if_pos rfl], rfl⟩
        · rw [usedSince_finish (retains.counted acceptance earlier)] at unused
          obtain ⟨stored, found, sameRemoval⟩ := retains.purged earlier unused
          refine ⟨stored, ?_, sameRemoval⟩
          simp only [finish]
          rw [InMemoryReplayStore.insertFresh_lookup,
            if_neg (newKey acceptance earlier), found]
      · simp only [finish, List.map_cons, List.nodup_cons]
        refine ⟨?_, retains.onceEach⟩
        intro repeated
        obtain ⟨acceptance, member, sameKey⟩ := List.mem_map.mp repeated
        exact newKey acceptance member sameKey
    · rw [refused] at stepped indexed
      simp only [notFresh, if_false, Option.some.injEq] at stepped
      subst stepped
      constructor
      · exact indexed
      · intro other otherProof otherEntry otherNow otherWaiting
        exact retains.pendingLive other otherProof otherEntry otherNow
          (finish_pending otherWaiting)
      · exact retains.windowKept
      · intro acceptance member
        exact (retains.counted acceptance member).trans (Nat.le_succ _)
      · intro acceptance member unused
        rw [usedSince_finish (retains.counted acceptance member)] at unused
        exact retains.purged member unused
      · exact retains.onceEach
  · cases stepped

theorem Retains.redeemFinish {call : Nat} (retains : world.Retains verifier)
    (stepped : world.step verifier (.redeemFinish call) = some next) :
    next.Retains verifier := by
  unfold step at stepped
  dsimp only at stepped
  split at stepped
  · rename_i key digest now waiting
    cases stepped
    constructor
    · exact InMemoryReplayStore.redeemFollowUp_indexed retains.indexed key
        digest now
    · intro other proof entry otherNow otherWaiting
      exact retains.pendingLive other proof entry otherNow
        (finish_pending otherWaiting)
    · exact retains.windowKept
    · intro acceptance member
      exact (retains.counted acceptance member).trans (Nat.le_succ _)
    · intro acceptance member unused
      rw [usedSince_finish (retains.counted acceptance member)] at unused
      obtain ⟨entry, found, sameRemoval⟩ := retains.purged member unused
      have removals := InMemoryReplayStore.redeemFollowUp_lookup_removeAt
        world.store key acceptance.key digest now
      rw [found, Option.map_some, Option.map_eq_some_iff] at removals
      obtain ⟨stored, storedFound, same⟩ := removals
      exact ⟨stored, storedFound, same.trans sameRemoval⟩
    · exact retains.onceEach
  · cases stepped

theorem Retains.step {action : Action} (retains : world.Retains verifier)
    (timely : world.Timely action)
    (stepped : world.step verifier action = some next) :
    next.Retains verifier := by
  cases action with
  | verifyBegin call claims token request clock =>
      refine retains.begin ?_ stepped
      intro proof entry now checked
      cases checks : verifier.verifyChecks claims token request clock with
      | error refusal =>
          rw [checks] at checked
          cases checked
      | ok passed =>
          rw [checks] at checked
          cases checked
          obtain ⟨_, _, _, inWindow, _⟩ :=
            DpopProofVerifier.verifyChecks_spec checks
          exact DpopProofVerifier.iatWindowEnd_spec inWindow
  | verifyRecord call => exact retains.verifyRecord timely stepped
  | redeemBegin call claims token proof clock =>
      refine retains.begin ?_ stepped
      intro otherProof entry now checked
      cases checks : verifier.redeemChecks claims token proof with
      | error refusal =>
          rw [checks] at checked
          cases checked
      | ok passed =>
          rw [checks] at checked
          cases checked
  | redeemFinish call => exact retains.redeemFinish stepped

/-- In a run whose records are all timely no proof key is accepted as fresh
twice. -/
theorem accepted_once_of_timely {clock : I64} {actions : List Action}
    {final : World}
    (timely : EveryStep (World.step verifier) Timely (initial clock) actions)
    (run : runFrom (World.step verifier) (initial clock) actions =
      some final) :
    (final.accepted.map Acceptance.key).Nodup := by
  have retains : final.Retains verifier :=
    runFrom_invariant_of_everyStep
      (fun _ _ _ retains timely stepped => retains.step timely stepped)
      (retains_initial verifier clock) timely run
  exact retains.onceEach

section SlowRecord

def gatewayBase : ForwardedBase :=
  { scheme := "https"
    host := "gw.example.test"
    port := none
    pathPrefix := "" }

def chatUrl : Url :=
  { scheme := "https"
    host := some "gw.example.test"
    port := none
    path := "/v1/chat/completions" }

def chatProof : ProofClaims :=
  { jti := "j"
    iat := 40
    htm := "POST"
    htu := "https://gw.example.test/v1/chat/completions" }

def chatClaims : ValidatedClaims :=
  { issuer := "https://idp.example.test"
    subject := "alice"
    keyBinding := some ⟨"k"⟩ }

def chatRequest : DpopRequest :=
  { proof := "p"
    method := "POST"
    path := "/v1/chat/completions" }

/-- A verifier with a window of one minute.  Its checker accepts the proof
text `p`, and its hash function holds the digests of the hashed texts. -/
def chatVerifier : DpopProofVerifier where
  checker :=
    { check := fun proof _ _ =>
        if proof = "p" then .ok chatProof else .error .malformed
      followUpClaims := fun proof =>
        if proof = "p" then .ok ⟨"j", "ath"⟩ else .error .malformed
      athMatches := fun ath _ => ath = "ath" }
  store := { capacity := 100, perKeyQuota := 100, perSubjectQuota := 100 }
  blake3 := fun bytes =>
    if bytes = asBytes "k" ++ [0] ++ asBytes "j" then
      #v[129, 80, 137, 75, 147, 214, 103, 231, 103, 99, 155, 18, 56, 133, 92,
        42, 164, 32, 53, 253, 3, 135, 44, 71, 250, 244, 255, 217, 109, 35, 62,
        240]
    else if bytes = asBytes "k" then
      #v[92, 188, 176, 206, 232, 36, 185, 24, 102, 205, 103, 245, 122, 102,
        67, 221, 203, 124, 212, 56, 32, 41, 3, 144, 67, 81, 57, 83, 199, 89,
        36, 107]
    else if bytes = asBytes "p" then
      #v[115, 242, 145, 105, 62, 49, 254, 119, 190, 123, 251, 120, 235, 201, 4,
        43, 46, 44, 67, 124, 135, 236, 160, 193, 34, 224, 232, 160, 187, 251,
        230, 37]
    else
      #v[112, 60, 89, 250, 114, 89, 189, 180, 189, 65, 114, 52, 199, 56, 133,
        117, 201, 109, 172, 131, 16, 41, 135, 102, 108, 175, 232, 180, 66, 93,
        32, 226]
  parseUrl := fun text =>
    if text = "https://gw.example.test/v1/chat/completions" then
      some chatUrl
    else
      none
  bases := [gatewayBase]
  iatWindowSecs := 60

/-- Two calls read the clock at second 100.  One records the proof, a redeem
at second 131 purges its entry, and the other one records it again at its old
clock value. -/
def slowRecordRun : List Action :=
  [.verifyBegin 0 chatClaims "token" chatRequest 100,
    .verifyBegin 1 chatClaims "token" chatRequest 100,
    .verifyRecord 0,
    .redeemBegin 2 chatClaims "token" "p" 131,
    .redeemFinish 2,
    .verifyRecord 1]

/-- The same, with the redeem before both records. -/
def promptRun : List Action :=
  [.verifyBegin 0 chatClaims "token" chatRequest 100,
    .verifyBegin 1 chatClaims "token" chatRequest 100,
    .redeemBegin 2 chatClaims "token" "p" 131,
    .redeemFinish 2,
    .verifyRecord 0,
    .verifyRecord 1]

/-- The same proof is accepted as fresh by both calls. -/
theorem slowRecordRun_accepts_twice :
    ¬ ∀ (verifier : DpopProofVerifier) (clock : I64) (actions : List Action)
        (final : World),
      runFrom (World.step verifier) (initial clock) actions = some final →
      (final.accepted.map fun a => (a.key, a.proof)).Nodup := by
  intro once
  have repeated :
      (runFrom (World.step chatVerifier) (initial 100) slowRecordRun).map
        (fun world => decide
          (world.accepted.map fun a => (a.key, a.proof)).Nodup) =
      some false := by
    decide
  obtain ⟨final, run, notOnce⟩ := Option.map_eq_some_iff.mp repeated
  exact of_decide_eq_false notOnce (once _ _ _ final run)

/-- The second of two records at the same second, and without a purge between
them, is refused as a replay. -/
theorem promptRecords_accept_once :
    ∃ final,
      EveryStep (World.step chatVerifier) Timely (initial 100) promptRun ∧
      runFrom (World.step chatVerifier) (initial 100) promptRun = some final ∧
      final.accepted.length = 1 ∧
      (final.accepted.map Acceptance.key).Nodup := by
  have timely :
      EveryStep (World.step chatVerifier) Timely (initial 100) promptRun := by
    decide
  have acceptedOne :
      (runFrom (World.step chatVerifier) (initial 100) promptRun).map
        (fun world => world.accepted.length) = some 1 := by
    decide
  obtain ⟨final, run, one⟩ := Option.map_eq_some_iff.mp acceptedOne
  exact ⟨final, timely, run, one, accepted_once_of_timely timely run⟩

end SlowRecord

end World

end Paigasus.Dpop
