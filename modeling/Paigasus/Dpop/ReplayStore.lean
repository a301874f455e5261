import Mathlib.Data.List.AList
import Paigasus.Foundation.FixedWidth
import Paigasus.Foundation.Ordered

/-!
# The in-memory DPoP replay store

The store keeps one entry per accepted proof key, an index of the keys by
removal second, and one min-heap of removal seconds per key thumbprint and per
subject.  Every call first purges the expired heads of the index at the clock
value of its caller.  Hash maps are association lists without duplicate keys,
so the number of entries is the length of the list.
-/

namespace Paigasus.Dpop

open Foundation

/-- The replay key of one proof. -/
structure ProofKey where
  bytes : Vector UInt8 16
deriving DecidableEq

structure NewProof where
  key : ProofKey
  subject : Vector UInt8 16
  jkt : Vector UInt8 16
  expiresAt : I64
  followUpDeadline : I64
  followUpDigest : Vector UInt8 32
deriving DecidableEq

inductive RecordOutcome where
  | fresh
  | replayed
  | quotaExceeded (retryAfterSecs : Nat)
  | capacityFull (entries : Nat)
deriving DecidableEq

inductive RedeemOutcome where
  | redeemed
  | refused
deriving DecidableEq

/-- One recorded proof. -/
structure Entry where
  subject : Vector UInt8 16
  jkt : Vector UInt8 16
  removeAt : I64
  followUpDeadline : I64
  followUpDigest : Vector UInt8 32
  redeemed : Bool
deriving DecidableEq

/-- The live removal seconds of one thumbprint hash or one subject hash. -/
structure Owner where
  removals : MinHeap I64
deriving DecidableEq

namespace Owner

def default : Owner := ⟨MinHeap.empty⟩

def add (owner : Owner) (removeAt : I64) : Owner :=
  ⟨owner.removals.push removeAt⟩

/-- Removes the oldest entry; the flag is `true` when no entry is left.  The
expected removal second only feeds the debug assertion, see
`ReleaseAsserts`. -/
def release (owner : Owner) (_removeAt : I64) : Owner × Bool :=
  let remaining := owner.removals.pop.2
  (⟨remaining⟩, remaining.elements.isEmpty)

/-- The debug assertion of `release`. -/
def ReleaseAsserts (owner : Owner) (removeAt : I64) : Prop :=
  owner.removals.pop.1 = some removeAt

end Owner

abbrev Owners : Type := AList (fun _ : Vector UInt8 16 => Owner)

structure State where
  entries : AList (fun _ : ProofKey => Entry)
  byRemoval : OrderedMap I64 (List ProofKey)
  keys : Owners
  subjects : Owners

namespace State

def default : State := ⟨∅, OrderedMap.empty, ∅, ∅⟩

end State

def release (owners : Owners) (id : Vector UInt8 16) (removeAt : I64) :
    Owners :=
  match owners.lookup id with
  | none => owners
  | some owner =>
      let (remaining, empty) := owner.release removeAt
      if empty then owners.erase id else owners.insert id remaining

/-- `some retryAfterSecs` when `id` already has `quota` live entries. -/
def quotaHit (owners : Owners) (id : Vector UInt8 16) (quota : Nat)
    (now : I64) : Option Nat :=
  match owners.lookup id with
  | none => none
  | some owner =>
      if owner.removals.size < quota then
        none
      else
        let oldest := owner.removals.peek.getD now
        let wait := max ((oldest.saturatingAdd 1).saturatingSub now) 1
        some (if wait.val < 2 ^ 32 then wait.val.toNat else 2 ^ 32 - 1)

def addOwner (owners : Owners) (id : Vector UInt8 16) (removeAt : I64) :
    Owners :=
  owners.insert id (((owners.lookup id).getD Owner.default).add removeAt)

namespace State

/-- The loop body of `purge`: the entry of one expired key goes, and its two
owners release it. -/
def expire (state : State) (key : ProofKey) : State :=
  match state.entries.lookup key with
  | none => state
  | some entry =>
      { state with
        entries := state.entries.erase key
        keys := release state.keys entry.jkt entry.removeAt
        subjects := release state.subjects entry.subject entry.removeAt }

def purgeLoop (now : I64) (state : State) :
    (buckets : List (I64 × List ProofKey)) →
      buckets.Pairwise (fun left right => left.1 < right.1) → State
  | [], ascending => { state with byRemoval := ⟨[], ascending⟩ }
  | (second, keys) :: rest, ascending =>
      if now ≤ second then
        { state with byRemoval := ⟨(second, keys) :: rest, ascending⟩ }
      else
        purgeLoop now (keys.foldl expire state) rest ascending.tail

/-- Removes every entry whose removal second is before `now`. -/
def purge (state : State) (now : I64) : State :=
  purgeLoop now state state.byRemoval.entries state.byRemoval.ascending

end State

/-- The configured limits of the store. -/
structure InMemoryReplayStore where
  capacity : Nat
  perKeyQuota : Nat
  perSubjectQuota : Nat

namespace InMemoryReplayStore

def insertFresh (state : State) (entry : NewProof) : State :=
  let removeAt := max entry.expiresAt entry.followUpDeadline
  { keys := addOwner state.keys entry.jkt removeAt
    subjects := addOwner state.subjects entry.subject removeAt
    byRemoval := state.byRemoval.upsert removeAt [] (· ++ [entry.key])
    entries := state.entries.insert entry.key
      { subject := entry.subject
        jkt := entry.jkt
        removeAt
        followUpDeadline := entry.followUpDeadline
        followUpDigest := entry.followUpDigest
        redeemed := false } }

def record (store : InMemoryReplayStore) (state : State) (entry : NewProof)
    (now : I64) : State × RecordOutcome :=
  let state := state.purge now
  if (state.entries.lookup entry.key).isSome then
    (state, .replayed)
  else
    -- A quota before the global capacity, the key quota before the subject's.
    match quotaHit state.keys entry.jkt store.perKeyQuota now with
    | some retryAfterSecs => (state, .quotaExceeded retryAfterSecs)
    | none =>
        match quotaHit state.subjects entry.subject
            store.perSubjectQuota now with
        | some retryAfterSecs => (state, .quotaExceeded retryAfterSecs)
        | none =>
            if store.capacity ≤ state.entries.entries.length then
              (state, .capacityFull state.entries.entries.length)
            else
              (insertFresh state entry, .fresh)

def redeemFollowUp (state : State) (key : ProofKey)
    (proofDigest : Vector UInt8 32) (now : I64) : State × RedeemOutcome :=
  let state := state.purge now
  match state.entries.lookup key with
  | none => (state, .refused)
  | some entry =>
      if entry.redeemed = false ∧ now ≤ entry.followUpDeadline ∧
          entry.followUpDigest = proofDigest then
        ({ state with
            entries := state.entries.insert key
              { entry with redeemed := true } }, .redeemed)
      else
        (state, .refused)

end InMemoryReplayStore

namespace State

/-- The entries and the buckets of a removal index name the same keys under
the same removal seconds. -/
structure IndexedBy (entries : AList (fun _ : ProofKey => Entry))
    (buckets : List (I64 × List ProofKey)) : Prop where
  entryOfBucket : ∀ bucket ∈ buckets, ∀ key ∈ bucket.2,
    ∃ entry, entries.lookup key = some entry ∧ entry.removeAt = bucket.1
  bucketOfEntry : ∀ key entry, entries.lookup key = some entry →
    ∃ bucket ∈ buckets, bucket.1 = entry.removeAt ∧ key ∈ bucket.2

def Indexed (state : State) : Prop :=
  IndexedBy state.entries state.byRemoval.entries

theorem indexed_default : State.default.Indexed where
  entryOfBucket := by simp [State.default, OrderedMap.empty]
  bucketOfEntry := by simp [State.default]

theorem expire_lookup (state : State) (key other : ProofKey) :
    (state.expire key).entries.lookup other =
      if other = key then none else state.entries.lookup other := by
  by_cases same : other = key
  · subst same
    cases found : state.entries.lookup other <;>
      simp [expire, found, AList.lookup_erase]
  · cases found : state.entries.lookup key <;>
      simp [expire, found, same, AList.lookup_erase_ne]

theorem foldl_expire_lookup (keys : List ProofKey) (state : State)
    (other : ProofKey) :
    (keys.foldl expire state).entries.lookup other =
      if other ∈ keys then none else state.entries.lookup other := by
  induction keys generalizing state with
  | nil => simp
  | cons key rest ih =>
      rw [List.foldl_cons, ih, expire_lookup]
      by_cases inRest : other ∈ rest
      · simp [inRest]
      · by_cases same : other = key <;> simp [inRest, same]

/-- In an ascending index the keys of the head bucket are exactly the entries
with the head's removal second. -/
theorem IndexedBy.mem_head_iff {entries : AList (fun _ : ProofKey => Entry)}
    {second : I64} {keys : List ProofKey}
    {rest : List (I64 × List ProofKey)}
    (indexed : IndexedBy entries ((second, keys) :: rest))
    (ascending : ((second, keys) :: rest).Pairwise
      (fun left right => left.1 < right.1))
    {key : ProofKey} {entry : Entry}
    (found : entries.lookup key = some entry) :
    key ∈ keys ↔ entry.removeAt = second := by
  constructor
  · intro member
    obtain ⟨stored, storedFound, atSecond⟩ :=
      indexed.entryOfBucket (second, keys) (by simp) key member
    have same : stored = entry := by
      simpa [found] using storedFound.symm
    rw [← same]
    exact atSecond
  · intro atSecond
    obtain ⟨bucket, member, sameSecond, inBucket⟩ :=
      indexed.bucketOfEntry key entry found
    rcases List.mem_cons.mp member with isHead | inRest
    · simpa [isHead] using inBucket
    · have later := (List.pairwise_cons.mp ascending).1 bucket inRest
      rw [sameSecond, atSecond] at later
      exact absurd later (lt_irrefl second)

theorem IndexedBy.expireHead {state : State}
    {second : I64} {keys : List ProofKey}
    {rest : List (I64 × List ProofKey)}
    (indexed : IndexedBy state.entries ((second, keys) :: rest))
    (ascending : ((second, keys) :: rest).Pairwise
      (fun left right => left.1 < right.1)) :
    IndexedBy (keys.foldl expire state).entries rest where
  entryOfBucket := by
    intro bucket member key inBucket
    obtain ⟨entry, found, atBucket⟩ :=
      indexed.entryOfBucket bucket (by simp [member]) key inBucket
    have later := (List.pairwise_cons.mp ascending).1 bucket member
    have notHead : key ∉ keys := by
      rw [indexed.mem_head_iff ascending found, atBucket]
      exact later.ne'
    exact ⟨entry, by rw [foldl_expire_lookup, if_neg notHead, found],
      atBucket⟩
  bucketOfEntry := by
    intro key entry found
    rw [foldl_expire_lookup] at found
    split at found
    · cases found
    · rename_i notHead
      obtain ⟨bucket, member, sameSecond, inBucket⟩ :=
        indexed.bucketOfEntry key entry found
      rcases List.mem_cons.mp member with isHead | inRest
      · rw [isHead] at inBucket
        exact absurd inBucket notHead
      · exact ⟨bucket, inRest, sameSecond, inBucket⟩

theorem purgeLoop_spec (now : I64) :
    ∀ (buckets : List (I64 × List ProofKey))
      (ascending : buckets.Pairwise (fun left right => left.1 < right.1))
      (state : State), IndexedBy state.entries buckets →
      (purgeLoop now state buckets ascending).Indexed ∧
        ∀ key, (purgeLoop now state buckets ascending).entries.lookup key =
          (state.entries.lookup key).filter (fun e => now ≤ e.removeAt) := by
  intro buckets
  induction buckets with
  | nil =>
      intro ascending state indexed
      refine ⟨indexed, ?_⟩
      intro key
      cases found : state.entries.lookup key with
      | none => simp [purgeLoop, found]
      | some entry =>
          obtain ⟨bucket, member, _⟩ := indexed.bucketOfEntry key entry found
          cases member
  | cons head rest ih =>
      obtain ⟨second, keys⟩ := head
      intro ascending state indexed
      unfold purgeLoop
      split
      · rename_i live
        refine ⟨indexed, ?_⟩
        intro key
        cases found : state.entries.lookup key with
        | none => simp
        | some entry =>
            -- Every bucket is at or after the live head.
            obtain ⟨bucket, member, sameSecond, _⟩ :=
              indexed.bucketOfEntry key entry found
            have headFirst : second ≤ entry.removeAt := by
              rw [← sameSecond]
              rcases List.mem_cons.mp member with isHead | inRest
              · rw [isHead]
              · exact ((List.pairwise_cons.mp ascending).1 bucket inRest).le
            simp [Option.filter_some, live.trans headFirst]
      · rename_i expired
        obtain ⟨stillIndexed, lookups⟩ := ih ascending.tail
          (keys.foldl expire state) (indexed.expireHead ascending)
        refine ⟨stillIndexed, ?_⟩
        intro key
        rw [lookups key, foldl_expire_lookup]
        cases found : state.entries.lookup key with
        | none => simp
        | some entry =>
            split
            · rename_i inHead
              have atSecond := (indexed.mem_head_iff ascending found).mp inHead
              simp [Option.filter_some, atSecond, expired]
            · rfl

theorem Indexed.purge {state : State} (indexed : state.Indexed) (now : I64) :
    (state.purge now).Indexed :=
  (purgeLoop_spec now _ _ state indexed).1

/-- A purge keeps exactly the entries whose removal second is not yet over. -/
theorem Indexed.purge_lookup {state : State} (indexed : state.Indexed)
    (now : I64) (key : ProofKey) :
    (state.purge now).entries.lookup key =
      (state.entries.lookup key).filter (fun e => now ≤ e.removeAt) :=
  (purgeLoop_spec now _ _ state indexed).2 key

end State

namespace InMemoryReplayStore

theorem insertFresh_lookup (state : State) (entry : NewProof)
    (key : ProofKey) :
    (insertFresh state entry).entries.lookup key =
      if key = entry.key then
        some
          { subject := entry.subject
            jkt := entry.jkt
            removeAt := max entry.expiresAt entry.followUpDeadline
            followUpDeadline := entry.followUpDeadline
            followUpDigest := entry.followUpDigest
            redeemed := false }
      else state.entries.lookup key := by
  by_cases same : key = entry.key
  · subst same
    simp [insertFresh]
  · simp [insertFresh, same, AList.lookup_insert_ne]

theorem mem_insertFresh_byRemoval {state : State} {entry : NewProof}
    {second : I64} {keys : List ProofKey} :
    (second, keys) ∈ (insertFresh state entry).byRemoval.entries ↔
      if second = max entry.expiresAt entry.followUpDeadline then
        keys = (state.byRemoval.get? second).getD [] ++ [entry.key]
      else (second, keys) ∈ state.byRemoval.entries := by
  rw [OrderedMap.mem_entries_iff, OrderedMap.mem_entries_iff]
  simp only [insertFresh, OrderedMap.get?_upsert]
  split
  · rename_i same
    simp [same, eq_comm]
  · rfl

theorem insertFresh_indexed {state : State} {entry : NewProof}
    (indexed : state.Indexed)
    (absent : state.entries.lookup entry.key = none) :
    (insertFresh state entry).Indexed where
  entryOfBucket := by
    rintro ⟨second, keys⟩ member key inBucket
    have old : ∀ oldKeys, (second, oldKeys) ∈ state.byRemoval.entries →
        key ∈ oldKeys →
        ∃ stored, (insertFresh state entry).entries.lookup key = some stored ∧
          stored.removeAt = second := by
      intro oldKeys oldMember inOld
      obtain ⟨stored, found, atSecond⟩ :=
        indexed.entryOfBucket (second, oldKeys) oldMember key inOld
      have different : key ≠ entry.key := by
        intro same
        rw [same, absent] at found
        cases found
      exact ⟨stored, by rw [insertFresh_lookup, if_neg different, found],
        atSecond⟩
    rw [mem_insertFresh_byRemoval] at member
    split at member
    · rename_i atRemoval
      subst member
      rcases List.mem_append.mp inBucket with inOld | isNew
      · cases bucket : state.byRemoval.get? second with
        | none => simp [bucket] at inOld
        | some oldKeys =>
            exact old oldKeys (OrderedMap.mem_entries_iff.mpr bucket)
              (by simpa [bucket] using inOld)
      · have isKey : key = entry.key := List.mem_singleton.mp isNew
        exact ⟨_, by rw [insertFresh_lookup, if_pos isKey], atRemoval.symm⟩
    · exact old keys member inBucket
  bucketOfEntry := by
    intro key stored found
    rw [insertFresh_lookup] at found
    let removal := max entry.expiresAt entry.followUpDeadline
    let bucketKeys := (state.byRemoval.get? removal).getD [] ++ [entry.key]
    have newBucket : (removal, bucketKeys) ∈
        (insertFresh state entry).byRemoval.entries :=
      mem_insertFresh_byRemoval.mpr (by simp [removal, bucketKeys])
    split at found
    · rename_i isKey
      cases found
      exact ⟨(removal, bucketKeys), newBucket, rfl, by simp [bucketKeys, isKey]⟩
    · obtain ⟨⟨second, keys⟩, member, sameSecond, inBucket⟩ :=
        indexed.bucketOfEntry key stored found
      by_cases atRemoval : second = removal
      · refine ⟨(removal, bucketKeys), newBucket, atRemoval.symm.trans
          sameSecond, ?_⟩
        have bucket := OrderedMap.mem_entries_iff.mp member
        rw [atRemoval] at bucket
        have inOld : key ∈ keys := inBucket
        simp [bucketKeys, bucket, inOld]
      · exact ⟨(second, keys),
          mem_insertFresh_byRemoval.mpr (by rw [if_neg atRemoval]; exact member),
          sameSecond, inBucket⟩

/-- A purged store that passes every check of `record`. -/
structure Admits (store : InMemoryReplayStore) (state : State)
    (entry : NewProof) (now : I64) : Prop where
  absent : state.entries.lookup entry.key = none
  keyAllowed : quotaHit state.keys entry.jkt store.perKeyQuota now = none
  subjectAllowed :
    quotaHit state.subjects entry.subject store.perSubjectQuota now = none
  room : state.entries.entries.length < store.capacity

/-- What a `record` call can do to the purged store. -/
theorem record_cases (store : InMemoryReplayStore) (state : State)
    (entry : NewProof) (now : I64) :
    (store.Admits (state.purge now) entry now ∧
        store.record state entry now =
          (insertFresh (state.purge now) entry, .fresh)) ∨
      ∃ outcome, outcome ≠ .fresh ∧
        store.record state entry now = (state.purge now, outcome) := by
  unfold record
  dsimp only
  split
  · exact .inr ⟨_, by simp, rfl⟩
  · rename_i absent
    split
    · exact .inr ⟨_, by simp, rfl⟩
    · rename_i keyAllowed
      split
      · exact .inr ⟨_, by simp, rfl⟩
      · rename_i subjectAllowed
        split
        · exact .inr ⟨_, by simp, rfl⟩
        · rename_i notFull
          exact .inl ⟨⟨by simpa using absent, keyAllowed, subjectAllowed,
            not_le.mp notFull⟩, rfl⟩

/-- What a `redeemFollowUp` call can do to the purged store. -/
theorem redeemFollowUp_cases (state : State) (key : ProofKey)
    (proofDigest : Vector UInt8 32) (now : I64) :
    (∃ entry, (state.purge now).entries.lookup key = some entry ∧
        entry.redeemed = false ∧ now ≤ entry.followUpDeadline ∧
        entry.followUpDigest = proofDigest ∧
        redeemFollowUp state key proofDigest now =
          ({ state.purge now with
              entries := (state.purge now).entries.insert key
                { entry with redeemed := true } }, .redeemed)) ∨
      redeemFollowUp state key proofDigest now =
        (state.purge now, .refused) := by
  unfold redeemFollowUp
  dsimp only
  split
  · exact .inr rfl
  · rename_i entry found
    split
    · rename_i live
      exact .inl ⟨entry, found, live.1, live.2.1, live.2.2, rfl⟩
    · exact .inr rfl

theorem record_indexed {store : InMemoryReplayStore} {state : State}
    (indexed : state.Indexed) (entry : NewProof) (now : I64) :
    (store.record state entry now).1.Indexed := by
  rcases store.record_cases state entry now with
    ⟨admits, recorded⟩ | ⟨outcome, _, refused⟩
  · rw [recorded]
    exact insertFresh_indexed (indexed.purge now) admits.absent
  · rw [refused]
    exact indexed.purge now

theorem redeemFollowUp_lookup_removeAt (state : State) (key other : ProofKey)
    (proofDigest : Vector UInt8 32) (now : I64) :
    ((redeemFollowUp state key proofDigest now).1.entries.lookup other).map
        Entry.removeAt =
      ((state.purge now).entries.lookup other).map Entry.removeAt := by
  rcases redeemFollowUp_cases state key proofDigest now with
    ⟨entry, found, _, _, _, redeemed⟩ | refused
  · rw [redeemed]
    by_cases same : other = key
    · subst same
      simp [found]
    · simp [AList.lookup_insert_ne same]
  · rw [refused]

theorem redeemFollowUp_byRemoval (state : State) (key : ProofKey)
    (proofDigest : Vector UInt8 32) (now : I64) :
    (redeemFollowUp state key proofDigest now).1.byRemoval =
      (state.purge now).byRemoval := by
  rcases redeemFollowUp_cases state key proofDigest now with
    ⟨entry, _, _, _, _, redeemed⟩ | refused
  · rw [redeemed]
  · rw [refused]

theorem redeemFollowUp_indexed {state : State} (indexed : state.Indexed)
    (key : ProofKey) (proofDigest : Vector UInt8 32) (now : I64) :
    (redeemFollowUp state key proofDigest now).1.Indexed := by
  have purged := indexed.purge now
  have removals := fun other =>
    redeemFollowUp_lookup_removeAt state key other proofDigest now
  constructor
  · intro bucket member other inBucket
    rw [redeemFollowUp_byRemoval] at member
    obtain ⟨entry, found, atBucket⟩ :=
      purged.entryOfBucket bucket member other inBucket
    have mapped := removals other
    rw [found, Option.map_some, Option.map_eq_some_iff] at mapped
    obtain ⟨stored, storedFound, same⟩ := mapped
    exact ⟨stored, storedFound, same.trans atBucket⟩
  · intro other stored storedFound
    rw [redeemFollowUp_byRemoval]
    have mapped := removals other
    rw [storedFound, Option.map_some, eq_comm, Option.map_eq_some_iff] at mapped
    obtain ⟨entry, found, same⟩ := mapped
    obtain ⟨bucket, member, sameSecond, inBucket⟩ :=
      purged.bucketOfEntry other entry found
    exact ⟨bucket, member, sameSecond.trans same, inBucket⟩

end InMemoryReplayStore

end Paigasus.Dpop
