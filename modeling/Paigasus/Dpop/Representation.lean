import Mathlib.Data.Multiset.AddSub
import Paigasus.Foundation.Transition
import Paigasus.Dpop.ReplayStore

/-!
# The representation invariant of the replay store

The entries, the removal index and the two owner maps describe one set of live
proofs.  A purge walks the index in ascending order, so the entry it releases
is always a least one of its owners; this is what the debug assertion of
`Owner.release` says.  The clock value of a call is arbitrary throughout.
-/

namespace Paigasus.Dpop

open Foundation

/-- The removal seconds of the live entries that `owner` assigns to `id`. -/
def liveRemovals (owner : Entry → Vector UInt8 16)
    (entries : AList (fun _ : ProofKey => Entry)) (id : Vector UInt8 16) :
    Multiset I64 :=
  ((entries.entries.filter (fun item => owner item.2 = id)).map
    (fun item => item.2.removeAt) : List I64)

namespace Owners

/-- The removal seconds that the heap of `id` holds. -/
def heapOf (owners : Owners) (id : Vector UInt8 16) : Multiset I64 :=
  match owners.lookup id with
  | none => 0
  | some owner => (owner.removals.elements : List I64)

/-- Every owner holds the removal seconds of its live entries, and an owner
without entries is absent. -/
structure Counts (owners : Owners) (owner : Entry → Vector UInt8 16)
    (entries : AList (fun _ : ProofKey => Entry)) : Prop where
  heapOf_eq : ∀ id, owners.heapOf id = liveRemovals owner entries id
  notEmpty : ∀ id found, owners.lookup id = some found →
    found.removals.elements ≠ []

def WithinQuota (owners : Owners) (quota : Nat) : Prop :=
  ∀ id found, owners.lookup id = some found → found.removals.size ≤ quota

/-- The debug assertion reached by releasing one entry of `id`. -/
def ReleaseAsserts (owners : Owners) (id : Vector UInt8 16)
    (removeAt : I64) : Prop :=
  ∀ found, owners.lookup id = some found → found.ReleaseAsserts removeAt

end Owners

namespace State

/-- The debug assertions reached by one turn of the purge loop body. -/
def ExpireAsserts (state : State) (key : ProofKey) : Prop :=
  ∀ entry, state.entries.lookup key = some entry →
    state.keys.ReleaseAsserts entry.jkt entry.removeAt ∧
      state.subjects.ReleaseAsserts entry.subject entry.removeAt

def ExpireAllAsserts : State → List ProofKey → Prop
  | _, [] => True
  | state, key :: rest =>
      state.ExpireAsserts key ∧ ExpireAllAsserts (state.expire key) rest

def PurgeLoopAsserts (now : I64) :
    State → List (I64 × List ProofKey) → Prop
  | _, [] => True
  | state, (second, keys) :: rest =>
      second < now →
        state.ExpireAllAsserts keys ∧
          PurgeLoopAsserts now (keys.foldl expire state) rest

/-- The debug assertions reached by a purge. -/
def PurgeAsserts (state : State) (now : I64) : Prop :=
  PurgeLoopAsserts now state state.byRemoval.entries

/-- The three indexes describe the same live proofs, with `buckets` in the
place of the removal index. -/
structure Agrees (state : State) (buckets : List (I64 × List ProofKey)) :
    Prop where
  indexed : IndexedBy state.entries buckets
  distinct : ∀ bucket ∈ buckets, bucket.2.Nodup
  keysCount : state.keys.Counts Entry.jkt state.entries
  subjectsCount : state.subjects.Counts Entry.subject state.entries

end State

/-- The representation invariant. -/
structure Represented (store : InMemoryReplayStore) (state : State) :
    Prop where
  agrees : state.Agrees state.byRemoval.entries
  bucketsFilled : ∀ bucket ∈ state.byRemoval.entries, bucket.2 ≠ []
  withinCapacity : state.entries.entries.length ≤ store.capacity
  keysWithinQuota : state.keys.WithinQuota store.perKeyQuota
  subjectsWithinQuota : state.subjects.WithinQuota store.perSubjectQuota

namespace InMemoryReplayStore

/-- What `IamConfig::validate` has checked of the configured limits. -/
structure Validated (store : InMemoryReplayStore) : Prop where
  capacity : 1 ≤ store.capacity
  perKeyQuota : 1 ≤ store.perKeyQuota
  perSubjectQuota : 1 ≤ store.perSubjectQuota
  perKeyQuotaLe : store.perKeyQuota ≤ store.capacity
  perSubjectQuotaLe : store.perSubjectQuota ≤ store.capacity

end InMemoryReplayStore

section LiveRemovals

variable (owner : Entry → Vector UInt8 16)
  (entries : AList (fun _ : ProofKey => Entry)) (id : Vector UInt8 16)

/-- What one entry contributes to the heap of `id`. -/
def contribution (entry : Entry) : Multiset I64 :=
  if owner entry = id then {entry.removeAt} else 0

theorem liveRemovals_insert (key : ProofKey) (entry : Entry) :
    liveRemovals owner (entries.insert key entry) id =
      contribution owner id entry +
        liveRemovals owner (entries.erase key) id := by
  have inserted : (entries.insert key entry).entries =
      ⟨key, entry⟩ :: (entries.erase key).entries := rfl
  unfold liveRemovals contribution
  rw [inserted]
  by_cases owned : owner entry = id
  · simp [owned]
  · simp [owned]

theorem perm_cons_erase {key : ProofKey} {entry : Entry}
    (found : entries.lookup key = some entry) :
    entries.entries.Perm (⟨key, entry⟩ :: (entries.erase key).entries) := by
  have member : key ∈ entries.entries.keys := by
    change key ∈ entries
    rw [← AList.lookup_isSome, found]
    rfl
  obtain ⟨stored, before, after, _, split, erased⟩ :=
    List.exists_of_kerase member
  have same : stored = entry := by
    have inEntries : (⟨key, stored⟩ : Sigma fun _ : ProofKey => Entry) ∈
        entries.entries := by
      rw [split]
      simp
    have looked := AList.mem_lookup_iff.mpr inEntries
    rw [found] at looked
    exact (Option.some.inj looked).symm
  have erasedEntries : (entries.erase key).entries = before ++ after := erased
  rw [erasedEntries, split, same]
  exact List.perm_middle

theorem liveRemovals_of_lookup {key : ProofKey} {entry : Entry}
    (found : entries.lookup key = some entry) :
    liveRemovals owner entries id =
      contribution owner id entry +
        liveRemovals owner (entries.erase key) id := by
  have permuted := (perm_cons_erase entries found).filter
    (fun item => owner item.2 = id)
  have mapped := permuted.map (fun item => item.2.removeAt)
  unfold liveRemovals contribution
  rw [Multiset.coe_eq_coe.mpr mapped]
  by_cases owned : owner entry = id
  · simp [owned]
  · simp [owned]

theorem erase_of_absent {key : ProofKey}
    (absent : entries.lookup key = none) : entries.erase key = entries := by
  apply AList.ext
  apply List.kerase_of_notMem_keys
  exact AList.lookup_eq_none.mp absent

end LiveRemovals

namespace Owners

variable {owners : Owners} {owner : Entry → Vector UInt8 16}
  {entries : AList (fun _ : ProofKey => Entry)}

theorem heapOf_some {id : Vector UInt8 16} {found : Owner}
    (looked : owners.lookup id = some found) :
    owners.heapOf id = (found.removals.elements : List I64) := by
  simp [heapOf, looked]

theorem heapOf_none {id : Vector UInt8 16}
    (looked : owners.lookup id = none) : owners.heapOf id = 0 := by
  simp [heapOf, looked]

/-- The owner of a live entry, with the elements of its heap. -/
theorem Counts.owner_of_entry (counts : owners.Counts owner entries)
    {key : ProofKey} {entry : Entry}
    (found : entries.lookup key = some entry) :
    ∃ holder, owners.lookup (owner entry) = some holder ∧
      (holder.removals.elements : Multiset I64) =
        entry.removeAt ::ₘ
          liveRemovals owner (entries.erase key) (owner entry) := by
  have heap := counts.heapOf_eq (owner entry)
  rw [liveRemovals_of_lookup owner entries (owner entry) found] at heap
  simp only [contribution, if_true, Multiset.singleton_add] at heap
  cases looked : owners.lookup (owner entry) with
  | none =>
      rw [heapOf_none looked] at heap
      exact absurd heap (Multiset.zero_ne_cons)
  | some holder =>
      rw [heapOf_some looked] at heap
      exact ⟨holder, rfl, heap⟩

theorem removeAt_of_mem_liveRemovals {id : Vector UInt8 16} {second : I64}
    (member : second ∈ liveRemovals owner entries id) :
    ∃ key entry, entries.lookup key = some entry ∧
      entry.removeAt = second := by
  simp only [liveRemovals, Multiset.mem_coe, List.mem_map,
    List.mem_filter] at member
  obtain ⟨⟨key, entry⟩, ⟨inEntries, _⟩, atSecond⟩ := member
  exact ⟨key, entry, AList.mem_lookup_iff.mpr inEntries, atSecond⟩

/-- The heap of the owner of a least live entry has that entry's removal
second at its head. -/
theorem Counts.head_of_least (counts : owners.Counts owner entries)
    {key : ProofKey} {entry : Entry}
    (found : entries.lookup key = some entry)
    (least : ∀ other live, entries.lookup other = some live →
      entry.removeAt ≤ live.removeAt) :
    ∃ holder rest, owners.lookup (owner entry) = some holder ∧
      holder.removals.elements = entry.removeAt :: rest ∧
      (rest : Multiset I64) =
        liveRemovals owner (entries.erase key) (owner entry) := by
  obtain ⟨holder, looked, elements⟩ := counts.owner_of_entry found
  cases shape : holder.removals.elements with
  | nil =>
      rw [shape] at elements
      exact absurd elements Multiset.zero_ne_cons
  | cons head rest =>
      have ascending := holder.removals.ascending
      rw [shape] at elements ascending
      have heap : liveRemovals owner entries (owner entry) =
          ((head :: rest : List I64) : Multiset I64) := by
        rw [← counts.heapOf_eq, heapOf_some looked, shape]
      have headLive : head ∈ liveRemovals owner entries (owner entry) := by
        rw [heap]
        simp
      obtain ⟨other, live, otherFound, atHead⟩ :=
        removeAt_of_mem_liveRemovals headLive
      have above : entry.removeAt ≤ head := by
        rw [← atHead]
        exact least other live otherFound
      have inHeap : entry.removeAt ∈ head :: rest := by
        rw [← Multiset.mem_coe, elements]
        exact Multiset.mem_cons_self _ _
      have below : head ≤ entry.removeAt := by
        rcases List.mem_cons.mp inHeap with same | inRest
        · exact same.ge
        · exact (List.pairwise_cons.mp ascending).1 _ inRest
      have same : head = entry.removeAt := le_antisymm below above
      refine ⟨holder, rest, looked, by rw [shape, same], ?_⟩
      rw [← Multiset.cons_coe, same] at elements
      exact (Multiset.cons_inj_right _).mp elements

/-- Releasing a least live entry passes the assertion and counts the entries
without it. -/
theorem Counts.release (counts : owners.Counts owner entries)
    {key : ProofKey} {entry : Entry}
    (found : entries.lookup key = some entry)
    (least : ∀ other live, entries.lookup other = some live →
      entry.removeAt ≤ live.removeAt) :
    owners.ReleaseAsserts (owner entry) entry.removeAt ∧
      Counts (Dpop.release owners (owner entry) entry.removeAt) owner
        (entries.erase key) := by
  obtain ⟨holder, rest, looked, elements, restLive⟩ :=
    counts.head_of_least found least
  have lookups : ∀ id,
      (Dpop.release owners (owner entry) entry.removeAt).lookup id =
        if id = owner entry then
          if rest = [] then none
          else some ⟨holder.removals.pop.2⟩
        else owners.lookup id := by
    intro id
    have popped : holder.removals.pop.2.elements = rest := by
      simp [MinHeap.pop, elements]
    by_cases last : rest = []
    · by_cases same : id = owner entry
      · subst same
        simp [Dpop.release, looked, Owner.release, popped, last]
      · simp [Dpop.release, looked, Owner.release, popped, last, same,
          AList.lookup_erase_ne]
    · by_cases same : id = owner entry
      · subst same
        simp [Dpop.release, looked, Owner.release, popped, last]
      · simp [Dpop.release, looked, Owner.release, popped, last, same,
          AList.lookup_insert_ne]
  refine ⟨?_, ?_, ?_⟩
  · intro other otherLooked
    rw [looked] at otherLooked
    cases otherLooked
    simp [Owner.ReleaseAsserts, MinHeap.pop, elements]
  · intro id
    by_cases same : id = owner entry
    · subst same
      rw [← restLive]
      by_cases last : rest = []
      · rw [heapOf_none (by rw [lookups, if_pos rfl, if_pos last]), last]
        rfl
      · rw [heapOf_some (by rw [lookups, if_pos rfl, if_neg last])]
        simp [MinHeap.pop, elements]
    · have other := counts.heapOf_eq id
      rw [liveRemovals_of_lookup owner entries id found, contribution,
        if_neg (Ne.symm same), Multiset.zero_add] at other
      rw [← other]
      simp only [heapOf, lookups, if_neg same]
  · intro id other otherLooked
    rw [lookups] at otherLooked
    split at otherLooked
    · split at otherLooked
      · cases otherLooked
      · rename_i filled
        cases otherLooked
        simpa [MinHeap.pop, elements] using filled
    · exact counts.notEmpty id other otherLooked

theorem Counts.add (counts : owners.Counts owner entries) {key : ProofKey}
    {entry : Entry} (absent : entries.lookup key = none) :
    Counts (addOwner owners (owner entry) entry.removeAt) owner
      (entries.insert key entry) where
  heapOf_eq := by
    intro id
    rw [liveRemovals_insert, erase_of_absent entries absent,
      ← counts.heapOf_eq id]
    by_cases same : id = owner entry
    · subst same
      have pushed (elements : List I64) :
          ((elements.orderedInsert (· ≤ ·) entry.removeAt : List I64) :
            Multiset I64) = entry.removeAt ::ₘ elements :=
        Multiset.coe_eq_coe.mpr (List.perm_orderedInsert _ _ _)
      cases looked : owners.lookup (owner entry) with
      | none =>
          simp [heapOf, addOwner, looked, contribution, Owner.add,
            Owner.default, MinHeap.push, MinHeap.empty]
      | some holder =>
          simp [heapOf, addOwner, looked, contribution, Owner.add,
            MinHeap.push, pushed]
    · simp [heapOf, addOwner, contribution, same, Ne.symm same,
        AList.lookup_insert_ne]
  notEmpty := by
    intro id found looked
    by_cases same : id = owner entry
    · subst same
      simp only [addOwner, AList.lookup_insert, Option.some.injEq] at looked
      rw [← looked]
      have length := List.orderedInsert_length (· ≤ ·)
        ((owners.lookup (owner entry)).getD Owner.default).removals.elements
        entry.removeAt
      intro empty
      simp only [Owner.add, MinHeap.push] at empty
      rw [empty] at length
      simp at length
    · rw [addOwner, AList.lookup_insert_ne same] at looked
      exact counts.notEmpty id found looked

/-- An update that replaces an entry by one of the same owner and removal
second leaves the counts as they are. -/
theorem Counts.replace (counts : owners.Counts owner entries)
    {key : ProofKey} {entry replaced : Entry}
    (found : entries.lookup key = some entry)
    (sameOwner : owner replaced = owner entry)
    (sameRemoval : replaced.removeAt = entry.removeAt) :
    owners.Counts owner (entries.insert key replaced) where
  heapOf_eq := by
    intro id
    rw [counts.heapOf_eq id, liveRemovals_of_lookup owner entries id found,
      liveRemovals_insert, contribution, contribution, sameOwner, sameRemoval]
  notEmpty := counts.notEmpty

theorem WithinQuota.release {quota : Nat}
    (within : owners.WithinQuota quota) (id : Vector UInt8 16)
    (removeAt : I64) :
    WithinQuota (Dpop.release owners id removeAt) quota := by
  intro other found looked
  unfold Dpop.release at looked
  split at looked
  · exact within other found looked
  · rename_i holder held
    have shrunk : holder.removals.pop.2.size ≤ holder.removals.size := by
      simp [MinHeap.size, MinHeap.pop]
    dsimp only [Owner.release] at looked
    split at looked
    · by_cases same : other = id
      · subst same
        rw [AList.lookup_erase] at looked
        cases looked
      · rw [AList.lookup_erase_ne same] at looked
        exact within other found looked
    · by_cases same : other = id
      · subst same
        rw [AList.lookup_insert] at looked
        cases looked
        exact shrunk.trans (within other holder held)
      · rw [AList.lookup_insert_ne same] at looked
        exact within other found looked

theorem size_lt_of_quotaHit_none {id : Vector UInt8 16} {quota : Nat}
    {now : I64} (allowed : quotaHit owners id quota now = none)
    {found : Owner} (looked : owners.lookup id = some found) :
    found.removals.size < quota := by
  by_contra reached
  simp [quotaHit, looked, reached] at allowed

theorem WithinQuota.add {quota : Nat} (within : owners.WithinQuota quota)
    (positive : 1 ≤ quota) {id : Vector UInt8 16} {now : I64}
    (allowed : quotaHit owners id quota now = none) (removeAt : I64) :
    WithinQuota (addOwner owners id removeAt) quota := by
  intro other found looked
  by_cases same : other = id
  · subst same
    rw [addOwner, AList.lookup_insert, Option.some.injEq] at looked
    rw [← looked]
    simp only [Owner.add, MinHeap.push, MinHeap.size,
      List.orderedInsert_length]
    cases held : owners.lookup other with
    | none => simpa [Owner.default, MinHeap.empty] using positive
    | some holder => exact size_lt_of_quotaHit_none allowed held
  · rw [addOwner, AList.lookup_insert_ne same] at looked
    exact within other found looked

end Owners

namespace State

/-- One turn of the purge loop body at the head of the index. -/
theorem Agrees.expire {state : State} {second : I64} {key : ProofKey}
    {keys : List ProofKey} {rest : List (I64 × List ProofKey)}
    (agrees : state.Agrees ((second, key :: keys) :: rest))
    (ascending : ((second, key :: keys) :: rest).Pairwise
      (fun left right => left.1 < right.1)) :
    state.ExpireAsserts key ∧
      (state.expire key).Agrees ((second, keys) :: rest) := by
  obtain ⟨entry, found, atSecond⟩ :=
    agrees.indexed.entryOfBucket (second, key :: keys) (by simp) key (by simp)
  have least : ∀ other live, state.entries.lookup other = some live →
      entry.removeAt ≤ live.removeAt := by
    intro other live otherFound
    obtain ⟨bucket, member, sameSecond, _⟩ :=
      agrees.indexed.bucketOfEntry other live otherFound
    rw [atSecond, ← sameSecond]
    rcases List.mem_cons.mp member with isHead | inRest
    · rw [isHead]
    · exact ((List.pairwise_cons.mp ascending).1 bucket inRest).le
  have expired : state.expire key =
      { state with
        entries := state.entries.erase key
        keys := release state.keys entry.jkt entry.removeAt
        subjects := release state.subjects entry.subject entry.removeAt } := by
    simp [State.expire, found]
  obtain ⟨keysAssert, keysCount⟩ := agrees.keysCount.release found least
  obtain ⟨subjectsAssert, subjectsCount⟩ :=
    agrees.subjectsCount.release found least
  have headDistinct : key ∉ keys ∧ keys.Nodup :=
    List.nodup_cons.mp (agrees.distinct (second, key :: keys) (by simp))
  refine ⟨?_, ?_⟩
  · intro other otherFound
    rw [found] at otherFound
    cases otherFound
    exact ⟨keysAssert, subjectsAssert⟩
  · constructor
    · constructor
      · intro bucket member other inBucket
        have old : ∃ oldKeys, (bucket.1, oldKeys) ∈
            (second, key :: keys) :: rest ∧ other ∈ oldKeys := by
          rcases List.mem_cons.mp member with isHead | inRest
          · subst isHead
            exact ⟨key :: keys, by simp, List.mem_cons_of_mem _ inBucket⟩
          · exact ⟨bucket.2, List.mem_cons_of_mem _ inRest, inBucket⟩
        obtain ⟨oldKeys, oldMember, inOld⟩ := old
        obtain ⟨live, liveFound, atBucket⟩ :=
          agrees.indexed.entryOfBucket (bucket.1, oldKeys) oldMember other
            inOld
        have different : other ≠ key := by
          rintro rfl
          rw [found] at liveFound
          cases liveFound
          rcases List.mem_cons.mp member with isHead | inRest
          · subst isHead
            exact headDistinct.1 inBucket
          · have later := (List.pairwise_cons.mp ascending).1 bucket inRest
            rw [← atSecond, atBucket] at later
            exact lt_irrefl _ later
        exact ⟨live, by rw [expire_lookup, if_neg different, liveFound],
          atBucket⟩
      · intro other live otherFound
        rw [expire_lookup] at otherFound
        split at otherFound
        · cases otherFound
        · rename_i different
          obtain ⟨bucket, member, sameSecond, inBucket⟩ :=
            agrees.indexed.bucketOfEntry other live otherFound
          rcases List.mem_cons.mp member with isHead | inRest
          · subst isHead
            refine ⟨(second, keys), by simp, sameSecond, ?_⟩
            exact (List.mem_cons.mp inBucket).resolve_left different
          · exact ⟨bucket, List.mem_cons_of_mem _ inRest, sameSecond,
              inBucket⟩
    · intro bucket member
      rcases List.mem_cons.mp member with isHead | inRest
      · subst isHead
        exact headDistinct.2
      · exact agrees.distinct bucket (List.mem_cons_of_mem _ inRest)
    · rw [expired]
      exact keysCount
    · rw [expired]
      exact subjectsCount

theorem Agrees.expireAll {state : State} {second : I64}
    {keys : List ProofKey} {rest : List (I64 × List ProofKey)}
    (agrees : state.Agrees ((second, keys) :: rest))
    (ascending : ((second, keys) :: rest).Pairwise
      (fun left right => left.1 < right.1)) :
    state.ExpireAllAsserts keys ∧ (keys.foldl State.expire state).Agrees rest := by
  induction keys generalizing state with
  | nil =>
      refine ⟨trivial, agrees.indexed.expireHead ascending, ?_,
        agrees.keysCount, agrees.subjectsCount⟩
      intro bucket member
      exact agrees.distinct bucket (List.mem_cons_of_mem _ member)
  | cons key keys ih =>
      obtain ⟨asserts, stepped⟩ := agrees.expire ascending
      have stillAscending : ((second, keys) :: rest).Pairwise
          (fun left right => left.1 < right.1) :=
        List.pairwise_cons.mpr (List.pairwise_cons.mp ascending)
      obtain ⟨restAssert, restAgrees⟩ := ih stepped stillAscending
      exact ⟨⟨asserts, restAssert⟩, restAgrees⟩

theorem Agrees.purgeLoop (now : I64) :
    ∀ (buckets : List (I64 × List ProofKey))
      (ascending : buckets.Pairwise (fun left right => left.1 < right.1))
      (state : State), state.Agrees buckets →
      PurgeLoopAsserts now state buckets ∧
        (purgeLoop now state buckets ascending).Agrees
          (purgeLoop now state buckets ascending).byRemoval.entries := by
  intro buckets
  induction buckets with
  | nil =>
      intro ascending state agrees
      exact ⟨trivial, agrees.1, agrees.2, agrees.3, agrees.4⟩
  | cons head rest ih =>
      obtain ⟨second, keys⟩ := head
      intro ascending state agrees
      by_cases live : now ≤ second
      · rw [State.purgeLoop, if_pos live]
        refine ⟨fun expired => absurd live (not_le.mpr expired), ?_⟩
        exact ⟨agrees.1, agrees.2, agrees.3, agrees.4⟩
      · rw [State.purgeLoop, if_neg live]
        obtain ⟨asserts, expired⟩ := agrees.expireAll ascending
        obtain ⟨restAsserts, restAgrees⟩ := ih ascending.tail _ expired
        exact ⟨fun _ => ⟨asserts, restAsserts⟩, restAgrees⟩

/-- What every loop body keeps, a purge keeps. -/
theorem purge_keeps {Property : State → Prop}
    (expireKeeps : ∀ state key, Property state → Property (state.expire key))
    (indexFree : ∀ state byRemoval, Property state →
      Property { state with byRemoval })
    {state : State} (holds : Property state) (now : I64) :
    Property (state.purge now) := by
  have folded : ∀ (keys : List ProofKey) (state : State), Property state →
      Property (keys.foldl expire state) := by
    intro keys
    induction keys with
    | nil =>
        intro state holds
        exact holds
    | cons key keys ih =>
        intro state holds
        exact ih _ (expireKeeps state key holds)
  have looped : ∀ (buckets : List (I64 × List ProofKey))
      (ascending : buckets.Pairwise (fun left right => left.1 < right.1))
      (state : State), Property state →
      Property (purgeLoop now state buckets ascending) := by
    intro buckets
    induction buckets with
    | nil =>
        intro ascending state holds
        exact indexFree state _ holds
    | cons head rest ih =>
        obtain ⟨second, keys⟩ := head
        intro ascending state holds
        rw [State.purgeLoop]
        split
        · exact indexFree state _ holds
        · exact ih _ _ (folded keys state holds)
  exact looped _ _ state holds

theorem purgeLoop_byRemoval_subset (now : I64) :
    ∀ (buckets : List (I64 × List ProofKey))
      (ascending : buckets.Pairwise (fun left right => left.1 < right.1))
      (state : State),
      (purgeLoop now state buckets ascending).byRemoval.entries ⊆ buckets := by
  intro buckets
  induction buckets with
  | nil =>
      intro ascending state
      exact List.Subset.refl _
  | cons head rest ih =>
      obtain ⟨second, keys⟩ := head
      intro ascending state
      rw [State.purgeLoop]
      split
      · exact List.Subset.refl _
      · exact List.Subset.trans (ih _ _) (List.subset_cons_self _ _)

theorem expire_length_le (state : State) (key : ProofKey) :
    (state.expire key).entries.entries.length ≤
      state.entries.entries.length := by
  cases found : state.entries.lookup key with
  | none => simp [expire, found]
  | some entry =>
      have permuted := (perm_cons_erase state.entries found).length_eq
      simp only [expire, found]
      rw [permuted]
      exact Nat.le_succ _

theorem expire_withinQuota {state : State} (key : ProofKey) {quota : Nat} :
    (state.keys.WithinQuota quota →
        (state.expire key).keys.WithinQuota quota) ∧
      (state.subjects.WithinQuota quota →
        (state.expire key).subjects.WithinQuota quota) := by
  cases found : state.entries.lookup key with
  | none => simp [expire, found]
  | some entry =>
      simp only [expire, found]
      exact ⟨fun within => within.release _ _, fun within => within.release _ _⟩

end State

namespace Represented

variable {store : InMemoryReplayStore} {state : State}

theorem default (store : InMemoryReplayStore) :
    Represented store State.default where
  agrees :=
    { indexed := State.indexed_default
      distinct := by simp [State.default, OrderedMap.empty]
      keysCount :=
        { heapOf_eq := by simp [State.default, Owners.heapOf, liveRemovals]
          notEmpty := by simp [State.default] }
      subjectsCount :=
        { heapOf_eq := by simp [State.default, Owners.heapOf, liveRemovals]
          notEmpty := by simp [State.default] } }
  bucketsFilled := by simp [State.default, OrderedMap.empty]
  withinCapacity := by simp [State.default]
  keysWithinQuota := by simp [State.default, Owners.WithinQuota]
  subjectsWithinQuota := by simp [State.default, Owners.WithinQuota]

theorem purgeAsserts (represented : Represented store state) (now : I64) :
    state.PurgeAsserts now :=
  (State.Agrees.purgeLoop now _ state.byRemoval.ascending state
    represented.agrees).1

theorem purge (represented : Represented store state) (now : I64) :
    Represented store (state.purge now) where
  agrees :=
    (State.Agrees.purgeLoop now _ _ state represented.agrees).2
  bucketsFilled := by
    intro bucket member
    exact represented.bucketsFilled bucket
      (State.purgeLoop_byRemoval_subset now _ _ state member)
  withinCapacity := by
    apply @State.purge_keeps
      (fun state => state.entries.entries.length ≤ store.capacity)
    · intro state key within
      exact (state.expire_length_le key).trans within
    · intro state byRemoval within
      exact within
    · exact represented.withinCapacity
  keysWithinQuota := by
    apply @State.purge_keeps
      (fun state => state.keys.WithinQuota store.perKeyQuota)
    · intro state key
      exact (State.expire_withinQuota key).1
    · intro state byRemoval within
      exact within
    · exact represented.keysWithinQuota
  subjectsWithinQuota := by
    apply @State.purge_keeps
      (fun state => state.subjects.WithinQuota store.perSubjectQuota)
    · intro state key
      exact (State.expire_withinQuota key).2
    · intro state byRemoval within
      exact within
    · exact represented.subjectsWithinQuota

/-- The buckets of a freshly extended index. -/
theorem bucket_of_insertFresh {entry : NewProof}
    {bucket : I64 × List ProofKey}
    (member : bucket ∈
      (InMemoryReplayStore.insertFresh state entry).byRemoval.entries) :
    bucket ∈ state.byRemoval.entries ∨
      ∃ old, bucket.2 = old ++ [entry.key] ∧
        (old = [] ∨ (bucket.1, old) ∈ state.byRemoval.entries) := by
  obtain ⟨second, keys⟩ := bucket
  rw [InMemoryReplayStore.mem_insertFresh_byRemoval] at member
  split at member
  · refine .inr ⟨_, member, ?_⟩
    cases found : state.byRemoval.get? second with
    | none => exact .inl rfl
    | some old => exact .inr (OrderedMap.mem_entries_iff.mpr found)
  · exact .inl member

/-- The entry that a fresh record stores. -/
def stored (entry : NewProof) : Entry where
  subject := entry.subject
  jkt := entry.jkt
  removeAt := max entry.expiresAt entry.followUpDeadline
  followUpDeadline := entry.followUpDeadline
  followUpDigest := entry.followUpDigest
  redeemed := false

theorem insertFresh_eq (state : State) (entry : NewProof) :
    InMemoryReplayStore.insertFresh state entry =
      { keys := addOwner state.keys (stored entry).jkt (stored entry).removeAt
        subjects := addOwner state.subjects (stored entry).subject
          (stored entry).removeAt
        byRemoval := state.byRemoval.upsert (stored entry).removeAt []
          (· ++ [entry.key])
        entries := state.entries.insert entry.key (stored entry) } := rfl

theorem insertFresh (represented : Represented store state)
    (validated : store.Validated) {entry : NewProof} {now : I64}
    (admits : store.Admits state entry now) :
    Represented store (InMemoryReplayStore.insertFresh state entry) where
  agrees :=
    { indexed :=
        InMemoryReplayStore.insertFresh_indexed represented.agrees.indexed
          admits.absent
      distinct := by
        intro bucket member
        rcases bucket_of_insertFresh member with
          old | ⟨old, extended, empty | found⟩
        · exact represented.agrees.distinct bucket old
        · rw [extended, empty]
          simp
        · rw [extended]
          refine List.Nodup.append (represented.agrees.distinct _ found)
            (by simp) ?_
          intro key inOld isNew
          rw [List.mem_singleton.mp isNew] at inOld
          obtain ⟨stored, storedFound, _⟩ :=
            represented.agrees.indexed.entryOfBucket _ found _ inOld
          rw [admits.absent] at storedFound
          cases storedFound
      keysCount := by
        rw [insertFresh_eq]
        exact represented.agrees.keysCount.add admits.absent
      subjectsCount := by
        rw [insertFresh_eq]
        exact represented.agrees.subjectsCount.add admits.absent }
  bucketsFilled := by
    intro bucket member
    rcases bucket_of_insertFresh member with old | ⟨old, extended, _⟩
    · exact represented.bucketsFilled bucket old
    · rw [extended]
      simp
  withinCapacity := by
    have inserted :
        (InMemoryReplayStore.insertFresh state entry).entries.entries.length =
          (state.entries.erase entry.key).entries.length + 1 := rfl
    rw [inserted, erase_of_absent state.entries admits.absent]
    exact admits.room
  keysWithinQuota :=
    represented.keysWithinQuota.add validated.perKeyQuota admits.keyAllowed _
  subjectsWithinQuota :=
    represented.subjectsWithinQuota.add validated.perSubjectQuota
      admits.subjectAllowed _

theorem record (represented : Represented store state)
    (validated : store.Validated) (entry : NewProof) (now : I64) :
    Represented store (store.record state entry now).1 := by
  rcases store.record_cases state entry now with
    ⟨admits, recorded⟩ | ⟨outcome, _, refused⟩
  · rw [recorded]
    exact (represented.purge now).insertFresh validated admits
  · rw [refused]
    exact represented.purge now

theorem redeemFollowUp (represented : Represented store state)
    (key : ProofKey) (proofDigest : Vector UInt8 32) (now : I64) :
    Represented store
      (InMemoryReplayStore.redeemFollowUp state key proofDigest now).1 := by
  have purged := represented.purge now
  have indexed := InMemoryReplayStore.redeemFollowUp_indexed
    represented.agrees.indexed key proofDigest now
  rcases InMemoryReplayStore.redeemFollowUp_cases state key proofDigest now
    with ⟨entry, found, _, _, _, redeemed⟩ | refused
  · rw [redeemed] at indexed ⊢
    refine
      { agrees :=
          { indexed
            distinct := purged.agrees.distinct
            keysCount := purged.agrees.keysCount.replace found rfl rfl
            subjectsCount := purged.agrees.subjectsCount.replace found rfl rfl }
        bucketsFilled := purged.bucketsFilled
        withinCapacity := ?_
        keysWithinQuota := purged.keysWithinQuota
        subjectsWithinQuota := purged.subjectsWithinQuota }
    -- The flagged entry takes the place of the one it was read from.
    have permuted := (perm_cons_erase _ found).length_eq
    have within := purged.withinCapacity
    rw [permuted] at within
    exact within
  · rw [refused]
    exact purged

end Represented

/-- One call on the replay store, with the clock value of its caller. -/
inductive StoreCall where
  | record (entry : NewProof) (now : I64)
  | redeemFollowUp (key : ProofKey) (proofDigest : Vector UInt8 32)
      (now : I64)
deriving DecidableEq

def StoreCall.now : StoreCall → I64
  | .record _ now => now
  | .redeemFollowUp _ _ now => now

namespace InMemoryReplayStore

/-- The state that one call leaves. -/
def step (store : InMemoryReplayStore) (state : State) :
    StoreCall → Option State
  | .record entry now => some (store.record state entry now).1
  | .redeemFollowUp key proofDigest now =>
      some (redeemFollowUp state key proofDigest now).1

theorem step_represented {store : InMemoryReplayStore}
    (validated : store.Validated) {state next : State}
    (represented : Represented store state) (call : StoreCall)
    (stepped : store.step state call = some next) :
    Represented store next := by
  cases call with
  | record entry now =>
      cases stepped
      exact represented.record validated entry now
  | redeemFollowUp key proofDigest now =>
      cases stepped
      exact represented.redeemFollowUp key proofDigest now

theorem run_represented {store : InMemoryReplayStore}
    (validated : store.Validated) {state : State}
    (represented : Represented store state) (calls : List StoreCall) :
    EveryStep store.step (fun state call => state.PurgeAsserts call.now)
        state calls ∧
      ∃ final, runFrom store.step state calls = some final ∧
        Represented store final := by
  induction calls generalizing state with
  | nil => exact ⟨trivial, state, rfl, represented⟩
  | cons call rest ih =>
      have stepped : ∃ next, store.step state call = some next := by
        cases call <;> exact ⟨_, rfl⟩
      obtain ⟨next, stepped⟩ := stepped
      obtain ⟨asserts, final, run, kept⟩ :=
        ih (step_represented validated represented call stepped)
      refine ⟨⟨represented.purgeAsserts call.now, ?_⟩, final,
        runFrom_cons.mpr ⟨next, stepped, run⟩, kept⟩
      intro other otherStepped
      rw [stepped] at otherStepped
      cases otherStepped
      exact asserts

/-- Every sequence of calls on an empty store passes the debug assertions of
its releases and keeps the representation invariant. -/
theorem calls_keep_representation (store : InMemoryReplayStore)
    (validated : store.Validated) (calls : List StoreCall) :
    EveryStep store.step (fun state call => state.PurgeAsserts call.now)
        State.default calls ∧
      ∃ final, runFrom store.step State.default calls = some final ∧
        Represented store final :=
  run_represented validated (Represented.default store) calls

/-- The limits of the default configuration. -/
def defaultLimits : InMemoryReplayStore where
  capacity := 200000
  perKeyQuota := 1000
  perSubjectQuota := 2000

/-- A proof whose follow-up is redeemed by a call with an earlier clock, and
a call that removes it. -/
def steppedBackCalls : List StoreCall :=
  let proof : NewProof :=
    { key := ⟨Vector.replicate 16 1⟩
      subject := Vector.replicate 16 2
      jkt := Vector.replicate 16 3
      expiresAt := 160
      followUpDeadline := 190
      followUpDigest := Vector.replicate 32 4 }
  [.record proof 160,
    .redeemFollowUp proof.key proof.followUpDigest 100,
    .record proof 191]

theorem steppedBackCalls_keep_representation :
    EveryStep defaultLimits.step
        (fun state call => state.PurgeAsserts call.now)
        State.default steppedBackCalls ∧
      ∃ final,
        runFrom defaultLimits.step State.default steppedBackCalls =
          some final ∧
        Represented defaultLimits final :=
  calls_keep_representation defaultLimits
    ⟨by decide, by decide, by decide, by decide, by decide⟩ steppedBackCalls

end InMemoryReplayStore

end Paigasus.Dpop
