import Paigasus.Outbox.Store

/-!
# The life cycle of an outbox row

Rows are live, published or parked, and every writer keeps to its own rows:
the locks of open transactions never overlap, so what a transaction has read
is what it changes at its commit.
-/

namespace Paigasus.Outbox

open Foundation Core

/-- The rows a cause may change. -/
def Cause.Permits (row : OutboxRow) : Cause → Prop
  | replay => row.parked = true
  | discard => row.parked = true
  | sweep .published now policy =>
      policy.enabled = true ∧ policy.publishedDays ≠ 0 ∧
        ∃ instant, row.publishedAt = some instant ∧
          instant < now - policy.publishedDays * microsPerDay
  | sweep .parked now policy =>
      policy.enabled = true ∧ policy.parkedDays ≠ 0 ∧ row.parked = true ∧
        ∃ instant, row.parkedAt = some instant ∧
          instant < now - policy.parkedDays * microsPerDay

/-- What an open transaction knows about the rows it holds. -/
def Txn.Justified (acknowledged : List Uuid) : Txn → Prop
  | .tick mode processed remaining =>
      (∀ row ∈ processed.map Attempt.row ++ remaining,
        drainable mode row = true) ∧
      ∀ attempt ∈ processed, attempt.failed = false →
        attempt.row.id ∈ acknowledged
  | .change cause rows => ∀ row ∈ rows, cause.Permits row

namespace World

/-- Open transactions hold disjoint sets of committed rows. -/
structure Held (world : World) : Prop where
  uniqueIds : (world.rows.map OutboxRow.id).Nodup
  exclusive : ∀ id txn other, (id, txn) ∈ world.locks →
    (id, other) ∈ world.locks → txn = other
  held : ∀ txn state, world.txns txn = some state → ∀ row ∈ state.rows,
    row ∈ world.rows ∧ (row.id, txn) ∈ world.locks
  heldOnce : ∀ txn state, world.txns txn = some state →
    (state.rows.map OutboxRow.id).Nodup
  justified : ∀ txn state, world.txns txn = some state →
    state.Justified world.acknowledged

/-- The invariant of the rows and of their history. -/
structure Lifecycle (relay : OutboxRelay) (world : World) : Prop where
  parked : ∀ row ∈ world.rows, row.parked = true →
    row.publishedAt = none ∧ row.parkedAt.isSome = true
  live : ∀ row ∈ world.rows, row.parked = false → row.publishedAt = none →
    row.attempts < relay.maxAttempts
  published : ∀ row ∈ world.rows, row.publishedAt.isSome = true →
    row.id ∈ world.acknowledged
  deletions : ∀ deletion ∈ world.deleted,
    deletion.cause ≠ .replay ∧ deletion.cause.Permits deletion.row
  accounted : ∀ id ∈ world.enqueued, (∃ row ∈ world.rows, row.id = id) ∨
    ∃ deletion ∈ world.deleted, deletion.row.id = id
  attempts : ∀ row ∈ world.rows, world.failures row.id = row.attempts
  cadence : ∀ row ∈ world.rows,
    world.failures row.id ≤ world.allTicks row.id + 1

variable {relay : OutboxRelay} {world next : World}

theorem held_initial : initial.Held where
  uniqueIds := by simp [initial]
  exclusive := by simp [initial]
  held := by simp [initial]
  heldOnce := by simp [initial]
  justified := by simp [initial]

theorem lifecycle_initial (relay : OutboxRelay) : initial.Lifecycle relay where
  parked := by simp [initial]
  live := by simp [initial]
  published := by simp [initial]
  deletions := by simp [initial]
  accounted := by simp [initial]
  attempts := by simp [initial]
  cadence := by simp [initial]

theorem Held.row_ext (held : world.Held) {left right : OutboxRow}
    (leftMember : left ∈ world.rows) (rightMember : right ∈ world.rows)
    (sameId : left.id = right.id) : left = right :=
  List.inj_on_of_nodup_map held.uniqueIds leftMember rightMember sameId

theorem mem_selectSkipLocked {condition : OutboxRow → Bool} {limit : Nat}
    {row : OutboxRow}
    (member : row ∈ world.selectSkipLocked condition limit) :
    row ∈ world.rows ∧ condition row = true ∧
      world.locked row.id = false := by
  have sorted := List.mem_of_mem_take member
  rw [List.mem_insertionSort, List.mem_filter] at sorted
  simpa using sorted

theorem selectSkipLocked_nodup (held : world.Held)
    (condition : OutboxRow → Bool) (limit : Nat) :
    ((world.selectSkipLocked condition limit).map OutboxRow.id).Nodup := by
  have filtered : ((world.rows.filter fun row =>
      condition row && !world.locked row.id).map OutboxRow.id).Nodup :=
    held.uniqueIds.sublist (List.filter_sublist.map OutboxRow.id)
  have sorted := ((List.perm_insertionSort
    (fun left right : OutboxRow => left.id.value ≤ right.id.value)
    (world.rows.filter fun row =>
      condition row && !world.locked row.id)).map OutboxRow.id).nodup_iff.mpr
    filtered
  exact sorted.sublist ((List.take_sublist limit _).map OutboxRow.id)

theorem not_mem_locks {id : Uuid} {txn : Nat}
    (unlocked : world.locked id = false) : (id, txn) ∉ world.locks := by
  intro member
  have isLocked : world.locked id = true :=
    List.any_eq_true.mpr ⟨(id, txn), member, by simp⟩
  rw [unlocked] at isLocked
  cases isLocked

/-- A new transaction on unlocked rows. -/
theorem Held.openTxn {txn : Nat} {state : Txn} (held : world.Held)
    (free : ∀ row ∈ state.rows,
      row ∈ world.rows ∧ world.locked row.id = false)
    (once : (state.rows.map OutboxRow.id).Nodup)
    (justified : state.Justified world.acknowledged)
    (opened : world.openTxn txn state = some next) :
    next.Held ∧ next.rows = world.rows ∧
      next.acknowledged = world.acknowledged ∧
      next.deleted = world.deleted ∧ next.enqueued = world.enqueued ∧
      next.failures = world.failures ∧ next.allTicks = world.allTicks := by
  unfold World.openTxn at opened
  split at opened
  · cases opened
  · cases opened
    refine ⟨?_, rfl, rfl, rfl, rfl, rfl, rfl⟩
    constructor
    · exact held.uniqueIds
    · intro id first second firstLock secondLock
      -- A new lock is on a row that nobody held.
      rcases List.mem_append.mp firstLock with firstNew | firstOld <;>
        rcases List.mem_append.mp secondLock with secondNew | secondOld
      · obtain ⟨_, _, firstEq⟩ := List.mem_map.mp firstNew
        obtain ⟨_, _, secondEq⟩ := List.mem_map.mp secondNew
        exact (Prod.mk.inj firstEq).2.symm.trans (Prod.mk.inj secondEq).2
      · obtain ⟨row, member, firstEq⟩ := List.mem_map.mp firstNew
        rw [← (Prod.mk.inj firstEq).1] at secondOld
        exact absurd secondOld (not_mem_locks (free row member).2)
      · obtain ⟨row, member, secondEq⟩ := List.mem_map.mp secondNew
        rw [← (Prod.mk.inj secondEq).1] at firstOld
        exact absurd firstOld (not_mem_locks (free row member).2)
      · exact held.exclusive id first second firstOld secondOld
    · intro other otherState waiting row member
      by_cases same : other = txn
      · subst same
        simp only [Function.update_self, Option.some.injEq] at waiting
        subst waiting
        refine ⟨(free row member).1, List.mem_append_left _ ?_⟩
        exact List.mem_map.mpr ⟨row, member, rfl⟩
      · simp only [Function.update_of_ne same] at waiting
        obtain ⟨stored, lock⟩ := held.held other otherState waiting row member
        exact ⟨stored, List.mem_append_right _ lock⟩
    · intro other otherState waiting
      by_cases same : other = txn
      · subst same
        simp only [Function.update_self, Option.some.injEq] at waiting
        subst waiting
        exact once
      · simp only [Function.update_of_ne same] at waiting
        exact held.heldOnce other otherState waiting
    · intro other otherState waiting
      by_cases same : other = txn
      · subst same
        simp only [Function.update_self, Option.some.injEq] at waiting
        subst waiting
        exact justified
      · simp only [Function.update_of_ne same] at waiting
        exact held.justified other otherState waiting

/-- The end of a transaction whose writes leave the rows of the others alone. -/
theorem Held.closeTxn {txn : Nat} {changed : World} (held : world.Held)
    (txns : changed.txns = world.txns) (locks : changed.locks = world.locks)
    (acknowledged : changed.acknowledged = world.acknowledged)
    (uniqueIds : (changed.rows.map OutboxRow.id).Nodup)
    (others : ∀ row ∈ world.rows, (row.id, txn) ∉ world.locks →
      row ∈ changed.rows) :
    (changed.closeTxn txn).Held := by
  constructor
  · exact uniqueIds
  · intro id first second firstLock secondLock
    have firstOld := List.mem_of_mem_filter firstLock
    have secondOld := List.mem_of_mem_filter secondLock
    rw [locks] at firstOld secondOld
    exact held.exclusive id first second firstOld secondOld
  · intro other state waiting row member
    by_cases same : other = txn
    · subst same
      simp [World.closeTxn] at waiting
    · simp only [World.closeTxn, Function.update_of_ne same, txns] at waiting
      obtain ⟨stored, lock⟩ := held.held other state waiting row member
      refine ⟨?_, ?_⟩
      · apply others row stored
        intro ownLock
        exact same (held.exclusive row.id other txn lock ownLock)
      · simp only [World.closeTxn, locks]
        exact List.mem_filter.mpr ⟨lock, by simpa using same⟩
  · intro other state waiting
    by_cases same : other = txn
    · subst same
      simp [World.closeTxn] at waiting
    · simp only [World.closeTxn, Function.update_of_ne same, txns] at waiting
      exact held.heldOnce other state waiting
  · intro other state waiting
    by_cases same : other = txn
    · subst same
      simp [World.closeTxn] at waiting
    · simp only [World.closeTxn, Function.update_of_ne same, txns] at waiting
      simp only [World.closeTxn, acknowledged]
      exact held.justified other state waiting

theorem drainable_spec {mode : TickMode} {row : OutboxRow}
    (drained : drainable mode row = true) :
    row.publishedAt = none ∧ row.parked = false ∧
      (mode = .all ∨ row.attempts = 0) := by
  simpa [drainable, and_assoc] using drained

/-- The row versions that a processed attempt can write. -/
theorem update_cases (relay : OutboxRelay) (attempt : Attempt) :
    (∃ now, attempt.failed = false ∧
      relay.update attempt = { attempt.row with publishedAt := some now }) ∨
    (∃ reason, attempt.failed = true ∧
      attempt.row.attempts + 1 < relay.maxAttempts ∧
      relay.update attempt =
        { attempt.row with
          attempts := attempt.row.attempts + 1, lastError := some reason }) ∨
    ∃ reason now, attempt.failed = true ∧
      relay.update attempt =
        { attempt.row with
          attempts := attempt.row.attempts + 1
          lastError := some reason
          parked := true
          parkedAt := some now } := by
  obtain ⟨row, outcome⟩ := attempt
  cases outcome with
  | published now => exact .inl ⟨now, rfl, rfl⟩
  | failed reason now =>
      by_cases atLimit : relay.maxAttempts ≤ row.attempts + 1
      · exact .inr (.inr ⟨truncateError reason, now, rfl, by
          simp [OutboxRelay.update, atLimit]⟩)
      · exact .inr (.inl ⟨truncateError reason, rfl, Nat.lt_of_not_le atLimit, by
          simp [OutboxRelay.update, atLimit]⟩)

@[simp]
theorem update_id (relay : OutboxRelay) (attempt : Attempt) :
    (relay.update attempt).id = attempt.row.id := by
  rcases update_cases relay attempt with
    ⟨_, _, same⟩ | ⟨_, _, _, same⟩ | ⟨_, _, _, same⟩ <;> rw [same]

/-- A tick writes a row as it has locked it, or leaves it alone. -/
theorem writeRow_cases (relay : OutboxRelay) {processed : List Attempt}
    (held : world.Held)
    (stored : ∀ attempt ∈ processed, attempt.row ∈ world.rows)
    {row : OutboxRow} (member : row ∈ world.rows) :
    (writeRow relay processed row = row ∧
      ∀ attempt ∈ processed, attempt.row.id ≠ row.id) ∨
    ∃ attempt ∈ processed, attempt.row = row ∧
      writeRow relay processed row = relay.update attempt := by
  cases found : processed.find? fun attempt => decide (attempt.row.id = row.id) with
  | none =>
      refine .inl ⟨by simp [writeRow, found], ?_⟩
      intro attempt attempted sameId
      have absent := List.find?_eq_none.mp found attempt attempted
      simp [sameId] at absent
  | some attempt =>
      have attempted := List.mem_of_find?_eq_some found
      have sameId : attempt.row.id = row.id := by
        simpa using List.find?_some found
      refine .inr ⟨attempt, attempted, ?_, by simp [writeRow, found]⟩
      exact held.row_ext (stored attempt attempted) member sameId

theorem writeRow_id (processed : List Attempt) (row : OutboxRow) :
    (writeRow relay processed row).id = row.id := by
  unfold writeRow
  split
  · rename_i attempt found
    rw [update_id]
    simpa using List.find?_some found
  · rfl

theorem Held.commitTick {txn : Nat} {mode : TickMode}
    {processed : List Attempt} (held : world.Held)
    (waiting : world.txns txn = some (.tick mode processed [])) :
    ((world.commitTick relay mode processed).closeTxn txn).Held := by
  have owned : ∀ attempt ∈ processed,
      attempt.row ∈ world.rows ∧ (attempt.row.id, txn) ∈ world.locks := by
    intro attempt member
    apply held.held txn _ waiting
    exact List.mem_append_left _ (List.mem_map.mpr ⟨attempt, member, rfl⟩)
  refine held.closeTxn rfl rfl rfl ?_ ?_
  · have sameIds : ((world.rows.map (writeRow relay processed)).map
        OutboxRow.id) = world.rows.map OutboxRow.id := by
      rw [List.map_map]
      exact List.map_congr_left fun row _ => writeRow_id processed row
    rw [World.commitTick, sameIds]
    exact held.uniqueIds
  · intro row member notOwned
    refine List.mem_map.mpr ⟨row, member, ?_⟩
    rcases writeRow_cases relay held (fun attempt attempted =>
      (owned attempt attempted).1) member with
      ⟨same, _⟩ | ⟨attempt, attempted, sameRow, _⟩
    · exact same
    · exfalso
      apply notOwned
      rw [← sameRow]
      exact (owned attempt attempted).2

theorem Held.commitChange {txn : Nat} {cause : Cause}
    {rows : List OutboxRow} (held : world.Held)
    (waiting : world.txns txn = some (.change cause rows)) :
    ((world.commitChange cause rows).closeTxn txn).Held := by
  have owned : ∀ row ∈ rows, (row.id, txn) ∈ world.locks := by
    intro row member
    exact (held.held txn _ waiting row member).2
  have untouched : ∀ row ∈ world.rows, (row.id, txn) ∉ world.locks →
      (rows.any fun changed => decide (changed.id = row.id)) = false := by
    intro row _ notOwned
    rw [List.any_eq_false]
    intro changed member sameId
    apply notOwned
    rw [← of_decide_eq_true sameId]
    exact owned changed member
  cases cause with
  | replay =>
      refine held.closeTxn rfl rfl rfl ?_ ?_
      · have sameIds : ((world.rows.map fun row =>
            if rows.any fun changed => decide (changed.id = row.id)
            then replayed row else row).map OutboxRow.id) =
            world.rows.map OutboxRow.id := by
          rw [List.map_map]
          apply List.map_congr_left
          intro row _
          simp only [Function.comp]
          split <;> rfl
        simp only [World.commitChange]
        rw [sameIds]
        exact held.uniqueIds
      · intro row member notOwned
        refine List.mem_map.mpr ⟨row, member, ?_⟩
        simp [untouched row member notOwned]
  | discard =>
      refine held.closeTxn rfl rfl rfl ?_ ?_
      · exact held.uniqueIds.sublist (List.filter_sublist.map OutboxRow.id)
      · intro row member notOwned
        exact List.mem_filter.mpr ⟨member, by
          simp [untouched row member notOwned]⟩
  | sweep kind now policy =>
      refine held.closeTxn rfl rfl rfl ?_ ?_
      · exact held.uniqueIds.sublist (List.filter_sublist.map OutboxRow.id)
      · intro row member notOwned
        exact List.mem_filter.mpr ⟨member, by
          simp [untouched row member notOwned]⟩

/-- Opening and closing a transaction changes no row and no history. -/
theorem Lifecycle.congr (lifecycle : world.Lifecycle relay)
    (rows : next.rows = world.rows)
    (acknowledged : next.acknowledged = world.acknowledged)
    (deleted : next.deleted = world.deleted)
    (enqueued : next.enqueued = world.enqueued)
    (failures : next.failures = world.failures)
    (allTicks : next.allTicks = world.allTicks) :
    next.Lifecycle relay := by
  constructor
  · rw [rows]
    exact lifecycle.parked
  · rw [rows]
    exact lifecycle.live
  · rw [rows, acknowledged]
    exact lifecycle.published
  · rw [deleted]
    exact lifecycle.deletions
  · rw [enqueued, rows, deleted]
    exact lifecycle.accounted
  · rw [rows, failures]
    exact lifecycle.attempts
  · rw [rows, failures, allTicks]
    exact lifecycle.cadence

/-- The processed attempt of a row decides whether its failure is counted. -/
theorem any_failed_iff {processed : List Attempt} {attempt : Attempt}
    (once : (processed.map fun attempt => attempt.row.id).Nodup)
    (member : attempt ∈ processed) :
    (processed.any fun other =>
      decide (other.row.id = attempt.row.id) && other.failed) =
      attempt.failed := by
  cases failed : attempt.failed with
  | true => exact List.any_eq_true.mpr ⟨attempt, member, by simp [failed]⟩
  | false =>
      rw [List.any_eq_false]
      intro other otherMember counted
      obtain ⟨sameId, otherFailed⟩ := Bool.and_eq_true_iff.mp counted
      have same : other = attempt :=
        List.inj_on_of_nodup_map once otherMember member
          (of_decide_eq_true sameId)
      rw [same, failed] at otherFailed
      cases otherFailed

/-- The counters of a row at the commit of a tick that processed it. -/
theorem commitTick_counts {mode : TickMode} {processed : List Attempt}
    {attempt : Attempt}
    (once : (processed.map fun attempt => attempt.row.id).Nodup)
    (member : attempt ∈ processed) :
    (world.commitTick relay mode processed).failures attempt.row.id =
        world.failures attempt.row.id +
          (if attempt.failed then 1 else 0) ∧
      (world.commitTick relay mode processed).allTicks attempt.row.id =
        world.allTicks attempt.row.id + (if mode = .all then 1 else 0) := by
  have selected : (processed.any fun other =>
      decide (other.row.id = attempt.row.id)) = true :=
    List.any_eq_true.mpr ⟨attempt, member, by simp⟩
  constructor
  · simp only [commitTick, any_failed_iff once member]
  · simp only [commitTick, selected, Bool.and_true, decide_eq_true_eq]

theorem commitTick_counts_other {mode : TickMode} {processed : List Attempt}
    {id : Uuid} (other : ∀ attempt ∈ processed, attempt.row.id ≠ id) :
    (world.commitTick relay mode processed).failures id = world.failures id ∧
      (world.commitTick relay mode processed).allTicks id =
        world.allTicks id := by
  have notSelected : (processed.any fun attempt =>
      decide (attempt.row.id = id)) = false := by
    rw [List.any_eq_false]
    intro attempt member same
    exact other attempt member (of_decide_eq_true same)
  have notFailed : (processed.any fun attempt =>
      decide (attempt.row.id = id) && attempt.failed) = false := by
    rw [List.any_eq_false]
    intro attempt member counted
    exact other attempt member
      (of_decide_eq_true (Bool.and_eq_true_iff.mp counted).1)
  simp only [commitTick, notSelected, notFailed, Bool.and_false,
    Bool.false_eq_true, if_false, Nat.add_zero, and_self]

theorem Lifecycle.commitTick {txn : Nat} {mode : TickMode}
    {processed : List Attempt} (held : world.Held)
    (lifecycle : world.Lifecycle relay)
    (waiting : world.txns txn = some (.tick mode processed [])) :
    (world.commitTick relay mode processed).Lifecycle relay := by
  obtain ⟨drained, acknowledged⟩ := held.justified txn _ waiting
  have stored : ∀ attempt ∈ processed, attempt.row ∈ world.rows := by
    intro attempt member
    apply fun row => (held.held txn _ waiting _ row).1
    exact List.mem_append_left _ (List.mem_map.mpr ⟨attempt, member, rfl⟩)
  have once : (processed.map fun attempt => attempt.row.id).Nodup := by
    have heldOnce := held.heldOnce txn _ waiting
    simpa [Txn.rows, Function.comp_def] using heldOnce
  have drainedRow : ∀ attempt ∈ processed,
      attempt.row.publishedAt = none ∧ attempt.row.parked = false ∧
        (mode = .all ∨ attempt.row.attempts = 0) := by
    intro attempt member
    apply drainable_spec
    apply drained
    exact List.mem_append_left _ (List.mem_map.mpr ⟨attempt, member, rfl⟩)
  constructor
  · intro row member isParked
    obtain ⟨old, oldMember, rfl⟩ := List.mem_map.mp member
    rcases writeRow_cases relay held stored oldMember with
      ⟨same, _⟩ | ⟨attempt, attempted, sameRow, written⟩
    · rw [same] at isParked ⊢
      exact lifecycle.parked old oldMember isParked
    · obtain ⟨unpublished, unparked, _⟩ := drainedRow attempt attempted
      rw [written] at isParked ⊢
      rcases update_cases relay attempt with
        ⟨now, _, same⟩ | ⟨reason, _, _, same⟩ | ⟨reason, now, _, same⟩
      · rw [same] at isParked
        simp [unparked] at isParked
      · rw [same] at isParked
        simp [unparked] at isParked
      · rw [same]
        exact ⟨unpublished, rfl⟩
  · intro row member notParked notPublished
    obtain ⟨old, oldMember, rfl⟩ := List.mem_map.mp member
    rcases writeRow_cases relay held stored oldMember with
      ⟨same, _⟩ | ⟨attempt, attempted, sameRow, written⟩
    · rw [same] at notParked notPublished ⊢
      exact lifecycle.live old oldMember notParked notPublished
    · rw [written] at notParked notPublished ⊢
      rcases update_cases relay attempt with
        ⟨now, _, same⟩ | ⟨reason, _, below, same⟩ | ⟨reason, now, _, same⟩
      · rw [same] at notPublished
        cases notPublished
      · rw [same]
        exact below
      · rw [same] at notParked
        cases notParked
  · intro row member isPublished
    obtain ⟨old, oldMember, rfl⟩ := List.mem_map.mp member
    rw [writeRow_id]
    rcases writeRow_cases relay held stored oldMember with
      ⟨same, _⟩ | ⟨attempt, attempted, sameRow, written⟩
    · rw [same] at isPublished
      exact lifecycle.published old oldMember isPublished
    · obtain ⟨unpublished, _, _⟩ := drainedRow attempt attempted
      rw [written] at isPublished
      rcases update_cases relay attempt with
        ⟨now, succeeded, same⟩ | ⟨reason, _, _, same⟩ | ⟨reason, now, _, same⟩
      · rw [← sameRow]
        exact acknowledged attempt attempted succeeded
      · rw [same] at isPublished
        simp [unpublished] at isPublished
      · rw [same] at isPublished
        simp [unpublished] at isPublished
  · exact lifecycle.deletions
  · intro id member
    rcases lifecycle.accounted id member with ⟨row, stored, sameId⟩ | deleted
    · refine .inl ⟨writeRow relay processed row,
        List.mem_map.mpr ⟨row, stored, rfl⟩, ?_⟩
      rw [writeRow_id]
      exact sameId
    · exact .inr deleted
  · intro row member
    obtain ⟨old, oldMember, rfl⟩ := List.mem_map.mp member
    rw [writeRow_id]
    have before := lifecycle.attempts old oldMember
    rcases writeRow_cases relay held stored oldMember with
      ⟨same, others⟩ | ⟨attempt, attempted, sameRow, written⟩
    · rw [same, (commitTick_counts_other others).1]
      exact before
    · subst sameRow
      rw [written, (commitTick_counts once attempted).1, before]
      rcases update_cases relay attempt with
        ⟨now, succeeded, same⟩ | ⟨reason, failed, _, same⟩ |
        ⟨reason, now, failed, same⟩
      · rw [same]
        simp [succeeded]
      · rw [same]
        simp [failed]
      · rw [same]
        simp [failed]
  · intro row member
    obtain ⟨old, oldMember, rfl⟩ := List.mem_map.mp member
    rw [writeRow_id]
    have before := lifecycle.cadence old oldMember
    rcases writeRow_cases relay held stored oldMember with
      ⟨_, others⟩ | ⟨attempt, attempted, sameRow, written⟩
    · rw [(commitTick_counts_other others).1, (commitTick_counts_other others).2]
      exact before
    · subst sameRow
      rw [(commitTick_counts once attempted).1,
        (commitTick_counts once attempted).2]
      obtain ⟨_, _, all | neverTried⟩ := drainedRow attempt attempted
      · simp only [all, if_true]
        split <;> omega
      · -- A fresh tick only selects a row without a failed attempt.
        rw [lifecycle.attempts attempt.row oldMember, neverTried]
        split <;> omega

/-- A row a change does not name keeps its version. -/
theorem mem_commitChange_of_not_named {cause : Cause} {rows : List OutboxRow}
    {row : OutboxRow} (member : row ∈ world.rows)
    (notNamed : ∀ changed ∈ rows, changed.id ≠ row.id) :
    row ∈ (world.commitChange cause rows).rows := by
  have untouched :
      (rows.any fun changed => decide (changed.id = row.id)) = false := by
    rw [List.any_eq_false]
    intro changed changedMember same
    exact notNamed changed changedMember (of_decide_eq_true same)
  cases cause with
  | replay => exact List.mem_map.mpr ⟨row, member, by simp [untouched]⟩
  | discard => exact List.mem_filter.mpr ⟨member, by simp [untouched]⟩
  | sweep kind now policy =>
      exact List.mem_filter.mpr ⟨member, by simp [untouched]⟩

theorem Lifecycle.replay {rows : List OutboxRow}
    (positive : 0 < relay.maxAttempts) (held : world.Held)
    (lifecycle : world.Lifecycle relay)
    (stored : ∀ row ∈ rows, row ∈ world.rows ∧ row.parked = true) :
    (world.commitChange .replay rows).Lifecycle relay := by
  -- Every row is replayed from its parked version or kept as it is.
  have cases : ∀ row ∈ (world.commitChange .replay rows).rows,
      (row ∈ world.rows ∧
        (rows.any fun changed => decide (changed.id = row.id)) = false) ∨
      ∃ old ∈ world.rows, old.parked = true ∧ row = replayed old ∧
        (rows.any fun changed => decide (changed.id = row.id)) = true := by
    intro row member
    obtain ⟨old, oldMember, isNew⟩ := List.mem_map.mp member
    cases changed : rows.any fun changed => decide (changed.id = old.id) with
    | true =>
        obtain ⟨target, targetMember, sameId⟩ := List.any_eq_true.mp changed
        obtain ⟨targetStored, targetParked⟩ := stored target targetMember
        have same : target = old :=
          held.row_ext targetStored oldMember (of_decide_eq_true sameId)
        simp only [changed, if_true] at isNew
        subst isNew
        exact .inr ⟨old, oldMember, same ▸ targetParked, rfl, changed⟩
    | false =>
        simp only [changed, Bool.false_eq_true, if_false] at isNew
        subst isNew
        exact .inl ⟨oldMember, changed⟩
  constructor
  · intro row member isParked
    rcases cases row member with ⟨old, _⟩ | ⟨old, _, _, rfl, _⟩
    · exact lifecycle.parked row old isParked
    · cases isParked
  · intro row member notParked notPublished
    rcases cases row member with ⟨old, _⟩ | ⟨old, _, _, rfl, _⟩
    · exact lifecycle.live row old notParked notPublished
    · exact positive
  · intro row member isPublished
    rcases cases row member with ⟨old, _⟩ | ⟨old, oldMember, _, rfl, _⟩
    · exact lifecycle.published row old isPublished
    · exact lifecycle.published old oldMember isPublished
  · exact lifecycle.deletions
  · intro id member
    rcases lifecycle.accounted id member with ⟨row, rowStored, sameId⟩ | deleted
    · refine .inl ⟨_, List.mem_map.mpr ⟨row, rowStored, rfl⟩, ?_⟩
      split <;> exact sameId
    · exact .inr deleted
  · intro row member
    rcases cases row member with ⟨old, unchanged⟩ | ⟨old, _, _, rfl, changed⟩
    · simp only [World.commitChange, unchanged, Bool.false_eq_true, if_false]
      exact lifecycle.attempts row old
    · simp only [World.commitChange, changed, if_true]
      rfl
  · intro row member
    rcases cases row member with ⟨old, unchanged⟩ | ⟨old, _, _, rfl, changed⟩
    · simp only [World.commitChange, unchanged, Bool.false_eq_true, if_false]
      exact lifecycle.cadence row old
    · simp only [World.commitChange, changed, if_true]
      omega

theorem Lifecycle.delete {cause : Cause} {rows : List OutboxRow}
    (lifecycle : world.Lifecycle relay) (isDelete : cause ≠ .replay)
    (permitted : ∀ row ∈ rows, cause.Permits row) :
    (world.commitChange cause rows).Lifecycle relay := by
  have kept : (world.commitChange cause rows).rows =
      world.rows.filter fun row =>
        !rows.any fun changed => decide (changed.id = row.id) := by
    cases cause with
    | replay => exact absurd rfl isDelete
    | discard => rfl
    | sweep kind now policy => rfl
  have deleted : (world.commitChange cause rows).deleted =
      rows.map (fun row => ⟨row, cause⟩) ++ world.deleted := by
    cases cause with
    | replay => exact absurd rfl isDelete
    | discard => rfl
    | sweep kind now policy => rfl
  have history : (world.commitChange cause rows).acknowledged =
        world.acknowledged ∧
      (world.commitChange cause rows).enqueued = world.enqueued ∧
      (world.commitChange cause rows).failures = world.failures ∧
      (world.commitChange cause rows).allTicks = world.allTicks := by
    cases cause with
    | replay => exact absurd rfl isDelete
    | discard => exact ⟨rfl, rfl, rfl, rfl⟩
    | sweep kind now policy => exact ⟨rfl, rfl, rfl, rfl⟩
  obtain ⟨acknowledged, enqueued, failures, allTicks⟩ := history
  have old : ∀ row ∈ (world.commitChange cause rows).rows,
      row ∈ world.rows := by
    intro row member
    rw [kept] at member
    exact List.mem_of_mem_filter member
  constructor
  · intro row member
    exact lifecycle.parked row (old row member)
  · intro row member
    exact lifecycle.live row (old row member)
  · intro row member
    rw [acknowledged]
    exact lifecycle.published row (old row member)
  · intro deletion member
    rw [deleted] at member
    rcases List.mem_append.mp member with new | before
    · obtain ⟨row, rowMember, rfl⟩ := List.mem_map.mp new
      exact ⟨isDelete, permitted row rowMember⟩
    · exact lifecycle.deletions deletion before
  · intro id member
    rw [enqueued] at member
    rw [kept, deleted]
    rcases lifecycle.accounted id member with
      ⟨row, stored, sameId⟩ | ⟨deletion, before, sameId⟩
    · cases changed : rows.any fun changed => decide (changed.id = row.id) with
      | true =>
          obtain ⟨target, targetMember, same⟩ := List.any_eq_true.mp changed
          exact .inr ⟨⟨target, cause⟩,
            List.mem_append_left _ (List.mem_map.mpr ⟨target, targetMember, rfl⟩),
            (of_decide_eq_true same).trans sameId⟩
      | false =>
          exact .inl ⟨row, List.mem_filter.mpr ⟨stored, by simp [changed]⟩, sameId⟩
    · exact .inr ⟨deletion, List.mem_append_right _ before, sameId⟩
  · intro row member
    rw [failures]
    exact lifecycle.attempts row (old row member)
  · intro row member
    rw [failures, allTicks]
    exact lifecycle.cadence row (old row member)

theorem Lifecycle.enqueue {row : OutboxRow}
    (positive : 0 < relay.maxAttempts) (lifecycle : world.Lifecycle relay)
    (stepped : world.step relay (.enqueue row) = some next) :
    next.Lifecycle relay := by
  simp only [step] at stepped
  split at stepped
  · cases stepped
  · rename_i fresh
    cases stepped
    have different : ∀ other ∈ world.rows, other.id ≠ row.id := by
      intro other member same
      apply fresh
      exact List.any_eq_true.mpr ⟨other, member, by simp [same]⟩
    constructor
    · intro other member isParked
      rcases List.mem_append.mp member with old | new
      · exact lifecycle.parked other old isParked
      · rw [List.mem_singleton.mp new] at isParked
        cases isParked
    · intro other member notParked notPublished
      rcases List.mem_append.mp member with old | new
      · exact lifecycle.live other old notParked notPublished
      · rw [List.mem_singleton.mp new]
        exact positive
    · intro other member isPublished
      rcases List.mem_append.mp member with old | new
      · exact List.mem_filter.mpr ⟨lifecycle.published other old isPublished,
          by simpa using different other old⟩
      · rw [List.mem_singleton.mp new] at isPublished
        cases isPublished
    · exact lifecycle.deletions
    · intro id member
      rcases List.mem_cons.mp member with rfl | before
      · exact .inl ⟨_, List.mem_append_right _ (List.mem_singleton.mpr rfl), rfl⟩
      · rcases lifecycle.accounted id before with ⟨other, stored, same⟩ | deleted
        · exact .inl ⟨other, List.mem_append_left _ stored, same⟩
        · exact .inr deleted
    · intro other member
      rcases List.mem_append.mp member with old | new
      · simp only [Function.update_of_ne (different other old)]
        exact lifecycle.attempts other old
      · rw [List.mem_singleton.mp new]
        exact Function.update_self row.id 0 world.failures
    · intro other member
      rcases List.mem_append.mp member with old | new
      · simp only [Function.update_of_ne (different other old)]
        exact lifecycle.cadence other old
      · rw [List.mem_singleton.mp new]
        simp only [Function.update_self]
        omega

theorem justified_mono {state : Txn} {before after : List Uuid}
    (grown : ∀ attempt ∈ state.processed,
      attempt.row.id ∈ before → attempt.row.id ∈ after)
    (justified : state.Justified before) : state.Justified after := by
  cases state with
  | tick mode processed remaining =>
      refine ⟨justified.1, ?_⟩
      intro attempt member succeeded
      exact grown attempt member (justified.2 attempt member succeeded)
  | change cause rows => exact justified

theorem Held.enqueue {row : OutboxRow} (held : world.Held)
    (stepped : world.step relay (.enqueue row) = some next) : next.Held := by
  simp only [step] at stepped
  split at stepped
  · cases stepped
  · rename_i fresh
    cases stepped
    have different : ∀ other ∈ world.rows, other.id ≠ row.id := by
      intro other member same
      apply fresh
      exact List.any_eq_true.mpr ⟨other, member, by simp [same]⟩
    constructor
    · rw [List.map_append, List.nodup_append]
      refine ⟨held.uniqueIds, by simp, ?_⟩
      intro id member other otherMember
      obtain ⟨stored, storedMember, rfl⟩ := List.mem_map.mp member
      rw [List.map_singleton, List.mem_singleton] at otherMember
      rw [otherMember]
      exact different stored storedMember
    · exact held.exclusive
    · intro txn state waiting other member
      obtain ⟨stored, lock⟩ := held.held txn state waiting other member
      exact ⟨List.mem_append_left _ stored, lock⟩
    · exact held.heldOnce
    · intro txn state waiting
      refine justified_mono ?_ (held.justified txn state waiting)
      intro attempt member known
      refine List.mem_filter.mpr ⟨known, ?_⟩
      -- The attempt's row is stored, so it is not the enqueued one.
      cases state with
      | tick mode processed remaining =>
          have stored := (held.held txn _ waiting attempt.row
            (List.mem_append_left _
              (List.mem_map.mpr ⟨attempt, member, rfl⟩))).1
          simpa using different attempt.row stored
      | change cause rows => cases member

theorem Held.publish {txn : Nat} {outcome : PublishOutcome}
    (held : world.Held)
    (stepped : world.step relay (.publish txn outcome) = some next) :
    next.Held ∧ next.rows = world.rows ∧
      (∀ id ∈ world.acknowledged, id ∈ next.acknowledged) ∧
      next.deleted = world.deleted ∧ next.enqueued = world.enqueued ∧
      next.failures = world.failures ∧ next.allTicks = world.allTicks := by
  simp only [step] at stepped
  split at stepped
  · rename_i mode processed row remaining waiting
    have sameRow : (relay.attempt row outcome).row = row := by
      unfold OutboxRelay.attempt
      split <;> rfl
    generalize relay.attempt row outcome = attempt at stepped sameRow
    cases stepped
    have grown : ∀ id ∈ world.acknowledged,
        id ∈ (if attempt.failed then world.acknowledged
          else row.id :: world.acknowledged) := by
      intro id known
      split
      · exact known
      · exact List.mem_cons_of_mem row.id known
    have sameRows : (Txn.tick mode (processed ++ [attempt]) remaining).rows =
        (Txn.tick mode processed (row :: remaining)).rows := by
      simp [Txn.rows, sameRow]
    refine ⟨?_, rfl, grown, rfl, rfl, rfl, rfl⟩
    constructor
    · exact held.uniqueIds
    · exact held.exclusive
    · intro other state opened version member
      by_cases same : other = txn
      · subst same
        simp only [Function.update_self, Option.some.injEq] at opened
        subst opened
        rw [sameRows] at member
        exact held.held other _ waiting version member
      · simp only [Function.update_of_ne same] at opened
        exact held.held other state opened version member
    · intro other state opened
      by_cases same : other = txn
      · subst same
        simp only [Function.update_self, Option.some.injEq] at opened
        subst opened
        rw [sameRows]
        exact held.heldOnce other _ waiting
      · simp only [Function.update_of_ne same] at opened
        exact held.heldOnce other state opened
    · intro other state opened
      by_cases same : other = txn
      · subst same
        simp only [Function.update_self, Option.some.injEq] at opened
        subst opened
        obtain ⟨drained, acknowledged⟩ := held.justified other _ waiting
        refine ⟨?_, ?_⟩
        · intro drainedRow member
          apply drained
          simpa [sameRow] using member
        · intro known member succeeded
          rcases List.mem_append.mp member with old | new
          · exact grown _ (acknowledged known old succeeded)
          · rw [List.mem_singleton.mp new] at succeeded ⊢
            simp [succeeded, sameRow]
      · simp only [Function.update_of_ne same] at opened
        exact justified_mono (fun attempt _ => grown attempt.row.id)
          (held.justified other state opened)
  · cases stepped

theorem matchOne_spec {id : Uuid} {rows : List OutboxRow} (held : world.Held)
    (matched : world.matchOne id = some rows) :
    (∀ row ∈ rows, row ∈ world.rows ∧ world.locked row.id = false) ∧
      (rows.map OutboxRow.id).Nodup ∧ ∀ row ∈ rows, row.parked = true := by
  unfold matchOne at matched
  dsimp only at matched
  split at matched
  · cases matched
  · rename_i unlocked
    cases matched
    refine ⟨?_, ?_, ?_⟩
    · intro row member
      refine ⟨List.mem_of_mem_filter member, ?_⟩
      rw [Bool.not_eq_true, List.any_eq_false] at unlocked
      simpa using unlocked row member
    · exact held.uniqueIds.sublist (List.filter_sublist.map OutboxRow.id)
    · intro row member
      have selected := (List.mem_filter.mp member).2
      exact (Bool.and_eq_true_iff.mp selected).2

theorem sweepStep_run {now cut : Timestamp} {days : Nat}
    (runs : sweepStep now days = .run cut) :
    days ≠ 0 ∧ cut = now - days * microsPerDay := by
  unfold sweepStep at runs
  split at runs
  · cases runs
  · rename_i enabled
    unfold cutoff at runs
    split at runs
    · rename_i found
      split at found
      · cases found
      · cases found
        cases runs
        exact ⟨enabled, rfl⟩
    · cases runs

/-- A row that a sweep statement matches is past its retention. -/
theorem permits_of_matches {kind : SweepKind} {now cut : Timestamp}
    {policy : OutboxRetentionPolicy} {row : OutboxRow}
    (enabled : policy.enabled = true)
    (runs : sweepStep now (kind.days policy) = .run cut)
    (matched : kind.matches cut row = true) :
    (Cause.sweep kind now policy).Permits row := by
  obtain ⟨days, cutIs⟩ := sweepStep_run runs
  cases kind with
  | published =>
      simp only [SweepKind.matches, Bool.and_eq_true,
        Option.any_eq_true] at matched
      obtain ⟨⟨instant, isPublished, before⟩, _⟩ := matched
      refine ⟨enabled, days, instant, isPublished, ?_⟩
      rw [cutIs] at before
      exact of_decide_eq_true before
  | parked =>
      simp only [SweepKind.matches, Bool.and_eq_true,
        Option.any_eq_true] at matched
      obtain ⟨isParked, instant, since, before⟩ := matched
      refine ⟨enabled, days, isParked, instant, since, ?_⟩
      rw [cutIs] at before
      exact of_decide_eq_true before

/-- The rows of a skip-locked statement can be held by its transaction. -/
theorem selectSkipLocked_free (condition : OutboxRow → Bool) (limit : Nat) :
    ∀ row ∈ world.selectSkipLocked condition limit,
      row ∈ world.rows ∧ world.locked row.id = false := by
  intro row member
  obtain ⟨stored, _, unlocked⟩ := mem_selectSkipLocked member
  exact ⟨stored, unlocked⟩

/-- A step keeps the locks apart and the life cycle in order. -/
theorem step_sound {action : Action} (positive : 0 < relay.maxAttempts)
    (held : world.Held) (lifecycle : world.Lifecycle relay)
    (stepped : world.step relay action = some next) :
    next.Held ∧ next.Lifecycle relay := by
  -- Opening a transaction changes no row.
  have opening : ∀ {txn : Nat} {state : Txn},
      (∀ row ∈ state.rows, row ∈ world.rows ∧ world.locked row.id = false) →
      (state.rows.map OutboxRow.id).Nodup →
      state.Justified world.acknowledged →
      world.openTxn txn state = some next →
      next.Held ∧ next.Lifecycle relay := by
    intro txn state free once justified opened
    obtain ⟨nextHeld, rows, acknowledged, deleted, enqueued, failures,
      allTicks⟩ := held.openTxn free once justified opened
    exact ⟨nextHeld, lifecycle.congr rows acknowledged deleted enqueued failures
      allTicks⟩
  cases action with
  | enqueue row =>
      exact ⟨held.enqueue stepped, lifecycle.enqueue positive stepped⟩
  | beginTick txn mode =>
      refine opening ?_ ?_ ?_ stepped
      · exact selectSkipLocked_free _ _
      · exact selectSkipLocked_nodup held _ _
      · refine ⟨?_, by simp⟩
        intro row member
        exact (mem_selectSkipLocked (by simpa using member)).2.1
  | publish txn outcome =>
      obtain ⟨nextHeld, rows, acknowledged, deleted, enqueued, failures,
        allTicks⟩ := held.publish stepped
      refine ⟨nextHeld, ?_⟩
      constructor
      · rw [rows]
        exact lifecycle.parked
      · rw [rows]
        exact lifecycle.live
      · rw [rows]
        intro row member isPublished
        exact acknowledged _ (lifecycle.published row member isPublished)
      · rw [deleted]
        exact lifecycle.deletions
      · rw [enqueued, rows, deleted]
        exact lifecycle.accounted
      · rw [rows, failures]
        exact lifecycle.attempts
      · rw [rows, failures, allTicks]
        exact lifecycle.cadence
  | replayOne txn id =>
      obtain ⟨rows, matched, opened⟩ := Option.bind_eq_some_iff.mp stepped
      obtain ⟨free, once, parked⟩ := matchOne_spec held matched
      refine opening ?_ ?_ ?_ opened
      · exact free
      · exact once
      · exact parked
  | replayMatching txn request =>
      refine opening ?_ ?_ ?_ stepped
      · exact selectSkipLocked_free _ _
      · exact selectSkipLocked_nodup held _ _
      · intro row member
        have matched := (mem_selectSkipLocked member).2.1
        simp only [BulkReplayRequest.filterClauses, Bool.and_eq_true] at matched
        exact matched.1.1.1
  | discardOne txn id =>
      obtain ⟨rows, matched, opened⟩ := Option.bind_eq_some_iff.mp stepped
      obtain ⟨free, once, parked⟩ := matchOne_spec held matched
      refine opening ?_ ?_ ?_ opened
      · exact free
      · exact once
      · exact parked
  | sweepPass txn kind now policy =>
      simp only [step] at stepped
      split at stepped
      · rename_i active
        have enabled := (Bool.and_eq_true_iff.mp active).1
        split at stepped
        · rename_i cut runs
          refine opening ?_ ?_ ?_ stepped
          · exact selectSkipLocked_free _ _
          · exact selectSkipLocked_nodup held _ _
          · intro row member
            exact permits_of_matches enabled runs
              (mem_selectSkipLocked member).2.1
        · cases stepped
      · cases stepped
  | commit txn =>
      simp only [step] at stepped
      split at stepped
      · rename_i mode processed waiting
        cases stepped
        exact ⟨held.commitTick waiting,
          (lifecycle.commitTick held waiting).congr rfl rfl rfl rfl rfl rfl⟩
      · rename_i cause rows waiting
        cases stepped
        refine ⟨held.commitChange waiting, ?_⟩
        have permitted := held.justified txn _ waiting
        have changed : (world.commitChange cause rows).Lifecycle relay := by
          by_cases isReplay : cause = .replay
          · subst isReplay
            apply lifecycle.replay positive held
            intro row member
            exact ⟨(held.held txn _ waiting row member).1, permitted row member⟩
          · exact lifecycle.delete isReplay permitted
        exact changed.congr rfl rfl rfl rfl rfl rfl
      · cases stepped
  | rollback txn =>
      simp only [step] at stepped
      split at stepped
      · cases stepped
        refine ⟨held.closeTxn rfl rfl rfl held.uniqueIds ?_, ?_⟩
        · intro row member _
          exact member
        · exact lifecycle.congr rfl rfl rfl rfl rfl rfl
      · cases stepped

/-- Only the commit of a discard or a sweep makes a row disappear, and it
deletes the version that its transaction holds. -/
theorem step_removes {action : Action} {row : OutboxRow} (held : world.Held)
    (stepped : world.step relay action = some next)
    (member : row ∈ world.rows)
    (gone : ∀ after ∈ next.rows, after.id ≠ row.id) :
    ∃ cause : Cause, cause ≠ .replay ∧ cause.Permits row := by
  have kept : row ∉ next.rows := fun still => gone row still rfl
  have opening : ∀ {txn : Nat} {state : Txn},
      world.openTxn txn state = some next → False := by
    intro txn state opened
    unfold openTxn at opened
    split at opened
    · cases opened
    · cases opened
      exact kept member
  cases action with
  | enqueue other =>
      simp only [step] at stepped
      split at stepped
      · cases stepped
      · cases stepped
        exact absurd (List.mem_append_left _ member) kept
  | beginTick txn mode => exact (opening stepped).elim
  | publish txn outcome =>
      obtain ⟨_, rows, _⟩ := held.publish stepped
      rw [rows] at kept
      exact absurd member kept
  | replayOne txn id =>
      obtain ⟨rows, _, opened⟩ := Option.bind_eq_some_iff.mp stepped
      exact (opening opened).elim
  | replayMatching txn request => exact (opening stepped).elim
  | discardOne txn id =>
      obtain ⟨rows, _, opened⟩ := Option.bind_eq_some_iff.mp stepped
      exact (opening opened).elim
  | sweepPass txn kind now policy =>
      simp only [step] at stepped
      split at stepped
      · split at stepped
        · exact (opening stepped).elim
        · cases stepped
      · cases stepped
  | commit txn =>
      simp only [step] at stepped
      split at stepped
      · rename_i mode processed waiting
        cases stepped
        have written : writeRow relay processed row ∈
            world.rows.map (writeRow relay processed) :=
          List.mem_map_of_mem member
        exact absurd (writeRow_id processed row) (gone _ written)
      · rename_i cause rows waiting
        cases stepped
        have named : ∃ changed ∈ rows, changed.id = row.id := by
          by_contra notNamed
          push Not at notNamed
          exact kept (mem_commitChange_of_not_named member notNamed)
        obtain ⟨changed, changedMember, sameId⟩ := named
        have stored := (held.held txn _ waiting changed changedMember).1
        have same := held.row_ext stored member sameId
        have permitted := held.justified txn _ waiting changed changedMember
        rw [same] at permitted
        refine ⟨cause, ?_, permitted⟩
        intro isReplay
        subst isReplay
        have rewritten := List.mem_map_of_mem
          (f := fun row : OutboxRow =>
            if rows.any fun changed => decide (changed.id = row.id)
            then replayed row else row) member
        apply gone _ rewritten
        split <;> rfl
      · cases stepped
  | rollback txn =>
      simp only [step] at stepped
      split at stepped
      · cases stepped
        exact absurd member kept
      · cases stepped

/-- The life cycle of every row in every run: the invariant of the stored rows
and of their history, the causes for which a row disappears, and the reach of
replays and discards, which leave live and published rows as they are. -/
theorem rows_follow_lifecycle {relay : OutboxRelay} {world : World}
    (positive : 1 ≤ relay.maxAttempts)
    (reachable : Reachable (World.step relay) initial world) :
    world.Lifecycle relay ∧
      (∀ action next, world.step relay action = some next →
        ∀ row ∈ world.rows, (∀ after ∈ next.rows, after.id ≠ row.id) →
          ∃ cause : Cause, cause ≠ .replay ∧ cause.Permits row) ∧
      ∀ txn cause rows next,
        world.txns txn = some (.change cause rows) →
        cause = .replay ∨ cause = .discard →
        world.step relay (.commit txn) = some next →
        ∀ row ∈ world.rows,
          row.parked = false ∨ row.publishedAt.isSome = true →
          row ∈ next.rows := by
  have sound : world.Held ∧ world.Lifecycle relay :=
    reachable.invariant
      (fun _ _ _ sound stepped => step_sound positive sound.1 sound.2 stepped)
      ⟨held_initial, lifecycle_initial relay⟩
  obtain ⟨held, lifecycle⟩ := sound
  refine ⟨lifecycle, ?_, ?_⟩
  · intro action next stepped row member gone
    exact step_removes held stepped member gone
  intro txn cause rows next waiting operator stepped row member untouchable
  have notParked : row.parked = false := by
    rcases untouchable with live | isPublished
    · exact live
    · cases isParked : row.parked with
      | false => rfl
      | true =>
          rw [(lifecycle.parked row member isParked).1] at isPublished
          cases isPublished
  have notNamed : ∀ changed ∈ rows, changed.id ≠ row.id := by
    intro changed changedMember sameId
    have stored := (held.held txn _ waiting changed changedMember).1
    have same := held.row_ext stored member sameId
    have permitted := held.justified txn _ waiting changed changedMember
    have parked : changed.parked = true := by
      rcases operator with rfl | rfl <;> exact permitted
    rw [same, notParked] at parked
    cases parked
  simp only [step, waiting, Option.some.injEq] at stepped
  subst stepped
  exact mem_commitChange_of_not_named member notNamed

section TwoRelays

def sampleRelay : OutboxRelay :=
  { batchSize := 10, maxAttempts := 2, decodeError := fun _ => none }

def sampleRow (id : Uuid) : OutboxRow :=
  { id
    occurredAt := 1
    eventType := "iam.role.granted"
    schemaVersion := 1
    aggregatePrn := "prn:paigasus:iam:::principal/1"
    actorPrn := none
    payload := ""
    correlationId := none
    publishedAt := none
    attempts := 0
    parked := false
    parkedAt := none
    lastError := none }

/-- A published but rolled back tick, a second relay that skips the locked row,
two failed attempts that park a row, and its discard. -/
def twoRelaysRun : List Action :=
  [.enqueue (sampleRow 1), .beginTick 0 .all, .publish 0 (.published 10),
    .enqueue (sampleRow 2), .beginTick 1 .fresh, .publish 1 (.failed "down" 11),
    .commit 1, .rollback 0,
    .beginTick 2 .all, .publish 2 (.published 12), .publish 2 (.failed "down" 13),
    .commit 2, .discardOne 3 2, .commit 3]

theorem twoRelaysRun_follows_lifecycle :
    ∃ world, Reachable (World.step sampleRelay) initial world ∧
      world.rows.map (fun row => (row.id, row.publishedAt)) = [(1, some 12)] ∧
      world.deleted.map (fun deletion =>
        (deletion.row.id, deletion.row.parkedAt, deletion.cause)) =
        [(2, some 13, .discard)] ∧
      world.Lifecycle sampleRelay := by
  have facts :
      (runFrom (World.step sampleRelay) initial twoRelaysRun).map
        (fun world =>
          (world.rows.map (fun row => (row.id, row.publishedAt)),
            world.deleted.map (fun deletion =>
              (deletion.row.id, deletion.row.parkedAt, deletion.cause)))) =
      some ([(1, some 12)], [(2, some 13, .discard)]) := by
    decide
  obtain ⟨world, run, values⟩ := Option.map_eq_some_iff.mp facts
  obtain ⟨rows, deleted⟩ := Prod.mk.inj values
  have reachable : Reachable (World.step sampleRelay) initial world :=
    ⟨twoRelaysRun, run⟩
  have positive : 1 ≤ sampleRelay.maxAttempts := by decide
  exact ⟨world, reachable, rows, deleted,
    (rows_follow_lifecycle positive reachable).1⟩

end TwoRelays

end World

end Paigasus.Outbox
