import Mathlib.Data.List.Basic

/-!
# Row locks

A lock table lists which owner holds which key in which mode.  A shared request
waits for exclusive locks of other owners, an exclusive request for every lock
of another owner.  The table never holds two locks of different owners on one
key unless both are shared, so an exclusive holder is alone on its key.
-/

namespace Foundation

inductive LockMode where
  | shared
  | exclusive
deriving DecidableEq

structure RowLock (Key : Type*) where
  key : Key
  owner : Nat
  mode : LockMode
deriving DecidableEq

section RowLocks

variable {Key : Type*}

namespace RowLock

/-- The lock makes a request of another owner wait. -/
def blocks [DecidableEq Key] (key : Key) (owner : Nat) (mode : LockMode)
    (lock : RowLock Key) : Bool :=
  lock.key = key && lock.owner ≠ owner &&
    (mode = .exclusive || lock.mode = .exclusive)

def grantable [DecidableEq Key] (locks : List (RowLock Key)) (key : Key) (owner : Nat)
    (mode : LockMode) : Bool :=
  !locks.any (blocks key owner mode)

/-- The locks after the end of the owner's transaction. -/
def release (locks : List (RowLock Key)) (owner : Nat) :
    List (RowLock Key) :=
  locks.filter fun lock => lock.owner ≠ owner

/-- Different owners share a key only in shared mode. -/
def Coexist (locks : List (RowLock Key)) : Prop :=
  ∀ left ∈ locks, ∀ right ∈ locks, left.key = right.key →
    left.owner ≠ right.owner → left.mode = .shared ∧ right.mode = .shared

variable {locks : List (RowLock Key)} {key : Key} {owner : Nat}

theorem coexist_nil : Coexist ([] : List (RowLock Key)) := by
  intro left member
  cases member

theorem shared_of_grantable [DecidableEq Key] {mode : LockMode} {lock : RowLock Key}
    (granted : grantable locks key owner mode = true) (member : lock ∈ locks)
    (sameKey : lock.key = key) (other : lock.owner ≠ owner) :
    lock.mode = .shared ∧ mode = .shared := by
  have free : blocks key owner mode lock = false := by
    have noneBlocks : locks.any (blocks key owner mode) = false := by
      simpa [grantable] using granted
    simpa using List.any_eq_false.mp noneBlocks lock member
  cases lockMode : lock.mode <;> cases mode <;>
    simp_all [blocks]

theorem Coexist.acquire [DecidableEq Key] {mode : LockMode}
    (coexist : Coexist locks)
    (granted : grantable locks key owner mode = true) :
    Coexist (⟨key, owner, mode⟩ :: locks) := by
  intro left leftMember right rightMember sameKey different
  rcases List.mem_cons.mp leftMember with rfl | leftOld <;>
    rcases List.mem_cons.mp rightMember with rfl | rightOld
  · exact absurd rfl different
  · obtain ⟨rightShared, shared⟩ :=
      shared_of_grantable granted rightOld sameKey.symm (Ne.symm different)
    exact ⟨shared, rightShared⟩
  · obtain ⟨leftShared, shared⟩ :=
      shared_of_grantable granted leftOld sameKey different
    exact ⟨leftShared, shared⟩
  · exact coexist left leftOld right rightOld sameKey different

/-- One owner takes several keys at once. -/
theorem Coexist.acquireAll [DecidableEq Key] {mode : LockMode}
    {keys : List Key} (coexist : Coexist locks)
    (granted : ∀ key ∈ keys, grantable locks key owner mode = true) :
    Coexist (keys.map (fun key => ⟨key, owner, mode⟩) ++ locks) := by
  induction keys with
  | nil => exact coexist
  | cons key rest ih =>
      have later : ∀ other ∈ rest, grantable locks other owner mode = true :=
        fun other member => granted other (List.mem_cons_of_mem key member)
      apply (ih later).acquire
      have free := granted key List.mem_cons_self
      rw [grantable, Bool.not_eq_true'] at free
      rw [grantable, List.any_append, free]
      simp [blocks]

theorem Coexist.release (coexist : Coexist locks) (owner : Nat) :
    Coexist (release locks owner) := by
  intro left leftMember right rightMember
  exact coexist left (List.mem_of_mem_filter leftMember) right
    (List.mem_of_mem_filter rightMember)

/-- An exclusive holder is alone on its key. -/
theorem Coexist.owner_eq (coexist : Coexist locks) {other : Nat}
    {mode : LockMode} (exclusive : ⟨key, owner, .exclusive⟩ ∈ locks)
    (held : ⟨key, other, mode⟩ ∈ locks) : owner = other := by
  by_contra different
  have shared := coexist _ exclusive _ held rfl different
  cases shared.1

theorem mem_release {lock : RowLock Key} {other : Nat}
    (member : lock ∈ locks) (different : lock.owner ≠ other) :
    lock ∈ release locks other :=
  List.mem_filter.mpr ⟨member, by simpa using different⟩

end RowLock

end RowLocks

end Foundation
