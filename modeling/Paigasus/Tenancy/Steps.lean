import Paigasus.Tenancy.Soundness

/-!
# What a step can do

The inversion of the transition function, stated once: how a request opens its
call, how a call moves on between two commits, and what a commit does.  Each
later invariant is a case analysis over these relations.
-/

namespace Paigasus.Tenancy

open Foundation Kernel Core Roles

/-- The first phase of a call. -/
inductive Request.Opens (db : Db) (request : Request) : Phase → Prop where
  | refused : Opens db request (.done .refused)
  | chain : Opens db request (.chain request [])
  | detach {id : Uuid} (isCall : request.call = .detach id) :
      Opens db request (.detachTarget id request.stamp)
  | grant {target : GrantTarget} {id : Uuid} {known : Role}
      (isCall : request.call = .grant target id)
      (isRole : role target.roleKey = some known)
      (kindAllowed : target.scope.kind ∈ known.scopeKinds)
      (scopeResolved : db.resolveScope target.scope = true)
      (principalResolved : db.resolvePrincipal target.principal = true) :
      Opens db request (.grantLookup target id request.stamp)
  | revoke {id : Uuid} {grant : RoleGrant}
      (isCall : request.call = .revoke id) (stored : grant ∈ db.grants) :
      Opens db request (.revoking grant request.stamp)
  | seed {principal id : Uuid} {issuer : String}
      (isCall : request.call = .seedAdmin principal id issuer) :
      Opens db request (.seedLookup principal id issuer request.stamp)

/-- The call has neither committed nor ended. -/
def Phase.isOpen : Phase → Bool
  | .rereading _ => false
  | .done _ => false
  | _ => true

/-- How a call moves on without a commit. -/
inductive Phase.Leads (db : Db) : Phase → Phase → Prop where
  | ends {phase : Phase} {outcome : Outcome}
      (quiet : outcome = .refused ∨ outcome = .returned false) :
      Leads db phase (.done outcome)
  | chain {request : Request} {seen more : List NodeRow} :
      Leads db (.chain request seen) (.chain request more)
  | write {request : Request} {seen : List NodeRow} :
      Leads db (.chain request seen) (.writing request seen)
  | written {request : Request} {seen : List NodeRow} {changes : Changes}
      (computed : request.body seen = .ok changes)
      (accepted : db.rejects changes = false) :
      Leads db (.writing request seen) (.ready (some request) seen changes)
  | locked {id : Uuid} {target : MembershipRow} {stamp : Stamp} :
      Leads db (.detachTarget id stamp) (.detachSnapshot target stamp)
  | listed {target : MembershipRow} {todo : List Uuid} {stamp : Stamp} :
      Leads db (.detachSnapshot target stamp) (.detachLocking target todo stamp)
  | lockedNext {target : MembershipRow} {id : Uuid} {rest : List Uuid}
      {stamp : Stamp} :
      Leads db (.detachLocking target (id :: rest) stamp)
        (.detachLocking target rest stamp)
  | projected {target : MembershipRow} {records : List MembershipRecord}
      {stamp : Stamp} :
      Leads db (.detachLocking target [] stamp)
        (.detachDeleting target records stamp)
  | deleted {target : MembershipRow} {records : List MembershipRecord}
      {ids : List Uuid} {stamp : Stamp} :
      Leads db (.detachDeleting target records stamp)
        (.ready none [] (detachIn target.id records ids stamp))
  | missing {target : GrantTarget} {id : Uuid} {stamp : Stamp} :
      Leads db (.grantLookup target id stamp) (.granting target id stamp)
  | lost {target : GrantTarget} {id : Uuid} {stamp : Stamp} :
      Leads db (.granting target id stamp) (.grantRelookup target)
  | granted {target : GrantTarget} {id : Uuid} {stamp : Stamp}
      (accepted : db.rejects
        (grantIn (newGrant target id stamp.instant) stamp) = false) :
      Leads db (.granting target id stamp)
        (.ready none [] (grantIn (newGrant target id stamp.instant) stamp))
  | revoked {grant : RoleGrant} {stamp : Stamp} :
      Leads db (.revoking grant stamp) (.ready none [] (revokeIn grant stamp))
  | absent {principal id : Uuid} {issuer : String} {stamp : Stamp} :
      Leads db (.seedLookup principal id issuer stamp)
        (.seeding (newGrant
          ⟨PrincipalId.fromUuid principal, platformAdminKey, .root⟩ id
          stamp.instant) issuer stamp)
  | seeded {grant : RoleGrant} {issuer : String} {stamp : Stamp}
      (accepted : db.rejects
        (seedGrantIn grant issuer stamp.correlation) = false) :
      Leads db (.seeding grant issuer stamp)
        (.ready none [] (seedGrantIn grant issuer stamp.correlation))

namespace World

variable {world next : World} {txn : Nat}

/-- The call of the transaction reaches the phase, and nothing is committed. -/
structure Moves (world : World) (txn : Nat) (phase : Phase) (next : World) :
    Prop where
  db : next.db = world.db
  commits : next.commits = world.commits
  txns : next.txns = Function.update world.txns txn (some phase)

theorem moves_moveTo {phase : Phase} :
    world.Moves txn phase (world.moveTo txn phase) :=
  ⟨rfl, rfl, rfl⟩

theorem moves_finish {outcome : Outcome} :
    world.Moves txn (.done outcome) (world.finish txn outcome) :=
  ⟨rfl, rfl, rfl⟩

theorem moves_lock {key : RowKey} {mode : LockMode} {phase : Phase} :
    world.Moves txn phase ({ world with
      locks := ⟨key, txn, mode⟩ :: world.locks }.moveTo txn phase) :=
  ⟨rfl, rfl, rfl⟩

theorem moves_lockAll {keys : List RowKey} {phase : Phase}
    (locked : (world.lockAll txn keys).map (·.moveTo txn phase) = some next) :
    world.Moves txn phase next := by
  obtain ⟨middle, isLocked, rfl⟩ := Option.map_eq_some_iff.mp locked
  obtain ⟨_, rfl⟩ := lockAll_some isLocked
  exact ⟨rfl, rfl, rfl⟩

/-- The call leaves the phase without a commit. -/
def Leaves (world : World) (txn : Nat) (phase : Phase) (next : World) :
    Prop :=
  ∃ reached, phase.Leads world.db reached ∧ world.Moves txn reached next

theorem leaves_refused {phase : Phase} :
    world.Leaves txn phase (world.finish txn .refused) :=
  ⟨_, .ends (.inl rfl), moves_finish⟩

theorem leaves_unchanged {phase : Phase} :
    world.Leaves txn phase (world.finish txn (.returned false)) :=
  ⟨_, .ends (.inr rfl), moves_finish⟩

theorem leaves_insert {phase : Phase} {request : Option Request}
    {seen : List NodeRow} {changes : Changes}
    (inserted : world.insert txn request seen changes = some next)
    (leads : world.db.rejects changes = false →
      phase.Leads world.db (.ready request seen changes)) :
    world.Leaves txn phase next := by
  unfold World.insert at inserted
  split at inserted
  · cases inserted
    exact leaves_refused
  · rename_i accepted
    rw [Bool.not_eq_true] at accepted
    exact ⟨_, leads accepted, moves_lockAll inserted⟩

theorem leaves_chain {request : Request} {seen : List NodeRow}
    (advanced : world.advanceChain txn request seen = some next) :
    world.Leaves txn (.chain request seen) next := by
  unfold World.advanceChain at advanced
  split at advanced
  · cases advanced
    exact leaves_refused
  · split at advanced
    · cases advanced
      exact leaves_refused
    · split at advanced
      · cases advanced
        exact ⟨_, .chain, moves_lock⟩
      · cases advanced
  · split at advanced
    · cases advanced
      exact leaves_refused
    · split at advanced
      · split at advanced
        · cases advanced
          exact ⟨_, .write, moves_moveTo⟩
        · obtain ⟨rooted, locked, rfl⟩ := Option.map_eq_some_iff.mp advanced
          rcases lockRoot_some locked with rfl | ⟨root, _, _, _, _, rfl⟩
          · exact leaves_refused
          · exact ⟨_, .write, moves_lock⟩
      · cases advanced
        exact ⟨_, .write, moves_moveTo⟩

/-- A statement of a call commits, answers after the commit, or moves on. -/
theorem advance_cases {phase : Phase}
    (advanced : world.advance txn phase = some next) :
    (∃ request seen changes, phase = .ready request seen changes ∧
      next = (world.commit txn changes).moveTo txn (answer request changes)) ∨
    (∃ node, phase = .rereading node ∧
      next = world.moveTo txn (.done
        (if (world.db.find node).isSome then .returned true
          else .refused))) ∨
    (phase.isOpen = true ∧ world.Leaves txn phase next) := by
  cases phase with
  | ready request seen changes =>
      cases advanced
      exact .inl ⟨request, seen, changes, rfl, rfl⟩
  | rereading node =>
      refine .inr (.inl ⟨node, rfl, ?_⟩)
      simp only [World.advance] at advanced
      split at advanced <;> rename_i found <;> cases advanced <;> simp [found]
  | chain request seen => exact .inr (.inr ⟨rfl, leaves_chain advanced⟩)
  | writing request seen =>
      refine .inr (.inr ⟨rfl, ?_⟩)
      simp only [World.advance] at advanced
      split at advanced
      · cases advanced
        exact leaves_refused
      · rename_i changes computed
        exact leaves_insert advanced (.written computed)
  | detachTarget id stamp =>
      refine .inr (.inr ⟨rfl, ?_⟩)
      simp only [World.advance] at advanced
      split at advanced
      · cases advanced
        exact leaves_refused
      · exact ⟨_, .locked, moves_lockAll advanced⟩
  | detachSnapshot target stamp =>
      cases advanced
      exact .inr (.inr ⟨rfl, _, .listed, moves_moveTo⟩)
  | detachLocking target todo stamp =>
      refine .inr (.inr ⟨rfl, ?_⟩)
      cases todo with
      | nil =>
          cases advanced
          exact ⟨_, .projected, moves_moveTo⟩
      | cons id rest =>
          simp only [World.advance] at advanced
          split at advanced
          · exact ⟨_, .lockedNext, moves_lockAll advanced⟩
          · cases advanced
            exact ⟨_, .lockedNext, moves_moveTo⟩
  | detachDeleting target records stamp =>
      exact .inr (.inr ⟨rfl, _, .deleted, moves_lockAll advanced⟩)
  | grantLookup target id stamp =>
      refine .inr (.inr ⟨rfl, ?_⟩)
      simp only [World.advance] at advanced
      split at advanced
      · cases advanced
        exact leaves_unchanged
      · cases advanced
        exact ⟨_, .missing, moves_moveTo⟩
  | granting target id stamp =>
      refine .inr (.inr ⟨rfl, ?_⟩)
      simp only [World.advance] at advanced
      split at advanced
      · cases advanced
        exact ⟨_, .lost, moves_moveTo⟩
      · exact leaves_insert advanced .granted
  | grantRelookup target =>
      refine .inr (.inr ⟨rfl, ?_⟩)
      simp only [World.advance] at advanced
      split at advanced
      · cases advanced
        exact leaves_unchanged
      · cases advanced
        exact leaves_refused
  | revoking grant stamp =>
      refine .inr (.inr ⟨rfl, ?_⟩)
      simp only [World.advance] at advanced
      split at advanced
      · exact ⟨_, .revoked, moves_lockAll advanced⟩
      · cases advanced
        exact leaves_unchanged
  | seedLookup principal id issuer stamp =>
      refine .inr (.inr ⟨rfl, ?_⟩)
      simp only [World.advance] at advanced
      split at advanced
      · cases advanced
        exact leaves_unchanged
      · cases advanced
        exact ⟨_, .absent, moves_moveTo⟩
  | seeding grant issuer stamp =>
      refine .inr (.inr ⟨rfl, ?_⟩)
      simp only [World.advance] at advanced
      split at advanced
      · cases advanced
        exact leaves_unchanged
      · exact leaves_insert advanced .seeded
  | done outcome => cases advanced

theorem start_cases {request : Request}
    (started : world.start txn request = some next) :
    ∃ phase, request.Opens world.db phase ∧ world.Moves txn phase next := by
  obtain ⟨call, stamp⟩ := request
  have refused : ∃ phase, (Request.mk call stamp).Opens world.db phase ∧
      world.Moves txn phase (world.moveTo txn (.done .refused)) :=
    ⟨_, .refused, moves_moveTo⟩
  have opened : ∃ phase, (Request.mk call stamp).Opens world.db phase ∧
      world.Moves txn phase (world.moveTo txn (.chain ⟨call, stamp⟩ [])) :=
    ⟨_, .chain, moves_moveTo⟩
  cases call with
  | createProject org parent id slug name =>
      simp only [World.start] at started
      split at started
      · cases started
        exact refused
      · split at started
        · split at started
          · cases started
            exact refused
          · split at started
            · cases started
              exact refused
            · cases started
              exact opened
        · cases started
  | attach id principal node =>
      simp only [World.start] at started
      split at started
      · cases started
        exact opened
      · cases started
        exact refused
  | detach id =>
      cases started
      exact ⟨_, .detach rfl, moves_moveTo⟩
  | grant target id =>
      simp only [World.start] at started
      split at started
      · cases started
        exact refused
      · rename_i known isRole
        split at started
        · rename_i checked
          cases started
          exact ⟨_, .grant rfl isRole checked.1 checked.2.1 checked.2.2,
            moves_moveTo⟩
        · cases started
          exact refused
  | revoke id =>
      simp only [World.start] at started
      split at started
      · cases started
        exact refused
      · rename_i grant found
        cases started
        exact ⟨_, .revoke rfl (List.mem_of_find?_eq_some found), moves_moveTo⟩
  | seedAdmin principal id issuer =>
      cases started
      exact ⟨_, .seed rfl, moves_moveTo⟩
  | createOrganization id team grant slug name =>
      cases started
      exact opened
  | createTeam org id slug name =>
      cases started
      exact opened
  | rename node newSlug newName =>
      cases started
      exact opened
  | setStatus node status =>
      cases started
      exact opened

/-- What one action can do. -/
inductive Steps (world : World) : Action → World → Prop where
  | registers {principal : Uuid} :
      Steps world (.register principal) { world with
        db := { world.db with
          principals := world.db.principals ++ [principal] } }
  | opens {txn : Nat} {request : Request} {phase : Phase} {next : World}
      (unused : world.txns txn = none) (opened : request.Opens world.db phase)
      (moves : world.Moves txn phase next) :
      Steps world (.start txn request) next
  | leads {txn : Nat} {phase reached : Phase} {next : World}
      (current : world.txns txn = some phase) (isOpen : phase.isOpen = true)
      (leads : phase.Leads world.db reached)
      (moves : world.Moves txn reached next) : Steps world (.advance txn) next
  | commits {txn : Nat} {request : Option Request} {seen : List NodeRow}
      {changes : Changes}
      (current : world.txns txn = some (.ready request seen changes)) :
      Steps world (.advance txn)
        ((world.commit txn changes).moveTo txn (answer request changes))
  | answers {txn : Nat} {node : NodeKey}
      (current : world.txns txn = some (.rereading node)) :
      Steps world (.advance txn) (world.moveTo txn (.done
        (if (world.db.find node).isSome then .returned true else .refused)))
  | fails {txn : Nat} {phase : Phase} {next : World}
      (current : world.txns txn = some phase)
      (notDone : ∀ outcome, phase ≠ .done outcome)
      (moves : world.Moves txn (.done .refused) next) :
      Steps world (.fail txn) next

theorem step_cases {action : Action} (stepped : world.step action = some next) :
    world.Steps action next := by
  cases action with
  | register principal =>
      simp only [step] at stepped
      split at stepped
      · cases stepped
      · cases stepped
        exact .registers
  | start txn request =>
      simp only [step] at stepped
      split at stepped
      · rename_i unused
        obtain ⟨phase, opened, moves⟩ := start_cases stepped
        exact .opens unused opened moves
      · cases stepped
  | advance txn =>
      simp only [step] at stepped
      split at stepped
      · cases stepped
      · rename_i phase current
        rcases advance_cases stepped with
          ⟨request, seen, changes, rfl, rfl⟩ | ⟨node, rfl, rfl⟩ |
          ⟨isOpen, reached, leads, moves⟩
        · exact .commits current
        · exact .answers current
        · exact .leads current isOpen leads moves
  | fail txn =>
      simp only [step] at stepped
      split at stepped
      · cases stepped
      · cases stepped
      · rename_i phase notDone current
        cases stepped
        exact .fails current notDone moves_finish

/-- The phases after a step that moves one call. -/
theorem Moves.cases_phase {phase other : Phase} {call : Nat}
    (moves : world.Moves txn phase next)
    (current : next.txns call = some other) :
    (call = txn ∧ other = phase) ∨ world.txns call = some other := by
  rw [moves.txns, Function.update_apply] at current
  split at current
  · rename_i same
    cases current
    exact .inl ⟨same, rfl⟩
  · exact .inr current

end World

end Paigasus.Tenancy
