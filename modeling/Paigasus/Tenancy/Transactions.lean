import Mathlib.Logic.Function.Basic
import Paigasus.Foundation.RowLocks
import Paigasus.Foundation.Transition
import Paigasus.Tenancy.Model

/-!
# Tenancy transactions

The calls of the tenancy, membership and role services as transactions on one
database: row locks, read-committed statements and unique constraints.  Every
action performs one statement of one call.  A statement reads the rows that are
committed at that moment, `FOR SHARE` and `FOR UPDATE` wait for conflicting
locks, an insert waits for an open insert under the same unique key, and what a
transaction writes becomes visible at its commit, together with its events and
audit entries.  A port call may fail at every step, which rolls the transaction
back.
-/

namespace Paigasus.Tenancy

open Foundation Kernel Core Roles

/-- The committed rows. -/
structure Db where
  nodes : List NodeRow
  principals : List Uuid
  memberships : List MembershipRow
  grants : List RoleGrant
  events : List DomainEvent
  entries : List AuditEntry

namespace Db

def empty : Db := ⟨[], [], [], [], [], []⟩

def find (db : Db) (key : NodeKey) : Option NodeRow :=
  db.nodes.find? fun row => row.key = key

/-- The organization column of a team or a project. -/
def orgOf (db : Db) (key : NodeKey) : Option Uuid :=
  (db.find key).bind fun row => row.place.parentOrg

def rewrite (changes : Changes) (row : NodeRow) : NodeRow :=
  match changes.updated with
  | some updated => if updated.key = row.key then updated else row
  | none => row

def apply (db : Db) (changes : Changes) : Db :=
  { nodes := db.nodes.map (rewrite changes) ++ changes.inserted
    principals := db.principals
    memberships :=
      (db.memberships.filter fun row => row.id ∉ changes.detached) ++
        changes.attached
    grants :=
      (db.grants.filter fun grant => grant.id ∉ changes.revoked) ++
        changes.granted
    events := db.events ++ changes.events
    entries := db.entries ++ changes.entries }

/-- The rows that a detach of the target selects: the target, and below an
organization the principal's memberships in its teams and projects. -/
def detachSelects (db : Db) (target row : MembershipRow) : Bool :=
  row.id = target.id ||
    match target.node with
    | .organization org =>
        row.principal = target.principal && db.orgOf row.node = some org
    | _ => false

/-- The projection of a membership through its principal and its node; the
inner joins drop a row without them. -/
def record? (db : Db) (row : MembershipRow) : Option MembershipRecord :=
  if row.principal ∈ db.principals then
    (db.find row.node).map fun node =>
      { id := row.id
        principalPrn := (PrincipalId.fromUuid row.principal).canonical
        nodePrn := node.prn
        createdAt := row.createdAt
        createdBy := row.createdBy }
  else
    none

def detachSelection (db : Db) (target : MembershipRow) :
    List MembershipRow :=
  db.memberships.filter (db.detachSelects target)

/-- The selected rows as records, `ORDER BY created_at, id`. -/
def detachRecords (db : Db) (target : MembershipRow) :
    List MembershipRecord :=
  ((db.detachSelection target).filterMap db.record?).insertionSort
    fun left right => left.createdAt < right.createdAt ∨
      left.createdAt = right.createdAt ∧ left.id.value ≤ right.id.value

def existingGrant (db : Db) (target : GrantTarget) : Option RoleGrant :=
  db.grants.find? fun row => (targetOf row).key = target.key

/-- The scope names a stored node by its stored name. -/
def resolveScope (db : Db) : GrantScope → Bool
  | .root => true
  | .node target =>
      (db.find (nodeKeyOf target)).any fun row => row.prn = target.canonical

/-- The principal is stored under exactly this name. -/
def resolvePrincipal (db : Db) (principal : PrincipalId) : Bool :=
  principal.uuid ∈ db.principals &&
    principal.canonical = (PrincipalId.fromUuid principal.uuid).canonical

/-- A unique constraint, or the reference of a grant to its principal, rejects
the inserts of a transaction. -/
def rejects (db : Db) (changes : Changes) : Bool :=
  (changes.inserted.any fun row => (db.find row.key).isSome) ||
    (changes.attached.any fun row => db.memberships.any fun other =>
      other.id = row.id ||
        (other.principal = row.principal && other.node = row.node)) ||
    changes.granted.any fun grant =>
      decide (grant.principal.uuid ∉ db.principals) ||
        db.grants.any fun other =>
          other.id = grant.id || (targetOf other).key = (targetOf grant).key

end Db

/-- Rows and entries of unique indexes. -/
inductive RowKey where
  | node (key : NodeKey)
  | membership (id : Uuid)
  | membershipTarget (principal : Uuid) (node : NodeKey)
  | grant (id : Uuid)
  | grantTarget (key : Uuid × String × String)
deriving DecidableEq

/-- What the inserts of a transaction occupy until it ends. -/
def Changes.insertKeys (changes : Changes) : List RowKey :=
  (changes.inserted.map fun row => RowKey.node row.key) ++
    (changes.attached.flatMap fun row =>
      [RowKey.membership row.id, .membershipTarget row.principal row.node]) ++
    changes.granted.flatMap fun grant =>
      [RowKey.grant grant.id, .grantTarget (targetOf grant).key]

/-- The service calls, with the ids that they draw.  Slugs and names are
validated before a call opens its transaction. -/
inductive Call where
  | createOrganization (id team grant : Uuid) (slug name : String)
  | createTeam (org id : Uuid) (slug name : String)
  | createProject (org parent id : Uuid) (slug name : String)
  | rename (node : NodeKey) (newSlug newName : Option String)
  | setStatus (node : NodeKey) (status : NodeStatus)
  | attach (id : Uuid) (principal : PrincipalId) (node : TenancyNodeRef)
  | detach (id : Uuid)
  | grant (target : GrantTarget) (id : Uuid)
  | revoke (id : Uuid)
  | seedAdmin (principal id : Uuid) (issuer : String)

structure Request where
  call : Call
  stamp : Stamp

namespace Call

/-- The first row a call locks; the rows of its ancestors follow. -/
def anchor : Call → Option (NodeKey × LockMode)
  | createTeam org _ _ _ => some (.organization org, .shared)
  | createProject _ parent _ _ _ => some (.team parent, .shared)
  | rename node _ _ => some (node, .exclusive)
  | setStatus node _ => some (node, .exclusive)
  | attach _ _ node => some (nodeKeyOf node, .shared)
  | _ => none

/-- The check that follows the read of the first row. -/
def refuses (own : NodeRow) : Call → Option Refusal
  | createProject org _ _ _ _ =>
      if own.place = .team org then none else some .backend
  | attach _ _ node =>
      if own.prn = node.canonical then none else some .prnMismatch
  | _ => none

end Call

inductive NextRow where
  | lock (key : NodeKey) (mode : LockMode)
  | refuse (refusal : Refusal)
  | complete
deriving DecidableEq

def Call.nextRow (call : Call) (seen : List NodeRow) : NextRow :=
  match call.anchor, seen with
  | none, _ => .complete
  | some (key, mode), [] => .lock key mode
  | some _, own :: above =>
      match call.refuses own with
      | some refusal => .refuse refusal
      | none =>
          match own.place.ancestors[above.length]? with
          | some key => .lock key .shared
          | none => .complete

/-- What the call writes, computed from the rows it has locked. -/
def Request.body (request : Request) (seen : List NodeRow) :
    Except Refusal Changes :=
  match request.call, seen with
  | .createOrganization id team grant slug name, _ =>
      .ok (createOrganizationIn id team grant slug name request.stamp)
  | .createTeam org id slug name, parent :: above =>
      (createIn (newNode id (.team org) slug name request.stamp) parent
        above).map (creation · request.stamp)
  | .createProject org team id slug name, parent :: above =>
      (createIn (newNode id (.project org team) slug name request.stamp) parent
        above).map (creation · request.stamp)
  | .rename _ newSlug newName, own :: above =>
      (renameIn own above newSlug newName request.stamp).map
        (mutation .renamed · request.stamp)
  | .setStatus _ status, own :: above =>
      .ok (mutation (statusChange status)
        (setStatusIn own above status request.stamp) request.stamp)
  | .attach id principal _, own :: above =>
      attachIn id principal.uuid own above request.stamp
  | _, _ => .error .backend

inductive Outcome where
  | refused
  | returned (changed : Bool)
deriving DecidableEq

/-- Where a call stands: which statement is next. -/
inductive Phase where
  | chain (request : Request) (seen : List NodeRow)
  | writing (request : Request) (seen : List NodeRow)
  | detachTarget (id : Uuid) (stamp : Stamp)
  | detachSnapshot (target : MembershipRow) (stamp : Stamp)
  | detachLocking (target : MembershipRow) (todo : List Uuid) (stamp : Stamp)
  | detachDeleting (target : MembershipRow) (records : List MembershipRecord)
      (stamp : Stamp)
  | grantLookup (target : GrantTarget) (id : Uuid) (stamp : Stamp)
  | granting (target : GrantTarget) (id : Uuid) (stamp : Stamp)
  | grantRelookup (target : GrantTarget)
  | revoking (grant : RoleGrant) (stamp : Stamp)
  | seedLookup (principal id : Uuid) (issuer : String) (stamp : Stamp)
  | seeding (grant : RoleGrant) (issuer : String) (stamp : Stamp)
  /-- Written, enqueued and recorded; the commit is next. -/
  | ready (request : Option Request) (seen : List NodeRow) (changes : Changes)
  /-- Committed; the read of the created node for the answer is next. -/
  | rereading (node : NodeKey)
  | done (outcome : Outcome)

structure World where
  db : Db
  locks : List (RowLock RowKey)
  txns : Nat → Option Phase
  /-- Who committed what, in commit order. -/
  commits : List (Nat × Changes)

inductive Action where
  | register (principal : Uuid)
  | start (txn : Nat) (request : Request)
  | advance (txn : Nat)
  | fail (txn : Nat)

namespace World

def initial : World := ⟨Db.empty, [], fun _ => none, []⟩

def moveTo (world : World) (txn : Nat) (phase : Phase) : World :=
  { world with txns := Function.update world.txns txn (some phase) }

/-- Ends the transaction of a call. -/
def finish (world : World) (txn : Nat) (outcome : Outcome) : World :=
  { world with locks := RowLock.release world.locks txn }.moveTo txn
    (.done outcome)

/-- Takes exclusive locks on all keys, or waits. -/
def lockAll (world : World) (txn : Nat) (keys : List RowKey) :
    Option World :=
  if keys.all fun key => RowLock.grantable world.locks key txn .exclusive then
    some { world with
      locks := keys.map (fun key => ⟨key, txn, .exclusive⟩) ++ world.locks }
  else
    none

/-- The insert statements, which a constraint may reject. -/
def insert (world : World) (txn : Nat) (request : Option Request)
    (seen : List NodeRow) (changes : Changes) : Option World :=
  if world.db.rejects changes then
    some (world.finish txn .refused)
  else
    (world.lockAll txn changes.insertKeys).map
      (·.moveTo txn (.ready request seen changes))

/-- Makes the writes of a transaction visible and ends it. -/
def commit (world : World) (txn : Nat) (changes : Changes) : World :=
  { world with
    db := world.db.apply changes
    locks := RowLock.release world.locks txn
    commits := world.commits ++ [(txn, changes)] }

/-- How a call goes on after its commit: the create calls of teams and projects
read the node back. -/
def answer (request : Option Request) (changes : Changes) : Phase :=
  match request.map Request.call with
  | some (.createTeam _ id _ _) => .rereading (.team id)
  | some (.createProject _ _ id _ _) => .rereading (.project id)
  | _ => .done (.returned changes.changesRow)

/-- The organization membership that a membership below needs, `FOR SHARE`. -/
def lockRoot (world : World) (txn : Nat) (principal org : Uuid) :
    Option (Option World) :=
  match world.db.memberships.find? fun row =>
      row.principal = principal && row.node = .organization org with
  | none => some none
  | some root =>
      if RowLock.grantable world.locks (.membership root.id) txn .shared then
        some (some { world with
          locks := ⟨.membership root.id, txn, .shared⟩ :: world.locks })
      else
        none

/-- The service's part before the transaction. -/
def start (world : World) (txn : Nat) (request : Request) : Option World :=
  let refused := some (world.moveTo txn (.done .refused))
  match request.call with
  | .createProject org parent _ _ _ =>
      match world.db.find (.team parent) with
      | none => refused
      | some team =>
          if team.place = .team org then
            match world.db.find (.organization org) with
            | none => refused
            | some organization =>
                if (view team [organization]).effectiveStatus = .archived then
                  refused
                else
                  some (world.moveTo txn (.chain request []))
          else
            none
  | .attach _ principal _ =>
      if world.db.resolvePrincipal principal then
        some (world.moveTo txn (.chain request []))
      else
        refused
  | .detach id => some (world.moveTo txn (.detachTarget id request.stamp))
  | .grant target id =>
      match role target.roleKey with
      | none => refused
      | some role =>
          if target.scope.kind ∈ role.scopeKinds ∧
              world.db.resolveScope target.scope ∧
              world.db.resolvePrincipal target.principal then
            some (world.moveTo txn (.grantLookup target id request.stamp))
          else
            refused
  | .revoke id =>
      match world.db.grants.find? fun grant => grant.id = id with
      | none => refused
      | some grant => some (world.moveTo txn (.revoking grant request.stamp))
  | .seedAdmin principal id issuer =>
      some (world.moveTo txn (.seedLookup principal id issuer request.stamp))
  | _ => some (world.moveTo txn (.chain request []))

/-- The next row lock of a call, or its write. -/
def advanceChain (world : World) (txn : Nat) (request : Request)
    (seen : List NodeRow) : Option World :=
  match request.call.nextRow seen with
  | .refuse _ => some (world.finish txn .refused)
  | .lock key mode =>
      match world.db.find key with
      | none => some (world.finish txn .refused)
      | some row =>
          if RowLock.grantable world.locks (.node key) txn mode then
            some ({ world with
              locks := ⟨.node key, txn, mode⟩ :: world.locks }.moveTo txn
                (.chain request (seen ++ [row])))
          else
            none
  | .complete =>
      match request.body seen with
      | .error _ => some (world.finish txn .refused)
      | .ok _ =>
          match request.call, seen with
          | .attach _ principal _, own :: _ =>
              match own.place.parentOrg with
              | none => some (world.moveTo txn (.writing request seen))
              | some org =>
                  (world.lockRoot txn principal.uuid org).map fun rooted =>
                    match rooted with
                    | none => world.finish txn .refused
                    | some locked => locked.moveTo txn (.writing request seen)
          | _, _ => some (world.moveTo txn (.writing request seen))

/-- The statement of a call that waits for its turn in the given phase. -/
def advance (world : World) (txn : Nat) (phase : Phase) : Option World :=
  match phase with
  | .chain request seen => world.advanceChain txn request seen
  | .writing request seen =>
      match request.body seen with
      | .error _ => some (world.finish txn .refused)
      | .ok changes => world.insert txn (some request) seen changes
  | .detachTarget id stamp =>
      match world.db.memberships.find? fun row => row.id = id with
      | none => some (world.finish txn .refused)
      | some target =>
          (world.lockAll txn [.membership id]).map
            (·.moveTo txn (.detachSnapshot target stamp))
  | .detachSnapshot target stamp =>
      some (world.moveTo txn (.detachLocking target
        ((world.db.detachSelection target).map MembershipRow.id) stamp))
  | .detachLocking target (id :: rest) stamp =>
      -- A row that a concurrent detach has deleted meanwhile is skipped.
      if world.db.memberships.any fun row => row.id = id then
        (world.lockAll txn [.membership id]).map
          (·.moveTo txn (.detachLocking target rest stamp))
      else
        some (world.moveTo txn (.detachLocking target rest stamp))
  | .detachLocking target [] stamp =>
      some (world.moveTo txn (.detachDeleting target
        (world.db.detachRecords target) stamp))
  | .detachDeleting target records stamp =>
      let deleted := (world.db.detachSelection target).map MembershipRow.id
      (world.lockAll txn (deleted.map RowKey.membership)).map
        (·.moveTo txn (.ready none []
          (detachIn target.id records deleted stamp)))
  | .grantLookup target id stamp =>
      match world.db.existingGrant target with
      | some _ => some (world.finish txn (.returned false))
      | none => some (world.moveTo txn (.granting target id stamp))
  | .granting target id stamp =>
      if (world.db.existingGrant target).isSome then
        some (world.moveTo txn (.grantRelookup target))
      else
        world.insert txn none []
          (grantIn (newGrant target id stamp.instant) stamp)
  | .grantRelookup target =>
      match world.db.existingGrant target with
      | some _ => some (world.finish txn (.returned false))
      | none => some (world.finish txn .refused)
  | .revoking grant stamp =>
      if world.db.grants.any fun row => row.id = grant.id then
        (world.lockAll txn [.grant grant.id]).map
          (·.moveTo txn (.ready none [] (revokeIn grant stamp)))
      else
        some (world.finish txn (.returned false))
  | .seedLookup principal id issuer stamp =>
      if world.db.grants.any fun grant =>
          grant.principal.uuid = principal &&
            grant.roleKey = platformAdminKey && grant.scope = .root then
        some (world.finish txn (.returned false))
      else
        some (world.moveTo txn (.seeding
          (newGrant ⟨PrincipalId.fromUuid principal, platformAdminKey, .root⟩ id
            stamp.instant)
          issuer stamp))
  | .seeding grant issuer stamp =>
      if (world.db.existingGrant (targetOf grant)).isSome then
        some (world.finish txn (.returned false))
      else
        world.insert txn none [] (seedGrantIn grant issuer stamp.correlation)
  | .ready request _ changes =>
      some ((world.commit txn changes).moveTo txn
        (answer request changes))
  | .rereading node =>
      match world.db.find node with
      | some _ => some (world.moveTo txn (.done (.returned true)))
      | none => some (world.moveTo txn (.done .refused))
  | .done _ => none

def step (world : World) : Action → Option World
  | .register principal =>
      if principal ∈ world.db.principals then
        none
      else
        some { world with
          db := { world.db with
            principals := world.db.principals ++ [principal] } }
  | .start txn request =>
      match world.txns txn with
      | none => world.start txn request
      | some _ => none
  | .advance txn =>
      match world.txns txn with
      | none => none
      | some phase => world.advance txn phase
  | .fail txn =>
      match world.txns txn with
      | none => none
      | some (.done _) => none
      | some _ => some (world.finish txn .refused)

end World

end Paigasus.Tenancy
