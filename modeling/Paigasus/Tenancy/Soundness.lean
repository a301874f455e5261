import Paigasus.Tenancy.Isolation

/-!
# Soundness of every interleaving

Each statement of a call keeps what all open calls know about the rows they have
locked, so the invariant of the transactions holds in every reachable state.
-/

namespace Paigasus.Tenancy

open Foundation Kernel Core Roles

theorem ok_of_map {Error Value Result : Type} {value : Except Error Value}
    {convert : Value → Result} {result : Result}
    (mapped : value.map convert = .ok result) :
    ∃ inner, value = .ok inner ∧ convert inner = result := by
  cases value with
  | error error => cases mapped
  | ok inner => exact ⟨inner, rfl, Except.ok.inj mapped⟩

theorem createIn_spec {row parent : NodeRow} {above : List NodeRow}
    {target : NodeView} (created : createIn row parent above = .ok target) :
    (view parent above).effectiveStatus ≠ .archived ∧
      target = ⟨row, row.status⟩ := by
  unfold createIn at created
  split at created
  · cases created
  · rename_i active
    cases created
    exact ⟨active, rfl⟩

theorem renameIn_spec {own : NodeRow} {above : List NodeRow}
    {newSlug newName : Option String} {stamp : Stamp} {out : Mutated}
    (renamed : renameIn own above newSlug newName stamp = .ok out) :
    (view own above).effectiveStatus ≠ .archived ∧
      out.value = view out.value.node above ∧
      out.value.node.id = own.id ∧ out.value.node.place = own.place ∧
      out.value.node.status = own.status := by
  unfold renameIn at renamed
  split at renamed
  · cases renamed
  · rename_i active
    split at renamed <;> cases renamed <;> exact ⟨active, rfl, rfl, rfl, rfl⟩

theorem setStatusIn_spec (own : NodeRow) (above : List NodeRow)
    (status : NodeStatus) (stamp : Stamp) :
    (setStatusIn own above status stamp).value =
        view (setStatusIn own above status stamp).value.node above ∧
      (setStatusIn own above status stamp).value.node.id = own.id ∧
      (setStatusIn own above status stamp).value.node.place = own.place := by
  unfold setStatusIn
  split <;> exact ⟨rfl, rfl, rfl⟩

theorem attachIn_spec {id principal : Uuid} {own : NodeRow}
    {above : List NodeRow} {stamp : Stamp} {changes : Changes}
    (computed : attachIn id principal own above stamp = .ok changes) :
    (view own above).effectiveStatus ≠ .archived ∧
      changes = attachment id principal own stamp := by
  unfold attachIn at computed
  split at computed
  · cases computed
  · rename_i active
    cases computed
    exact ⟨active, rfl⟩

/-- What the body of a call has written, one case for each shape of call. -/
inductive Written (request : Request) : List NodeRow → Changes → Prop where
  | organization {id team grant : Uuid} {slug name : String}
      (seen : List NodeRow)
      (isCall : request.call = .createOrganization id team grant slug name) :
      Written request seen
        (createOrganizationIn id team grant slug name request.stamp)
  | team {org id : Uuid} {slug name : String} {parent : NodeRow}
      {above : List NodeRow}
      (isCall : request.call = .createTeam org id slug name)
      (active : (view parent above).effectiveStatus ≠ .archived) :
      Written request (parent :: above)
        (creation ⟨newNode id (.team org) slug name request.stamp, .active⟩
          request.stamp)
  | project {org team id : Uuid} {slug name : String} {parent : NodeRow}
      {above : List NodeRow}
      (isCall : request.call = .createProject org team id slug name)
      (active : (view parent above).effectiveStatus ≠ .archived) :
      Written request (parent :: above)
        (creation
          ⟨newNode id (.project org team) slug name request.stamp, .active⟩
          request.stamp)
  | renamed {node : NodeKey} {newSlug newName : Option String} {own : NodeRow}
      {above : List NodeRow} {out : Mutated}
      (isCall : request.call = .rename node newSlug newName)
      (result : renameIn own above newSlug newName request.stamp = .ok out) :
      Written request (own :: above) (mutation .renamed out request.stamp)
  | statusSet {node : NodeKey} {status : NodeStatus} {own : NodeRow}
      {above : List NodeRow}
      (isCall : request.call = .setStatus node status) :
      Written request (own :: above)
        (mutation (statusChange status)
          (setStatusIn own above status request.stamp) request.stamp)
  | attached {id : Uuid} {principal : PrincipalId} {node : TenancyNodeRef}
      {own : NodeRow} {above : List NodeRow}
      (isCall : request.call = .attach id principal node)
      (active : (view own above).effectiveStatus ≠ .archived) :
      Written request (own :: above)
        (attachment id principal.uuid own request.stamp)

theorem Request.written {request : Request} {seen : List NodeRow}
    {changes : Changes} (computed : request.body seen = .ok changes) :
    Written request seen changes := by
  obtain ⟨call, stamp⟩ := request
  cases call with
  | createOrganization id team grant slug name =>
      cases computed
      exact .organization seen rfl
  | createTeam org id slug name =>
      cases seen with
      | nil => cases computed
      | cons parent above =>
          obtain ⟨target, created, rfl⟩ := ok_of_map computed
          obtain ⟨active, rfl⟩ := createIn_spec created
          exact .team rfl active
  | createProject org team id slug name =>
      cases seen with
      | nil => cases computed
      | cons parent above =>
          obtain ⟨target, created, rfl⟩ := ok_of_map computed
          obtain ⟨active, rfl⟩ := createIn_spec created
          exact .project rfl active
  | rename node newSlug newName =>
      cases seen with
      | nil => cases computed
      | cons own above =>
          obtain ⟨out, result, rfl⟩ := ok_of_map computed
          exact .renamed rfl result
  | setStatus node status =>
      cases seen with
      | nil => cases computed
      | cons own above =>
          cases computed
          exact .statusSet rfl
  | attach id principal node =>
      cases seen with
      | nil => cases computed
      | cons own above =>
          obtain ⟨active, rfl⟩ := attachIn_spec computed
          exact .attached rfl active
  | detach id => cases computed
  | grant target id => cases computed
  | revoke id => cases computed
  | seedAdmin principal id issuer => cases computed

section Sanction

variable {db : Db} {locks : List (RowLock RowKey)} {txn : Nat}
  {changes : Changes}

/-- Writes that only concern grants need no row lock. -/
theorem sanctioned_of_grantsOnly (noUpdate : changes.updated = none)
    (noInsert : changes.inserted = []) (noAttach : changes.attached = [])
    (noDetach : changes.detached = []) : Sanctioned db locks txn changes := by
  constructor <;> simp [noUpdate, noInsert, noAttach, noDetach]

theorem fresh_of_accepted (accepted : db.rejects changes = false) :
    (∀ row ∈ changes.inserted, ∀ old ∈ db.nodes, old.key ≠ row.key) ∧
      ∀ row ∈ changes.attached, ∀ other ∈ db.memberships,
        other.id ≠ row.id ∧
          (other.principal, other.node) ≠ (row.principal, row.node) := by
  rw [Db.rejects, Bool.or_eq_false_iff, Bool.or_eq_false_iff] at accepted
  obtain ⟨⟨noNode, noMembership⟩, _⟩ := accepted
  constructor
  · intro row inserted old member sameKey
    have absent := List.any_eq_false.mp noNode row inserted
    rw [Bool.not_eq_true, Option.isSome_eq_false_iff, Option.isNone_iff_eq_none]
      at absent
    have here := List.find?_eq_none.mp absent old member
    simp [sameKey] at here
  · intro row attached other member
    have absent := List.any_eq_false.mp noMembership row attached
    rw [Bool.not_eq_true] at absent
    have here := List.any_eq_false.mp absent other member
    simp only [Bool.or_eq_true, Bool.and_eq_true, decide_eq_true_eq,
      not_or] at here
    refine ⟨here.1, ?_⟩
    intro sameTarget
    exact here.2 (Prod.mk.inj sameTarget)

/-- The insert of new nodes. -/
theorem sanctioned_of_insert
    (held : ∀ key ∈ changes.insertKeys, ⟨key, txn, .exclusive⟩ ∈ locks)
    (accepted : db.rejects changes = false)
    (once : (changes.inserted.map NodeRow.key).Nodup)
    (noUpdate : changes.updated = none) (noAttach : changes.attached = [])
    (noDetach : changes.detached = []) : Sanctioned db locks txn changes := by
  constructor
  case inserted =>
    intro row inserted
    refine ⟨held _ ?_, (fresh_of_accepted accepted).1 row inserted⟩
    simp only [Changes.insertKeys, List.mem_append]
    exact .inl (.inl (List.mem_map_of_mem inserted))
  case insertedOnce => exact once
  all_goals simp [noUpdate, noAttach, noDetach]

/-- The update of a row that the transaction holds exclusively. -/
theorem sanctioned_mutation {change : NodeChange} {out : Mutated}
    {stamp : Stamp} {own : NodeRow}
    (held : ⟨.node own.key, txn, .exclusive⟩ ∈ locks)
    (stored : own ∈ db.nodes) (sameId : out.value.node.id = own.id)
    (samePlace : out.value.node.place = own.place) :
    Sanctioned db locks txn (mutation change out stamp) := by
  unfold mutation
  split
  · constructor
    case updated =>
      intro row isUpdated
      cases isUpdated
      refine ⟨?_, own, stored, sameId.symm, samePlace.symm⟩
      rw [NodeRow.key, sameId, samePlace]
      exact held
    all_goals simp [Changes.none]
  · exact sanctioned_of_grantsOnly rfl rfl rfl rfl

theorem Path.own {call : Call} {own : NodeRow} {above : List NodeRow}
    {key : NodeKey} {mode : LockMode}
    (path : Path db locks txn call (own :: above))
    (isAnchor : call.anchor = some (key, mode)) :
    own ∈ db.nodes ∧ own.key = key ∧ ⟨.node own.key, txn, mode⟩ ∈ locks := by
  obtain ⟨sameKey, held⟩ := path.anchored key mode isAnchor own above rfl
  exact ⟨path.stored own List.mem_cons_self, sameKey, sameKey.symm ▸ held⟩

theorem orgOf_of_mem (consistent : db.Consistent) {row : NodeRow}
    (member : row ∈ db.nodes) : db.orgOf row.key = row.place.parentOrg := by
  rw [Db.orgOf, Db.find_of_mem consistent.uniqueNodes member]
  rfl

/-- The writes of a call are sanctioned once their insert is accepted. -/
theorem Written.sanctioned {request : Request} {seen : List NodeRow}
    (written : Written request seen changes) (consistent : db.Consistent)
    (path : Path db locks txn request.call seen)
    (root : RootHeld db locks txn request.call seen)
    (held : ∀ key ∈ changes.insertKeys, ⟨key, txn, .exclusive⟩ ∈ locks)
    (accepted : db.rejects changes = false) :
    Sanctioned db locks txn changes := by
  cases written with
  | organization seen isCall =>
      apply sanctioned_of_insert held accepted _ rfl rfl rfl
      simp [createOrganizationIn, newNode, NodeRow.key, Place.key]
  | team isCall active =>
      apply sanctioned_of_insert held accepted _ rfl rfl rfl
      simp [creation]
  | project isCall active =>
      apply sanctioned_of_insert held accepted _ rfl rfl rfl
      simp [creation]
  | renamed isCall result =>
      obtain ⟨_, _, sameId, samePlace, _⟩ := renameIn_spec result
      obtain ⟨stored, _, locked⟩ := path.own (by rw [isCall]; rfl)
      exact sanctioned_mutation locked stored sameId samePlace
  | @statusSet node status own above isCall =>
      obtain ⟨_, sameId, samePlace⟩ :=
        setStatusIn_spec own above status request.stamp
      obtain ⟨stored, _, locked⟩ := path.own (by rw [isCall]; rfl)
      exact sanctioned_mutation locked stored sameId samePlace
  | @attached id principal node own above isCall active =>
      obtain ⟨stored, _, _⟩ := path.own (by rw [isCall]; rfl)
      have occupied : ∀ key ∈ [RowKey.membership id,
          .membershipTarget principal.uuid own.key],
          ⟨key, txn, .exclusive⟩ ∈ locks := by
        intro key member
        apply held
        simpa [Changes.insertKeys, attachment, Changes.none] using member
      constructor
      case attached =>
        intro row attached
        have fresh := (fresh_of_accepted accepted).2 row attached
        rw [attachment, List.mem_singleton] at attached
        subst attached
        exact ⟨occupied _ (by simp), occupied _ (by simp), fresh,
          ⟨own, stored, rfl⟩, path.known id principal node isCall⟩
      case attachedBelow =>
        intro row attached org below
        rw [attachment, List.mem_singleton] at attached
        subst attached
        rw [orgOf_of_mem consistent stored] at below
        exact root id principal node isCall own above rfl org below
      case attachedOnce => simp [attachment]
      all_goals simp [attachment, Changes.none]

theorem orgOf_organization (org : Uuid) :
    db.orgOf (.organization org) = none := by
  cases found : db.find (.organization org) with
  | none => simp [Db.orgOf, found]
  | some row =>
      have isOrg := (Db.find_some found).2
      cases place : row.place with
      | organization => simp [Db.orgOf, found, place, Place.parentOrg]
      | team above => simp [NodeRow.key, place, Place.key] at isOrg
      | project above parent => simp [NodeRow.key, place, Place.key] at isOrg

/-- A detach selects with a row everything that a detach of that row
selects. -/
theorem detachSelection_closed (consistent : db.Consistent)
    {target middle row : MembershipRow} (stored : target ∈ db.memberships)
    (first : middle ∈ db.detachSelection target)
    (second : row ∈ db.detachSelection middle) :
    row ∈ db.detachSelection target := by
  obtain ⟨middleMember, firstSelects⟩ := List.mem_filter.mp first
  obtain ⟨member, secondSelects⟩ := List.mem_filter.mp second
  rw [Db.detachSelects, Bool.or_eq_true, decide_eq_true_eq]
    at firstSelects secondSelects
  rcases firstSelects with sameTarget | below
  · rw [← consistent.membership_ext middleMember stored sameTarget]
    exact second
  · rcases secondSelects with sameMiddle | beneath
    · rw [consistent.membership_ext member middleMember sameMiddle]
      exact first
    -- A membership below an organization is not on an organization itself.
    · cases middleNode : middle.node with
      | organization org =>
          rw [middleNode, orgOf_organization] at below
          cases targetNode : target.node <;> simp [targetNode] at below
      | team id => simp [middleNode] at beneath
      | project id => simp [middleNode] at beneath

theorem sanctioned_detach (consistent : db.Consistent) {target : MembershipRow}
    {records : List MembershipRecord} {stamp : Stamp}
    (stored : target ∈ db.memberships)
    (held : ∀ id ∈ (db.detachSelection target).map MembershipRow.id,
      ⟨.membership id, txn, .exclusive⟩ ∈ locks) :
    Sanctioned db locks txn (detachIn target.id records
      ((db.detachSelection target).map MembershipRow.id) stamp) := by
  constructor
  case detached => exact held
  case detachedClosed =>
    intro middle middleMember detached row selected
    obtain ⟨found, first, sameId⟩ := List.mem_map.mp detached
    have same : found = middle := consistent.membership_ext
      (List.mem_of_mem_filter first) middleMember sameId
    subst same
    exact List.mem_map_of_mem
      (detachSelection_closed consistent stored first selected)
  all_goals simp [detachIn, Changes.none]

end Sanction

section Retain

variable {db : Db} {locks more : List (RowLock RowKey)} {txn : Nat}

/-- The transaction keeps its locks. -/
def Retained (locks more : List (RowLock RowKey)) (txn : Nat) : Prop :=
  ∀ lock ∈ locks, lock.owner = txn → lock ∈ more

theorem retained_of_release {other : Nat} (different : txn ≠ other) :
    Retained locks (RowLock.release locks other) txn := by
  intro lock member owner
  exact RowLock.mem_release member (owner ▸ different)

theorem Path.retain {call : Call} {seen : List NodeRow}
    (path : Path db locks txn call seen) (retained : Retained locks more txn) :
    Path db more txn call seen where
  stored := path.stored
  held := by
    intro row member
    obtain ⟨mode, held⟩ := path.held row member
    exact ⟨mode, retained _ held rfl⟩
  anchored := by
    intro key mode isAnchor own above isSeen
    obtain ⟨sameKey, held⟩ := path.anchored key mode isAnchor own above isSeen
    exact ⟨sameKey, retained _ held rfl⟩
  ancestry := path.ancestry
  known := path.known

theorem RootHeld.retain {call : Call} {seen : List NodeRow}
    (root : RootHeld db locks txn call seen)
    (retained : Retained locks more txn) :
    RootHeld db more txn call seen := by
  intro id principal node isAttach own above isSeen org below
  obtain ⟨row, member, samePrincipal, rootNode, mode, held⟩ :=
    root id principal node isAttach own above isSeen org below
  exact ⟨row, member, samePrincipal, rootNode, mode, retained _ held rfl⟩

theorem Sanctioned.retain {changes : Changes}
    (sanctioned : Sanctioned db locks txn changes)
    (retained : Retained locks more txn) : Sanctioned db more txn changes where
  updated := by
    intro row isUpdated
    obtain ⟨held, old⟩ := sanctioned.updated row isUpdated
    exact ⟨retained _ held rfl, old⟩
  inserted := by
    intro row inserted
    obtain ⟨held, fresh⟩ := sanctioned.inserted row inserted
    exact ⟨retained _ held rfl, fresh⟩
  insertedOnce := sanctioned.insertedOnce
  attached := by
    intro row attached
    obtain ⟨idHeld, targetHeld, rest⟩ := sanctioned.attached row attached
    exact ⟨retained _ idHeld rfl, retained _ targetHeld rfl, rest⟩
  attachedBelow := by
    intro row attached org below
    obtain ⟨root, member, samePrincipal, rootNode, mode, held⟩ :=
      sanctioned.attachedBelow row attached org below
    exact ⟨root, member, samePrincipal, rootNode, mode, retained _ held rfl⟩
  attachedOnce := sanctioned.attachedOnce
  attachedAlone := sanctioned.attachedAlone
  detached := by
    intro id detached
    exact retained _ (sanctioned.detached id detached) rfl
  detachedClosed := sanctioned.detachedClosed

/-- A call knows what it knew as long as it keeps its own locks. -/
theorem Phase.Sound.retain {phase : Phase} (sound : phase.Sound db locks txn)
    (retained : Retained locks more txn) : phase.Sound db more txn := by
  cases phase with
  | chain request seen => exact Path.retain sound retained
  | writing request seen =>
      obtain ⟨path, complete, root⟩ := sound
      exact ⟨path.retain retained, complete, root.retain retained⟩
  | detachSnapshot target stamp => exact ⟨sound.1, retained _ sound.2 rfl⟩
  | detachLocking target todo stamp =>
      obtain ⟨held, rest⟩ := sound
      refine ⟨⟨held.1, retained _ held.2 rfl⟩, ?_⟩
      intro row selected
      rcases rest row selected with later | locked
      · exact .inl later
      · exact .inr (retained _ locked rfl)
  | detachDeleting target records stamp =>
      obtain ⟨held, allHeld, isRecords⟩ := sound
      refine ⟨⟨held.1, retained _ held.2 rfl⟩, ?_, isRecords⟩
      intro row selected
      exact retained _ (allHeld row selected) rfl
  | ready request seen changes =>
      obtain ⟨sanctioned, explained, origin⟩ := sound
      refine ⟨sanctioned.retain retained, explained, ?_⟩
      intro request isRequest
      obtain ⟨path, complete⟩ := origin request isRequest
      exact ⟨path.retain retained, complete⟩
  | rereading node => exact sound
  | _ => trivial

end Retain

section Register

variable {db : Db} {locks : List (RowLock RowKey)} {txn : Nat}
  {registered : List Uuid}

theorem Path.register {call : Call} {seen : List NodeRow}
    (path : Path db locks txn call seen)
    (kept : ∀ principal ∈ db.principals, principal ∈ registered) :
    Path { db with principals := registered } locks txn call seen where
  stored := path.stored
  held := path.held
  anchored := path.anchored
  ancestry := path.ancestry
  known := fun id principal node isAttach =>
    kept _ (path.known id principal node isAttach)

theorem detachRecords_register (consistent : db.Consistent)
    (kept : ∀ principal ∈ db.principals, principal ∈ registered)
    (target : MembershipRow) :
    { db with principals := registered }.detachRecords target =
      db.detachRecords target := by
  have records : (db.detachSelection target).filterMap
      { db with principals := registered }.record? =
      (db.detachSelection target).filterMap db.record? := by
    apply List.filterMap_congr
    intro row selected
    have known := consistent.memberPrincipals row
      (List.mem_of_mem_filter selected)
    rw [Db.record?, Db.record?, if_pos known, if_pos (kept _ known)]
    rfl
  exact congrArg _ records

theorem Explained.register {request : Option Request} {seen : List NodeRow}
    {changes : Changes} (explained : Explained db request seen changes)
    (consistent : db.Consistent)
    (kept : ∀ principal ∈ db.principals, principal ∈ registered) :
    Explained { db with principals := registered } request seen changes := by
  cases explained with
  | request request seen changes computed =>
      exact .request request seen _ computed
  | detach target stamp stored =>
      rw [← detachRecords_register consistent kept]
      exact @Explained.detach { db with principals := registered } target stamp
        stored
  | grant grant stamp => exact .grant grant stamp
  | seed grant issuer correlation => exact .seed grant issuer correlation
  | revoke grant stamp => exact .revoke grant stamp

theorem Sanctioned.register {changes : Changes}
    (sanctioned : Sanctioned db locks txn changes)
    (kept : ∀ principal ∈ db.principals, principal ∈ registered) :
    Sanctioned { db with principals := registered } locks txn changes where
  updated := sanctioned.updated
  inserted := sanctioned.inserted
  insertedOnce := sanctioned.insertedOnce
  attached := by
    intro row attached
    obtain ⟨idHeld, targetHeld, fresh, stored, known⟩ :=
      sanctioned.attached row attached
    exact ⟨idHeld, targetHeld, fresh, stored, kept _ known⟩
  attachedBelow := sanctioned.attachedBelow
  attachedOnce := sanctioned.attachedOnce
  attachedAlone := sanctioned.attachedAlone
  detached := sanctioned.detached
  detachedClosed := sanctioned.detachedClosed

theorem Phase.Sound.register {phase : Phase} (sound : phase.Sound db locks txn)
    (consistent : db.Consistent)
    (kept : ∀ principal ∈ db.principals, principal ∈ registered) :
    phase.Sound { db with principals := registered } locks txn := by
  cases phase with
  | chain request seen => exact Path.register sound kept
  | writing request seen =>
      obtain ⟨path, complete, root⟩ := sound
      exact ⟨path.register kept, complete, root⟩
  | detachDeleting target records stamp =>
      obtain ⟨held, allHeld, isRecords⟩ := sound
      exact ⟨held, allHeld,
        isRecords.trans (detachRecords_register consistent kept target).symm⟩
  | ready request seen changes =>
      obtain ⟨sanctioned, explained, origin⟩ := sound
      refine ⟨sanctioned.register kept, explained.register consistent kept, ?_⟩
      intro request isRequest
      obtain ⟨path, complete⟩ := origin request isRequest
      exact ⟨path.register kept, complete⟩
  | detachSnapshot target stamp => exact sound
  | detachLocking target todo stamp => exact sound
  | rereading node => exact sound
  | _ => trivial

end Register

theorem nextRow_lock {call : Call} {seen : List NodeRow} {key : NodeKey}
    {mode : LockMode} (isNext : call.nextRow seen = .lock key mode) :
    (seen = [] ∧ call.anchor = some (key, mode)) ∨
      ∃ own above, seen = own :: above ∧
        own.place.ancestors[above.length]? = some key := by
  unfold Call.nextRow at isNext
  split at isNext
  · cases isNext
  · rename_i isAnchor
    cases isNext
    exact .inl ⟨rfl, isAnchor⟩
  · rename_i own above isAnchor
    split at isNext
    · cases isNext
    · split at isNext
      · rename_i isKey
        cases isNext
        exact .inr ⟨own, above, rfl, isKey⟩
      · cases isNext

/-- The next row of the chain, locked. -/
theorem Path.extend {db : Db} {locks : List (RowLock RowKey)} {txn : Nat}
    {call : Call} {seen : List NodeRow} {key : NodeKey} {mode : LockMode} {row : NodeRow}
    (path : Path db locks txn call seen)
    (isNext : call.nextRow seen = .lock key mode)
    (found : db.find key = some row) :
    Path db (⟨.node key, txn, mode⟩ :: locks) txn call (seen ++ [row]) := by
  obtain ⟨member, isKey⟩ := Db.find_some found
  constructor
  · intro other otherMember
    rcases List.mem_append.mp otherMember with old | new
    · exact path.stored other old
    · rw [List.mem_singleton.mp new]
      exact member
  · intro other otherMember
    rcases List.mem_append.mp otherMember with old | new
    · obtain ⟨mode, held⟩ := path.held other old
      exact ⟨mode, List.mem_cons_of_mem _ held⟩
    · rw [List.mem_singleton.mp new, isKey]
      exact ⟨mode, List.mem_cons_self⟩
  · intro anchor anchorMode isAnchor own above isSeen
    rcases nextRow_lock isNext with ⟨rfl, first⟩ | ⟨first, rest, rfl, _⟩
    · rw [isAnchor] at first
      cases first
      cases isSeen
      exact ⟨isKey, List.mem_cons_self⟩
    · rw [List.cons_append] at isSeen
      cases isSeen
      obtain ⟨sameKey, held⟩ :=
        path.anchored anchor anchorMode isAnchor own rest rfl
      exact ⟨sameKey, List.mem_cons_of_mem _ held⟩
  · intro own above isSeen
    rcases nextRow_lock isNext with ⟨rfl, _⟩ | ⟨first, rest, rfl, nextKey⟩
    · cases isSeen
      rfl
    · rw [List.cons_append] at isSeen
      cases isSeen
      rw [List.map_append, path.ancestry own rest rfl, List.length_append,
        List.length_singleton, List.take_add_one, nextKey]
      simp [isKey]
  · exact path.known

namespace World

variable {world next : World} {txn : Nat}

theorem Sound.moveTo (sound : world.Sound) {phase : Phase}
    (here : phase.Sound world.db world.locks txn) :
    (world.moveTo txn phase).Sound where
  consistent := sound.consistent
  coexist := sound.coexist
  phases := by
    intro other current isCurrent
    by_cases same : other = txn
    · subst same
      simp only [World.moveTo, Function.update_self, Option.some.injEq]
        at isCurrent
      rw [← isCurrent]
      exact here
    · simp only [World.moveTo, Function.update_of_ne same] at isCurrent
      exact sound.phases other current isCurrent

theorem Sound.finish (sound : world.Sound) (outcome : Outcome) :
    (world.finish txn outcome).Sound where
  consistent := sound.consistent
  coexist := sound.coexist.release txn
  phases := by
    intro other current isCurrent
    by_cases same : other = txn
    · subst same
      simp only [World.finish, World.moveTo, Function.update_self,
        Option.some.injEq] at isCurrent
      rw [← isCurrent]
      trivial
    · simp only [World.finish, World.moveTo, Function.update_of_ne same]
        at isCurrent
      exact (sound.phases other current isCurrent).retain
        (retained_of_release same)

theorem Sound.lock (sound : world.Sound) {key : RowKey} {mode : LockMode}
    (granted : RowLock.grantable world.locks key txn mode = true) :
    { world with locks := ⟨key, txn, mode⟩ :: world.locks }.Sound where
  consistent := sound.consistent
  coexist := sound.coexist.acquire granted
  phases := by
    intro other current isCurrent
    apply (sound.phases other current isCurrent).retain
    intro lock member _
    exact List.mem_cons_of_mem _ member

/-- A successful `lockAll` adds exclusive locks and changes nothing else. -/
theorem lockAll_some {keys : List RowKey}
    (locked : world.lockAll txn keys = some next) :
    (∀ key ∈ keys, RowLock.grantable world.locks key txn .exclusive = true) ∧
      next = { world with
        locks := keys.map (fun key => ⟨key, txn, .exclusive⟩) ++
          world.locks } := by
  unfold lockAll at locked
  split at locked
  · rename_i granted
    exact ⟨List.all_eq_true.mp granted, (Option.some.inj locked).symm⟩
  · cases locked

theorem Sound.lockAll (sound : world.Sound) {keys : List RowKey}
    (locked : world.lockAll txn keys = some next) :
    next.Sound ∧ next.db = world.db ∧ next.txns = world.txns ∧
      next.commits = world.commits ∧
      (∀ lock ∈ world.locks, lock ∈ next.locks) ∧
      ∀ key ∈ keys, ⟨key, txn, .exclusive⟩ ∈ next.locks := by
  obtain ⟨granted, rfl⟩ := lockAll_some locked
  have kept : ∀ lock ∈ world.locks,
      lock ∈ keys.map (fun key => ⟨key, txn, .exclusive⟩) ++ world.locks :=
    fun lock member => List.mem_append_right _ member
  refine ⟨⟨sound.consistent, sound.coexist.acquireAll granted, ?_⟩, rfl, rfl,
    rfl, kept, ?_⟩
  · intro other current isCurrent
    apply (sound.phases other current isCurrent).retain
    intro lock member _
    exact kept lock member
  · intro key member
    exact List.mem_append_left _ (List.mem_map_of_mem member)

theorem Sound.insert (sound : world.Sound) {request : Option Request}
    {seen : List NodeRow} {changes : Changes}
    (inserted : world.insert txn request seen changes = some next)
    (explained : Explained world.db request seen changes)
    (origin : ∀ origin, request = some origin →
      Path world.db world.locks txn origin.call seen ∧
        origin.call.nextRow seen = .complete)
    (sanction : ∀ locks, (∀ lock ∈ world.locks, lock ∈ locks) →
      (∀ key ∈ changes.insertKeys, ⟨key, txn, .exclusive⟩ ∈ locks) →
      world.db.rejects changes = false →
      Sanctioned world.db locks txn changes) : next.Sound := by
  unfold World.insert at inserted
  split at inserted
  · cases inserted
    exact sound.finish .refused
  · rename_i accepted
    rw [Bool.not_eq_true] at accepted
    obtain ⟨locked, isLocked, rfl⟩ := Option.map_eq_some_iff.mp inserted
    obtain ⟨lockedSound, sameDb, _, _, kept, held⟩ := sound.lockAll isLocked
    apply lockedSound.moveTo
    rw [Phase.Sound, sameDb]
    refine ⟨sanction locked.locks kept held accepted, explained, ?_⟩
    intro request isRequest
    obtain ⟨path, complete⟩ := origin request isRequest
    exact ⟨path.retain fun lock member _ => kept lock member, complete⟩

theorem lockRoot_some {principal org : Uuid} {rooted : Option World}
    (locked : world.lockRoot txn principal org = some rooted) :
    rooted = none ∨ ∃ root ∈ world.db.memberships,
      root.principal = principal ∧ root.node = .organization org ∧
      RowLock.grantable world.locks (.membership root.id) txn .shared = true ∧
      rooted = some { world with
        locks := ⟨.membership root.id, txn, .shared⟩ :: world.locks } := by
  unfold lockRoot at locked
  split at locked
  · cases locked
    exact .inl rfl
  · rename_i root found
    split at locked
    · rename_i granted
      cases locked
      have isRoot := List.find?_some found
      simp only [Bool.and_eq_true, decide_eq_true_eq] at isRoot
      exact .inr ⟨root, List.mem_of_find?_eq_some found, isRoot.1, isRoot.2,
        granted, rfl⟩
    · cases locked

theorem Sound.advanceChain (sound : world.Sound) {request : Request}
    {seen : List NodeRow}
    (path : Path world.db world.locks txn request.call seen)
    (advanced : world.advanceChain txn request seen = some next) :
    next.Sound := by
  unfold World.advanceChain at advanced
  split at advanced
  · cases advanced
    exact sound.finish .refused
  · rename_i key mode isNext
    split at advanced
    · cases advanced
      exact sound.finish .refused
    · rename_i row found
      split at advanced
      · rename_i granted
        cases advanced
        apply (sound.lock granted).moveTo
        exact path.extend isNext found
      · cases advanced
  · rename_i complete
    split at advanced
    · cases advanced
      exact sound.finish .refused
    · split at advanced
      · rename_i id principal node own above isCall computed
        split at advanced
        · rename_i noOrg
          cases advanced
          apply sound.moveTo
          refine ⟨path, complete, ?_⟩
          rintro _ _ _ _ first rest isSeen org below
          cases isSeen
          rw [noOrg] at below
          cases below
        · rename_i org isBelow
          obtain ⟨rooted, locked, rfl⟩ := Option.map_eq_some_iff.mp advanced
          rcases lockRoot_some locked with
            rfl | ⟨root, member, isPrincipal, isRoot, granted, rfl⟩
          · exact sound.finish .refused
          · apply (sound.lock granted).moveTo
            have more : Retained world.locks
                (⟨.membership root.id, txn, .shared⟩ :: world.locks) txn :=
              fun lock held _ => List.mem_cons_of_mem _ held
            refine ⟨path.retain more, complete, ?_⟩
            intro _ _ _ isAttach first rest isSeen above' below
            cases isSeen
            rw [isCall] at isAttach
            cases isAttach
            rw [isBelow] at below
            cases below
            exact ⟨root, member, isPrincipal, isRoot, .shared,
              List.mem_cons_self⟩
      · rename_i notAttach computed
        cases advanced
        apply sound.moveTo
        refine ⟨path, complete, ?_⟩
        intro id principal node isAttach own above isSeen
        exact absurd isSeen (notAttach id principal node own above isAttach)

theorem path_nil {db : Db} {locks : List (RowLock RowKey)} {call : Call}
    (known : ∀ id principal node, call = .attach id principal node →
      principal.uuid ∈ db.principals) : Path db locks txn call [] where
  stored := by simp
  held := by simp
  anchored := by simp
  ancestry := by simp
  known := known

theorem Sound.start (sound : world.Sound) {request : Request}
    (started : world.start txn request = some next) : next.Sound := by
  obtain ⟨call, stamp⟩ := request
  have refused : (world.moveTo txn (.done .refused)).Sound :=
    sound.moveTo trivial
  have opened : (∀ id principal node, call = .attach id principal node →
      principal.uuid ∈ world.db.principals) →
      (world.moveTo txn (.chain ⟨call, stamp⟩ [])).Sound :=
    fun known => sound.moveTo (path_nil known)
  cases call with
  | createProject org parent id slug name =>
      simp only [World.start] at started
      split at started
      · cases started
        exact refused
      · split at started
        · split at started
          · cases started
            exact refused
          · split at started
            · cases started
              exact refused
            · cases started
              exact opened (by simp)
        · cases started
  | attach id principal node =>
      simp only [World.start] at started
      split at started
      · rename_i resolved
        cases started
        rw [Db.resolvePrincipal, Bool.and_eq_true, decide_eq_true_eq]
          at resolved
        apply opened
        intro _ _ _ isAttach
        cases isAttach
        exact resolved.1
      · cases started
        exact refused
  | detach id =>
      cases started
      exact sound.moveTo trivial
  | grant target id =>
      simp only [World.start] at started
      split at started
      · cases started
        exact refused
      · split at started
        · rename_i resolved
          cases started
          exact sound.moveTo trivial
        · cases started
          exact refused
  | revoke id =>
      simp only [World.start] at started
      split at started
      · cases started
        exact refused
      · cases started
        exact sound.moveTo trivial
  | seedAdmin principal id issuer =>
      cases started
      exact sound.moveTo trivial
  | createOrganization id team grant slug name =>
      cases started
      exact opened (by simp)
  | createTeam org id slug name =>
      cases started
      exact opened (by simp)
  | rename node newSlug newName =>
      cases started
      exact opened (by simp)
  | setStatus node status =>
      cases started
      exact opened (by simp)

/-- The commit of a transaction. -/
theorem Sound.commit (sound : world.Sound) {request : Option Request}
    {seen : List NodeRow} {changes : Changes} {phase : Phase}
    (opened : world.txns txn = some (.ready request seen changes))
    (here : phase.Sound (world.db.apply changes)
      (RowLock.release world.locks txn) txn) :
    ((world.commit txn changes).moveTo txn phase).Sound where
  consistent :=
    sound.consistent.apply (sound.phases txn _ opened).1
  coexist := sound.coexist.release txn
  phases := by
    intro other current isCurrent
    by_cases same : other = txn
    · subst same
      simp only [World.moveTo, Function.update_self, Option.some.injEq]
        at isCurrent
      rw [← isCurrent]
      exact here
    · simp only [World.moveTo, Function.update_of_ne same] at isCurrent
      exact (sound.phases other current isCurrent).frame sound.consistent
        sound.coexist (sound.phases txn _ opened).1 same

theorem answer_sound {db : Db} {locks : List (RowLock RowKey)}
    {request : Option Request} {seen : List NodeRow} {changes : Changes}
    (explained : Explained db request seen changes) :
    (answer request changes).Sound (db.apply changes) locks txn := by
  have stored : ∀ row ∈ changes.inserted,
      ∃ node ∈ (db.apply changes).nodes, node.key = row.key :=
    fun row inserted => ⟨row, List.mem_append_right _ inserted, rfl⟩
  cases explained with
  | request request seen changes computed =>
      cases Request.written computed with
      | organization seen isCall =>
          simp [answer, isCall, Phase.Sound]
      | team isCall active =>
          simp only [answer, Option.map_some, isCall]
          exact stored _ List.mem_cons_self
      | project isCall active =>
          simp only [answer, Option.map_some, isCall]
          exact stored _ List.mem_cons_self
      | renamed isCall result => simp [answer, isCall, Phase.Sound]
      | statusSet isCall => simp [answer, isCall, Phase.Sound]
      | attached isCall active => simp [answer, isCall, Phase.Sound]
  | detach target stamp stored => trivial
  | grant grant stamp => trivial
  | seed grant issuer correlation => trivial
  | revoke grant stamp => trivial

theorem Sound.advance_detachLocking (sound : world.Sound)
    {target : MembershipRow} {id : Uuid} {rest : List Uuid} {stamp : Stamp}
    (here : (Phase.detachLocking target (id :: rest) stamp).Sound world.db
      world.locks txn)
    (advanced : world.advance txn (.detachLocking target (id :: rest) stamp) =
      some next) : next.Sound := by
  obtain ⟨held, todo⟩ := here
  simp only [World.advance] at advanced
  split at advanced
  · obtain ⟨locked, isLocked, rfl⟩ := Option.map_eq_some_iff.mp advanced
    obtain ⟨lockedSound, sameDb, _, _, kept, taken⟩ := sound.lockAll isLocked
    apply lockedSound.moveTo
    rw [Phase.Sound, sameDb]
    refine ⟨⟨held.1, kept _ held.2⟩, ?_⟩
    intro row selected
    rcases todo row selected with later | already
    · rcases List.mem_cons.mp later with rfl | later
      · exact .inr (taken _ List.mem_cons_self)
      · exact .inl later
    · exact .inr (kept _ already)
  · rename_i absent
    cases advanced
    apply sound.moveTo
    refine ⟨held, ?_⟩
    intro row selected
    rcases todo row selected with later | already
    · rcases List.mem_cons.mp later with rfl | later
      · exfalso
        apply absent
        rw [List.any_eq_true]
        exact ⟨row, List.mem_of_mem_filter selected, by simp⟩
      · exact .inl later
    · exact .inr already

/-- Every statement of a call keeps the invariant. -/
theorem Sound.advance (sound : world.Sound) {phase : Phase}
    (current : world.txns txn = some phase)
    (advanced : world.advance txn phase = some next) : next.Sound := by
  have here := sound.phases txn phase current
  cases phase with
  | chain request seen => exact sound.advanceChain here advanced
  | writing request seen =>
      obtain ⟨path, complete, root⟩ := here
      simp only [World.advance] at advanced
      split at advanced
      · cases advanced
        exact sound.finish .refused
      · rename_i changes computed
        apply sound.insert advanced (.request request seen changes computed)
        · rintro origin ⟨⟩
          exact ⟨path, complete⟩
        · intro locks kept held accepted
          have retained : Retained world.locks locks txn :=
            fun lock member _ => kept lock member
          exact (Request.written computed).sanctioned sound.consistent
            (path.retain retained) (root.retain retained) held accepted
  | detachTarget id stamp =>
      simp only [World.advance] at advanced
      split at advanced
      · cases advanced
        exact sound.finish .refused
      · rename_i target found
        obtain ⟨locked, isLocked, rfl⟩ := Option.map_eq_some_iff.mp advanced
        obtain ⟨lockedSound, sameDb, _, _, _, taken⟩ := sound.lockAll isLocked
        apply lockedSound.moveTo
        have isTarget : target.id = id := by
          simpa using List.find?_some found
        rw [Phase.Sound, TargetHeld, sameDb, isTarget]
        exact ⟨List.mem_of_find?_eq_some found, taken _ List.mem_cons_self⟩
  | detachSnapshot target stamp =>
      cases advanced
      apply sound.moveTo
      exact ⟨here, fun row selected => .inl (List.mem_map_of_mem selected)⟩
  | detachLocking target todo stamp =>
      cases todo with
      | cons id rest => exact sound.advance_detachLocking here advanced
      | nil =>
          cases advanced
          obtain ⟨held, locked⟩ := here
          apply sound.moveTo
          refine ⟨held, ?_, rfl⟩
          intro row selected
          exact (locked row selected).resolve_left List.not_mem_nil
  | detachDeleting target records stamp =>
      obtain ⟨held, allHeld, rfl⟩ := here
      obtain ⟨locked, isLocked, rfl⟩ := Option.map_eq_some_iff.mp advanced
      obtain ⟨lockedSound, sameDb, _, _, _, taken⟩ := sound.lockAll isLocked
      apply lockedSound.moveTo
      rw [Phase.Sound, sameDb]
      refine ⟨sanctioned_detach sound.consistent held.1 ?_,
        .detach target stamp held.1, by simp⟩
      intro id detached
      exact taken _ (List.mem_map_of_mem detached)
  | grantLookup target id stamp =>
      simp only [World.advance] at advanced
      split at advanced
      · cases advanced
        exact sound.finish _
      · cases advanced
        exact sound.moveTo trivial
  | granting target id stamp =>
      simp only [World.advance] at advanced
      split at advanced
      · cases advanced
        exact sound.moveTo trivial
      · apply sound.insert advanced (.grant _ stamp) (by simp)
        intro locks _ _ _
        exact sanctioned_of_grantsOnly rfl rfl rfl rfl
  | grantRelookup target =>
      simp only [World.advance] at advanced
      split at advanced <;> cases advanced <;> exact sound.finish _
  | revoking grant stamp =>
      simp only [World.advance] at advanced
      split at advanced
      · obtain ⟨locked, isLocked, rfl⟩ := Option.map_eq_some_iff.mp advanced
        obtain ⟨lockedSound, _⟩ := sound.lockAll isLocked
        apply lockedSound.moveTo
        exact ⟨sanctioned_of_grantsOnly rfl rfl rfl rfl, .revoke grant stamp,
          by simp⟩
      · cases advanced
        exact sound.finish _
  | seedLookup principal id issuer stamp =>
      simp only [World.advance] at advanced
      split at advanced
      · cases advanced
        exact sound.finish _
      · cases advanced
        exact sound.moveTo trivial
  | seeding grant issuer stamp =>
      simp only [World.advance] at advanced
      split at advanced
      · cases advanced
        exact sound.finish _
      · apply sound.insert advanced (.seed grant issuer stamp.correlation)
          (by simp)
        intro locks _ _ _
        exact sanctioned_of_grantsOnly rfl rfl rfl rfl
  | ready request seen changes =>
      cases advanced
      exact sound.commit current (answer_sound here.2.1)
  | rereading node =>
      simp only [World.advance] at advanced
      split at advanced <;> cases advanced <;> exact sound.moveTo trivial
  | done outcome => cases advanced

theorem step_sound {action : Action} (sound : world.Sound)
    (stepped : world.step action = some next) : next.Sound := by
  cases action with
  | register principal =>
      simp only [step] at stepped
      split at stepped
      · cases stepped
      · cases stepped
        have kept : ∀ other ∈ world.db.principals,
            other ∈ world.db.principals ++ [principal] :=
          fun other member => List.mem_append_left _ member
        refine ⟨?_, sound.coexist, ?_⟩
        · obtain ⟨nodes, ids, targets, stored, known, rooted⟩ :=
            sound.consistent
          exact ⟨nodes, ids, targets, stored,
            fun row member => kept _ (known row member), rooted⟩
        · intro txn phase current
          exact (sound.phases txn phase current).register sound.consistent kept
  | start txn request =>
      simp only [step] at stepped
      split at stepped
      · exact sound.start stepped
      · cases stepped
  | advance txn =>
      simp only [step] at stepped
      split at stepped
      · cases stepped
      · rename_i current
        exact sound.advance current stepped
  | fail txn =>
      simp only [step] at stepped
      split at stepped
      · cases stepped
      · cases stepped
      · cases stepped
        exact sound.finish .refused

theorem reachable_sound (reachable : Reachable step initial world) :
    world.Sound :=
  reachable.invariant (fun _ _ _ => step_sound) sound_initial

end World

end Paigasus.Tenancy
