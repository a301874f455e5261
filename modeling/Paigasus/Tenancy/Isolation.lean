import Paigasus.Tenancy.Transactions

/-!
# Isolation of the tenancy transactions

What an open transaction has read stays true until it ends, because the rows it
rests on are locked: the rows of a node's chain, the organization membership
above a new membership, and the rows that a detach selects.  From this the
committed rows stay consistent at every commit.
-/

namespace Paigasus.Tenancy

open Foundation Kernel Core Roles

/-- Facts about the committed rows that hold between transactions. -/
structure Db.Consistent (db : Db) : Prop where
  uniqueNodes : (db.nodes.map NodeRow.key).Nodup
  uniqueIds : (db.memberships.map MembershipRow.id).Nodup
  uniqueTargets : (db.memberships.map fun row =>
    (row.principal, row.node)).Nodup
  memberNodes : ∀ row ∈ db.memberships, ∃ node ∈ db.nodes, node.key = row.node
  memberPrincipals : ∀ row ∈ db.memberships, row.principal ∈ db.principals
  rooted : ∀ row ∈ db.memberships, ∀ org, db.orgOf row.node = some org →
    ∃ root ∈ db.memberships, root.principal = row.principal ∧
      root.node = .organization org

/-- The rows that a call has locked on its way from its node to the
organization. -/
structure Path (db : Db) (locks : List (RowLock RowKey)) (txn : Nat)
    (call : Call) (seen : List NodeRow) : Prop where
  stored : ∀ row ∈ seen, row ∈ db.nodes
  held : ∀ row ∈ seen, ∃ mode, ⟨.node row.key, txn, mode⟩ ∈ locks
  anchored : ∀ key mode, call.anchor = some (key, mode) →
    ∀ own above, seen = own :: above →
      own.key = key ∧ ⟨.node key, txn, mode⟩ ∈ locks
  ancestry : ∀ own above, seen = own :: above →
    above.map NodeRow.key = own.place.ancestors.take above.length
  known : ∀ id principal node, call = .attach id principal node →
    principal.uuid ∈ db.principals

/-- The organization membership above a new membership is locked. -/
def RootHeld (db : Db) (locks : List (RowLock RowKey)) (txn : Nat)
    (call : Call) (seen : List NodeRow) : Prop :=
  ∀ id principal node, call = .attach id principal node →
    ∀ own above, seen = own :: above →
      ∀ org, own.place.parentOrg = some org →
        ∃ root ∈ db.memberships, root.principal = principal.uuid ∧
          root.node = .organization org ∧
          ∃ mode, ⟨.membership root.id, txn, mode⟩ ∈ locks

/-- What the locks of a transaction guarantee about its pending writes. -/
structure Sanctioned (db : Db) (locks : List (RowLock RowKey)) (txn : Nat)
    (changes : Changes) : Prop where
  updated : ∀ row, changes.updated = some row →
    ⟨.node row.key, txn, .exclusive⟩ ∈ locks ∧
      ∃ old ∈ db.nodes, old.id = row.id ∧ old.place = row.place
  inserted : ∀ row ∈ changes.inserted,
    ⟨.node row.key, txn, .exclusive⟩ ∈ locks ∧
      ∀ old ∈ db.nodes, old.key ≠ row.key
  insertedOnce : (changes.inserted.map NodeRow.key).Nodup
  attached : ∀ row ∈ changes.attached,
    ⟨.membership row.id, txn, .exclusive⟩ ∈ locks ∧
      ⟨.membershipTarget row.principal row.node, txn, .exclusive⟩ ∈ locks ∧
      (∀ other ∈ db.memberships, other.id ≠ row.id ∧
        (other.principal, other.node) ≠ (row.principal, row.node)) ∧
      (∃ node ∈ db.nodes, node.key = row.node) ∧
      row.principal ∈ db.principals
  attachedBelow : ∀ row ∈ changes.attached, ∀ org,
    db.orgOf row.node = some org →
      ∃ root ∈ db.memberships, root.principal = row.principal ∧
        root.node = .organization org ∧
        ∃ mode, ⟨.membership root.id, txn, mode⟩ ∈ locks
  attachedOnce : changes.attached.length ≤ 1
  attachedAlone : changes.attached = [] ∨ changes.detached = []
  detached : ∀ id ∈ changes.detached,
    ⟨.membership id, txn, .exclusive⟩ ∈ locks
  detachedClosed : ∀ target ∈ db.memberships, target.id ∈ changes.detached →
    ∀ row ∈ db.detachSelection target, row.id ∈ changes.detached

/-- Where the pending writes of a transaction come from. -/
inductive Explained (db : Db) :
    Option Request → List NodeRow → Changes → Prop where
  | request (request : Request) (seen : List NodeRow) (changes : Changes)
      (computed : request.body seen = .ok changes) :
      Explained db (some request) seen changes
  | detach (target : MembershipRow) (stamp : Stamp)
      (stored : target ∈ db.memberships) :
      Explained db none [] (detachIn target.id (db.detachRecords target)
        ((db.detachSelection target).map MembershipRow.id) stamp)
  | grant (grant : RoleGrant) (stamp : Stamp) :
      Explained db none [] (grantIn grant stamp)
  | seed (grant : RoleGrant) (issuer : String) (correlation : Uuid) :
      Explained db none [] (seedGrantIn grant issuer correlation)
  | revoke (grant : RoleGrant) (stamp : Stamp) :
      Explained db none [] (revokeIn grant stamp)

/-- The target of a detach is stored and locked. -/
def TargetHeld (db : Db) (locks : List (RowLock RowKey)) (txn : Nat)
    (target : MembershipRow) : Prop :=
  target ∈ db.memberships ∧ ⟨.membership target.id, txn, .exclusive⟩ ∈ locks

/-- Every row that the detach selects is locked. -/
def SelectionHeld (db : Db) (locks : List (RowLock RowKey)) (txn : Nat)
    (target : MembershipRow) : Prop :=
  ∀ row ∈ db.detachSelection target,
    ⟨.membership row.id, txn, .exclusive⟩ ∈ locks

/-- What is known in each phase. -/
def Phase.Sound (db : Db) (locks : List (RowLock RowKey)) (txn : Nat) :
    Phase → Prop
  | .chain request seen => Path db locks txn request.call seen
  | .writing request seen =>
      Path db locks txn request.call seen ∧
        request.call.nextRow seen = .complete ∧
        RootHeld db locks txn request.call seen
  | .detachSnapshot target _ => TargetHeld db locks txn target
  | .detachLocking target todo _ =>
      TargetHeld db locks txn target ∧
        ∀ row ∈ db.detachSelection target, row.id ∈ todo ∨
          ⟨.membership row.id, txn, .exclusive⟩ ∈ locks
  | .detachDeleting target records _ =>
      TargetHeld db locks txn target ∧ SelectionHeld db locks txn target ∧
        records = db.detachRecords target
  | .ready request seen changes =>
      Sanctioned db locks txn changes ∧ Explained db request seen changes ∧
        ∀ origin, request = some origin →
          Path db locks txn origin.call seen ∧
            origin.call.nextRow seen = .complete
  | .rereading node => ∃ row ∈ db.nodes, row.key = node
  | _ => True

theorem Sanctioned.attached_nodup {db : Db} {locks : List (RowLock RowKey)}
    {txn : Nat} {changes : Changes} {Value : Type}
    (sanctioned : Sanctioned db locks txn changes)
    (value : MembershipRow → Value) : (changes.attached.map value).Nodup := by
  cases attached : changes.attached with
  | nil => simp
  | cons row rest =>
      have short := sanctioned.attachedOnce
      rw [attached, List.length_cons] at short
      have noRest : rest = [] := List.length_eq_zero_iff.mp (by omega)
      simp [noRest]

namespace World

/-- The invariant of the transactions. -/
structure Sound (world : World) : Prop where
  consistent : world.db.Consistent
  coexist : RowLock.Coexist world.locks
  phases : ∀ txn phase, world.txns txn = some phase →
    phase.Sound world.db world.locks txn

theorem sound_initial : initial.Sound where
  consistent :=
    { uniqueNodes := by simp [initial, Db.empty]
      uniqueIds := by simp [initial, Db.empty]
      uniqueTargets := by simp [initial, Db.empty]
      memberNodes := by simp [initial, Db.empty]
      memberPrincipals := by simp [initial, Db.empty]
      rooted := by simp [initial, Db.empty] }
  coexist := RowLock.coexist_nil
  phases := by simp [initial]

end World

namespace Db

variable {db : Db}

theorem find_some {key : NodeKey} {row : NodeRow}
    (found : db.find key = some row) : row ∈ db.nodes ∧ row.key = key :=
  ⟨List.mem_of_find?_eq_some found, by simpa using List.find?_some found⟩

theorem find_of_mem (unique : (db.nodes.map NodeRow.key).Nodup)
    {row : NodeRow} (member : row ∈ db.nodes) : db.find row.key = some row := by
  cases found : db.find row.key with
  | none =>
      have absent := List.find?_eq_none.mp found row member
      simp at absent
  | some other =>
      obtain ⟨otherMember, sameKey⟩ := find_some found
      rw [List.inj_on_of_nodup_map unique otherMember member sameKey]

theorem Consistent.membership_ext (consistent : db.Consistent)
    {left right : MembershipRow} (leftMember : left ∈ db.memberships)
    (rightMember : right ∈ db.memberships) (sameId : left.id = right.id) :
    left = right :=
  List.inj_on_of_nodup_map consistent.uniqueIds leftMember rightMember sameId

theorem Consistent.target_ext (consistent : db.Consistent)
    {left right : MembershipRow} (leftMember : left ∈ db.memberships)
    (rightMember : right ∈ db.memberships)
    (samePrincipal : left.principal = right.principal)
    (sameNode : left.node = right.node) : left = right :=
  List.inj_on_of_nodup_map consistent.uniqueTargets leftMember rightMember
    (Prod.ext samePrincipal sameNode)

section Commit

variable {locks : List (RowLock RowKey)} {other : Nat} {changes : Changes}

/-- An update keeps the identity and the place of a row. -/
theorem rewrite_spec (consistent : db.Consistent)
    (sanctioned : Sanctioned db locks other changes) {row : NodeRow}
    (member : row ∈ db.nodes) :
    (rewrite changes row).id = row.id ∧
      (rewrite changes row).place = row.place := by
  unfold rewrite
  split
  · rename_i updated isUpdated
    split
    · rename_i sameKey
      obtain ⟨_, old, oldMember, sameId, samePlace⟩ :=
        sanctioned.updated updated isUpdated
      have oldKey : old.key = row.key := by
        rw [← sameKey, NodeRow.key, NodeRow.key, sameId, samePlace]
      have same := List.inj_on_of_nodup_map consistent.uniqueNodes oldMember
        member oldKey
      rw [← same]
      exact ⟨sameId.symm, samePlace.symm⟩
    · exact ⟨rfl, rfl⟩
  · exact ⟨rfl, rfl⟩

theorem rewrite_key (consistent : db.Consistent)
    (sanctioned : Sanctioned db locks other changes) {row : NodeRow}
    (member : row ∈ db.nodes) : (rewrite changes row).key = row.key := by
  obtain ⟨sameId, samePlace⟩ := rewrite_spec consistent sanctioned member
  rw [NodeRow.key, NodeRow.key, sameId, samePlace]

theorem apply_uniqueNodes (consistent : db.Consistent)
    (sanctioned : Sanctioned db locks other changes) :
    ((db.apply changes).nodes.map NodeRow.key).Nodup := by
  have keys : (db.nodes.map (rewrite changes)).map NodeRow.key =
      db.nodes.map NodeRow.key := by
    rw [List.map_map]
    apply List.map_congr_left
    intro row member
    exact rewrite_key consistent sanctioned member
  unfold apply
  rw [List.map_append, keys, List.nodup_append]
  refine ⟨consistent.uniqueNodes, sanctioned.insertedOnce, ?_⟩
  intro key member new newMember
  obtain ⟨old, oldMember, rfl⟩ := List.mem_map.mp member
  obtain ⟨row, rowMember, rfl⟩ := List.mem_map.mp newMember
  exact (sanctioned.inserted row rowMember).2 old oldMember

theorem mem_nodes_apply {row : NodeRow} (member : row ∈ db.nodes) :
    rewrite changes row ∈ (db.apply changes).nodes :=
  List.mem_append_left _ (List.mem_map_of_mem member)

/-- A stored node is found after a commit with its identity and place. -/
theorem find_apply (consistent : db.Consistent)
    (sanctioned : Sanctioned db locks other changes) {row : NodeRow}
    (member : row ∈ db.nodes) :
    (db.apply changes).find row.key = some (rewrite changes row) := by
  rw [← rewrite_key consistent sanctioned member]
  exact find_of_mem (apply_uniqueNodes consistent sanctioned)
    (mem_nodes_apply member)

theorem orgOf_apply (consistent : db.Consistent)
    (sanctioned : Sanctioned db locks other changes) {key : NodeKey}
    (stored : ∃ node ∈ db.nodes, node.key = key) :
    (db.apply changes).orgOf key = db.orgOf key := by
  obtain ⟨node, member, rfl⟩ := stored
  rw [orgOf, orgOf, find_apply consistent sanctioned member,
    find_of_mem consistent.uniqueNodes member]
  simp only [Option.bind_some]
  rw [(rewrite_spec consistent sanctioned member).2]

theorem mem_memberships_apply {row : MembershipRow} :
    row ∈ (db.apply changes).memberships ↔
      (row ∈ db.memberships ∧ row.id ∉ changes.detached) ∨
        row ∈ changes.attached := by
  simp [apply, List.mem_filter]

theorem detachSelects_apply (consistent : db.Consistent)
    (sanctioned : Sanctioned db locks other changes)
    {target row : MembershipRow}
    (stored : ∃ node ∈ db.nodes, node.key = row.node) :
    (db.apply changes).detachSelects target row =
      db.detachSelects target row := by
  unfold detachSelects
  rw [orgOf_apply consistent sanctioned stored]

/-- A commit keeps the committed rows consistent. -/
theorem Consistent.apply (consistent : db.Consistent)
    (sanctioned : Sanctioned db locks other changes) :
    (db.apply changes).Consistent := by
  have kept : ∀ {key : NodeKey}, (∃ node ∈ db.nodes, node.key = key) →
      ∃ node ∈ (db.apply changes).nodes, node.key = key := by
    rintro key ⟨node, member, rfl⟩
    exact ⟨_, mem_nodes_apply member, rewrite_key consistent sanctioned member⟩
  constructor
  · exact apply_uniqueNodes consistent sanctioned
  · unfold Db.apply
    rw [List.map_append, List.nodup_append]
    refine ⟨consistent.uniqueIds.sublist (List.filter_sublist.map _), ?_, ?_⟩
    · exact sanctioned.attached_nodup _
    · intro id member new newMember
      obtain ⟨old, oldMember, rfl⟩ := List.mem_map.mp member
      obtain ⟨row, rowMember, rfl⟩ := List.mem_map.mp newMember
      obtain ⟨_, _, fresh, _⟩ := sanctioned.attached row rowMember
      exact (fresh old (List.mem_of_mem_filter oldMember)).1
  · unfold Db.apply
    rw [List.map_append, List.nodup_append]
    refine ⟨consistent.uniqueTargets.sublist (List.filter_sublist.map _), ?_, ?_⟩
    · exact sanctioned.attached_nodup _
    · intro pair member new newMember
      obtain ⟨old, oldMember, rfl⟩ := List.mem_map.mp member
      obtain ⟨row, rowMember, rfl⟩ := List.mem_map.mp newMember
      obtain ⟨_, _, fresh, _⟩ := sanctioned.attached row rowMember
      exact (fresh old (List.mem_of_mem_filter oldMember)).2
  · intro row member
    rcases mem_memberships_apply.mp member with ⟨old, _⟩ | new
    · exact kept (consistent.memberNodes row old)
    · obtain ⟨_, _, _, stored, _⟩ := sanctioned.attached row new
      exact kept stored
  · intro row member
    rcases mem_memberships_apply.mp member with ⟨old, _⟩ | new
    · exact consistent.memberPrincipals row old
    · obtain ⟨_, _, _, _, known⟩ := sanctioned.attached row new
      exact known
  · intro row member org below
    rcases mem_memberships_apply.mp member with ⟨old, notDetached⟩ | new
    · rw [orgOf_apply consistent sanctioned (consistent.memberNodes row old)]
        at below
      obtain ⟨root, rootMember, samePrincipal, rootNode⟩ :=
        consistent.rooted row old org below
      refine ⟨root, mem_memberships_apply.mpr (.inl ⟨rootMember, ?_⟩),
        samePrincipal, rootNode⟩
      -- A detach of the root would have selected the row as well.
      intro rootDetached
      apply notDetached
      apply sanctioned.detachedClosed root rootMember rootDetached row
      refine List.mem_filter.mpr ⟨old, ?_⟩
      simp [detachSelects, rootNode, samePrincipal, below]
    · obtain ⟨_, _, _, stored, _⟩ := sanctioned.attached row new
      rw [orgOf_apply consistent sanctioned stored] at below
      obtain ⟨root, rootMember, samePrincipal, rootNode, _⟩ :=
        sanctioned.attachedBelow row new org below
      refine ⟨root, mem_memberships_apply.mpr (.inl ⟨rootMember, ?_⟩),
        samePrincipal, rootNode⟩
      rcases sanctioned.attachedAlone with noneAttached | noneDetached
      · rw [noneAttached] at new
        cases new
      · rw [noneDetached]
        exact List.not_mem_nil

end Commit

end Db

section Frame

variable {db : Db} {locks : List (RowLock RowKey)} {txn other : Nat}
  {changes : Changes}

/-- A row that a transaction has locked is not rewritten by another commit. -/
theorem rewrite_of_held (coexist : RowLock.Coexist locks)
    (sanctioned : Sanctioned db locks other changes) (different : txn ≠ other)
    {row : NodeRow} {mode : LockMode}
    (held : ⟨.node row.key, txn, mode⟩ ∈ locks) :
    Db.rewrite changes row = row := by
  unfold Db.rewrite
  split
  · rename_i updated isUpdated
    split
    · rename_i sameKey
      have exclusive := (sanctioned.updated updated isUpdated).1
      rw [sameKey] at exclusive
      exact absurd (coexist.owner_eq exclusive held).symm different
    · rfl
  · rfl

theorem not_detached_of_held (coexist : RowLock.Coexist locks)
    (sanctioned : Sanctioned db locks other changes) (different : txn ≠ other)
    {id : Uuid} {mode : LockMode}
    (held : ⟨.membership id, txn, mode⟩ ∈ locks) : id ∉ changes.detached := by
  intro detached
  exact different (coexist.owner_eq (sanctioned.detached id detached) held).symm

theorem Path.frame {call : Call} {seen : List NodeRow}
    (path : Path db locks txn call seen) (coexist : RowLock.Coexist locks)
    (sanctioned : Sanctioned db locks other changes)
    (different : txn ≠ other) :
    Path (db.apply changes) (RowLock.release locks other) txn call seen where
  stored := by
    intro row member
    obtain ⟨mode, held⟩ := path.held row member
    rw [← rewrite_of_held coexist sanctioned different held]
    exact Db.mem_nodes_apply (path.stored row member)
  held := by
    intro row member
    obtain ⟨mode, held⟩ := path.held row member
    exact ⟨mode, RowLock.mem_release held different⟩
  anchored := by
    intro key mode isAnchor own above isSeen
    obtain ⟨sameKey, held⟩ := path.anchored key mode isAnchor own above isSeen
    exact ⟨sameKey, RowLock.mem_release held different⟩
  ancestry := path.ancestry
  known := path.known

/-- A membership that a transaction has locked stays. -/
theorem mem_memberships_of_held (coexist : RowLock.Coexist locks)
    (sanctioned : Sanctioned db locks other changes) (different : txn ≠ other)
    {row : MembershipRow} {mode : LockMode} (member : row ∈ db.memberships)
    (held : ⟨.membership row.id, txn, mode⟩ ∈ locks) :
    row ∈ (db.apply changes).memberships :=
  Db.mem_memberships_apply.mpr (.inl ⟨member,
    not_detached_of_held coexist sanctioned different held⟩)

theorem RootHeld.frame {call : Call} {seen : List NodeRow}
    (root : RootHeld db locks txn call seen) (coexist : RowLock.Coexist locks)
    (sanctioned : Sanctioned db locks other changes)
    (different : txn ≠ other) :
    RootHeld (db.apply changes) (RowLock.release locks other) txn call seen := by
  intro id principal node isAttach own above isSeen org below
  obtain ⟨row, member, samePrincipal, rootNode, mode, held⟩ :=
    root id principal node isAttach own above isSeen org below
  exact ⟨row, mem_memberships_of_held coexist sanctioned different member held,
    samePrincipal, rootNode, mode, RowLock.mem_release held different⟩

theorem TargetHeld.frame {target : MembershipRow}
    (held : TargetHeld db locks txn target) (coexist : RowLock.Coexist locks)
    (sanctioned : Sanctioned db locks other changes)
    (different : txn ≠ other) :
    TargetHeld (db.apply changes) (RowLock.release locks other) txn target :=
  ⟨mem_memberships_of_held coexist sanctioned different held.1 held.2,
    RowLock.mem_release held.2 different⟩

/-- No commit adds a row to the selection of a locked detach target: a new
membership below the organization would hold a lock on the target. -/
theorem attached_not_selected {target row : MembershipRow}
    (consistent : db.Consistent) (held : TargetHeld db locks txn target)
    (coexist : RowLock.Coexist locks)
    (sanctioned : Sanctioned db locks other changes) (different : txn ≠ other)
    (attached : row ∈ changes.attached) :
    (db.apply changes).detachSelects target row = false := by
  obtain ⟨_, _, fresh, stored, _⟩ := sanctioned.attached row attached
  rw [Db.detachSelects_apply consistent sanctioned stored]
  by_contra selected
  rw [Bool.not_eq_false, Db.detachSelects, Bool.or_eq_true,
    decide_eq_true_eq] at selected
  rcases selected with sameId | below
  · exact (fresh target held.1).1 sameId.symm
  · cases isOrg : target.node with
    | organization org =>
        simp only [isOrg, Bool.and_eq_true, decide_eq_true_eq] at below
        obtain ⟨root, rootMember, rootPrincipal, rootNode, mode, rootHeld⟩ :=
          sanctioned.attachedBelow row attached org below.2
        have same : root = target :=
          consistent.target_ext rootMember held.1
            (rootPrincipal.trans below.1) (rootNode.trans isOrg.symm)
        rw [same] at rootHeld
        exact different (coexist.owner_eq held.2 rootHeld)
    | team id => simp [isOrg] at below
    | project id => simp [isOrg] at below

theorem selection_apply_subset {target row : MembershipRow}
    (consistent : db.Consistent) (held : TargetHeld db locks txn target)
    (coexist : RowLock.Coexist locks)
    (sanctioned : Sanctioned db locks other changes) (different : txn ≠ other)
    (selected : row ∈ (db.apply changes).detachSelection target) :
    row ∈ db.detachSelection target := by
  obtain ⟨member, selects⟩ := List.mem_filter.mp selected
  rcases Db.mem_memberships_apply.mp member with ⟨old, _⟩ | new
  · rw [Db.detachSelects_apply consistent sanctioned
      (consistent.memberNodes row old)] at selects
    exact List.mem_filter.mpr ⟨old, selects⟩
  · rw [attached_not_selected consistent held coexist sanctioned different new]
      at selects
    cases selects

/-- With all selected rows locked the selection itself stays. -/
theorem selection_apply {target : MembershipRow}
    (consistent : db.Consistent) (held : TargetHeld db locks txn target)
    (allHeld : SelectionHeld db locks txn target)
    (coexist : RowLock.Coexist locks)
    (sanctioned : Sanctioned db locks other changes)
    (different : txn ≠ other) :
    (db.apply changes).detachSelection target = db.detachSelection target := by
  have noneNew : changes.attached.filter
      ((db.apply changes).detachSelects target) = [] := by
    apply List.filter_eq_nil_iff.mpr
    intro row attached
    rw [attached_not_selected consistent held coexist sanctioned different
      attached]
    exact Bool.false_ne_true
  unfold Db.detachSelection
  rw [show (db.apply changes).memberships =
    (db.memberships.filter fun row => row.id ∉ changes.detached) ++
      changes.attached from rfl, List.filter_append, noneNew, List.append_nil,
    List.filter_filter]
  apply List.filter_congr
  intro row member
  rw [Db.detachSelects_apply consistent sanctioned
    (consistent.memberNodes row member)]
  cases selects : db.detachSelects target row with
  | false => rfl
  | true =>
      have kept := not_detached_of_held coexist sanctioned different
        (allHeld row (List.mem_filter.mpr ⟨member, selects⟩))
      simp [kept]

theorem record?_apply (consistent : db.Consistent)
    (sanctioned : Sanctioned db locks other changes) {row : MembershipRow}
    (stored : ∃ node ∈ db.nodes, node.key = row.node) :
    (db.apply changes).record? row = db.record? row := by
  obtain ⟨node, member, sameKey⟩ := stored
  have before : db.find row.node = some node := by
    rw [← sameKey]
    exact Db.find_of_mem consistent.uniqueNodes member
  have after : (db.apply changes).find row.node =
      some (Db.rewrite changes node) := by
    rw [← sameKey]
    exact Db.find_apply consistent sanctioned member
  obtain ⟨sameId, samePlace⟩ := Db.rewrite_spec consistent sanctioned member
  have samePrn : (Db.rewrite changes node).prn = node.prn := by
    rw [NodeRow.prn, NodeRow.prn, sameId, samePlace]
  rw [Db.record?, Db.record?, before, after]
  simp [Db.apply, samePrn]

theorem detachRecords_apply {target : MembershipRow}
    (consistent : db.Consistent) (held : TargetHeld db locks txn target)
    (allHeld : SelectionHeld db locks txn target)
    (coexist : RowLock.Coexist locks)
    (sanctioned : Sanctioned db locks other changes)
    (different : txn ≠ other) :
    (db.apply changes).detachRecords target = db.detachRecords target := by
  have records : ((db.detachSelection target).filterMap
      (db.apply changes).record?) =
      (db.detachSelection target).filterMap db.record? := by
    apply List.filterMap_congr
    intro row selected
    apply record?_apply consistent sanctioned
    exact consistent.memberNodes row (List.mem_of_mem_filter selected)
  rw [Db.detachRecords, Db.detachRecords, selection_apply consistent held
    allHeld coexist sanctioned different, records]

theorem mem_nodes_apply_iff {row : NodeRow} :
    row ∈ (db.apply changes).nodes ↔
      (∃ old ∈ db.nodes, Db.rewrite changes old = row) ∨
        row ∈ changes.inserted := by
  simp [Db.apply]

/-- The pending writes of a transaction stay sanctioned across a commit of
another one. -/
theorem Sanctioned.frame {mine : Changes} (pending : Sanctioned db locks txn mine)
    (consistent : db.Consistent) (coexist : RowLock.Coexist locks)
    (sanctioned : Sanctioned db locks other changes)
    (different : txn ≠ other) :
    Sanctioned (db.apply changes) (RowLock.release locks other) txn mine where
  updated := by
    intro row isUpdated
    obtain ⟨held, old, member, sameId, samePlace⟩ :=
      pending.updated row isUpdated
    obtain ⟨keptId, keptPlace⟩ := Db.rewrite_spec consistent sanctioned member
    exact ⟨RowLock.mem_release held different, _, Db.mem_nodes_apply member,
      keptId.trans sameId, keptPlace.trans samePlace⟩
  inserted := by
    intro row inserted
    obtain ⟨held, fresh⟩ := pending.inserted row inserted
    refine ⟨RowLock.mem_release held different, ?_⟩
    intro stored member sameKey
    rcases mem_nodes_apply_iff.mp member with ⟨old, oldMember, rfl⟩ | new
    · rw [Db.rewrite_key consistent sanctioned oldMember] at sameKey
      exact fresh old oldMember sameKey
    · have theirs := (sanctioned.inserted stored new).1
      rw [sameKey] at theirs
      exact different (coexist.owner_eq held theirs)
  insertedOnce := pending.insertedOnce
  attached := by
    intro row attached
    obtain ⟨idHeld, targetHeld, fresh, ⟨node, stored, nodeKey⟩, known⟩ :=
      pending.attached row attached
    refine ⟨RowLock.mem_release idHeld different,
      RowLock.mem_release targetHeld different, ?_, ?_, known⟩
    · intro stored member
      rcases Db.mem_memberships_apply.mp member with ⟨old, _⟩ | new
      · exact fresh stored old
      · obtain ⟨theirId, theirTarget, _⟩ := sanctioned.attached stored new
        constructor
        · intro sameId
          rw [sameId] at theirId
          exact different (coexist.owner_eq idHeld theirId)
        · intro sameTarget
          obtain ⟨samePrincipal, sameNode⟩ := Prod.mk.inj sameTarget
          rw [samePrincipal, sameNode] at theirTarget
          exact different (coexist.owner_eq targetHeld theirTarget)
    · exact ⟨_, Db.mem_nodes_apply stored,
        (Db.rewrite_key consistent sanctioned stored).trans nodeKey⟩
  attachedBelow := by
    intro row attached org below
    obtain ⟨_, _, _, stored, _⟩ := pending.attached row attached
    rw [Db.orgOf_apply consistent sanctioned stored] at below
    obtain ⟨root, member, samePrincipal, rootNode, mode, held⟩ :=
      pending.attachedBelow row attached org below
    exact ⟨root,
      mem_memberships_of_held coexist sanctioned different member held,
      samePrincipal, rootNode, mode, RowLock.mem_release held different⟩
  attachedOnce := pending.attachedOnce
  attachedAlone := pending.attachedAlone
  detached := by
    intro id detached
    exact RowLock.mem_release (pending.detached id detached) different
  detachedClosed := by
    intro target member detached row selected
    have held := pending.detached target.id detached
    rcases Db.mem_memberships_apply.mp member with ⟨old, _⟩ | new
    · apply pending.detachedClosed target old detached row
      exact selection_apply_subset consistent ⟨old, held⟩ coexist sanctioned
        different selected
    · have theirs := (sanctioned.attached target new).1
      exact absurd (coexist.owner_eq held theirs) different

theorem mem_detachSelection_self {target : MembershipRow}
    (stored : target ∈ db.memberships) :
    target ∈ db.detachSelection target :=
  List.mem_filter.mpr ⟨stored, by simp [Db.detachSelects]⟩

theorem Explained.frame {request : Option Request} {seen : List NodeRow}
    {mine : Changes} (explained : Explained db request seen mine)
    (pending : Sanctioned db locks txn mine) (consistent : db.Consistent)
    (coexist : RowLock.Coexist locks)
    (sanctioned : Sanctioned db locks other changes)
    (different : txn ≠ other) :
    Explained (db.apply changes) request seen mine := by
  cases explained with
  | request request seen mine computed => exact .request request seen _ computed
  | detach target stamp stored =>
      have allHeld : SelectionHeld db locks txn target := by
        intro row selected
        exact pending.detached row.id (List.mem_map_of_mem selected)
      have held : TargetHeld db locks txn target :=
        ⟨stored, allHeld target (mem_detachSelection_self stored)⟩
      rw [← detachRecords_apply consistent held allHeld coexist sanctioned
          different,
        ← selection_apply consistent held allHeld coexist sanctioned different]
      exact .detach target stamp (held.frame coexist sanctioned different).1
  | grant grant stamp => exact .grant grant stamp
  | seed grant issuer correlation => exact .seed grant issuer correlation
  | revoke grant stamp => exact .revoke grant stamp

/-- What a call knows survives the commit of another call. -/
theorem Phase.Sound.frame {phase : Phase} (sound : phase.Sound db locks txn)
    (consistent : db.Consistent) (coexist : RowLock.Coexist locks)
    (sanctioned : Sanctioned db locks other changes)
    (different : txn ≠ other) :
    phase.Sound (db.apply changes) (RowLock.release locks other) txn := by
  cases phase with
  | chain request seen => exact Path.frame sound coexist sanctioned different
  | writing request seen =>
      obtain ⟨path, complete, root⟩ := sound
      exact ⟨path.frame coexist sanctioned different, complete,
        root.frame coexist sanctioned different⟩
  | detachSnapshot target stamp =>
      exact TargetHeld.frame sound coexist sanctioned different
  | detachLocking target todo stamp =>
      obtain ⟨held, rest⟩ := sound
      refine ⟨held.frame coexist sanctioned different, ?_⟩
      intro row selected
      rcases rest row (selection_apply_subset consistent held coexist sanctioned
        different selected) with later | locked
      · exact .inl later
      · exact .inr (RowLock.mem_release locked different)
  | detachDeleting target records stamp =>
      obtain ⟨held, allHeld, isRecords⟩ := sound
      refine ⟨held.frame coexist sanctioned different, ?_, ?_⟩
      · intro row selected
        rw [selection_apply consistent held allHeld coexist sanctioned
          different] at selected
        exact RowLock.mem_release (allHeld row selected) different
      · rw [isRecords, detachRecords_apply consistent held allHeld coexist
          sanctioned different]
  | ready request seen mine =>
      obtain ⟨pending, explained, origin⟩ := sound
      refine ⟨pending.frame consistent coexist sanctioned different,
        explained.frame pending consistent coexist sanctioned different, ?_⟩
      intro request isRequest
      obtain ⟨path, complete⟩ := origin request isRequest
      exact ⟨path.frame coexist sanctioned different, complete⟩
  | rereading node =>
      obtain ⟨row, member, isNode⟩ := sound
      exact ⟨_, Db.mem_nodes_apply member,
        (Db.rewrite_key consistent sanctioned member).trans isNode⟩
  | _ => trivial

end Frame

end Paigasus.Tenancy
