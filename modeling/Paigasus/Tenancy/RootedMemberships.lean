import Paigasus.Tenancy.ArchivedGuard

/-!
# Rooted memberships

In every committed state a membership on a team or a project stands beside a
membership of the same principal on the organization above, and no principal
has two memberships on one node.  A cascading detach accounts for exactly the
rows it deletes, with one event and one audit entry for each of them.
-/

namespace Paigasus.Tenancy

open Foundation Kernel Core Roles

/-- Each membership is on an organization, or beside one on the organization
above its node; and none is there twice. -/
structure Db.Rooted (db : Db) : Prop where
  rooted : ∀ row ∈ db.memberships,
    (∃ org, row.node = .organization org) ∨
      ∃ org, db.orgOf row.node = some org ∧
        ∃ root ∈ db.memberships, root.principal = row.principal ∧
          root.node = .organization org
  unique : (db.memberships.map fun row => (row.principal, row.node)).Nodup

/-- The memberships that a commit removes. -/
def Db.deletedRows (db next : Db) : List MembershipRow :=
  db.memberships.filter fun row => row ∉ next.memberships

namespace Changes

/-- The memberships whose detach the events of a commit announce. -/
def detachEvents (changes : Changes) : List MembershipPayload :=
  changes.events.filterMap fun event =>
    match event.eventType, event.payload with
    | .membershipDetached, .membership payload => some payload
    | _, _ => Option.none

/-- The memberships whose detach the audit entries of a commit record. -/
def detachEntries (changes : Changes) : List MembershipPayload :=
  changes.entries.filterMap fun entry =>
    match entry.action, entry.detail with
    | .detachMembership, .membership payload _ => some payload
    | _, _ => Option.none

end Changes

/-- The events and the audit entries of a commit account for the deleted
memberships, each of them once and no other. -/
structure Accounted (db next : Db) (changes : Changes) : Prop where
  records : changes.detached ≠ [] → ∃ target records stamp,
    changes = detachIn target records changes.detached stamp ∧
      (records.map some).Perm ((db.deletedRows next).map db.record?)
  events : (changes.detachEvents.map some).Perm
    ((db.deletedRows next).map fun row =>
      (db.record? row).map membershipPayload)
  entries : (changes.detachEntries.map some).Perm
    ((db.deletedRows next).map fun row =>
      (db.record? row).map membershipPayload)

section Rooted

variable {db : Db}

theorem Db.Consistent.isRooted (consistent : db.Consistent) : db.Rooted where
  rooted := by
    intro row member
    obtain ⟨node, nodeMember, isNode⟩ := consistent.memberNodes row member
    have above : db.orgOf row.node = node.place.parentOrg := by
      rw [← isNode]
      exact orgOf_of_mem consistent nodeMember
    cases place : node.place with
    | organization =>
        left
        exact ⟨node.id, by rw [← isNode, NodeRow.key, place]; rfl⟩
    | team org =>
        rw [place] at above
        exact .inr ⟨org, above, consistent.rooted row member org above⟩
    | project org parent =>
        rw [place] at above
        exact .inr ⟨org, above, consistent.rooted row member org above⟩
  unique := consistent.uniqueTargets

end Rooted

section Detach

variable {db : Db} {locks : List (RowLock RowKey)} {txn : Nat}
  {changes : Changes}

/-- A commit deletes exactly the rows it names. -/
theorem deletedRows_apply (sanctioned : Sanctioned db locks txn changes) :
    db.deletedRows (db.apply changes) =
      db.memberships.filter fun row => row.id ∈ changes.detached := by
  apply List.filter_congr
  intro row member
  rw [decide_eq_decide, Db.mem_memberships_apply]
  constructor
  · intro deleted
    by_contra kept
    exact deleted (.inl ⟨member, kept⟩)
  · rintro detached (⟨_, kept⟩ | attached)
    · exact kept detached
    · obtain ⟨_, _, fresh, _⟩ := sanctioned.attached row attached
      exact (fresh row member).1 rfl

theorem deletedRows_detach (consistent : db.Consistent)
    {target : MembershipRow} {records : List MembershipRecord} {stamp : Stamp}
    (sanctioned : Sanctioned db locks txn (detachIn target.id records
      ((db.detachSelection target).map MembershipRow.id) stamp)) :
    db.deletedRows (db.apply (detachIn target.id records
      ((db.detachSelection target).map MembershipRow.id) stamp)) =
      db.detachSelection target := by
  rw [deletedRows_apply sanctioned]
  apply List.filter_congr
  intro row member
  cases selects : db.detachSelects target row with
  | true =>
      rw [decide_eq_true_eq]
      exact List.mem_map_of_mem (List.mem_filter.mpr ⟨member, selects⟩)
  | false =>
      rw [decide_eq_false_iff_not]
      intro detached
      obtain ⟨other, selected, sameId⟩ := List.mem_map.mp detached
      obtain ⟨otherMember, otherSelects⟩ := List.mem_filter.mp selected
      rw [consistent.membership_ext otherMember member sameId, selects]
        at otherSelects
      cases otherSelects

theorem record?_of_find {row : MembershipRow} {node : NodeRow}
    (known : row.principal ∈ db.principals)
    (found : db.find row.node = some node) :
    db.record? row = some ⟨row.id,
      (PrincipalId.fromUuid row.principal).canonical, node.prn, row.createdAt,
      row.createdBy⟩ := by
  rw [Db.record?, if_pos known, found]
  rfl

theorem record?_isSome (consistent : db.Consistent) {row : MembershipRow}
    (member : row ∈ db.memberships) : ∃ record, db.record? row = some record := by
  obtain ⟨node, nodeMember, isNode⟩ := consistent.memberNodes row member
  have found : db.find row.node = some node := by
    rw [← isNode]
    exact Db.find_of_mem consistent.uniqueNodes nodeMember
  exact ⟨_, record?_of_find (consistent.memberPrincipals row member) found⟩

theorem filterMap_record? (consistent : db.Consistent)
    {rows : List MembershipRow} (stored : ∀ row ∈ rows, row ∈ db.memberships) :
    (rows.filterMap db.record?).map some = rows.map db.record? := by
  induction rows with
  | nil => rfl
  | cons row rest ih =>
      obtain ⟨record, isRecord⟩ :=
        record?_isSome consistent (stored row List.mem_cons_self)
      have later := ih fun other member =>
        stored other (List.mem_cons_of_mem _ member)
      rw [List.filterMap_cons_some isRecord, List.map_cons, List.map_cons,
        later, isRecord]

/-- The records of a detach are the projections of the rows it selects. -/
theorem detachRecords_perm (consistent : db.Consistent)
    (target : MembershipRow) :
    ((db.detachRecords target).map some).Perm
      ((db.detachSelection target).map db.record?) := by
  have stored : ∀ row ∈ db.detachSelection target, row ∈ db.memberships :=
    fun row selected => List.mem_of_mem_filter selected
  rw [← filterMap_record? consistent stored]
  exact (List.perm_insertionSort _ _).map some

theorem payloads_perm (consistent : db.Consistent) (target : MembershipRow) :
    (((db.detachRecords target).map membershipPayload).map some).Perm
      ((db.detachSelection target).map fun row =>
        (db.record? row).map membershipPayload) := by
  have perm := (detachRecords_perm consistent target).map
    (Option.map membershipPayload)
  simpa only [List.map_map, Function.comp_def, Option.map_some] using perm

theorem accounted_detach (consistent : db.Consistent)
    {target : MembershipRow} {stamp : Stamp}
    (isChanges : changes = detachIn target.id (db.detachRecords target)
      ((db.detachSelection target).map MembershipRow.id) stamp)
    (sanctioned : Sanctioned db locks txn changes) :
    Accounted db (db.apply changes) changes := by
  have deleted : db.deletedRows (db.apply changes) =
      db.detachSelection target := by
    subst isChanges
    exact deletedRows_detach consistent sanctioned
  have perm := payloads_perm consistent target
  have events : changes.detachEvents =
      (db.detachRecords target).map membershipPayload := by
    rw [isChanges, Changes.detachEvents, detachIn, List.filterMap_map]
    exact congrFun List.filterMap_eq_map (db.detachRecords target)
  have entries : changes.detachEntries =
      (db.detachRecords target).map membershipPayload := by
    rw [isChanges, Changes.detachEntries, detachIn, List.filterMap_map]
    exact congrFun List.filterMap_eq_map (db.detachRecords target)
  constructor
  · intro _
    refine ⟨target.id, db.detachRecords target, stamp, ?_, ?_⟩
    · rw [isChanges]
      rfl
    · rw [deleted]
      exact detachRecords_perm consistent target
  · rw [events, deleted]
    exact perm
  · rw [entries, deleted]
    exact perm

/-- A commit that deletes no membership announces none. -/
theorem accounted_of_none (sanctioned : Sanctioned db locks txn changes)
    (noDetach : changes.detached = []) (noEvent : changes.detachEvents = [])
    (noEntry : changes.detachEntries = []) :
    Accounted db (db.apply changes) changes := by
  have deleted : db.deletedRows (db.apply changes) = [] := by
    rw [deletedRows_apply sanctioned, noDetach]
    simp
  constructor
  · exact fun detaches => absurd noDetach detaches
  · rw [noEvent, deleted]
    exact .nil
  · rw [noEntry, deleted]
    exact .nil

theorem Written.accounted {request : Request} {seen : List NodeRow}
    (written : Written request seen changes)
    (sanctioned : Sanctioned db locks txn changes) :
    Accounted db (db.apply changes) changes := by
  have mutated : ∀ change out stamp, changes = mutation change out stamp →
      Accounted db (db.apply changes) changes := by
    rintro change ⟨⟨node, effective⟩, changed⟩ stamp isMutation
    subst isMutation
    cases changed with
    | false => exact accounted_of_none sanctioned rfl rfl rfl
    | true =>
        apply accounted_of_none sanctioned rfl
        · cases place : node.place <;> cases change <;>
            simp [Changes.detachEvents, mutation, nodeEvent, eventTypeOf, place]
        · cases place : node.place <;> cases change <;>
            simp [Changes.detachEntries, mutation, nodeEntry, actionOf, place]
  cases written with
  | organization seen isCall => exact accounted_of_none sanctioned rfl rfl rfl
  | team isCall active => exact accounted_of_none sanctioned rfl rfl rfl
  | project isCall active => exact accounted_of_none sanctioned rfl rfl rfl
  | renamed isCall result => exact mutated _ _ _ rfl
  | statusSet isCall => exact mutated _ _ _ rfl
  | attached isCall active => exact accounted_of_none sanctioned rfl rfl rfl

theorem Explained.accounted {request : Option Request} {seen : List NodeRow}
    (explained : Explained db request seen changes) (consistent : db.Consistent)
    (sanctioned : Sanctioned db locks txn changes) :
    Accounted db (db.apply changes) changes := by
  cases explained with
  | request request seen changes computed =>
      exact (Request.written computed).accounted sanctioned
  | detach target stamp stored =>
      exact accounted_detach consistent rfl sanctioned
  | grant grant stamp => exact accounted_of_none sanctioned rfl rfl rfl
  | seed grant issuer correlation =>
      exact accounted_of_none sanctioned rfl rfl rfl
  | revoke grant stamp => exact accounted_of_none sanctioned rfl rfl rfl

end Detach

namespace World

/-- In every interleaving the committed memberships are rooted and unique, and
every commit accounts for exactly the memberships it deletes. -/
theorem memberships_rooted {world : World}
    (reachable : Reachable step initial world) :
    world.db.Rooted ∧
      ∀ txn request changes next, world.Commits txn request changes next →
        Accounted world.db next.db changes := by
  have sound := reachable_sound reachable
  refine ⟨sound.consistent.isRooted, ?_⟩
  intro txn request changes next commits
  rw [commits.db_eq]
  obtain ⟨⟨seen, current⟩, _⟩ := commits
  obtain ⟨sanctioned, explained, _⟩ := sound.phases txn _ current
  exact explained.accounted sound.consistent sanctioned

section Cascade

def attachOrganization : Request :=
  ⟨.attach 5 (PrincipalId.fromUuid 9)
    (.organization (OrganizationId.fromUuid 2)), sampleStamp 20⟩

def attachTeam : Request :=
  ⟨.attach 6 (PrincipalId.fromUuid 9)
    (.team (TeamId.fromParts 2 3)), sampleStamp 30⟩

/-- A membership on the organization, one on its default team, and a detach of
the first that has locked both. -/
def cascadeRun : List Action :=
  [.register 7, .register 9,
    .start 0 ⟨.createOrganization 2 3 4 "acme" "Acme", sampleStamp 10⟩,
    .advance 0, .advance 0, .advance 0,
    .start 1 attachOrganization,
    .advance 1, .advance 1, .advance 1, .advance 1,
    .start 2 attachTeam,
    .advance 2, .advance 2, .advance 2, .advance 2, .advance 2,
    .start 3 ⟨.detach 5, sampleStamp 40⟩,
    .advance 3, .advance 3, .advance 3, .advance 3, .advance 3, .advance 3]

/-- The writes that a transaction of no node call is about to commit. -/
def pending (world : World) (txn : Nat) : Option Changes :=
  match world.txns txn with
  | some (.ready none _ changes) => some changes
  | _ => none

theorem pending_commits {world : World} {txn : Nat} {changes : Changes}
    (isPending : world.pending txn = some changes) :
    world.Commits txn none changes
      ((world.commit txn changes).moveTo txn (answer none changes)) := by
  unfold pending at isPending
  split at isPending
  · rename_i seen changes current
    cases isPending
    exact ⟨⟨seen, current⟩, by rw [step, current]; rfl⟩
  · cases isPending

theorem cascadeRun_rooted :
    ∃ world, Reachable step initial world ∧
      world.db.memberships.map MembershipRow.id = [5, 6] ∧
      world.db.Rooted ∧
      ∃ changes next, world.Commits 3 none changes next ∧
        changes.detached = [5, 6] ∧
        Accounted world.db next.db changes := by
  have facts : (runFrom step initial cascadeRun).map (fun world =>
      (world.db.memberships.map MembershipRow.id,
        (world.pending 3).map Changes.detached)) =
      some ([5, 6], some [5, 6]) := by
    decide
  obtain ⟨world, run, values⟩ := Option.map_eq_some_iff.mp facts
  obtain ⟨memberships, detaches⟩ := Prod.mk.inj values
  obtain ⟨changes, isPending, detached⟩ := Option.map_eq_some_iff.mp detaches
  have reachable : Reachable step initial world := ⟨cascadeRun, run⟩
  obtain ⟨rooted, accounted⟩ := memberships_rooted reachable
  have commits := pending_commits isPending
  exact ⟨world, reachable, memberships, rooted, changes, _, commits, detached,
    accounted 3 none changes _ commits⟩

end Cascade

end World

end Paigasus.Tenancy
