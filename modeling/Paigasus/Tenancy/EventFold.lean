import Paigasus.Tenancy.RootedMemberships
import Paigasus.Tenancy.Steps

/-!
# The event stream reproduces the tables

A reader of the outbox that only looks at the type, the aggregate name and the
payload of each event rebuilds the nodes, the memberships and the grants.  Every
commit writes events that take such a replica from the rows before to the rows
after.
-/

namespace Paigasus.Tenancy

open Foundation Kernel Core Roles

structure NodeFacts where
  prn : String
  slug : String
  name : String
  status : NodeStatus
deriving DecidableEq

structure GrantFacts where
  id : Uuid
  principalPrn : String
  roleKey : String
  scope : String
deriving DecidableEq

/-- What a reader of the events keeps. -/
structure Replica where
  nodes : List NodeFacts
  memberships : List MembershipPayload
  grants : List GrantFacts

namespace Replica

def empty : Replica := ⟨[], [], []⟩

def addNode (replica : Replica) (facts : NodeFacts) : Replica :=
  { replica with nodes := replica.nodes ++ [facts] }

def replaceNode (replica : Replica) (facts : NodeFacts) : Replica :=
  { replica with
    nodes := replica.nodes.map fun old =>
      if old.prn = facts.prn then facts else old }

/-- Takes one event in. -/
def receive (replica : Replica) (event : DomainEvent) : Replica :=
  match event.payload with
  | .node payload =>
      let facts : NodeFacts :=
        ⟨event.aggregatePrn, payload.slug, payload.name, payload.status⟩
      match event.eventType with
      | .organizationCreated | .teamCreated | .projectCreated =>
          replica.addNode facts
      | .organizationRenamed | .teamRenamed | .projectRenamed
      | .organizationArchived | .teamArchived | .projectArchived
      | .organizationRestored | .teamRestored | .projectRestored =>
          replica.replaceNode facts
      | _ => replica
  | .membership payload =>
      match event.eventType with
      | .membershipAttached =>
          { replica with memberships := replica.memberships ++ [payload] }
      | .membershipDetached =>
          { replica with
            memberships := replica.memberships.filter fun member =>
              member.membershipId ≠ payload.membershipId }
      | _ => replica
  | .grant payload =>
      match event.eventType with
      | .roleGranted =>
          { replica with
            grants := replica.grants ++
              [⟨payload.grantId, event.aggregatePrn, payload.roleKey,
                payload.scope⟩] }
      | .roleRevoked =>
          { replica with
            grants := replica.grants.filter fun grant =>
              grant.id ≠ payload.grantId }
      | _ => replica

end Replica

def NodeRow.facts (row : NodeRow) : NodeFacts :=
  ⟨row.prn, row.slug, row.name, row.status⟩

def grantFacts (grant : RoleGrant) : GrantFacts :=
  ⟨grant.id, grant.principal.canonical, grant.roleKey,
    grant.scope.canonicalPrn⟩

/-- The replica holds exactly the rows of the tables. -/
structure Replica.Reproduces (replica : Replica) (db : Db) : Prop where
  nodes : replica.nodes = db.nodes.map NodeRow.facts
  memberships : replica.memberships.map some =
    db.memberships.map fun row => (db.record? row).map membershipPayload
  grants : replica.grants = db.grants.map grantFacts

namespace Replica

variable {replica : Replica}

theorem receive_created (target : NodeView) (stamp : Stamp)
    (source : Option String) :
    replica.receive (nodeEvent .created target stamp source) =
      replica.addNode target.node.facts := by
  cases place : target.node.place <;>
    simp [receive, nodeEvent, eventTypeOf, place, nodePayload, NodeRow.facts]

theorem receive_changed {change : NodeChange} (target : NodeView)
    (stamp : Stamp) (source : Option String) (notCreated : change ≠ .created) :
    replica.receive (nodeEvent change target stamp source) =
      replica.replaceNode target.node.facts := by
  cases change with
  | created => exact absurd rfl notCreated
  | renamed =>
      cases place : target.node.place <;>
        simp [receive, nodeEvent, eventTypeOf, place, nodePayload,
          NodeRow.facts]
  | archived =>
      cases place : target.node.place <;>
        simp [receive, nodeEvent, eventTypeOf, place, nodePayload,
          NodeRow.facts]
  | restored =>
      cases place : target.node.place <;>
        simp [receive, nodeEvent, eventTypeOf, place, nodePayload,
          NodeRow.facts]

theorem receive_detached (records : List MembershipRecord) (stamp : Stamp) :
    (records.map fun record =>
        membershipEvent .membershipDetached record stamp).foldl receive
        replica =
      { replica with
        memberships := replica.memberships.filter fun member =>
          member.membershipId ∉ records.map MembershipRecord.id } := by
  induction records generalizing replica with
  | nil => simp
  | cons record rest ih =>
      rw [List.map_cons, List.foldl_cons, ih]
      simp only [receive, membershipEvent, membershipPayload,
        List.filter_filter, List.map_cons, List.mem_cons, not_or]
      congr 1
      apply List.filter_congr
      intro member _
      rw [Bool.and_comm, ← Bool.decide_and]

end Replica

section Commit

variable {db : Db} {locks : List (RowLock RowKey)} {txn : Nat}
  {changes : Changes} {replica : Replica}

theorem map_facts_of_noUpdate (noUpdate : changes.updated = none) :
    (db.apply changes).nodes.map NodeRow.facts =
      db.nodes.map NodeRow.facts ++ changes.inserted.map NodeRow.facts := by
  have kept : db.nodes.map (Db.rewrite changes) = db.nodes := by
    rw [show Db.rewrite changes = id from
      funext (rewrite_of_noUpdate noUpdate), List.map_id]
  rw [Db.apply, kept, List.map_append]

/-- A mutation replaces the facts of the mutated node and no others. -/
theorem map_facts_of_update (consistent : db.Consistent)
    (sanctioned : Sanctioned db locks txn changes) {updated : NodeRow}
    (isUpdated : changes.updated = some updated)
    (noInsert : changes.inserted = []) :
    (db.apply changes).nodes.map NodeRow.facts =
      (db.nodes.map NodeRow.facts).map fun old =>
        if old.prn = updated.facts.prn then updated.facts else old := by
  rw [Db.apply, noInsert, List.append_nil, List.map_map, List.map_map]
  apply List.map_congr_left
  intro row member
  obtain ⟨_, old, oldMember, sameId, samePlace⟩ :=
    sanctioned.updated updated isUpdated
  have oldKey : old.key = updated.key := by
    rw [NodeRow.key, NodeRow.key, sameId, samePlace]
  have sameNode : updated.key = row.key ↔
      row.facts.prn = updated.facts.prn := by
    rw [NodeRow.facts, NodeRow.facts]
    constructor
    · intro sameKey
      rw [← List.inj_on_of_nodup_map consistent.uniqueNodes oldMember member
        (oldKey.trans sameKey), NodeRow.prn, NodeRow.prn, sameId, samePlace]
    · intro samePrn
      exact (NodeRow.key_eq_of_prn_eq samePrn).symm
  simp only [Function.comp_apply, Db.rewrite, isUpdated]
  by_cases sameKey : updated.key = row.key
  · rw [if_pos sameKey, if_pos (sameNode.mp sameKey)]
  · rw [if_neg sameKey, if_neg fun samePrn => sameKey (sameNode.mpr samePrn)]

/-- A commit leaves the projections of stored memberships alone. -/
theorem projections_apply (consistent : db.Consistent)
    (sanctioned : Sanctioned db locks txn changes) {rows : List MembershipRow}
    (stored : ∀ row ∈ rows, row ∈ db.memberships) :
    (rows.map fun row =>
        ((db.apply changes).record? row).map membershipPayload) =
      rows.map fun row => (db.record? row).map membershipPayload := by
  apply List.map_congr_left
  intro row member
  rw [record?_apply consistent sanctioned
    (consistent.memberNodes row (stored row member))]

theorem memberships_kept (noAttach : changes.attached = [])
    (noDetach : changes.detached = []) :
    (db.apply changes).memberships = db.memberships := by
  simp [Db.apply, noAttach, noDetach]

theorem grants_kept (noGrant : changes.granted = [])
    (noRevoke : changes.revoked = []) :
    (db.apply changes).grants = db.grants := by
  simp [Db.apply, noGrant, noRevoke]

/-- A commit that leaves the memberships alone. -/
theorem Replica.Reproduces.commit_nodes (reproduces : replica.Reproduces db)
    (consistent : db.Consistent)
    (sanctioned : Sanctioned db locks txn changes) {next : Replica}
    (noAttach : changes.attached = []) (noDetach : changes.detached = [])
    (sameMemberships : next.memberships = replica.memberships)
    (nodes : next.nodes = (db.apply changes).nodes.map NodeRow.facts)
    (grants : next.grants = (db.apply changes).grants.map grantFacts) :
    next.Reproduces (db.apply changes) where
  nodes := nodes
  memberships := by
    rw [memberships_kept noAttach noDetach, projections_apply consistent
      sanctioned fun row member => member, sameMemberships]
    exact reproduces.memberships
  grants := grants

/-- A commit that only concerns memberships. -/
theorem Replica.Reproduces.commit_memberships
    (reproduces : replica.Reproduces db) {next : Replica}
    (noUpdate : changes.updated = none) (noInsert : changes.inserted = [])
    (noGrant : changes.granted = []) (noRevoke : changes.revoked = [])
    (sameNodes : next.nodes = replica.nodes)
    (sameGrants : next.grants = replica.grants)
    (memberships : next.memberships.map some =
      (db.apply changes).memberships.map fun row =>
        ((db.apply changes).record? row).map membershipPayload) :
    next.Reproduces (db.apply changes) where
  nodes := by
    rw [map_facts_of_noUpdate noUpdate, noInsert, List.map_nil,
      List.append_nil, sameNodes]
    exact reproduces.nodes
  memberships := memberships
  grants := by
    rw [grants_kept noGrant noRevoke, sameGrants]
    exact reproduces.grants

theorem reproduces_mutation {change : NodeChange} {out : Mutated}
    {stamp : Stamp} (reproduces : replica.Reproduces db)
    (consistent : db.Consistent) (notCreated : change ≠ .created)
    (sanctioned : Sanctioned db locks txn (mutation change out stamp)) :
    ((mutation change out stamp).events.foldl Replica.receive
      replica).Reproduces (db.apply (mutation change out stamp)) := by
  cases changed : out.changed with
  | false =>
      have isNone : mutation change out stamp = Changes.none := by
        rw [mutation, changed]
        rfl
      rw [isNone] at sanctioned ⊢
      refine reproduces.commit_nodes consistent sanctioned rfl rfl rfl ?_ ?_
      · rw [map_facts_of_noUpdate rfl]
        simpa [Changes.none] using reproduces.nodes
      · rw [grants_kept rfl rfl]
        exact reproduces.grants
  | true =>
      have isUpdate : (mutation change out stamp).updated =
          some out.value.node := by simp [mutation, changed]
      have isEvents : (mutation change out stamp).events =
          [nodeEvent change out.value stamp none] := by
        simp [mutation, changed]
      have isRest : (mutation change out stamp).inserted = [] ∧
          (mutation change out stamp).attached = [] ∧
          (mutation change out stamp).detached = [] ∧
          (mutation change out stamp).granted = [] ∧
          (mutation change out stamp).revoked = [] := by
        simp [mutation, changed, Changes.none]
      obtain ⟨noInsert, noAttach, noDetach, noGrant, noRevoke⟩ := isRest
      rw [isEvents, List.foldl_cons, List.foldl_nil,
        Replica.receive_changed _ _ _ notCreated]
      refine reproduces.commit_nodes consistent sanctioned noAttach noDetach
        rfl ?_ ?_
      · rw [map_facts_of_update consistent sanctioned isUpdate noInsert,
          ← reproduces.nodes]
        rfl
      · rw [grants_kept noGrant noRevoke]
        exact reproduces.grants

theorem reproduces_creation {target : NodeView} {stamp : Stamp}
    (reproduces : replica.Reproduces db) (consistent : db.Consistent)
    (sanctioned : Sanctioned db locks txn (creation target stamp)) :
    ((creation target stamp).events.foldl Replica.receive replica).Reproduces
      (db.apply (creation target stamp)) := by
  rw [creation, List.foldl_cons, List.foldl_nil, Replica.receive_created]
  refine reproduces.commit_nodes consistent sanctioned rfl rfl rfl ?_ ?_
  · rw [map_facts_of_noUpdate rfl, ← reproduces.nodes]
    rfl
  · rw [grants_kept rfl rfl]
    exact reproduces.grants

theorem reproduces_organization {id team grant : Uuid} {slug name : String}
    {stamp : Stamp} (reproduces : replica.Reproduces db)
    (consistent : db.Consistent)
    (sanctioned : Sanctioned db locks txn
      (createOrganizationIn id team grant slug name stamp)) :
    ((createOrganizationIn id team grant slug name stamp).events.foldl
      Replica.receive replica).Reproduces
      (db.apply (createOrganizationIn id team grant slug name stamp)) := by
  rw [createOrganizationIn, List.foldl_cons, List.foldl_cons, List.foldl_cons,
    List.foldl_nil, Replica.receive_created, Replica.receive_created]
  refine reproduces.commit_nodes consistent sanctioned rfl rfl rfl ?_ ?_
  · rw [map_facts_of_noUpdate rfl, ← reproduces.nodes]
    simp [Replica.receive, grantEvent, Replica.addNode, createOrganizationIn]
  · simp [Replica.receive, grantEvent, Replica.addNode, createOrganizationIn,
      Db.apply, Changes.none, reproduces.grants, grantFacts, grantPayload]

theorem reproduces_attachment {id principal : Uuid} {own : NodeRow}
    {stamp : Stamp} (reproduces : replica.Reproduces db)
    (consistent : db.Consistent) (stored : own ∈ db.nodes)
    (known : principal ∈ db.principals)
    (sanctioned : Sanctioned db locks txn
      (attachment id principal own stamp)) :
    ((attachment id principal own stamp).events.foldl Replica.receive
      replica).Reproduces (db.apply (attachment id principal own stamp)) := by
  refine reproduces.commit_memberships rfl rfl rfl rfl rfl rfl ?_
  have old : (db.apply (attachment id principal own stamp)).memberships =
      db.memberships ++ (attachment id principal own stamp).attached := by
    simp [Db.apply, attachment, Changes.none]
  have found : (db.apply (attachment id principal own stamp)).find own.key =
      some own := by
    rw [Db.find_apply consistent sanctioned stored]
    rfl
  have projection := @record?_of_find
    (db.apply (attachment id principal own stamp))
    ⟨id, principal, own.key, stamp.instant, some stamp.principal⟩ own known found
  rw [old, List.map_append, projections_apply consistent sanctioned
    fun row member => member, ← reproduces.memberships, attachment,
    List.map_singleton]
  rw [attachment] at projection
  rw [projection]
  simp [Replica.receive, membershipEvent, membershipPayload]

theorem record?_id {row : MembershipRow} {record : MembershipRecord}
    (isRecord : db.record? row = some record) : record.id = row.id := by
  unfold Db.record? at isRecord
  split at isRecord
  · obtain ⟨node, _, rfl⟩ := Option.map_eq_some_iff.mp isRecord
    rfl
  · cases isRecord

/-- The records of a detach carry the ids of the selected rows. -/
theorem mem_detachRecords_id (consistent : db.Consistent)
    {target : MembershipRow} {id : Uuid} :
    id ∈ (db.detachRecords target).map MembershipRecord.id ↔
      id ∈ (db.detachSelection target).map MembershipRow.id := by
  have perm := detachRecords_perm consistent target
  constructor
  · intro member
    obtain ⟨record, recordMember, rfl⟩ := List.mem_map.mp member
    obtain ⟨row, selected, isRecord⟩ :=
      List.mem_map.mp (perm.mem_iff.mp (List.mem_map_of_mem recordMember))
    rw [record?_id isRecord]
    exact List.mem_map_of_mem selected
  · intro member
    obtain ⟨row, selected, rfl⟩ := List.mem_map.mp member
    obtain ⟨record, isRecord⟩ :=
      record?_isSome consistent (List.mem_of_mem_filter selected)
    have listed : some record ∈ (db.detachRecords target).map some := by
      rw [perm.mem_iff, ← isRecord]
      exact List.mem_map_of_mem selected
    obtain ⟨found, foundMember, isFound⟩ := List.mem_map.mp listed
    cases isFound
    rw [← record?_id isRecord]
    exact List.mem_map_of_mem foundMember

theorem filter_map_some {Row Fact : Type} {rows : List Row}
    {facts : List Fact} {project : Row → Option Fact} {keepRow : Row → Bool}
    {keepFact : Fact → Bool} (same : facts.map some = rows.map project)
    (agree : ∀ row fact, project row = some fact →
      keepFact fact = keepRow row) :
    (facts.filter keepFact).map some = (rows.filter keepRow).map project := by
  induction rows generalizing facts with
  | nil =>
      have isNil : facts = [] := by simpa using same
      rw [isNil]
      rfl
  | cons row rest ih =>
      cases facts with
      | nil => cases same
      | cons fact more =>
          obtain ⟨isFact, later⟩ := List.cons.inj same
          have agrees := agree row fact isFact.symm
          rw [List.filter_cons, List.filter_cons, agrees]
          split
          · rw [List.map_cons, List.map_cons, ih later, isFact]
          · exact ih later

theorem reproduces_detach {target : MembershipRow} {stamp : Stamp}
    (reproduces : replica.Reproduces db) (consistent : db.Consistent)
    (isChanges : changes = detachIn target.id (db.detachRecords target)
      ((db.detachSelection target).map MembershipRow.id) stamp)
    (sanctioned : Sanctioned db locks txn changes) :
    (changes.events.foldl Replica.receive replica).Reproduces
      (db.apply changes) := by
  have kept : (db.apply changes).memberships =
      db.memberships.filter fun row => row.id ∉ changes.detached := by
    rw [isChanges]
    exact List.append_nil _
  have stored : ∀ row ∈ db.memberships.filter fun row =>
      row.id ∉ changes.detached, row ∈ db.memberships :=
    fun row member => List.mem_of_mem_filter member
  have isEvents : changes.events = (db.detachRecords target).map fun record =>
      membershipEvent .membershipDetached record stamp := by rw [isChanges]; rfl
  have isDetached : changes.detached =
      (db.detachSelection target).map MembershipRow.id := by rw [isChanges]; rfl
  rw [isEvents, Replica.receive_detached]
  apply reproduces.commit_memberships
  case memberships =>
    rw [kept, projections_apply consistent sanctioned stored]
    apply filter_map_some reproduces.memberships
    intro row payload isPayload
    obtain ⟨record, isRecord, rfl⟩ := Option.map_eq_some_iff.mp isPayload
    rw [decide_eq_decide, membershipPayload, record?_id isRecord, isDetached,
      mem_detachRecords_id consistent]
  all_goals first | rfl | rw [isChanges]; rfl

theorem reproduces_grant {grant : RoleGrant}
    (reproduces : replica.Reproduces db) (consistent : db.Consistent)
    (sanctioned : Sanctioned db locks txn changes)
    (noUpdate : changes.updated = none) (noInsert : changes.inserted = [])
    (noAttach : changes.attached = []) (noDetach : changes.detached = [])
    (granted : changes.granted = [grant]) (noRevoke : changes.revoked = [])
    {actor : Option String} {instant : Timestamp} {correlation : Uuid}
    {source : Option String}
    (isEvents : changes.events =
      [grantEvent .roleGranted grant actor instant correlation source]) :
    (changes.events.foldl Replica.receive replica).Reproduces
      (db.apply changes) := by
  rw [isEvents]
  refine reproduces.commit_nodes consistent sanctioned noAttach noDetach rfl
    ?_ ?_
  · rw [map_facts_of_noUpdate noUpdate, noInsert, List.map_nil,
      List.append_nil]
    exact reproduces.nodes
  · simp [Replica.receive, grantEvent, Db.apply, granted, noRevoke,
      reproduces.grants, grantFacts, grantPayload]

theorem reproduces_revoke {grant : RoleGrant} {stamp : Stamp}
    (reproduces : replica.Reproduces db) (consistent : db.Consistent)
    (sanctioned : Sanctioned db locks txn (revokeIn grant stamp)) :
    ((revokeIn grant stamp).events.foldl Replica.receive replica).Reproduces
      (db.apply (revokeIn grant stamp)) := by
  refine reproduces.commit_nodes consistent sanctioned rfl rfl rfl ?_ ?_
  · rw [map_facts_of_noUpdate rfl, ← reproduces.nodes]
    simp [revokeIn, Changes.none, Replica.receive, grantEvent]
  · simp only [revokeIn, List.foldl_cons, List.foldl_nil, Replica.receive,
      grantEvent, reproduces.grants, Db.apply, Changes.none, List.append_nil,
      List.filter_map, grantPayload, List.mem_singleton]
    rfl

/-- The events of every commit take the replica to the new rows. -/
theorem Explained.reproduces {request : Option Request} {seen : List NodeRow}
    (explained : Explained db request seen changes)
    (reproduces : replica.Reproduces db) (consistent : db.Consistent)
    (sanctioned : Sanctioned db locks txn changes)
    (origin : ∀ origin, request = some origin →
      Path db locks txn origin.call seen) :
    (changes.events.foldl Replica.receive replica).Reproduces
      (db.apply changes) := by
  cases explained with
  | request request seen changes computed =>
      have path := origin request rfl
      cases Request.written computed with
      | organization seen isCall =>
          exact reproduces_organization reproduces consistent sanctioned
      | team isCall active =>
          exact reproduces_creation reproduces consistent sanctioned
      | project isCall active =>
          exact reproduces_creation reproduces consistent sanctioned
      | renamed isCall result =>
          exact reproduces_mutation reproduces consistent (by simp) sanctioned
      | @statusSet node status own above isCall =>
          apply reproduces_mutation reproduces consistent _ sanctioned
          cases status <;> simp [statusChange]
      | @attached id principal node own above isCall active =>
          obtain ⟨stored, _, _⟩ := path.own (by rw [isCall]; rfl)
          exact reproduces_attachment reproduces consistent stored
            (path.known id principal node isCall) sanctioned
  | detach target stamp stored =>
      exact reproduces_detach reproduces consistent rfl sanctioned
  | grant grant stamp =>
      exact reproduces_grant reproduces consistent sanctioned rfl rfl rfl rfl
        rfl rfl rfl
  | seed grant issuer correlation =>
      exact reproduces_grant reproduces consistent sanctioned rfl rfl rfl rfl
        rfl rfl rfl
  | revoke grant stamp =>
      exact reproduces_revoke reproduces consistent sanctioned

theorem detachSelection_ne_nil {target : MembershipRow}
    (stored : target ∈ db.memberships) : db.detachSelection target ≠ [] := by
  intro isNil
  have member := mem_detachSelection_self stored
  rw [isNil] at member
  cases member

/-- A commit that changes no row announces nothing. -/
theorem Explained.events_of_unchanged {request : Option Request}
    {seen : List NodeRow} (explained : Explained db request seen changes)
    (unchanged : changes.changesRow = false) : changes.events = [] := by
  have mutated : ∀ change out stamp, changes = mutation change out stamp →
      changes.events = [] := by
    intro change out stamp isMutation
    subst isMutation
    cases changed : out.changed with
    | false => simp [mutation, changed, Changes.none]
    | true => simp [mutation, changed, Changes.changesRow] at unchanged
  cases explained with
  | request request seen changes computed =>
      cases Request.written computed with
      | organization seen isCall => cases unchanged
      | team isCall active => cases unchanged
      | project isCall active => cases unchanged
      | renamed isCall result => exact mutated _ _ _ rfl
      | statusSet isCall => exact mutated _ _ _ rfl
      | attached isCall active => cases unchanged
  | detach target stamp stored =>
      exfalso
      have selected := detachSelection_ne_nil stored
      simp [Changes.changesRow, detachIn, Changes.none, selected] at unchanged
  | grant grant stamp => cases unchanged
  | seed grant issuer correlation => cases unchanged
  | revoke grant stamp => cases unchanged

end Commit

/-- A call that stands here must have announced nothing: it is still open, or
it has ended with an error or without a change. -/
def Phase.quiet : Phase → Bool
  | .rereading _ => false
  | .done (.returned true) => false
  | _ => true

def Phase.isRereading : Phase → Bool
  | .rereading _ => true
  | _ => false

theorem Phase.quiet_of_isOpen {phase : Phase} (isOpen : phase.isOpen = true) :
    phase.quiet = true := by
  cases phase with
  | rereading node => cases isOpen
  | done outcome => cases isOpen
  | _ => rfl

namespace World

variable {world next : World} {txn : Nat}

/-- The replica that has received the committed events holds the tables. -/
structure Mirrored (world : World) : Prop where
  logged : world.db.events =
    world.commits.flatMap fun commit => commit.2.events
  reproduces : (world.db.events.foldl Replica.receive
    Replica.empty).Reproduces world.db

/-- A call that failed, or returned without changing a row, has committed no
event. -/
def Silent (world : World) : Prop :=
  ∀ txn outcome changes, world.txns txn = some (.done outcome) →
    outcome = .refused ∨ outcome = .returned false →
    (txn, changes) ∈ world.commits → changes.events = []

/-- No port call fails between the commit of a created team or project and the
answer. -/
def AnswerRead (world : World) : Action → Prop
  | .fail txn => ∀ phase ∈ world.txns txn, phase.isRereading = false
  | _ => True

instance decidableAnswerRead :
    ∀ (world : World) (action : Action), Decidable (world.AnswerRead action)
  | world, .fail txn => inferInstanceAs
      (Decidable (∀ phase ∈ world.txns txn, phase.isRereading = false))
  | _, .register _ => inferInstanceAs (Decidable True)
  | _, .start _ _ => inferInstanceAs (Decidable True)
  | _, .advance _ => inferInstanceAs (Decidable True)

/-- The inductive form of `Silent`, with the open calls. -/
def Quiet (world : World) : Prop :=
  ∀ txn, (∀ phase, world.txns txn = some phase → phase.quiet = true) →
    ∀ changes, (txn, changes) ∈ world.commits → changes.events = []

theorem Quiet.silent (quiet : world.Quiet) : world.Silent := by
  intro txn outcome changes isDone failed committed
  apply quiet txn _ changes committed
  intro phase isPhase
  rw [isDone] at isPhase
  cases isPhase
  rcases failed with rfl | rfl <;> rfl

theorem Moves.quiet {reached : Phase} (moves : world.Moves txn reached next)
    (quiet : world.Quiet)
    (before : ∀ phase, world.txns txn = some phase → phase.quiet = true) :
    next.Quiet := by
  obtain ⟨_, sameCommits, isTxns⟩ := moves
  intro other otherQuiet changes committed
  rw [sameCommits] at committed
  by_cases same : other = txn
  · subst same
    exact quiet other before changes committed
  · rw [isTxns] at otherQuiet
    simp only [Function.update_of_ne same] at otherQuiet
    exact quiet other otherQuiet changes committed

theorem quiet_commit {request : Option Request} {seen : List NodeRow}
    {changes : Changes} (quiet : world.Quiet)
    (current : world.txns txn = some (.ready request seen changes))
    (explained : Explained world.db request seen changes) :
    ((world.commit txn changes).moveTo txn
      (answer request changes)).Quiet := by
  intro other otherQuiet committed member
  rcases List.mem_append.mp member with old | new
  · apply quiet other _ committed old
    intro phase isPhase
    by_cases same : other = txn
    · subst same
      rw [current] at isPhase
      cases isPhase
      rfl
    · apply otherQuiet
      simp only [World.moveTo, Function.update_of_ne same]
      exact isPhase
  · obtain ⟨rfl, rfl⟩ := Prod.mk.inj (List.mem_singleton.mp new)
    have answered := otherQuiet (answer request committed)
      (by simp [World.moveTo])
    apply explained.events_of_unchanged
    cases unchanged : committed.changesRow with
    | false => rfl
    | true =>
        unfold answer at answered
        split at answered <;> simp [Phase.quiet, unchanged] at answered

theorem quiet_answered (quiet : world.Quiet) :
    (world.moveTo txn (.done (.returned true))).Quiet := by
  intro other otherQuiet changes committed
  by_cases same : other = txn
  · have isDone := otherQuiet (.done (.returned true))
      (by simp [World.moveTo, same])
    cases isDone
  · apply quiet other _ changes committed
    intro phase isPhase
    apply otherQuiet
    simpa only [World.moveTo, Function.update_of_ne same] using isPhase

theorem step_quiet {action : Action} (sound : world.Sound)
    (quiet : world.Quiet) (answerRead : world.AnswerRead action)
    (stepped : world.step action = some next) : next.Quiet := by
  cases action with
  | register principal =>
      simp only [step] at stepped
      split at stepped
      · cases stepped
      · cases stepped
        exact quiet
  | start txn request =>
      simp only [step] at stepped
      split at stepped
      · rename_i unused
        obtain ⟨_, _, moves⟩ := start_cases stepped
        apply moves.quiet quiet
        intro phase isPhase
        rw [unused] at isPhase
        cases isPhase
      · cases stepped
  | advance txn =>
      simp only [step] at stepped
      split at stepped
      · cases stepped
      · rename_i phase current
        rcases advance_cases stepped with
          ⟨request, seen, changes, rfl, rfl⟩ | ⟨node, rfl, rfl⟩ |
          ⟨isOpen, _, _, moves⟩
        · exact quiet_commit quiet current (sound.phases txn _ current).2.1
        · obtain ⟨row, member, rfl⟩ := sound.phases txn _ current
          rw [Db.find_of_mem sound.consistent.uniqueNodes member]
          exact quiet_answered quiet
        · apply moves.quiet quiet
          intro other isOther
          rw [current] at isOther
          cases isOther
          exact Phase.quiet_of_isOpen isOpen
  | fail txn =>
      simp only [step] at stepped
      split at stepped
      · cases stepped
      · cases stepped
      · rename_i phase notDone current
        cases stepped
        apply moves_finish.quiet quiet
        intro other isOther
        rw [current] at isOther
        cases isOther
        cases phase with
        | rereading node => cases answerRead _ current
        | done outcome => exact absurd rfl (notDone outcome)
        | _ => rfl

theorem step_mirrored {action : Action} (sound : world.Sound)
    (mirrored : world.Mirrored) (stepped : world.step action = some next) :
    next.Mirrored := by
  have moved : ∀ txn reached, world.Moves txn reached next →
      next.Mirrored := by
    rintro txn reached ⟨sameDb, sameCommits, _⟩
    refine ⟨?_, ?_⟩
    · rw [sameDb, sameCommits]
      exact mirrored.logged
    · rw [sameDb]
      exact mirrored.reproduces
  cases action with
  | register principal =>
      simp only [step] at stepped
      split at stepped
      · cases stepped
      · cases stepped
        obtain ⟨nodes, memberships, grants⟩ := mirrored.reproduces
        refine ⟨mirrored.logged, nodes, memberships.trans ?_, grants⟩
        apply List.map_congr_left
        intro row member
        have known := sound.consistent.memberPrincipals row member
        rw [Db.record?, Db.record?, if_pos known,
          if_pos (List.mem_append_left _ known)]
        rfl
  | start txn request =>
      simp only [step] at stepped
      split at stepped
      · obtain ⟨reached, _, moves⟩ := start_cases stepped
        exact moved txn reached moves
      · cases stepped
  | advance txn =>
      simp only [step] at stepped
      split at stepped
      · cases stepped
      · rename_i phase current
        rcases advance_cases stepped with
          ⟨request, seen, changes, rfl, rfl⟩ | ⟨node, rfl, rfl⟩ |
          ⟨_, reached, _, moves⟩
        · obtain ⟨sanctioned, explained, origin⟩ := sound.phases txn _ current
          refine ⟨?_, ?_⟩
          · simp only [World.moveTo, World.commit, Db.apply, mirrored.logged,
              List.flatMap_append, List.flatMap_singleton]
          · simp only [World.moveTo, World.commit]
            rw [show (world.db.apply changes).events =
              world.db.events ++ changes.events from rfl, List.foldl_append]
            exact explained.reproduces mirrored.reproduces sound.consistent
              sanctioned fun request isRequest => (origin request isRequest).1
        · exact ⟨mirrored.logged, mirrored.reproduces⟩
        · exact moved txn reached moves
  | fail txn =>
      simp only [step] at stepped
      split at stepped
      · cases stepped
      · cases stepped
      · cases stepped
        exact moved txn _ moves_finish

/-- The committed events reproduce the tables after every run; and as long as
no port call fails between a commit and its answer, a call that failed or
changed nothing has committed no event. -/
theorem run_mirrored {actions : List Action}
    (run : runFrom step initial actions = some world) :
    world.Mirrored ∧
      (EveryStep step AnswerRead initial actions → world.Silent) := by
  constructor
  · have invariant : world.Sound ∧ world.Mirrored := by
      apply runFrom_invariant (fun before action after holds stepped =>
        And.intro (step_sound holds.1 stepped)
          (step_mirrored holds.1 holds.2 stepped)) _ run
      exact ⟨sound_initial, rfl, rfl, rfl, rfl⟩
    exact invariant.2
  · intro answersRead
    have invariant : world.Sound ∧ world.Quiet := by
      apply runFrom_invariant_of_everyStep
        (fun before action after holds answerRead stepped =>
          And.intro (step_sound holds.1 stepped)
            (step_quiet holds.1 holds.2 answerRead stepped))
        _ answersRead run
      refine ⟨sound_initial, ?_⟩
      intro txn _ changes committed
      cases committed
    exact invariant.2.silent

section LostAnswer

/-- Two nodes are created and a rename changes nothing; then the given actions
follow. -/
def teamRun (last : List Action) : List Action :=
  ([.register 7,
    .start 0 ⟨.createOrganization 2 3 4 "acme" "Acme", sampleStamp 10⟩,
    .advance 0, .advance 0, .advance 0,
    .start 1 ⟨.rename (.organization 2) none (some "Acme"), sampleStamp 15⟩,
    .advance 1, .advance 1, .advance 1, .advance 1,
    .start 2 ⟨.createTeam 2 5 "core" "Core", sampleStamp 20⟩,
    .advance 2, .fail 2,
    .start 3 ⟨.createTeam 2 6 "core" "Core", sampleStamp 20⟩,
    .advance 3, .advance 3, .advance 3, .advance 3] : List Action) ++ last

def outcomeOf (world : World) (txn : Nat) : Option Outcome :=
  match world.txns txn with
  | some (.done outcome) => some outcome
  | _ => none

theorem done_of_outcomeOf {outcome : Outcome}
    (isOutcome : world.outcomeOf txn = some outcome) :
    world.txns txn = some (.done outcome) := by
  unfold outcomeOf at isOutcome
  split at isOutcome
  · rename_i current
    cases isOutcome
    exact current
  · cases isOutcome

theorem answeredRun_mirrored :
    ∃ world, runFrom step initial (teamRun [.advance 3]) = some world ∧
      [1, 2, 3].map world.outcomeOf =
        [some (.returned false), some .refused, some (.returned true)] ∧
      world.Mirrored ∧ world.Silent := by
  have outcomes : (runFrom step initial (teamRun [.advance 3])).map
      (fun world => [1, 2, 3].map world.outcomeOf) =
      some [some (.returned false), some .refused, some (.returned true)] := by
    decide
  have answersRead : EveryStep step AnswerRead initial
      (teamRun [.advance 3]) := by
    decide
  obtain ⟨world, run, outcomes⟩ := Option.map_eq_some_iff.mp outcomes
  obtain ⟨mirrored, silent⟩ := run_mirrored run
  exact ⟨world, run, outcomes, mirrored, silent answersRead⟩

/-- When the read after the commit fails, the call returns an error although its
event is committed. -/
theorem lostAnswerRun_not_silent :
    ∃ world, runFrom step initial (teamRun [.fail 3]) = some world ∧
      ¬ world.Silent := by
  have facts : (runFrom step initial (teamRun [.fail 3])).map (fun world =>
      (world.outcomeOf 3, world.commits.any fun commit =>
        commit.1 = 3 && !commit.2.events.isEmpty)) =
      some (some .refused, true) := by
    decide
  obtain ⟨world, run, values⟩ := Option.map_eq_some_iff.mp facts
  obtain ⟨isOutcome, announced⟩ := Prod.mk.inj values
  refine ⟨world, run, ?_⟩
  intro silent
  obtain ⟨⟨owner, changes⟩, committed, isAnnounced⟩ :=
    List.any_eq_true.mp announced
  simp only [Bool.and_eq_true, decide_eq_true_eq] at isAnnounced
  obtain ⟨rfl, nonempty⟩ := isAnnounced
  have noEvents := silent 3 .refused changes (done_of_outcomeOf isOutcome)
    (.inl rfl) committed
  rw [noEvents] at nonempty
  cases nonempty

end LostAnswer

end World

end Paigasus.Tenancy
