import Mathlib.Data.List.Sort
import Paigasus.Core.StarterPolicies
import Paigasus.Roles.GrantPublication

/-!
# Tenancy rows, events and repository operations

The rows of the tenancy tables, the events and audit entries that describe
their changes, and what each repository operation computes from the rows it has
locked.  The organization, team and project repositories share one shape: an
operation on a node reads the node's own row and the rows of its ancestors, so
each of them is one definition over the node's place in the hierarchy.
-/

namespace Paigasus.Tenancy

open Foundation Kernel Core Roles

/-- Who writes when, with the correlation id of the call.  The actor is an
authenticated principal, named by its UUID. -/
structure Stamp where
  instant : Timestamp
  actor : Uuid
  correlation : Uuid
deriving DecidableEq

def Stamp.principal (stamp : Stamp) : PrincipalId :=
  PrincipalId.fromUuid stamp.actor

inductive NodeKey where
  | organization (id : Uuid)
  | team (id : Uuid)
  | project (id : Uuid)
deriving DecidableEq

/-- The table of a node and its parent columns. -/
inductive Place where
  | organization
  | team (org : Uuid)
  | project (org team : Uuid)
deriving DecidableEq

structure NodeRow where
  id : Uuid
  place : Place
  slug : String
  name : String
  status : NodeStatus
  createdAt : Timestamp
  updatedAt : Timestamp
  createdBy : Option PrincipalId
  modifiedBy : Option PrincipalId
deriving DecidableEq

namespace Place

/-- The key of the node with this place and id. -/
def key (id : Uuid) : Place → NodeKey
  | organization => .organization id
  | team _ => .team id
  | project _ _ => .project id

/-- The keys of the ancestors, nearest first. -/
def ancestors : Place → List NodeKey
  | organization => []
  | team org => [.organization org]
  | project org parent => [.team parent, .organization org]

/-- The organization above a team or a project. -/
def parentOrg : Place → Option Uuid
  | organization => none
  | team org => some org
  | project org _ => some org

def ref (id : Uuid) : Place → TenancyNodeRef
  | organization => .organization (OrganizationId.fromUuid id)
  | team org => .team (TeamId.fromParts org id)
  | project org _ => .project (ProjectId.fromParts org id)

end Place

namespace NodeRow

def key (row : NodeRow) : NodeKey := row.place.key row.id

/-- The name column, written once at the creation of the row. -/
def prn (row : NodeRow) : String := (row.place.ref row.id).canonical

/-- The name of a node determines its key. -/
theorem key_eq_of_prn_eq {row other : NodeRow} (same : row.prn = other.prn) :
    row.key = other.key := by
  have names := Prn.canonical_injective same
  obtain ⟨id, place, _⟩ := row
  obtain ⟨otherId, otherPlace, _⟩ := other
  cases place <;> cases otherPlace <;>
    simp_all [NodeRow.key, Place.key, Place.ref, TenancyNodeRef.prn,
      OrganizationId.fromUuid, TeamId.fromParts, ProjectId.fromParts, nodePrn]

end NodeRow

def nodeKeyOf : TenancyNodeRef → NodeKey
  | .organization id => .organization id.prn.resourceId
  | .team id => .team id.prn.resourceId
  | .project id => .project id.prn.resourceId

/-- A node with its effective status. -/
structure NodeView where
  node : NodeRow
  effectiveStatus : NodeStatus
deriving DecidableEq

def view (own : NodeRow) (ancestors : List NodeRow) : NodeView :=
  ⟨own, own.status.effective (ancestors.map NodeRow.status)⟩

structure Mutated where
  value : NodeView
  changed : Bool
deriving DecidableEq

/-- Why a repository or a service refuses a call. -/
inductive Refusal where
  | notFound
  | prnMismatch
  | parentArchived
  | nodeArchived
  | missingOrgMembership
  | conflict
  | backend
deriving DecidableEq

structure MembershipRow where
  id : Uuid
  principal : Uuid
  node : NodeKey
  createdAt : Timestamp
  createdBy : Option PrincipalId
deriving DecidableEq

structure MembershipRecord where
  id : Uuid
  principalPrn : String
  nodePrn : String
  createdAt : Timestamp
  createdBy : Option PrincipalId
deriving DecidableEq

inductive EventType where
  | roleGranted
  | roleRevoked
  | organizationCreated
  | organizationRenamed
  | organizationArchived
  | organizationRestored
  | teamCreated
  | teamRenamed
  | teamArchived
  | teamRestored
  | projectCreated
  | projectRenamed
  | projectArchived
  | projectRestored
  | membershipAttached
  | membershipDetached
deriving DecidableEq

structure NodePayload where
  nodePrn : String
  slug : String
  name : String
  status : NodeStatus
  effectiveStatus : NodeStatus
  source : Option String
deriving DecidableEq

structure GrantPayload where
  grantId : Uuid
  roleKey : String
  scope : String
  source : Option String
deriving DecidableEq

structure MembershipPayload where
  membershipId : Uuid
  principalPrn : String
  nodePrn : String
deriving DecidableEq

inductive Payload where
  | node (payload : NodePayload)
  | grant (payload : GrantPayload)
  | membership (payload : MembershipPayload)
deriving DecidableEq

structure DomainEvent where
  eventType : EventType
  aggregatePrn : String
  actorPrn : Option String
  occurredAt : Timestamp
  payload : Payload
  correlationId : Uuid
deriving DecidableEq

inductive Detail where
  | node (payload : NodePayload)
  | renamed (nodePrn slug name : String)
  | statusSet (nodePrn : String) (status effectiveStatus : NodeStatus)
  | grant (roleKey scope : String)
  | ownerGrant (payload : GrantPayload)
  | seededGrant (principalPrn : String) (payload : GrantPayload)
      (issuer : String)
  | membership (payload : MembershipPayload) (cascadeOf : Option Uuid)
deriving DecidableEq

/-- An audit entry of a committed change. -/
structure AuditEntry where
  occurredAt : Timestamp
  actorPrn : Option String
  action : Core.Action
  resourcePrn : String
  detail : Detail
  correlationId : Uuid
deriving DecidableEq

/-- What a transaction writes at its commit. -/
structure Changes where
  updated : Option NodeRow
  inserted : List NodeRow
  attached : List MembershipRow
  detached : List Uuid
  granted : List RoleGrant
  revoked : List Uuid
  events : List DomainEvent
  entries : List AuditEntry
deriving DecidableEq

def Changes.none : Changes := ⟨Option.none, [], [], [], [], [], [], []⟩

/-- Whether the commit changes a row. -/
def Changes.changesRow (changes : Changes) : Bool :=
  changes.updated.isSome || !changes.inserted.isEmpty ||
    !changes.attached.isEmpty || !changes.detached.isEmpty ||
    !changes.granted.isEmpty || !changes.revoked.isEmpty

inductive NodeChange where
  | created
  | renamed
  | archived
  | restored
deriving DecidableEq

def eventTypeOf (place : Place) (change : NodeChange) : EventType :=
  match place, change with
  | .organization, .created => .organizationCreated
  | .organization, .renamed => .organizationRenamed
  | .organization, .archived => .organizationArchived
  | .organization, .restored => .organizationRestored
  | .team _, .created => .teamCreated
  | .team _, .renamed => .teamRenamed
  | .team _, .archived => .teamArchived
  | .team _, .restored => .teamRestored
  | .project _ _, .created => .projectCreated
  | .project _ _, .renamed => .projectRenamed
  | .project _ _, .archived => .projectArchived
  | .project _ _, .restored => .projectRestored

def actionOf (place : Place) (change : NodeChange) : Core.Action :=
  match place, change with
  | .organization, .created => .createOrganization
  | .organization, .renamed => .renameOrganization
  | .organization, .archived => .archiveOrganization
  | .organization, .restored => .restoreOrganization
  | .team _, .created => .createTeam
  | .team _, .renamed => .renameTeam
  | .team _, .archived => .archiveTeam
  | .team _, .restored => .restoreTeam
  | .project _ _, .created => .createProject
  | .project _ _, .renamed => .renameProject
  | .project _ _, .archived => .archiveProject
  | .project _ _, .restored => .restoreProject

def nodePayload (target : NodeView) (source : Option String) : NodePayload :=
  { nodePrn := target.node.prn
    slug := target.node.slug
    name := target.node.name
    status := target.node.status
    effectiveStatus := target.effectiveStatus
    source }

/-- The one construction site of the node life-cycle events. -/
def nodeEvent (change : NodeChange) (target : NodeView) (stamp : Stamp)
    (source : Option String) : DomainEvent :=
  { eventType := eventTypeOf target.node.place change
    aggregatePrn := target.node.prn
    actorPrn := some stamp.principal.canonical
    occurredAt := stamp.instant
    payload := .node (nodePayload target source)
    correlationId := stamp.correlation }

def nodeEntry (change : NodeChange) (target : NodeView) (stamp : Stamp)
    (source : Option String) : AuditEntry :=
  { occurredAt := stamp.instant
    actorPrn := some stamp.principal.canonical
    action := actionOf target.node.place change
    resourcePrn := target.node.prn
    detail :=
      match change with
      | .created => .node (nodePayload target source)
      | .renamed =>
          .renamed target.node.prn target.node.slug target.node.name
      | _ => .statusSet target.node.prn target.node.status
          target.effectiveStatus
    correlationId := stamp.correlation }

/-- A new row; every node is created active. -/
def newNode (id : Uuid) (place : Place) (slug name : String) (stamp : Stamp) :
    NodeRow :=
  { id
    place
    slug
    name
    status := .active
    createdAt := stamp.instant
    updatedAt := stamp.instant
    createdBy := some stamp.principal
    modifiedBy := some stamp.principal }

/-- The insert of a node below its locked parent, which must be effectively
active. -/
def createIn (row parent : NodeRow) (above : List NodeRow) :
    Except Refusal NodeView :=
  if (view parent above).effectiveStatus = .archived then
    .error .parentArchived
  else
    .ok ⟨row, row.status⟩

/-- Renames the slug or the name.  The archived guard comes before the check
that the call changes nothing. -/
def renameIn (own : NodeRow) (ancestors : List NodeRow)
    (newSlug newName : Option String) (stamp : Stamp) :
    Except Refusal Mutated :=
  if (view own ancestors).effectiveStatus = .archived then
    .error .nodeArchived
  else if newSlug.all (fun slug => decide (own.slug = slug)) &&
      newName.all (fun name => decide (own.name = name)) then
    .ok ⟨view own ancestors, false⟩
  else
    let updated :=
      { own with
        slug := newSlug.getD own.slug
        name := newName.getD own.name
        updatedAt := stamp.instant
        modifiedBy := some stamp.principal }
    .ok ⟨view updated ancestors, true⟩

/-- Sets the node's own status, whatever its ancestors' statuses are. -/
def setStatusIn (own : NodeRow) (ancestors : List NodeRow)
    (status : NodeStatus) (stamp : Stamp) : Mutated :=
  if own.status = status then
    ⟨view own ancestors, false⟩
  else
    let updated :=
      { own with
        status
        updatedAt := stamp.instant
        modifiedBy := some stamp.principal }
    ⟨view updated ancestors, true⟩

/-- The changes of a rename, an archive or a restore: nothing when the
repository reports that nothing changed. -/
def mutation (change : NodeChange) (out : Mutated) (stamp : Stamp) : Changes :=
  if out.changed then
    { Changes.none with
      updated := some out.value.node
      events := [nodeEvent change out.value stamp Option.none]
      entries := [nodeEntry change out.value stamp Option.none] }
  else
    Changes.none

def statusChange : NodeStatus → NodeChange
  | .archived => .archived
  | .active => .restored

def creation (target : NodeView) (stamp : Stamp) : Changes :=
  { Changes.none with
    inserted := [target.node]
    events := [nodeEvent .created target stamp Option.none]
    entries := [nodeEntry .created target stamp Option.none] }

def grantPayload (grant : RoleGrant) (source : Option String) :
    GrantPayload :=
  { grantId := grant.id
    roleKey := grant.roleKey
    scope := grant.scope.canonicalPrn
    source }

def grantEvent (eventType : EventType) (grant : RoleGrant)
    (actorPrn : Option String) (instant : Timestamp) (correlation : Uuid)
    (source : Option String) : DomainEvent :=
  { eventType
    aggregatePrn := grant.principal.canonical
    actorPrn
    occurredAt := instant
    payload := .grant (grantPayload grant source)
    correlationId := correlation }

/-- An organization with its default team and the creator's owner grant. -/
def createOrganizationIn (id team grant : Uuid) (slug name : String)
    (stamp : Stamp) : Changes :=
  let source := some "organization_create"
  let organization := newNode id .organization slug name stamp
  let defaultTeam := newNode team (.team id) "default" "Default" stamp
  let ownerGrant := newGrant
    { principal := stamp.principal
      roleKey := "org_admin"
      scope := .node (.organization (OrganizationId.fromUuid id)) }
    grant stamp.instant
  let orgView : NodeView := ⟨organization, organization.status⟩
  let teamView : NodeView := ⟨defaultTeam, defaultTeam.status⟩
  { Changes.none with
    inserted := [organization, defaultTeam]
    granted := [ownerGrant]
    events :=
      [nodeEvent .created orgView stamp Option.none,
        nodeEvent .created teamView stamp source,
        grantEvent .roleGranted ownerGrant (some stamp.principal.canonical)
          stamp.instant stamp.correlation source]
    entries :=
      [nodeEntry .created orgView stamp Option.none,
        nodeEntry .created teamView stamp source,
        { occurredAt := stamp.instant
          actorPrn := some stamp.principal.canonical
          action := .grantRole
          resourcePrn := organization.prn
          detail := .ownerGrant (grantPayload ownerGrant source)
          correlationId := stamp.correlation }] }

def membershipPayload (record : MembershipRecord) : MembershipPayload :=
  ⟨record.id, record.principalPrn, record.nodePrn⟩

def membershipEvent (eventType : EventType) (record : MembershipRecord)
    (stamp : Stamp) : DomainEvent :=
  { eventType
    aggregatePrn := record.nodePrn
    actorPrn := some stamp.principal.canonical
    occurredAt := stamp.instant
    payload := .membership (membershipPayload record)
    correlationId := stamp.correlation }

def membershipEntry (action : Core.Action) (record : MembershipRecord)
    (cascadeOf : Option Uuid) (stamp : Stamp) : AuditEntry :=
  { occurredAt := stamp.instant
    actorPrn := some stamp.principal.canonical
    action
    resourcePrn := record.nodePrn
    detail := .membership (membershipPayload record) cascadeOf
    correlationId := stamp.correlation }

/-- The insert of a membership on the node. -/
def attachment (id principal : Uuid) (own : NodeRow) (stamp : Stamp) :
    Changes :=
  let record : MembershipRecord :=
    { id
      principalPrn := (PrincipalId.fromUuid principal).canonical
      nodePrn := own.prn
      createdAt := stamp.instant
      createdBy := some stamp.principal }
  { Changes.none with
    attached :=
      [{ id
         principal
         node := own.key
         createdAt := stamp.instant
         createdBy := some stamp.principal }]
    events := [membershipEvent .membershipAttached record stamp]
    entries := [membershipEntry .attachMembership record Option.none stamp] }

/-- Attaches on locked rows, after the check that none of them is archived. -/
def attachIn (id principal : Uuid) (own : NodeRow) (ancestors : List NodeRow)
    (stamp : Stamp) : Except Refusal Changes :=
  if (view own ancestors).effectiveStatus = .archived then
    .error .nodeArchived
  else
    .ok (attachment id principal own stamp)

/-- The delete of the locked memberships, with one event and one audit entry
for each projected record; a cascaded one names its cause. -/
def detachIn (target : Uuid) (records : List MembershipRecord)
    (deleted : List Uuid) (stamp : Stamp) : Changes :=
  { Changes.none with
    detached := deleted
    events := records.map fun record =>
      membershipEvent .membershipDetached record stamp
    entries := records.map fun record =>
      membershipEntry .detachMembership record
        (if record.id = target then Option.none else some target) stamp }

def grantEntry (action : Core.Action) (grant : RoleGrant) (stamp : Stamp) :
    AuditEntry :=
  { occurredAt := stamp.instant
    actorPrn := some stamp.principal.canonical
    action
    resourcePrn := grant.scope.canonicalPrn
    detail := .grant grant.roleKey grant.scope.canonicalPrn
    correlationId := stamp.correlation }

def grantIn (grant : RoleGrant) (stamp : Stamp) : Changes :=
  { Changes.none with
    granted := [grant]
    events := [grantEvent .roleGranted grant (some stamp.principal.canonical)
      stamp.instant stamp.correlation Option.none]
    entries := [grantEntry .grantRole grant stamp] }

def revokeIn (grant : RoleGrant) (stamp : Stamp) : Changes :=
  { Changes.none with
    revoked := [grant.id]
    events := [grantEvent .roleRevoked grant (some stamp.principal.canonical)
      stamp.instant stamp.correlation Option.none]
    entries := [grantEntry .revokeRole grant stamp] }

/-- The platform administrator of the configuration; no principal acts. -/
def seedGrantIn (grant : RoleGrant) (issuer : String) (correlation : Uuid) :
    Changes :=
  let source := some "bootstrap_admins"
  { Changes.none with
    granted := [grant]
    events := [grantEvent .roleGranted grant Option.none grant.createdAt
      correlation source]
    entries :=
      [{ occurredAt := grant.createdAt
         actorPrn := Option.none
         action := .grantRole
         resourcePrn := rootPrn.canonical
         detail := .seededGrant grant.principal.canonical
           (grantPayload grant source) issuer
         correlationId := correlation }] }

end Paigasus.Tenancy
