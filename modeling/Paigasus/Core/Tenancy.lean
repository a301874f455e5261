import Paigasus.Kernel.ResourceName

/-!
# Tenancy values

Organizations contain teams and teams contain projects.  Each node is named by
a resource name of its own type; team and project names also carry the
organization.  The identifier types keep that shape as a field.
-/

namespace Paigasus.Core

open Foundation Kernel

/-- Microseconds since the epoch, the resolution of the clock port. -/
abbrev Timestamp : Type := Int

inductive NodeStatus where
  | active
  | archived
deriving DecidableEq

namespace NodeStatus

def asStr : NodeStatus → String
  | active => "active"
  | archived => "archived"

/-- Archived when the node itself or any of its ancestors is. -/
def effective (own : NodeStatus) (ancestors : List NodeStatus) : NodeStatus :=
  if own = archived ∨ archived ∈ ancestors then archived else active

theorem effective_eq_active {own : NodeStatus}
    {ancestors : List NodeStatus} :
    effective own ancestors = active ↔
      own = active ∧ ∀ status ∈ ancestors, status = active := by
  have notArchived : ∀ status : NodeStatus,
      status ≠ archived ↔ status = active := by
    intro status
    cases status <;> simp
  unfold effective
  split
  · rename_i someArchived
    refine ⟨by simp, ?_⟩
    rintro ⟨ownActive, allActive⟩
    rcases someArchived with ownArchived | member
    · rw [ownActive] at ownArchived
      cases ownArchived
    · cases allActive archived member
  · rename_i noneArchived
    refine ⟨fun _ => ?_, fun _ => rfl⟩
    obtain ⟨ownLive, ancestorsLive⟩ := not_or.mp noneArchived
    refine ⟨(notArchived own).mp ownLive, ?_⟩
    intro status member
    apply (notArchived status).mp
    intro isArchived
    rw [isArchived] at member
    exact ancestorsLive member

end NodeStatus

/-- The shape of a tenancy node's name. -/
def check (prn : Prn) (resourceType : String) (wantsOrg : Bool) : Bool :=
  prn.service = "iam" ∧ prn.resourceType = resourceType ∧
    prn.org.isSome = wantsOrg

structure OrganizationId where
  prn : Prn
  shape : check prn "organization" false = true
deriving DecidableEq

structure TeamId where
  prn : Prn
  shape : check prn "team" true = true
deriving DecidableEq

structure ProjectId where
  prn : Prn
  shape : check prn "project" true = true
deriving DecidableEq

theorem iam_isValidLabel : isValidLabel "iam".toList = true := by decide

theorem organization_isValidLabel :
    isValidLabel "organization".toList = true := by decide

theorem noRegion_valid : "" = "" ∨ isValidRegion "".toList = true := .inl rfl

/-- The canonical name of an identity resource: no region, and an organization
slot only for a team or a project. -/
def nodePrn (org : Option Uuid) (resourceType : String) (id : Uuid)
    (resourceTypeValid : isValidLabel resourceType.toList = true) : Prn :=
  { service := "iam"
    region := ""
    org
    resourceType
    resourceId := id
    serviceValid := iam_isValidLabel
    regionValid := noRegion_valid
    resourceTypeValid }

def OrganizationId.fromUuid (id : Uuid) : OrganizationId :=
  ⟨nodePrn none "organization" id organization_isValidLabel,
    by simp [check, nodePrn]⟩

def TeamId.fromParts (org id : Uuid) : TeamId :=
  ⟨nodePrn (some org) "team" id (by decide), by simp [check, nodePrn]⟩

def ProjectId.fromParts (org id : Uuid) : ProjectId :=
  ⟨nodePrn (some org) "project" id (by decide), by simp [check, nodePrn]⟩

inductive TenancyNodeRef where
  | organization (id : OrganizationId)
  | team (id : TeamId)
  | project (id : ProjectId)
deriving DecidableEq

namespace TenancyNodeRef

def prn : TenancyNodeRef → Prn
  | organization id => id.prn
  | team id => id.prn
  | project id => id.prn

/-- `none` is the invalid-node error, which carries the canonical name. -/
def fromPrn (name : Prn) : Option TenancyNodeRef :=
  if name.resourceType = "organization" then
    if shape : check name "organization" false = true then
      some (organization ⟨name, shape⟩)
    else
      none
  else if name.resourceType = "team" then
    if shape : check name "team" true = true then
      some (team ⟨name, shape⟩)
    else
      none
  else if name.resourceType = "project" then
    if shape : check name "project" true = true then
      some (project ⟨name, shape⟩)
    else
      none
  else
    none

theorem prn_fromPrn {name : Prn} {node : TenancyNodeRef}
    (isNode : fromPrn name = some node) : node.prn = name := by
  unfold fromPrn at isNode
  split at isNode
  · split at isNode <;> cases isNode
    rfl
  · split at isNode
    · split at isNode <;> cases isNode
      rfl
    · split at isNode
      · split at isNode <;> cases isNode
        rfl
      · cases isNode

def canonical (node : TenancyNodeRef) : String := node.prn.canonical

end TenancyNodeRef

/-- The identity of a principal. -/
structure PrincipalId where
  prn : Prn
deriving DecidableEq

namespace PrincipalId

/-- The canonical principal name of a UUID, without region or organization. -/
def fromUuid (id : Uuid) : PrincipalId :=
  ⟨nodePrn none "principal" id (by decide)⟩

def uuid (id : PrincipalId) : Uuid := id.prn.resourceId

def canonical (id : PrincipalId) : String := id.prn.canonical

end PrincipalId

end Paigasus.Core
