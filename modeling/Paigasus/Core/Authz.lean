import Paigasus.Core.Tenancy

/-!
# Authorization values

Roles are granted to a principal at a scope: the synthetic root above every
organization, or one tenancy node.
-/

namespace Paigasus.Core

open Foundation Kernel

inductive NodeKind where
  | root
  | organization
  | team
  | project
deriving DecidableEq

/-- The sentinel name of the synthetic root entity. -/
def rootPrn : Prn where
  service := "iam"
  region := ""
  org := none
  resourceType := "root"
  resourceId := 0
  serviceValid := iam_isValidLabel
  regionValid := noRegion_valid
  resourceTypeValid := by decide

inductive GrantScope where
  | root
  | node (node : TenancyNodeRef)
deriving DecidableEq

namespace GrantScope

def canonicalPrn : GrantScope → String
  | root => rootPrn.canonical
  | .node target => target.canonical

def kind : GrantScope → NodeKind
  | root => .root
  | .node (.organization _) => .organization
  | .node (.team _) => .team
  | .node (.project _) => .project

end GrantScope

/-- A grant of a role to a principal at a scope. -/
structure RoleGrant where
  id : Uuid
  principal : PrincipalId
  roleKey : String
  scope : GrantScope
  linkedPolicyId : String
  createdAt : Timestamp
deriving DecidableEq

/-- The id of the template-linked policy of a grant. -/
def grantPolicyId (id : Uuid) : String :=
  "grant:" ++ String.ofList id.hyphenated

inductive PolicyKind where
  | static
  | template
deriving DecidableEq

/-- An authored policy or template, as stored. -/
structure PolicyDocument where
  policyId : String
  kind : PolicyKind
  source : String
  description : String
  system : Bool
  createdAt : Timestamp
  updatedAt : Timestamp
deriving DecidableEq

end Paigasus.Core
