import Paigasus.Core.Authz
import Paigasus.Foundation.Cedar

/-!
# The action catalog, the system roles and the starter policies

Every system role is backed by one template whose id is the key of the role,
and one static policy forbids writes on archived resources.  The texts are the
ones the service writes; `roleTemplate` and `forbidArchivedWrites` are the
statements they spell.
-/

namespace Paigasus.Core

open Foundation Kernel Cedar

inductive Action where
  | getOrganization
  | listOrganizations
  | getTeam
  | listTeams
  | getProject
  | listProjects
  | listMemberships
  | createOrganization
  | renameOrganization
  | archiveOrganization
  | restoreOrganization
  | createTeam
  | renameTeam
  | archiveTeam
  | restoreTeam
  | createProject
  | renameProject
  | archiveProject
  | restoreProject
  | attachMembership
  | detachMembership
  | putPolicy
  | deletePolicy
  | listPolicies
  | grantRole
  | revokeRole
  | listRoleGrants
  | createServiceAccount
  | getServiceAccount
  | listServiceAccounts
  | archiveServiceAccount
  | issueApiKey
  | revokeApiKey
  | listApiKeys
  | listAuditLog
  | listOutboxDeadLetters
  | replayOutboxDeadLetter
  | discardOutboxDeadLetter
  | retireSystemPolicy
  | invokeModel
  | createUser
  | getUser
  | linkExternalIdentity
  | unlinkExternalIdentity
  | changeUserEmail
deriving DecidableEq

namespace Action

/-- Every action, in the order of the schema. -/
def all : List Action :=
  [.getOrganization, .listOrganizations, .getTeam, .listTeams, .getProject,
    .listProjects, .listMemberships, .createOrganization,
    .renameOrganization, .archiveOrganization, .restoreOrganization,
    .createTeam, .renameTeam, .archiveTeam, .restoreTeam, .createProject,
    .renameProject, .archiveProject, .restoreProject, .attachMembership,
    .detachMembership, .putPolicy, .deletePolicy, .listPolicies, .grantRole,
    .revokeRole, .listRoleGrants, .createServiceAccount, .getServiceAccount,
    .listServiceAccounts, .archiveServiceAccount, .issueApiKey,
    .revokeApiKey, .listApiKeys, .listAuditLog, .listOutboxDeadLetters,
    .replayOutboxDeadLetter, .discardOutboxDeadLetter, .retireSystemPolicy,
    .invokeModel, .createUser, .getUser, .linkExternalIdentity,
    .unlinkExternalIdentity, .changeUserEmail]

/-- The Cedar action id, which is also the wire name. -/
def asWire : Action → String
  | getOrganization => "GetOrganization"
  | listOrganizations => "ListOrganizations"
  | getTeam => "GetTeam"
  | listTeams => "ListTeams"
  | getProject => "GetProject"
  | listProjects => "ListProjects"
  | listMemberships => "ListMemberships"
  | createOrganization => "CreateOrganization"
  | renameOrganization => "RenameOrganization"
  | archiveOrganization => "ArchiveOrganization"
  | restoreOrganization => "RestoreOrganization"
  | createTeam => "CreateTeam"
  | renameTeam => "RenameTeam"
  | archiveTeam => "ArchiveTeam"
  | restoreTeam => "RestoreTeam"
  | createProject => "CreateProject"
  | renameProject => "RenameProject"
  | archiveProject => "ArchiveProject"
  | restoreProject => "RestoreProject"
  | attachMembership => "AttachMembership"
  | detachMembership => "DetachMembership"
  | putPolicy => "PutPolicy"
  | deletePolicy => "DeletePolicy"
  | listPolicies => "ListPolicies"
  | grantRole => "GrantRole"
  | revokeRole => "RevokeRole"
  | listRoleGrants => "ListRoleGrants"
  | createServiceAccount => "CreateServiceAccount"
  | getServiceAccount => "GetServiceAccount"
  | listServiceAccounts => "ListServiceAccounts"
  | archiveServiceAccount => "ArchiveServiceAccount"
  | issueApiKey => "IssueApiKey"
  | revokeApiKey => "RevokeApiKey"
  | listApiKeys => "ListApiKeys"
  | listAuditLog => "ListAuditLog"
  | listOutboxDeadLetters => "ListOutboxDeadLetters"
  | replayOutboxDeadLetter => "ReplayOutboxDeadLetter"
  | discardOutboxDeadLetter => "DiscardOutboxDeadLetter"
  | retireSystemPolicy => "RetireSystemPolicy"
  | invokeModel => "InvokeModel"
  | createUser => "CreateUser"
  | getUser => "GetUser"
  | linkExternalIdentity => "LinkExternalIdentity"
  | unlinkExternalIdentity => "UnlinkExternalIdentity"
  | changeUserEmail => "ChangeUserEmail"

def isRestore : Action → Bool
  | restoreOrganization | restoreTeam | restoreProject => true
  | _ => false

def isWrite : Action → Bool
  | getOrganization | listOrganizations | getTeam | listTeams | getProject
  | listProjects | listMemberships | listPolicies | listRoleGrants
  | getServiceAccount | listServiceAccounts | listApiKeys | listAuditLog
  | listOutboxDeadLetters | getUser => false
  | _ => true

/-- The entity of the action. -/
def cedarUid (action : Action) : EntityUid :=
  ⟨"Pgs::Iam::Action", action.asWire⟩

end Action

/-- A role definition. -/
structure Role where
  key : String
  templateId : String
  scopeKinds : List NodeKind
  description : String
  system : Bool
deriving DecidableEq

def forbidArchivedWritesId : String := "forbid-archived-writes"

def starterPolicyRevision : Nat := 4

def platformAdminKey : String := "platform_admin"

/-- The code-owned policy ids, in the order of `starterPolicies`. -/
def starterPolicyIds : List String :=
  [forbidArchivedWritesId, platformAdminKey, "org_admin", "org_member",
    "team_admin", "team_member", "project_admin", "project_member",
    "gateway_user"]

def isStarterPolicyId (id : String) : Bool := starterPolicyIds.contains id

def orgAdminActions : List Action :=
  [.getOrganization, .getTeam, .listTeams, .getProject, .listProjects,
    .listMemberships, .renameOrganization, .archiveOrganization,
    .restoreOrganization, .createTeam, .renameTeam, .archiveTeam,
    .restoreTeam, .createProject, .renameProject, .archiveProject,
    .restoreProject, .attachMembership, .detachMembership, .grantRole,
    .revokeRole, .listRoleGrants, .createServiceAccount, .getServiceAccount,
    .listServiceAccounts, .archiveServiceAccount, .issueApiKey,
    .revokeApiKey, .listApiKeys]

def orgMemberActions : List Action :=
  [.getOrganization, .getTeam, .listTeams, .getProject, .listProjects]

def teamAdminActions : List Action :=
  [.getTeam, .getProject, .listProjects, .listMemberships, .renameTeam,
    .archiveTeam, .restoreTeam, .createProject, .renameProject,
    .archiveProject, .restoreProject, .attachMembership, .detachMembership,
    .grantRole, .revokeRole, .listRoleGrants, .createServiceAccount,
    .getServiceAccount, .listServiceAccounts, .archiveServiceAccount,
    .issueApiKey, .revokeApiKey, .listApiKeys]

def teamMemberActions : List Action :=
  [.getTeam, .getProject, .listProjects]

def projectAdminActions : List Action :=
  [.getProject, .renameProject, .archiveProject, .restoreProject,
    .listMemberships, .attachMembership, .detachMembership, .grantRole,
    .revokeRole, .listRoleGrants, .createServiceAccount, .getServiceAccount,
    .listServiceAccounts, .archiveServiceAccount, .issueApiKey,
    .revokeApiKey, .listApiKeys]

def projectMemberActions : List Action :=
  [.getProject]

def gatewayUserActions : List Action :=
  [.invokeModel]

def systemRoles : List Role :=
  [ { key := platformAdminKey
      templateId := platformAdminKey
      scopeKinds := [.root]
      description :=
        "Full platform authority: every action, anywhere in the hierarchy."
      system := true },
    { key := "org_admin"
      templateId := "org_admin"
      scopeKinds := [.organization]
      description :=
        "Manage an organization and everything under it, including role grants within it."
      system := true },
    { key := "org_member"
      templateId := "org_member"
      scopeKinds := [.organization]
      description :=
        "Read an organization and everything under it."
      system := true },
    { key := "team_admin"
      templateId := "team_admin"
      scopeKinds := [.team]
      description :=
        "Manage a team and its projects, including role grants within it."
      system := true },
    { key := "team_member"
      templateId := "team_member"
      scopeKinds := [.team]
      description :=
        "Read a team and its projects."
      system := true },
    { key := "project_admin"
      templateId := "project_admin"
      scopeKinds := [.project]
      description :=
        "Manage a single project, including role grants within it."
      system := true },
    { key := "project_member"
      templateId := "project_member"
      scopeKinds := [.project]
      description :=
        "Read a single project."
      system := true },
    { key := "gateway_user"
      templateId := "gateway_user"
      scopeKinds := [.organization, .team, .project]
      description :=
        "Invoke models within a scope subtree (org/team/project)."
      system := true }]

/-- Looks a system role up by its key. -/
def role (key : String) : Option Role :=
  systemRoles.find? fun candidate => candidate.key = key

/-- The comma-joined action references of an `action in [..]` clause. -/
def actionRefs (actions : List Action) : String :=
  ", ".intercalate (actions.map fun action =>
    "Pgs::Iam::Action::\"" ++ action.asWire ++ "\"")

/-- The write actions other than the restores. -/
def archivedWriteActions : List Action :=
  Action.all.filter fun action => action.isWrite && !action.isRestore

def forbidArchivedWritesSource : String :=
  "forbid(principal, action in [" ++ actionRefs archivedWriteActions ++
    "], resource) when \x7b resource has effective_status && " ++
    "resource.effective_status == \"archived\" \x7d;"

/-- The allow-list of a role other than the platform administrator. -/
def roleActions (key : String) : Option (List Action) :=
  if key = "org_admin" then some orgAdminActions
  else if key = "org_member" then some orgMemberActions
  else if key = "team_admin" then some teamAdminActions
  else if key = "team_member" then some teamMemberActions
  else if key = "project_admin" then some projectAdminActions
  else if key = "project_member" then some projectMemberActions
  else if key = "gateway_user" then some gatewayUserActions
  else none

/-- The template text of a system role; no caller passes another key, for which
the source panics. -/
def templateSource (key : String) : String :=
  if key = platformAdminKey then
    "permit(principal == ?principal, action, resource in ?resource);"
  else
    "permit(principal == ?principal, action in [" ++
      actionRefs ((roleActions key).getD []) ++ "], resource in ?resource);"

def starterPolicies (now : Timestamp) : List PolicyDocument :=
  { policyId := forbidArchivedWritesId
    kind := .static
    source := forbidArchivedWritesSource
    description :=
        "Forbid every write action, except Restore*, on a resource whose " ++
        "effective_status is archived (belt-and-braces over M1's in-txn " ++
        "guards). Restores are exempt: restoring is the one legitimate " ++
        "write on an archived node — its whole purpose — and forbidding it " ++
        "here would make an archived node permanently un-restorable; M1's " ++
        "in-txn guards remain the real gate on restore ordering/validity."
    system := true
    createdAt := now
    updatedAt := now } ::
  systemRoles.map fun role =>
    { policyId := role.templateId
      kind := .template
      source := templateSource role.key
      description := role.description
      system := true
      createdAt := now
      updatedAt := now }

section Statements

variable {Condition : Type*}

/-- The statement of `forbid-archived-writes`, with its `when` clause. -/
def forbidArchivedWrites (archived : Condition) : Statement Condition :=
  { effect := .forbid
    principal := .any
    action := .isIn (archivedWriteActions.map Action.cedarUid)
    resource := .any
    conditions := [archived] }

/-- The statement of a role template: the grantee may act below the scope. -/
def roleTemplate (key : String) : Statement Condition :=
  { effect := .permit
    principal := .eq .slot
    action :=
      if key = platformAdminKey then
        .any
      else
        .isIn (((roleActions key).getD []).map Action.cedarUid)
    resource := .isIn .slot
    conditions := [] }

/-- The entity types of the schema. -/
def entityTypes : List String :=
  ["Pgs::Iam::Root", "Pgs::Iam::Organization", "Pgs::Iam::Team",
    "Pgs::Iam::Project", "Pgs::Iam::Principal"]

/-- The language front end reads each starter text as one statement with the
slots that the text shows, finds it to conform to the schema, and knows the
schema's entity types. -/
structure ReadsStarters (frontend : Frontend Condition) : Prop where
  forbids : ∃ statement,
    frontend.fromStr forbidArchivedWritesSource = some [statement] ∧
      statement.isTemplate = false ∧ frontend.validates [statement] = true
  permits : ∀ role ∈ systemRoles, ∃ statement,
    frontend.fromStr (templateSource role.key) = some [statement] ∧
      statement.principal.hasSlot = true ∧
      statement.resource.hasSlot = true ∧
      frontend.validates [statement] = true
  typeNames : ∀ name ∈ entityTypes, frontend.isTypeName name = true

end Statements

theorem starterPolicies_ids (now : Timestamp) :
    (starterPolicies now).map PolicyDocument.policyId = starterPolicyIds := by
  rw [starterPolicies, List.map_cons, List.map_map]
  exact congrArg (forbidArchivedWritesId :: ·)
    (rfl : systemRoles.map Role.templateId = starterPolicyIds.tail)

theorem mem_starterPolicies {now : Timestamp} {doc : PolicyDocument}
    (member : doc ∈ starterPolicies now) :
    (doc.kind = .static ∧ doc.source = forbidArchivedWritesSource ∧
      doc.policyId = forbidArchivedWritesId) ∨
    ∃ role ∈ systemRoles, doc.kind = .template ∧
      doc.source = templateSource role.key ∧ doc.policyId = role.key := by
  rcases List.mem_cons.mp member with rfl | below
  · exact .inl ⟨rfl, rfl, rfl⟩
  · obtain ⟨role, known, rfl⟩ := List.mem_map.mp below
    refine .inr ⟨role, known, rfl, rfl, ?_⟩
    have sameId : ∀ role ∈ systemRoles, role.templateId = role.key := by
      simp [systemRoles]
    exact sameId role known

/-- The key of a known role is the id of a starter template. -/
theorem role_isStarter {key : String} {known : Role}
    (found : role key = some known) :
    known ∈ systemRoles ∧ known.key = key ∧ key ∈ starterPolicyIds := by
  have member := List.mem_of_find?_eq_some found
  have sameKey : known.key = key := by
    simpa using List.find?_some found
  have keysKnown : ∀ role ∈ systemRoles, role.key ∈ starterPolicyIds := by
    simp [systemRoles, starterPolicyIds]
  refine ⟨member, sameKey, ?_⟩
  rw [← sameKey]
  exact keysKnown known member

theorem utf8ByteSize_intercalate (separator first : String)
    (rest : List String) :
    (separator.intercalate (first :: rest)).utf8ByteSize =
      first.utf8ByteSize +
        (rest.map fun text =>
          separator.utf8ByteSize + text.utf8ByteSize).sum := by
  induction rest generalizing first with
  | nil => simp
  | cons next rest ih =>
      rw [String.intercalate_cons_cons, String.utf8ByteSize_append,
        String.utf8ByteSize_append, ih, List.map_cons, List.sum_cons]
      omega

theorem actionRefs_size (first : Action) (rest : List Action) :
    (actionRefs (first :: rest)).utf8ByteSize =
      20 + first.asWire.utf8ByteSize +
        (rest.map fun action => 22 + action.asWire.utf8ByteSize).sum := by
  have ref (action : Action) : ("Pgs::Iam::Action::\"" ++ action.asWire ++
      "\"").utf8ByteSize = 20 + action.asWire.utf8ByteSize := by
    rw [String.utf8ByteSize_append, String.utf8ByteSize_append,
      show "Pgs::Iam::Action::\"".utf8ByteSize = 19 from rfl,
      show "\"".utf8ByteSize = 1 from rfl]
    omega
  have sizes : ∀ action : Action, ", ".utf8ByteSize +
      ("Pgs::Iam::Action::\"" ++ action.asWire ++ "\"").utf8ByteSize =
        22 + action.asWire.utf8ByteSize := by
    intro action
    rw [ref, show ", ".utf8ByteSize = 2 from rfl]
    omega
  rw [actionRefs, List.map_cons, utf8ByteSize_intercalate, ref, List.map_map]
  exact congrArg (fun sum => 20 + first.asWire.utf8ByteSize + sum)
    (congrArg List.sum (List.map_congr_left fun action _ => sizes action))

theorem templateSource_size {key : String} {first : Action}
    {rest : List Action} (notAdmin : key ≠ platformAdminKey)
    (allows : (roleActions key).getD [] = first :: rest) :
    (templateSource key).utf8ByteSize =
      89 + first.asWire.utf8ByteSize +
        (rest.map fun action => 22 + action.asWire.utf8ByteSize).sum := by
  rw [templateSource, if_neg notAdmin, allows, String.utf8ByteSize_append,
    String.utf8ByteSize_append, actionRefs_size,
    show "permit(principal == ?principal, action in [".utf8ByteSize = 43 from
      rfl,
    show "], resource in ?resource);".utf8ByteSize = 26 from rfl]
  omega

/-- The texts of the templates tell the system roles apart by their lengths. -/
theorem templateSource_sizes :
    (systemRoles.map fun role =>
      (role.key, (templateSource role.key).utf8ByteSize)) =
    [(platformAdminKey, 63), ("org_admin", 1101), ("org_member", 230),
      ("team_admin", 879), ("team_member", 162), ("project_admin", 683),
      ("project_member", 99), ("gateway_user", 100)] := by
  have size {key : String} {first : Action} {rest : List Action}
      (notAdmin : key ≠ platformAdminKey)
      (allows : (roleActions key).getD [] = first :: rest) :=
    templateSource_size notAdmin allows
  simp only [systemRoles, List.map_cons, List.map_nil]
  rw [@size "org_admin" _ _ (by decide) rfl,
    @size "org_member" _ _ (by decide) rfl,
    @size "team_admin" _ _ (by decide) rfl,
    @size "team_member" _ _ (by decide) rfl,
    @size "project_admin" _ _ (by decide) rfl,
    @size "project_member" _ _ (by decide) rfl,
    @size "gateway_user" _ _ (by decide) rfl]
  decide

theorem templateSource_inj {role other : Role} (known : role ∈ systemRoles)
    (isRole : other ∈ systemRoles)
    (same : templateSource other.key = templateSource role.key) :
    other.key = role.key := by
  have listed : ∀ role ∈ systemRoles,
      (role.key, (templateSource role.key).utf8ByteSize) ∈
        systemRoles.map fun role =>
          (role.key, (templateSource role.key).utf8ByteSize) :=
    fun role member => List.mem_map_of_mem member
  rw [templateSource_sizes] at listed
  have apart : ∀ left ∈ [(platformAdminKey, 63), ("org_admin", 1101),
      ("org_member", 230), ("team_admin", 879), ("team_member", 162),
      ("project_admin", 683), ("project_member", 99), ("gateway_user", 100)],
      ∀ right ∈ [(platformAdminKey, 63), ("org_admin", 1101),
      ("org_member", 230), ("team_admin", 879), ("team_member", 162),
      ("project_admin", 683), ("project_member", 99), ("gateway_user", 100)],
      left.2 = right.2 → left.1 = right.1 := by
    decide
  exact apart _ (listed other isRole) _ (listed role known)
    (congrArg String.utf8ByteSize same)

end Paigasus.Core
