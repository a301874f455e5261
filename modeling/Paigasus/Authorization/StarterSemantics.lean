import Paigasus.Authorization.EntitySlice
import Paigasus.Policies.AcceptedWrites

/-!
# What the starter policies permit

The engine compiled from the starter policies allows a request exactly when its
context is empty and a grant of a system role reaches it: the role lists the
action, the scope is the resource or one of its ancestors, and the action does
not write to an archived resource.  The policy language enters through its documented behaviour on the
starter texts, on the one condition they contain and on the schema.
-/

namespace Paigasus.Authorization

open Foundation Kernel Core Cedar Policies Tenancy

variable {Condition : Type}

section Specification

def principalUid (id : Uuid) : EntityUid :=
  ⟨"Pgs::Iam::Principal", String.ofList id.hyphenated⟩

/-- The entity of the platform root or of a tenancy node. -/
def placeUid : GrantScope → EntityUid
  | .root => rootUid
  | .node target => nodeUid (nodeKeyOf target)

def placePrn : GrantScope → Prn
  | .root => rootPrn
  | .node target => target.prn

/-- The entities of a tenancy hierarchy. -/
inductive TenancyEntity : Entity ContextValue → Prop where
  | root : TenancyEntity ⟨rootUid, [], []⟩
  | organization (id : Uuid) (status : NodeStatus) :
      TenancyEntity ⟨nodeUid (.organization id), [rootUid], statusAttrs status⟩
  | team (id org : Uuid) (status : NodeStatus) :
      TenancyEntity ⟨nodeUid (.team id), [nodeUid (.organization org)],
        statusAttrs status⟩
  | project (id team : Uuid) (status : NodeStatus) :
      TenancyEntity ⟨nodeUid (.project id), [nodeUid (.team team)],
        statusAttrs status⟩
  | principal (id : Uuid) (kind status : String) :
      TenancyEntity ⟨principalUid id, [],
        [("kind", .str kind), ("status", .str status)]⟩

/-- A slice of the hierarchy: every entity is listed once. -/
structure Hierarchical (slice : EntitySlice) : Prop where
  unique : (slice.map Entity.uid).Nodup
  entities : ∀ entity ∈ slice, TenancyEntity entity

/-- A request of a principal on the root or a node. -/
structure Addressed (request : AccessRequest) (place : GrantScope) : Prop where
  service : request.principal.service = "iam"
  resourceType : request.principal.resourceType = "principal"
  resource : request.resource = placePrn place

/-- The platform administrator may do everything. -/
def roleLists (role : Role) (action : Core.Action) : Prop :=
  role.key = platformAdminKey ∨
    ∃ actions, roleActions role.key = some actions ∧ action ∈ actions

/-- The grant names the principal; region and organization of a name do not
identify it. -/
def grantedTo (grant : RoleGrant) (principal : Prn) : Prop :=
  grant.principal.prn.service = principal.service ∧
    grant.principal.prn.resourceType = principal.resourceType ∧
    grant.principal.prn.resourceId = principal.resourceId

/-- The effective status of the place is archived. -/
def isArchived (slice : EntitySlice) (place : GrantScope) : Prop :=
  ∃ entity ∈ slice, entity.uid = placeUid place ∧
    entity.attributes = statusAttrs .archived

/-- What the starter policies are meant to permit. -/
def Permitted (grants : List RoleGrant) (slice : EntitySlice)
    (request : AccessRequest) (place : GrantScope) : Prop :=
  (∃ grant ∈ grants, ∃ role ∈ systemRoles, grant.roleKey = role.key ∧
      grantedTo grant request.principal ∧ roleLists role request.action ∧
      Below slice (placeUid place) (placeUid grant.scope)) ∧
    ¬ (request.action.isWrite = true ∧ request.action.isRestore = false ∧
      isArchived slice place)

end Specification

section Schema

/-- The entity types of the schema with the types their parents may have. -/
def schemaParents : List (String × List String) :=
  [("Pgs::Iam::Root", []),
    ("Pgs::Iam::Organization", ["Pgs::Iam::Root"]),
    ("Pgs::Iam::Team", ["Pgs::Iam::Organization"]),
    ("Pgs::Iam::Project", ["Pgs::Iam::Team"]),
    ("Pgs::Iam::Principal", [])]

/-- The attributes of the entity types, all of them texts. -/
def schemaAttributes (typeName : String) : List String :=
  if typeName = "Pgs::Iam::Root" then []
  else if typeName = "Pgs::Iam::Principal" then ["kind", "status"]
  else ["effective_status"]

def schemaActions : List String :=
  ["GetOrganization", "ListOrganizations", "GetTeam", "ListTeams",
    "GetProject", "ListProjects", "ListMemberships", "CreateOrganization",
    "RenameOrganization", "ArchiveOrganization", "RestoreOrganization",
    "CreateTeam", "RenameTeam", "ArchiveTeam", "RestoreTeam",
    "CreateProject", "RenameProject", "ArchiveProject", "RestoreProject",
    "AttachMembership", "DetachMembership", "PutPolicy", "DeletePolicy",
    "ListPolicies", "GrantRole", "RevokeRole", "ListRoleGrants",
    "CreateServiceAccount", "GetServiceAccount", "ListServiceAccounts",
    "ArchiveServiceAccount", "IssueApiKey", "RevokeApiKey", "ListApiKeys",
    "ListAuditLog", "ListOutboxDeadLetters", "ReplayOutboxDeadLetter",
    "DiscardOutboxDeadLetter", "RetireSystemPolicy", "InvokeModel",
    "CreateUser", "GetUser", "LinkExternalIdentity",
    "UnlinkExternalIdentity", "ChangeUserEmail"]

/-- The entities and the request have the types that the schema declares; none
of its actions declares a context. -/
structure ConformsToSchema (slice : EntitySlice)
    (request : Cedar.Request ContextValue) : Prop where
  unique : (slice.map Entity.uid).Nodup
  types : ∀ entity ∈ slice, ∃ parents,
    (entity.uid.typeName, parents) ∈ schemaParents ∧
      ∀ parent ∈ entity.parents, parent.typeName ∈ parents
  attributes : ∀ entity ∈ slice,
    entity.attributes.map Prod.fst = schemaAttributes entity.uid.typeName ∧
      ∀ entry ∈ entity.attributes, ∃ text, entry.2 = .str text
  principal : request.principal.typeName = "Pgs::Iam::Principal"
  action : request.action.typeName = "Pgs::Iam::Action" ∧
    request.action.id ∈ schemaActions
  resource : request.resource.typeName ∈ ["Pgs::Iam::Root",
    "Pgs::Iam::Organization", "Pgs::Iam::Team", "Pgs::Iam::Project"]
  context : request.context = []

/-- `resource has effective_status && resource.effective_status ==
"archived"`. -/
def showsArchived (entities : EntitySlice)
    (request : Cedar.Request ContextValue) : Bool :=
  entities.any fun entity => entity.uid = request.resource &&
    entity.attributes.contains ("effective_status", .str "archived")

/-- The documented behaviour of the language that the engine rests on.  A request
is refused for any attribute of its context that its action does not declare. -/
structure Documented (language : Language Condition) (archived : Condition) :
    Prop where
  forbids : language.frontend.fromStr forbidArchivedWritesSource =
    some [forbidArchivedWrites archived]
  permits : ∀ role ∈ systemRoles, language.frontend.fromStr
    (templateSource role.key) = some [roleTemplate role.key]
  typeNames : ∀ prn, language.frontend.isTypeName (toCedarUid prn).typeName =
    true
  conforms : ∀ slice request, ConformsToSchema slice request →
    language.conforms slice request = true
  refuses : ∀ slice request, request.context ≠ [] →
    language.conforms slice request = false
  evaluates : ∀ slice request, ConformsToSchema slice request →
    language.evaluate slice request archived =
      some (showsArchived slice request)

theorem Documented.spells {language : Language Condition}
    {archived : Condition} (documented : Documented language archived) :
    SpellsStarters language.frontend :=
  ⟨⟨archived, documented.forbids⟩, documented.permits⟩

theorem action_mem_all (action : Core.Action) : action ∈ Action.all := by
  cases action <;> decide

theorem cedarUid_inj {action other : Core.Action}
    (same : action.cedarUid = other.cedarUid) : action = other := by
  have distinct : (Action.all.map Action.asWire).Nodup := by decide
  exact List.inj_on_of_nodup_map distinct (action_mem_all action)
    (action_mem_all other) (EntityUid.mk.inj same).2

theorem toCedarUid_place (place : GrantScope) :
    toCedarUid (placePrn place) = placeUid place := by
  cases place with
  | root => exact toCedarUid_root
  | node target => exact toCedarUid_node target

theorem scopeEntityUid_eq (scope : GrantScope) :
    scopeEntityUid scope = placeUid scope := by
  rw [← toCedarUid_place]
  cases scope <;> rfl

theorem toCedarUid_principal {name : Prn} (service : name.service = "iam")
    (resourceType : name.resourceType = "principal") :
    toCedarUid name = principalUid name.resourceId := by
  have typeName : "Pgs::" ++ pascal "iam" ++ "::" ++ pascal "principal" =
      "Pgs::Iam::Principal" := by decide
  rw [toCedarUid, service, resourceType, typeName]
  rfl

/-- A hierarchy slice and an addressed request without a context have the types
of the schema. -/
theorem Hierarchical.conforms {slice : EntitySlice} {request : AccessRequest}
    {place : GrantScope} (hierarchical : Hierarchical slice)
    (addressed : Addressed request place)
    (plain : request.context = .empty) :
    ConformsToSchema slice request.cedar where
  unique := hierarchical.unique
  types := by
    intro entity member
    cases hierarchical.entities entity member with
    | root => exact ⟨[], by simp [rootUid, schemaParents], by simp⟩
    | organization id status =>
        exact ⟨["Pgs::Iam::Root"], by simp [nodeUid, schemaParents],
          by simp [rootUid]⟩
    | team id org status =>
        exact ⟨["Pgs::Iam::Organization"], by simp [nodeUid, schemaParents],
          by simp [nodeUid]⟩
    | project id team status =>
        exact ⟨["Pgs::Iam::Team"], by simp [nodeUid, schemaParents],
          by simp [nodeUid]⟩
    | principal id kind status =>
        exact ⟨[], by simp [principalUid, schemaParents], by simp⟩
  attributes := by
    intro entity member
    cases hierarchical.entities entity member <;>
      simp [schemaAttributes, rootUid, nodeUid, principalUid, statusAttrs]
  principal := by
    rw [AccessRequest.cedar, toCedarUid_principal addressed.service
      addressed.resourceType]
    rfl
  action := by
    refine ⟨rfl, ?_⟩
    have declared : ∀ action ∈ Action.all, action.asWire ∈ schemaActions := by
      decide
    exact declared request.action (action_mem_all request.action)
  resource := by
    change (toCedarUid request.resource).typeName ∈ _
    rw [addressed.resource, toCedarUid_place]
    cases place with
    | root => simp [placeUid, rootUid]
    | node target => cases target <;> simp [placeUid, nodeKeyOf, nodeUid]
  context := by
    rw [AccessRequest.cedar, plain]
    rfl

end Schema

section Compiled

variable {frontend : Frontend Condition} {archived : Condition}

def linkOf (grant : RoleGrant) : TemplateLink :=
  ⟨grantPolicyId grant.id, grant.roleKey,
    ⟨some (toCedarUid grant.principal.prn),
      some (scopeEntityUid grant.scope)⟩⟩

theorem linkPresent_eq {set next : PolicySet Condition} {grant : RoleGrant}
    (linked : linkPresent frontend set grant = .ok next) :
    next = { set with
      links := set.links ++ if (set.template? grant.roleKey).isSome then
        [linkOf grant] else [] } := by
  unfold linkPresent at linked
  split at linked
  case isTrue present =>
    obtain ⟨principal, isPrincipal, afterPrincipal⟩ := ok_of_bind linked
    obtain ⟨resource, isResource, afterResource⟩ := ok_of_bind afterPrincipal
    rw [entityUid_ok isPrincipal, entityUid_ok isResource] at afterResource
    rw [if_pos present]
    obtain ⟨statement, found⟩ := Option.isSome_iff_exists.mp present
    simp only [PolicySet.link, found] at afterResource
    split at afterResource
    case h_1 added isLinked =>
      cases afterResource
      split at isLinked
      · split at isLinked
        · cases isLinked
        · cases isLinked
          rfl
      · cases isLinked
    case h_2 => cases afterResource
  case isFalse absent =>
    cases linked
    rw [if_neg absent, List.append_nil]

/-- One link for each grant whose template is present. -/
theorem linkGrants_eq {grants : List RoleGrant}
    {set next : PolicySet Condition}
    (linked : grants.foldlM (linkPresent frontend) set = .ok next) :
    next = { set with
      links := set.links ++ (grants.filter fun grant =>
        (set.template? grant.roleKey).isSome).map linkOf } := by
  induction grants generalizing set with
  | nil =>
      cases linked
      simp
  | cons grant rest ih =>
      rw [List.foldlM_cons] at linked
      obtain ⟨middle, first, later⟩ := ok_of_bind linked
      have isMiddle := linkPresent_eq first
      have sameTemplates : ∀ id, middle.template? id = set.template? id := by
        intro id
        rw [isMiddle]
        rfl
      rw [ih later]
      simp only [sameTemplates]
      rw [isMiddle]
      cases present : (set.template? grant.roleKey).isSome <;>
        simp [present]

theorem template?_starterSet {key : String} {statement : Statement Condition} :
    (starterSet archived systemRoles).template? key = some statement ↔
      (∃ role ∈ systemRoles, role.key = key) ∧
        statement = roleTemplate key := by
  constructor
  · intro found
    obtain ⟨role, known, same⟩ := List.mem_map.mp (PolicySet.template?_mem found)
    obtain ⟨sameKey, rfl⟩ := Prod.mk.inj same
    rw [← sameKey]
    exact ⟨⟨role, known, rfl⟩, rfl⟩
  · rintro ⟨⟨role, known, rfl⟩, rfl⟩
    have present : ((starterSet archived systemRoles).templates.find?
        fun entry => entry.1 = role.key).isSome = true := by
      rw [List.find?_isSome]
      exact ⟨_, List.mem_map_of_mem known, by simp⟩
    obtain ⟨entry, found⟩ := Option.isSome_iff_exists.mp present
    obtain ⟨other, _, rfl⟩ :=
      List.mem_map.mp (List.mem_of_find?_eq_some found)
    have sameKey : other.key = role.key := by
      simpa using List.find?_some found
    rw [PolicySet.template?, found, ← sameKey]
    rfl

/-- The policies of the compiled set: the forbid, and one permit for each grant
of a system role. -/
theorem mem_instances {grants : List RoleGrant} {set : PolicySet Condition}
    (linked : grants.foldlM (linkPresent frontend)
      (starterSet archived systemRoles) = .ok set)
    {policy : Instance Condition} :
    policy ∈ set.instances ↔
      policy = ⟨forbidArchivedWritesId, forbidArchivedWrites archived,
          ⟨none, none⟩⟩ ∨
        ∃ grant ∈ grants, ∃ role ∈ systemRoles, grant.roleKey = role.key ∧
          policy = ⟨grantPolicyId grant.id, roleTemplate role.key,
            (linkOf grant).values⟩ := by
  have isSet := linkGrants_eq linked
  have sameTemplates : ∀ id, set.template? id =
      (starterSet archived systemRoles).template? id := by
    intro id
    rw [isSet]
    rfl
  have links : set.links = (grants.filter fun grant =>
      ((starterSet archived systemRoles).template?
        grant.roleKey).isSome).map linkOf := by
    rw [isSet]
    rfl
  have policies : set.policies =
      [(forbidArchivedWritesId, forbidArchivedWrites archived)] := by
    rw [isSet]
    rfl
  rw [PolicySet.instances, List.mem_append, policies, List.map_singleton,
    List.mem_singleton, List.mem_filterMap]
  apply or_congr Iff.rfl
  constructor
  · rintro ⟨link, isLink, isInstance⟩
    obtain ⟨statement, present, rfl⟩ := Option.map_eq_some_iff.mp isInstance
    rw [links] at isLink
    obtain ⟨grant, isGrant, rfl⟩ := List.mem_map.mp isLink
    rw [sameTemplates] at present
    obtain ⟨⟨role, known, sameKey⟩, rfl⟩ := template?_starterSet.mp present
    refine ⟨grant, List.mem_of_mem_filter isGrant, role, known, sameKey.symm,
      ?_⟩
    rw [sameKey]
    rfl
  · rintro ⟨grant, isGrant, role, known, sameKey, rfl⟩
    have present : set.template? grant.roleKey =
        some (roleTemplate role.key) := by
      rw [sameTemplates, sameKey]
      exact template?_starterSet.mpr ⟨⟨role, known, rfl⟩, rfl⟩
    refine ⟨linkOf grant, ?_, by rw [linkOf, present]; rfl⟩
    rw [links]
    apply List.mem_map_of_mem
    rw [List.mem_filter, ← sameTemplates, present]
    exact ⟨isGrant, rfl⟩

end Compiled

section Decision

variable {language : Language Condition} {archived : Condition}
  {slice : EntitySlice} {request : AccessRequest} {place : GrantScope}

/-- Without evaluation errors the effect is the answer of the authorizer. -/
theorem decide_allow_iff {set : PolicySet Condition}
    (conforms : language.conforms slice request.cedar = true)
    (evaluates : ∀ policy ∈ set.instances, (policy.statement.applies
      language.evaluate slice request.cedar policy.values).isSome = true) :
    (decide language set slice request).effect = .allow ↔
      (isAuthorized language.evaluate set slice request.cedar).allows =
        true := by
  have noErrors : (isAuthorized language.evaluate set slice
      request.cedar).errors = [] := by
    rw [isAuthorized, List.map_eq_nil_iff, List.filter_eq_nil_iff]
    intro policy member failed
    rw [Option.isNone_iff_eq_none] at failed
    have holds := evaluates policy member
    rw [failed] at holds
    cases holds
  rw [decide, if_pos conforms]
  simp only [noErrors, ne_eq, not_true_eq_false, if_false]
  split
  case isTrue allows => simp [allows]
  case isFalse refuses =>
    split <;> simp [refuses]

theorem no_action_entity (hierarchical : Hierarchical slice)
    (action : Core.Action) : ∀ entity ∈ slice, entity.uid ≠ action.cedarUid := by
  intro entity member same
  cases hierarchical.entities entity member with
  | root => simp [rootUid, Action.cedarUid] at same
  | organization id status => simp [nodeUid, Action.cedarUid] at same
  | team id org status => simp [nodeUid, Action.cedarUid] at same
  | project id team status => simp [nodeUid, Action.cedarUid] at same
  | principal id kind status => simp [principalUid, Action.cedarUid] at same

/-- Actions have no ancestors, so a listed action is the action itself. -/
theorem action_listed_iff (hierarchical : Hierarchical slice)
    {actions : List Core.Action} {action : Core.Action} :
    (ActionConstraint.isIn (actions.map Action.cedarUid)).holds slice
      action.cedarUid = true ↔ action ∈ actions := by
  rw [ActionConstraint.holds, List.any_eq_true]
  constructor
  · rintro ⟨target, isTarget, found⟩
    obtain ⟨other, isOther, rfl⟩ := List.mem_map.mp isTarget
    have same := (isIn_iff_below.mp found).eq_of_unlisted
      (no_action_entity hierarchical action)
    rwa [← cedarUid_inj same]
  · intro listed
    exact ⟨action.cedarUid, List.mem_map_of_mem listed,
      isIn_iff_below.mpr .refl⟩

theorem roleTemplate_action_iff (hierarchical : Hierarchical slice)
    {role : Role} (known : role ∈ systemRoles) {action : Core.Action} :
    (roleTemplate role.key : Statement Condition).action.holds slice
      action.cedarUid = true ↔ roleLists role action := by
  have hasActions : ∀ other ∈ systemRoles, other.key ≠ platformAdminKey →
      (roleActions other.key).isSome = true := by decide
  by_cases isAdmin : role.key = platformAdminKey
  · simp [roleTemplate, roleLists, isAdmin, ActionConstraint.holds]
  · obtain ⟨actions, found⟩ :=
      Option.isSome_iff_exists.mp (hasActions role known isAdmin)
    rw [roleTemplate, if_neg isAdmin, found, Option.getD_some,
      action_listed_iff hierarchical, roleLists]
    simp [isAdmin, found]

/-- The permit of a grant applies to the requests that the grant reaches. -/
theorem permit_applies_iff (hierarchical : Hierarchical slice)
    (addressed : Addressed request place) {grant : RoleGrant} {role : Role}
    (known : role ∈ systemRoles) :
    (roleTemplate role.key : Statement Condition).applies language.evaluate
        slice request.cedar (linkOf grant).values = some true ↔
      grantedTo grant request.principal ∧ roleLists role request.action ∧
        Below slice (placeUid place) (placeUid grant.scope) := by
  have resource : request.cedar.resource = placeUid place := by
    rw [AccessRequest.cedar, addressed.resource, toCedarUid_place]
  have principal : (roleTemplate role.key :
      Statement Condition).principal.holds slice (linkOf grant).values.principal
        request.cedar.principal = true ↔
      grantedTo grant request.principal := by
    change Decidable.decide _ = true ↔ _
    rw [decide_eq_true_eq]
    exact (Option.some.injEq _ _).to_iff.trans toCedarUid_eq_iff
  have scope : (roleTemplate role.key : Statement Condition).resource.holds
      slice (linkOf grant).values.resource request.cedar.resource = true ↔
      Below slice (placeUid place) (placeUid grant.scope) := by
    change Cedar.isIn slice request.cedar.resource
      (scopeEntityUid grant.scope) = true ↔ _
    rw [resource, scopeEntityUid_eq, isIn_iff_below]
  rw [applies_iff, principal, scope]
  have action := @roleTemplate_action_iff Condition slice hierarchical role
    known request.action
  have noConditions : conditionsHold (language.evaluate slice request.cedar)
      (roleTemplate role.key : Statement Condition).conditions =
      some true := rfl
  exact (and_iff_left noConditions).trans
    (and_congr Iff.rfl (and_congr action Iff.rfl))

/-- The forbid applies to the non-restore writes on archived places. -/
theorem forbid_applies_iff (documented : Documented language archived)
    (hierarchical : Hierarchical slice)
    (addressed : Addressed request place)
    (plain : request.context = .empty) :
    (forbidArchivedWrites archived).applies language.evaluate slice
        request.cedar ⟨none, none⟩ = some true ↔
      request.action.isWrite = true ∧ request.action.isRestore = false ∧
        isArchived slice place := by
  have conforms := hierarchical.conforms addressed plain
  have resource : request.cedar.resource = placeUid place := by
    rw [AccessRequest.cedar, addressed.resource, toCedarUid_place]
  have listed : request.action ∈ archivedWriteActions ↔
      request.action.isWrite = true ∧ request.action.isRestore = false := by
    rw [archivedWriteActions, List.mem_filter, Bool.and_eq_true,
      Bool.not_eq_true']
    exact and_iff_right (action_mem_all request.action)
  have shows : showsArchived slice request.cedar = true ↔
      isArchived slice place := by
    rw [showsArchived, List.any_eq_true, isArchived, resource]
    apply exists_congr
    intro entity
    apply and_congr_right
    intro member
    rw [Bool.and_eq_true, decide_eq_true_eq, List.contains_iff_mem]
    apply and_congr_right
    intro same
    cases hierarchical.entities entity member with
    | root => simp [statusAttrs]
    | organization id status =>
        cases status <;> simp [statusAttrs, NodeStatus.asStr]
    | team id org status =>
        cases status <;> simp [statusAttrs, NodeStatus.asStr]
    | project id team status =>
        cases status <;> simp [statusAttrs, NodeStatus.asStr]
    | principal id kind status => simp [statusAttrs]
  have condition : conditionsHold (language.evaluate slice request.cedar)
      (forbidArchivedWrites archived).conditions = some true ↔
      isArchived slice place := by
    rw [← shows]
    simp only [forbidArchivedWrites, conditionsHold,
      documented.evaluates slice request.cedar conforms]
    cases showsArchived slice request.cedar <;> simp
  have action := @action_listed_iff slice hierarchical archivedWriteActions
    request.action
  rw [applies_iff, condition]
  constructor
  · rintro ⟨⟨_, isListed, _⟩, onArchived⟩
    obtain ⟨writes, notRestore⟩ := listed.mp (action.mp isListed)
    exact ⟨writes, notRestore, onArchived⟩
  · rintro ⟨writes, notRestore, onArchived⟩
    exact ⟨⟨rfl, action.mpr (listed.mpr ⟨writes, notRestore⟩), rfl⟩,
      onArchived⟩

theorem starters_compile (documented : Documented language archived)
    (now : Timestamp) {grants : List RoleGrant}
    (unique : (grants.map RoleGrant.id).Nodup) :
    ∃ set, compile language.frontend (starterPolicies now) grants =
      .ok set := by
  rw [compile_starters documented.spells documented.forbids]
  apply linkGrants_ok _ unique
  · intro grant _ statement present
    obtain ⟨_, rfl⟩ := template?_starterSet.mp present
    exact ⟨rfl, rfl⟩
  · intro grant _ used
    have listed : ∀ id ∈ (starterSet archived systemRoles).ids,
        isStarterPolicyId id = true := by
      simp [starterSet, PolicySet.ids, systemRoles, isStarterPolicyId,
        starterPolicyIds]
    have starter := listed _ used
    exact starterPolicyId_ne_grantPolicyId starter grant.id rfl
  · intro grant _
    refine ⟨documented.typeNames _, ?_⟩
    cases grant.scope with
    | root => exact documented.typeNames _
    | node target => exact documented.typeNames _

/-- A request with a context is denied, whatever the policies say. -/
theorem decide_of_context (documented : Documented language archived)
    (set : PolicySet Condition) (carries : request.context ≠ .empty) :
    decide language set slice request = ⟨.deny, [evaluationErrorMarker]⟩ := by
  have entries : request.cedar.context ≠ [] := by
    intro isEmpty
    exact carries (RequestContext.ext isEmpty)
  rw [decide, documented.refuses slice request.cedar entries]
  rfl

/-- Requests without a context are allowed exactly as the starter policies are
meant to permit. -/
theorem decide_starters_iff (documented : Documented language archived)
    {now : Timestamp} {grants : List RoleGrant} {set : PolicySet Condition}
    (compiled : compile language.frontend (starterPolicies now) grants =
      .ok set) (hierarchical : Hierarchical slice)
    (addressed : Addressed request place) (plain : request.context = .empty) :
    (decide language set slice request).effect = .allow ↔
      Permitted grants slice request place := by
  have conforms := hierarchical.conforms addressed plain
  rw [compile_starters documented.spells documented.forbids] at compiled
  have evaluates : ∀ policy ∈ set.instances, (policy.statement.applies
      language.evaluate slice request.cedar policy.values).isSome = true := by
    intro policy member
    rcases (mem_instances compiled).mp member with
      rfl | ⟨grant, _, role, _, _, rfl⟩
    · simp only [Statement.applies, forbidArchivedWrites, conditionsHold,
        documented.evaluates slice request.cedar conforms]
      split
      · cases showsArchived slice request.cedar <;> rfl
      · rfl
    · simp only [Statement.applies]
      split <;> rfl
  rw [decide_allow_iff (documented.conforms slice request.cedar conforms)
    evaluates, allows_iff]
  apply and_congr
  · constructor
    · rintro ⟨policy, member, permits, applies⟩
      rcases (mem_instances compiled).mp member with
        rfl | ⟨grant, isGrant, role, known, sameKey, rfl⟩
      · cases permits
      · exact ⟨grant, isGrant, role, known, sameKey,
          (permit_applies_iff hierarchical addressed known).mp applies⟩
    · rintro ⟨grant, isGrant, role, known, sameKey, reaches⟩
      exact ⟨_, (mem_instances compiled).mpr
          (.inr ⟨grant, isGrant, role, known, sameKey, rfl⟩), rfl,
        (permit_applies_iff hierarchical addressed known).mpr reaches⟩
  · apply not_congr
    rw [← forbid_applies_iff documented hierarchical addressed plain]
    constructor
    · rintro ⟨policy, member, forbids, applies⟩
      rcases (mem_instances compiled).mp member with
        rfl | ⟨grant, _, role, _, _, rfl⟩
      · exact applies
      · cases forbids
    · intro applies
      exact ⟨_, (mem_instances compiled).mpr (.inl rfl), rfl, applies⟩

/-- The engine of the starter policies allows exactly what they are meant to
permit, of requests without a context, and it compiles whenever no two grants
share an id. -/
theorem starters_allow_iff (documented : Documented language archived)
    (now : Timestamp) (grants : List RoleGrant) :
    ((grants.map RoleGrant.id).Nodup → ∃ set,
        compile language.frontend (starterPolicies now) grants = .ok set) ∧
      ∀ set, compile language.frontend (starterPolicies now) grants =
          .ok set →
        ∀ slice request place, Hierarchical slice →
          Addressed request place →
          ((decide language set slice request).effect = .allow ↔
            request.context = .empty ∧
              Permitted grants slice request place) ∧
          (request.context ≠ .empty → decide language set slice request =
            ⟨.deny, [evaluationErrorMarker]⟩) := by
  refine ⟨starters_compile documented now, ?_⟩
  intro set compiled slice request place hierarchical addressed
  refine ⟨?_, decide_of_context documented set⟩
  by_cases plain : request.context = .empty
  · rw [decide_starters_iff documented compiled hierarchical addressed plain]
    exact (and_iff_right plain).symm
  · rw [decide_of_context documented set plain]
    constructor
    · intro allowed
      cases allowed
    · rintro ⟨isEmpty, _⟩
      exact absurd isEmpty plain

end Decision

section Loaded

/-- The chain of a node: its entities are of the hierarchy and have ids of
their own. -/
theorem loadChain_shape {reads : Reads} {node : TenancyNodeRef}
    {chain : EntitySlice} (loaded : loadChain reads node = .ok chain) :
    (∀ entity ∈ chain, TenancyEntity entity) ∧
      (chain.map Entity.uid).Nodup ∧
      ∀ entity ∈ chain, ∃ key, entity.uid = nodeUid key := by
  have uidOf := toCedarUid_node
  cases node with
  | organization id =>
      obtain ⟨shown, _, isChain⟩ := ok_of_bind loaded
      cases isChain
      rw [nodeEntity, show toCedarUid id.prn = _ from uidOf (.organization id)]
      refine ⟨?_, List.nodup_singleton _, ?_⟩
      · intro entity member
        rw [List.mem_singleton.mp member]
        exact .organization _ _
      · simp [nodeKeyOf]
  | team id =>
      obtain ⟨shown, _, afterRow⟩ := ok_of_bind loaded
      split at afterRow
      · rename_i org _
        obtain ⟨orgShown, _, isChain⟩ := ok_of_bind afterRow
        cases isChain
        rw [nodeEntity, nodeEntity,
          show toCedarUid id.prn = _ from uidOf (.team id),
          show toCedarUid (OrganizationId.fromUuid org).prn = _ from
            uidOf (.organization (OrganizationId.fromUuid org))]
        refine ⟨?_, by simp [nodeKeyOf, nodeUid], by simp [nodeKeyOf]⟩
        simpa using ⟨TenancyEntity.team _ _ _, TenancyEntity.organization _ _⟩
      · cases afterRow
  | project id =>
      obtain ⟨shown, _, afterRow⟩ := ok_of_bind loaded
      split at afterRow
      · rename_i org team _
        obtain ⟨teamShown, _, afterTeam⟩ := ok_of_bind afterRow
        obtain ⟨orgShown, _, isChain⟩ := ok_of_bind afterTeam
        cases isChain
        rw [nodeEntity, nodeEntity, nodeEntity,
          show toCedarUid id.prn = _ from uidOf (.project id),
          show toCedarUid (TeamId.fromParts org team).prn = _ from
            uidOf (.team (TeamId.fromParts org team)),
          show toCedarUid (OrganizationId.fromUuid org).prn = _ from
            uidOf (.organization (OrganizationId.fromUuid org))]
        refine ⟨?_, by simp [nodeKeyOf, nodeUid], by simp [nodeKeyOf]⟩
        simpa using ⟨TenancyEntity.project _ _ _, TenancyEntity.team _ _ _,
          TenancyEntity.organization _ _⟩
      · cases afterRow

/-- Every loaded slice is a slice of the hierarchy. -/
theorem hierarchical_of_load {reads : Reads} {resource principal : Prn}
    {slice : EntitySlice} (service : principal.service = "iam")
    (resourceType : principal.resourceType = "principal")
    (loaded : load reads resource principal = .ok slice) :
    Hierarchical slice := by
  obtain ⟨chain, isChain, afterChain⟩ := ok_of_bind loaded
  obtain ⟨requester, isRequester, isSlice⟩ := ok_of_bind afterChain
  cases isSlice
  have isPrincipal : requester = ⟨principalUid principal.resourceId, [],
      [("kind", .str reads.kind), ("status", .str reads.status)]⟩ := by
    unfold principalEntity at isRequester
    split at isRequester
    · cases isRequester
      rw [toCedarUid_principal service resourceType]
    · cases isRequester
  have shape : (∀ entity ∈ chain, TenancyEntity entity) ∧
      (chain.map Entity.uid).Nodup ∧
      ∀ entity ∈ chain, ∃ key, entity.uid = nodeUid key := by
    unfold loadResource at isChain
    split at isChain
    · cases isChain
      simp
    · split at isChain
      · cases isChain
      · exact loadChain_shape isChain
  obtain ⟨entities, unique, nodes⟩ := shape
  constructor
  · rw [List.map_append, List.map_cons, List.cons_append, List.nodup_cons,
      List.nodup_append]
    refine ⟨?_, unique, List.nodup_singleton _, ?_⟩
    · intro member
      rcases List.mem_append.mp member with inChain | isLast
      · obtain ⟨entity, isEntity, same⟩ := List.mem_map.mp inChain
        obtain ⟨key, isKey⟩ := nodes entity isEntity
        exact nodeUid_ne_root key (isKey.symm.trans same)
      · rw [isPrincipal] at isLast
        simp [rootUid, principalUid] at isLast
    · intro uid inChain other isLast same
      obtain ⟨entity, isEntity, isUid⟩ := List.mem_map.mp inChain
      obtain ⟨key, isKey⟩ := nodes entity isEntity
      rw [isPrincipal] at isLast
      rw [← same, ← isUid, isKey] at isLast
      cases key <;> simp [nodeUid, principalUid] at isLast
  · intro entity member
    rcases List.mem_append.mp member with front | isLast
    · rcases List.mem_cons.mp front with rfl | inChain
      · exact .root
      · exact entities entity inChain
    · rw [List.mem_singleton.mp isLast, isPrincipal]
      exact .principal _ _ _

end Loaded

section SampleDecisions

theorem starterFrontend_spells : SpellsStarters Policies.Tables.starterFrontend where
  forbids := ⟨_, Policies.Tables.starterFrontend_forbids⟩
  permits := by
    intro role known
    cases found : systemRoles.find? fun other =>
        Decidable.decide (templateSource other.key = templateSource role.key) with
    | none =>
        have absent := List.find?_eq_none.mp found role known
        simp at absent
    | some other =>
        have sameText : templateSource other.key =
            templateSource role.key := by
          simpa using List.find?_some found
        have sameKey := templateSource_inj known
          (List.mem_of_find?_eq_some found) sameText
        simp [Policies.Tables.starterFrontend, found, sameKey]

def starterLanguage : Language String where
  frontend := { Policies.Tables.starterFrontend with isTypeName := fun _ => true }
  conforms _ request := request.context.isEmpty
  evaluate entities request condition :=
    if condition = Policies.Tables.archivedText then
      some (showsArchived entities request)
    else
      none

theorem starterLanguage_documented :
    Documented starterLanguage Policies.Tables.archivedText where
  forbids := by
    simp only [starterLanguage, Policies.Tables.starterFrontend_forbids]
  permits := by
    intro role known
    simp only [starterLanguage, starterFrontend_spells.permits role known]
  typeNames _ := rfl
  conforms slice request conforms := by
    simp only [starterLanguage, conforms.context, List.isEmpty_nil]
  refuses slice request carries := by
    simpa [starterLanguage] using carries
  evaluates _ _ _ := by simp only [starterLanguage, if_true]

/-- The organization 2 with the team 3 and the archived project 4, seen by the
principal 7. -/
def acmeSlice : EntitySlice :=
  [⟨rootUid, [], []⟩,
    ⟨nodeUid (.organization 2), [rootUid], statusAttrs .active⟩,
    ⟨nodeUid (.team 3), [nodeUid (.organization 2)], statusAttrs .active⟩,
    ⟨nodeUid (.project 4), [nodeUid (.team 3)], statusAttrs .archived⟩,
    ⟨principalUid 7, [], [("kind", .str "user"), ("status", .str "active")]⟩]

theorem acmeSlice_hierarchical : Hierarchical acmeSlice where
  unique := by decide
  entities := by
    simp only [acmeSlice, List.forall_mem_cons, List.not_mem_nil,
      false_implies, implies_true, and_true]
    exact ⟨.root, .organization _ _, .team _ _ _, .project _ _ _,
      .principal _ _ _⟩

/-- The principal 7 administers the organization 2. -/
def acmeAdmin : RoleGrant where
  id := 5
  principal := PrincipalId.fromUuid 7
  roleKey := "org_admin"
  scope := .node (.organization (OrganizationId.fromUuid 2))
  linkedPolicyId := grantPolicyId 5
  createdAt := 0

def acmeTeam : GrantScope := .node (.team (TeamId.fromParts 2 3))

def acmeProject : GrantScope := .node (.project (ProjectId.fromParts 2 4))

def acmeRequest (action : Core.Action) (place : GrantScope) : AccessRequest :=
  ⟨(PrincipalId.fromUuid 7).prn, action, placePrn place, .empty⟩

theorem acme_decisions :
    ∃ set, compile starterLanguage.frontend (starterPolicies 0) [acmeAdmin] =
        .ok set ∧
      (decide starterLanguage set acmeSlice
        (acmeRequest .renameTeam acmeTeam)).effect = .allow ∧
      (decide starterLanguage set acmeSlice
        (acmeRequest .restoreProject acmeProject)).effect = .allow ∧
      (decide starterLanguage set acmeSlice
        (acmeRequest .renameProject acmeProject)).effect ≠ .allow ∧
      (decide starterLanguage set acmeSlice
        (acmeRequest .createOrganization acmeTeam)).effect ≠ .allow := by
  obtain ⟨compiles, answers⟩ := starters_allow_iff starterLanguage_documented 0
    [acmeAdmin]
  obtain ⟨set, compiled⟩ := compiles (List.nodup_singleton _)
  have answer : ∀ action place,
      (decide starterLanguage set acmeSlice
        (acmeRequest action place)).effect = .allow ↔
          Permitted [acmeAdmin] acmeSlice (acmeRequest action place) place := by
    intro action place
    have decided := (answers set compiled acmeSlice (acmeRequest action place)
      place acmeSlice_hierarchical ⟨rfl, rfl, rfl⟩).1
    exact decided.trans (and_iff_right rfl)
  have teamBelow : Below acmeSlice (placeUid acmeTeam)
      (placeUid acmeAdmin.scope) := .single (by decide)
  have projectBelow : Below acmeSlice (placeUid acmeProject)
      (placeUid acmeAdmin.scope) := .head (by decide) teamBelow
  have isAdmin : ∃ role ∈ systemRoles, acmeAdmin.roleKey = role.key ∧
      roleActions role.key = some orgAdminActions := by decide
  obtain ⟨role, known, sameKey, actions⟩ := isAdmin
  have projectArchived : isArchived acmeSlice acmeProject := by
    unfold isArchived
    decide
  have teamActive : ¬ isArchived acmeSlice acmeTeam := by
    unfold isArchived
    decide
  refine ⟨set, compiled, (answer _ _).mpr ⟨?_, ?_⟩, (answer _ _).mpr ⟨?_, ?_⟩,
    mt (answer _ _).mp ?_, mt (answer _ _).mp ?_⟩
  · exact ⟨acmeAdmin, List.mem_singleton_self _, role, known, sameKey,
      ⟨rfl, rfl, rfl⟩, .inr ⟨_, actions, by decide⟩, teamBelow⟩
  · rintro ⟨_, _, archived⟩
    exact teamActive archived
  · exact ⟨acmeAdmin, List.mem_singleton_self _, role, known, sameKey,
      ⟨rfl, rfl, rfl⟩, .inr ⟨_, actions, by decide⟩, projectBelow⟩
  · rintro ⟨_, notRestore, _⟩
    cases notRestore
  · rintro ⟨_, writable⟩
    exact writable ⟨rfl, rfl, projectArchived⟩
  · rintro ⟨⟨grant, isGrant, other, _, otherKey, _, lists, _⟩, _⟩
    rw [List.mem_singleton.mp isGrant] at otherKey
    rcases lists with isAdmin | ⟨listed, isListed, member⟩
    · rw [isAdmin] at otherKey
      exact absurd otherKey (by decide)
    · rw [← otherKey, sameKey, actions] at isListed
      cases isListed
      exact absurd member (by decide)

/-- The same request with an attribute. -/
def addressedRequest : AccessRequest :=
  { acmeRequest .renameTeam acmeTeam with
    context := ⟨[("ip", .str "10.0.0.1")], List.pairwise_singleton _ _⟩ }

/-- A permitted request is denied when it carries a context. -/
theorem starters_deny_context :
    Documented starterLanguage Policies.Tables.archivedText ∧
      Hierarchical acmeSlice ∧ Addressed addressedRequest acmeTeam ∧
      Permitted [acmeAdmin] acmeSlice addressedRequest acmeTeam ∧
      ∃ set, compile starterLanguage.frontend (starterPolicies 0)
          [acmeAdmin] = .ok set ∧
        (decide starterLanguage set acmeSlice addressedRequest).effect ≠
          .allow := by
  obtain ⟨set, compiled⟩ := starters_compile starterLanguage_documented 0
    (show ([acmeAdmin].map RoleGrant.id).Nodup from List.nodup_singleton _)
  refine ⟨starterLanguage_documented, acmeSlice_hierarchical, ⟨rfl, rfl, rfl⟩,
    ⟨⟨acmeAdmin, List.mem_singleton_self _, ?_⟩, ?_⟩, set, compiled, ?_⟩
  · have isAdmin : ∃ role ∈ systemRoles, acmeAdmin.roleKey = role.key ∧
        roleActions role.key = some orgAdminActions := by decide
    obtain ⟨role, known, sameKey, actions⟩ := isAdmin
    exact ⟨role, known, sameKey, ⟨rfl, rfl, rfl⟩,
      .inr ⟨_, actions, by decide⟩, .single (by decide)⟩
  · rintro ⟨_, _, archived⟩
    unfold isArchived at archived
    exact absurd archived (by decide)
  · rw [decide_of_context starterLanguage_documented set]
    · decide
    · intro isEmpty
      cases isEmpty

end SampleDecisions

end Paigasus.Authorization
