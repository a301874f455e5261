import Paigasus.Foundation.CedarDecision
import Paigasus.Foundation.Transition
import Paigasus.Policies.Engine

/-!
# Authorization decisions

A request is decided against a compiled policy set and the slice of entities
loaded for it.  The evaluation of the policy language is a parameter.  Under the
starter policies an allowed request has a grant of the requesting principal at
a scope above the resource.
-/

namespace Paigasus.Authorization

open Foundation Kernel Core Cedar Policies

inductive ContextValue where
  | str (value : String)
  | long (value : Int)
  | bool (value : Bool)
deriving DecidableEq

/-- An entity slice: the entities needed to decide one request. -/
abbrev EntitySlice : Type := List (Entity ContextValue)

/-- The policy language: its front end, the conformance of the entities and the
request, with its context, to the schema, and the evaluation of conditions. -/
structure Language (Condition : Type) where
  frontend : Frontend Condition
  conforms : EntitySlice → Cedar.Request ContextValue → Bool
  evaluate : Evaluation ContextValue Condition

/-- The attributes of a request, in the order of their names. -/
@[ext]
structure RequestContext where
  entries : List (String × ContextValue)
  sorted : (entries.map Prod.fst).Pairwise (· < ·)
deriving DecidableEq

def RequestContext.empty : RequestContext := ⟨[], .nil⟩

structure AccessRequest where
  principal : Prn
  action : Core.Action
  resource : Prn
  context : RequestContext
deriving DecidableEq

def AccessRequest.cedar (request : AccessRequest) :
    Cedar.Request ContextValue :=
  ⟨toCedarUid request.principal, request.action.cedarUid,
    toCedarUid request.resource, request.context.entries⟩

inductive Effect where
  | allow
  | deny
deriving DecidableEq

structure Decision where
  effect : Effect
  determiningPolicies : List String
deriving DecidableEq

def defaultDenyMarker : String := "default-deny (no matching permit)"

def evaluationErrorMarker : String := "evaluation-error"

def resourceNotFoundMarker : String := "resource-not-found"

section Decide

variable {Condition : Type}

/-- Never fails: what cannot be built or evaluated is denied. -/
def decide (language : Language Condition) (policies : PolicySet Condition)
    (slice : EntitySlice) (request : AccessRequest) : Decision :=
  if language.conforms slice request.cedar then
    let response :=
      isAuthorized language.evaluate policies slice request.cedar
    let reasons := response.reason.insertionSort fun left right => left ≤ right
    if response.errors ≠ [] then
      ⟨.deny, [evaluationErrorMarker]⟩
    else if response.allows then
      ⟨.allow, reasons⟩
    else if reasons = [] then
      ⟨.deny, [defaultDenyMarker]⟩
    else
      ⟨.deny, reasons⟩
  else
    ⟨.deny, [evaluationErrorMarker]⟩

/-- The front end reads each starter text as the statement that it spells. -/
structure SpellsStarters (frontend : Frontend Condition) : Prop where
  forbids : ∃ archived, frontend.fromStr forbidArchivedWritesSource =
    some [forbidArchivedWrites archived]
  permits : ∀ role ∈ systemRoles,
    frontend.fromStr (templateSource role.key) = some [roleTemplate role.key]

/-- Where the members of a compiled set come from. -/
structure Derived (frontend : Frontend Condition)
    (docs : List PolicyDocument) (grants : List RoleGrant)
    (set : PolicySet Condition) : Prop where
  policies : ∀ entry ∈ set.policies, ∃ doc ∈ docs, doc.kind = .static ∧
    frontend.parsePolicy doc.source = some entry.2
  templates : ∀ entry ∈ set.templates, ∃ doc ∈ docs, doc.kind = .template ∧
    frontend.parseTemplate doc.source = some entry.2
  links : ∀ link ∈ set.links, ∃ grant ∈ grants, link.values =
    ⟨some (toCedarUid grant.principal.prn), some (scopeEntityUid grant.scope)⟩

variable {frontend : Frontend Condition} {docs : List PolicyDocument}
  {grants : List RoleGrant}

theorem derived_addDocument {set next : PolicySet Condition}
    {doc : PolicyDocument} (member : doc ∈ docs)
    (derived : Derived frontend docs grants set)
    (added : addDocument frontend set doc = .ok next) :
    Derived frontend docs grants next := by
  unfold addDocument at added
  split at added
  · rename_i kind
    split at added
    · cases added
    · rename_i statement parsed
      split at added
      · rename_i result isAdded
        cases added
        unfold PolicySet.add at isAdded
        split at isAdded
        · cases isAdded
        · cases isAdded
          refine ⟨?_, derived.templates, derived.links⟩
          intro entry isEntry
          rcases List.mem_append.mp isEntry with old | new
          · exact derived.policies entry old
          · rw [List.mem_singleton.mp new]
            exact ⟨doc, member, kind, parsed⟩
      · cases added
  · rename_i kind
    split at added
    · cases added
    · rename_i statement parsed
      split at added
      · rename_i result isAdded
        cases added
        unfold PolicySet.addTemplate at isAdded
        split at isAdded
        · cases isAdded
        · cases isAdded
          refine ⟨derived.policies, ?_, derived.links⟩
          intro entry isEntry
          rcases List.mem_append.mp isEntry with old | new
          · exact derived.templates entry old
          · rw [List.mem_singleton.mp new]
            exact ⟨doc, member, kind, parsed⟩
      · cases added

theorem entityUid_ok {uid checked : EntityUid}
    (isChecked : entityUid frontend uid = .ok checked) : checked = uid := by
  unfold entityUid at isChecked
  split at isChecked
  · cases isChecked
    rfl
  · cases isChecked

theorem derived_linkPresent {set next : PolicySet Condition}
    {grant : RoleGrant} (member : grant ∈ grants)
    (derived : Derived frontend docs grants set)
    (linked : linkPresent frontend set grant = .ok next) :
    Derived frontend docs grants next := by
  unfold linkPresent at linked
  split at linked
  · obtain ⟨principal, isPrincipal, afterPrincipal⟩ := ok_of_bind linked
    obtain ⟨resource, isResource, afterResource⟩ := ok_of_bind afterPrincipal
    split at afterResource
    · rename_i result isLinked
      cases afterResource
      unfold PolicySet.link at isLinked
      split at isLinked
      · cases isLinked
      · split at isLinked
        · split at isLinked
          · cases isLinked
          · cases isLinked
            refine ⟨derived.policies, derived.templates, ?_⟩
            intro link isLink
            rcases List.mem_append.mp isLink with old | new
            · exact derived.links link old
            · rw [List.mem_singleton.mp new]
              refine ⟨grant, member, ?_⟩
              rw [entityUid_ok isPrincipal, entityUid_ok isResource]
        · cases isLinked
    · cases afterResource
  · cases linked
    exact derived

theorem derived_of_compile {set : PolicySet Condition}
    (compiled : compile frontend docs grants = .ok set) :
    Derived frontend docs grants set := by
  obtain ⟨middle, added, linked⟩ := ok_of_bind compiled
  have fromDocs : Derived frontend docs grants middle := by
    apply foldlM_ok_invariant _ _ added
    · intro set doc member next derived isAdded
      exact derived_addDocument member derived isAdded
    · constructor <;> intro entry isEntry <;> cases isEntry
  apply foldlM_ok_invariant _ fromDocs linked
  intro set grant member next derived isLinked
  exact derived_linkPresent member derived isLinked

theorem parsePolicy_of_read {source : String} {statement other : Statement Condition}
    (read : frontend.fromStr source = some [statement])
    (parsed : frontend.parsePolicy source = some other) : other = statement := by
  simp only [Frontend.parsePolicy, read] at parsed
  split at parsed
  · cases parsed
  · cases parsed
    rfl

theorem parseTemplate_of_read {source : String}
    {statement other : Statement Condition}
    (read : frontend.fromStr source = some [statement])
    (parsed : frontend.parseTemplate source = some other) :
    other = statement := by
  simp only [Frontend.parseTemplate, read] at parsed
  split at parsed
  · cases parsed
    rfl
  · cases parsed

/-- The starter policies as a policy set. -/
def starterSet (archived : Condition) (roles : List Role) :
    PolicySet Condition :=
  { policies := [(forbidArchivedWritesId, forbidArchivedWrites archived)]
    templates := roles.map fun role => (role.key, roleTemplate role.key)
    links := [] }

theorem addRoles_ok {archived : Condition} {now : Timestamp}
    (spells : SpellsStarters frontend) {added roles : List Role}
    (known : ∀ role ∈ roles, role ∈ systemRoles)
    (unique : (forbidArchivedWritesId ::
      (added ++ roles).map Role.key).Nodup) :
    (roles.map fun role =>
      { policyId := role.templateId
        kind := .template
        source := templateSource role.key
        description := role.description
        system := true
        createdAt := now
        updatedAt := now : PolicyDocument }).foldlM (addDocument frontend)
        (starterSet archived added) =
      .ok (starterSet archived (added ++ roles)) := by
  induction roles generalizing added with
  | nil => simp [pure, Except.pure]
  | cons role rest ih =>
      have isKnown := known role List.mem_cons_self
      have sameId : role.templateId = role.key := by
        have all : ∀ role ∈ systemRoles, role.templateId = role.key := by
          simp [systemRoles]
        exact all role isKnown
      have fresh : role.key ∉
          (starterSet archived added : PolicySet Condition).ids := by
        intro used
        simp only [starterSet, PolicySet.ids, List.map_cons, List.map_nil,
          List.append_nil, List.map_map, List.mem_append, List.mem_singleton,
          List.mem_map, Function.comp_apply] at used
        rw [List.nodup_cons, List.map_append, List.nodup_append] at unique
        rcases used with isForbid | ⟨other, isAdded, sameKey⟩
        · apply unique.1
          rw [← isForbid]
          exact List.mem_append_right _ (List.mem_map_of_mem
            List.mem_cons_self)
        · exact unique.2.2.2 _ (List.mem_map_of_mem isAdded) _
            (List.mem_map_of_mem List.mem_cons_self) sameKey
      have step : addDocument frontend (starterSet archived added)
          { policyId := role.templateId
            kind := .template
            source := templateSource role.key
            description := role.description
            system := true
            createdAt := now
            updatedAt := now } =
          .ok (starterSet archived (added ++ [role])) := by
        have isTemplate : (roleTemplate role.key :
            Statement Condition).isTemplate = true := rfl
        simp [addDocument, Frontend.parseTemplate, spells.permits role isKnown,
          isTemplate, PolicySet.addTemplate, sameId, fresh]
        simp [starterSet]
      rw [List.map_cons, List.foldlM_cons, step]
      have stillUnique : (forbidArchivedWritesId ::
          ((added ++ [role]) ++ rest).map Role.key).Nodup := by
        simpa using unique
      have later := ih (fun other member =>
        known other (List.mem_cons_of_mem _ member)) stillUnique
      rw [List.append_assoc, List.singleton_append] at later
      exact later

/-- The starter policies compile to the set that they spell. -/
theorem compile_starters {archived : Condition} {now : Timestamp}
    (spells : SpellsStarters frontend)
    (read : frontend.fromStr forbidArchivedWritesSource =
      some [forbidArchivedWrites archived]) :
    compile frontend (starterPolicies now) grants =
      grants.foldlM (linkPresent frontend)
        (starterSet archived systemRoles) := by
  have first : ∀ description, addDocument frontend .empty
      { policyId := forbidArchivedWritesId
        kind := .static
        source := forbidArchivedWritesSource
        description
        system := true
        createdAt := now
        updatedAt := now } = .ok (starterSet archived []) := by
    intro description
    simp [addDocument, Frontend.parsePolicy, read, Statement.isTemplate,
      Statement.slots, forbidArchivedWrites, ScopeConstraint.hasSlot,
      PolicySet.add, PolicySet.empty, PolicySet.ids, starterSet]
  have roles := @addRoles_ok Condition frontend archived now spells []
    systemRoles (fun _ member => member) (by decide)
  unfold compile starterPolicies
  rw [List.foldlM_cons, first]
  simp only [bind, Except.bind, roles, List.nil_append]

/-- Every permit of the compiled starter policies is the link of a grant: it
asks for the grantee as principal and for a resource below the scope. -/
theorem permit_of_starters {now : Timestamp} {set : PolicySet Condition}
    (spells : SpellsStarters frontend)
    (compiled : compile frontend (starterPolicies now) grants = .ok set)
    {policy : Instance Condition} (member : policy ∈ set.instances)
    (permits : policy.statement.effect = .permit) :
    ∃ grant ∈ grants, policy.statement.principal = .eq .slot ∧
      policy.statement.resource = .isIn .slot ∧
      policy.values = ⟨some (toCedarUid grant.principal.prn),
        some (scopeEntityUid grant.scope)⟩ := by
  have derived := derived_of_compile compiled
  rcases List.mem_append.mp member with isStatic | isLinked
  · exfalso
    obtain ⟨entry, inPolicies, rfl⟩ := List.mem_map.mp isStatic
    obtain ⟨doc, isDoc, kind, parsed⟩ := derived.policies entry inPolicies
    obtain ⟨archived, read⟩ := spells.forbids
    rcases mem_starterPolicies isDoc with
      ⟨_, source, _⟩ | ⟨_, _, isTemplate, _⟩
    · rw [source] at parsed
      simp only [parsePolicy_of_read read parsed] at permits
      cases permits
    · rw [kind] at isTemplate
      cases isTemplate
  · obtain ⟨link, isLink, isInstance⟩ := List.mem_filterMap.mp isLinked
    obtain ⟨statement, present, rfl⟩ := Option.map_eq_some_iff.mp isInstance
    obtain ⟨grant, isGrant, values⟩ := derived.links link isLink
    obtain ⟨doc, isDoc, kind, parsed⟩ :=
      derived.templates _ (PolicySet.template?_mem present)
    rcases mem_starterPolicies isDoc with
      ⟨isStatic, _⟩ | ⟨role, known, _, source, _⟩
    · rw [kind] at isStatic
      cases isStatic
    · rw [source] at parsed
      have isRole : statement = roleTemplate role.key :=
        parseTemplate_of_read (spells.permits role known) parsed
      rw [isRole]
      exact ⟨grant, isGrant, rfl, rfl, values⟩

/-- An allowed request rests on a grant of its principal at a scope above its
resource. -/
theorem grant_of_decide {language : Language Condition} {now : Timestamp}
    {set : PolicySet Condition} {slice : EntitySlice}
    {request : AccessRequest} (spells : SpellsStarters language.frontend)
    (compiled : compile language.frontend (starterPolicies now) grants =
      .ok set)
    (allowed : (decide language set slice request).effect = .allow) :
    ∃ grant ∈ grants,
      toCedarUid grant.principal.prn = toCedarUid request.principal ∧
      Below slice (toCedarUid request.resource)
        (scopeEntityUid grant.scope) := by
  have allows : (isAuthorized language.evaluate set slice
      request.cedar).allows = true := by
    unfold decide at allowed
    split at allowed
    · simp only at allowed
      split at allowed
      · cases allowed
      · split at allowed
        · assumption
        · split at allowed <;> cases allowed
    · cases allowed
  obtain ⟨policy, member, permits, scope⟩ := permit_of_allows allows
  obtain ⟨grant, isGrant, principal, resource, values⟩ :=
    permit_of_starters spells compiled member permits
  rw [Statement.scopeHolds, Bool.and_eq_true, Bool.and_eq_true, principal,
    resource, values] at scope
  obtain ⟨⟨samePrincipal, _⟩, below⟩ := scope
  refine ⟨grant, isGrant, ?_, ?_⟩
  · simpa [ScopeConstraint.holds, Reference.resolve, AccessRequest.cedar] using
      samePrincipal
  · apply below_of_reaches
    simpa [ScopeConstraint.holds, Reference.resolve, AccessRequest.cedar,
      Cedar.isIn] using below

end Decide

end Paigasus.Authorization
