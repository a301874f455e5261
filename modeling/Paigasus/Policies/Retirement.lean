import Paigasus.Authorization.Decide
import Paigasus.Foundation.Traced
import Paigasus.Outbox.Store
import Paigasus.Policies.RetirementGate

/-!
# Retirement of system rows

The use case that deletes a system-owned policy row, and its role row, which the
code no longer defines.  What its ports answer is arbitrary; the calls that
write, commit and bump are recorded.  A template without grants takes no part in
any decision, and an attempt that does not retire its row commits nothing.
-/

namespace Paigasus.Policies

open Foundation Kernel Core Cedar

section Inert

open Authorization

variable {Condition : Type} {frontend : Frontend Condition}
  {set next : PolicySet Condition} {id : String}

/-- The rows of the policy table without the row of an id. -/
def withoutPolicy (docs : List PolicyDocument) (id : String) :
    List PolicyDocument :=
  docs.filter fun doc => doc.policyId ≠ id

theorem addDocument_without {doc : PolicyDocument} (kept : doc.policyId ≠ id)
    (added : addDocument frontend set doc = .ok next) :
    addDocument frontend (set.without id) doc = .ok (next.without id) := by
  unfold addDocument at added ⊢
  split at added
  case h_1 kind =>
    split at added
    case h_1 => cases added
    case h_2 statement parsed =>
      split at added
      case h_2 => cases added
      case h_1 result isAdded =>
        cases added
        rw [PolicySet.add_without isAdded]
  case h_2 kind =>
    split at added
    case h_1 => cases added
    case h_2 statement parsed =>
      split at added
      case h_2 => cases added
      case h_1 result isAdded =>
        cases added
        rw [PolicySet.addTemplate_without kept isAdded]

theorem without_addDocument {doc : PolicyDocument}
    (isTemplate : doc.kind = .template)
    (added : addDocument frontend set doc = .ok next) :
    next.without doc.policyId = set.without doc.policyId := by
  unfold addDocument at added
  rw [isTemplate] at added
  dsimp only at added
  split at added
  case h_1 => cases added
  case h_2 statement parsed =>
    split at added
    case h_2 => cases added
    case h_1 result isAdded =>
      cases added
      exact PolicySet.without_addTemplate isAdded

/-- The documents are added as before when a template is left out. -/
theorem addDocuments_without {docs : List PolicyDocument}
    (templates : ∀ doc ∈ docs, doc.policyId = id → doc.kind = .template)
    (added : docs.foldlM (addDocument frontend) set = .ok next) :
    (withoutPolicy docs id).foldlM (addDocument frontend) (set.without id) =
      .ok (next.without id) := by
  induction docs generalizing set with
  | nil =>
      cases added
      rfl
  | cons doc rest ih =>
      rw [List.foldlM_cons] at added
      obtain ⟨middle, first, others⟩ := ok_of_bind added
      have later := ih (fun other member =>
        templates other (List.mem_cons_of_mem _ member)) others
      unfold withoutPolicy at later ⊢
      by_cases same : doc.policyId = id
      · subst same
        have isTemplate := templates doc List.mem_cons_self rfl
        rw [List.filter_cons_of_neg (by simp),
          ← without_addDocument isTemplate first]
        exact later
      · rw [List.filter_cons_of_pos (by simpa using same), List.foldlM_cons,
          addDocument_without same first]
        exact later

theorem linkPresent_without {grant : RoleGrant} (kept : grant.roleKey ≠ id)
    (linked : linkPresent frontend set grant = .ok next) :
    linkPresent frontend (set.without id) grant = .ok (next.without id) := by
  unfold linkPresent at linked ⊢
  rw [PolicySet.template?_without kept]
  split at linked
  case isFalse absent =>
    cases linked
    rw [if_neg absent]
  case isTrue present =>
    rw [if_pos present]
    obtain ⟨principal, isPrincipal, afterPrincipal⟩ := ok_of_bind linked
    obtain ⟨resource, isResource, afterResource⟩ := ok_of_bind afterPrincipal
    unfold linkGrant
    rw [isPrincipal, isResource]
    split at afterResource
    case h_2 => cases afterResource
    case h_1 result isLinked =>
      cases afterResource
      simp only [bind, Except.bind, PolicySet.link_without kept isLinked]

theorem linkPresent_links {grant : RoleGrant}
    (linked : linkPresent frontend set grant = .ok next) :
    ∀ link ∈ next.links, link ∈ set.links ∨ link.templateId = grant.roleKey := by
  unfold linkPresent at linked
  split at linked
  case isFalse =>
    cases linked
    exact fun link isLink => .inl isLink
  case isTrue =>
    obtain ⟨principal, _, afterPrincipal⟩ := ok_of_bind linked
    obtain ⟨resource, _, afterResource⟩ := ok_of_bind afterPrincipal
    split at afterResource
    case h_2 => cases afterResource
    case h_1 result isLinked =>
      cases afterResource
      unfold PolicySet.link at isLinked
      split at isLinked
      case h_1 => cases isLinked
      case h_2 =>
        split at isLinked
        case isFalse => cases isLinked
        case isTrue =>
          split at isLinked
          case isTrue => cases isLinked
          case isFalse =>
            cases isLinked
            intro link isLink
            rcases List.mem_append.mp isLink with old | new
            · exact .inl old
            · rw [List.mem_singleton.mp new]
              exact .inr rfl

theorem addDocument_links {doc : PolicyDocument}
    (added : addDocument frontend set doc = .ok next) :
    next.links = set.links := by
  have inserted : ∃ statement,
      set.add doc.policyId statement = .ok next ∨
        set.addTemplate doc.policyId statement = .ok next := by
    unfold addDocument at added
    split at added <;> split at added
    · cases added
    · rename_i statement _
      split at added <;> cases added
      rename_i isAdded
      exact ⟨statement, .inl isAdded⟩
    · cases added
    · rename_i statement _
      split at added <;> cases added
      rename_i isAdded
      exact ⟨statement, .inr isAdded⟩
  obtain ⟨statement, isAdded | isAdded⟩ := inserted
  · unfold PolicySet.add at isAdded
    split at isAdded <;> cases isAdded
    rfl
  · unfold PolicySet.addTemplate at isAdded
    split at isAdded <;> cases isAdded
    rfl

theorem addDocuments_links {docs : List PolicyDocument}
    (added : docs.foldlM (addDocument frontend) .empty = .ok next) :
    next.links = [] := by
  have step : ∀ state : PolicySet Condition, ∀ doc ∈ docs, ∀ later,
      state.links = [] → addDocument frontend state doc = .ok later →
        later.links = [] := by
    intro state doc _ later none isAdded
    rw [addDocument_links isAdded, none]
  exact foldlM_ok_invariant step rfl added

/-- The grants are linked as before when none names the template. -/
theorem linkGrants_without {grants : List RoleGrant}
    (unnamed : ∀ grant ∈ grants, grant.roleKey ≠ id)
    (unlinked : ∀ link ∈ set.links, link.templateId ≠ id)
    (linked : grants.foldlM (linkPresent frontend) set = .ok next) :
    grants.foldlM (linkPresent frontend) (set.without id) =
        .ok (next.without id) ∧
      ∀ link ∈ next.links, link.templateId ≠ id := by
  induction grants generalizing set with
  | nil =>
      cases linked
      exact ⟨rfl, unlinked⟩
  | cons grant rest ih =>
      rw [List.foldlM_cons] at linked
      obtain ⟨middle, first, others⟩ := ok_of_bind linked
      have kept := unnamed grant List.mem_cons_self
      have stillUnlinked : ∀ link ∈ middle.links, link.templateId ≠ id := by
        intro link isLink
        rcases linkPresent_links first link isLink with old | isGrant
        · exact unlinked link old
        · rw [isGrant]
          exact kept
      have later := ih (fun other member =>
        unnamed other (List.mem_cons_of_mem _ member)) stillUnlinked others
      rw [List.foldlM_cons, linkPresent_without kept first]
      exact later

/-- A template that no grant names can be left out: the rest compiles, and every
request is decided as before. -/
theorem decide_withoutPolicy {language : Authorization.Language Condition}
    {docs : List PolicyDocument} {grants : List RoleGrant}
    (compiled : compile language.frontend docs grants = .ok set)
    (templates : ∀ doc ∈ docs, doc.policyId = id → doc.kind = .template)
    (unnamed : ∀ grant ∈ grants, grant.roleKey ≠ id) :
    compile language.frontend (withoutPolicy docs id) grants =
        .ok (set.without id) ∧
      ∀ slice request, decide language (set.without id) slice request =
        decide language set slice request := by
  obtain ⟨middle, added, linked⟩ := ok_of_bind compiled
  have unlinked : ∀ link ∈ middle.links, link.templateId ≠ id := by
    rw [addDocuments_links added]
    nofun
  obtain ⟨relinked, stillUnlinked⟩ :=
    linkGrants_without unnamed unlinked linked
  have readded := addDocuments_without templates added
  constructor
  · have empty : (PolicySet.empty : PolicySet Condition).without id =
        .empty := rfl
    rw [empty] at readded
    unfold compile
    rw [readded]
    exact relinked
  · intro slice request
    unfold Authorization.decide isAuthorized
    rw [PolicySet.instances_without stillUnlinked]

end Inert

/-- A stored policy row, as a retirement sees it. -/
structure StoredPolicy where
  policyId : String
  kind : PolicyKind
  source : String
  description : String
  system : Bool
deriving DecidableEq

structure StoredRole where
  key : String
  system : Bool
deriving DecidableEq

structure GrantRef where
  id : String
  principalPrn : String
  scopePrn : String
deriving DecidableEq

/-- A page of the grants of a role, and how many there are. -/
structure SurvivingGrants where
  grants : List GrantRef
  total : Nat
deriving DecidableEq

def SurvivingGrants.truncated (survivors : SurvivingGrants) (cap : Nat) :
    Bool :=
  cap < survivors.total

def grantListCap : Nat := 100

/-- Only the first of these removed rows. -/
inductive RetireOutcome where
  | retired (policyId : String) (kind : PolicyKind) (roleDeleted : Bool)
  | blocked (roleKey : String) (grants : List GrantRef) (total : Nat)
      (truncated : Bool)
  | needsAcknowledgement (policyId : String) (kind : PolicyKind)
      (source description : String)
deriving DecidableEq

def RetireOutcome.isRetired : RetireOutcome → Bool
  | retired .. => true
  | _ => false

inductive ConflictKind where
  | slugTaken
  | duplicateMembership
  | emailTaken
  | externalIdentityExists
  | serviceAccountNameTaken
  | apiKeyHashCollision
  | other
deriving DecidableEq

inductive PreconditionKind where
  | parentArchived
  | nodeArchived
  | missingOrgMembership
deriving DecidableEq

inductive RepositoryError where
  | conflict (kind : ConflictKind)
  | notFound
  | prnMismatch
  | precondition (kind : PreconditionKind)
  | backend
deriving DecidableEq

/-- The errors of a retirement; the last ones are those of its repositories. -/
inductive TenancyError where
  | check (refusal : CheckRefusal)
  | systemImmutable (policyId : String)
  | fleetNotConverged
  | notSystemOwned (policyId : String)
  | internal
  | notFound
  | prnMismatch
  | slugConflict
  | duplicateMembership
  | emailConflict
  | externalIdentityConflict
  | serviceAccountNameConflict
  | parentArchived
  | nodeArchived
  | missingOrgMembership
deriving DecidableEq

def TenancyError.ofRepository : RepositoryError → TenancyError
  | .conflict .slugTaken => .slugConflict
  | .conflict .duplicateMembership => .duplicateMembership
  | .conflict .emailTaken => .emailConflict
  | .conflict .externalIdentityExists => .externalIdentityConflict
  | .conflict .serviceAccountNameTaken => .serviceAccountNameConflict
  | .conflict .apiKeyHashCollision => .internal
  | .conflict .other => .internal
  | .notFound => .notFound
  | .prnMismatch => .prnMismatch
  | .precondition .parentArchived => .parentArchived
  | .precondition .nodeArchived => .nodeArchived
  | .precondition .missingOrgMembership => .missingOrgMembership
  | .backend => .internal

def TenancyError.ofRefusal : RetireRefusal → TenancyError
  | .check refusal => .check refusal
  | .systemImmutable id => .systemImmutable id
  | .fleetNotConverged => .fleetNotConverged
  | .internal => .internal

def maxAuditedSourceBytes : Nat := 8 * 1024

/-- At most the bound of bytes, cut on a character boundary. -/
def truncateAuditedText (text : String) : String × Bool :=
  if text.utf8ByteSize ≤ maxAuditedSourceBytes then
    (text, false)
  else
    (String.ofList (Outbox.takeBytes maxAuditedSourceBytes text.toList), true)

structure RetirementPayload where
  policyId : String
  reason : String
  roleDeleted : Bool
deriving DecidableEq

/-- The domain event of a deleted policy. -/
structure PolicyDeleted where
  id : Uuid
  schemaVersion : Nat
  aggregatePrn : String
  actorPrn : Option String
  occurredAt : Timestamp
  payload : RetirementPayload
  correlationId : Option Uuid
deriving DecidableEq

structure DestroyedContent where
  kind : String
  source : String
  description : String
  truncated : Bool
  descriptionTruncated : Bool
deriving DecidableEq

structure RetirementDetail where
  policyId : String
  roleDeleted : Bool
  source : String
  destroyedContent : DestroyedContent
deriving DecidableEq

/-- An audit entry of a committed retirement. -/
structure RetirementEntry where
  id : Uuid
  occurredAt : Timestamp
  actorPrn : Option String
  action : Core.Action
  resourcePrn : Option String
  determiningPolicies : List String
  detail : RetirementDetail
  correlationId : Option Uuid
deriving DecidableEq

/-- What a retirement writes in its transaction. -/
inductive RetireWrite where
  | deleteRole (key : String)
  | deletePolicy (policyId : String)
  | enqueue (event : PolicyDeleted)
  | record (entry : RetirementEntry)
deriving DecidableEq

inductive RetireCall where
  | write (change : RetireWrite)
  | commit
  | bump
deriving DecidableEq

def RetireCall.write? : RetireCall → Option RetireWrite
  | .write change => some change
  | _ => none

/-- A transaction that is dropped before its commit is rolled back. -/
def committedWrites (calls : List RetireCall) : List RetireWrite :=
  if .commit ∈ calls then calls.filterMap RetireCall.write? else []

/-- What the ports answer in one attempt.  A failed commit leaves the database
as it was. -/
structure RetirementPorts where
  authorized : Except CheckRefusal Unit
  minStarterRevision : Except BackendError (Option Nat)
  beginRetirement : Except BackendError Unit
  lockPolicyIn : Except BackendError (Option StoredPolicy)
  lockRoleIn : Except BackendError (Option StoredRole)
  survivingGrantsIn : Except BackendError SurvivingGrants
  deleteRoleIn : Except BackendError Bool
  deletePolicyIn : Except BackendError Bool
  enqueue : Except RepositoryError Unit
  record : Except RepositoryError Unit
  commit : Except RepositoryError Unit
  newCorrelationId : Uuid
  newEventId : Uuid
  newAuditId : Uuid
  now : Timestamp

abbrev Retirement : Type → Type := Traced RetireCall TenancyError

section Retire

variable {Value : Type}

def askedOf (answer : Except BackendError Value) : Retirement Value :=
  match answer with
  | .ok value => pure value
  | .error _ => .refuse .internal

/-- A call that writes or commits. -/
def done (call : RetireCall) (answer : Except RepositoryError Unit) :
    Retirement Unit :=
  match answer with
  | .ok () => .record call
  | .error error => .refuse (.ofRepository error)

/-- The row was seen under a lock, so it must be deleted. -/
def requireDeleted (write : RetireWrite)
    (answer : Except BackendError Bool) : Retirement Unit := do
  if ← askedOf answer then
    .record (.write write)
  else
    .refuse .internal

namespace RetirementPorts

def event (ports : RetirementPorts) (actor : Prn) (id : String)
    (roleDeleted : Bool) : PolicyDeleted :=
  { id := ports.newEventId
    schemaVersion := 1
    aggregatePrn := "policy/" ++ id
    actorPrn := some actor.canonical
    occurredAt := ports.now
    payload := ⟨id, "system_retirement", roleDeleted⟩
    correlationId := some ports.newCorrelationId }

def auditEntry (ports : RetirementPorts) (actor : Prn)
    (detail : RetirementDetail) : RetirementEntry :=
  { id := ports.newAuditId
    occurredAt := ports.now
    actorPrn := some actor.canonical
    action := .retireSystemPolicy
    resourcePrn := some rootPrn.canonical
    determiningPolicies := []
    detail
    correlationId := some ports.newCorrelationId }

def retirementDetail (policy : StoredPolicy) (id : String)
    (roleDeleted : Bool) : RetirementDetail :=
  let (source, truncated) := truncateAuditedText policy.source
  let (description, descriptionTruncated) :=
    truncateAuditedText policy.description
  { policyId := id
    roleDeleted
    source := "system_retirement"
    destroyedContent :=
      { kind := policyKindStr policy.kind
        source
        description
        truncated
        descriptionTruncated } }

def deleteRole (ports : RetirementPorts) (id : String)
    (role : Option StoredRole) : Retirement Bool :=
  match role with
  | none => pure false
  | some _ => do
      requireDeleted (.deleteRole id) ports.deleteRoleIn
      return true

/-- The role row goes first: it refers to the policy row. -/
def destroy (ports : RetirementPorts) (actor : Prn) (id : String)
    (policy : StoredPolicy) (role : Option StoredRole) :
    Retirement RetireOutcome := do
  let roleDeleted ← ports.deleteRole id role
  requireDeleted (.deletePolicy id) ports.deletePolicyIn
  done (.write (.enqueue (ports.event actor id roleDeleted))) ports.enqueue
  done (.write (.record (ports.auditEntry actor
    (retirementDetail policy id roleDeleted)))) ports.record
  done .commit ports.commit
  .record .bump
  return .retired id policy.kind roleDeleted

/-- The grants that block; only a role has grants. -/
def blocking (ports : RetirementPorts) (role : Option StoredRole) :
    Retirement (Option SurvivingGrants) :=
  match role with
  | none => pure none
  | some _ => do
      let survivors ← askedOf ports.survivingGrantsIn
      return if 0 < survivors.total then some survivors else none

/-- What is done with both rows locked. -/
def retireLocked (ports : RetirementPorts) (actor : Prn) (id : String)
    (ack : Bool) (policy : StoredPolicy) (role : Option StoredRole) :
    Retirement RetireOutcome := do
  match ← ports.blocking role with
  | some survivors =>
      return .blocked id survivors.grants survivors.total
        (survivors.truncated grantListCap)
  | none =>
      if policy.kind = .static ∧ ack = false then
        return .needsAcknowledgement id policy.kind policy.source
          policy.description
      else
        ports.destroy actor id policy role

def retire (ports : RetirementPorts) (actor : Prn) (id : String)
    (ack : Bool) : Retirement RetireOutcome :=
  match retireChecks ports.authorized ports.minStarterRevision id with
  | .error refusal => .refuse (.ofRefusal refusal)
  | .ok () => do
      askedOf ports.beginRetirement
      match ← askedOf ports.lockPolicyIn with
      | none => .refuse .notFound
      | some policy =>
          if policy.system = false then
            .refuse (.notSystemOwned id)
          else do
            let role ← askedOf ports.lockRoleIn
            if role.any fun row => !row.system then
              .refuse (.notSystemOwned id)
            else
              ports.retireLocked actor id ack policy role

end RetirementPorts

end Retire

section Refused

/-- No call committed the transaction, and none followed a commit. -/
def Unsettled (calls : List RetireCall) : Prop :=
  .commit ∉ calls ∧ .bump ∉ calls

theorem Unsettled.committedWrites {calls : List RetireCall}
    (unsettled : Unsettled calls) : committedWrites calls = [] :=
  if_neg unsettled.1

/-- The attempt retires its row, or its transaction is not committed. -/
def RetiresOrKeeps (attempt : Retirement RetireOutcome) : Prop :=
  (∃ outcome, attempt.outcome = .ok outcome ∧ outcome.isRetired = true) ∨
    Unsettled attempt.calls

variable {Value : Type}

theorem unsettled_nil : Unsettled [] := ⟨List.not_mem_nil, List.not_mem_nil⟩

theorem retiresOrKeeps_refuse (error : TenancyError) :
    RetiresOrKeeps (.refuse error) := .inr unsettled_nil

theorem retiresOrKeeps_pure (outcome : RetireOutcome) :
    RetiresOrKeeps (pure outcome) := .inr unsettled_nil

theorem retiresOrKeeps_bind {first : Retirement Value}
    {next : Value → Retirement RetireOutcome}
    (unsettled : Unsettled first.calls)
    (later : ∀ value, RetiresOrKeeps (next value)) :
    RetiresOrKeeps (first >>= next) := by
  cases returned : first.outcome with
  | error error =>
      rw [Traced.bind_of_error returned]
      exact .inr unsettled
  | ok value =>
      rw [Traced.bind_of_ok returned]
      rcases later value with retired | kept
      · exact .inl retired
      · refine .inr ⟨?_, ?_⟩
        · exact fun committed => (List.mem_append.mp committed).elim
            unsettled.1 kept.1
        · exact fun bumped => (List.mem_append.mp bumped).elim
            unsettled.2 kept.2

theorem askedOf_calls (answer : Except BackendError Value) :
    (askedOf answer).calls = [] := by
  cases answer <;> rfl

theorem askedOf_unsettled (answer : Except BackendError Value) :
    Unsettled (askedOf answer).calls := by
  rw [askedOf_calls]
  exact unsettled_nil

theorem done_unsettled (change : RetireWrite)
    (answer : Except RepositoryError Unit) :
    Unsettled (done (.write change) answer).calls := by
  cases answer with
  | error => exact unsettled_nil
  | ok => constructor <;> simp [done, Traced.record]

theorem requireDeleted_unsettled (change : RetireWrite)
    (answer : Except BackendError Bool) :
    Unsettled (requireDeleted change answer).calls := by
  cases answer with
  | error => exact unsettled_nil
  | ok deleted =>
      cases deleted with
      | false => exact unsettled_nil
      | true => constructor <;> simp [requireDeleted, askedOf, Traced.record,
          bind, pure]

namespace RetirementPorts

variable (ports : RetirementPorts) (actor : Prn) (id : String)
  (policy : StoredPolicy) (role : Option StoredRole)

theorem deleteRole_unsettled : Unsettled (ports.deleteRole id role).calls := by
  cases role with
  | none => exact unsettled_nil
  | some row =>
      have deleted :=
        requireDeleted_unsettled (.deleteRole id) ports.deleteRoleIn
      unfold deleteRole
      constructor
      · simpa [Traced.mem_bind_calls] using deleted.1
      · simpa [Traced.mem_bind_calls] using deleted.2

theorem blocking_calls : (ports.blocking role).calls = [] := by
  cases role with
  | none => rfl
  | some row =>
      unfold blocking
      cases ports.survivingGrantsIn <;> rfl

theorem destroy_retiresOrKeeps :
    RetiresOrKeeps (ports.destroy actor id policy role) := by
  refine retiresOrKeeps_bind (ports.deleteRole_unsettled id role) ?_
  intro roleDeleted
  refine retiresOrKeeps_bind (requireDeleted_unsettled _ _) fun _ => ?_
  refine retiresOrKeeps_bind (done_unsettled _ _) fun _ => ?_
  refine retiresOrKeeps_bind (done_unsettled _ _) fun _ => ?_
  -- What follows is the commit: its error ends the attempt before the bump.
  cases committed : ports.commit with
  | error error => exact retiresOrKeeps_refuse (.ofRepository error)
  | ok => exact .inl ⟨_, rfl, rfl⟩

theorem retireLocked_retiresOrKeeps (ack : Bool) :
    RetiresOrKeeps (ports.retireLocked actor id ack policy role) := by
  have asked := ports.blocking_calls role
  refine retiresOrKeeps_bind (asked ▸ unsettled_nil) ?_
  intro survivors
  cases survivors with
  | some survivors => exact retiresOrKeeps_pure _
  | none =>
      dsimp only
      split
      case isTrue => exact retiresOrKeeps_pure _
      case isFalse => exact ports.destroy_retiresOrKeeps actor id policy role

/-- Every attempt retires its row or commits nothing. -/
theorem retire_retiresOrKeeps (ack : Bool) :
    RetiresOrKeeps (ports.retire actor id ack) := by
  unfold retire
  split
  case h_1 refusal _ => exact retiresOrKeeps_refuse _
  case h_2 =>
    refine retiresOrKeeps_bind (askedOf_unsettled _) fun _ => ?_
    refine retiresOrKeeps_bind (askedOf_unsettled _) fun found => ?_
    cases found with
    | none => exact retiresOrKeeps_refuse _
    | some policy =>
        dsimp only
        split
        case isTrue => exact retiresOrKeeps_refuse _
        case isFalse =>
          refine retiresOrKeeps_bind (askedOf_unsettled _) fun role => ?_
          split
          case isTrue => exact retiresOrKeeps_refuse _
          case isFalse =>
            exact ports.retireLocked_retiresOrKeeps actor id policy role ack

end RetirementPorts

end Refused

section Retired

namespace RetirementPorts

variable {ports : RetirementPorts} {actor : Prn} {id : String} {ack : Bool}
  {policy : StoredPolicy} {role : Option StoredRole} {outcome : RetireOutcome}

/-- What a retirement writes, in this order. -/
def retiredWrites (ports : RetirementPorts) (actor : Prn) (id : String)
    (policy : StoredPolicy) (role : Option StoredRole) : List RetireWrite :=
  (if role.isSome then [.deleteRole id] else []) ++
    [.deletePolicy id, .enqueue (ports.event actor id role.isSome),
      .record (ports.auditEntry actor
        (retirementDetail policy id role.isSome))]

theorem requireDeleted_ok {change : RetireWrite}
    {answer : Except BackendError Bool}
    (deleted : (requireDeleted change answer).outcome = .ok ()) :
    requireDeleted change answer = .record (.write change) := by
  cases answer with
  | error => cases deleted
  | ok answered =>
      cases answered with
      | false => cases deleted
      | true => rfl

theorem done_ok {call : RetireCall} {answer : Except RepositoryError Unit}
    (isDone : (done call answer).outcome = .ok ()) :
    done call answer = .record call := by
  cases answer with
  | error => cases isDone
  | ok => rfl

theorem deleteRole_ok {roleDeleted : Bool}
    (deleted : (ports.deleteRole id role).outcome = .ok roleDeleted) :
    roleDeleted = role.isSome ∧ (ports.deleteRole id role).calls =
      if role.isSome then [.write (.deleteRole id)] else [] := by
  cases role with
  | none =>
      cases deleted
      exact ⟨rfl, rfl⟩
  | some row =>
      obtain ⟨⟨⟩, isDeleted, returned⟩ := Traced.bind_outcome_ok.mp deleted
      cases returned
      unfold deleteRole
      dsimp only
      rw [requireDeleted_ok isDeleted]
      exact ⟨rfl, rfl⟩

theorem destroy_ok (destroyed : (ports.destroy actor id policy role).outcome =
      .ok outcome) :
    outcome = .retired id policy.kind role.isSome ∧
      committedWrites (ports.destroy actor id policy role).calls =
        ports.retiredWrites actor id policy role := by
  unfold destroy at destroyed ⊢
  obtain ⟨roleDeleted, roleGone, afterRole⟩ :=
    Traced.bind_outcome_ok.mp destroyed
  obtain ⟨isRole, roleCalls⟩ := deleteRole_ok roleGone
  rw [Traced.bind_of_ok roleGone, roleCalls]
  subst isRole
  obtain ⟨⟨⟩, policyGone, afterPolicy⟩ := Traced.bind_outcome_ok.mp afterRole
  obtain ⟨⟨⟩, enqueued, afterEvent⟩ := Traced.bind_outcome_ok.mp afterPolicy
  obtain ⟨⟨⟩, recorded, afterEntry⟩ := Traced.bind_outcome_ok.mp afterEvent
  obtain ⟨⟨⟩, committed, afterCommit⟩ := Traced.bind_outcome_ok.mp afterEntry
  rw [requireDeleted_ok policyGone, done_ok enqueued, done_ok recorded,
    done_ok committed]
  cases afterCommit
  refine ⟨rfl, ?_⟩
  cases role <;> rfl

/-- What a retirement has established under its locks. -/
structure Established (ports : RetirementPorts) (ack : Bool)
    (policy : StoredPolicy) (role : Option StoredRole) : Prop where
  found : ports.lockPolicyIn = .ok (some policy)
  isSystem : policy.system = true
  foundRole : ports.lockRoleIn = .ok role
  roleIsSystem : ∀ row ∈ role, row.system = true
  noGrants : role.isSome = true →
    ∃ survivors, ports.survivingGrantsIn = .ok survivors ∧ survivors.total = 0
  acknowledged : policy.kind = .static → ack = true

theorem askedOf_ok {Value : Type} {answer : Except BackendError Value}
    {value : Value} (asked : (askedOf answer).outcome = .ok value) :
    answer = .ok value := by
  cases answer with
  | error => cases asked
  | ok answered =>
      cases asked
      rfl

theorem blocking_none (none : (ports.blocking role).outcome = .ok none)
    (isSome : role.isSome = true) :
    ∃ survivors, ports.survivingGrantsIn = .ok survivors ∧
      survivors.total = 0 := by
  cases role with
  | none => cases isSome
  | some row =>
      obtain ⟨survivors, asked, returned⟩ := Traced.bind_outcome_ok.mp none
      refine ⟨survivors, askedOf_ok asked, ?_⟩
      by_contra some
      rw [if_pos (Nat.pos_of_ne_zero some)] at returned
      cases returned

theorem retireLocked_ok
    (retired : (ports.retireLocked actor id ack policy role).outcome =
      .ok outcome) (isRetired : outcome.isRetired = true) :
    (role.isSome = true → ∃ survivors,
        ports.survivingGrantsIn = .ok survivors ∧ survivors.total = 0) ∧
      (policy.kind = .static → ack = true) ∧
      outcome = .retired id policy.kind role.isSome ∧
      committedWrites (ports.retireLocked actor id ack policy role).calls =
        ports.retiredWrites actor id policy role := by
  unfold retireLocked at retired ⊢
  obtain ⟨survivors, asked, afterAsking⟩ := Traced.bind_outcome_ok.mp retired
  rw [Traced.bind_of_ok asked, ports.blocking_calls role, List.nil_append]
  cases survivors with
  | some survivors =>
      cases afterAsking
      cases isRetired
  | none =>
      dsimp only at afterAsking ⊢
      split at afterAsking
      case isTrue =>
        cases afterAsking
        cases isRetired
      case isFalse acknowledged =>
        rw [if_neg acknowledged]
        refine ⟨blocking_none asked, ?_, destroy_ok afterAsking⟩
        intro isStatic
        rw [← Bool.not_eq_false]
        exact fun unacknowledged => acknowledged ⟨isStatic, unacknowledged⟩

/-- A retired row was found under its lock, without grants, and its writes are
committed as a whole. -/
theorem retire_ok (retired : (ports.retire actor id ack).outcome = .ok outcome)
    (isRetired : outcome.isRetired = true) :
    ∃ policy role, Established ports ack policy role ∧
      outcome = .retired id policy.kind role.isSome ∧
      committedWrites (ports.retire actor id ack).calls =
        ports.retiredWrites actor id policy role := by
  unfold retire at retired ⊢
  split at retired
  case h_1 => cases retired
  case h_2 =>
    obtain ⟨⟨⟩, begun, afterBegin⟩ := Traced.bind_outcome_ok.mp retired
    obtain ⟨found, policyFound, afterPolicy⟩ :=
      Traced.bind_outcome_ok.mp afterBegin
    have policyCalls := askedOf_calls ports.lockPolicyIn
    rw [Traced.bind_of_ok begun, askedOf_calls, List.nil_append,
      Traced.bind_of_ok policyFound, policyCalls, List.nil_append]
    cases found with
    | none => cases afterPolicy
    | some policy =>
        dsimp only at afterPolicy ⊢
        split at afterPolicy
        case isTrue => cases afterPolicy
        case isFalse isSystem =>
          obtain ⟨role, roleFound, afterRole⟩ :=
            Traced.bind_outcome_ok.mp afterPolicy
          rw [if_neg isSystem, Traced.bind_of_ok roleFound, askedOf_calls,
            List.nil_append]
          split at afterRole
          case isTrue => cases afterRole
          case isFalse roleIsSystem =>
            rw [if_neg roleIsSystem]
            obtain ⟨noGrants, acknowledged, parts⟩ :=
              retireLocked_ok afterRole isRetired
            refine ⟨policy, role, ⟨askedOf_ok policyFound, by
              simpa using isSystem, askedOf_ok roleFound, ?_, noGrants,
              acknowledged⟩, parts⟩
            intro row isRow
            rw [isRow] at roleIsSystem
            simpa using roleIsSystem

end RetirementPorts

/-- The rows that a retirement reads and deletes. -/
structure RoleTables where
  docs : List PolicyDocument
  roles : List StoredRole
  grants : List RoleGrant

namespace RoleTables

def find (tables : RoleTables) (id : String) : Option StoredPolicy :=
  (tables.docs.find? fun doc => doc.policyId = id).map fun doc =>
    ⟨doc.policyId, doc.kind, doc.source, doc.description, doc.system⟩

/-- Ids are unique, and a grant refers to a role row. -/
structure Keyed (tables : RoleTables) : Prop where
  unique : (tables.docs.map PolicyDocument.policyId).Nodup
  granted : ∀ grant ∈ tables.grants, ∃ role ∈ tables.roles,
    role.key = grant.roleKey

/-- The locking reads return the rows of the tables, which the locks keep as
they are until the commit. -/
structure Answers (ports : RetirementPorts) (tables : RoleTables)
    (id : String) : Prop where
  policy : ∀ found, ports.lockPolicyIn = .ok found → found = tables.find id
  role : ∀ found, ports.lockRoleIn = .ok found →
    found = tables.roles.find? fun role => role.key = id
  survivors : ∀ survivors, ports.survivingGrantsIn = .ok survivors →
    survivors.total = tables.grants.countP fun grant => grant.roleKey = id

def apply (tables : RoleTables) : RetireWrite → RoleTables
  | .deleteRole key =>
      { tables with roles := tables.roles.filter fun role => role.key ≠ key }
  | .deletePolicy id => { tables with docs := withoutPolicy tables.docs id }
  | .enqueue _ => tables
  | .record _ => tables

def after (tables : RoleTables) (calls : List RetireCall) : RoleTables :=
  (committedWrites calls).foldl apply tables

variable {tables : RoleTables} {ports : RetirementPorts} {actor : Prn}
  {id : String} {ack : Bool}

theorem after_of_retired {calls : List RetireCall} {policy : StoredPolicy}
    {role : Option StoredRole}
    (writes : committedWrites calls = ports.retiredWrites actor id policy role) :
    (tables.after calls).docs = withoutPolicy tables.docs id ∧
      (tables.after calls).grants = tables.grants := by
  unfold after
  rw [writes]
  unfold RetirementPorts.retiredWrites
  cases role <;> exact ⟨rfl, rfl⟩

/-- A retired role has no grants left. -/
theorem unnamed_of_established {policy : StoredPolicy}
    {role : Option StoredRole} (keyed : tables.Keyed)
    (answers : Answers ports tables id)
    (established : ports.Established ack policy role) :
    ∀ grant ∈ tables.grants, grant.roleKey ≠ id := by
  intro grant member named
  obtain ⟨row, isRow, key⟩ := keyed.granted grant member
  have isRole := answers.role role established.foundRole
  have present : role.isSome = true := by
    rw [isRole, List.find?_isSome]
    exact ⟨row, isRow, by simp [key, named]⟩
  obtain ⟨survivors, asked, none⟩ := established.noGrants present
  rw [answers.survivors survivors asked, List.countP_eq_zero] at none
  exact none grant member (by simpa using named)

/-- The retirement of a template leaves every decision as it was. -/
theorem decide_after_retired {Condition : Type}
    {language : Authorization.Language Condition} {set : PolicySet Condition}
    {roleDeleted : Bool} (keyed : tables.Keyed)
    (answers : Answers ports tables id)
    (compiled : compile language.frontend tables.docs tables.grants = .ok set)
    (retired : (ports.retire actor id ack).outcome =
      .ok (.retired id .template roleDeleted)) :
    ∃ remaining, compile language.frontend
        (tables.after (ports.retire actor id ack).calls).docs
        (tables.after (ports.retire actor id ack).calls).grants =
          .ok remaining ∧
      ∀ slice request, Authorization.decide language remaining slice request =
        Authorization.decide language set slice request := by
  obtain ⟨policy, role, established, isOutcome, writes⟩ :=
    RetirementPorts.retire_ok retired rfl
  have isTemplate : policy.kind = .template :=
    ((RetireOutcome.retired.injEq ..).mp isOutcome).2.1.symm
  have isFound := answers.policy _ established.found
  obtain ⟨doc, found, isPolicy⟩ := Option.map_eq_some_iff.mp isFound.symm
  have templates : ∀ other ∈ tables.docs, other.policyId = id →
      other.kind = .template := by
    intro other member sameId
    have foundId : doc.policyId = id := by
      simpa using List.find?_some found
    have same : other = doc :=
      List.inj_on_of_nodup_map keyed.unique member
        (List.mem_of_find?_eq_some found) (sameId.trans foundId.symm)
    rw [same, ← isTemplate, ← isPolicy]
  obtain ⟨docs, grants⟩ := @after_of_retired tables ports actor id _ _ _ writes
  rw [docs, grants]
  exact ⟨_, decide_withoutPolicy compiled templates
    (unnamed_of_established keyed answers established)⟩

end RoleTables

end Retired

/-- A template that no grant names can be removed without a change of any
decision, and an attempt that does not retire its row writes nothing. -/
theorem retirement_is_inert_or_refused :
    (∀ (Condition : Type) (language : Authorization.Language Condition)
        (docs : List PolicyDocument) (grants : List RoleGrant)
        (set : PolicySet Condition) (id : String),
      compile language.frontend docs grants = .ok set →
      (∀ doc ∈ docs, doc.policyId = id → doc.kind = .template) →
      (∀ grant ∈ grants, grant.roleKey ≠ id) →
      ∃ remaining,
        compile language.frontend (withoutPolicy docs id) grants =
          .ok remaining ∧
        ∀ slice request,
          Authorization.decide language remaining slice request =
            Authorization.decide language set slice request) ∧
    ∀ (ports : RetirementPorts) (actor : Prn) (id : String) (ack : Bool),
      (∀ outcome, (ports.retire actor id ack).outcome = .ok outcome →
        outcome.isRetired = false) →
      committedWrites (ports.retire actor id ack).calls = [] ∧
        .bump ∉ (ports.retire actor id ack).calls := by
  constructor
  · intro Condition language docs grants set id compiled templates unnamed
    exact ⟨_, decide_withoutPolicy compiled templates unnamed⟩
  · intro ports actor id ack refused
    rcases ports.retire_retiresOrKeeps actor id ack with
      ⟨outcome, returned, isRetired⟩ | unsettled
    · rw [refused outcome returned] at isRetired
      cases isRetired
    · exact ⟨unsettled.committedWrites, unsettled.2⟩

section SampleRetirement

def auditorSource : String :=
  "permit(principal == ?principal, action, resource in ?resource);"

def auditorLanguage : Authorization.Language String where
  frontend :=
    { fromStr := fun source =>
        if source = auditorSource then some [roleTemplate platformAdminKey]
        else none
      validates := fun _ => true
      isTypeName := entityTypes.contains }
  conforms _ _ := true
  evaluate _ _ _ := none

/-- A template that the code no longer defines. -/
def auditorDoc : PolicyDocument :=
  ⟨"legacy_auditor", .template, auditorSource, "a legacy auditor role", true,
    0, 0⟩

/-- Every port answers, up to a commit that fails. -/
def failingPorts : RetirementPorts where
  authorized := .ok ()
  minStarterRevision := .ok (some starterPolicyRevision)
  beginRetirement := .ok ()
  lockPolicyIn := .ok (some ⟨"legacy_auditor", .template, auditorSource,
    "a legacy auditor role", true⟩)
  lockRoleIn := .ok (some ⟨"legacy_auditor", true⟩)
  survivingGrantsIn := .ok ⟨[], 0⟩
  deleteRoleIn := .ok true
  deletePolicyIn := .ok true
  enqueue := .ok ()
  record := .ok ()
  commit := .error .backend
  newCorrelationId := 1
  newEventId := 2
  newAuditId := 3
  now := 0

theorem retirement_is_inert_or_refused_sample :
    (∃ remaining,
      compile auditorLanguage.frontend [] [] = .ok remaining ∧
        ∀ slice request,
          Authorization.decide auditorLanguage remaining slice request =
            Authorization.decide auditorLanguage
              ⟨[], [("legacy_auditor", roleTemplate platformAdminKey)], []⟩
              slice request) ∧
    committedWrites (failingPorts.retire rootPrn "legacy_auditor" false).calls =
        [] ∧
      .bump ∉ (failingPorts.retire rootPrn "legacy_auditor" false).calls := by
  obtain ⟨inert, refused⟩ := retirement_is_inert_or_refused
  have compiled : compile auditorLanguage.frontend [auditorDoc] [] = .ok
      ⟨[], [("legacy_auditor", roleTemplate platformAdminKey)], []⟩ := rfl
  have removed : withoutPolicy [auditorDoc] "legacy_auditor" = [] := by
    simp [withoutPolicy, auditorDoc]
  have unchanged := inert String auditorLanguage [auditorDoc] [] _
    "legacy_auditor" compiled (by decide) (by simp)
  rw [removed] at unchanged
  refine ⟨unchanged, ?_⟩
  apply refused failingPorts rootPrn "legacy_auditor" false
  intro outcome returned
  have failed : (failingPorts.retire rootPrn "legacy_auditor" false).outcome =
      .error .internal := rfl
  rw [failed] at returned
  cases returned

def retiringPorts : RetirementPorts := { failingPorts with commit := .ok () }

/-- A template that is still granted. -/
def operatorDoc : PolicyDocument :=
  ⟨platformAdminKey, .template, auditorSource, "the operators", true, 0, 0⟩

def operatorGrant : RoleGrant where
  id := 7
  principal := PrincipalId.fromUuid 1
  roleKey := platformAdminKey
  scope := .root
  linkedPolicyId := grantPolicyId 7
  createdAt := 5

def auditedTables : RoleTables where
  docs := [operatorDoc, auditorDoc]
  roles := [⟨platformAdminKey, true⟩, ⟨"legacy_auditor", true⟩]
  grants := [operatorGrant]

theorem auditedTables_keyed : auditedTables.Keyed := by
  constructor
  · decide
  · intro grant member
    rw [List.mem_singleton.mp member]
    exact ⟨_, List.mem_cons_self, rfl⟩

theorem auditedTables_answer :
    RoleTables.Answers retiringPorts auditedTables "legacy_auditor" := by
  constructor
  · intro found asked
    cases asked
    decide
  · intro found asked
    cases asked
    decide
  · intro survivors asked
    cases asked
    decide

theorem auditedTables_compilable : Compilable auditorLanguage.frontend
    auditedTables.docs auditedTables.grants := by
  have read : auditorLanguage.frontend.parseTemplate auditorSource =
      some (roleTemplate platformAdminKey) := rfl
  have sources : ∀ doc ∈ auditedTables.docs,
      doc.source = auditorSource := by decide
  refine ⟨by decide, by decide, by decide, by decide, ?_, ?_⟩
  · intro doc member grant _ _ statement isStatement
    rw [sources doc member, read] at isStatement
    cases isStatement
    exact ⟨rfl, rfl⟩
  · intro grant member
    rw [List.mem_singleton.mp member]
    exact ⟨by decide, by decide⟩

/-- The retired template goes, and the granted one decides as before. -/
theorem legacyAuditor_retired :
    ∃ set remaining,
      compile auditorLanguage.frontend [operatorDoc, auditorDoc]
        [operatorGrant] = .ok set ∧
      compile auditorLanguage.frontend [operatorDoc] [operatorGrant] =
        .ok remaining ∧
      ∀ slice request,
        Authorization.decide auditorLanguage remaining slice request =
          Authorization.decide auditorLanguage set slice request := by
  obtain ⟨set, compiled⟩ := auditedTables_compilable.compile_ok
  have retired : (retiringPorts.retire rootPrn "legacy_auditor" false).outcome =
      .ok (.retired "legacy_auditor" .template true) := rfl
  obtain ⟨remaining, recompiled, same⟩ :=
    RoleTables.decide_after_retired auditedTables_keyed auditedTables_answer
      compiled retired
  have docs : (auditedTables.after (retiringPorts.retire rootPrn
      "legacy_auditor" false).calls).docs = [operatorDoc] := by
    decide
  have grants : (auditedTables.after (retiringPorts.retire rootPrn
      "legacy_auditor" false).calls).grants = [operatorGrant] := by
    decide
  rw [docs, grants] at recompiled
  exact ⟨set, remaining, compiled, recompiled, same⟩

end SampleRetirement

end Paigasus.Policies
