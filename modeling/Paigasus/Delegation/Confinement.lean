import Paigasus.Authorization.StarterSemantics
import Paigasus.Delegation.Model
import Paigasus.Tenancy.GrantRows

/-!
# Delegation stays in the subtree of the delegator

A decision allows only below a scope that is granted to the actor, by the stored
ancestors of the resource.  So a set of principals whose grants all lie in the
subtree of one organization cannot leave it: each of their grants is made at a
scope in the subtree, and at no time does one of them hold a grant elsewhere,
unless somebody else hands it out.
-/

namespace Paigasus.Delegation

open Foundation Kernel Core Roles Tenancy Policies Authorization Cedar

/-- The scope is a node in the subtree of the organization. -/
def Encloses (db : Db) (org : Uuid) : GrantScope → Prop
  | .root => False
  | .node target => db.Beneath org (nodeKeyOf target)

/-- The same by the ancestor columns. -/
def Inside (db : Db) (org : Uuid) : GrantScope → Prop
  | .root => False
  | .node target => db.Under org (nodeKeyOf target)

structure Evidence.From (evidence : Evidence) (past : List Db) : Prop where
  snapshot : evidence.snapshot ∈ past
  reads : ∀ index, evidence.reads.state index ∈ past

section Statement

variable {Condition : Type}

/-- A decision over some of the states allows the actor. -/
def Allowed (deployment : Deployment Condition) (past : List Db)
    (actor : Uuid) (action : Core.Action) (resource : Prn) : Prop :=
  ∃ evidence : Evidence, evidence.From past ∧
    deployment.check evidence actor action resource = true

/-- The actor was allowed to grant at the scope of each of the grants. -/
def Vouched (deployment : Deployment Condition) (past : List Db)
    (request : IssueRequest) (checked : List RoleGrant) : Prop :=
  ∀ grant ∈ checked, Allowed deployment past request.actor .grantRole
    (scopeResourcePrn grant.scope)

namespace World

/-- One of the actions is the step of the call that reads the grants of its
account, and these are what the account held then. -/
def ListedAt (deployment : Deployment Condition) (first : World)
    (actions : List Action) (call : Nat) (request : IssueRequest)
    (held : List RoleGrant) : Prop :=
  ∃ earlier sources later reading,
    actions = earlier ++ Action.advanceIssue call sources :: later ∧
      runFrom (step deployment) first earlier = some reading ∧
      reading.issues call = some (.listing request) ∧
      held = grantsOf reading.base.db request.account

/-- Nobody outside the set has granted anything to a member of it. -/
def NoOutsideGrants (members : Set Uuid) (world : World) : Prop :=
  ∀ caller changes, (caller, changes) ∈ world.made →
    (∀ actor, caller = some actor → actor ∉ members) →
      ∀ grant ∈ changes.granted, grant.principal.uuid ∉ members

/-- What the members of the set have granted and hold, what the grant rows
name, and what the issue of a key has checked. -/
structure Confined (deployment : Deployment Condition) (org : Uuid)
    (members : Set Uuid) (world : World) : Prop where
  granted : ∀ actor ∈ members, ∀ changes, (some actor, changes) ∈ world.made →
    ∀ grant ∈ changes.granted, Encloses world.base.db org grant.scope ∧
      ScopeAllowed grant.roleKey grant.scope
  held : ∀ grant ∈ world.base.db.grants, grant.principal.uuid ∈ members →
    Encloses world.base.db org grant.scope
  named : ∀ grant ∈ world.base.db.grants,
    world.base.db.Names [] (targetOf grant)
  issued : ∀ call request held,
    world.issues call = some (.issued request held) →
      Vouched deployment world.past request held

end World

end Statement

section Authority

variable {Condition : Type} {deployment : Deployment Condition}
  {org : Uuid} {members : Set Uuid}

theorem Inside.keep {db next : Db} {scope : GrantScope}
    (inside : Inside db org scope) (keeps : db.Keeps next) :
    Inside next org scope := by
  cases scope with
  | root => exact inside
  | node target => exact Db.Under.keep inside keeps

theorem Inside.encloses {db : Db} {scope : GrantScope}
    (inside : Inside db org scope) (nested : db.Nested) :
    Encloses db org scope := by
  cases scope with
  | root => exact inside
  | node target => exact Db.Under.beneath nested inside

theorem scopeEntityUid_node (target : TenancyNodeRef) :
    scopeEntityUid (.node target) = nodeUid (nodeKeyOf target) :=
  toCedarUid_node target

/-- An allowed request of a member is about a node of the subtree, when every
grant of a member is, in all states that the decision rests on. -/
theorem under_of_check {db : Db} {past : List Db} {evidence : Evidence}
    {actor : Uuid} {action : Core.Action} {resource : Prn}
    (spells : SpellsStarters deployment.language.frontend)
    (nested : db.Nested) (unique : (db.nodes.map NodeRow.key).Nodup)
    (keeps : ∀ old ∈ past, old.Keeps db)
    (held : ∀ old ∈ past, ∀ grant ∈ old.grants,
      grant.principal.uuid ∈ members → Inside db org grant.scope)
    (fromPast : evidence.From past) (isMember : actor ∈ members)
    (allowed : deployment.check evidence actor action resource = true) :
    ∃ node, TenancyNodeRef.fromPrn resource = some node ∧
      db.Under org (nodeKeyOf node) := by
  unfold Deployment.check at allowed
  split at allowed
  · rename_i decision decided
    unfold Deployment.isAuthorized at decided
    split at decided
    · cases decided
    · rename_i set compiled
      split at decided
      · rename_i slice loaded
        cases decided
        obtain ⟨grant, isGrant, samePrincipal, below⟩ := grant_of_decide
          spells compiled (of_decide_eq_true allowed)
        have granted : grant.principal.uuid ∈ members := by
          have same : grant.principal.uuid = actor :=
            resourceId_of_uid samePrincipal
          rw [same]
          exact isMember
        have inside := held _ fromPast.snapshot grant isGrant granted
        cases isScope : grant.scope with
        | root =>
            rw [isScope] at inside
            exact inside.elim
        | node target =>
            rw [isScope] at inside below
            rw [scopeEntityUid_node] at below
            rcases below_of_load loaded below with
              isRoot | ⟨node, row, isNode, found, key, above, sameUid⟩
            · exact absurd isRoot (nodeUid_ne_root _)
            · refine ⟨node, isNode, ?_⟩
              obtain ⟨stored, isKey⟩ := Db.find_some found
              obtain ⟨kept, keptMember, keptKey, keptPlace⟩ :=
                (keeps _ (fromPast.reads 0)).key stored
              have under : db.Under org key := by
                rw [← nodeUid_injective sameUid]
                exact inside
              rw [← isKey, ← keptKey]
              rw [← keptKey, ← keptPlace] at above
              rcases List.mem_cons.mp above with rfl | higher
              · exact under
              · exact nested.under unique keptMember higher under
      · cases decided
        cases allowed
      · cases decided
  · cases allowed

theorem fromPrn_root : TenancyNodeRef.fromPrn rootPrn = none := by
  decide

/-- The scope of an allowed grant call of a member is in the subtree. -/
theorem inside_of_scope {db : Db} {scope : GrantScope}
    (found : ∃ node, TenancyNodeRef.fromPrn (scopeResourcePrn scope) =
      some node ∧ db.Under org (nodeKeyOf node)) : Inside db org scope := by
  obtain ⟨node, isNode, under⟩ := found
  cases scope with
  | root =>
      rw [scopeResourcePrn, fromPrn_root] at isNode
      cases isNode
  | node target =>
      have samePrn := TenancyNodeRef.prn_fromPrn isNode
      have sameKey : nodeKeyOf node = nodeKeyOf target := by
        apply nodeUid_injective
        rw [← toCedarUid_node, ← toCedarUid_node, samePrn]
        rfl
      rw [sameKey] at under
      exact under

end Authority

section Phases

variable {inside : GrantScope → Prop} {db : Db}

/-- What a call of a member may still grant. -/
def PhaseConfined (inside : GrantScope → Prop) : Tenancy.Phase → Prop
  | .grantLookup target _ _ => inside target.scope
  | .granting target _ _ => inside target.scope
  | .chain request _ => ∀ id team grant slug name,
      request.call ≠ .createOrganization id team grant slug name
  | .writing request _ => ∀ id team grant slug name,
      request.call ≠ .createOrganization id team grant slug name
  | .seedLookup _ _ _ _ => False
  | .seeding _ _ _ => False
  | .ready _ _ changes => ∀ grant ∈ changes.granted, inside grant.scope
  | _ => True

/-- The request of a member grants at most inside. -/
structure RequestConfined (inside : GrantScope → Prop)
    (request : Tenancy.Request) : Prop where
  grants : ∀ target id, request.call = .grant target id → inside target.scope
  notOrganization : ∀ id team grant slug name,
    request.call ≠ .createOrganization id team grant slug name
  notSeed : ∀ principal id issuer,
    request.call ≠ .seedAdmin principal id issuer

theorem PhaseConfined.mono {wider : GrantScope → Prop} {phase : Tenancy.Phase}
    (confined : PhaseConfined inside phase)
    (implied : ∀ scope, inside scope → wider scope) :
    PhaseConfined wider phase := by
  cases phase with
  | grantLookup target id stamp => exact implied _ confined
  | granting target id stamp => exact implied _ confined
  | ready request seen changes =>
      intro grant member
      exact implied _ (confined grant member)
  | chain request seen => exact confined
  | writing request seen => exact confined
  | seedLookup principal id issuer stamp => exact confined
  | seeding grant issuer stamp => exact confined
  | _ => trivial

theorem phaseConfined_of_opens {request : Tenancy.Request}
    {phase : Tenancy.Phase} (opened : request.Opens db phase)
    (confined : RequestConfined inside request) :
    PhaseConfined inside phase := by
  cases opened with
  | chain => exact confined.notOrganization
  | grant isCall isRole kindAllowed scopeResolved principalResolved =>
      exact confined.grants _ _ isCall
  | seed isCall => exact absurd isCall (confined.notSeed _ _ _)
  | _ => trivial

theorem granted_of_written {request : Tenancy.Request} {seen : List NodeRow}
    {changes : Changes} (written : Written request seen changes)
    (notOrganization : ∀ id team grant slug name,
      request.call ≠ .createOrganization id team grant slug name) :
    changes.granted = [] := by
  cases written with
  | organization seen isCall => exact absurd isCall (notOrganization _ _ _ _ _)
  | team isCall active => rfl
  | project isCall active => rfl
  | renamed isCall result =>
      unfold mutation
      split <;> rfl
  | statusSet isCall =>
      unfold mutation
      split <;> rfl
  | attached isCall active => rfl

theorem phaseConfined_of_leads {phase reached : Tenancy.Phase}
    (leads : phase.Leads db reached)
    (confined : PhaseConfined inside phase) :
    PhaseConfined inside reached := by
  cases leads with
  | chain => exact confined
  | write => exact confined
  | written computed accepted =>
      intro grant member
      rw [granted_of_written (Request.written computed) confined] at member
      cases member
  | deleted =>
      intro grant member
      cases member
  | missing => exact confined
  | granted accepted =>
      intro grant member
      rw [List.mem_singleton.mp member]
      exact confined
  | revoked =>
      intro grant member
      cases member
  | absent => exact confined.elim
  | seeded accepted => exact confined.elim
  | _ => trivial

end Phases

section Run

variable {Condition : Type} {deployment : Deployment Condition}
  {org : Uuid} {members : Set Uuid}

def IssueJustified (deployment : Deployment Condition) (past : List Db) :
    IssuePhase → Prop
  | .listing _ => True
  | .checking request held todo => ∃ checked, held = checked ++ todo ∧
      Vouched deployment past request checked
  | .issued request held => Vouched deployment past request held
  | .refused => True

theorem Allowed.mono {past later : List Db} {actor : Uuid}
    {action : Core.Action} {resource : Prn}
    (allowed : Allowed deployment past actor action resource)
    (more : ∀ db ∈ past, db ∈ later) :
    Allowed deployment later actor action resource := by
  obtain ⟨evidence, fromPast, isAllowed⟩ := allowed
  exact ⟨evidence, ⟨more _ fromPast.snapshot,
    fun index => more _ (fromPast.reads index)⟩, isAllowed⟩

theorem Vouched.mono {past later : List Db} {request : IssueRequest}
    {checked : List RoleGrant}
    (vouched : Vouched deployment past request checked)
    (more : ∀ db ∈ past, db ∈ later) :
    Vouched deployment later request checked :=
  fun grant isChecked => (vouched grant isChecked).mono more

theorem IssueJustified.mono {past later : List Db} {phase : IssuePhase}
    (justified : IssueJustified deployment past phase)
    (more : ∀ db ∈ past, db ∈ later) :
    IssueJustified deployment later phase := by
  cases phase with
  | listing request => trivial
  | checking request held todo =>
      obtain ⟨checked, isHeld, vouched⟩ := justified
      exact ⟨checked, isHeld, vouched.mono more⟩
  | issued request held => exact Vouched.mono justified more
  | refused => trivial

namespace World

variable {world next : World} {base : Tenancy.World}

/-- The invariant of a run. -/
structure Invariant (deployment : Deployment Condition) (org : Uuid)
    (members : Set Uuid) (world : World) : Prop where
  reachable : Reachable Tenancy.World.step .initial world.base
  current : world.base.db ∈ world.past
  keeps : ∀ db ∈ world.past, db.Keeps world.base.db
  held : ∀ db ∈ world.past, ∀ grant ∈ db.grants,
    grant.principal.uuid ∈ members → Inside world.base.db org grant.scope
  phases : ∀ txn phase, world.base.txns txn = some phase →
    ∀ actor ∈ members, world.callers txn = some actor →
      PhaseConfined (Inside world.base.db org) phase
  made : ∀ actor ∈ members, ∀ changes, (some actor, changes) ∈ world.made →
    ∀ grant ∈ changes.granted, Inside world.base.db org grant.scope ∧
      ScopeAllowed grant.roleKey grant.scope
  issues : ∀ call phase, world.issues call = some phase →
    IssueJustified deployment world.past phase

theorem stateAt_mem (invariant : world.Invariant deployment org members)
    (index : Nat) : world.stateAt index ∈ world.past := by
  unfold stateAt
  cases found : world.past[index]? with
  | none => exact invariant.current
  | some db => exact List.mem_of_getElem? found

theorem evidence_from (invariant : world.Invariant deployment org members)
    (sources : Sources) : (world.evidence sources).From world.past :=
  ⟨stateAt_mem invariant _, fun _ => stateAt_mem invariant _⟩

theorem Invariant.confined
    (invariant : world.Invariant deployment org members) :
    world.Confined deployment org members := by
  have nested := Tenancy.World.reachable_nested invariant.reachable
  refine ⟨?_, ?_, ?_, ?_⟩
  · intro actor isMember changes made grant member
    obtain ⟨inside, allowed⟩ :=
      invariant.made actor isMember changes made grant member
    exact ⟨inside.encloses nested, allowed⟩
  · intro grant member granted
    exact (invariant.held _ invariant.current grant member granted).encloses
      nested
  · exact (Tenancy.World.reachable_named invariant.reachable).rows
  · intro call request held isIssued
    exact invariant.issues call _ isIssued

/-- A decision in favour of a member is about a node of the subtree. -/
theorem Invariant.under (invariant : world.Invariant deployment org members)
    (spells : SpellsStarters deployment.language.frontend)
    {sources : Sources} {actor : Uuid} {action : Core.Action}
    {resource : Prn} (isMember : actor ∈ members)
    (allowed : deployment.check (world.evidence sources) actor action
      resource = true) :
    ∃ node, TenancyNodeRef.fromPrn resource = some node ∧
      world.base.db.Under org (nodeKeyOf node) :=
  under_of_check spells
    (Tenancy.World.reachable_nested invariant.reachable)
    (Tenancy.World.reachable_sound invariant.reachable).consistent.uniqueNodes
    invariant.keeps invariant.held (evidence_from invariant sources) isMember
    allowed

theorem Invariant.moveIssue
    (invariant : world.Invariant deployment org members) (call : Nat)
    {phase : IssuePhase} (justified : IssueJustified deployment world.past phase) :
    (world.moveIssue call phase).Invariant deployment org members := by
  refine ⟨invariant.reachable, invariant.current, invariant.keeps,
    invariant.held, invariant.phases, invariant.made, ?_⟩
  intro other found current
  simp only [World.moveIssue, Function.update_apply] at current
  split at current
  · cases current
    exact justified
  · exact invariant.issues other found current

/-- The commits of one step of the tenancy transactions. -/
theorem commits_drop {action : Tenancy.Action}
    (stepped : world.base.step action = some base) :
    (base.commits.drop world.base.commits.length = [] ∧
      base.db.grants = world.base.db.grants) ∨
    ∃ txn request seen changes,
      world.base.txns txn = some (.ready request seen changes) ∧
      base.commits.drop world.base.commits.length = [(txn, changes)] ∧
      base.db = world.base.db.apply changes := by
  cases Tenancy.World.step_cases stepped with
  | registers => exact .inl ⟨List.drop_length, rfl⟩
  | opens unused opened moves =>
      rw [moves.commits, moves.db]
      exact .inl ⟨List.drop_length, rfl⟩
  | leads current isOpen leads moves =>
      rw [moves.commits, moves.db]
      exact .inl ⟨List.drop_length, rfl⟩
  | commits current =>
      exact .inr ⟨_, _, _, _, current, List.drop_left, rfl⟩
  | answers current => exact .inl ⟨List.drop_length, rfl⟩
  | fails current notDone moves =>
      rw [moves.commits, moves.db]
      exact .inl ⟨List.drop_length, rfl⟩

/-- The phases of a member's calls after one step of the transactions. -/
theorem phases_step {action : Tenancy.Action}
    (invariant : world.Invariant deployment org members)
    (stepped : world.base.step action = some base)
    {callers : Nat → Option Uuid}
    (same : ∀ txn phase, world.base.txns txn = some phase →
      callers txn = world.callers txn)
    (opening : ∀ txn request, action = .start txn request →
      ∀ actor ∈ members, callers txn = some actor →
        RequestConfined (Inside world.base.db org) request) :
    ∀ txn phase, base.txns txn = some phase → ∀ actor ∈ members,
      callers txn = some actor →
        PhaseConfined (Inside base.db org) phase := by
  have keeps := Tenancy.World.step_keeps
    (Tenancy.World.reachable_sound invariant.reachable) stepped
  have kept : ∀ txn phase, world.base.txns txn = some phase →
      ∀ actor ∈ members, callers txn = some actor →
        PhaseConfined (Inside base.db org) phase := by
    intro txn phase current actor isMember isCaller
    rw [same txn phase current] at isCaller
    exact (invariant.phases txn phase current actor isMember isCaller).mono
      fun scope inside => inside.keep keeps
  intro txn phase current actor isMember isCaller
  cases Tenancy.World.step_cases stepped with
  | registers => exact kept txn phase current actor isMember isCaller
  | opens unused opened moves =>
      rcases moves.cases_phase current with ⟨rfl, rfl⟩ | unchanged
      · exact (phaseConfined_of_opens opened
          (opening _ _ rfl actor isMember isCaller)).mono
          fun scope inside => inside.keep keeps
      · exact kept txn phase unchanged actor isMember isCaller
  | leads before isOpen leads moves =>
      rcases moves.cases_phase current with ⟨rfl, rfl⟩ | unchanged
      · rw [same _ _ before] at isCaller
        exact (phaseConfined_of_leads leads
          (invariant.phases _ _ before actor isMember isCaller)).mono
          fun scope inside => inside.keep keeps
      · exact kept txn phase unchanged actor isMember isCaller
  | commits before =>
      rcases Tenancy.World.moves_moveTo.cases_phase current with
        ⟨_, rfl⟩ | unchanged
      · unfold Tenancy.World.answer
        split <;> trivial
      · exact kept txn phase unchanged actor isMember isCaller
  | answers before =>
      rcases Tenancy.World.moves_moveTo.cases_phase current with
        ⟨_, rfl⟩ | unchanged
      · trivial
      · exact kept txn phase unchanged actor isMember isCaller
  | fails before notDone moves =>
      rcases moves.cases_phase current with ⟨_, rfl⟩ | unchanged
      · trivial
      · exact kept txn phase unchanged actor isMember isCaller

theorem Invariant.baseStep {action : Tenancy.Action}
    (invariant : world.Invariant deployment org members)
    (stepped : world.base.step action = some base)
    {callers : Nat → Option Uuid}
    (same : ∀ txn phase, world.base.txns txn = some phase →
      callers txn = world.callers txn)
    (opening : ∀ txn request, action = .start txn request →
      ∀ actor ∈ members, callers txn = some actor →
        RequestConfined (Inside world.base.db org) request)
    (alone : (world.withBase base).NoOutsideGrants members) :
    Invariant deployment org members
      { world.withBase base with callers } := by
  have sound := Tenancy.World.reachable_sound invariant.reachable
  have named := Tenancy.World.reachable_named invariant.reachable
  have keeps := Tenancy.World.step_keeps sound stepped
  have more : ∀ db ∈ world.past, db ∈ world.past ++ [base.db] :=
    fun db member => List.mem_append_left _ member
  -- What a commit of the step grants lies inside, if a member has made it.
  have committed : ∀ txn request seen changes,
      world.base.txns txn = some (.ready request seen changes) →
      ∀ actor ∈ members, world.callers txn = some actor →
        ∀ grant ∈ changes.granted, Inside base.db org grant.scope ∧
          ScopeAllowed grant.roleKey grant.scope := by
    intro txn request seen changes current actor isMember isCaller grant member
    have confined :=
      invariant.phases txn _ current actor isMember isCaller grant member
    exact ⟨confined.keep keeps,
      (named.phases txn _ current grant member).allowed⟩
  refine ⟨?_, List.mem_append_right _ (List.mem_singleton.mpr rfl), ?_, ?_,
    phases_step invariant stepped same opening, ?_, ?_⟩
  · obtain ⟨actions, run⟩ := invariant.reachable
    exact ⟨actions ++ [action], runFrom_append.mpr ⟨_, run, by
      simp [runFrom, stepped, withBase]⟩⟩
  · intro db member
    rcases List.mem_append.mp member with old | isCurrent
    · exact (invariant.keeps db old).trans keeps
    · rw [List.mem_singleton.mp isCurrent]
      exact .refl _
  · intro db member grant isGrant granted
    rcases List.mem_append.mp member with old | isCurrent
    · exact (invariant.held db old grant isGrant granted).keep keeps
    · rw [List.mem_singleton.mp isCurrent] at isGrant
      have oldInside : grant ∈ world.base.db.grants →
          Inside base.db org grant.scope := fun stored =>
        (invariant.held _ invariant.current grant stored granted).keep keeps
      rcases commits_drop stepped with
        ⟨_, sameGrants⟩ | ⟨txn, request, seen, changes, current, made, isDb⟩
      · rw [sameGrants] at isGrant
        exact oldInside isGrant
      · rw [isDb] at isGrant
        rcases List.mem_append.mp isGrant with stored | new
        · exact oldInside (List.mem_of_mem_filter stored)
        · by_cases outside :
              ∀ actor, world.callers txn = some actor → actor ∉ members
          · exfalso
            apply alone (world.callers txn) changes _ outside grant new granted
            simp [withBase, made]
          · obtain ⟨actor, isCaller, isMember⟩ :=
              Classical.not_forall.mp outside |>.imp fun actor notOutside =>
                Classical.not_imp.mp notOutside
            exact (committed txn request seen changes current actor
              (not_not.mp isMember) isCaller grant new).1
  · intro actor isMember changes isMade grant member
    rcases List.mem_append.mp isMade with old | new
    · obtain ⟨inside, allowed⟩ :=
        invariant.made actor isMember changes old grant member
      exact ⟨inside.keep keeps, allowed⟩
    · rcases commits_drop stepped with
        ⟨none, _⟩ | ⟨txn, request, seen, found, current, made, _⟩
      · rw [none] at new
        cases new
      · rw [made, List.map_singleton, List.mem_singleton] at new
        obtain ⟨isCaller, isChanges⟩ := Prod.mk.inj new
        rw [isChanges] at member
        exact committed txn request seen found current actor isMember
          isCaller.symm grant member
  · intro call phase current
    exact (invariant.issues call phase current).mono more

theorem Invariant.startCall {txn : Nat} {request : Tenancy.Request}
    {caller : Option Uuid}
    (invariant : world.Invariant deployment org members)
    (opened : world.startCall txn request caller = some next)
    (confined : ∀ actor ∈ members, caller = some actor →
      RequestConfined (Inside world.base.db org) request)
    (alone : next.NoOutsideGrants members) :
    next.Invariant deployment org members := by
  obtain ⟨base, stepped, rfl⟩ := Option.map_eq_some_iff.mp opened
  apply invariant.baseStep stepped _ _ alone
  · intro other phase current
    rw [Function.update_apply, if_neg]
    rintro rfl
    rw [Tenancy.World.step, current] at stepped
    cases stepped
  · intro other found isStart actor isMember isCaller
    cases isStart
    rw [Function.update_self] at isCaller
    exact confined actor isMember isCaller

theorem startGrant_invariant {txn : Nat} {input : GrantInput} {id : Uuid}
    {stamp : Stamp} {sources : Sources}
    (spells : SpellsStarters deployment.language.frontend)
    (invariant : world.Invariant deployment org members)
    (started : startGrant deployment world txn input id stamp sources =
      some next) (alone : next.NoOutsideGrants members) :
    next.Invariant deployment org members := by
  unfold startGrant at started
  split at started
  · split at started
    · rename_i allowed
      apply invariant.startCall started _ alone
      intro actor isMember isCaller
      cases isCaller
      refine ⟨?_, by simp, by simp⟩
      intro target grantId isCall
      cases isCall
      exact inside_of_scope (invariant.under spells isMember allowed)
    · cases started
      exact invariant
  · cases started
    exact invariant

theorem startRevoke_invariant {txn : Nat} {id : Uuid} {stamp : Stamp}
    {sources : Sources} (invariant : world.Invariant deployment org members)
    (started : startRevoke deployment world txn id stamp sources = some next)
    (alone : next.NoOutsideGrants members) :
    next.Invariant deployment org members := by
  unfold startRevoke at started
  split at started
  · cases started
    exact invariant
  · split at started
    · apply invariant.startCall started _ alone
      intro actor isMember isCaller
      exact ⟨by simp, by simp, by simp⟩
    · cases started
      exact invariant

/-- A member cannot create an organization: no grant of a member is above the
root. -/
theorem startTenancy_invariant {txn : Nat} {request : Tenancy.Request}
    {sources : Sources} (spells : SpellsStarters deployment.language.frontend)
    (enforced : deployment.enforceTenancy = true)
    (invariant : world.Invariant deployment org members)
    (started : startTenancy deployment world txn request sources = some next)
    (alone : next.NoOutsideGrants members) :
    next.Invariant deployment org members := by
  unfold startTenancy at started
  split at started
  · cases started
  · cases started
  · apply invariant.startCall started _ alone
    intro actor isMember isCaller
    cases isCaller
  · split at started
    · cases started
      exact invariant
    · rename_i notRefused
      apply invariant.startCall started _ alone
      intro actor isMember isCaller
      cases isCaller
      rw [enforced, Bool.true_and, Bool.not_eq_true', Bool.not_eq_false]
        at notRefused
      obtain ⟨node, isNode, _⟩ := invariant.under spells isMember notRefused
      rw [fromPrn_root] at isNode
      cases isNode
  · rename_i notGrant notRevoke notSeed notOrganization
    apply invariant.startCall started _ alone
    intro actor isMember isCaller
    exact ⟨fun target id isCall => absurd isCall (notGrant target id),
      notOrganization, notSeed⟩

theorem advanceIssue_invariant {call : Nat} {sources : Sources}
    {phase : IssuePhase}
    (invariant : world.Invariant deployment org members)
    (current : world.issues call = some phase)
    (advanced : advanceIssue deployment world call sources phase =
      some next) : next.Invariant deployment org members := by
  have justified := invariant.issues call phase current
  cases phase with
  | listing request =>
      cases advanced
      apply invariant.moveIssue
      refine ⟨[], rfl, ?_⟩
      intro grant member
      cases member
  | checking request held todo =>
      obtain ⟨checked, isHeld, allowed⟩ := justified
      cases todo with
      | nil =>
          simp only [World.advanceIssue] at advanced
          split at advanced
          · cases advanced
            exact invariant.moveIssue call trivial
          · split at advanced
            · cases advanced
              apply invariant.moveIssue
              rw [List.append_nil] at isHeld
              rw [IssueJustified, isHeld]
              exact allowed
            · cases advanced
              exact invariant.moveIssue call trivial
      | cons grant rest =>
          simp only [World.advanceIssue] at advanced
          split at advanced
          · rename_i isAllowed
            cases advanced
            apply invariant.moveIssue
            refine ⟨checked ++ [grant], by simp [isHeld], ?_⟩
            intro other member
            rcases List.mem_append.mp member with before | isGrant
            · exact allowed other before
            · rw [List.mem_singleton.mp isGrant]
              exact ⟨_, evidence_from invariant sources, isAllowed⟩
          · cases advanced
            exact invariant.moveIssue call trivial
  | issued request held => cases advanced
  | refused => cases advanced

theorem step_invariant {action : Action}
    (spells : SpellsStarters deployment.language.frontend)
    (enforced : deployment.enforceTenancy = true)
    (invariant : world.Invariant deployment org members)
    (stepped : step deployment world action = some next)
    (alone : next.NoOutsideGrants members) :
    next.Invariant deployment org members := by
  cases action with
  | proceed action =>
      have notStart : ∀ txn request, action ≠ .start txn request := by
        rintro txn request rfl
        cases stepped
      have proceeded : (world.base.step action).map world.withBase =
          some next := by
        cases action with
        | start txn request => exact absurd rfl (notStart txn request)
        | _ => exact stepped
      obtain ⟨base, isBase, rfl⟩ := Option.map_eq_some_iff.mp proceeded
      apply invariant.baseStep isBase (fun _ _ _ => rfl) _ alone
      intro txn request isStart
      exact absurd isStart (notStart txn request)
  | tenancy txn request sources =>
      exact startTenancy_invariant spells enforced invariant stepped alone
  | grant txn input id stamp sources =>
      exact startGrant_invariant spells invariant stepped alone
  | revoke txn id stamp sources =>
      exact startRevoke_invariant invariant stepped alone
  | createAccount account =>
      obtain ⟨base, isBase, rfl⟩ := Option.map_eq_some_iff.mp stepped
      have kept := invariant.baseStep isBase (fun _ _ _ => rfl)
        (fun txn request isStart => by cases isStart) alone
      exact ⟨kept.reachable, kept.current, kept.keeps, kept.held, kept.phases,
        kept.made, kept.issues⟩
  | issue call request sources =>
      simp only [step] at stepped
      split at stepped
      · cases stepped
        unfold startIssue
        split
        · exact invariant.moveIssue call trivial
        · split
          · exact invariant.moveIssue call trivial
          · exact invariant.moveIssue call trivial
      · cases stepped
  | advanceIssue call sources =>
      simp only [step] at stepped
      split at stepped
      · cases stepped
      · rename_i phase current
        exact advanceIssue_invariant invariant current stepped

/-- The record of commits only grows. -/
theorem step_made {action : Action}
    (stepped : step deployment world action = some next) :
    ∀ commit ∈ world.made, commit ∈ next.made := by
  have started : ∀ txn request caller,
      world.startCall txn request caller = some next →
      ∀ commit ∈ world.made, commit ∈ next.made := by
    intro txn request caller isStarted commit member
    obtain ⟨base, _, rfl⟩ := Option.map_eq_some_iff.mp isStarted
    exact List.mem_append_left _ member
  have unchanged : some world = some next →
      ∀ commit ∈ world.made, commit ∈ next.made := by
    rintro ⟨⟩ commit member
    exact member
  have issued : ∀ call phase, some (world.moveIssue call phase) = some next →
      ∀ commit ∈ world.made, commit ∈ next.made := by
    rintro call phase ⟨⟩ commit member
    exact member
  cases action with
  | proceed action =>
      intro commit member
      cases action with
      | start txn request => cases stepped
      | _ =>
          obtain ⟨base, _, rfl⟩ := Option.map_eq_some_iff.mp stepped
          exact List.mem_append_left _ member
  | tenancy txn request sources =>
      simp only [step, startTenancy] at stepped
      split at stepped
      · cases stepped
      · cases stepped
      · exact started _ _ _ stepped
      · split at stepped
        · exact unchanged stepped
        · exact started _ _ _ stepped
      · exact started _ _ _ stepped
  | grant txn input id stamp sources =>
      simp only [step, startGrant] at stepped
      split at stepped
      · split at stepped
        · exact started _ _ _ stepped
        · exact unchanged stepped
      · exact unchanged stepped
  | revoke txn id stamp sources =>
      simp only [step, startRevoke] at stepped
      split at stepped
      · exact unchanged stepped
      · split at stepped
        · exact started _ _ _ stepped
        · exact unchanged stepped
  | createAccount account =>
      intro commit member
      obtain ⟨base, _, rfl⟩ := Option.map_eq_some_iff.mp stepped
      exact List.mem_append_left _ member
  | issue call request sources =>
      simp only [step, startIssue] at stepped
      split at stepped
      · split at stepped
        · exact issued _ _ stepped
        · split at stepped
          · exact issued _ _ stepped
          · exact issued _ _ stepped
      · cases stepped
  | advanceIssue call sources =>
      simp only [step] at stepped
      split at stepped
      · cases stepped
      · rename_i phase _
        unfold advanceIssue at stepped
        split at stepped
        · exact issued _ _ stepped
        · split at stepped
          · exact issued _ _ stepped
          · exact issued _ _ stepped
        · split at stepped
          · exact issued _ _ stepped
          · split at stepped
            · exact issued _ _ stepped
            · exact issued _ _ stepped
        · cases stepped

theorem invariant_start {base : Tenancy.World} {accounts : List ServiceAccount}
    (reachable : Reachable Tenancy.World.step .initial base)
    (inside : ∀ grant ∈ base.db.grants, grant.principal.uuid ∈ members →
      Encloses base.db org grant.scope) :
    (start base accounts).Invariant deployment org members := by
  have nested := Tenancy.World.reachable_nested reachable
  have unique :=
    (Tenancy.World.reachable_sound reachable).consistent.uniqueNodes
  refine ⟨reachable, List.mem_singleton.mpr rfl, ?_, ?_, ?_, ?_, ?_⟩
  · intro db member
    rw [List.mem_singleton.mp member]
    exact .refl _
  · intro db member grant isGrant granted
    rw [List.mem_singleton.mp member] at isGrant
    have enclosed := inside grant isGrant granted
    cases isScope : grant.scope with
    | root =>
        rw [isScope] at enclosed
        exact enclosed
    | node target =>
        rw [isScope] at enclosed
        exact Db.Beneath.under nested unique enclosed
  · intro txn phase current actor isMember isCaller
    cases isCaller
  · intro actor isMember changes isMade
    cases isMade
  · intro call phase current
    cases current

/-- The request of a call that has read the grants of its account, and these. -/
def heldIn : IssuePhase → Option (IssueRequest × List RoleGrant)
  | .checking request held _ => some (request, held)
  | .issued request held => some (request, held)
  | .listing _ => none
  | .refused => none

/-- Only its read of the grants tells a call what its account holds. -/
theorem advanceIssue_held {call : Nat} {sources : Sources} {phase : IssuePhase}
    (advanced : advanceIssue deployment world call sources phase = some next) :
    ∃ reached, next = world.moveIssue call reached ∧
      (heldIn reached = none ∨ heldIn reached = heldIn phase ∨
        ∃ request, phase = .listing request ∧ heldIn reached =
          some (request, grantsOf world.base.db request.account)) := by
  cases phase with
  | listing request =>
      cases advanced
      exact ⟨_, rfl, .inr (.inr ⟨request, rfl, rfl⟩)⟩
  | checking request held todo =>
      cases todo with
      | nil =>
          simp only [advanceIssue] at advanced
          split at advanced
          · cases advanced
            exact ⟨_, rfl, .inl rfl⟩
          · split at advanced
            · cases advanced
              exact ⟨_, rfl, .inr (.inl rfl)⟩
            · cases advanced
              exact ⟨_, rfl, .inl rfl⟩
      | cons grant rest =>
          simp only [advanceIssue] at advanced
          split at advanced
          · cases advanced
            exact ⟨_, rfl, .inr (.inl rfl)⟩
          · cases advanced
            exact ⟨_, rfl, .inl rfl⟩
  | issued request held => cases advanced
  | refused => cases advanced

/-- The phases of the issue calls change by these calls alone. -/
theorem step_issues {action : Action}
    (stepped : step deployment world action = some next) :
    next.issues = world.issues ∨
      (∃ call reached, next = world.moveIssue call reached ∧
        heldIn reached = none) ∨
      ∃ call sources phase, action = .advanceIssue call sources ∧
        world.issues call = some phase ∧
          advanceIssue deployment world call sources phase = some next := by
  have started : ∀ txn request caller,
      world.startCall txn request caller = some next →
        next.issues = world.issues := by
    intro txn request caller isStarted
    obtain ⟨base, _, rfl⟩ := Option.map_eq_some_iff.mp isStarted
    rfl
  have unchanged : some world = some next → next.issues = world.issues := by
    rintro ⟨⟩
    rfl
  cases action with
  | proceed action =>
      refine .inl ?_
      cases action with
      | start txn request => cases stepped
      | _ =>
          obtain ⟨base, _, rfl⟩ := Option.map_eq_some_iff.mp stepped
          rfl
  | tenancy txn request sources =>
      refine .inl ?_
      simp only [step, startTenancy] at stepped
      split at stepped
      · cases stepped
      · cases stepped
      · exact started _ _ _ stepped
      · split at stepped
        · exact unchanged stepped
        · exact started _ _ _ stepped
      · exact started _ _ _ stepped
  | grant txn input id stamp sources =>
      refine .inl ?_
      simp only [step, startGrant] at stepped
      split at stepped
      · split at stepped
        · exact started _ _ _ stepped
        · exact unchanged stepped
      · exact unchanged stepped
  | revoke txn id stamp sources =>
      refine .inl ?_
      simp only [step, startRevoke] at stepped
      split at stepped
      · exact unchanged stepped
      · split at stepped
        · exact started _ _ _ stepped
        · exact unchanged stepped
  | createAccount account =>
      obtain ⟨base, _, rfl⟩ := Option.map_eq_some_iff.mp stepped
      exact .inl rfl
  | issue call request sources =>
      refine .inr (.inl ?_)
      simp only [step, startIssue] at stepped
      split at stepped
      · split at stepped
        · cases stepped
          exact ⟨_, _, rfl, rfl⟩
        · split at stepped
          · cases stepped
            exact ⟨_, _, rfl, rfl⟩
          · cases stepped
            exact ⟨_, _, rfl, rfl⟩
      · cases stepped
  | advanceIssue call sources =>
      simp only [step] at stepped
      split at stepped
      · cases stepped
      · rename_i phase current
        exact .inr (.inr ⟨call, sources, phase, rfl, current, stepped⟩)

theorem ListedAt.later {first : World} {actions : List Action} {call : Nat}
    {request : IssueRequest} {held : List RoleGrant}
    (listed : ListedAt deployment first actions call request held)
    (action : Action) :
    ListedAt deployment first (actions ++ [action]) call request held := by
  obtain ⟨earlier, sources, later, reading, rfl, before, current, isHeld⟩ :=
    listed
  exact ⟨earlier, sources, later ++ [action], reading, by simp, before, current,
    isHeld⟩

/-- What the issue calls hold was held when they read it. -/
def AllListed (deployment : Deployment Condition) (first : World)
    (actions : List Action) (world : World) : Prop :=
  ∀ call phase request held, world.issues call = some phase →
    heldIn phase = some (request, held) →
      ListedAt deployment first actions call request held

theorem run_listed {first final : World} {actions : List Action}
    (none : ∀ call, first.issues call = none)
    (run : runFrom (step deployment) first actions = some final) :
    AllListed deployment first actions final := by
  apply runFrom_history _ _ run
  · intro earlier world action next before holds stepped call phase request held
      current isHeld
    have moved : ∀ moving reached, next = world.moveIssue moving reached →
        (call ≠ moving ∧ world.issues call = some phase) ∨
          (call = moving ∧ phase = reached) := by
      rintro moving reached rfl
      simp only [World.moveIssue, Function.update_apply] at current
      split at current
      · rename_i same
        exact .inr ⟨same, (Option.some.inj current).symm⟩
      · rename_i different
        exact .inl ⟨different, current⟩
    rcases step_issues stepped with same | ⟨moving, reached, isNext, isNone⟩ |
      ⟨moving, sources, reading, rfl, isReading, advanced⟩
    · rw [same] at current
      exact (holds call phase request held current isHeld).later action
    · rcases moved moving reached isNext with ⟨_, before⟩ | ⟨_, rfl⟩
      · exact (holds call phase request held before isHeld).later action
      · rw [isNone] at isHeld
        cases isHeld
    · obtain ⟨reached, isNext, origin⟩ := advanceIssue_held advanced
      rcases moved moving reached isNext with ⟨_, before⟩ | ⟨rfl, rfl⟩
      · exact (holds call phase request held before isHeld).later _
      · rcases origin with isNone | same | ⟨listing, rfl, isListed⟩
        · rw [isNone] at isHeld
          cases isHeld
        · rw [same] at isHeld
          exact (holds call _ request held isReading isHeld).later _
        · rw [isListed] at isHeld
          cases isHeld
          exact ⟨earlier, sources, [], world, rfl, before, isReading, rfl⟩
  · intro call phase request held current
    rw [none call] at current
    cases current

/-- Delegation is confined: in every state of every run that begins with the
grants of the members inside the subtree, as long as nobody else grants
anything to a member.  The grants that an issued key rests on are those that its
account held when the call read them. -/
theorem run_confined {base : Tenancy.World} {accounts : List ServiceAccount}
    {actions : List Action} {final : World}
    (spells : SpellsStarters deployment.language.frontend)
    (enforced : deployment.enforceTenancy = true)
    (reachable : Reachable Tenancy.World.step .initial base)
    (inside : ∀ grant ∈ base.db.grants, grant.principal.uuid ∈ members →
      Encloses base.db org grant.scope)
    (run : runFrom (step deployment) (start base accounts) actions =
      some final)
    (alone : final.NoOutsideGrants members) :
    final.Confined deployment org members ∧
      ∀ call request held, final.issues call = some (.issued request held) →
        ListedAt deployment (start base accounts) actions call request
          held := by
  have invariant : final.NoOutsideGrants members →
      final.Invariant deployment org members := by
    apply runFrom_invariant _ _ run
    · intro world action next holds stepped alone
      refine step_invariant spells enforced (holds ?_) stepped alone
      intro caller changes isMade
      exact alone caller changes (step_made stepped _ isMade)
    · intro _
      exact invariant_start reachable inside
  refine ⟨(invariant alone).confined, ?_⟩
  intro call request held isIssued
  exact run_listed (fun _ => rfl) run call _ request held isIssued rfl

section SampleRuns

/-- What the compiled policies allow on the loaded entities is allowed. -/
theorem check_of_decide {deployment : Deployment Condition} {evidence : Evidence}
    {actor : Uuid} {action : Core.Action} {resource : Prn}
    {set : PolicySet Condition} {slice : EntitySlice}
    (compiled : compile deployment.language.frontend
      (starterPolicies deployment.seededAt) evidence.snapshot.grants = .ok set)
    (loaded : load evidence.reads resource (PrincipalId.fromUuid actor).prn =
      .ok slice)
    (allows : (Authorization.decide deployment.language set slice
      ⟨(PrincipalId.fromUuid actor).prn, action, resource, .empty⟩).effect =
        .allow) :
    deployment.check evidence actor action resource = true := by
  unfold Deployment.check Deployment.isAuthorized
  rw [compiled]
  dsimp only
  rw [loaded]
  exact decide_eq_true allows

/-- A grant call that is read and allowed opens its transaction. -/
theorem startGrant_of_check {deployment : Deployment Condition} {world : World}
    {txn : Nat} {input : GrantInput} {id : Uuid} {stamp : Stamp}
    {sources : Sources} {principal : PrincipalId} {scope : GrantScope}
    (reads : parsePrincipalPrn input.principalPrn = .ok principal)
    (readsScope : parseGrantScope input.scopePrn = .ok scope)
    (allowed : deployment.check (world.evidence sources) stamp.actor .grantRole
      (scopeResourcePrn scope) = true) :
    startGrant deployment world txn input id stamp sources =
      world.startCall txn ⟨.grant ⟨principal, input.roleKey, scope⟩ id, stamp⟩
        (some stamp.actor) := by
  unfold startGrant
  rw [reads, readsScope]
  exact if_pos allowed

/-- The starter texts with their own reading; the `when` clause of
`forbid-archived-writes` asks for the status of the resource. -/
def sampleLanguage : Authorization.Language String where
  frontend := Tables.starterFrontend
  conforms _ _ := true
  evaluate entities request condition :=
    if condition = Tables.archivedText then
      some (entities.any fun entity => entity.uid = request.resource &&
        entity.attributes.contains ("effective_status", .str "archived"))
    else
      none

def sampleDeployment (enforceTenancy : Bool) : Deployment String :=
  ⟨sampleLanguage, 0, enforceTenancy⟩

/-- The principal 7 has created the organization 2 with the team 3. -/
def ownedRun : List Tenancy.Action :=
  [.register 7, .register 9,
    .start 0 ⟨.createOrganization 2 3 4 "acme" "Acme",
      Tenancy.World.sampleStamp 10⟩,
    .advance 0, .advance 0, .advance 0]

def ownedWorld : Tenancy.World :=
  (runFrom Tenancy.World.step .initial ownedRun).getD .initial

theorem ownedWorld_reachable :
    Reachable Tenancy.World.step .initial ownedWorld := by
  refine ⟨ownedRun, ?_⟩
  have isSome : (runFrom Tenancy.World.step .initial ownedRun).isSome = true := by
    decide
  obtain ⟨world, isWorld⟩ := Option.isSome_iff_exists.mp isSome
  rw [ownedWorld, isWorld]
  rfl

theorem ownedWorld_inside : ∀ grant ∈ ownedWorld.db.grants,
    Encloses ownedWorld.db 2 grant.scope := by
  have grants : ownedWorld.db.grants.map RoleGrant.scope =
      [.node (.organization (OrganizationId.fromUuid 2))] := by
    decide
  intro grant member
  have isScope : grant.scope ∈
      [GrantScope.node (.organization (OrganizationId.fromUuid 2))] := by
    rw [← grants]
    exact List.mem_map_of_mem member
  rw [List.mem_singleton.mp isScope]
  exact .top

def current : Sources := ⟨0, fun _ => 0, "user", "active"⟩

/-- The owner makes the principal 9 an administrator of the team. -/
def delegation : Action :=
  .grant 1 ⟨(PrincipalId.fromUuid 9).canonical, "team_admin",
    (TeamId.fromParts 2 3).prn.canonical⟩ 5
    (Tenancy.World.sampleStamp 20) current

/-- The entities of the team 3 and of the principal 7. -/
def delegationSlice : EntitySlice :=
  [⟨rootUid, [], []⟩,
    ⟨⟨"Pgs::Iam::Team", "00000000-0000-0000-0000-000000000003"⟩,
      [⟨"Pgs::Iam::Organization", "00000000-0000-0000-0000-000000000002"⟩],
      [("effective_status", .str "active")]⟩,
    ⟨⟨"Pgs::Iam::Organization", "00000000-0000-0000-0000-000000000002"⟩,
      [rootUid], [("effective_status", .str "active")]⟩,
    ⟨⟨"Pgs::Iam::Principal", "00000000-0000-0000-0000-000000000007"⟩, [],
      [("kind", .str "user"), ("status", .str "active")]⟩]

/-- The starter policies with the link of the owner's grant. -/
def delegationSet : PolicySet String :=
  { starterSet Tables.archivedText systemRoles with
    links := [⟨"grant:00000000-0000-0000-0000-000000000004", "org_admin",
      ⟨some ⟨"Pgs::Iam::Principal", "00000000-0000-0000-0000-000000000007"⟩,
        some ⟨"Pgs::Iam::Organization",
          "00000000-0000-0000-0000-000000000002"⟩⟩⟩] }

def delegationRequest : AccessRequest :=
  ⟨(PrincipalId.fromUuid (Tenancy.World.sampleStamp 20).actor).prn,
    .grantRole, scopeResourcePrn (.node (.team (TeamId.fromParts 2 3))), .empty⟩

theorem delegation_loads :
    load ((start ownedWorld []).evidence current).reads
      delegationRequest.resource delegationRequest.principal =
        .ok delegationSlice := by
  rfl

theorem delegation_links :
    ((start ownedWorld []).evidence current).snapshot.grants.foldlM
      (linkPresent Tables.starterFrontend)
      (starterSet Tables.archivedText systemRoles) = .ok delegationSet := by
  rfl

theorem delegationRequest_cedar : delegationRequest.cedar =
    ⟨⟨"Pgs::Iam::Principal", "00000000-0000-0000-0000-000000000007"⟩,
      ⟨"Pgs::Iam::Action", "GrantRole"⟩,
      ⟨"Pgs::Iam::Team", "00000000-0000-0000-0000-000000000003"⟩, []⟩ := by
  decide

theorem delegation_response :
    Cedar.isAuthorized sampleLanguage.evaluate delegationSet delegationSlice
      delegationRequest.cedar =
        ⟨["grant:00000000-0000-0000-0000-000000000004"], [], []⟩ := by
  rw [delegationRequest_cedar]
  decide

theorem delegation_decided : Authorization.decide sampleLanguage delegationSet
    delegationSlice delegationRequest =
      ⟨.allow, ["grant:00000000-0000-0000-0000-000000000004"]⟩ := by
  unfold Authorization.decide
  rw [delegation_response]
  decide

theorem delegation_compiles : compile (sampleDeployment true).language.frontend
    (starterPolicies (sampleDeployment true).seededAt)
    ((start ownedWorld []).evidence current).snapshot.grants =
      .ok delegationSet :=
  (compile_starters starterFrontend_spells
    Tables.starterFrontend_forbids).trans delegation_links

theorem delegation_allowed : (sampleDeployment true).check
    ((start ownedWorld []).evidence current)
    (Tenancy.World.sampleStamp 20).actor .grantRole
    (scopeResourcePrn (.node (.team (TeamId.fromParts 2 3)))) = true := by
  apply check_of_decide delegation_compiles delegation_loads
  exact congrArg Decision.effect delegation_decided

/-- The run after the decision. -/
def delegated (actor : Uuid) : Option World :=
  ((start ownedWorld []).startCall 1
    ⟨.grant ⟨PrincipalId.fromUuid 9, "team_admin",
      .node (.team (TeamId.fromParts 2 3))⟩ 5,
      Tenancy.World.sampleStamp 20⟩ (some actor)).bind
    (runFrom (step (sampleDeployment true)) ·
      [.proceed (.advance 1), .proceed (.advance 1), .proceed (.advance 1)])

theorem delegation_confined : ∃ final,
    runFrom (step (sampleDeployment true)) (start ownedWorld [])
      [delegation, .proceed (.advance 1), .proceed (.advance 1),
        .proceed (.advance 1)] = some final ∧
    final.made.map Prod.fst = [some 7] ∧
    final.Confined (sampleDeployment true) 2 {7} := by
  have parsedPrincipal : parsePrincipalPrn
      (PrincipalId.fromUuid 9).canonical =
      .ok (PrincipalId.fromUuid 9) := by decide
  have parsedScope : parseGrantScope
      (TeamId.fromParts 2 3).prn.canonical =
      .ok (.node (.team (TeamId.fromParts 2 3))) := by decide
  have run : runFrom (step (sampleDeployment true)) (start ownedWorld [])
      [delegation, .proceed (.advance 1), .proceed (.advance 1),
        .proceed (.advance 1)] =
          delegated (Tenancy.World.sampleStamp 20).actor := by
    rw [runFrom, step.eq_def, delegation, delegated]
    dsimp only
    rw [startGrant_of_check parsedPrincipal parsedScope delegation_allowed]
  have made : (delegated (Tenancy.World.sampleStamp 20).actor).map
      (fun world => world.made.map Prod.fst) = some [some 7] := by
    decide
  obtain ⟨final, isFinal, callers⟩ := Option.map_eq_some_iff.mp made
  refine ⟨final, run.trans isFinal, callers,
    (run_confined starterFrontend_spells rfl ownedWorld_reachable
      (fun grant member _ => ownedWorld_inside grant member)
      (run.trans isFinal) ?_).1⟩
  intro caller changes isMade outside
  have isCaller : caller ∈ final.made.map Prod.fst :=
    List.mem_map_of_mem isMade
  rw [callers, List.mem_singleton] at isCaller
  exact absurd rfl (outside 7 isCaller)

/-- Without enforcement the owner creates a second organization and holds the
owner grant of it. -/
def creation : List Action :=
  [.tenancy 1 ⟨.createOrganization 20 21 22 "other" "Other",
      Tenancy.World.sampleStamp 20⟩ current,
    .proceed (.advance 1), .proceed (.advance 1), .proceed (.advance 1)]

theorem unenforced_not_confined : ∃ final,
    SpellsStarters (sampleDeployment false).language.frontend ∧
    Reachable Tenancy.World.step .initial ownedWorld ∧
    (∀ grant ∈ ownedWorld.db.grants,
      grant.principal.uuid ∈ ({7} : Set Uuid) →
        Encloses ownedWorld.db 2 grant.scope) ∧
    runFrom (step (sampleDeployment false)) (start ownedWorld []) creation =
      some final ∧
    final.NoOutsideGrants {7} ∧
    ¬ final.Confined (sampleDeployment false) 2 {7} := by
  have isSome : (runFrom (step (sampleDeployment false)) (start ownedWorld [])
      creation).map (fun world => (world.made.map Prod.fst,
        world.base.db.grants.map fun grant =>
          (grant.principal.uuid, grant.scope))) =
      some ([some 7],
        [(7, .node (.organization (OrganizationId.fromUuid 2))),
          (7, .node (.organization (OrganizationId.fromUuid 20)))]) := by
    decide
  obtain ⟨final, isFinal, facts⟩ := Option.map_eq_some_iff.mp isSome
  obtain ⟨callers, grants⟩ := Prod.mk.inj facts
  refine ⟨final, starterFrontend_spells, ownedWorld_reachable,
    fun grant member _ => ownedWorld_inside grant member, isFinal, ?_, ?_⟩
  · intro caller changes isMade outside
    have isCaller : caller ∈ final.made.map Prod.fst :=
      List.mem_map_of_mem isMade
    rw [callers, List.mem_singleton] at isCaller
    exact absurd rfl (outside 7 isCaller)
  · intro confined
    have isGrant : (7, GrantScope.node (.organization
        (OrganizationId.fromUuid 20))) ∈
        final.base.db.grants.map fun grant =>
          (grant.principal.uuid, grant.scope) := by
      rw [grants]
      exact List.mem_cons_of_mem _ List.mem_cons_self
    obtain ⟨grant, member, isPair⟩ := List.mem_map.mp isGrant
    obtain ⟨principal, scope⟩ := Prod.mk.inj isPair
    have enclosed := confined.held grant member (by rw [principal]; rfl)
    rw [scope] at enclosed
    exact absurd enclosed.organization (by decide)

end SampleRuns

end World

end Run

end Paigasus.Delegation
