import Paigasus.Tenancy.Hierarchy

/-!
# The names in grant rows

A grant row names its principal by the canonical name of a stored principal and
its scope by the stored name of a node, and its role may be granted at a scope
of that kind.  The strings of the caller enter a row only after the comparison
with the stored names, whichever calls run in between.
-/

namespace Paigasus.Tenancy

open Foundation Kernel Core Roles

/-- The role is known and may be granted at scopes of this kind. -/
def ScopeAllowed (roleKey : String) (scope : GrantScope) : Prop :=
  ∃ known, role roleKey = some known ∧ scope.kind ∈ known.scopeKinds

/-- The scope carries the name of a stored row, or of one of the new rows. -/
def Db.NamesScope (db : Db) (fresh : List NodeRow) : GrantScope → Prop
  | .root => True
  | .node target => ∃ row, (row ∈ db.nodes ∨ row ∈ fresh) ∧
      row.prn = target.canonical

structure Db.Names (db : Db) (fresh : List NodeRow) (target : GrantTarget) :
    Prop where
  principal : target.principal = PrincipalId.fromUuid target.principal.uuid
  known : target.principal.uuid ∈ db.principals
  scope : db.NamesScope fresh target.scope
  allowed : ScopeAllowed target.roleKey target.scope

/-- What a call knows about the grants it may still write. -/
def Phase.Names (db : Db) : Phase → Prop
  | .grantLookup target _ _ => db.Names [] target
  | .granting target _ _ => db.Names [] target
  | .seeding grant _ _ => ∃ principal, targetOf grant =
      ⟨PrincipalId.fromUuid principal, platformAdminKey, .root⟩
  | .ready _ _ changes => ∀ grant ∈ changes.granted,
      db.Names changes.inserted (targetOf grant)
  | _ => True

namespace World

structure Named (world : World) : Prop where
  rows : ∀ grant ∈ world.db.grants, world.db.Names [] (targetOf grant)
  phases : ∀ txn phase, world.txns txn = some phase → phase.Names world.db

end World

section Names

variable {db next : Db} {fresh : List NodeRow} {target : GrantTarget}

theorem Db.Keeps.prn (keeps : db.Keeps next) {row : NodeRow}
    (member : row ∈ db.nodes) : ∃ kept ∈ next.nodes, kept.prn = row.prn := by
  obtain ⟨kept, keptMember, sameId, samePlace⟩ := keeps.nodes row member
  refine ⟨kept, keptMember, ?_⟩
  rw [NodeRow.prn, NodeRow.prn, sameId, samePlace]

theorem Db.Names.keep (names : db.Names fresh target)
    (keeps : db.Keeps next) : next.Names fresh target := by
  refine ⟨names.principal, keeps.principals _ names.known, ?_, names.allowed⟩
  have scope := names.scope
  cases isScope : target.scope with
  | root => trivial
  | node node =>
      rw [isScope] at scope
      obtain ⟨row, stored | new, sameName⟩ := scope
      · obtain ⟨kept, keptMember, samePrn⟩ := keeps.prn stored
        exact ⟨kept, .inl keptMember, samePrn.trans sameName⟩
      · exact ⟨row, .inr new, sameName⟩

/-- The new rows of a commit are stored after it. -/
theorem Db.Names.commit {changes : Changes}
    (names : db.Names changes.inserted target)
    (keeps : db.Keeps (db.apply changes)) :
    (db.apply changes).Names [] target := by
  have kept := names.keep keeps
  refine ⟨kept.principal, kept.known, ?_, kept.allowed⟩
  have scope := kept.scope
  cases isScope : target.scope with
  | root => trivial
  | node node =>
      rw [isScope] at scope
      obtain ⟨row, stored | new, sameName⟩ := scope
      · exact ⟨row, .inl stored, sameName⟩
      · exact ⟨row, .inl (List.mem_append_right _ new), sameName⟩

theorem Phase.Names.keep {phase : Phase} (names : phase.Names db)
    (keeps : db.Keeps next) : phase.Names next := by
  cases phase with
  | grantLookup target id stamp => exact Db.Names.keep names keeps
  | granting target id stamp => exact Db.Names.keep names keeps
  | seeding grant issuer stamp => exact names
  | ready request seen changes =>
      intro grant member
      exact (names grant member).keep keeps
  | _ => trivial

/-- The checks of the grant service establish the names. -/
theorem names_of_resolved {known : Role}
    (isRole : role target.roleKey = some known)
    (kindAllowed : target.scope.kind ∈ known.scopeKinds)
    (scopeResolved : db.resolveScope target.scope = true)
    (principalResolved : db.resolvePrincipal target.principal = true) :
    db.Names [] target := by
  rw [Db.resolvePrincipal, Bool.and_eq_true, decide_eq_true_eq,
    decide_eq_true_eq] at principalResolved
  obtain ⟨stored, sameName⟩ := principalResolved
  refine ⟨?_, stored, ?_, known, isRole, kindAllowed⟩
  · have samePrn := Prn.canonical_injective sameName
    cases principal : target.principal with
    | mk prn =>
        rw [principal] at samePrn
        exact congrArg PrincipalId.mk samePrn
  · cases isScope : target.scope with
    | root => trivial
    | node node =>
        rw [isScope, Db.resolveScope] at scopeResolved
        cases isFound : db.find (nodeKeyOf node) with
        | none =>
            rw [isFound] at scopeResolved
            cases scopeResolved
        | some row =>
            rw [isFound] at scopeResolved
            exact ⟨row, .inl (Db.find_some isFound).1,
              by simpa using scopeResolved⟩

theorem Request.Opens.names {request : Request} {phase : Phase}
    (opened : request.Opens db phase) : phase.Names db := by
  cases opened with
  | grant isCall isRole kindAllowed scopeResolved principalResolved =>
      exact names_of_resolved isRole kindAllowed scopeResolved
        principalResolved
  | _ => trivial

theorem known_of_accepted {changes : Changes}
    (accepted : db.rejects changes = false) :
    ∀ grant ∈ changes.granted, grant.principal.uuid ∈ db.principals := by
  intro grant member
  rw [Db.rejects, Bool.or_eq_false_iff] at accepted
  have notRejected := List.any_eq_false.mp accepted.2 grant member
  rw [Bool.or_eq_true, not_or] at notRejected
  simpa using notRejected.1

/-- The owner grant of a new organization names the new row. -/
theorem names_of_written {request : Request} {seen : List NodeRow}
    {changes : Changes} (written : Written request seen changes)
    (accepted : db.rejects changes = false) :
    ∀ grant ∈ changes.granted, db.Names changes.inserted (targetOf grant) := by
  have known := known_of_accepted accepted
  intro grant member
  cases written with
  | organization seen isCall =>
      refine ⟨?_, known grant member, ?_, ?_⟩ <;>
        rw [List.mem_singleton.mp member]
      · rfl
      · exact ⟨_, .inr List.mem_cons_self, rfl⟩
      · exact ⟨_, rfl, List.mem_singleton.mpr rfl⟩
  | team isCall active => cases member
  | project isCall active => cases member
  | renamed isCall result =>
      unfold mutation at member
      split at member <;> cases member
  | statusSet isCall =>
      unfold mutation at member
      split at member <;> cases member
  | attached isCall active => cases member

theorem Phase.Leads.names {phase reached : Phase}
    (leads : phase.Leads db reached) (names : phase.Names db) :
    reached.Names db := by
  cases leads with
  | written computed accepted =>
      exact names_of_written (Request.written computed) accepted
  | deleted =>
      intro grant member
      cases member
  | missing => exact names
  | granted accepted =>
      intro grant member
      rw [List.mem_singleton.mp member]
      exact names
  | revoked =>
      intro grant member
      cases member
  | absent => exact ⟨_, rfl⟩
  | seeded accepted =>
      intro grant member
      have known := known_of_accepted accepted grant member
      rw [List.mem_singleton.mp member] at known ⊢
      obtain ⟨principal, isTarget⟩ := names
      refine ⟨?_, known, ?_, ?_⟩ <;> rw [isTarget]
      · rfl
      · trivial
      · exact ⟨_, rfl, List.mem_singleton.mpr rfl⟩
  | _ => trivial

end Names

namespace World

variable {world next : World} {action : Action}

theorem Moves.named {txn : Nat} {phase : Phase} (named : world.Named)
    (moves : world.Moves txn phase next) (names : phase.Names world.db) :
    next.Named := by
  refine ⟨?_, ?_⟩
  · rw [moves.db]
    exact named.rows
  · intro call other current
    rw [moves.db]
    rcases moves.cases_phase current with ⟨_, rfl⟩ | unchanged
    · exact names
    · exact named.phases call other unchanged

theorem step_named (sound : world.Sound) (named : world.Named)
    (stepped : world.step action = some next) : next.Named := by
  have keeps := step_keeps sound stepped
  cases step_cases stepped with
  | registers =>
      exact ⟨fun grant member => (named.rows grant member).keep keeps,
        fun txn phase current => (named.phases txn phase current).keep keeps⟩
  | opens unused opened moves => exact moves.named named opened.names
  | leads current isOpen leads moves =>
      exact moves.named named (leads.names (named.phases _ _ current))
  | @commits txn request seen changes current =>
      refine ⟨?_, ?_⟩
      · intro grant member
        rcases List.mem_append.mp member with old | new
        · exact (named.rows grant (List.mem_of_mem_filter old)).keep keeps
        · exact (named.phases _ _ current grant new).commit keeps
      · intro call phase isPhase
        rcases moves_moveTo.cases_phase isPhase with ⟨_, rfl⟩ | unchanged
        · unfold answer
          split <;> trivial
        · exact (named.phases call phase unchanged).keep keeps
  | answers current => exact moves_moveTo.named named trivial
  | fails current notDone moves => exact moves.named named trivial

theorem reachable_named (reachable : Reachable step initial world) :
    world.Named := by
  have invariant : world.Sound ∧ world.Named := by
    apply reachable.invariant
    · intro before action after holds stepped
      exact ⟨step_sound holds.1 stepped, step_named holds.1 holds.2 stepped⟩
    · refine ⟨sound_initial, ?_, ?_⟩
      · intro grant member
        cases member
      · intro txn phase current
        cases current
  exact invariant.2

end World

end Paigasus.Tenancy
