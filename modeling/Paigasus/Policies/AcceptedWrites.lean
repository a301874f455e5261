import Paigasus.Foundation.Bytes
import Paigasus.Foundation.Transition
import Paigasus.Policies.Engine
import Paigasus.Roles.GrantPublication

/-!
# Accepted writes and compilation

The policy and grant tables under accepted calls: `put`, `delete` and the boot
time reconciliation of the starter documents on one side, `grant` and `revoke`
on the other.  A put is validated as a sequence of statements but compiled as
one statement of the declared kind, and its id is not kept apart from the link
ids of the grants; the tables compile as long as no accepted call uses these
two gaps.
-/

namespace Paigasus.Policies

open Foundation Kernel Core Cedar Roles

/-- A row of the policy table.  The last two columns are written together, by
the reconciliation only. -/
structure PolicyRow where
  doc : PolicyDocument
  contentFingerprint : Option String
  starterRevision : Option Nat
deriving DecidableEq

structure Deployment (Condition : Type) where
  frontend : Frontend Condition
  /-- The digest of a document's kind, source and description. -/
  contentFingerprint : PolicyKind → String → String → String

inductive PutOutcome where
  | inserted
  | updated
  | absorbedIdempotent
deriving DecidableEq

/-- The content of a row before it is overwritten. -/
structure PolicyContent where
  kind : PolicyKind
  source : String
  description : String
deriving DecidableEq

inductive StarterPolicyOutcome where
  | absent
  | unchanged
  | staleBinary (provenanceOk : Bool)
  | adopted (contentChanged : Bool) (previousContent : Option PolicyContent)
  | reconciled
  | externallyModified (contentChanged : Bool)
      (previousContent : PolicyContent)
deriving DecidableEq

variable {Condition : Type}

def findRow (rows : List PolicyRow) (id : String) : Option PolicyRow :=
  rows.find? fun row => row.doc.policyId = id

/-- An update of the row with the same id. -/
def replaceRow (rows : List PolicyRow) (updated : PolicyRow) :
    List PolicyRow :=
  rows.map fun row =>
    if row.doc.policyId = updated.doc.policyId then updated else row

def policyContentMatches (stored : PolicyRow) (doc : PolicyDocument) : Bool :=
  stored.doc.kind = doc.kind && stored.doc.source = doc.source &&
    stored.doc.description = doc.description && stored.doc.system = doc.system

/-- Writes an authored document.  `seenAbsent` says that the existence check
ran before a concurrent insert of the same id. -/
def putIn (frontend : Frontend Condition) (rows : List PolicyRow)
    (doc : PolicyDocument) (seenAbsent : Bool) :
    Except AuthzError (PutOutcome × List PolicyRow) := do
  validatePolicy frontend doc.source
  if isStarterPolicyId doc.policyId then
    throw (.systemImmutable doc.policyId)
  match if seenAbsent then none else findRow rows doc.policyId with
  | some existing =>
      if existing.doc.system then
        throw (.systemImmutable doc.policyId)
      return (.updated, replaceRow rows
        { existing with doc := { doc with createdAt := existing.doc.createdAt } })
  | none =>
      match findRow rows doc.policyId with
      | none => return (.inserted, rows ++ [⟨doc, none, none⟩])
      | some winner =>
          if policyContentMatches winner doc then
            return (.absorbedIdempotent, rows)
          else
            throw (.conflict doc.policyId)

def deleteIn (rows : List PolicyRow) (id : String) :
    Except AuthzError (Bool × List PolicyRow) :=
  match findRow rows id with
  | none => .ok (false, rows)
  | some existing =>
      if existing.doc.system then
        .error (.systemImmutable id)
      else
        .ok (true, rows.filter fun row => row.doc.policyId ≠ id)

namespace Deployment

def fingerprintOf (deployment : Deployment Condition) (doc : PolicyDocument) :
    String :=
  deployment.contentFingerprint doc.kind doc.source doc.description

def provenanceOk (deployment : Deployment Condition) (stored : PolicyRow) :
    Bool :=
  stored.doc.system &&
    stored.contentFingerprint = some (deployment.fingerprintOf stored.doc)

/-- What the boot should do with one starter document; the order of the checks
follows the source. -/
def classifyStarterPolicy (deployment : Deployment Condition)
    (stored : Option PolicyRow) (code : PolicyDocument) (codeRevision : Nat) :
    StarterPolicyOutcome :=
  match stored with
  | none => .absent
  | some row =>
      if codeRevision < row.starterRevision.getD 0 then
        .staleBinary (deployment.provenanceOk row)
      else
        let contentChanged : Bool :=
          row.doc.kind ≠ code.kind || row.doc.source ≠ code.source ||
            row.doc.description ≠ code.description
        let previous : PolicyContent :=
          ⟨row.doc.kind, row.doc.source, row.doc.description⟩
        if !row.doc.system then
          .externallyModified contentChanged previous
        else
          match row.contentFingerprint with
          | none =>
              if row.starterRevision.isSome then
                .externallyModified contentChanged previous
              else
                .adopted contentChanged
                  (if contentChanged then some previous else none)
          | some fingerprint =>
              if fingerprint ≠ deployment.fingerprintOf row.doc then
                .externallyModified contentChanged previous
              else if contentChanged then
                .reconciled
              else
                .unchanged

/-- The columns a converge writes. -/
def convergedRow (deployment : Deployment Condition) (doc : PolicyDocument)
    (createdAt now : Timestamp) (revision : Nat) : PolicyRow :=
  { doc := { doc with system := true, createdAt, updatedAt := now }
    contentFingerprint := some (deployment.fingerprintOf doc)
    starterRevision := some revision }

/-- Converges a stored row unless the classification leaves it alone. -/
def converge (deployment : Deployment Condition) (rows : List PolicyRow)
    (stored : PolicyRow) (doc : PolicyDocument) (revision : Nat)
    (now : Timestamp) : StarterPolicyOutcome × List PolicyRow :=
  match deployment.classifyStarterPolicy (some stored) doc revision with
  | .unchanged => (.unchanged, rows)
  | .staleBinary provenance => (.staleBinary provenance, rows)
  | outcome =>
      (outcome, replaceRow rows
        (deployment.convergedRow doc stored.doc.createdAt now revision))

def reconcileSystem (deployment : Deployment Condition)
    (rows : List PolicyRow) (doc : PolicyDocument) (revision : Nat)
    (now : Timestamp) (seenAbsent : Bool) :
    Except AuthzError (StarterPolicyOutcome × List PolicyRow) := do
  validatePolicy deployment.frontend doc.source
  match if seenAbsent then none else findRow rows doc.policyId with
  | some existing =>
      return deployment.converge rows existing doc revision now
  | none =>
      -- The insert may lose to a concurrent one, whose row is read instead.
      match findRow rows doc.policyId with
      | none =>
          return (.absent,
            rows ++ [deployment.convergedRow doc doc.createdAt now revision])
      | some winner => return deployment.converge rows winner doc revision now

end Deployment

structure Tables where
  rows : List PolicyRow
  grants : List RoleGrant

namespace Tables

def docs (tables : Tables) : List PolicyDocument :=
  tables.rows.map PolicyRow.doc

/-- The grant as the store lists it: the principal's name is rebuilt from its
UUID column. -/
def listed (grant : RoleGrant) : RoleGrant :=
  { grant with principal := PrincipalId.fromUuid grant.principal.uuid }

def listedGrants (tables : Tables) : List RoleGrant :=
  tables.grants.map listed

def existingGrant (tables : Tables) (target : GrantTarget) :
    Option RoleGrant :=
  tables.grants.find? fun row => (targetOf row).key = target.key

end Tables

/-- The calls that write the two tables, with the ids and clock values they
draw. -/
inductive Write where
  | put (doc : PolicyDocument) (seenAbsent : Bool)
  | delete (policyId : String)
  | grant (target : GrantTarget) (id : Uuid) (now : Timestamp)
  | revoke (id : Uuid)
  | reconcile (position : Nat) (now : Timestamp) (seenAbsent : Bool)

namespace Tables

/-- One call; `none` when it is rejected. -/
def step (deployment : Deployment Condition) (tables : Tables) :
    Write → Option Tables
  | .put doc seenAbsent =>
      match putIn deployment.frontend tables.rows doc seenAbsent with
      | .ok (_, rows) => some { tables with rows }
      | .error _ => none
  | .delete policyId =>
      match deleteIn tables.rows policyId with
      | .ok (_, rows) => some { tables with rows }
      | .error _ => none
  | .grant target id now =>
      match role target.roleKey with
      | none => none
      | some role =>
          if target.scope.kind ∈ role.scopeKinds then
            if (tables.existingGrant target).isSome then
              some tables
            else if tables.grants.any fun row => row.id = id then
              none
            else
              some { tables with
                grants := tables.grants ++ [newGrant target id now] }
          else
            none
  | .revoke id =>
      if tables.grants.any fun row => row.id = id then
        some { tables with grants := tables.grants.filter (·.id ≠ id) }
      else
        none
  | .reconcile position now seenAbsent =>
      match (starterPolicies now)[position]? with
      | none => none
      | some doc =>
          match deployment.reconcileSystem tables.rows doc
              starterPolicyRevision now seenAbsent with
          | .ok (_, rows) => some { tables with rows }
          | .error _ => none

def empty : Tables := ⟨[], []⟩

/-- The first boot: every starter document is reconciled with an empty table. -/
def seeded (deployment : Deployment Condition) (now : Timestamp) :
    Option Tables :=
  runFrom (step deployment) empty
    ((List.range (starterPolicies now).length).map fun position =>
      .reconcile position now false)

/-- The accepted call leaves both gaps alone: a put is one statement of its
declared kind under an id that is no stored grant's link id, and the link id of
a new grant is no stored policy id. -/
def Compatible (deployment : Deployment Condition) (tables : Tables) :
    Write → Prop
  | .put doc _ =>
      readsAs deployment.frontend doc.kind doc.source = true ∧
        ∀ grant ∈ tables.grants, doc.policyId ≠ grantPolicyId grant.id
  | .grant target id _ => tables.existingGrant target = none →
      ∀ row ∈ tables.rows, row.doc.policyId ≠ grantPolicyId id
  | _ => True

end Tables

theorem findRow_none {rows : List PolicyRow} {id : String}
    (absent : findRow rows id = none) :
    ∀ row ∈ rows, row.doc.policyId ≠ id := by
  intro row member
  have different := List.find?_eq_none.mp absent row member
  simpa using different

def rowIds (rows : List PolicyRow) : List String :=
  rows.map fun row => row.doc.policyId

/-- A write under the id of a document: every other row stays as it is. -/
def Stores (doc : PolicyDocument) (before after : List PolicyRow) : Prop :=
  ((rowIds before).Nodup → (rowIds after).Nodup) ∧
    ∀ row ∈ after, row ∈ before ∨ row.doc.policyId = doc.policyId ∧
      row.doc.kind = doc.kind ∧ row.doc.source = doc.source

theorem stores_refl (doc : PolicyDocument) (rows : List PolicyRow) :
    Stores doc rows rows :=
  ⟨id, fun _ member => .inl member⟩

theorem stores_replaceRow {doc : PolicyDocument} {rows : List PolicyRow}
    {updated : PolicyRow} (sameId : updated.doc.policyId = doc.policyId)
    (sameKind : updated.doc.kind = doc.kind)
    (sameSource : updated.doc.source = doc.source) :
    Stores doc rows (replaceRow rows updated) := by
  have ids : rowIds (replaceRow rows updated) = rowIds rows := by
    unfold rowIds replaceRow
    rw [List.map_map]
    apply List.map_congr_left
    intro row _
    by_cases same : row.doc.policyId = updated.doc.policyId <;> simp [same]
  refine ⟨?_, ?_⟩
  · rw [ids]
    exact id
  · intro row member
    obtain ⟨old, oldMember, rfl⟩ := List.mem_map.mp member
    split
    · exact .inr ⟨sameId, sameKind, sameSource⟩
    · exact .inl oldMember

theorem stores_append {doc : PolicyDocument} {rows : List PolicyRow}
    {added : PolicyRow} (fresh : ∀ row ∈ rows, row.doc.policyId ≠ doc.policyId)
    (sameId : added.doc.policyId = doc.policyId)
    (sameKind : added.doc.kind = doc.kind)
    (sameSource : added.doc.source = doc.source) :
    Stores doc rows (rows ++ [added]) := by
  refine ⟨?_, ?_⟩
  · intro unique
    unfold rowIds
    rw [List.map_append, List.nodup_append]
    refine ⟨unique, by simp, ?_⟩
    intro id member other otherMember
    obtain ⟨row, rowMember, rfl⟩ := List.mem_map.mp member
    rw [List.map_singleton, List.mem_singleton] at otherMember
    rw [otherMember, sameId]
    exact fresh row rowMember
  · intro row member
    rcases List.mem_append.mp member with old | new
    · exact .inl old
    · rw [List.mem_singleton.mp new]
      exact .inr ⟨sameId, sameKind, sameSource⟩

/-- What an accepted put does: it avoids the code-owned ids and stores the
document, or nothing. -/
theorem putIn_stores {frontend : Frontend Condition}
    {rows after : List PolicyRow} {doc : PolicyDocument} {seenAbsent : Bool}
    {outcome : PutOutcome}
    (accepted : putIn frontend rows doc seenAbsent = .ok (outcome, after)) :
    isStarterPolicyId doc.policyId = false ∧ Stores doc rows after := by
  unfold putIn at accepted
  simp only [bind, Except.bind] at accepted
  split at accepted
  · cases accepted
  · split at accepted
    · cases accepted
    · rename_i notStarter
      refine ⟨by simpa using notStarter, ?_⟩
      split at accepted
      · split at accepted
        · cases accepted
        · cases accepted
          exact stores_replaceRow rfl rfl rfl
      · split at accepted
        · rename_i absent
          cases accepted
          exact stores_append (findRow_none absent) rfl rfl rfl
        · split at accepted
          · cases accepted
            exact stores_refl doc rows
          · cases accepted

namespace Deployment

theorem converge_stores (deployment : Deployment Condition)
    {rows : List PolicyRow} (stored : PolicyRow) (doc : PolicyDocument)
    (revision : Nat) (now : Timestamp) :
    Stores doc rows
      (deployment.converge rows stored doc revision now).2 := by
  unfold converge
  split
  · exact stores_refl doc rows
  · exact stores_refl doc rows
  · exact stores_replaceRow rfl rfl rfl

theorem reconcileSystem_stores {deployment : Deployment Condition}
    {rows after : List PolicyRow} {doc : PolicyDocument} {revision : Nat}
    {now : Timestamp} {seenAbsent : Bool} {outcome : StarterPolicyOutcome}
    (accepted : deployment.reconcileSystem rows doc revision now seenAbsent =
      .ok (outcome, after)) :
    Stores doc rows after := by
  have converged : ∀ stored,
      deployment.converge rows stored doc revision now = (outcome, after) →
      Stores doc rows after := by
    intro stored same
    have stores : Stores doc rows
        (deployment.converge rows stored doc revision now).2 :=
      deployment.converge_stores stored doc revision now
    rw [same] at stores
    exact stores
  unfold reconcileSystem at accepted
  simp only [bind, Except.bind] at accepted
  split at accepted
  · cases accepted
  · split at accepted
    · rename_i existing _
      exact converged existing (Except.ok.inj accepted)
    · split at accepted
      · rename_i absent
        cases accepted
        exact stores_append (findRow_none absent) rfl rfl rfl
      · rename_i winner _
        exact converged winner (Except.ok.inj accepted)

end Deployment

theorem deleteIn_sublist {rows after : List PolicyRow} {id : String}
    {existed : Bool} (accepted : deleteIn rows id = .ok (existed, after)) :
    after.Sublist rows := by
  unfold deleteIn at accepted
  split at accepted
  · cases accepted
    exact List.Sublist.refl rows
  · split at accepted
    · cases accepted
    · cases accepted
      exact List.filter_sublist

/-- The document carries the content of a starter policy. -/
def IsStarter (doc : PolicyDocument) : Prop :=
  (doc.kind = .static ∧ doc.source = forbidArchivedWritesSource) ∨
    ∃ role ∈ systemRoles, doc.kind = .template ∧
      doc.source = templateSource role.key

theorem isStarter_of_mem {now : Timestamp} {doc : PolicyDocument}
    (member : doc ∈ starterPolicies now) :
    IsStarter doc ∧ isStarterPolicyId doc.policyId = true := by
  have listed : doc.policyId ∈ starterPolicyIds := by
    rw [← starterPolicies_ids now]
    exact List.mem_map_of_mem member
  refine ⟨?_, by simpa [isStarterPolicyId] using listed⟩
  rcases mem_starterPolicies member with ⟨kind, source, _⟩ |
    ⟨role, known, kind, source, _⟩
  · exact .inl ⟨kind, source⟩
  · exact .inr ⟨role, known, kind, source⟩

namespace Tables

/-- The invariant of the two tables. -/
structure Sound (deployment : Deployment Condition) (tables : Tables) :
    Prop where
  reads : ∀ row ∈ tables.rows,
    readsAs deployment.frontend row.doc.kind row.doc.source = true
  uniqueIds : (rowIds tables.rows).Nodup
  starters : ∀ row ∈ tables.rows, isStarterPolicyId row.doc.policyId = true →
    IsStarter row.doc
  uniqueGrants : (tables.grants.map RoleGrant.id).Nodup
  roles : ∀ grant ∈ tables.grants, (role grant.roleKey).isSome = true
  apart : ∀ row ∈ tables.rows, ∀ grant ∈ tables.grants,
    row.doc.policyId ≠ grantPolicyId grant.id

variable {deployment : Deployment Condition} {tables next : Tables}

theorem sound_empty : (empty : Tables).Sound deployment where
  reads := by simp [empty]
  uniqueIds := by simp [empty, rowIds]
  starters := by simp [empty]
  uniqueGrants := by simp [empty]
  roles := by simp [empty]
  apart := by simp [empty]

/-- Storing a readable document under an id that is no link id. -/
theorem Sound.store {doc : PolicyDocument} {rows : List PolicyRow}
    (sound : tables.Sound deployment) (stores : Stores doc tables.rows rows)
    (reads : readsAs deployment.frontend doc.kind doc.source = true)
    (starter : isStarterPolicyId doc.policyId = true → IsStarter doc)
    (apart : ∀ grant ∈ tables.grants, doc.policyId ≠ grantPolicyId grant.id) :
    ({ tables with rows } : Tables).Sound deployment := by
  obtain ⟨unique, origin⟩ := stores
  constructor
  · intro row member
    rcases origin row member with old | ⟨_, sameKind, sameSource⟩
    · exact sound.reads row old
    · rw [sameKind, sameSource]
      exact reads
  · exact unique sound.uniqueIds
  · intro row member isId
    rcases origin row member with old | ⟨sameId, sameKind, sameSource⟩
    · exact sound.starters row old isId
    · rw [sameId] at isId
      unfold IsStarter
      rw [sameKind, sameSource]
      exact starter isId
  · exact sound.uniqueGrants
  · exact sound.roles
  · intro row member grant grantMember
    rcases origin row member with old | ⟨sameId, _⟩
    · exact sound.apart row old grant grantMember
    · rw [sameId]
      exact apart grant grantMember

theorem Sound.delete {rows : List PolicyRow} (sound : tables.Sound deployment)
    (sublist : rows.Sublist tables.rows) :
    ({ tables with rows } : Tables).Sound deployment where
  reads row member := sound.reads row (sublist.subset member)
  uniqueIds := sound.uniqueIds.sublist (sublist.map _)
  starters row member := sound.starters row (sublist.subset member)
  uniqueGrants := sound.uniqueGrants
  roles := sound.roles
  apart row member := sound.apart row (sublist.subset member)

theorem Sound.addGrant {grant : RoleGrant} (sound : tables.Sound deployment)
    (known : (role grant.roleKey).isSome = true)
    (fresh : ∀ other ∈ tables.grants, other.id ≠ grant.id)
    (apart : ∀ row ∈ tables.rows, row.doc.policyId ≠ grantPolicyId grant.id) :
    ({ tables with grants := tables.grants ++ [grant] } : Tables).Sound
      deployment := by
  constructor
  · exact sound.reads
  · exact sound.uniqueIds
  · exact sound.starters
  · rw [List.map_append, List.nodup_append]
    refine ⟨sound.uniqueGrants, by simp, ?_⟩
    intro id member other otherMember
    obtain ⟨stored, storedMember, rfl⟩ := List.mem_map.mp member
    rw [List.map_singleton, List.mem_singleton] at otherMember
    rw [otherMember]
    exact fresh stored storedMember
  · intro other member
    rcases List.mem_append.mp member with old | new
    · exact sound.roles other old
    · rw [List.mem_singleton.mp new]
      exact known
  · intro row member other otherMember
    rcases List.mem_append.mp otherMember with old | new
    · exact sound.apart row member other old
    · rw [List.mem_singleton.mp new]
      exact apart row member

theorem readsAs_of_isStarter {doc : PolicyDocument}
    {frontend : Frontend Condition} (reads : ReadsStarters frontend)
    (starter : IsStarter doc) :
    readsAs frontend doc.kind doc.source = true := by
  rcases starter with ⟨kind, source⟩ | ⟨role, known, kind, source⟩
  · obtain ⟨statement, read, static, _⟩ := reads.forbids
    simp [kind, source, readsAs, Frontend.parsePolicy, read, static]
  · obtain ⟨statement, read, slot, _⟩ := reads.permits role known
    simp [kind, source, readsAs, Frontend.parseTemplate, read,
      Statement.isTemplate, Statement.slots, slot]

/-- A compatible accepted call keeps the tables sound. -/
theorem step_sound {write : Write}
    (reads : ReadsStarters deployment.frontend)
    (sound : tables.Sound deployment)
    (compatible : tables.Compatible deployment write)
    (accepted : tables.step deployment write = some next) :
    next.Sound deployment := by
  cases write with
  | put doc seenAbsent =>
      simp only [step] at accepted
      split at accepted
      · rename_i outcome rows stored
        cases accepted
        obtain ⟨notStarter, stores⟩ := putIn_stores stored
        refine sound.store stores compatible.1 ?_ compatible.2
        intro starter
        rw [notStarter] at starter
        cases starter
      · cases accepted
  | delete policyId =>
      simp only [step] at accepted
      split at accepted
      · rename_i existed rows deleted
        cases accepted
        exact sound.delete (deleteIn_sublist deleted)
      · cases accepted
  | grant target id now =>
      simp only [step] at accepted
      split at accepted
      · cases accepted
      · rename_i role known
        split at accepted
        · split at accepted
          · cases accepted
            exact sound
          · rename_i absent
            split at accepted
            · cases accepted
            · rename_i fresh
              cases accepted
              apply sound.addGrant
              · simp [newGrant, known]
              · intro other member same
                apply fresh
                have sameId : other.id = id := same
                exact List.any_eq_true.mpr ⟨other, member, by simp [sameId]⟩
              · exact compatible (by simpa using absent)
        · cases accepted
  | revoke id =>
      simp only [step] at accepted
      split at accepted
      · cases accepted
        have sublist : (tables.grants.filter (·.id ≠ id)).Sublist
            tables.grants := List.filter_sublist
        exact
          { reads := sound.reads
            uniqueIds := sound.uniqueIds
            starters := sound.starters
            uniqueGrants := sound.uniqueGrants.sublist (sublist.map _)
            roles := fun grant member =>
              sound.roles grant (sublist.subset member)
            apart := fun row member grant grantMember =>
              sound.apart row member grant (sublist.subset grantMember) }
      · cases accepted
  | reconcile position now seenAbsent =>
      simp only [step] at accepted
      split at accepted
      · cases accepted
      · rename_i doc located
        obtain ⟨starter, starterId⟩ :=
          isStarter_of_mem (List.mem_of_getElem? located)
        split at accepted
        · rename_i outcome rows reconciled
          cases accepted
          apply sound.store (Deployment.reconcileSystem_stores reconciled)
          · exact readsAs_of_isStarter reads starter
          · exact fun _ => starter
          · intro grant _
            exact starterPolicyId_ne_grantPolicyId starterId grant.id
        · cases accepted

/-- The names of a listed grant are of the schema's entity types. -/
theorem addressable_listed {frontend : Frontend Condition}
    (reads : ReadsStarters frontend) (grant : RoleGrant) :
    Addressable frontend (listed grant) := by
  have typed : ∀ name : Prn, name.service = "iam" →
      ∀ kind, name.resourceType = kind →
      "Pgs::Iam::" ++ pascal kind ∈ entityTypes →
      frontend.isTypeName (toCedarUid name).typeName = true := by
    intro name service kind resourceType known
    apply reads.typeNames
    have service' : pascal "iam" = "Iam" := by decide
    simpa [toCedarUid, service, resourceType, service', String.append_assoc]
      using known
  refine ⟨typed _ rfl "principal" rfl (by decide), ?_⟩
  have nodeTyped : ∀ (name : Prn) (kind : String) (wantsOrg : Bool),
      check name kind wantsOrg = true →
      "Pgs::Iam::" ++ pascal kind ∈ entityTypes →
      frontend.isTypeName (toCedarUid name).typeName = true := by
    intro name kind wantsOrg shape known
    simp only [check, decide_eq_true_eq] at shape
    exact typed name shape.1 kind shape.2.1 known
  cases scope : (listed grant).scope with
  | root => exact typed rootPrn rfl "root" rfl (by decide)
  | node target =>
      cases target with
      | organization id =>
          exact nodeTyped id.prn "organization" false id.shape (by decide)
      | team id => exact nodeTyped id.prn "team" true id.shape (by decide)
      | project id =>
          exact nodeTyped id.prn "project" true id.shape (by decide)

theorem Sound.compilable
    (reads : ReadsStarters deployment.frontend)
    (sound : tables.Sound deployment) :
    Compilable deployment.frontend tables.docs tables.listedGrants := by
  have listedGrant : ∀ grant ∈ tables.listedGrants,
      ∃ stored ∈ tables.grants, listed stored = grant := by
    intro grant member
    exact List.mem_map.mp member
  have storedDoc : ∀ doc ∈ tables.docs, ∃ row ∈ tables.rows, row.doc = doc := by
    intro doc member
    exact List.mem_map.mp member
  constructor
  · intro doc member
    obtain ⟨row, rowMember, rfl⟩ := storedDoc doc member
    exact sound.reads row rowMember
  · simpa [docs, rowIds, List.map_map, Function.comp_def] using sound.uniqueIds
  · simpa [listedGrants, listed, List.map_map, Function.comp_def] using
      sound.uniqueGrants
  · intro doc member grant grantMember
    obtain ⟨row, rowMember, rfl⟩ := storedDoc doc member
    obtain ⟨stored, storedMember, rfl⟩ := listedGrant grant grantMember
    exact sound.apart row rowMember stored storedMember
  · intro doc member grant grantMember sameKey statement parsed
    obtain ⟨row, rowMember, rfl⟩ := storedDoc doc member
    obtain ⟨stored, storedMember, rfl⟩ := listedGrant grant grantMember
    -- The role of a stored grant is known, so the document is a starter.
    obtain ⟨known, found⟩ :=
      Option.isSome_iff_exists.mp (sound.roles stored storedMember)
    obtain ⟨_, _, starterKey⟩ := role_isStarter found
    have starterId : isStarterPolicyId row.doc.policyId = true := by
      rw [sameKey]
      simpa [isStarterPolicyId, listed] using starterKey
    rcases sound.starters row rowMember starterId with ⟨_, source⟩ |
      ⟨role, roleKnown, _, source⟩
    · obtain ⟨other, read, static, _⟩ := reads.forbids
      simp [source, Frontend.parseTemplate, read, static] at parsed
    · obtain ⟨template, read, principalSlot, resourceSlot, _⟩ :=
        reads.permits role roleKnown
      have same : template = statement := by
        simp only [source, Frontend.parseTemplate, read] at parsed
        split at parsed
        · exact Option.some.inj parsed
        · cases parsed
      rw [← same]
      exact ⟨principalSlot, resourceSlot⟩
  · intro grant member
    obtain ⟨stored, _, rfl⟩ := listedGrant grant member
    exact addressable_listed reads stored

theorem everyStep_reconcile (now : Timestamp) (positions : List Nat)
    (tables : Tables) :
    EveryStep (step deployment) (Compatible deployment) tables
      (positions.map fun position => .reconcile position now false) := by
  induction positions generalizing tables with
  | nil => trivial
  | cons position rest ih => exact ⟨trivial, fun next _ => ih next⟩

theorem Sound.seeded {now : Timestamp} {seed : Tables}
    (reads : ReadsStarters deployment.frontend)
    (isSeed : Tables.seeded deployment now = some seed) :
    seed.Sound deployment :=
  runFrom_invariant_of_everyStep
    (fun _ _ _ sound compatible accepted =>
      step_sound reads sound compatible accepted)
    sound_empty (everyStep_reconcile now _ empty) isSeed

/-- Every state that compatible accepted calls reach from the seeded tables
compiles, in whatever order the store lists its rows. -/
theorem compile_ok_of_compatible {now : Timestamp}
    {seed tables : Tables} {writes : List Write}
    {docs : List PolicyDocument} {grants : List RoleGrant}
    (reads : ReadsStarters deployment.frontend)
    (isSeed : seeded deployment now = some seed)
    (compatible : EveryStep (step deployment) (Compatible deployment)
      seed writes)
    (run : runFrom (step deployment) seed writes = some tables)
    (docsListed : docs.Perm tables.docs)
    (grantsListed : grants.Perm tables.listedGrants) :
    ∃ set, compile deployment.frontend docs grants = .ok set := by
  have sound : tables.Sound deployment :=
    runFrom_invariant_of_everyStep
      (fun _ _ _ sound compatible accepted =>
        step_sound reads sound compatible accepted)
      (Sound.seeded reads isSeed) compatible run
  exact ((sound.compilable reads).of_perm docsListed grantsListed).compile_ok

/-- The first boot succeeds: a starter text is valid whatever the table holds. -/
theorem seeded_exists (reads : ReadsStarters deployment.frontend)
    (now : Timestamp) : ∃ seed, seeded deployment now = some seed := by
  have valid : ∀ doc ∈ starterPolicies now,
      validatePolicy deployment.frontend doc.source = .ok () := by
    intro doc member
    rcases mem_starterPolicies member with ⟨_, source, _⟩ |
      ⟨role, known, _, source, _⟩
    · obtain ⟨statement, read, _, conforms⟩ := reads.forbids
      simp [validatePolicy, source, read, conforms]
    · obtain ⟨statement, read, _, _, conforms⟩ := reads.permits role known
      simp [validatePolicy, source, read, conforms]
  have accepted : ∀ (tables : Tables) (position : Nat),
      position < (starterPolicies now).length →
      ∃ next, tables.step deployment (.reconcile position now false) =
        some next := by
    intro tables position inside
    have located := List.getElem?_eq_getElem inside
    have ok := valid _ (List.getElem_mem inside)
    simp only [step, located, Deployment.reconcileSystem, ok, bind,
      Except.bind]
    split
    · exact ⟨_, rfl⟩
    · rename_i failed
      split at failed
      · cases failed
      · split at failed <;> cases failed
  have folded : ∀ (positions : List Nat) (tables : Tables),
      (∀ position ∈ positions, position < (starterPolicies now).length) →
      ∃ seed, runFrom (step deployment) tables
        (positions.map fun position => .reconcile position now false) =
          some seed := by
    intro positions
    induction positions with
    | nil => exact fun tables _ => ⟨tables, rfl⟩
    | cons position rest ih =>
        intro tables inside
        obtain ⟨next, stepped⟩ :=
          accepted tables position (inside position List.mem_cons_self)
        obtain ⟨seed, run⟩ := ih next
          (fun other member => inside other (List.mem_cons_of_mem _ member))
        exact ⟨seed, runFrom_cons.mpr ⟨next, stepped, run⟩⟩
  exact folded _ empty (fun position member => List.mem_range.mp member)

/-- After the first boot there are code-owned rows only. -/
theorem seeded_spec {now : Timestamp} {seed : Tables}
    (isSeed : seeded deployment now = some seed) :
    seed.grants = [] ∧
      ∀ row ∈ seed.rows, isStarterPolicyId row.doc.policyId = true := by
  have folded : ∀ (positions : List Nat) (tables : Tables),
      tables.grants = [] →
      (∀ row ∈ tables.rows, isStarterPolicyId row.doc.policyId = true) →
      runFrom (step deployment) tables
        (positions.map fun position => .reconcile position now false) =
          some seed →
      seed.grants = [] ∧
        ∀ row ∈ seed.rows, isStarterPolicyId row.doc.policyId = true := by
    intro positions
    induction positions with
    | nil =>
        intro tables noGrants starters run
        cases run
        exact ⟨noGrants, starters⟩
    | cons position rest ih =>
        intro tables noGrants starters run
        obtain ⟨next, stepped, remaining⟩ := runFrom_cons.mp run
        simp only [step] at stepped
        split at stepped
        · cases stepped
        · rename_i doc located
          have starterId :=
            (isStarter_of_mem (List.mem_of_getElem? located)).2
          split at stepped
          · rename_i outcome rows reconciled
            cases stepped
            obtain ⟨_, origin⟩ := Deployment.reconcileSystem_stores reconciled
            apply ih { tables with rows } noGrants ?_ remaining
            intro row member
            rcases origin row member with old | ⟨sameId, _⟩
            · exact starters row old
            · rw [sameId]
              exact starterId
          · cases stepped
  exact folded _ empty rfl (by simp [empty]) isSeed

section MislabelledPut

def archivedText : String :=
  "resource has effective_status && resource.effective_status == \"archived\""

/-- A front end that knows the starter texts. -/
def starterFrontend : Frontend String where
  fromStr source :=
    match systemRoles.find? fun role => templateSource role.key = source with
    | some role => some [roleTemplate role.key]
    | none =>
        if source = forbidArchivedWritesSource then
          some [forbidArchivedWrites archivedText]
        else
          none
  validates _ := true
  isTypeName name := entityTypes.contains name

theorem templateSource_ne_forbid (key : String) :
    templateSource key ≠ forbidArchivedWritesSource := by
  have permits : (templateSource key).toList.head? = some 'p' := by
    unfold templateSource
    split
    · exact holds_of_chars (fun chars => chars.head? = some 'p') rfl
    · have first : "permit(principal == ?principal, action in [".toList.head? =
          some 'p' := holds_of_chars (fun chars => chars.head? = some 'p') rfl
      rw [String.append_assoc, String.toList_append, List.head?_append, first]
      rfl
  have forbids : forbidArchivedWritesSource.toList.head? = some 'f' := by
    unfold forbidArchivedWritesSource
    have first : "forbid(principal, action in [".toList.head? = some 'f' :=
      holds_of_chars (fun chars => chars.head? = some 'f') rfl
    rw [String.append_assoc, String.append_assoc, String.toList_append,
      List.head?_append, first]
    rfl
  intro same
  rw [same, forbids] at permits
  cases permits

theorem starterFrontend_forbids :
    starterFrontend.fromStr forbidArchivedWritesSource =
      some [forbidArchivedWrites archivedText] := by
  have noRole : (systemRoles.find? fun role =>
      decide (templateSource role.key = forbidArchivedWritesSource)) = none := by
    apply List.find?_eq_none.mpr
    intro role _
    simpa using templateSource_ne_forbid role.key
  simp [starterFrontend, noRole]

theorem starterFrontend_reads : ReadsStarters starterFrontend where
  forbids := ⟨_, starterFrontend_forbids, rfl, rfl⟩
  permits := by
    intro role known
    cases found : systemRoles.find? fun other =>
        decide (templateSource other.key = templateSource role.key) with
    | none =>
        have absent := List.find?_eq_none.mp found role known
        simp at absent
    | some other => exact ⟨roleTemplate other.key,
        by simp [starterFrontend, found], rfl, rfl, rfl⟩
  typeNames := by
    intro name known
    simpa [starterFrontend] using known

def sampleDeployment : Deployment String where
  frontend := starterFrontend
  contentFingerprint _ source _ := source

/-- The text of `forbid-archived-writes` under an id of its own, declared as
the given kind. -/
def authoredCopy (kind : PolicyKind) : PolicyDocument :=
  { policyId := "copy"
    kind
    source := forbidArchivedWritesSource
    description := ""
    system := false
    createdAt := 1
    updatedAt := 1 }

/-- The text that forbids is a policy and no template. -/
theorem readsAs_forbids {frontend : Frontend String} {condition : String}
    (kind : PolicyKind) {source : String}
    (reads : frontend.fromStr source =
      some [forbidArchivedWrites condition]) :
    readsAs frontend kind source = decide (kind = .static) := by
  cases kind with
  | static =>
      simp [readsAs, Frontend.parsePolicy, reads, forbidArchivedWrites,
        Statement.isTemplate, Statement.slots, ScopeConstraint.hasSlot]
  | template =>
      simp [readsAs, Frontend.parseTemplate, reads, forbidArchivedWrites,
        Statement.isTemplate, Statement.slots, ScopeConstraint.hasSlot]

theorem authoredCopy_source (kind : PolicyKind) :
    (authoredCopy kind).source = forbidArchivedWritesSource := by
  simp only [authoredCopy]

theorem authoredCopy_kind (kind : PolicyKind) :
    (authoredCopy kind).kind = kind := by
  simp only [authoredCopy]

theorem readsAs_authoredCopy (kind : PolicyKind) :
    readsAs sampleDeployment.frontend (authoredCopy kind).kind
      (authoredCopy kind).source = decide (kind = .static) := by
  rw [authoredCopy_kind, authoredCopy_source]
  exact readsAs_forbids kind starterFrontend_forbids

theorem step_put {deployment : Deployment String} {tables : Tables}
    {doc : PolicyDocument} {outcome : PutOutcome} {rows : List PolicyRow}
    (put : putIn deployment.frontend tables.rows doc false =
      .ok (outcome, rows)) :
    tables.step deployment (.put doc false) = some { tables with rows } := by
  unfold step
  dsimp only
  rw [put]

theorem authoredCopy_policyId (kind : PolicyKind) :
    (authoredCopy kind).policyId = "copy" := by
  simp only [authoredCopy]

theorem putIn_fresh {frontend : Frontend String} {rows : List PolicyRow}
    (doc : PolicyDocument)
    (valid : validatePolicy frontend doc.source = .ok ())
    (notStarter : isStarterPolicyId doc.policyId = false)
    (absent : findRow rows doc.policyId = none) :
    putIn frontend rows doc false =
      .ok (.inserted, rows ++ [⟨doc, none, none⟩]) := by
  simp [putIn, valid, notStarter, absent, bind, Except.bind, pure, Except.pure]

theorem put_authoredCopy (kind : PolicyKind) {seed : Tables}
    (isSeed : seeded sampleDeployment 0 = some seed) :
    seed.step sampleDeployment (.put (authoredCopy kind) false) =
      some { seed with rows := seed.rows ++ [⟨authoredCopy kind, none, none⟩] } := by
  have absent : findRow seed.rows (authoredCopy kind).policyId = none := by
    rw [authoredCopy_policyId]
    apply List.find?_eq_none.mpr
    intro row member same
    have starterId := (seeded_spec isSeed).2 row member
    rw [of_decide_eq_true same] at starterId
    revert starterId
    decide
  have notStarter :
      isStarterPolicyId (authoredCopy kind).policyId = false := by
    rw [authoredCopy_policyId]
    decide
  have valid : validatePolicy starterFrontend (authoredCopy kind).source =
      .ok () := by
    rw [authoredCopy_source]
    exact validatePolicy_ok starterFrontend_forbids rfl
  exact step_put (putIn_fresh (authoredCopy kind) valid notStarter absent)

/-- The put of a static text declared as a template is accepted, and the
tables no longer compile. -/
theorem mislabelledPut_breaks_compilation :
    ReadsStarters sampleDeployment.frontend ∧
      ∃ seed tables, seeded sampleDeployment 0 = some seed ∧
        runFrom (step sampleDeployment) seed
          [.put (authoredCopy .template) false] = some tables ∧
        compile sampleDeployment.frontend tables.docs tables.listedGrants =
          .error .policyParse := by
  have reads : ReadsStarters sampleDeployment.frontend := starterFrontend_reads
  refine ⟨reads, ?_⟩
  obtain ⟨seed, isSeed⟩ := seeded_exists reads 0
  refine ⟨seed, _, isSeed,
    runFrom_cons.mpr ⟨_, put_authoredCopy .template isSeed, rfl⟩, ?_⟩
  have unreadable : readsAs sampleDeployment.frontend
      (authoredCopy .template).kind (authoredCopy .template).source = false :=
    readsAs_authoredCopy .template
  have stored : authoredCopy .template ∈ (Tables.docs
      { seed with
        rows := seed.rows ++ [⟨authoredCopy .template, none, none⟩] }) := by
    simp [docs]
  unfold compile
  rw [addDocuments_error stored unreadable]
  rfl

def memberTarget : GrantTarget :=
  { principal := PrincipalId.fromUuid 1
    roleKey := "org_member"
    scope := .node (.organization (OrganizationId.fromUuid 2)) }

theorem authoredRun_compiles :
    ∃ seed tables, seeded sampleDeployment 0 = some seed ∧
      runFrom (step sampleDeployment) seed
        [.put (authoredCopy .static) false, .grant memberTarget 7 5] =
          some tables ∧
      tables.grants.length = 1 ∧
      ∃ set, compile sampleDeployment.frontend tables.docs
        tables.listedGrants = .ok set := by
  have reads : ReadsStarters sampleDeployment.frontend := starterFrontend_reads
  obtain ⟨seed, isSeed⟩ := seeded_exists reads 0
  obtain ⟨noGrants, starters⟩ := seeded_spec isSeed
  have put := put_authoredCopy .static isSeed
  generalize afterPut : ({ seed with
    rows := seed.rows ++ [⟨authoredCopy .static, none, none⟩] } : Tables) =
      stored at put
  have storedGrants : stored.grants = [] := by
    rw [← afterPut]
    exact noGrants
  have granted : stored.step sampleDeployment (.grant memberTarget 7 5) =
      some { stored with grants := [newGrant memberTarget 7 5] } := by
    have known : role memberTarget.roleKey = systemRoles[2]? := by decide
    have scopeKind : memberTarget.scope.kind = .organization := rfl
    simp [step, known, systemRoles, existingGrant, storedGrants, scopeKind]
  have run : runFrom (step sampleDeployment) seed
      [.put (authoredCopy .static) false, .grant memberTarget 7 5] =
        some { stored with grants := [newGrant memberTarget 7 5] } :=
    runFrom_cons.mpr ⟨stored, put, runFrom_cons.mpr ⟨_, granted, rfl⟩⟩
  have readable : readsAs sampleDeployment.frontend
      (authoredCopy .static).kind (authoredCopy .static).source = true :=
    readsAs_authoredCopy .static
  have compatible : EveryStep (step sampleDeployment)
      (Compatible sampleDeployment) seed
      [.put (authoredCopy .static) false, .grant memberTarget 7 5] := by
    refine ⟨⟨readable, by simp [noGrants]⟩, ?_⟩
    intro next stepped
    rw [put] at stepped
    cases stepped
    refine ⟨?_, fun _ _ => trivial⟩
    intro _ row member
    rw [← afterPut] at member
    rcases List.mem_append.mp member with old | new
    · exact starterPolicyId_ne_grantPolicyId (starters row old) 7
    · rw [List.mem_singleton.mp new]
      decide
  exact ⟨seed, _, isSeed, run, rfl,
    compile_ok_of_compatible reads isSeed compatible run (.refl _) (.refl _)⟩

end MislabelledPut

end Tables

end Paigasus.Policies
