import Mathlib.Data.List.Perm.Lattice
import Paigasus.Core.StarterPolicies

/-!
# Compilation of the stored policies

`compile` folds the stored documents and the role grants into one policy set:
static documents and templates first, then one link per grant whose role
template is present.  The result exists exactly when every document is one
statement of its own kind, every id is used once, and the linked templates
take a principal and a resource.
-/

namespace Paigasus.Policies

open Foundation Kernel Core Cedar

inductive AuthzError where
  | policyParse
  | schemaValidation
  | templateLink
  | systemImmutable (policyId : String)
  | conflict (policyId : String)
deriving DecidableEq

variable {Condition : Type}

/-- Syntax and schema conformance of a text at write time. -/
def validatePolicy (frontend : Frontend Condition) (source : String) :
    Except AuthzError Unit :=
  match frontend.fromStr source with
  | none => .error .policyParse
  | some statements =>
      if frontend.validates statements then .ok ()
      else .error .schemaValidation

def entityUid (frontend : Frontend Condition) (uid : EntityUid) :
    Except AuthzError EntityUid :=
  if frontend.isTypeName uid.typeName then .ok uid else .error .templateLink

def scopeEntityUid : GrantScope → EntityUid
  | .root => toCedarUid rootPrn
  | .node target => toCedarUid target.prn

/-- Links the template of a grant under the id `grant:<uuid>`. -/
def linkGrant (frontend : Frontend Condition) (set : PolicySet Condition)
    (templateId : String) (grant : RoleGrant) :
    Except AuthzError (PolicySet Condition) := do
  let principal ← entityUid frontend (toCedarUid grant.principal.prn)
  let resource ← entityUid frontend (scopeEntityUid grant.scope)
  match set.link templateId (grantPolicyId grant.id)
      ⟨some principal, some resource⟩ with
  | .ok next => .ok next
  | .error _ => .error .templateLink

def addDocument (frontend : Frontend Condition) (set : PolicySet Condition)
    (doc : PolicyDocument) : Except AuthzError (PolicySet Condition) :=
  match doc.kind with
  | .static =>
      match frontend.parsePolicy doc.source with
      | none => .error .policyParse
      | some statement =>
          match set.add doc.policyId statement with
          | .ok next => .ok next
          | .error _ => .error .policyParse
  | .template =>
      match frontend.parseTemplate doc.source with
      | none => .error .policyParse
      | some statement =>
          match set.addTemplate doc.policyId statement with
          | .ok next => .ok next
          | .error _ => .error .policyParse

/-- A grant that names an absent template contributes no permission. -/
def linkPresent (frontend : Frontend Condition) (set : PolicySet Condition)
    (grant : RoleGrant) : Except AuthzError (PolicySet Condition) :=
  if (set.template? grant.roleKey).isSome then
    linkGrant frontend set grant.roleKey grant
  else
    .ok set

def compile (frontend : Frontend Condition) (docs : List PolicyDocument)
    (grants : List RoleGrant) : Except AuthzError (PolicySet Condition) := do
  let set ← docs.foldlM (addDocument frontend) .empty
  grants.foldlM (linkPresent frontend) set

/-- The text is one statement of the document's own kind. -/
def readsAs (frontend : Frontend Condition) (kind : PolicyKind)
    (source : String) : Bool :=
  match kind with
  | .static => (frontend.parsePolicy source).isSome
  | .template => (frontend.parseTemplate source).isSome

variable {frontend : Frontend Condition}

theorem validatePolicy_ok {source : String}
    {statements : List (Statement Condition)}
    (reads : frontend.fromStr source = some statements)
    (valid : frontend.validates statements = true) :
    validatePolicy frontend source = .ok () := by
  rw [validatePolicy, reads]
  exact if_pos valid

theorem grantPolicyId_injective {left right : Uuid}
    (same : grantPolicyId left = grantPolicyId right) : left = right := by
  apply Uuid.hyphenated_injective
  have lists := congrArg String.toList same
  simpa [grantPolicyId] using lists

/-- Starter ids are no link ids: a link id is longer. -/
theorem starterPolicyId_ne_grantPolicyId {policyId : String}
    (starter : isStarterPolicyId policyId = true) (id : Uuid) :
    policyId ≠ grantPolicyId id := by
  intro same
  have short : ∀ starter ∈ starterPolicyIds, starter.length < 42 := by
    decide
  have linkLength : (grantPolicyId id).length = 42 := by
    simp [grantPolicyId]
    decide
  have listed : policyId ∈ starterPolicyIds := by
    simpa [isStarterPolicyId] using starter
  have bound := short policyId listed
  rw [same, linkLength] at bound
  omega

/-- What adding one document does to a set that does not use its id yet. -/
theorem addDocument_ok {set : PolicySet Condition} {doc : PolicyDocument}
    (reads : readsAs frontend doc.kind doc.source = true)
    (fresh : doc.policyId ∉ set.ids) :
    ∃ next, addDocument frontend set doc = .ok next ∧
      next.ids.Perm (doc.policyId :: set.ids) ∧
      ∀ entry ∈ next.templates, entry ∈ set.templates ∨
        doc.kind = .template ∧ entry.1 = doc.policyId ∧
          frontend.parseTemplate doc.source = some entry.2 := by
  cases kind : doc.kind with
  | static =>
      rw [kind] at reads
      obtain ⟨statement, parsed⟩ := Option.isSome_iff_exists.mp reads
      refine ⟨{ set with policies := set.policies ++ [(doc.policyId, statement)] },
        by simp [addDocument, kind, parsed, PolicySet.add, fresh], ?_, ?_⟩
      · simp only [PolicySet.ids, List.map_append, List.map_cons, List.map_nil,
          List.append_assoc, List.singleton_append]
        exact List.perm_middle
      · intro entry member
        exact .inl member
  | template =>
      rw [kind] at reads
      obtain ⟨statement, parsed⟩ := Option.isSome_iff_exists.mp reads
      refine ⟨{ set with
          templates := set.templates ++ [(doc.policyId, statement)] },
        by simp [addDocument, kind, parsed, PolicySet.addTemplate, fresh],
        ?_, ?_⟩
      · simp only [PolicySet.ids, List.map_append, List.map_cons, List.map_nil,
          List.append_assoc, List.singleton_append]
        rw [← List.append_assoc, ← List.append_assoc]
        exact List.perm_middle
      · intro entry member
        rcases List.mem_append.mp member with old | new
        · exact .inl old
        · rw [List.mem_singleton.mp new]
          exact .inr ⟨rfl, rfl, parsed⟩

/-- Documents with ids of their own are all added. -/
theorem addDocuments_ok {docs : List PolicyDocument}
    {set : PolicySet Condition}
    (reads : ∀ doc ∈ docs, readsAs frontend doc.kind doc.source = true)
    (unique : (docs.map PolicyDocument.policyId).Nodup)
    (fresh : ∀ doc ∈ docs, doc.policyId ∉ set.ids) :
    ∃ next, docs.foldlM (addDocument frontend) set = .ok next ∧
      (∀ id ∈ next.ids, id ∈ set.ids ∨ ∃ doc ∈ docs, doc.policyId = id) ∧
      ∀ entry ∈ next.templates, entry ∈ set.templates ∨
        ∃ doc ∈ docs, doc.kind = .template ∧ entry.1 = doc.policyId ∧
          frontend.parseTemplate doc.source = some entry.2 := by
  induction docs generalizing set with
  | nil => exact ⟨set, rfl, fun id member => .inl member,
      fun entry member => .inl member⟩
  | cons doc rest ih =>
      obtain ⟨notLater, restUnique⟩ := List.nodup_cons.mp unique
      obtain ⟨middle, added, ids, templates⟩ := addDocument_ok
        (reads doc List.mem_cons_self) (fresh doc List.mem_cons_self)
      have restFresh : ∀ other ∈ rest, other.policyId ∉ middle.ids := by
        intro other member used
        rcases List.mem_cons.mp (ids.mem_iff.mp used) with same | before
        · apply notLater
          rw [← same]
          exact List.mem_map_of_mem member
        · exact fresh other (List.mem_cons_of_mem doc member) before
      obtain ⟨next, folded, nextIds, nextTemplates⟩ := ih
        (fun other member => reads other (List.mem_cons_of_mem doc member))
        restUnique restFresh
      refine ⟨next, ?_, ?_, ?_⟩
      · rw [List.foldlM_cons, added]
        exact folded
      · intro id member
        rcases nextIds id member with before | ⟨other, otherMember, same⟩
        · rcases List.mem_cons.mp (ids.mem_iff.mp before) with same | old
          · exact .inr ⟨doc, List.mem_cons_self, same.symm⟩
          · exact .inl old
        · exact .inr ⟨other, List.mem_cons_of_mem doc otherMember, same⟩
      · intro entry member
        rcases nextTemplates entry member with before | ⟨other, otherMember, of⟩
        · rcases templates entry before with old | of
          · exact .inl old
          · exact .inr ⟨doc, List.mem_cons_self, of⟩
        · exact .inr ⟨other, List.mem_cons_of_mem doc otherMember, of⟩

/-- A template that a grant may be linked to takes both slots. -/
def TakesBothSlots (statement : Statement Condition) : Prop :=
  statement.principal.hasSlot = true ∧ statement.resource.hasSlot = true

/-- The principal and the scope of a grant name known entity types. -/
def Addressable (frontend : Frontend Condition) (grant : RoleGrant) : Prop :=
  frontend.isTypeName (toCedarUid grant.principal.prn).typeName = true ∧
    frontend.isTypeName (scopeEntityUid grant.scope).typeName = true

theorem linkPresent_ok {set : PolicySet Condition} {grant : RoleGrant}
    (addressable : Addressable frontend grant)
    (slots : ∀ statement, set.template? grant.roleKey = some statement →
      TakesBothSlots statement)
    (fresh : grantPolicyId grant.id ∉ set.ids) :
    ∃ next, linkPresent frontend set grant = .ok next ∧
      next.templates = set.templates ∧
      ∀ id ∈ next.ids, id ∈ set.ids ∨ id = grantPolicyId grant.id := by
  unfold linkPresent
  cases present : set.template? grant.roleKey with
  | none => exact ⟨set, rfl, rfl, fun id member => .inl member⟩
  | some statement =>
      obtain ⟨principalSlot, resourceSlot⟩ := slots statement present
      refine ⟨{ set with links := set.links ++ [⟨grantPolicyId grant.id,
          grant.roleKey, ⟨some (toCedarUid grant.principal.prn),
            some (scopeEntityUid grant.scope)⟩⟩] }, ?_, rfl, ?_⟩
      · simp [linkGrant, entityUid, addressable.1, addressable.2,
          PolicySet.link, present, SlotValues.fits, principalSlot,
          resourceSlot, fresh, bind, Except.bind]
      · intro id member
        simp only [PolicySet.ids, List.map_append, List.map_cons, List.map_nil,
          ← List.append_assoc] at member
        rcases List.mem_append.mp member with old | new
        · exact .inl old
        · exact .inr (List.mem_singleton.mp new)

theorem linkGrants_ok {grants : List RoleGrant} {set : PolicySet Condition}
    (addressable : ∀ grant ∈ grants, Addressable frontend grant)
    (unique : (grants.map RoleGrant.id).Nodup)
    (slots : ∀ grant ∈ grants, ∀ statement,
      set.template? grant.roleKey = some statement → TakesBothSlots statement)
    (fresh : ∀ grant ∈ grants, grantPolicyId grant.id ∉ set.ids) :
    ∃ next, grants.foldlM (linkPresent frontend) set = .ok next := by
  induction grants generalizing set with
  | nil => exact ⟨set, rfl⟩
  | cons grant rest ih =>
      obtain ⟨notLater, restUnique⟩ := List.nodup_cons.mp unique
      obtain ⟨middle, linked, templates, ids⟩ := linkPresent_ok
        (addressable grant List.mem_cons_self)
        (slots grant List.mem_cons_self) (fresh grant List.mem_cons_self)
      have sameTemplates : ∀ id, middle.template? id = set.template? id := by
        intro id
        rw [PolicySet.template?, templates, PolicySet.template?]
      have restFresh : ∀ other ∈ rest, grantPolicyId other.id ∉ middle.ids := by
        intro other member used
        rcases ids _ used with before | same
        · exact fresh other (List.mem_cons_of_mem grant member) before
        · apply notLater
          rw [← grantPolicyId_injective same]
          exact List.mem_map_of_mem member
      have restSlots : ∀ other ∈ rest, ∀ statement,
          middle.template? other.roleKey = some statement →
          TakesBothSlots statement := by
        intro other member statement present
        rw [sameTemplates] at present
        exact slots other (List.mem_cons_of_mem grant member) statement present
      obtain ⟨next, folded⟩ := ih
        (fun other member => addressable other (List.mem_cons_of_mem grant member))
        restUnique restSlots restFresh
      refine ⟨next, ?_⟩
      rw [List.foldlM_cons, linked]
      exact folded

/-- Content that compiles: documents of their own kind under ids of their own,
and grants whose links find a free id and a template for both slots. -/
structure Compilable (frontend : Frontend Condition)
    (docs : List PolicyDocument) (grants : List RoleGrant) : Prop where
  reads : ∀ doc ∈ docs, readsAs frontend doc.kind doc.source = true
  uniqueIds : (docs.map PolicyDocument.policyId).Nodup
  uniqueGrants : (grants.map RoleGrant.id).Nodup
  apart : ∀ doc ∈ docs, ∀ grant ∈ grants,
    doc.policyId ≠ grantPolicyId grant.id
  slots : ∀ doc ∈ docs, ∀ grant ∈ grants, doc.policyId = grant.roleKey →
    ∀ statement, frontend.parseTemplate doc.source = some statement →
      TakesBothSlots statement
  addressable : ∀ grant ∈ grants, Addressable frontend grant

theorem Compilable.compile_ok {docs : List PolicyDocument}
    {grants : List RoleGrant} (compilable : Compilable frontend docs grants) :
    ∃ set, compile frontend docs grants = .ok set := by
  have noneUsed : ∀ doc ∈ docs,
      doc.policyId ∉ (PolicySet.empty : PolicySet Condition).ids := by
    simp [PolicySet.empty, PolicySet.ids]
  obtain ⟨set, added, ids, templates⟩ := addDocuments_ok compilable.reads
    compilable.uniqueIds noneUsed
  have fresh : ∀ grant ∈ grants, grantPolicyId grant.id ∉ set.ids := by
    intro grant member used
    rcases ids _ used with none | ⟨doc, docMember, same⟩
    · simp [PolicySet.empty, PolicySet.ids] at none
    · exact compilable.apart doc docMember grant member same
  have slots : ∀ grant ∈ grants, ∀ statement,
      set.template? grant.roleKey = some statement →
      TakesBothSlots statement := by
    intro grant member statement present
    rcases templates _ (PolicySet.template?_mem present) with
      none | ⟨doc, docMember, _, sameId, parsed⟩
    · simp [PolicySet.empty] at none
    · exact compilable.slots doc docMember grant member sameId.symm statement
        parsed
  obtain ⟨next, linked⟩ := linkGrants_ok compilable.addressable
    compilable.uniqueGrants slots fresh
  refine ⟨next, ?_⟩
  unfold compile
  rw [added]
  exact linked

/-- The order in which the store lists its rows does not matter. -/
theorem Compilable.of_perm {docs otherDocs : List PolicyDocument}
    {grants otherGrants : List RoleGrant}
    (compilable : Compilable frontend docs grants)
    (docsPerm : otherDocs.Perm docs) (grantsPerm : otherGrants.Perm grants) :
    Compilable frontend otherDocs otherGrants where
  reads doc member := compilable.reads doc (docsPerm.mem_iff.mp member)
  uniqueIds := (docsPerm.map _).nodup_iff.mpr compilable.uniqueIds
  uniqueGrants := (grantsPerm.map _).nodup_iff.mpr compilable.uniqueGrants
  apart doc docMember grant member :=
    compilable.apart doc (docsPerm.mem_iff.mp docMember) grant
      (grantsPerm.mem_iff.mp member)
  slots doc docMember grant member :=
    compilable.slots doc (docsPerm.mem_iff.mp docMember) grant
      (grantsPerm.mem_iff.mp member)
  addressable grant member :=
    compilable.addressable grant (grantsPerm.mem_iff.mp member)

/-- A stored document that does not read as its kind fails the compilation. -/
theorem addDocuments_error {docs : List PolicyDocument} {doc : PolicyDocument}
    {set : PolicySet Condition} (member : doc ∈ docs)
    (unreadable : readsAs frontend doc.kind doc.source = false) :
    docs.foldlM (addDocument frontend) set = .error .policyParse := by
  have parseError : ∀ (other : PolicyDocument) (set : PolicySet Condition),
      (∃ next, addDocument frontend set other = .ok next) ∨
        addDocument frontend set other = .error .policyParse := by
    intro other set
    unfold addDocument
    split <;> split
    · exact .inr rfl
    · split
      · exact .inl ⟨_, rfl⟩
      · exact .inr rfl
    · exact .inr rfl
    · split
      · exact .inl ⟨_, rfl⟩
      · exact .inr rfl
  induction docs generalizing set with
  | nil => cases member
  | cons first rest ih =>
      rw [List.foldlM_cons]
      rcases parseError first set with ⟨next, added⟩ | failed
      · rcases List.mem_cons.mp member with rfl | later
        · exfalso
          unfold addDocument at added
          unfold readsAs at unreadable
          split at added <;> simp_all
        · rw [added]
          exact ih later
      · rw [failed]
        rfl

end Paigasus.Policies
