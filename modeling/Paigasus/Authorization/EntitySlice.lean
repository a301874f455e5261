import Paigasus.Authorization.Decide
import Paigasus.Tenancy.Hierarchy

/-!
# The entity slice of a request

The loader reads the node that a resource names and its ancestors from the
tenancy tables, and takes every parent from the stored row of the node.  Each of
its reads may see another committed state.  So what an entity of the slice is
in is the root, the node itself or one of its stored ancestors, whatever region
or organization slot the name of the resource carries.
-/

namespace Paigasus.Authorization

open Foundation Kernel Core Cedar Policies Tenancy

inductive SliceError where
  | resourceNotFound
  | backend
deriving DecidableEq

/-- The state that each read of a load sees, in the order of the reads, and the
columns of the principal's row. -/
structure Reads where
  state : Nat → Db
  kind : String
  status : String

def Reads.later (reads : Reads) (count : Nat) : Reads :=
  { reads with state := fun index => reads.state (index + count) }

/-- `find` of a node repository: the row, and its ancestors for the effective
status. -/
def viewAt (reads : Reads) (key : NodeKey) : Except SliceError NodeView :=
  match (reads.state 0).find key with
  | none => .error .resourceNotFound
  | some row =>
      match row.place.ancestors.zipIdx.mapM fun entry =>
          (reads.state (entry.2 + 1)).find entry.1 with
      | none => .error .backend
      | some above => .ok (view row above)

def rootUid : EntityUid :=
  ⟨"Pgs::Iam::Root", "00000000-0000-0000-0000-000000000000"⟩

def statusAttrs (status : NodeStatus) : List (String × ContextValue) :=
  [("effective_status", .str status.asStr)]

def nodeEntity (uid parent : EntityUid) (shown : NodeView) :
    Entity ContextValue :=
  ⟨uid, [parent], statusAttrs shown.effectiveStatus⟩

/-- The node and its ancestors.  The row of a table has the place of that
table, so the last cases do not occur. -/
def loadChain (reads : Reads) :
    TenancyNodeRef → Except SliceError EntitySlice
  | .organization id => do
      let shown ← viewAt reads (.organization id.prn.resourceId)
      return [nodeEntity (toCedarUid id.prn) rootUid shown]
  | .team id => do
      let shown ← viewAt reads (.team id.prn.resourceId)
      match shown.node.place with
      | .team org =>
          -- The stored organization, not the slot of the caller's name.
          let orgUid := toCedarUid (OrganizationId.fromUuid org).prn
          let orgShown ← viewAt (reads.later 2) (.organization org)
          return [nodeEntity (toCedarUid id.prn) orgUid shown,
            nodeEntity orgUid rootUid orgShown]
      | _ => .error .backend
  | .project id => do
      let shown ← viewAt reads (.project id.prn.resourceId)
      match shown.node.place with
      | .project org team =>
          let teamUid := toCedarUid (TeamId.fromParts org team).prn
          let orgUid := toCedarUid (OrganizationId.fromUuid org).prn
          let teamShown ← viewAt (reads.later 3) (.team team)
          let orgShown ← viewAt (reads.later 5) (.organization org)
          return [nodeEntity (toCedarUid id.prn) teamUid shown,
            nodeEntity teamUid orgUid teamShown,
            nodeEntity orgUid rootUid orgShown]
      | _ => .error .backend

/-- A principal that is not stored has no entity. -/
def principalEntity (reads : Reads) (principal : Prn) :
    Except SliceError (Entity ContextValue) :=
  if principal.resourceId ∈ (reads.state 6).principals then
    .ok ⟨toCedarUid principal, [],
      [("kind", .str reads.kind), ("status", .str reads.status)]⟩
  else
    .error .resourceNotFound

/-- The root has no node to load. -/
def loadResource (reads : Reads) (resource : Prn) :
    Except SliceError EntitySlice :=
  if resource = rootPrn then
    .ok []
  else
    match TenancyNodeRef.fromPrn resource with
    | none => .error .backend
    | some node => loadChain reads node

def load (reads : Reads) (resource principal : Prn) :
    Except SliceError EntitySlice := do
  let chain ← loadResource reads resource
  let requester ← principalEntity reads principal
  return ⟨rootUid, [], []⟩ :: chain ++ [requester]

/-- The entity of a node, which only its table and its id determine. -/
def nodeUid : NodeKey → EntityUid
  | .organization id => ⟨"Pgs::Iam::Organization", String.ofList id.hyphenated⟩
  | .team id => ⟨"Pgs::Iam::Team", String.ofList id.hyphenated⟩
  | .project id => ⟨"Pgs::Iam::Project", String.ofList id.hyphenated⟩

theorem toCedarUid_of_check {prn : Prn} {resourceType : String} {org : Bool}
    (shape : check prn resourceType org = true) :
    toCedarUid prn = ⟨"Pgs::" ++ pascal "iam" ++ "::" ++ pascal resourceType,
      String.ofList prn.resourceId.hyphenated⟩ := by
  rw [check, decide_eq_true_eq] at shape
  obtain ⟨service, isType, _⟩ := shape
  rw [toCedarUid, service, isType]

theorem toCedarUid_node (node : TenancyNodeRef) :
    toCedarUid node.prn = nodeUid (nodeKeyOf node) := by
  have organization : "Pgs::" ++ pascal "iam" ++ "::" ++ pascal "organization" =
      "Pgs::Iam::Organization" := by decide
  have team : "Pgs::" ++ pascal "iam" ++ "::" ++ pascal "team" =
      "Pgs::Iam::Team" := by decide
  have project : "Pgs::" ++ pascal "iam" ++ "::" ++ pascal "project" =
      "Pgs::Iam::Project" := by decide
  cases node with
  | organization id =>
      exact (toCedarUid_of_check id.shape).trans (by rw [organization]; rfl)
  | team id => exact (toCedarUid_of_check id.shape).trans (by rw [team]; rfl)
  | project id =>
      exact (toCedarUid_of_check id.shape).trans (by rw [project]; rfl)

theorem nodeUid_injective : Function.Injective nodeUid := by
  intro key other same
  cases key <;> cases other <;>
    simp only [nodeUid, EntityUid.mk.injEq, String.reduceEq, false_and,
      true_and] at same
  all_goals
    rw [Uuid.hyphenated_injective (String.ofList_injective same)]

theorem nodeUid_ne_root (key : NodeKey) : nodeUid key ≠ rootUid := by
  cases key <;> simp [nodeUid, rootUid]

theorem toCedarUid_root : toCedarUid rootPrn = rootUid := by decide

theorem resourceId_of_uid {prn other : Prn}
    (same : toCedarUid prn = toCedarUid other) :
    prn.resourceId = other.resourceId := by
  rw [toCedarUid, toCedarUid, EntityUid.mk.injEq] at same
  exact Uuid.hyphenated_injective (String.ofList_injective same.2)

theorem viewAt_ok {reads : Reads} {key : NodeKey} {shown : NodeView}
    (read : viewAt reads key = .ok shown) :
    (reads.state 0).find key = some shown.node := by
  unfold viewAt at read
  split at read
  · cases read
  · rename_i row found
    split at read
    · cases read
    · cases read
      exact found

/-- The parents in a chain are the root and the stored ancestors. -/
theorem loadChain_parents {reads : Reads} {node : TenancyNodeRef}
    {chain : EntitySlice} (loaded : loadChain reads node = .ok chain) :
    ∃ row, (reads.state 0).find (nodeKeyOf node) = some row ∧
      ∀ entity ∈ chain, ∀ parent ∈ entity.parents,
        parent = rootUid ∨ ∃ key ∈ row.place.ancestors,
          parent = nodeUid key := by
  have orgUid : ∀ org, toCedarUid (OrganizationId.fromUuid org).prn =
      nodeUid (.organization org) :=
    fun org => toCedarUid_node (.organization (OrganizationId.fromUuid org))
  cases node with
  | organization id =>
      obtain ⟨shown, read, isChain⟩ := ok_of_bind loaded
      cases isChain
      refine ⟨shown.node, viewAt_ok read, ?_⟩
      intro entity member parent isParent
      rw [List.mem_singleton.mp member] at isParent
      exact .inl (List.mem_singleton.mp isParent)
  | team id =>
      obtain ⟨shown, read, afterRow⟩ := ok_of_bind loaded
      split at afterRow
      · rename_i org isPlace
        obtain ⟨orgShown, _, isChain⟩ := ok_of_bind afterRow
        cases isChain
        refine ⟨shown.node, viewAt_ok read, ?_⟩
        intro entity member parent isParent
        rw [isPlace]
        simp only [List.mem_cons, List.not_mem_nil, or_false] at member
        rcases member with rfl | rfl <;>
          have same := List.mem_singleton.mp isParent
        · exact .inr ⟨_, List.mem_singleton.mpr rfl, same.trans (orgUid org)⟩
        · exact .inl same
      · cases afterRow
  | project id =>
      obtain ⟨shown, read, afterRow⟩ := ok_of_bind loaded
      split at afterRow
      · rename_i org team isPlace
        obtain ⟨teamShown, _, afterTeam⟩ := ok_of_bind afterRow
        obtain ⟨orgShown, _, isChain⟩ := ok_of_bind afterTeam
        cases isChain
        refine ⟨shown.node, viewAt_ok read, ?_⟩
        intro entity member parent isParent
        rw [isPlace]
        simp only [List.mem_cons, List.not_mem_nil, or_false] at member
        rcases member with rfl | rfl | rfl <;>
          have same := List.mem_singleton.mp isParent
        · refine .inr ⟨_, List.mem_cons_self, same.trans ?_⟩
          exact toCedarUid_node (.team (TeamId.fromParts org team))
        · exact .inr ⟨_, List.mem_cons_of_mem _ List.mem_cons_self,
            same.trans (orgUid org)⟩
        · exact .inl same
      · cases afterRow

theorem principalEntity_parents {reads : Reads} {principal : Prn}
    {entity : Entity ContextValue}
    (isEntity : principalEntity reads principal = .ok entity) :
    entity.parents = [] := by
  unfold principalEntity at isEntity
  split at isEntity
  · cases isEntity
    rfl
  · cases isEntity

/-- What the resource of a loaded slice is in. -/
theorem below_of_load {reads : Reads} {resource principal : Prn}
    {slice : EntitySlice} {high : EntityUid}
    (loaded : load reads resource principal = .ok slice)
    (below : Below slice (toCedarUid resource) high) :
    high = rootUid ∨ ∃ node row, TenancyNodeRef.fromPrn resource = some node ∧
      (reads.state 0).find (nodeKeyOf node) = some row ∧
      ∃ key ∈ row.key :: row.place.ancestors, high = nodeUid key := by
  obtain ⟨chain, isChain, afterChain⟩ := ok_of_bind loaded
  obtain ⟨requester, isRequester, isSlice⟩ := ok_of_bind afterChain
  cases isSlice
  -- Only the entities of the chain have parents.
  have inChain : high = toCedarUid resource ∨
      ∃ entity ∈ chain, high ∈ entity.parents := by
    rcases below.eq_or_parent with same | ⟨entity, member, isParent⟩
    · exact .inl same
    · rcases List.mem_append.mp member with front | last
      · rcases List.mem_cons.mp front with rfl | inside
        · cases isParent
        · exact .inr ⟨entity, inside, isParent⟩
      · rw [List.mem_singleton.mp last,
          principalEntity_parents isRequester] at isParent
        cases isParent
  unfold loadResource at isChain
  split at isChain
  · rename_i isRoot
    cases isChain
    rcases inChain with same | ⟨entity, member, _⟩
    · rw [same, isRoot, toCedarUid_root]
      exact .inl rfl
    · cases member
  · split at isChain
    · cases isChain
    · rename_i node isNode
      obtain ⟨row, found, parents⟩ := loadChain_parents isChain
      rcases inChain with same | ⟨entity, member, isParent⟩
      · refine .inr ⟨node, row, isNode, found, _, List.mem_cons_self, ?_⟩
        rw [same, (Db.find_some found).2, ← toCedarUid_node,
          TenancyNodeRef.prn_fromPrn isNode]
      · rcases parents entity member high isParent with isRoot | ⟨key, above, same⟩
        · exact .inl isRoot
        · exact .inr ⟨node, row, isNode, found, key,
            List.mem_cons_of_mem _ above, same⟩

end Paigasus.Authorization
