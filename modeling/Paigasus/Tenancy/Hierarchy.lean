import Paigasus.Tenancy.ArchivedGuard
import Paigasus.Tenancy.Steps

/-!
# The stored hierarchy

No step moves a stored node, and the parent of every stored node is stored with
the remaining ancestors of the node as its own.  So the ancestor columns of a
node and the stored parent edges give the same subtrees.
-/

namespace Paigasus.Tenancy

open Foundation Kernel Core Roles

namespace Db

/-- The nodes of the subtree of an organization, by the stored parent edges. -/
inductive Beneath (db : Db) (org : Uuid) : NodeKey → Prop where
  | top : Beneath db org (.organization org)
  | child {row : NodeRow} {parent : NodeKey} (stored : row ∈ db.nodes)
      (edge : row.place.ancestors.head? = some parent)
      (above : Beneath db org parent) : Beneath db org row.key

/-- The subtree of an organization by the ancestor columns. -/
def Under (db : Db) (org : Uuid) (key : NodeKey) : Prop :=
  key = .organization org ∨ ∃ row ∈ db.nodes, row.key = key ∧
    .organization org ∈ row.place.ancestors

/-- Every parent is stored, with the further ancestors of its child. -/
def Nested (db : Db) : Prop :=
  ∀ row ∈ db.nodes, ∀ parent rest, row.place.ancestors = parent :: rest →
    ∃ above ∈ db.nodes, above.key = parent ∧ above.place.ancestors = rest

/-- Nodes stay where they are, and principals stay. -/
structure Keeps (db next : Db) : Prop where
  nodes : ∀ row ∈ db.nodes, ∃ kept ∈ next.nodes,
    kept.id = row.id ∧ kept.place = row.place
  principals : ∀ principal ∈ db.principals, principal ∈ next.principals

theorem Keeps.refl (db : Db) : db.Keeps db :=
  ⟨fun row member => ⟨row, member, rfl, rfl⟩, fun _ member => member⟩

theorem Keeps.trans {db middle next : Db} (first : db.Keeps middle)
    (second : middle.Keeps next) : db.Keeps next := by
  refine ⟨?_, fun principal member =>
    second.principals principal (first.principals principal member)⟩
  intro row member
  obtain ⟨kept, keptMember, sameId, samePlace⟩ := first.nodes row member
  obtain ⟨last, lastMember, lastId, lastPlace⟩ := second.nodes kept keptMember
  exact ⟨last, lastMember, lastId.trans sameId, lastPlace.trans samePlace⟩

theorem Keeps.key {db next : Db} (keeps : db.Keeps next) {row : NodeRow}
    (member : row ∈ db.nodes) :
    ∃ kept ∈ next.nodes, kept.key = row.key ∧ kept.place = row.place := by
  obtain ⟨kept, keptMember, sameId, samePlace⟩ := keeps.nodes row member
  refine ⟨kept, keptMember, ?_, samePlace⟩
  rw [NodeRow.key, NodeRow.key, sameId, samePlace]

theorem Under.keep {db next : Db} {org : Uuid} {key : NodeKey}
    (under : db.Under org key) (keeps : db.Keeps next) :
    next.Under org key := by
  rcases under with isTop | ⟨row, member, isKey, above⟩
  · exact .inl isTop
  · obtain ⟨kept, keptMember, sameKey, samePlace⟩ := keeps.key member
    refine .inr ⟨kept, keptMember, sameKey.trans isKey, ?_⟩
    rw [samePlace]
    exact above

section Edges

variable {db : Db} {org : Uuid}

theorem ancestors_tail {place : Place} {parent key : NodeKey}
    {rest : List NodeKey} (isAncestors : place.ancestors = parent :: rest)
    (member : key ∈ rest) : rest = [key] ∧ ∃ id, key = .organization id := by
  cases place with
  | organization => cases isAncestors
  | team id =>
      cases isAncestors
      cases member
  | project id team =>
      cases isAncestors
      rw [List.mem_singleton.mp member]
      exact ⟨rfl, id, rfl⟩

/-- What is above a stored ancestor of a node is above the node. -/
theorem Nested.under (nested : db.Nested)
    (unique : (db.nodes.map NodeRow.key).Nodup) {row : NodeRow}
    (member : row ∈ db.nodes) {key : NodeKey}
    (isAncestor : key ∈ row.place.ancestors) (under : db.Under org key) :
    db.Under org row.key := by
  refine .inr ⟨row, member, rfl, ?_⟩
  rcases under with rfl | ⟨other, otherMember, rfl, above⟩
  · exact isAncestor
  · cases isAncestors : row.place.ancestors with
    | nil =>
        rw [isAncestors] at isAncestor
        cases isAncestor
    | cons parent rest =>
        rw [isAncestors] at isAncestor
        rcases List.mem_cons.mp isAncestor with isParent | further
        · obtain ⟨stored, storedMember, storedKey, storedAbove⟩ :=
            nested row member parent rest isAncestors
          have same := List.inj_on_of_nodup_map unique otherMember
            storedMember (isParent.trans storedKey.symm)
          rw [same, storedAbove] at above
          exact List.mem_cons_of_mem _ above
        · obtain ⟨_, id, isOrganization⟩ := ancestors_tail isAncestors further
          cases place : other.place <;>
            simp [NodeRow.key, place, Place.key, Place.ancestors] at *

theorem Under.beneath (nested : db.Nested) {key : NodeKey}
    (under : db.Under org key) : db.Beneath org key := by
  rcases under with rfl | ⟨row, member, rfl, above⟩
  · exact .top
  · cases isAncestors : row.place.ancestors with
    | nil =>
        rw [isAncestors] at above
        cases above
    | cons parent rest =>
        refine .child member (by rw [isAncestors]; rfl) ?_
        rw [isAncestors] at above
        rcases List.mem_cons.mp above with isParent | further
        · rw [← isParent]
          exact .top
        · obtain ⟨stored, storedMember, storedKey, storedAbove⟩ :=
            nested row member parent rest isAncestors
          rw [← storedKey]
          apply Beneath.child storedMember _ .top
          rw [storedAbove, (ancestors_tail isAncestors further).1]
          rfl

theorem Beneath.under (nested : db.Nested)
    (unique : (db.nodes.map NodeRow.key).Nodup) {key : NodeKey}
    (beneath : db.Beneath org key) : db.Under org key := by
  induction beneath with
  | top => exact .inl rfl
  | child stored edge above ih =>
      exact nested.under unique stored (List.mem_of_head? edge) ih

/-- An organization is in no subtree but its own. -/
theorem Beneath.organization {id : Uuid}
    (beneath : db.Beneath org (.organization id)) : id = org := by
  generalize isKey : NodeKey.organization id = key at beneath
  cases beneath with
  | top => exact NodeKey.organization.inj isKey
  | @child row parent stored edge above =>
      cases place : row.place <;>
        simp [NodeRow.key, place, Place.key, Place.ancestors] at isKey edge

end Edges

end Db

section Commit

variable {db : Db} {locks : List (RowLock RowKey)} {txn : Nat}
  {changes : Changes}

theorem keeps_apply (consistent : db.Consistent)
    (sanctioned : Sanctioned db locks txn changes) :
    db.Keeps (db.apply changes) :=
  ⟨fun _ member => ⟨_, Db.mem_nodes_apply member,
    Db.rewrite_spec consistent sanctioned member⟩, fun _ member => member⟩

theorem keeps_register (db : Db) (principal : Uuid) :
    db.Keeps { db with principals := db.principals ++ [principal] } :=
  ⟨fun row member => ⟨row, member, rfl, rfl⟩,
    fun _ member => List.mem_append_left _ member⟩

/-- A commit keeps the hierarchy when the parents of the new nodes are stored
or new themselves. -/
theorem nested_apply (consistent : db.Consistent)
    (sanctioned : Sanctioned db locks txn changes) (nested : db.Nested)
    (inserted : ∀ row ∈ changes.inserted, ∀ parent rest,
      row.place.ancestors = parent :: rest →
        (∃ above ∈ db.nodes, above.key = parent ∧
          above.place.ancestors = rest) ∨
        ∃ above ∈ changes.inserted, above.key = parent ∧
          above.place.ancestors = rest) :
    (db.apply changes).Nested := by
  have moved : ∀ parent rest, (∃ above ∈ db.nodes, above.key = parent ∧
      above.place.ancestors = rest) →
      ∃ above ∈ (db.apply changes).nodes, above.key = parent ∧
        above.place.ancestors = rest := by
    rintro parent rest ⟨above, member, rfl, rfl⟩
    obtain ⟨kept, keptMember, sameKey, samePlace⟩ :=
      (keeps_apply consistent sanctioned).key member
    exact ⟨kept, keptMember, sameKey, by rw [samePlace]⟩
  intro row member parent rest isAncestors
  rcases mem_nodes_apply_iff.mp member with ⟨old, oldMember, rfl⟩ | new
  · rw [(Db.rewrite_spec consistent sanctioned oldMember).2] at isAncestors
    exact moved parent rest (nested old oldMember parent rest isAncestors)
  · rcases inserted row new parent rest isAncestors with stored | fresh
    · exact moved parent rest stored
    · obtain ⟨above, aboveMember, facts⟩ := fresh
      exact ⟨above, List.mem_append_right _ aboveMember, facts⟩

/-- The nodes that a call inserts have stored or inserted parents. -/
theorem Written.inserted_parents {request : Request} {seen : List NodeRow}
    (written : Written request seen changes)
    (path : Path db locks txn request.call seen)
    (complete : request.call.nextRow seen = .complete) :
    ∀ row ∈ changes.inserted, ∀ parent rest,
      row.place.ancestors = parent :: rest →
        (∃ above ∈ db.nodes, above.key = parent ∧
          above.place.ancestors = rest) ∨
        ∃ above ∈ changes.inserted, above.key = parent ∧
          above.place.ancestors = rest := by
  intro row member parent rest isAncestors
  cases written with
  | organization seen isCall =>
      right
      simp only [createOrganizationIn, List.mem_cons, List.not_mem_nil,
        or_false] at member ⊢
      rcases member with rfl | rfl
      · cases isAncestors
      · cases isAncestors
        exact ⟨_, .inl rfl, rfl, rfl⟩
  | @team org id slug name parentRow above isCall active =>
      left
      have isRow : row = newNode id (.team org) slug name request.stamp := by
        simpa [creation] using member
      have ancestry := team_ancestry path isCall complete
      obtain ⟨isParent, isRest⟩ := List.cons.inj ancestry
      rw [isRow] at isAncestors
      cases isAncestors
      refine ⟨parentRow, path.stored _ List.mem_cons_self, isParent, ?_⟩
      rw [← path.ancestors (by rw [isCall]; rfl) complete]
      exact isRest
  | @project org team id slug name parentRow above isCall active =>
      left
      have isRow : row =
          newNode id (.project org team) slug name request.stamp := by
        simpa [creation] using member
      have ancestry := project_ancestry path isCall complete
      obtain ⟨isParent, isRest⟩ := List.cons.inj ancestry
      rw [isRow] at isAncestors
      cases isAncestors
      refine ⟨parentRow, path.stored _ List.mem_cons_self, isParent, ?_⟩
      rw [← path.ancestors (by rw [isCall]; rfl) complete]
      exact isRest
  | renamed isCall result =>
      unfold mutation at member
      split at member <;> cases member
  | statusSet isCall =>
      unfold mutation at member
      split at member <;> cases member
  | attached isCall active => cases member

theorem Explained.inserted_parents {request : Option Request}
    {seen : List NodeRow} (explained : Explained db request seen changes)
    (origin : ∀ found, request = some found →
      Path db locks txn found.call seen ∧ found.call.nextRow seen = .complete) :
    ∀ row ∈ changes.inserted, ∀ parent rest,
      row.place.ancestors = parent :: rest →
        (∃ above ∈ db.nodes, above.key = parent ∧
          above.place.ancestors = rest) ∨
        ∃ above ∈ changes.inserted, above.key = parent ∧
          above.place.ancestors = rest := by
  cases explained with
  | request request seen changes computed =>
      obtain ⟨path, complete⟩ := origin request rfl
      exact (Request.written computed).inserted_parents path complete
  | detach target stamp stored =>
      intro row member
      cases member
  | grant grant stamp =>
      intro row member
      cases member
  | seed grant issuer correlation =>
      intro row member
      cases member
  | revoke grant stamp =>
      intro row member
      cases member

end Commit

namespace World

variable {world next : World} {action : Action}

theorem step_keeps (sound : world.Sound)
    (stepped : world.step action = some next) : world.db.Keeps next.db := by
  cases step_cases stepped with
  | registers => exact keeps_register _ _
  | opens unused opened moves =>
      rw [moves.db]
      exact .refl _
  | leads current isOpen leads moves =>
      rw [moves.db]
      exact .refl _
  | commits current =>
      exact keeps_apply sound.consistent (sound.phases _ _ current).1
  | answers current => exact .refl _
  | fails current notDone moves =>
      rw [moves.db]
      exact .refl _

theorem step_nested (sound : world.Sound) (nested : world.db.Nested)
    (stepped : world.step action = some next) : next.db.Nested := by
  cases step_cases stepped with
  | registers => exact nested
  | opens unused opened moves =>
      rw [moves.db]
      exact nested
  | leads current isOpen leads moves =>
      rw [moves.db]
      exact nested
  | commits current =>
      obtain ⟨sanctioned, explained, origin⟩ := sound.phases _ _ current
      exact nested_apply sound.consistent sanctioned nested
        (explained.inserted_parents origin)
  | answers current => exact nested
  | fails current notDone moves =>
      rw [moves.db]
      exact nested

theorem reachable_nested (reachable : Reachable step initial world) :
    world.db.Nested := by
  have invariant : world.Sound ∧ world.db.Nested := by
    apply reachable.invariant
    · intro before action after holds stepped
      exact ⟨step_sound holds.1 stepped, step_nested holds.1 holds.2 stepped⟩
    · refine ⟨sound_initial, ?_⟩
      intro row member
      cases member
  exact invariant.2

end World

end Paigasus.Tenancy
