import Paigasus.Tenancy.Soundness

/-!
# The archived guard at commit

A create, a rename or an attach commits only while every row of its chain is
active in the committed state, and the events of a commit carry the status and
the effective status that their nodes have afterwards.  Both hold because the
rows of the chain stay locked from their read until the commit.
-/

namespace Paigasus.Tenancy

open Foundation Kernel Core Roles

namespace Db

/-- The row of a node and the rows of its ancestors, nearest first. -/
def chainOf (db : Db) (key : NodeKey) : Option (List NodeRow) :=
  (db.find key).bind fun own =>
    (own.place.ancestors.mapM db.find).map (own :: ·)

/-- The effective status of a node in the committed rows. -/
def effectiveStatusOf (db : Db) (key : NodeKey) : Option NodeStatus :=
  (db.chainOf key).bind fun chain =>
    match chain with
    | [] => none
    | own :: above => some (view own above).effectiveStatus

/-- The node and all its ancestors are stored and active. -/
def ChainActive (db : Db) (key : NodeKey) : Prop :=
  ∃ chain, db.chainOf key = some chain ∧ ∀ row ∈ chain, row.status = .active

end Db

/-- The stored node whose chain must be active: the parent of a new node, the
renamed node, the node of a new membership. -/
def Call.guards : Call → Option NodeKey
  | .createTeam org _ _ _ => some (.organization org)
  | .createProject _ parent _ _ _ => some (.team parent)
  | .rename node _ _ => some node
  | .attach _ _ node => some (nodeKeyOf node)
  | _ => none

/-- The nodes that a create, a rename or an attach is about. -/
def Call.subjects : Call → List NodeKey
  | .createOrganization id team _ _ _ => [.organization id, .team team]
  | .createTeam _ id _ _ => [.team id]
  | .createProject _ _ id _ _ => [.project id]
  | .rename node _ _ => [node]
  | .attach _ _ node => [nodeKeyOf node]
  | _ => []

/-- The event describes its node as the rows have it. -/
def Db.Describes (db : Db) (event : DomainEvent) : Prop :=
  ∀ payload, event.payload = .node payload →
    ∃ row ∈ db.nodes, row.prn = event.aggregatePrn ∧
      (∀ other ∈ db.nodes, other.prn = event.aggregatePrn → other = row) ∧
      payload.status = row.status ∧
      db.effectiveStatusOf row.key = some payload.effectiveStatus

theorem active_of_view {own : NodeRow} {above : List NodeRow}
    (guarded : (view own above).effectiveStatus ≠ .archived) :
    ∀ row ∈ own :: above, row.status = .active := by
  have active : (view own above).effectiveStatus = .active := by
    cases status : (view own above).effectiveStatus with
    | active => rfl
    | archived => exact absurd status guarded
  obtain ⟨ownActive, aboveActive⟩ := NodeStatus.effective_eq_active.mp active
  intro row member
  rcases List.mem_cons.mp member with rfl | higher
  · exact ownActive
  · exact aboveActive _ (List.mem_map_of_mem higher)

section Chain

variable {db : Db}

theorem mapM_find {rows : List NodeRow}
    (stored : ∀ row ∈ rows, db.find row.key = some row) :
    (rows.map NodeRow.key).mapM db.find = some rows := by
  induction rows with
  | nil => rfl
  | cons row rest ih =>
      have first := stored row List.mem_cons_self
      have later := ih fun other member =>
        stored other (List.mem_cons_of_mem _ member)
      simp [first, later]

/-- The chain of a node from the rows of the chain. -/
theorem chainOf_of_find {own : NodeRow} {above : List NodeRow}
    (found : db.find own.key = some own)
    (ancestry : above.map NodeRow.key = own.place.ancestors)
    (stored : ∀ row ∈ above, db.find row.key = some row) :
    db.chainOf own.key = some (own :: above) := by
  rw [Db.chainOf, found, Option.bind_some, ← ancestry, mapM_find stored]
  rfl

/-- A completely locked chain ends at the organization. -/
theorem Path.ancestors {locks : List (RowLock RowKey)} {txn : Nat}
    {call : Call} {own : NodeRow} {above : List NodeRow}
    (path : Path db locks txn call (own :: above))
    (anchored : call.anchor.isSome)
    (complete : call.nextRow (own :: above) = .complete) :
    above.map NodeRow.key = own.place.ancestors := by
  rw [path.ancestry own above rfl]
  apply List.take_of_length_le
  obtain ⟨anchor, isAnchor⟩ := Option.isSome_iff_exists.mp anchored
  simp only [Call.nextRow, isAnchor] at complete
  split at complete
  · cases complete
  · split at complete
    · cases complete
    · rename_i ended
      exact List.getElem?_eq_none_iff.mp ended

/-- The locked rows are the chain of the anchored node. -/
theorem Path.chainOf {locks : List (RowLock RowKey)} {txn : Nat}
    {call : Call} {own : NodeRow} {above : List NodeRow}
    (consistent : db.Consistent)
    (path : Path db locks txn call (own :: above))
    (anchored : call.anchor.isSome)
    (complete : call.nextRow (own :: above) = .complete) :
    db.chainOf own.key = some (own :: above) := by
  have found : ∀ row ∈ own :: above, db.find row.key = some row := by
    intro row member
    exact Db.find_of_mem consistent.uniqueNodes (path.stored row member)
  apply chainOf_of_find (found own List.mem_cons_self)
    (path.ancestors anchored complete)
  intro row member
  exact found row (List.mem_cons_of_mem _ member)

/-- The rows carry the effective status of the view. -/
def Db.Shows (db : Db) (target : NodeView) : Prop :=
  ∃ above, db.chainOf target.node.key = some (target.node :: above) ∧
    target = view target.node above

theorem mem_of_chainOf {own : NodeRow} {above : List NodeRow} {key : NodeKey}
    (isChain : db.chainOf key = some (own :: above)) : own ∈ db.nodes := by
  obtain ⟨found, isFound, isRest⟩ := Option.bind_eq_some_iff.mp isChain
  obtain ⟨rest, _, isOwn⟩ := Option.map_eq_some_iff.mp isRest
  cases isOwn
  exact (Db.find_some isFound).1

theorem Db.Shows.describes {target : NodeView} (shows : db.Shows target)
    (unique : (db.nodes.map NodeRow.key).Nodup) (change : NodeChange)
    (stamp : Stamp) (source : Option String) :
    db.Describes (nodeEvent change target stamp source) := by
  obtain ⟨above, isChain, isView⟩ := shows
  have member := mem_of_chainOf isChain
  rintro payload ⟨⟩
  refine ⟨target.node, member, rfl, ?_, rfl, ?_⟩
  · intro other otherMember sameName
    exact List.inj_on_of_nodup_map unique otherMember member
      (NodeRow.key_eq_of_prn_eq sameName)
  · rw [Db.effectiveStatusOf, isChain]
    exact congrArg (fun shown => some shown.effectiveStatus) isView.symm

end Chain

section Commit

variable {db : Db} {locks : List (RowLock RowKey)} {txn : Nat}
  {changes : Changes}

theorem find_apply_of_kept (consistent : db.Consistent)
    (sanctioned : Sanctioned db locks txn changes) {row : NodeRow}
    (member : row ∈ db.nodes) (kept : Db.rewrite changes row = row) :
    (db.apply changes).find row.key = some row := by
  rw [Db.find_apply consistent sanctioned member, kept]

theorem find_apply_of_inserted (consistent : db.Consistent)
    (sanctioned : Sanctioned db locks txn changes) {row : NodeRow}
    (inserted : row ∈ changes.inserted) :
    (db.apply changes).find row.key = some row :=
  Db.find_of_mem (Db.apply_uniqueNodes consistent sanctioned)
    (List.mem_append_right _ inserted)

theorem rewrite_of_noUpdate (noUpdate : changes.updated = none)
    (row : NodeRow) : Db.rewrite changes row = row := by
  rw [Db.rewrite, noUpdate]

theorem key_not_mem_ancestors (row : NodeRow) :
    row.key ∉ row.place.ancestors := by
  cases place : row.place <;>
    simp [NodeRow.key, place, Place.key, Place.ancestors]

/-- A mutation rewrites the own row and none of its ancestors. -/
theorem rewrite_mutation (change : NodeChange) {out : Mutated} (stamp : Stamp)
    {own : NodeRow} (sameKey : out.value.node.key = own.key) :
    Db.rewrite (mutation change out stamp) own =
        (if out.changed then out.value.node else own) ∧
      ∀ row, row.key ∈ own.place.ancestors →
        Db.rewrite (mutation change out stamp) row = row := by
  unfold mutation
  split
  · refine ⟨by simp [Db.rewrite, sameKey], ?_⟩
    intro row isAncestor
    have other : own.key ≠ row.key := by
      intro same
      rw [← same] at isAncestor
      exact key_not_mem_ancestors own isAncestor
    simp [Db.rewrite, sameKey, other]
  · exact ⟨rfl, fun row _ => rfl⟩

/-- The chain of a mutated node after the commit. -/
theorem chainOf_mutation {call : Call} {own : NodeRow} {above : List NodeRow}
    {change : NodeChange} {out : Mutated} {stamp : Stamp}
    (consistent : db.Consistent)
    (sanctioned : Sanctioned db locks txn (mutation change out stamp))
    (path : Path db locks txn call (own :: above))
    (anchored : call.anchor.isSome)
    (complete : call.nextRow (own :: above) = .complete)
    (sameId : out.value.node.id = own.id)
    (samePlace : out.value.node.place = own.place) :
    (db.apply (mutation change out stamp)).chainOf own.key =
      some ((if out.changed then out.value.node else own) :: above) := by
  have sameKey : out.value.node.key = own.key := by
    rw [NodeRow.key, NodeRow.key, sameId, samePlace]
  have ancestry := path.ancestors anchored complete
  obtain ⟨ownRewritten, aboveKept⟩ :=
    rewrite_mutation change stamp sameKey
  have found := Db.find_apply consistent sanctioned
    (path.stored own List.mem_cons_self)
  rw [ownRewritten] at found
  have result : (if out.changed then out.value.node else own).key = own.key := by
    split
    · exact sameKey
    · rfl
  have place : (if out.changed then out.value.node else own).place =
      own.place := by
    split
    · exact samePlace
    · rfl
  rw [← result] at found ⊢
  apply chainOf_of_find found
  · rw [place]
    exact ancestry
  · intro row member
    apply find_apply_of_kept consistent sanctioned
      (path.stored row (List.mem_cons_of_mem _ member))
    apply aboveKept
    rw [← ancestry]
    exact List.mem_map_of_mem member

/-- A mutated node is shown as the repository returned it. -/
theorem shows_mutation {call : Call} {own : NodeRow} {above : List NodeRow}
    {change : NodeChange} {out : Mutated} {stamp : Stamp}
    (consistent : db.Consistent)
    (sanctioned : Sanctioned db locks txn (mutation change out stamp))
    (path : Path db locks txn call (own :: above))
    (anchored : call.anchor.isSome)
    (complete : call.nextRow (own :: above) = .complete)
    (isView : out.value = view out.value.node above)
    (sameId : out.value.node.id = own.id)
    (samePlace : out.value.node.place = own.place) :
    ∀ event ∈ (mutation change out stamp).events,
      (db.apply (mutation change out stamp)).Describes event := by
  have isChain := chainOf_mutation consistent sanctioned path anchored complete
    sameId samePlace
  have unique := Db.apply_uniqueNodes consistent sanctioned
  intro event member
  cases changed : out.changed with
  | false => simp [mutation, changed, Changes.none] at member
  | true =>
      have isEvent : event = nodeEvent change out.value stamp none := by
        simpa [mutation, changed] using member
      rw [isEvent]
      refine Db.Shows.describes ⟨above, ?_, isView⟩ unique _ _ _
      rw [changed, if_pos rfl] at isChain
      rw [← isChain, NodeRow.key, NodeRow.key, sameId, samePlace]

/-- The chain of a new node after the commit. -/
theorem chainOf_creation {call : Call} {target : NodeView}
    {seen : List NodeRow} {stamp : Stamp} (consistent : db.Consistent)
    (sanctioned : Sanctioned db locks txn (creation target stamp))
    (path : Path db locks txn call seen)
    (ancestry : seen.map NodeRow.key = target.node.place.ancestors) :
    (db.apply (creation target stamp)).chainOf target.node.key =
      some (target.node :: seen) := by
  apply chainOf_of_find _ ancestry
  · intro row member
    exact find_apply_of_kept consistent sanctioned (path.stored row member)
      (rewrite_of_noUpdate rfl row)
  · exact find_apply_of_inserted consistent sanctioned List.mem_cons_self

theorem effective_of_active {own : NodeRow} {above : List NodeRow}
    (active : ∀ row ∈ own :: above, row.status = .active) :
    view own above = ⟨own, .active⟩ := by
  have isActive : own.status.effective (above.map NodeRow.status) = .active := by
    apply NodeStatus.effective_eq_active.mpr
    refine ⟨active own List.mem_cons_self, ?_⟩
    intro status member
    obtain ⟨row, rowMember, rfl⟩ := List.mem_map.mp member
    exact active row (List.mem_cons_of_mem _ rowMember)
  rw [view, isActive]

/-- The rows above a new team or project are exactly the locked ones. -/
theorem team_ancestry {call : Call} {org id : Uuid} {slug name : String}
    {parent : NodeRow} {above : List NodeRow}
    (path : Path db locks txn call (parent :: above))
    (isCall : call = .createTeam org id slug name)
    (complete : call.nextRow (parent :: above) = .complete) :
    (parent :: above).map NodeRow.key = [.organization org] := by
  subst isCall
  obtain ⟨_, isParent, _⟩ := path.own rfl
  have ancestry := path.ancestors rfl complete
  rw [List.map_cons, ancestry, isParent]
  cases place : parent.place <;>
    simp [NodeRow.key, place, Place.key, Place.ancestors] at isParent ⊢

theorem project_ancestry {call : Call} {org team id : Uuid}
    {slug name : String} {parent : NodeRow} {above : List NodeRow}
    (path : Path db locks txn call (parent :: above))
    (isCall : call = .createProject org team id slug name)
    (complete : call.nextRow (parent :: above) = .complete) :
    (parent :: above).map NodeRow.key = [.team team, .organization org] := by
  subst isCall
  obtain ⟨_, isParent, _⟩ := path.own rfl
  have ancestry := path.ancestors rfl complete
  have place : parent.place = .team org := by
    by_contra other
    simp [Call.nextRow, Call.anchor, Call.refuses, other] at complete
  rw [List.map_cons, ancestry, isParent, place]
  rfl

/-- What a commit of the call guarantees about the rows before and after. -/
structure Guarded (db next : Db) (call : Call) (changes : Changes) :
    Prop where
  before : ∀ key, call.guards = some key → db.ChainActive key
  after : ∀ key ∈ call.subjects, next.ChainActive key
  described : ∀ event ∈ changes.events, next.Describes event

theorem guarded_creation {call : Call} {target : NodeRow} {parent : NodeRow}
    {above : List NodeRow} {stamp : Stamp} {key : NodeKey} {mode : LockMode}
    (consistent : db.Consistent)
    (sanctioned : Sanctioned db locks txn (creation ⟨target, .active⟩ stamp))
    (path : Path db locks txn call (parent :: above))
    (complete : call.nextRow (parent :: above) = .complete)
    (isAnchor : call.anchor = some (key, mode))
    (guards : call.guards = some key) (subjects : call.subjects = [target.key])
    (ancestry : (parent :: above).map NodeRow.key = target.place.ancestors)
    (created : target.status = .active)
    (active : (view parent above).effectiveStatus ≠ .archived) :
    Guarded db (db.apply (creation ⟨target, .active⟩ stamp)) call
      (creation ⟨target, .active⟩ stamp) := by
  obtain ⟨_, isParent, _⟩ := path.own isAnchor
  have rowsActive := active_of_view active
  have allActive : ∀ row ∈ target :: parent :: above, row.status = .active := by
    intro row member
    rcases List.mem_cons.mp member with rfl | higher
    · exact created
    · exact rowsActive row higher
  have isChain := chainOf_creation consistent sanctioned path ancestry
  constructor
  · intro guarded isGuarded
    rw [guards] at isGuarded
    cases isGuarded
    rw [← isParent]
    exact ⟨_, path.chainOf consistent (by simp [isAnchor]) complete, rowsActive⟩
  · intro subject member
    rw [subjects, List.mem_singleton] at member
    rw [member]
    exact ⟨_, isChain, allActive⟩
  · intro event member
    rw [List.mem_singleton.mp member]
    exact Db.Shows.describes
      ⟨parent :: above, isChain, (effective_of_active allActive).symm⟩
      (Db.apply_uniqueNodes consistent sanctioned) _ _ _

theorem guarded_organization {id team grant : Uuid} {slug name : String}
    {stamp : Stamp} {changes : Changes} (consistent : db.Consistent)
    (isChanges : changes = createOrganizationIn id team grant slug name stamp)
    (sanctioned : Sanctioned db locks txn changes) :
    Guarded db (db.apply changes)
      (.createOrganization id team grant slug name) changes := by
  let organization := newNode id .organization slug name stamp
  let defaultTeam := newNode team (.team id) "default" "Default" stamp
  have inserted : changes.inserted = [organization, defaultTeam] := by
    rw [isChanges]
    rfl
  have unique := Db.apply_uniqueNodes consistent sanctioned
  have found : ∀ row ∈ [organization, defaultTeam],
      (db.apply changes).find row.key = some row := by
    intro row member
    rw [← inserted] at member
    exact find_apply_of_inserted consistent sanctioned member
  have orgFound := found organization List.mem_cons_self
  have orgChain : (db.apply changes).chainOf organization.key =
      some [organization] := chainOf_of_find orgFound rfl (by simp)
  have teamChain : (db.apply changes).chainOf defaultTeam.key =
      some [defaultTeam, organization] := by
    apply chainOf_of_find _ rfl
    · intro row member
      rw [List.mem_singleton.mp member]
      exact orgFound
    · exact found defaultTeam (by simp)
  constructor
  · rintro key ⟨⟩
  · intro key member
    rcases List.mem_cons.mp member with rfl | member
    · exact ⟨_, orgChain, by simp [organization, newNode]⟩
    · rw [List.mem_singleton.mp member]
      exact ⟨_, teamChain, by simp [organization, defaultTeam, newNode]⟩
  · intro event member
    rw [isChanges] at member
    simp only [createOrganizationIn, List.mem_cons, List.not_mem_nil,
      or_false] at member
    rcases member with rfl | rfl | rfl
    · exact Db.Shows.describes ⟨[], orgChain, rfl⟩ unique _ _ _
    · exact Db.Shows.describes ⟨[organization], teamChain, rfl⟩ unique _ _ _
    · rintro payload ⟨⟩

/-- The commit of a call, case by case. -/
theorem Written.guarded {request : Request} {seen : List NodeRow}
    (written : Written request seen changes) (consistent : db.Consistent)
    (sanctioned : Sanctioned db locks txn changes)
    (path : Path db locks txn request.call seen)
    (complete : request.call.nextRow seen = .complete) :
    Guarded db (db.apply changes) request.call changes := by
  cases written with
  | organization seen isCall =>
      rw [isCall]
      exact guarded_organization consistent rfl sanctioned
  | team isCall active =>
      have ancestry := team_ancestry path isCall complete
      rw [isCall] at path complete ⊢
      exact guarded_creation consistent sanctioned path complete rfl rfl rfl
        ancestry rfl active
  | project isCall active =>
      have ancestry := project_ancestry path isCall complete
      rw [isCall] at path complete ⊢
      exact guarded_creation consistent sanctioned path complete rfl rfl rfl
        ancestry rfl active
  | @renamed node newSlug newName own above out isCall result =>
      obtain ⟨active, isView, sameId, samePlace, sameStatus⟩ :=
        renameIn_spec result
      rw [isCall] at path complete ⊢
      obtain ⟨_, isOwn, _⟩ := path.own rfl
      have rowsActive := active_of_view active
      constructor
      · rintro key ⟨⟩
        rw [← isOwn]
        exact ⟨_, path.chainOf consistent rfl complete, rowsActive⟩
      · intro key member
        rw [List.mem_singleton.mp member, ← isOwn]
        refine ⟨_, chainOf_mutation consistent sanctioned path rfl complete
          sameId samePlace, ?_⟩
        intro row rowMember
        rcases List.mem_cons.mp rowMember with rfl | higher
        · split
          · rw [sameStatus]
            exact rowsActive own List.mem_cons_self
          · exact rowsActive own List.mem_cons_self
        · exact rowsActive row (List.mem_cons_of_mem _ higher)
      · exact shows_mutation consistent sanctioned path rfl complete isView
          sameId samePlace
  | @statusSet node status own above isCall =>
      obtain ⟨isView, sameId, samePlace⟩ :=
        setStatusIn_spec own above status request.stamp
      rw [isCall] at path complete ⊢
      constructor
      · rintro key ⟨⟩
      · intro key member
        cases member
      · exact shows_mutation consistent sanctioned path rfl complete isView
          sameId samePlace
  | @attached id principal node own above isCall active =>
      rw [isCall] at path complete ⊢
      obtain ⟨_, isOwn, _⟩ := path.own rfl
      have rowsActive := active_of_view active
      constructor
      · rintro key ⟨⟩
        rw [← isOwn]
        exact ⟨_, path.chainOf consistent rfl complete, rowsActive⟩
      · intro key member
        rw [List.mem_singleton.mp member, ← isOwn]
        refine ⟨own :: above, ?_, rowsActive⟩
        have kept : ∀ row ∈ own :: above,
            (db.apply (attachment id principal.uuid own request.stamp)).find
              row.key = some row := by
          intro row rowMember
          exact find_apply_of_kept consistent sanctioned
            (path.stored row rowMember) (rewrite_of_noUpdate rfl row)
        apply chainOf_of_find (kept own List.mem_cons_self)
          (path.ancestors rfl complete)
        intro row rowMember
        exact kept row (List.mem_cons_of_mem _ rowMember)
      · intro event member
        rw [List.mem_singleton.mp member]
        rintro payload ⟨⟩

theorem Explained.described {request : Option Request} {seen : List NodeRow}
    (explained : Explained db request seen changes) (noRequest : request = none)
    (next : Db) : ∀ event ∈ changes.events, next.Describes event := by
  intro event member payload isPayload
  cases explained with
  | request request seen changes computed => cases noRequest
  | detach target stamp stored =>
      obtain ⟨record, _, rfl⟩ := List.mem_map.mp member
      cases isPayload
  | grant grant stamp =>
      rw [List.mem_singleton.mp member] at isPayload
      cases isPayload
  | seed grant issuer correlation =>
      rw [List.mem_singleton.mp member] at isPayload
      cases isPayload
  | revoke grant stamp =>
      rw [List.mem_singleton.mp member] at isPayload
      cases isPayload

end Commit

namespace World

/-- The transaction commits these changes in this step. -/
def Commits (world : World) (txn : Nat) (request : Option Request)
    (changes : Changes) (next : World) : Prop :=
  (∃ seen, world.txns txn = some (.ready request seen changes)) ∧
    world.step (.advance txn) = some next

theorem Commits.db_eq {world next : World} {txn : Nat}
    {request : Option Request} {changes : Changes}
    (commits : world.Commits txn request changes next) :
    next.db = world.db.apply changes := by
  obtain ⟨⟨seen, current⟩, stepped⟩ := commits
  simp only [step, current, advance, Option.some.injEq] at stepped
  rw [← stepped]
  rfl

/-- In every interleaving, a create, a rename or an attach commits only while
the chain of its node is active, and every event of a commit describes its node
as the commit leaves it. -/
theorem commits_guarded {world next : World} {txn : Nat}
    {request : Option Request} {changes : Changes}
    (reachable : Reachable step initial world)
    (commits : world.Commits txn request changes next) :
    next.db.events = world.db.events ++ changes.events ∧
      (∀ event ∈ changes.events, next.db.Describes event) ∧
      ∀ origin, request = some origin →
        (∀ key, origin.call.guards = some key → world.db.ChainActive key) ∧
          ∀ key ∈ origin.call.subjects, next.db.ChainActive key := by
  rw [commits.db_eq]
  obtain ⟨⟨seen, current⟩, _⟩ := commits
  have sound := reachable_sound reachable
  obtain ⟨sanctioned, explained, origin⟩ := sound.phases txn _ current
  refine ⟨rfl, ?_⟩
  cases request with
  | none => exact ⟨explained.described rfl _, by simp⟩
  | some request =>
      cases explained with
      | request request seen changes computed =>
          obtain ⟨path, complete⟩ := origin request rfl
          obtain ⟨before, after, described⟩ :=
            (Request.written computed).guarded sound.consistent sanctioned path
              complete
          refine ⟨described, ?_⟩
          rintro _ ⟨⟩
          exact ⟨before, after⟩

section ConcurrentRename

def sampleStamp (instant : Timestamp) : Stamp := ⟨instant, 7, 8⟩

def renameTeam : Request :=
  ⟨.rename (.team 3) none (some "Core"), sampleStamp 30⟩

/-- A rename of the default team locks its rows while an archive of the
organization waits for them. -/
def renameRun : List Action :=
  [.register 7,
    .start 0 ⟨.createOrganization 2 3 4 "acme" "Acme", sampleStamp 10⟩,
    .advance 0, .advance 0, .advance 0,
    .start 1 renameTeam, .advance 1,
    .start 2 ⟨.setStatus (.organization 2) .archived, sampleStamp 20⟩,
    .advance 1, .advance 1, .advance 1]

theorem renameRun_guarded :
    ∃ world next changes, Reachable step initial world ∧
      world.Commits 1 (some renameTeam) changes next ∧
      world.db.ChainActive (.team 3) ∧ next.db.ChainActive (.team 3) ∧
      ∀ event ∈ changes.events, next.db.Describes event := by
  have facts : ∃ seen changes,
      (runFrom step initial renameRun).bind (fun world => world.txns 1) =
        some (.ready (some renameTeam) seen changes) := ⟨_, _, rfl⟩
  obtain ⟨seen, changes, isReady⟩ := facts
  obtain ⟨world, run, current⟩ := Option.bind_eq_some_iff.mp isReady
  have reachable : Reachable step initial world := ⟨renameRun, run⟩
  have commits : world.Commits 1 (some renameTeam) changes
      ((world.commit 1 changes).moveTo 1
        (answer (some renameTeam) changes)) := by
    refine ⟨⟨seen, current⟩, ?_⟩
    rw [step, current]
    rfl
  obtain ⟨_, described, origin⟩ := commits_guarded reachable commits
  obtain ⟨before, after⟩ := origin renameTeam rfl
  exact ⟨world, _, changes, reachable, commits, before _ rfl,
    after _ List.mem_cons_self, described⟩

end ConcurrentRename

end World

end Paigasus.Tenancy
