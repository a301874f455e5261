import Paigasus.Foundation.OffsetPaging
import Paigasus.Tenancy.Soundness

/-!
# The memberships of a principal context

`load_all_memberships` reads the memberships of a principal page by page, each
page in a statement of its own, while transactions attach and detach.  The
listing is ordered by creation, and a page is found by its offset.
-/

namespace Paigasus.Tenancy

open Foundation Kernel Core Roles

def membershipPageSize : Nat := 200

/-- `ORDER BY created_at, id`. -/
def MembershipRecord.listedBefore (left right : MembershipRecord) : Prop :=
  left.createdAt < right.createdAt ∨
    left.createdAt = right.createdAt ∧ left.id.value ≤ right.id.value

instance : DecidableRel MembershipRecord.listedBefore :=
  fun left right => inferInstanceAs (Decidable
    (left.createdAt < right.createdAt ∨
      left.createdAt = right.createdAt ∧ left.id.value ≤ right.id.value))

namespace Db

def membershipsOf (db : Db) (principal : Uuid) : List MembershipRow :=
  db.memberships.filter fun row => row.principal = principal

/-- The rows that `list_by_principal` selects, in its order. -/
def principalListing (db : Db) (principal : Uuid) : List MembershipRecord :=
  ((db.membershipsOf principal).filterMap db.record?).insertionSort
    MembershipRecord.listedBefore

def listByPrincipal (db : Db) (principal : Uuid) (limit offset : Nat) :
    List MembershipRecord :=
  ((db.principalListing principal).drop offset).take limit

end Db

inductive Loading where
  | reading
  | returned
  | failed
deriving DecidableEq

/-- A call of `load_all_memberships` beside the transactions.  `during` are the
committed rows from the start of the call until it ends. -/
structure Introspection where
  world : World
  offset : Nat
  all : List MembershipRecord
  loading : Loading
  during : List Db

/-- A step of a transaction, or the read of a page, which may fail. -/
inductive Interleaved where
  | tenancy (action : Action)
  | readPage (fails : Bool)

namespace Introspection

def begins (world : World) : Introspection :=
  { world := world
    offset := 0
    all := []
    loading := .reading
    during := [world.db] }

/-- One round of the loop. -/
def readPage (introspection : Introspection) (principal : Uuid) :
    Introspection :=
  let page := introspection.world.db.listByPrincipal principal
    membershipPageSize introspection.offset
  let all := introspection.all ++ page
  if page.length < membershipPageSize then
    { introspection with
      all := all
      loading := .returned }
  else
    { introspection with
      offset := introspection.offset + membershipPageSize
      all := all }

/-- The rows after a step of a transaction, as the call sees them. -/
def follow (introspection : Introspection) (next : World) : Introspection :=
  match introspection.loading with
  | .reading =>
      { introspection with
        world := next
        during := next.db :: introspection.during }
  | _ => { introspection with world := next }

def step (principal : Uuid) (introspection : Introspection) :
    Interleaved → Option Introspection
  | .tenancy action =>
      (introspection.world.step action).map introspection.follow
  | .readPage fails =>
      match introspection.loading with
      | .reading =>
          if fails then some { introspection with loading := .failed }
          else some (introspection.readPage principal)
      | _ => none

/-- The call as a reader of the listing. -/
def paging (introspection : Introspection) : Paging MembershipRecord :=
  ⟨introspection.offset, introspection.all,
    introspection.loading = .returned⟩

/-- The membership of the principal is there during the whole call. -/
def Stands (principal : Uuid) (introspection : Introspection)
    (row : MembershipRow) : Prop :=
  ∀ db ∈ introspection.during, row ∈ db.membershipsOf principal

def StandsAs (principal : Uuid) (introspection : Introspection) (id : Uuid) :
    Prop :=
  ∃ row, introspection.Stands principal row ∧ row.id = id

/-- When a page is read, no membership that was returned stands from the offset
on, and none that has been there all the time stands unread before it. -/
def PageAligned (principal : Uuid) (introspection : Introspection) :
    Interleaved → Prop
  | .readPage false => introspection.paging.Aligned MembershipRecord.id
      (introspection.StandsAs principal)
      (introspection.world.db.principalListing principal)
  | _ => True

end Introspection

namespace Db

variable {db : Db} {principal : Uuid}

/-- Every membership can be listed: its principal and its node are stored. -/
theorem record?_of_mem (consistent : db.Consistent) {row : MembershipRow}
    (member : row ∈ db.memberships) :
    ∃ record, db.record? row = some record ∧ record.id = row.id := by
  obtain ⟨node, stored, isNode⟩ := consistent.memberNodes row member
  have found : db.find row.node = some node := by
    rw [← isNode]
    exact find_of_mem consistent.uniqueNodes stored
  have known := consistent.memberPrincipals row member
  refine ⟨⟨row.id, (PrincipalId.fromUuid row.principal).canonical, node.prn,
    row.createdAt, row.createdBy⟩, ?_, rfl⟩
  simp [record?, known, found]

theorem map_id_filterMap_record? (consistent : db.Consistent)
    {rows : List MembershipRow} (members : ∀ row ∈ rows, row ∈ db.memberships) :
    (rows.filterMap db.record?).map MembershipRecord.id =
      rows.map MembershipRow.id := by
  induction rows with
  | nil => rfl
  | cons row rest ih =>
      obtain ⟨record, isRecord, sameId⟩ :=
        record?_of_mem consistent (members row List.mem_cons_self)
      rw [List.filterMap_cons_some isRecord, List.map_cons, List.map_cons,
        sameId, ih]
      intro later member
      exact members later (List.mem_cons_of_mem _ member)

theorem perm_principalListing (consistent : db.Consistent) :
    ((db.principalListing principal).map MembershipRecord.id).Perm
      ((db.membershipsOf principal).map MembershipRow.id) := by
  have listed : ((db.membershipsOf principal).filterMap db.record?).map
      MembershipRecord.id = (db.membershipsOf principal).map MembershipRow.id :=
    map_id_filterMap_record? consistent fun _ member =>
      List.mem_of_mem_filter member
  rw [← listed]
  exact (List.perm_insertionSort _ _).map _

theorem nodup_principalListing (consistent : db.Consistent) :
    ((db.principalListing principal).map MembershipRecord.id).Nodup := by
  apply (perm_principalListing consistent).nodup_iff.mpr
  exact consistent.uniqueIds.sublist (List.filter_sublist.map _)

theorem record?_createdAt {row : MembershipRow} {record : MembershipRecord}
    (isRecord : db.record? row = some record) :
    record.createdAt = row.createdAt := by
  unfold record? at isRecord
  split at isRecord
  case isTrue =>
    obtain ⟨node, _, rfl⟩ := Option.map_eq_some_iff.mp isRecord
    rfl
  case isFalse => cases isRecord

/-- Rows that are stored in the order of their creation are listed so. -/
theorem ids_principalListing (consistent : db.Consistent)
    (ordered : (db.membershipsOf principal).Pairwise fun left right =>
      left.createdAt < right.createdAt) :
    (db.principalListing principal).map MembershipRecord.id =
      (db.membershipsOf principal).map MembershipRow.id := by
  have sorted : ((db.membershipsOf principal).filterMap db.record?).Pairwise
      MembershipRecord.listedBefore := by
    apply List.pairwise_filterMap.mpr
    apply ordered.imp
    intro left right earlier leftRecord isLeft rightRecord isRight
    left
    rw [record?_createdAt isLeft, record?_createdAt isRight]
    exact earlier
  rw [principalListing, sorted.insertionSort_eq]
  exact map_id_filterMap_record? consistent fun _ member =>
    List.mem_of_mem_filter member

end Db

namespace Introspection

/-- What holds of a call at all times: what was returned repeats nothing, and in
the end it contains every membership that was there during the whole call. -/
structure Sees (principal : Uuid) (introspection : Introspection) : Prop where
  sound : introspection.world.Sound
  current : introspection.loading = .reading →
    introspection.world.db ∈ introspection.during
  nodup : (introspection.all.map MembershipRecord.id).Nodup
  complete : introspection.loading = .returned →
    ∀ id, introspection.StandsAs principal id →
      id ∈ introspection.all.map MembershipRecord.id

variable {principal : Uuid} {introspection next : Introspection}

theorem sees_begins {world : World} (sound : world.Sound) :
    Sees principal (begins world) where
  sound := sound
  current := fun _ => List.mem_singleton_self world.db
  nodup := List.nodup_nil
  complete := nofun

/-- A page read is the step of the reader of the listing. -/
theorem paging_readPage (reading : introspection.loading = .reading) :
    (introspection.readPage principal).paging =
      introspection.paging.next membershipPageSize
        (introspection.world.db.principalListing principal) := by
  have samePage : introspection.world.db.listByPrincipal principal
      membershipPageSize introspection.offset =
      introspection.paging.page membershipPageSize
        (introspection.world.db.principalListing principal) := rfl
  unfold readPage Paging.next
  dsimp only
  rw [samePage]
  split
  · rfl
  · simp [paging, reading]

theorem readPage_all (reading : introspection.loading = .reading) :
    (introspection.readPage principal).all =
      (introspection.paging.next membershipPageSize
        (introspection.world.db.principalListing principal)).all :=
  congrArg Paging.all (paging_readPage reading)

theorem readPage_world :
    (introspection.readPage principal).world = introspection.world := by
  unfold readPage
  dsimp only
  split
  · rfl
  · rfl

theorem readPage_during :
    (introspection.readPage principal).during = introspection.during := by
  unfold readPage
  dsimp only
  split
  · rfl
  · rfl

theorem sees_follow {action : Action} {world : World}
    (sees : introspection.Sees principal)
    (stepped : introspection.world.step action = some world) :
    Sees principal (introspection.follow world) := by
  have sound := World.step_sound sees.sound stepped
  unfold follow
  split
  case h_1 reading =>
    refine ⟨sound, fun _ => List.mem_cons_self, sees.nodup, ?_⟩
    intro returned
    rw [show introspection.loading = .returned from returned] at reading
    cases reading
  case h_2 notReading =>
    refine ⟨sound, ?_, sees.nodup, sees.complete⟩
    intro reading
    exact absurd reading notReading

theorem sees_readPage (sees : introspection.Sees principal)
    (reading : introspection.loading = .reading)
    (aligned : introspection.PageAligned principal (.readPage false)) :
    Sees principal (introspection.readPage principal) where
  sound := by
    rw [readPage_world]
    exact sees.sound
  current := by
    intro _
    rw [readPage_world, readPage_during]
    exact sees.current reading
  nodup := by
    have unique : ((introspection.world.db.principalListing principal).map
        MembershipRecord.id).Nodup :=
      Db.nodup_principalListing sees.sound.consistent
    rw [readPage_all reading]
    exact Paging.next_nodup aligned unique sees.nodup
  complete := by
    intro returned id standsAs
    obtain ⟨row, stands, rfl⟩ := standsAs
    rw [Stands, readPage_during] at stands
    have listed : row.id ∈
        (introspection.world.db.principalListing principal).map
          MembershipRecord.id := by
      apply (Db.perm_principalListing sees.sound.consistent).mem_iff.mpr
      exact List.mem_map_of_mem (stands _ (sees.current reading))
    have finished :
        (introspection.readPage principal).paging.finished = true := by
      simpa [paging] using returned
    rw [paging_readPage reading] at finished
    rw [readPage_all reading]
    exact Paging.next_complete aligned finished listed ⟨row, stands, rfl⟩

theorem sees_step {event : Interleaved} (sees : introspection.Sees principal)
    (aligned : introspection.PageAligned principal event)
    (stepped : introspection.step principal event = some next) :
    next.Sees principal := by
  cases event with
  | tenancy action =>
      obtain ⟨world, moved, rfl⟩ := Option.map_eq_some_iff.mp stepped
      exact sees_follow sees moved
  | readPage fails =>
      unfold step at stepped
      dsimp only at stepped
      split at stepped
      case h_1 reading =>
        split at stepped
        case isTrue =>
          cases stepped
          exact ⟨sees.sound, nofun, sees.nodup, nofun⟩
        case isFalse acts =>
          cases stepped
          rw [Bool.not_eq_true] at acts
          subst acts
          exact sees_readPage sees reading aligned
      case h_2 => cases stepped

end Introspection

/-- In every run in which each page is read aligned, the returned list contains
no membership twice, and each membership that was there during the whole call
once. -/
theorem load_sees_standing (world : World) (principal : Uuid)
    (events : List Interleaved) (final : Introspection) (sound : world.Sound)
    (run : runFrom (Introspection.step principal) (.begins world) events =
      some final)
    (aligned : EveryStep (Introspection.step principal)
      (Introspection.PageAligned principal) (.begins world) events)
    (returned : final.loading = .returned) :
    (final.all.map MembershipRecord.id).Nodup ∧
      ∀ row, final.Stands principal row →
        (final.all.map MembershipRecord.id).count row.id = 1 := by
  have sees : final.Sees principal := by
    refine runFrom_invariant_of_everyStep ?_ (Introspection.sees_begins sound)
      aligned run
    intro introspection event next sees here stepped
    exact Introspection.sees_step sees here stepped
  refine ⟨sees.nodup, ?_⟩
  intro row stands
  apply List.count_eq_one_of_mem sees.nodup
  exact sees.complete returned row.id ⟨row, stands, rfl⟩

namespace Introspection

variable {introspection : Introspection} {principal : Uuid}

/-- The listed memberships up to an offset. -/
def passed (principal : Uuid) (offset : Nat) (db : Db) : List Uuid :=
  ((db.principalListing principal).take offset).map MembershipRecord.id

/-- While pages are read, a commit leaves the listing as it is up to the offset
of the next page. -/
def KeepsPassed (principal : Uuid) (introspection : Introspection) :
    Interleaved → Prop
  | .tenancy action => ∀ next, introspection.world.step action = some next →
      introspection.loading = .reading →
      passed principal introspection.offset next.db =
        passed principal introspection.offset introspection.world.db
  | .readPage _ => True

/-- What was returned is the listing up to the offset. -/
structure ReadsPassed (principal : Uuid) (introspection : Introspection) :
    Prop where
  sound : introspection.world.Sound
  same : introspection.loading = .reading →
    introspection.all.map MembershipRecord.id =
      passed principal introspection.offset introspection.world.db

theorem readsPassed_readPage (reads : introspection.ReadsPassed principal)
    (reading : introspection.loading = .reading) :
    ReadsPassed principal (introspection.readPage principal) := by
  have same := reads.same reading
  refine ⟨by rw [readPage_world]; exact reads.sound, ?_⟩
  intro stillReading
  unfold readPage at stillReading ⊢
  dsimp only at stillReading ⊢
  split
  case isTrue short =>
    rw [if_pos short] at stillReading
    cases stillReading
  case isFalse =>
    dsimp only
    unfold passed at same ⊢
    rw [List.map_append, same, List.take_add, List.map_append]
    rfl

theorem readsPassed_step {event : Interleaved} {next : Introspection}
    (reads : introspection.ReadsPassed principal)
    (keeps : introspection.KeepsPassed principal event)
    (stepped : introspection.step principal event = some next) :
    next.ReadsPassed principal := by
  cases event with
  | tenancy action =>
      obtain ⟨world, moved, rfl⟩ := Option.map_eq_some_iff.mp stepped
      have sound := World.step_sound reads.sound moved
      unfold follow
      split
      case h_1 reading =>
        refine ⟨sound, ?_⟩
        intro _
        exact (reads.same reading).trans (keeps world moved reading).symm
      case h_2 notReading =>
        refine ⟨sound, ?_⟩
        intro reading
        exact absurd reading notReading
  | readPage fails =>
      unfold step at stepped
      dsimp only at stepped
      split at stepped
      case h_1 reading =>
        split at stepped
        case isTrue =>
          cases stepped
          exact ⟨reads.sound, nofun⟩
        case isFalse =>
          cases stepped
          exact readsPassed_readPage reads reading
      case h_2 => cases stepped

theorem aligned_of_readsPassed {event : Interleaved} {next : Introspection}
    (reads : introspection.ReadsPassed principal)
    (stepped : introspection.step principal event = some next) :
    introspection.PageAligned principal event := by
  cases event with
  | tenancy action => trivial
  | readPage fails =>
      cases fails with
      | true => trivial
      | false =>
          cases phase : introspection.loading with
          | reading =>
              exact Paging.aligned_of_prefix
                (Db.nodup_principalListing reads.sound.consistent)
                (reads.same phase)
          | returned =>
              rw [step, phase] at stepped
              cases stepped
          | failed =>
              rw [step, phase] at stepped
              cases stepped

/-- Where every commit leaves the listing as it is up to the offset, every page
is read aligned. -/
theorem aligned_of_keepsPassed {world : World} (sound : world.Sound)
    {events : List Interleaved} {final : Introspection}
    (keeps : EveryStep (step principal) (KeepsPassed principal)
      (begins world) events)
    (run : runFrom (step principal) (begins world) events = some final) :
    EveryStep (step principal) (PageAligned principal) (begins world)
      events := by
  have initially : (begins world).ReadsPassed principal :=
    ⟨sound, fun _ => rfl⟩
  exact everyStep_of_invariant
    (fun _ _ _ reads here stepped => readsPassed_step reads here stepped)
    (fun _ _ _ reads _ stepped => aligned_of_readsPassed reads stepped)
    initially keeps run

theorem step_full (reading : introspection.loading = .reading)
    (full : (introspection.world.db.listByPrincipal principal
      membershipPageSize introspection.offset).length = membershipPageSize) :
    introspection.step principal (.readPage false) = some { introspection with
      offset := introspection.offset + membershipPageSize
      all := introspection.all ++ introspection.world.db.listByPrincipal
        principal membershipPageSize introspection.offset } := by
  simp [step, reading, readPage, full]

theorem step_short (reading : introspection.loading = .reading)
    (short : (introspection.world.db.listByPrincipal principal
      membershipPageSize introspection.offset).length < membershipPageSize) :
    introspection.step principal (.readPage false) = some { introspection with
      all := introspection.all ++ introspection.world.db.listByPrincipal
        principal membershipPageSize introspection.offset
      loading := .returned } := by
  simp [step, reading, readPage, short]

/-- The committed rows after each of the steps, the latest first. -/
def states : World → List Action → List Db
  | _, [] => []
  | world, action :: rest =>
      match world.step action with
      | none => []
      | some next => states next rest ++ [next.db]

theorem follow_reading (reading : introspection.loading = .reading)
    (next : World) : introspection.follow next = { introspection with
      world := next
      during := next.db :: introspection.during } := by
  unfold follow
  rw [reading]

/-- Commits beside the call that leave the passed rows as they are. -/
theorem keepsPassed_tenancy {actions : List Action}
    (kept : EveryStep World.step (fun world action =>
      ∀ next, world.step action = some next →
        passed principal introspection.offset next.db =
          passed principal introspection.offset world.db)
      introspection.world actions) :
    EveryStep (step principal) (KeepsPassed principal) introspection
      (actions.map .tenancy) := by
  induction actions generalizing introspection with
  | nil => trivial
  | cons action rest ih =>
      obtain ⟨here, later⟩ := kept
      refine ⟨fun next stepped _ => here next stepped, ?_⟩
      intro followed isFollowed
      obtain ⟨next, stepped, rfl⟩ := Option.map_eq_some_iff.mp isFollowed
      have world : (introspection.follow next).world = next := by
        unfold follow
        split <;> rfl
      have offset : (introspection.follow next).offset =
          introspection.offset := by
        unfold follow
        split <;> rfl
      apply ih
      rw [world, offset]
      exact later next stepped

/-- The steps of the transactions between two pages. -/
theorem run_tenancy {actions : List Action} {after : World}
    (reading : introspection.loading = .reading)
    (run : runFrom World.step introspection.world actions = some after) :
    runFrom (step principal) introspection (actions.map .tenancy) =
      some { introspection with
        world := after
        during := states introspection.world actions ++
          introspection.during } := by
  induction actions generalizing introspection with
  | nil =>
      cases run
      rfl
  | cons action rest ih =>
      obtain ⟨next, stepped, remaining⟩ := runFrom_cons.mp run
      apply runFrom_cons.mpr
      refine ⟨introspection.follow next, by simp [step, stepped], ?_⟩
      rw [follow_reading reading]
      have followed := @ih { introspection with
        world := next
        during := next.db :: introspection.during } reading remaining
      refine followed.trans ?_
      simp [states, stepped]

/-- A call that has read its first page, a full one. -/
def opened (world : World) (principal : Uuid) : Introspection :=
  { begins world with
    offset := membershipPageSize
    all := world.db.listByPrincipal principal membershipPageSize 0 }

theorem step_opened {world : World}
    (full : (world.db.listByPrincipal principal membershipPageSize 0).length =
      membershipPageSize) :
    (begins world).step principal (.readPage false) =
      some (opened world principal) :=
  @step_full (begins world) principal rfl full

/-- A full page, steps of the transactions, and a short page. -/
theorem run_two_pages {world after : World} {actions : List Action}
    (full : (world.db.listByPrincipal principal membershipPageSize 0).length =
      membershipPageSize)
    (run : runFrom World.step world actions = some after)
    (short : (after.db.listByPrincipal principal membershipPageSize
      membershipPageSize).length < membershipPageSize) :
    runFrom (step principal) (begins world)
        ([Interleaved.readPage false] ++ actions.map .tenancy ++
          [Interleaved.readPage false]) =
      some
        { world := after
          offset := membershipPageSize
          all := world.db.listByPrincipal principal membershipPageSize 0 ++
            after.db.listByPrincipal principal membershipPageSize
              membershipPageSize
          loading := .returned
          during := states world actions ++ [world.db] } := by
  let last : Introspection := { opened world principal with
    world := after
    during := states world actions ++ [world.db] }
  have between : runFrom (step principal) (opened world principal)
      (actions.map .tenancy) = some last :=
    @run_tenancy (opened world principal) principal actions after rfl run
  have closes := @step_short last principal rfl short
  refine runFrom_append.mpr ⟨last, ?_, ?_⟩
  · exact runFrom_cons.mpr ⟨_, step_opened full, between⟩
  · exact runFrom_cons.mpr ⟨_, closes, rfl⟩

end Introspection

/-- The identifier with this number. -/
def numbered (number : Nat) : Uuid := OfNat.ofNat number

theorem numbered_value (number : Nat) :
    (numbered number).value.val = number % 2 ^ 128 := rfl

theorem numbered_inj {left right : Nat} (leftSmall : left < 2 ^ 128)
    (rightSmall : right < 2 ^ 128) (same : numbered left = numbered right) :
    left = right := by
  have values := congrArg (fun id : Uuid => id.value.val) same
  simp only [numbered_value] at values
  rwa [Nat.mod_eq_of_lt leftSmall, Nat.mod_eq_of_lt rightSmall] at values

/-- A membership on a team, and two hundred on organizations of which there is
one more. -/
def sampleJoined : List MembershipRow :=
  ⟨numbered 1000, numbered 7, .team (numbered 0), 0, none⟩ ::
    (List.range 200).map fun number =>
      ⟨numbered number, numbered 7, .organization (numbered number),
        number + 1, none⟩

def sampleTeam : NodeRow :=
  newNode (numbered 0) (.team (numbered 0)) "t" "T" ⟨0, 7, 8⟩

def sampleOrganization (number : Nat) : NodeRow :=
  newNode (numbered number) .organization "o" "O" ⟨0, 7, 8⟩

def sampleCrowd : Db :=
  { Db.empty with
    nodes := sampleTeam :: (List.range 201).map sampleOrganization
    principals := [numbered 7]
    memberships := sampleJoined }

def sampleWorld : World := ⟨sampleCrowd, [], fun _ => none, []⟩

theorem nodup_range_map {Value : Type} {bound : Nat} {row : Nat → Value}
    (inj : ∀ left right, left < bound → right < bound →
      row left = row right → left = right) :
    ((List.range bound).map row).Nodup := by
  apply List.Nodup.map_on _ List.nodup_range
  intro left leftMember right rightMember same
  exact inj left right (List.mem_range.mp leftMember)
    (List.mem_range.mp rightMember) same

theorem numbered_inj_range (left right : Nat) (leftSmall : left < 201)
    (rightSmall : right < 201) (same : numbered left = numbered right) :
    left = right :=
  numbered_inj (by omega) (by omega) same

theorem mem_sampleJoined {row : MembershipRow} :
    row ∈ sampleJoined ↔
      row = ⟨numbered 1000, numbered 7, .team (numbered 0), 0, none⟩ ∨
        ∃ number < 200, row = ⟨numbered number, numbered 7,
          .organization (numbered number), number + 1, none⟩ := by
  simp [sampleJoined, eq_comm]

theorem sampleCrowd_uniqueNodes :
    (sampleCrowd.nodes.map NodeRow.key).Nodup := by
  refine List.nodup_cons.mpr ⟨?_, ?_⟩
  · simp [sampleTeam, sampleOrganization, NodeRow.key, newNode, Place.key]
  · rw [List.map_map]
    apply nodup_range_map
    intro left right leftSmall rightSmall same
    exact numbered_inj_range _ _ leftSmall rightSmall
      (NodeKey.organization.inj same)

theorem sampleCrowd_consistent : sampleCrowd.Consistent where
  uniqueNodes := sampleCrowd_uniqueNodes
  uniqueIds := by
    refine List.nodup_cons.mpr ⟨?_, ?_⟩
    · intro member
      obtain ⟨row, isRow, same⟩ := List.mem_map.mp member
      obtain ⟨number, small, rfl⟩ := List.mem_map.mp isRow
      have equal := numbered_inj (by have := List.mem_range.mp small; omega)
        (by omega) same
      have := List.mem_range.mp small
      omega
    · rw [List.map_map]
      apply nodup_range_map
      intro left right leftSmall rightSmall same
      exact numbered_inj_range _ _ (by omega) (by omega) same
  uniqueTargets := by
    refine List.nodup_cons.mpr ⟨?_, ?_⟩
    · simp
    · rw [List.map_map]
      apply nodup_range_map
      intro left right leftSmall rightSmall same
      exact numbered_inj_range _ _ (by omega) (by omega)
        (NodeKey.organization.inj (congrArg Prod.snd same))
  memberNodes := by
    intro row member
    rcases mem_sampleJoined.mp member with rfl | ⟨number, small, rfl⟩
    · exact ⟨_, List.mem_cons_self, rfl⟩
    · refine ⟨_, List.mem_cons_of_mem _ (List.mem_map_of_mem
        (List.mem_range.mpr (by omega : number < 201))), rfl⟩
  memberPrincipals := by
    intro row member
    rcases mem_sampleJoined.mp member with rfl | ⟨number, small, rfl⟩
    · exact List.mem_singleton_self _
    · exact List.mem_singleton_self _
  rooted := by
    intro row member org isOrg
    rcases mem_sampleJoined.mp member with rfl | ⟨number, small, rfl⟩
    · refine ⟨_, mem_sampleJoined.mpr (.inr ⟨0, by omega, rfl⟩), rfl, ?_⟩
      have found : sampleCrowd.find (.team (numbered 0)) = some sampleTeam :=
        Db.find_of_mem sampleCrowd_uniqueNodes List.mem_cons_self
      rw [Db.orgOf, found] at isOrg
      cases isOrg
      rfl
    · have found : sampleCrowd.find (.organization (numbered number)) =
          some (sampleOrganization number) :=
        Db.find_of_mem sampleCrowd_uniqueNodes (List.mem_cons_of_mem _
          (List.mem_map_of_mem
            (List.mem_range.mpr (by omega : number < 201))))
      rw [Db.orgOf, found] at isOrg
      cases isOrg

theorem sampleWorld_sound : sampleWorld.Sound where
  consistent := sampleCrowd_consistent
  coexist := RowLock.coexist_nil
  phases := by
    intro txn phase running
    simp [sampleWorld] at running

theorem membershipsOf_sampleCrowd :
    sampleWorld.db.membershipsOf (numbered 7) = sampleJoined := by
  apply List.filter_eq_self.mpr
  intro row member
  rcases mem_sampleJoined.mp member with rfl | ⟨number, small, rfl⟩
  · simp
  · simp

theorem sampleJoined_ordered : sampleJoined.Pairwise fun left right =>
    left.createdAt < right.createdAt := by
  refine List.pairwise_cons.mpr ⟨?_, ?_⟩
  · intro row member
    obtain ⟨number, _, rfl⟩ := List.mem_map.mp member
    show (0 : Int) < number + 1
    omega
  · apply List.pairwise_map.mpr
    apply List.pairwise_lt_range.imp
    intro left right before
    show (left : Int) + 1 < right + 1
    omega

theorem ids_sampleCrowd :
    (sampleWorld.db.principalListing (numbered 7)).map MembershipRecord.id =
      sampleJoined.map MembershipRow.id := by
  rw [← membershipsOf_sampleCrowd]
  apply Db.ids_principalListing sampleWorld_sound.consistent
  rw [membershipsOf_sampleCrowd]
  exact sampleJoined_ordered

/-- The detach of the first membership. -/
def sampleDetach : List Action :=
  .start 0 ⟨.detach (numbered 1000), ⟨9, 7, 8⟩⟩ :: List.replicate 6 (.advance 0)

theorem sampleDetach_run : ∃ after,
    runFrom World.step sampleWorld sampleDetach = some after ∧
      after.db.membershipsOf (numbered 7) = sampleJoined.tail := by
  have run : (runFrom World.step sampleWorld sampleDetach).map
      (fun after => after.db.membershipsOf (numbered 7)) =
        some sampleJoined.tail := by decide +kernel
  exact Option.map_eq_some_iff.mp run

/-- The last membership. -/
def sampleLast : MembershipRow :=
  ⟨numbered 199, numbered 7, .organization (numbered 199), 200, none⟩

theorem sampleLast_stands : ∀ db ∈ Introspection.states sampleWorld
    sampleDetach ++ [sampleWorld.db],
    sampleLast ∈ db.membershipsOf (numbered 7) := by
  decide

theorem length_listByPrincipal {db : Db} {principal : Uuid} {ids : List Uuid}
    (listed : (db.principalListing principal).map MembershipRecord.id = ids)
    (limit offset : Nat) :
    (db.listByPrincipal principal limit offset).length =
      ((ids.drop offset).take limit).length := by
  rw [← listed]
  simp [Db.listByPrincipal]

theorem ids_listByPrincipal {db : Db} {principal : Uuid} {ids : List Uuid}
    (listed : (db.principalListing principal).map MembershipRecord.id = ids)
    (limit offset : Nat) :
    (db.listByPrincipal principal limit offset).map MembershipRecord.id =
      (ids.drop offset).take limit := by
  rw [Db.listByPrincipal, List.map_take, List.map_drop, listed]

theorem sampleCrowd_full :
    (sampleWorld.db.listByPrincipal (numbered 7) membershipPageSize 0).length =
      membershipPageSize :=
  (length_listByPrincipal ids_sampleCrowd _ _).trans (by decide +kernel)

/-- The first membership is detached after two hundred were returned: the last
one moves before the offset, and is never read. -/
theorem detach_hides_standing : ¬ ∀ (world : World) (principal : Uuid)
    (events : List Interleaved) (final : Introspection), world.Sound →
    runFrom (Introspection.step principal) (.begins world) events =
      some final → final.loading = .returned →
    (final.all.map MembershipRecord.id).Nodup ∧
      ∀ row, final.Stands principal row →
        (final.all.map MembershipRecord.id).count row.id = 1 := by
  intro always
  obtain ⟨after, detached, left⟩ := sampleDetach_run
  have sound : after.Sound :=
    runFrom_invariant (fun _ _ _ => World.step_sound) sampleWorld_sound detached
  have idsAfter : (after.db.principalListing (numbered 7)).map
      MembershipRecord.id = sampleJoined.tail.map MembershipRow.id := by
    rw [← left]
    apply Db.ids_principalListing sound.consistent
    rw [left]
    exact sampleJoined_ordered.tail
  have run := @Introspection.run_two_pages (numbered 7) sampleWorld after
    sampleDetach sampleCrowd_full detached
    ((length_listByPrincipal idsAfter _ _).trans_lt (by decide))
  have once := (always _ _ _ _ sampleWorld_sound run rfl).2 sampleLast
    fun db member => sampleLast_stands db member
  dsimp only at once
  rw [List.map_append, ids_listByPrincipal ids_sampleCrowd,
    ids_listByPrincipal idsAfter] at once
  revert once
  decide

/-- The membership that an attach adds between the pages. -/
def sampleNew : MembershipRow :=
  ⟨numbered 1001, numbered 7, .organization (numbered 200), 300,
    some (PrincipalId.fromUuid (numbered 7))⟩

def sampleAttach : List Action :=
  .start 0 ⟨.attach (numbered 1001) (PrincipalId.fromUuid (numbered 7))
    (.organization (OrganizationId.fromUuid (numbered 200))),
    ⟨300, numbered 7, 8⟩⟩ :: List.replicate 4 (.advance 0)

/-- The memberships of the principal before the attach or after it. -/
def AroundAttach (world : World) : Prop :=
  world.db.membershipsOf (numbered 7) = sampleJoined ∨
    world.db.membershipsOf (numbered 7) = sampleJoined ++ [sampleNew]

instance (world : World) : Decidable (AroundAttach world) :=
  inferInstanceAs (Decidable (_ ∨ _))

theorem sampleAttach_around : EveryStep World.step (fun world action =>
    AroundAttach world ∧ ∀ next ∈ world.step action, AroundAttach next)
    sampleWorld sampleAttach := by
  decide +kernel

theorem sampleAttach_run : ∃ after,
    runFrom World.step sampleWorld sampleAttach = some after ∧
      after.db.membershipsOf (numbered 7) = sampleJoined ++ [sampleNew] := by
  have run : (runFrom World.step sampleWorld sampleAttach).map
      (fun after => after.db.membershipsOf (numbered 7)) =
        some (sampleJoined ++ [sampleNew]) := by decide +kernel
  exact Option.map_eq_some_iff.mp run

theorem sampleAttach_stands : ∀ db ∈ Introspection.states sampleWorld
    sampleAttach ++ [sampleWorld.db],
    sampleLast ∈ db.membershipsOf (numbered 7) := by
  decide +kernel

theorem sampleAttached_ordered : (sampleJoined ++ [sampleNew]).Pairwise
    fun left right => left.createdAt < right.createdAt := by
  apply List.pairwise_append.mpr
  refine ⟨sampleJoined_ordered, List.pairwise_singleton _ _, ?_⟩
  intro row member other isNew
  rw [List.mem_singleton.mp isNew]
  rcases mem_sampleJoined.mp member with rfl | ⟨number, small, rfl⟩
  · decide
  · show (number : Int) + 1 < 300
    omega

/-- The attach leaves the first page as it is. -/
theorem passed_around {world : World} (sound : world.Sound)
    (around : AroundAttach world) :
    Introspection.passed (numbered 7) membershipPageSize world.db =
      (sampleJoined.map MembershipRow.id).take membershipPageSize := by
  have listed (rows : List MembershipRow)
      (isRows : world.db.membershipsOf (numbered 7) = rows)
      (ordered : rows.Pairwise fun left right =>
        left.createdAt < right.createdAt) :
      Introspection.passed (numbered 7) membershipPageSize world.db =
        (rows.map MembershipRow.id).take membershipPageSize := by
    subst isRows
    rw [Introspection.passed, List.map_take,
      Db.ids_principalListing sound.consistent ordered]
  rcases around with before | after
  · exact listed _ before sampleJoined_ordered
  · rw [listed _ after sampleAttached_ordered, List.map_append]
    exact List.take_append_of_le_length (by decide +kernel)

/-- An attach is committed between the two pages: the last membership is read
once, and so is the new one. -/
theorem load_sees_standing_sample : ∃ final,
    runFrom (Introspection.step (numbered 7)) (.begins sampleWorld)
      ([Interleaved.readPage false] ++ sampleAttach.map .tenancy ++
        [Interleaved.readPage false]) =
        some final ∧
    (final.all.map MembershipRecord.id).count sampleLast.id = 1 ∧
    sampleNew.id ∈ final.all.map MembershipRecord.id := by
  obtain ⟨after, attached, rows⟩ := sampleAttach_run
  have sound : after.Sound :=
    runFrom_invariant (fun _ _ _ => World.step_sound) sampleWorld_sound attached
  have idsAfter : (after.db.principalListing (numbered 7)).map
      MembershipRecord.id = (sampleJoined ++ [sampleNew]).map
        MembershipRow.id := by
    rw [← rows]
    apply Db.ids_principalListing sound.consistent
    rw [rows]
    exact sampleAttached_ordered
  have run := @Introspection.run_two_pages (numbered 7) sampleWorld after
    sampleAttach sampleCrowd_full attached
    ((length_listByPrincipal idsAfter _ _).trans_lt (by decide))
  have kept : EveryStep World.step (fun world action =>
      ∀ next, world.step action = some next →
        Introspection.passed (numbered 7) membershipPageSize next.db =
          Introspection.passed (numbered 7) membershipPageSize world.db)
      sampleWorld sampleAttach := by
    refine everyStep_of_invariant (fun _ _ _ sound _ => World.step_sound sound)
      ?_ sampleWorld_sound sampleAttach_around attached
    intro world action _ sound around _ next stepped
    rw [passed_around (World.step_sound sound stepped) (around.2 next stepped),
      passed_around sound around.1]
  have keeps : EveryStep (Introspection.step (numbered 7))
      (Introspection.KeepsPassed (numbered 7)) (.begins sampleWorld)
      ([Interleaved.readPage false] ++ sampleAttach.map .tenancy ++
        [Interleaved.readPage false]) := by
    refine ⟨trivial, ?_⟩
    intro opened isOpened
    rw [Introspection.step_opened sampleCrowd_full] at isOpened
    cases isOpened
    have between := @Introspection.run_tenancy
      (Introspection.opened sampleWorld (numbered 7)) (numbered 7) sampleAttach
      after rfl attached
    apply (everyStep_append between).mpr
    exact ⟨Introspection.keepsPassed_tenancy kept, trivial, fun _ _ => trivial⟩
  refine ⟨_, run, ?_, ?_⟩
  · have seen := load_sees_standing sampleWorld (numbered 7) _ _
      sampleWorld_sound run
      (Introspection.aligned_of_keepsPassed sampleWorld_sound keeps run) rfl
    apply seen.2
    intro db member
    exact sampleAttach_stands db member
  · dsimp only
    rw [List.map_append, ids_listByPrincipal idsAfter]
    apply List.mem_append_right
    decide

end Paigasus.Tenancy
