import Mathlib.Data.List.ReduceOption
import Paigasus.Policies.Reconcile

/-!
# The gate before a retirement

A retirement asks first whether the fleet has converged: every remaining starter
row must carry at least the revision of this binary.  Boots stamp the rows they
write, and leave a row that matches its document as it is.
-/

namespace Paigasus.Policies

open Foundation Core Cedar

variable {Condition : Type}

/-- A stored value outside its domain. -/
structure BackendError where
  message : String
deriving DecidableEq

/-- The stored revision as an unsigned number. -/
def u32OfRevision (stored : I32) : Except BackendError Nat :=
  if stored.val < 0 then
    .error ⟨"policy.starter_revision is negative: " ++ toString stored.val⟩
  else
    .ok stored.val.toNat

namespace PolicyStore

def starterRows (store : PolicyStore) : List PolicyModel :=
  store.rows.filter fun row => isStarterPolicyId row.policyId

/-- The lowest revision of the starter rows; nothing when a row carries none,
or when there is no row. -/
def minStarterRevision (store : PolicyStore) :
    Except BackendError (Option Nat) :=
  let revisions := store.starterRows.map PolicyModel.starterRevision
  if revisions.isEmpty then
    .ok none
  else if revisions.any Option.isNone then
    .ok none
  else do
    let revisions ← revisions.reduceOption.mapM u32OfRevision
    return revisions.min?

end PolicyStore

/-- Why the check of the actor's authority did not pass: the decision was a
denial, or none was reached. -/
inductive CheckRefusal where
  | forbidden
  | undecided
deriving DecidableEq

inductive RetireRefusal where
  | check (refusal : CheckRefusal)
  | systemImmutable (policyId : String)
  | fleetNotConverged
  | internal
deriving DecidableEq

/-- What `retire` checks before it opens its transaction; nothing after that
answers `fleetNotConverged`. -/
def retireChecks (authorized : Except CheckRefusal Unit)
    (revisions : Except BackendError (Option Nat)) (id : String) :
    Except RetireRefusal Unit :=
  match authorized with
  | .error refusal => .error (.check refusal)
  | .ok () =>
      if isStarterPolicyId id then
        .error (.systemImmutable id)
      else
        match revisions with
        | .error _ => .error .internal
        | .ok none => .error .fleetNotConverged
        | .ok (some revision) =>
            if revision < starterPolicyRevision then
              .error .fleetNotConverged
            else
              .ok ()

/-- The policy table under its primary key. -/
structure PolicyTable where
  store : PolicyStore
  keyed : (store.rows.map PolicyModel.policyId).Nodup

/-- One boot: whether its read of the persisted ids fails, and what the
environment answers to the call of each document. -/
structure Boot (Condition : Type) where
  binary : Binary Condition
  snapshotFails : Bool
  attempts : List Attempt
  answered : attempts.length = binary.starterPolicies.length

namespace Boot

def calls (boot : Boot Condition) : List (PolicyDocument × Attempt) :=
  boot.binary.starterPolicies.zip boot.attempts

def existingIds (boot : Boot Condition) (fleet : Fleet) :
    Option (List String) :=
  if boot.snapshotFails then none
  else some (fleet.store.rows.map PolicyModel.policyId)

/-- The table and the log after the boot. -/
def on (boot : Boot Condition) (fleet : Fleet) : Fleet :=
  (fleet.reconcilePolicies boot.binary (boot.existingIds fleet)
    boot.calls).1

/-- Every document of the release was reconciled during the boot, none by
deferring to a later release. -/
def Converges (boot : Boot Condition) (fleet : Fleet) : Prop :=
  ∀ doc ∈ boot.binary.starterPolicies,
    ∃ event ∈ (boot.on fleet).log.drop fleet.log.length,
      event.confirms doc.policyId = true

end Boot

/-- The boots of a table's history, one after the other. -/
def runBoots (fleet : Fleet) (boots : List (Boot Condition)) : Fleet :=
  boots.foldl (fun fleet boot => boot.on fleet) fleet

/-- The release under verification. -/
def thisBinary (deployment : Deployment Condition) (now : Timestamp) :
    Binary Condition where
  deployment := deployment
  revision := starterPolicyRevision
  starterPolicies := starterPolicies now

/-- The check on the revisions passes. -/
def GateOpen (store : PolicyStore) : Prop :=
  ∃ revision, store.minStarterRevision = .ok (some revision) ∧
    starterPolicyRevision ≤ revision

/-- The row carries at least the revision of this binary. -/
def StampedByThisRevision (row : PolicyModel) : Prop :=
  ∃ stamped, row.starterRevision = some stamped ∧
    (starterPolicyRevision : Int) ≤ stamped.val

/-- Every starter row that matches its document, and that a boot therefore
leaves as it is, carries at least the revision of this binary already. -/
def MatchedRowsStamped (deployment : Deployment Condition) (now : Timestamp)
    (store : PolicyStore) : Prop :=
  ∀ doc ∈ starterPolicies now, ∀ row, store.find doc.policyId = some row →
    AlreadyMatches deployment row.storedRow doc → StampedByThisRevision row

section Gate

variable {store : PolicyStore}

theorem mapM_u32OfRevision {stored : List I32} {revisions : List Nat} :
    stored.mapM u32OfRevision = .ok revisions ↔
      (∀ value ∈ stored, 0 ≤ value.val) ∧
        revisions = stored.map I32.toNatOrZero := by
  induction stored generalizing revisions with
  | nil => simp [pure, Except.pure, eq_comm]
  | cons value rest ih =>
      rw [List.mapM_cons]
      by_cases negative : value.val < 0
      · have refused : u32OfRevision value = .error
            ⟨"policy.starter_revision is negative: " ++
              toString value.val⟩ := if_pos negative
        rw [refused]
        constructor
        · intro converted
          cases converted
        · rintro ⟨nonneg, _⟩
          have bound := nonneg value List.mem_cons_self
          omega
      · have converted : u32OfRevision value = .ok value.toNatOrZero :=
          if_neg negative
        have bound : 0 ≤ value.val := by omega
        rw [converted]
        cases others : rest.mapM u32OfRevision with
        | error refusal =>
            constructor
            · intro impossible
              cases impossible
            · rintro ⟨nonneg, rfl⟩
              have restConverted := ih.mpr
                ⟨fun other member => nonneg other
                  (List.mem_cons_of_mem _ member), rfl⟩
              rw [others] at restConverted
              cases restConverted
        | ok converted =>
            obtain ⟨nonneg, rfl⟩ := ih.mp others
            constructor
            · rintro same
              cases same
              refine ⟨?_, rfl⟩
              intro other member
              rcases List.mem_cons.mp member with rfl | member
              · exact bound
              · exact nonneg other member
            · rintro ⟨_, rfl⟩
              rfl

theorem mem_reduceOption_revisions {value : I32} :
    value ∈ (store.starterRows.map
        PolicyModel.starterRevision).reduceOption ↔
      ∃ row ∈ store.starterRows, row.starterRevision = some value := by
  rw [List.reduceOption_mem_iff, List.mem_map]

/-- Where every starter row carries a revision, one carries the lowest. -/
theorem minStarterRevision_of_carried (nonempty : store.starterRows ≠ [])
    (carried : ∀ row ∈ store.starterRows, ∃ value,
      row.starterRevision = some value ∧ 0 ≤ value.val) :
    ∃ row ∈ store.starterRows, ∃ value, row.starterRevision = some value ∧
      store.minStarterRevision = .ok (some value.toNatOrZero) := by
  have someRow : (store.starterRows.map
      PolicyModel.starterRevision).isEmpty = false := by
    simpa using nonempty
  have noNull : (store.starterRows.map PolicyModel.starterRevision).any
      Option.isNone = false := by
    apply List.any_eq_false.mpr
    intro revision member
    obtain ⟨row, isRow, rfl⟩ := List.mem_map.mp member
    obtain ⟨value, isStamp, _⟩ := carried row isRow
    simp [isStamp]
  have nonneg : ∀ value ∈ (store.starterRows.map
      PolicyModel.starterRevision).reduceOption, 0 ≤ value.val := by
    intro value member
    obtain ⟨row, isRow, isStamp⟩ := mem_reduceOption_revisions.mp member
    obtain ⟨other, otherStamp, bound⟩ := carried row isRow
    rw [isStamp] at otherStamp
    cases otherStamp
    exact bound
  have converted := mapM_u32OfRevision.mpr ⟨nonneg, rfl⟩
  obtain ⟨first, isFirst⟩ := List.exists_mem_of_ne_nil _ nonempty
  obtain ⟨stamp, isStamp, _⟩ := carried first isFirst
  have mapped : stamp.toNatOrZero ∈ (store.starterRows.map
      PolicyModel.starterRevision).reduceOption.map I32.toNatOrZero :=
    List.mem_map_of_mem
      (mem_reduceOption_revisions.mpr ⟨first, isFirst, isStamp⟩)
  obtain ⟨lowest, isMin⟩ :=
    Option.isSome_iff_exists.mp (List.isSome_min?_of_mem mapped)
  obtain ⟨value, member, rfl⟩ :=
    List.mem_map.mp (List.min?_eq_some_iff.mp isMin).1
  obtain ⟨row, isRow, rowStamp⟩ := mem_reduceOption_revisions.mp member
  refine ⟨row, isRow, value, rowStamp, ?_⟩
  unfold PolicyStore.minStarterRevision
  simp only [someRow, noNull, Bool.false_eq_true, if_false, converted]
  rw [← isMin]
  rfl

/-- The gate is open exactly when there are starter rows and each of them
carries at least the revision of this binary. -/
theorem gateOpen_iff :
    GateOpen store ↔ store.starterRows ≠ [] ∧
      ∀ row ∈ store.starterRows, StampedByThisRevision row := by
  constructor
  · rintro ⟨revision, lowest, reached⟩
    unfold PolicyStore.minStarterRevision at lowest
    dsimp only at lowest
    split at lowest
    case isTrue empty => cases lowest
    case isFalse someRow =>
      split at lowest
      case isTrue someNull => cases lowest
      case isFalse noNull =>
        refine ⟨by simpa using someRow, fun row isRow => ?_⟩
        have carried : row.starterRevision ≠ none := by
          intro isNull
          apply noNull
          exact List.any_eq_true.mpr
            ⟨_, List.mem_map_of_mem isRow, by simp [isNull]⟩
        obtain ⟨value, isStamp⟩ := Option.ne_none_iff_exists'.mp carried
        refine ⟨value, isStamp, ?_⟩
        have member := mem_reduceOption_revisions.mpr ⟨row, isRow, isStamp⟩
        cases converted : (store.starterRows.map
            PolicyModel.starterRevision).reduceOption.mapM u32OfRevision with
        | error refusal =>
            rw [converted] at lowest
            cases lowest
        | ok revisions =>
            rw [converted] at lowest
            obtain ⟨nonneg, rfl⟩ := mapM_u32OfRevision.mp converted
            have isMin := Except.ok.inj lowest
            have below := (List.min?_eq_some_iff.mp isMin).2 _
              (List.mem_map_of_mem member)
            have valueNonneg := nonneg value member
            unfold I32.toNatOrZero at below
            omega
  · rintro ⟨nonempty, stamped⟩
    have carried : ∀ row ∈ store.starterRows, ∃ value,
        row.starterRevision = some value ∧ 0 ≤ value.val := by
      intro row isRow
      obtain ⟨value, isStamp, bound⟩ := stamped row isRow
      exact ⟨value, isStamp, (Int.natCast_nonneg _).trans bound⟩
    obtain ⟨row, isRow, value, isStamp, isMin⟩ :=
      minStarterRevision_of_carried nonempty carried
    refine ⟨_, isMin, ?_⟩
    obtain ⟨same, sameStamp, bound⟩ := stamped row isRow
    rw [isStamp] at sameStamp
    cases sameStamp
    unfold I32.toNatOrZero
    omega

end Gate

namespace PolicyStore

variable {deployment : Deployment Condition} {store after : PolicyStore}
  {doc : PolicyDocument} {revision : Nat} {attempt : Attempt}
  {row : PolicyModel} {outcome : StarterPolicyOutcome} {id : String}

/-- The primary key holds. -/
def Keyed (store : PolicyStore) : Prop :=
  (store.rows.map PolicyModel.policyId).Nodup

theorem Keyed.find_iff (keyed : store.Keyed) :
    store.find id = some row ↔ row ∈ store.rows ∧ row.policyId = id := by
  constructor
  · intro found
    exact ⟨List.mem_of_find?_eq_some found, find_id found⟩
  · rintro ⟨member, rfl⟩
    obtain ⟨rows, generation⟩ := store
    unfold Keyed at keyed
    unfold find
    induction rows with
    | nil => cases member
    | cons first rest ih =>
        obtain ⟨fresh, restKeyed⟩ := List.nodup_cons.mp keyed
        rcases List.mem_cons.mp member with rfl | below
        · simp
        · have other : first.policyId ≠ row.policyId := by
            intro same
            apply fresh
            rw [same]
            exact List.mem_map_of_mem below
          rw [List.find?_cons_of_neg (by simpa using other)]
          exact ih restKeyed below

theorem Keyed.update (keyed : store.Keyed) (updated : PolicyModel) :
    (store.update updated).Keyed := by
  have sameIds : (store.update updated).rows.map PolicyModel.policyId =
      store.rows.map PolicyModel.policyId := by
    unfold PolicyStore.update
    rw [List.map_map]
    apply List.map_congr_left
    intro row _
    simp only [Function.comp_apply]
    split
    case isTrue same => exact same.symm
    case isFalse other => rfl
  unfold Keyed
  rw [sameIds]
  exact keyed

theorem Keyed.insert (keyed : store.Keyed)
    (absent : store.find row.policyId = none) : (store.insert row).Keyed := by
  have fresh : row.policyId ∉ store.rows.map PolicyModel.policyId := by
    intro member
    obtain ⟨other, present, same⟩ := List.mem_map.mp member
    unfold find at absent
    have distinct := List.find?_eq_none.mp absent other present
    simp [same] at distinct
  unfold Keyed PolicyStore.insert
  rw [List.map_append]
  apply List.nodup_append.mpr
  refine ⟨keyed, List.nodup_singleton _, ?_⟩
  rintro key member other isNew rfl
  apply fresh
  rw [← List.mem_singleton.mp isNew]
  exact member

theorem Keyed.reconcileSystem (keyed : store.Keyed)
    (called : store.reconcileSystem deployment doc revision attempt =
      .ok (outcome, after)) : after.Keyed := by
  obtain ⟨_, committed, done, rfl⟩ := reconcileSystem_ok.mp called
  have committedKeyed : committed.Keyed := by
    cases stored : store.find doc.policyId with
    | none =>
        rw [reconcileRow_of_absent stored] at done
        cases done
        apply keyed.insert
        exact stored
    | some row =>
        rw [reconcileRow_of_found stored] at done
        unfold converge at done
        dsimp only at done
        split at done
        case isTrue writing =>
          cases done
          exact keyed.update _
        case isFalse leaving =>
          cases done
          exact keyed
  unfold Keyed
  rw [bumpIf_rows]
  exact committedKeyed

end PolicyStore

namespace Fleet

variable {fleet next : Fleet} {call : ReconcileCall Condition}

theorem reconcile_some (called : fleet.reconcile call = some next) :
    ∃ outcome, fleet.store.reconcileSystem call.binary.deployment call.doc
        call.binary.revision call.attempt = .ok (outcome, next.store) ∧
      next.log = fleet.log ++
        [⟨call.doc.policyId, call.binary.revision, outcome⟩] := by
  unfold reconcile at called
  split at called
  case isTrue failing => cases called
  case isFalse working =>
    split at called
    case h_1 refusal refused => cases called
    case h_2 outcome store returned =>
      cases called
      exact ⟨outcome, returned, rfl⟩

end Fleet

theorem PolicyStore.RowEffect.find_of_ne {deployment : Deployment Condition}
    {doc : PolicyDocument} {revision : Nat} {before after : PolicyStore}
    {outcome : StarterPolicyOutcome} {id : String}
    (effect : PolicyStore.RowEffect deployment doc revision before outcome
      after)
    (other : id ≠ doc.policyId) : after.find id = before.find id := by
  cases effect with
  | deferred => rfl
  | kept => rfl
  | stamped _ _ createdAt now writing rewrites stored others =>
      exact others id other

/-- What a boot that confirmed the document did to its row. -/
inductive DocEffect (binary : Binary Condition) (doc : PolicyDocument)
    (before after : PolicyStore) : Prop
  | kept (row : PolicyModel) (found : before.find doc.policyId = some row)
      (matching : AlreadyMatches binary.deployment row.storedRow doc)
      (stored : after.find doc.policyId = some row)
  | stamped (createdAt now : Timestamp)
      (rewrites : ∀ old, before.find doc.policyId = some old →
        ¬ AlreadyMatches binary.deployment old.storedRow doc)
      (stored : after.find doc.policyId = some
        (binary.deployment.convergedModel doc createdAt now binary.revision))

/-- What the calls of a boot do to the table, and what they log. -/
structure BootEffect (binary : Binary Condition)
    (entries : List (PolicyDocument × Attempt)) (before after : Fleet)
    (events : List ReconcileEvent) : Prop where
  log : after.log = before.log ++ events
  ids : ∀ event ∈ events, ∃ entry ∈ entries,
    event.policyId = entry.1.policyId
  others : ∀ id, (∀ entry ∈ entries, id ≠ entry.1.policyId) →
    after.store.find id = before.store.find id
  confirmed : ∀ entry ∈ entries,
    (∃ event ∈ events, event.confirms entry.1.policyId = true) →
      DocEffect binary entry.1 before.store after.store

namespace BootEffect

variable {binary : Binary Condition} {entry : PolicyDocument × Attempt}
  {rest : List (PolicyDocument × Attempt)} {before next after : Fleet}
  {events : List ReconcileEvent} {outcome : StarterPolicyOutcome}

theorem refl (binary : Binary Condition)
    (entries : List (PolicyDocument × Attempt)) (fleet : Fleet) :
    BootEffect binary entries fleet fleet [] := by
  constructor
  · rw [List.append_nil]
  · intro event member
    cases member
  · intro id _
    rfl
  · rintro _ _ ⟨event, member, _⟩
    cases member

/-- No call of the other documents confirms this one. -/
theorem not_confirmed (effect : BootEffect binary rest before after events)
    (fresh : ∀ other ∈ rest, entry.1.policyId ≠ other.1.policyId) :
    ∀ event ∈ events, event.confirms entry.1.policyId = false := by
  intro event member
  obtain ⟨other, isOther, sameId⟩ := effect.ids event member
  have distinct : event.policyId ≠ entry.1.policyId := by
    rw [sameId]
    exact (fresh other isOther).symm
  simp [ReconcileEvent.confirms, distinct]

/-- The call of the first document failed. -/
theorem skip (effect : BootEffect binary rest before after events)
    (fresh : ∀ other ∈ rest, entry.1.policyId ≠ other.1.policyId) :
    BootEffect binary (entry :: rest) before after events := by
  constructor
  · exact effect.log
  · intro event member
    obtain ⟨other, isOther, sameId⟩ := effect.ids event member
    exact ⟨other, List.mem_cons_of_mem _ isOther, sameId⟩
  · intro id outside
    apply effect.others
    intro other isOther
    exact outside other (List.mem_cons_of_mem _ isOther)
  · rintro other isOther ⟨event, member, confirming⟩
    rcases List.mem_cons.mp isOther with rfl | isOther
    · rw [effect.not_confirmed fresh event member] at confirming
      cases confirming
    · exact effect.confirmed other isOther ⟨event, member, confirming⟩

/-- The call of the first document returned. -/
theorem cons (effect : BootEffect binary rest next after events)
    (fresh : ∀ other ∈ rest, entry.1.policyId ≠ other.1.policyId)
    (logged : next.log = before.log ++
      [⟨entry.1.policyId, binary.revision, outcome⟩])
    (called : PolicyStore.RowEffect binary.deployment entry.1 binary.revision
      before.store outcome next.store) :
    BootEffect binary (entry :: rest) before after
      (⟨entry.1.policyId, binary.revision, outcome⟩ :: events) := by
  obtain ⟨store, log⟩ := next
  have othersKept : ∀ id, id ≠ entry.1.policyId →
      store.find id = before.store.find id := by
    intro id other
    exact called.find_of_ne other
  have entryKept : after.store.find entry.1.policyId =
      store.find entry.1.policyId := effect.others _ fresh
  constructor
  · rw [effect.log, logged, List.append_assoc]
    rfl
  · intro event member
    rcases List.mem_cons.mp member with rfl | member
    · exact ⟨entry, List.mem_cons_self, rfl⟩
    · obtain ⟨other, isOther, sameId⟩ := effect.ids event member
      exact ⟨other, List.mem_cons_of_mem _ isOther, sameId⟩
  · intro id outside
    rw [effect.others id fun other isOther =>
      outside other (List.mem_cons_of_mem _ isOther)]
    exact othersKept id (outside entry List.mem_cons_self)
  · rintro other isOther ⟨event, member, confirming⟩
    rcases List.mem_cons.mp isOther with rfl | isOther
    · -- Only the first event is about this document.
      have isFirst : event = ⟨other.1.policyId, binary.revision, outcome⟩ := by
        rcases List.mem_cons.mp member with first | later
        · exact first
        · rw [effect.not_confirmed fresh event later] at confirming
          cases confirming
      subst isFirst
      cases called with
      | deferred provenanceOk row found later =>
          simp [ReconcileEvent.confirms, StarterPolicyOutcome.writes]
            at confirming
      | kept row found matching =>
          exact .kept row found matching (entryKept.trans found)
      | stamped outcome store createdAt now writing rewrites stored others =>
          exact .stamped createdAt now (fun old found => (rewrites old found).2)
            (entryKept.trans stored)
    · have distinct := fresh other isOther
      have isLater : event ∈ events := by
        rcases List.mem_cons.mp member with rfl | later
        · simp [ReconcileEvent.confirms, distinct] at confirming
        · exact later
      have found := othersKept other.1.policyId distinct.symm
      cases effect.confirmed other isOther ⟨event, isLater, confirming⟩ with
      | kept row present matching stored =>
          exact .kept row (found.symm.trans present) matching stored
      | stamped createdAt now rewrites stored =>
          apply DocEffect.stamped createdAt now _ stored
          intro old present
          exact rewrites old (found.trans present)

end BootEffect

theorem reconcilePolicies_effect (binary : Binary Condition)
    (existingIds : Option (List String))
    (entries : List (PolicyDocument × Attempt))
    (distinct : (entries.map fun entry => entry.1.policyId).Nodup)
    (fleet : Fleet) :
    ∃ events, BootEffect binary entries fleet
      (fleet.reconcilePolicies binary existingIds entries).1 events := by
  induction entries generalizing fleet with
  | nil => exact ⟨[], BootEffect.refl binary [] fleet⟩
  | cons entry rest ih =>
      obtain ⟨notListed, restDistinct⟩ := List.nodup_cons.mp distinct
      have fresh : ∀ other ∈ rest, entry.1.policyId ≠ other.1.policyId := by
        intro other isOther same
        apply notListed
        exact List.mem_map.mpr ⟨other, isOther, same.symm⟩
      obtain ⟨doc, attempt⟩ := entry
      unfold Fleet.reconcilePolicies
      cases called : fleet.reconcile ⟨binary, doc, attempt⟩ with
      | some next =>
          obtain ⟨outcome, returned, logged⟩ := Fleet.reconcile_some called
          obtain ⟨events, effect⟩ := ih restDistinct next
          exact ⟨_, effect.cons fresh logged
            (PolicyStore.reconcileSystem_effect returned)⟩
      | none =>
          cases classifyFailure existingIds doc.policyId with
          | survivable =>
              obtain ⟨events, effect⟩ := ih restDistinct fleet
              exact ⟨events, effect.skip fresh⟩
          | fatalMissingRow => exact ⟨[], BootEffect.refl binary _ fleet⟩
          | fatalUnknownSnapshot => exact ⟨[], BootEffect.refl binary _ fleet⟩

theorem reconcilePolicies_keyed (binary : Binary Condition)
    (existingIds : Option (List String))
    (entries : List (PolicyDocument × Attempt)) (fleet : Fleet)
    (keyed : fleet.store.Keyed) :
    (fleet.reconcilePolicies binary existingIds entries).1.store.Keyed := by
  induction entries generalizing fleet with
  | nil => exact keyed
  | cons entry rest ih =>
      obtain ⟨doc, attempt⟩ := entry
      unfold Fleet.reconcilePolicies
      cases called : fleet.reconcile ⟨binary, doc, attempt⟩ with
      | some next =>
          obtain ⟨_, returned, _⟩ := Fleet.reconcile_some called
          exact ih next (keyed.reconcileSystem returned)
      | none =>
          cases classifyFailure existingIds doc.policyId with
          | survivable => exact ih fleet keyed
          | fatalMissingRow => exact keyed
          | fatalUnknownSnapshot => exact keyed

theorem runBoots_keyed (boots : List (Boot Condition)) (fleet : Fleet)
    (keyed : fleet.store.Keyed) : (runBoots fleet boots).store.Keyed := by
  induction boots generalizing fleet with
  | nil => exact keyed
  | cons boot rest ih =>
      apply ih
      exact reconcilePolicies_keyed _ _ _ fleet keyed

namespace Boot

variable {boot : Boot Condition} {fleet : Fleet}

theorem calls_docs (boot : Boot Condition) :
    boot.calls.map Prod.fst = boot.binary.starterPolicies :=
  List.map_fst_zip boot.answered.ge

theorem effect (boot : Boot Condition)
    (distinct : (boot.binary.starterPolicies.map
      PolicyDocument.policyId).Nodup) (fleet : Fleet) :
    ∃ events, BootEffect boot.binary boot.calls fleet (boot.on fleet)
      events := by
  apply reconcilePolicies_effect
  rw [← calls_docs, List.map_map] at distinct
  exact distinct

theorem Converges.docEffect (converges : boot.Converges fleet)
    (distinct : (boot.binary.starterPolicies.map
      PolicyDocument.policyId).Nodup)
    {doc : PolicyDocument} (known : doc ∈ boot.binary.starterPolicies) :
    DocEffect boot.binary doc fleet.store (boot.on fleet).store := by
  obtain ⟨events, effect⟩ := boot.effect distinct fleet
  obtain ⟨event, member, confirming⟩ := converges doc known
  rw [effect.log, List.drop_left] at member
  rw [← calls_docs] at known
  obtain ⟨entry, isEntry, rfl⟩ := List.mem_map.mp known
  exact effect.confirmed entry isEntry ⟨event, member, confirming⟩

end Boot

/-- A call with a working backend confirms its document, unless the row is of
a later release. -/
theorem Fleet.reconcile_confirms {fleet : Fleet}
    {call : ReconcileCall Condition}
    (working : call.attempt.backendFails = false)
    (valid : validatePolicy call.binary.deployment.frontend call.doc.source =
      .ok ())
    (notLater : ∀ row, fleet.store.find call.doc.policyId = some row →
      row.revision ≤ call.binary.revision) :
    ∃ next event, fleet.reconcile call = some next ∧
      next.log = fleet.log ++ [event] ∧
      event.confirms call.doc.policyId = true ∧
      ∀ id, id ≠ call.doc.policyId →
        next.store.find id = fleet.store.find id := by
  obtain ⟨outcome, after, called⟩ := PolicyStore.reconcileSystem_exists valid
    fleet.store call.binary.revision call.attempt
  have effect := PolicyStore.reconcileSystem_effect called
  have returned : fleet.reconcile call = some ⟨after, fleet.log ++
      [⟨call.doc.policyId, call.binary.revision, outcome⟩]⟩ := by
    simp [Fleet.reconcile, working, called]
  refine ⟨_, _, returned, rfl, ?_, fun id other => effect.find_of_ne other⟩
  cases effect with
  | deferred provenanceOk row found later =>
      have bound := notLater row found
      omega
  | kept row found matching => simp [ReconcileEvent.confirms]
  | stamped _ _ createdAt now writing rewrites stored others =>
      simp [ReconcileEvent.confirms, writing]

theorem reconcilePolicies_confirms (binary : Binary Condition)
    (existingIds : Option (List String))
    (entries : List (PolicyDocument × Attempt))
    (distinct : (entries.map fun entry => entry.1.policyId).Nodup)
    (fleet : Fleet)
    (working : ∀ entry ∈ entries, entry.2.backendFails = false)
    (valid : ∀ entry ∈ entries,
      validatePolicy binary.deployment.frontend entry.1.source = .ok ())
    (notLater : ∀ entry ∈ entries, ∀ row,
      fleet.store.find entry.1.policyId = some row →
        row.revision ≤ binary.revision) :
    ∃ events, (fleet.reconcilePolicies binary existingIds entries).1.log =
        fleet.log ++ events ∧
      ∀ entry ∈ entries, ∃ event ∈ events,
        event.confirms entry.1.policyId = true := by
  induction entries generalizing fleet with
  | nil => exact ⟨[], by simp [Fleet.reconcilePolicies], by simp⟩
  | cons entry rest ih =>
      obtain ⟨doc, attempt⟩ := entry
      obtain ⟨notListed, restDistinct⟩ := List.nodup_cons.mp distinct
      have confirmed : ∃ next event,
          fleet.reconcile ⟨binary, doc, attempt⟩ = some next ∧
            next.log = fleet.log ++ [event] ∧
            event.confirms doc.policyId = true ∧
            ∀ id, id ≠ doc.policyId →
              next.store.find id = fleet.store.find id := by
        apply Fleet.reconcile_confirms
        · exact working (doc, attempt) List.mem_cons_self
        · exact valid (doc, attempt) List.mem_cons_self
        · exact notLater (doc, attempt) List.mem_cons_self
      obtain ⟨next, first, called, logged, confirming, others⟩ := confirmed
      have restNotLater : ∀ entry ∈ rest, ∀ row,
          next.store.find entry.1.policyId = some row →
            row.revision ≤ binary.revision := by
        intro entry member row found
        have distinctIds : entry.1.policyId ≠ doc.policyId := by
          intro same
          apply notListed
          exact List.mem_map.mpr ⟨entry, member, same⟩
        rw [others _ distinctIds] at found
        exact notLater entry (List.mem_cons_of_mem _ member) row found
      obtain ⟨events, restLogged, restConfirmed⟩ := ih restDistinct next
        (fun entry member => working entry (List.mem_cons_of_mem _ member))
        (fun entry member => valid entry (List.mem_cons_of_mem _ member))
        restNotLater
      refine ⟨first :: events, ?_, ?_⟩
      · unfold Fleet.reconcilePolicies
        simp only [called]
        rw [restLogged, logged, List.append_assoc]
        rfl
      · intro entry member
        rcases List.mem_cons.mp member with rfl | member
        · exact ⟨first, List.mem_cons_self, confirming⟩
        · obtain ⟨event, isEvent, confirmed⟩ := restConfirmed entry member
          exact ⟨event, List.mem_cons_of_mem _ isEvent, confirmed⟩

/-- A boot converges when its backend works, its documents are valid and no row
of theirs is of a later release. -/
theorem Boot.converges_of_working {boot : Boot Condition} {fleet : Fleet}
    (distinct : (boot.binary.starterPolicies.map
      PolicyDocument.policyId).Nodup)
    (working : ∀ attempt ∈ boot.attempts, attempt.backendFails = false)
    (valid : ∀ doc ∈ boot.binary.starterPolicies,
      validatePolicy boot.binary.deployment.frontend doc.source = .ok ())
    (notLater : ∀ doc ∈ boot.binary.starterPolicies, ∀ row,
      fleet.store.find doc.policyId = some row →
        row.revision ≤ boot.binary.revision) :
    boot.Converges fleet := by
  have docOf : ∀ entry ∈ boot.calls,
      entry.1 ∈ boot.binary.starterPolicies := by
    intro entry member
    exact (List.of_mem_zip member).1
  have distinctEntries : (boot.calls.map
      fun entry => entry.1.policyId).Nodup := by
    rw [← Boot.calls_docs, List.map_map] at distinct
    exact distinct
  obtain ⟨events, logged, confirmed⟩ := reconcilePolicies_confirms
    boot.binary (boot.existingIds fleet) boot.calls distinctEntries fleet
    (fun entry member => working entry.2 (List.of_mem_zip member).2)
    (fun entry member => valid entry.1 (docOf entry member))
    (fun entry member => notLater entry.1 (docOf entry member))
  intro doc known
  rw [← Boot.calls_docs] at known
  obtain ⟨entry, isEntry, rfl⟩ := List.mem_map.mp known
  unfold Boot.on
  rw [logged, List.drop_left]
  exact confirmed entry isEntry

section ThisBinary

variable {deployment : Deployment Condition} {now : Timestamp}
  {boot : Boot Condition} {fleet : Fleet}

theorem starterPolicies_distinct (now : Timestamp) :
    ((starterPolicies now).map PolicyDocument.policyId).Nodup := by
  rw [starterPolicies_ids]
  decide

theorem starterPolicies_inhabited (now : Timestamp) :
    ∃ doc, doc ∈ starterPolicies now := ⟨_, List.mem_cons_self⟩

theorem mem_starterRows {store : PolicyStore} {row : PolicyModel}
    (now : Timestamp) (keyed : store.Keyed) :
    row ∈ store.starterRows ↔ ∃ doc ∈ starterPolicies now,
      store.find doc.policyId = some row := by
  unfold PolicyStore.starterRows
  rw [List.mem_filter]
  constructor
  · rintro ⟨member, starter⟩
    have listed : row.policyId ∈ starterPolicyIds := by
      simpa [isStarterPolicyId] using starter
    rw [← starterPolicies_ids now] at listed
    obtain ⟨doc, known, sameId⟩ := List.mem_map.mp listed
    exact ⟨doc, known, keyed.find_iff.mpr ⟨member, sameId.symm⟩⟩
  · rintro ⟨doc, known, found⟩
    obtain ⟨member, sameId⟩ := keyed.find_iff.mp found
    have listed : doc.policyId ∈ starterPolicyIds := by
      rw [← starterPolicies_ids now]
      exact List.mem_map_of_mem known
    refine ⟨member, ?_⟩
    simpa [isStarterPolicyId, sameId] using listed

/-- A boot stamps the revision of this binary itself, which fits the column. -/
theorem convergedModel_stamped (doc : PolicyDocument)
    (createdAt written : Timestamp) :
    StampedByThisRevision (deployment.convergedModel doc createdAt written
      starterPolicyRevision) :=
  ⟨_, rfl, by decide⟩

theorem gateOpen_after_iff (isThis : boot.binary = thisBinary deployment now)
    (keyed : fleet.store.Keyed) (converges : boot.Converges fleet) :
    GateOpen (boot.on fleet).store ↔
      MatchedRowsStamped deployment now fleet.store := by
  have keyedAfter : (boot.on fleet).store.Keyed :=
    reconcilePolicies_keyed _ _ _ fleet keyed
  have effectOf : ∀ doc ∈ starterPolicies now,
      DocEffect (thisBinary deployment now) doc fleet.store
        (boot.on fleet).store := by
    intro doc known
    rw [← isThis]
    apply converges.docEffect
    · rw [isThis]
      exact starterPolicies_distinct now
    · rw [isThis]
      exact known
  rw [gateOpen_iff]
  constructor
  · rintro ⟨_, stamped⟩ doc known row found matching
    cases effectOf doc known with
    | kept same present matched stored =>
        rw [found] at present
        cases present
        apply stamped row
        exact (mem_starterRows now keyedAfter).mpr ⟨doc, known, stored⟩
    | stamped createdAt written rewrites stored =>
        exact absurd matching (rewrites row found)
  · intro matchedStamped
    have stampedAfter : ∀ doc ∈ starterPolicies now, ∃ row,
        (boot.on fleet).store.find doc.policyId = some row ∧
          StampedByThisRevision row := by
      intro doc known
      cases effectOf doc known with
      | kept row found matching stored =>
          exact ⟨row, stored, matchedStamped doc known row found matching⟩
      | stamped createdAt written rewrites stored =>
          exact ⟨_, stored, convergedModel_stamped doc createdAt written⟩
    constructor
    · intro empty
      obtain ⟨doc, known⟩ := starterPolicies_inhabited now
      obtain ⟨row, stored, _⟩ := stampedAfter doc known
      have member := (mem_starterRows now keyedAfter).mpr ⟨doc, known, stored⟩
      rw [empty] at member
      cases member
    · intro row member
      obtain ⟨doc, known, found⟩ := (mem_starterRows now keyedAfter).mp member
      obtain ⟨same, stored, stamped⟩ := stampedAfter doc known
      rw [found] at stored
      cases stored
      exact stamped

theorem retireChecks_of_gateOpen {store : PolicyStore} (gate : GateOpen store)
    (authorized : Except CheckRefusal Unit) (id : String) :
    retireChecks authorized store.minStarterRevision id ≠
      .error .fleetNotConverged := by
  obtain ⟨revision, lowest, reached⟩ := gate
  unfold retireChecks
  rw [lowest]
  cases authorized with
  | error refusal => simp
  | ok passed =>
      have notBelow : ¬ revision < starterPolicyRevision := by
        omega
      simp only [notBelow, if_false]
      split
      case isTrue starter => simp
      case isFalse other => simp

/-- A boot of this binary that converged opens the gate exactly when no starter
row that it left as it was carries an older revision, or none. -/
theorem converged_boot_opens_gate_iff (initial : PolicyTable)
    (earlier : List (Boot Condition)) (last : Boot Condition)
    (isThis : last.binary = thisBinary deployment now)
    (converges : last.Converges (runBoots ⟨initial.store, []⟩ earlier)) :
    (GateOpen (runBoots ⟨initial.store, []⟩ (earlier ++ [last])).store ∧
        ∀ authorized id, retireChecks authorized
            (runBoots ⟨initial.store, []⟩
              (earlier ++ [last])).store.minStarterRevision id ≠
          .error .fleetNotConverged) ↔
      MatchedRowsStamped deployment now
        (runBoots ⟨initial.store, []⟩ earlier).store := by
  have lastRun : runBoots ⟨initial.store, []⟩ (earlier ++ [last]) =
      last.on (runBoots ⟨initial.store, []⟩ earlier) :=
    List.foldl_append
  have keyed := runBoots_keyed earlier ⟨initial.store, []⟩ initial.keyed
  rw [lastRun, ← gateOpen_after_iff isThis keyed converges]
  constructor
  · rintro ⟨gate, _⟩
    exact gate
  · intro gate
    exact ⟨gate, retireChecks_of_gateOpen gate⟩

end ThisBinary

theorem starterPolicies_valid {frontend : Frontend Condition}
    (reads : ReadsStarters frontend) {now : Timestamp} {doc : PolicyDocument}
    (known : doc ∈ starterPolicies now) :
    validatePolicy frontend doc.source = .ok () := by
  unfold validatePolicy
  rcases mem_starterPolicies known with
    ⟨_, source, _⟩ | ⟨role, isRole, _, source, _⟩
  · obtain ⟨statement, read, _, validates⟩ := reads.forbids
    simp [source, read, validates]
  · obtain ⟨statement, read, _, _, validates⟩ := reads.permits role isRole
    simp [source, read, validates]

section Upgrade

/-- The fingerprints of the documents of this binary. -/
def starterFingerprints : List (String × String) :=
  [("forbid-archived-writes",
      "428555dffe853070ac6b0f5890dbb868b6bbc289bdcd10045e1918dd0a540b40"),
    ("platform_admin",
      "c61286fc71f5368da7b7b71d77f53a9eaf96ae2295c77cb2b157997fb412ca66"),
    ("org_admin",
      "0b510e8248de41732dd5f5d8dc8957f517be4c89b53fda56054d3875f4f6408a"),
    ("org_member",
      "05654ddfaf99710753820310ceec0cdda5777aa0f80f452da1822b5cb63eda9e"),
    ("team_admin",
      "a5fba1640ec7b029e5e5a64a8f0a798f00d4d4f23903dd143fb314d2c1de8941"),
    ("team_member",
      "a5eefb31a7ee75e79c0d8507b970c4b169d0bf6b560761f7299d16f67c6d6497"),
    ("project_admin",
      "c0e3afb1de29c3671ac4a35ec56a9ea3300fff35f1301a246d00c87ebfeb0f9a"),
    ("project_member",
      "bcd311dfd1f11be077c25fac80c4705013228cafbf26db2911374c8216f3f457"),
    ("gateway_user",
      "35a65f3bc5992be42452e84e6f67bfc4baee3534351aede9685880c17cde1c4f")]

/-- The language and the hash on the documents of this binary. -/
def upgradeDeployment : Deployment String where
  frontend := Tables.starterFrontend
  contentFingerprint := fun kind source description =>
    (((starterPolicies 1).find? fun doc => doc.kind = kind ∧
      doc.source = source ∧ doc.description = description).bind
        fun doc => starterFingerprints.lookup doc.policyId).getD ""

/-- An undisturbed boot of a release that carries the documents of this binary
under the given revision. -/
def calmBoot (revision : Nat) : Boot String where
  binary :=
    { thisBinary upgradeDeployment 1 with revision := revision }
  snapshotFails := false
  attempts := (starterPolicies 1).map fun _ => calmly
  answered := List.length_map _

def emptyTable : PolicyTable := ⟨⟨[], 0⟩, List.nodup_nil⟩

theorem calmBoot_converges {revision : Nat} {fleet : Fleet}
    (notLater : ∀ doc ∈ starterPolicies 1, ∀ row,
      fleet.store.find doc.policyId = some row → row.revision ≤ revision) :
    (calmBoot revision).Converges fleet := by
  apply Boot.converges_of_working (starterPolicies_distinct 1)
  · intro attempt member
    obtain ⟨_, _, rfl⟩ := List.mem_map.mp member
    rfl
  · intro doc known
    exact starterPolicies_valid Tables.starterFrontend_reads known
  · exact notLater

/-- The table that the boot of an earlier release left. -/
def seededByEarlier : Fleet := (calmBoot 3).on ⟨emptyTable.store, []⟩

/-- The same table after a boot of this binary. -/
def upgraded : Fleet := (calmBoot 4).on seededByEarlier

theorem runBoots_seeded :
    runBoots ⟨emptyTable.store, []⟩ [calmBoot 3] = seededByEarlier := by
  unfold runBoots seededByEarlier
  rw [List.foldl_cons, List.foldl_nil]

theorem runBoots_upgraded :
    runBoots ⟨emptyTable.store, []⟩ ([calmBoot 3] ++ [calmBoot 4]) =
      upgraded := by
  unfold runBoots upgraded seededByEarlier
  rw [List.foldl_append, List.foldl_cons, List.foldl_nil, List.foldl_cons,
    List.foldl_nil]

theorem upgraded_keyed : upgraded.store.Keyed := by
  rw [← runBoots_upgraded]
  exact runBoots_keyed _ ⟨emptyTable.store, []⟩ emptyTable.keyed

/-- On an empty table the boot writes every row. -/
theorem seededByEarlier_find {doc : PolicyDocument}
    (known : doc ∈ starterPolicies 1) :
    ∃ createdAt now, seededByEarlier.store.find doc.policyId =
      some (upgradeDeployment.convergedModel doc createdAt now 3) := by
  have converges : (calmBoot 3).Converges ⟨emptyTable.store, []⟩ := by
    apply calmBoot_converges
    intro _ _ row found
    cases found
  have effect := converges.docEffect (starterPolicies_distinct 1) known
  cases effect with
  | kept row found matching stored => cases found
  | stamped createdAt now rewrites stored => exact ⟨createdAt, now, stored⟩

theorem upgrade_converges : (calmBoot 4).Converges seededByEarlier := by
  apply calmBoot_converges
  intro doc known row found
  obtain ⟨createdAt, now, seeded⟩ := seededByEarlier_find known
  have same := Option.some.inj (seeded.symm.trans found)
  rw [← same, PolicyStore.convergedModel_revision]
  decide

/-- The boot of this binary leaves every row as it is. -/
theorem upgraded_find {doc : PolicyDocument}
    (known : doc ∈ starterPolicies 1) :
    ∃ row, upgraded.store.find doc.policyId = some row ∧
      row.starterRevision = some (I32.ofNatSaturating 3) := by
  obtain ⟨createdAt, now, seeded⟩ := seededByEarlier_find known
  have effect := upgrade_converges.docEffect (starterPolicies_distinct 1) known
  cases effect with
  | kept row present matching stored =>
      have same := Option.some.inj (seeded.symm.trans present)
      refine ⟨row, stored, ?_⟩
      rw [← same]
      rfl
  | stamped _ _ rewrites _ =>
      have mismatch := rewrites _ seeded
      exact absurd (PolicyStore.convergedModel_matches createdAt now) mismatch

theorem upgraded_rows {row : PolicyModel}
    (member : row ∈ upgraded.store.starterRows) :
    row.starterRevision = some (I32.ofNatSaturating 3) := by
  obtain ⟨doc, known, found⟩ := (mem_starterRows 1 upgraded_keyed).mp member
  obtain ⟨same, stored, isStamp⟩ := upgraded_find known
  rw [Option.some.inj (found.symm.trans stored)]
  exact isStamp

theorem upgraded_minStarterRevision :
    upgraded.store.minStarterRevision = .ok (some 3) := by
  have nonempty : upgraded.store.starterRows ≠ [] := by
    intro empty
    obtain ⟨doc, known⟩ := starterPolicies_inhabited 1
    obtain ⟨row, found, _⟩ := upgraded_find known
    have member := (mem_starterRows 1 upgraded_keyed).mpr ⟨doc, known, found⟩
    rw [empty] at member
    cases member
  have carried : ∀ row ∈ upgraded.store.starterRows, ∃ value,
      row.starterRevision = some value ∧ 0 ≤ value.val :=
    fun row member => ⟨_, upgraded_rows member, by decide⟩
  obtain ⟨row, member, value, isStamp, isMin⟩ :=
    minStarterRevision_of_carried nonempty carried
  rw [upgraded_rows member] at isStamp
  rw [isMin, ← Option.some.inj isStamp]
  decide

/-- The boot of this binary finds every row of the earlier release matching and
leaves its revision, so a retirement is refused. -/
theorem unchanged_rows_close_gate :
    (calmBoot 4).binary = thisBinary upgradeDeployment 1 ∧
      (calmBoot 4).Converges (runBoots ⟨emptyTable.store, []⟩ [calmBoot 3]) ∧
      ¬ GateOpen (runBoots ⟨emptyTable.store, []⟩
        ([calmBoot 3] ++ [calmBoot 4])).store ∧
      retireChecks (.ok ()) (runBoots ⟨emptyTable.store, []⟩
          ([calmBoot 3] ++ [calmBoot 4])).store.minStarterRevision
        "legacy_auditor" = .error .fleetNotConverged := by
  rw [runBoots_upgraded, runBoots_seeded]
  have lowest := upgraded_minStarterRevision
  refine ⟨rfl, upgrade_converges, ?_, ?_⟩
  · rintro ⟨revision, isMin, reached⟩
    rw [lowest] at isMin
    cases isMin
    revert reached
    decide
  · rw [lowest]
    decide

/-- On an empty table the first boot opens the gate. -/
theorem seeded_table_opens_gate :
    GateOpen (runBoots ⟨emptyTable.store, []⟩
      ([] ++ [calmBoot starterPolicyRevision])).store := by
  have converges : (calmBoot starterPolicyRevision).Converges
      (runBoots ⟨emptyTable.store, []⟩ ([] : List (Boot String))) := by
    apply calmBoot_converges
    intro _ _ row found
    cases found
  have nothingMatched : MatchedRowsStamped upgradeDeployment 1
      (runBoots ⟨emptyTable.store, []⟩ ([] : List (Boot String))).store := by
    intro _ _ row found
    cases found
  exact ((converged_boot_opens_gate_iff emptyTable [] _ rfl converges).mpr
    nothingMatched).1

end Upgrade

end Paigasus.Policies
