import Paigasus.Foundation.EventLog
import Paigasus.Foundation.FixedWidth
import Paigasus.Policies.AcceptedWrites
import Paigasus.Policies.ContentHash

/-!
# Reconciliation of the stored starter policies

The starter rows as the columns of the policy table hold them: the kind is a
text, the description may be NULL, the revision is signed.  A boot reads them
through lenient conversions, classifies each row against its own document and
rewrites the rows it may rewrite.  A fleet is any interleaving of the calls of
such boots on one table.
-/

namespace Paigasus.Policies

open Foundation Core Cedar

variable {Condition : Type}

/-- The columns of one policy row. -/
structure PolicyModel where
  policyId : String
  kind : String
  source : String
  description : Option String
  system : Bool
  createdAt : Timestamp
  updatedAt : Timestamp
  contentFingerprint : Option String
  starterRevision : Option I32
deriving DecidableEq

def policyKindStr : PolicyKind → String
  | .static => "static"
  | .template => "template"

def kindFromStr (raw : String) : Option PolicyKind :=
  if raw = "static" then some .static
  else if raw = "template" then some .template
  else none

def fingerprintEncoding (kind : PolicyKind) (source description : String) :
    List UInt8 :=
  (match kind with
    | .static => 0
    | .template => 1) ::
      (prefixed (utf8 source) ++ prefixed (utf8 description))

/-- The hash is third-party code. -/
def contentFingerprint (blake3 : List UInt8 → Vector UInt8 32)
    (kind : PolicyKind) (source description : String) : String :=
  String.ofList
    (toHex (blake3 (fingerprintEncoding kind source description)).toList)

def StarterPolicyOutcome.contentChanged : StarterPolicyOutcome → Bool
  | .absent | .reconciled => true
  | .unchanged | .staleBinary _ => false
  | .adopted changed _ | .externallyModified changed _ => changed

/-- Every outcome writes but these two. -/
def StarterPolicyOutcome.writes : StarterPolicyOutcome → Bool
  | .unchanged | .staleBinary _ => false
  | _ => true

namespace PolicyModel

/-- The row as the classification reads it: an unreadable kind is taken for
static, NULL for the empty description, a negative revision for zero. -/
def storedRow (model : PolicyModel) : PolicyRow where
  doc :=
    { policyId := model.policyId
      kind := (kindFromStr model.kind).getD .static
      source := model.source
      description := model.description.getD ""
      system := model.system
      createdAt := model.createdAt
      updatedAt := model.updatedAt }
  contentFingerprint := model.contentFingerprint
  starterRevision := model.starterRevision.map I32.toNatOrZero

/-- The revision the guard compares with; NULL is the oldest. -/
def revision (model : PolicyModel) : Nat :=
  model.storedRow.starterRevision.getD 0

end PolicyModel

structure PolicyStore where
  rows : List PolicyModel
  policyGen : Nat
deriving DecidableEq

/-- What the environment decides in one call: the clock, whether the row was
seen absent before a concurrent insert, and which ports fail. -/
structure Attempt where
  now : Timestamp
  seenAbsent : Bool
  backendFails : Bool
  bumpFails : Bool
deriving DecidableEq

namespace PolicyStore

def find (store : PolicyStore) (id : String) : Option PolicyModel :=
  store.rows.find? fun row => row.policyId = id

def insert (store : PolicyStore) (row : PolicyModel) : PolicyStore :=
  { store with rows := store.rows ++ [row] }

def update (store : PolicyStore) (updated : PolicyModel) : PolicyStore :=
  { store with rows := store.rows.map fun row =>
      if row.policyId = updated.policyId then updated else row }

/-- The bump follows the commit and its failure is swallowed. -/
def bumpIf (store : PolicyStore) (changed : Bool) (attempt : Attempt) :
    PolicyStore :=
  if changed && !attempt.bumpFails then
    { store with policyGen := store.policyGen + 1 }
  else
    store

end PolicyStore

namespace Deployment

/-- The columns a converge writes. -/
def convergedModel (deployment : Deployment Condition) (doc : PolicyDocument)
    (createdAt now : Timestamp) (revision : Nat) : PolicyModel where
  policyId := doc.policyId
  kind := policyKindStr doc.kind
  source := doc.source
  description := if doc.description = "" then none else some doc.description
  system := true
  createdAt := createdAt
  updatedAt := now
  contentFingerprint := some (deployment.fingerprintOf doc)
  starterRevision := some (I32.ofNatSaturating revision)

end Deployment

namespace PolicyStore

/-- Classifies the locked row and rewrites it unless it is left alone. -/
def converge (deployment : Deployment Condition) (store : PolicyStore)
    (row : PolicyModel) (doc : PolicyDocument) (revision : Nat)
    (now : Timestamp) : StarterPolicyOutcome × PolicyStore :=
  let outcome :=
    deployment.classifyStarterPolicy (some row.storedRow) doc revision
  if outcome.writes then
    (outcome, store.update
      (deployment.convergedModel doc row.createdAt now revision))
  else
    (outcome, store)

/-- The transaction of one call, up to its commit. -/
def reconcileRow (deployment : Deployment Condition) (store : PolicyStore)
    (doc : PolicyDocument) (revision : Nat) (attempt : Attempt) :
    StarterPolicyOutcome × PolicyStore :=
  match if attempt.seenAbsent then none else store.find doc.policyId with
  | some existing => store.converge deployment existing doc revision attempt.now
  | none =>
      -- The insert may lose to a concurrent one, whose row is read instead.
      match store.find doc.policyId with
      | none => (.absent, store.insert
          (deployment.convergedModel doc doc.createdAt attempt.now revision))
      | some winner =>
          store.converge deployment winner doc revision attempt.now

def reconcileSystem (deployment : Deployment Condition) (store : PolicyStore)
    (doc : PolicyDocument) (revision : Nat) (attempt : Attempt) :
    Except AuthzError (StarterPolicyOutcome × PolicyStore) := do
  validatePolicy deployment.frontend doc.source
  let (outcome, committed) := store.reconcileRow deployment doc revision attempt
  return (outcome, committed.bumpIf outcome.contentChanged attempt)

end PolicyStore

theorem kindFromStr_policyKindStr (kind : PolicyKind) :
    kindFromStr (policyKindStr kind) = some kind := by
  cases kind <;> rfl

theorem policyKindStr_of_kindFromStr {raw : String} {kind : PolicyKind}
    (read : kindFromStr raw = some kind) : raw = policyKindStr kind := by
  unfold kindFromStr at read
  split at read
  case isTrue isStatic =>
    cases read
    exact isStatic
  case isFalse notStatic =>
    split at read
    case isTrue isTemplate =>
      cases read
      exact isTemplate
    case isFalse notTemplate => cases read

/-- The row carries the document already, under a fingerprint of its own
content. -/
structure AlreadyMatches (deployment : Deployment Condition) (row : PolicyRow)
    (code : PolicyDocument) : Prop where
  system : row.doc.system = true
  fingerprint :
    row.contentFingerprint = some (deployment.fingerprintOf row.doc)
  kind : row.doc.kind = code.kind
  source : row.doc.source = code.source
  description : row.doc.description = code.description

namespace Deployment

variable {deployment : Deployment Condition} {row : PolicyRow}
  {code : PolicyDocument} {codeRevision : Nat}

theorem classify_some_ne_absent :
    deployment.classifyStarterPolicy (some row) code codeRevision ≠
      .absent := by
  simp only [classifyStarterPolicy]
  split
  case isTrue later => simp
  case isFalse passed =>
    split
    case isTrue cleared => simp
    case isFalse system =>
      split
      case h_1 unstamped =>
        split <;> simp
      case h_2 stamped =>
        split
        case isTrue foreign => simp
        case isFalse own =>
          split <;> simp

/-- The guard comes first: a row of a later revision is deferred to. -/
theorem classify_stale (later : codeRevision < row.starterRevision.getD 0) :
    deployment.classifyStarterPolicy (some row) code codeRevision =
      .staleBinary (deployment.provenanceOk row) := by
  simp [classifyStarterPolicy, later]

/-- A row that is not of a later revision is left alone when it matches and
rewritten otherwise. -/
theorem classify_of_not_later
    (notLater : row.starterRevision.getD 0 ≤ codeRevision) :
    (AlreadyMatches deployment row code ∧
        deployment.classifyStarterPolicy (some row) code codeRevision =
          .unchanged) ∨
      (¬ AlreadyMatches deployment row code ∧
        (deployment.classifyStarterPolicy (some row) code
          codeRevision).writes = true) := by
  have passed : ¬ codeRevision < row.starterRevision.getD 0 := by omega
  simp only [classifyStarterPolicy, passed, if_false]
  by_cases system : row.doc.system = true
  case neg =>
    refine .inr ⟨fun matching => system matching.system, ?_⟩
    simp [system, StarterPolicyOutcome.writes]
  case pos =>
    cases fingerprint : row.contentFingerprint with
    | none =>
        refine .inr ⟨fun matching => ?_, ?_⟩
        · rw [matching.fingerprint] at fingerprint
          cases fingerprint
        · simp only [system, Bool.not_true, Bool.false_eq_true, if_false]
          split <;> rfl
    | some stamped =>
        by_cases own : stamped = deployment.fingerprintOf row.doc
        case neg =>
          refine .inr ⟨fun matching => own ?_, ?_⟩
          · have same := matching.fingerprint
            rw [fingerprint] at same
            exact Option.some.inj same
          · simp [system, own, StarterPolicyOutcome.writes]
        case pos =>
          by_cases same : row.doc.kind = code.kind ∧
              row.doc.source = code.source ∧
              row.doc.description = code.description
          · obtain ⟨kind, source, description⟩ := same
            refine .inl ⟨⟨system, by rw [fingerprint, own], kind, source,
              description⟩, ?_⟩
            simp [system, own, kind, source, description]
          · refine .inr ⟨fun matching => same ⟨matching.kind,
              matching.source, matching.description⟩, ?_⟩
            have changed : (decide (row.doc.kind ≠ code.kind) ||
                decide (row.doc.source ≠ code.source) ||
                decide (row.doc.description ≠ code.description)) = true := by
              simp only [Bool.or_eq_true, decide_eq_true_eq]
              tauto
            simp only [system, own, changed, Bool.not_true,
              Bool.false_eq_true, if_false, ne_eq, not_true_eq_false, if_true]
            rfl

end Deployment

namespace PolicyStore

variable {deployment : Deployment Condition} {store after : PolicyStore}
  {doc : PolicyDocument} {revision : Nat} {attempt : Attempt}
  {row updated : PolicyModel} {outcome : StarterPolicyOutcome} {id : String}

theorem find_id (found : store.find id = some row) : row.policyId = id := by
  simpa using List.find?_some found

theorem find_update (found : store.find updated.policyId = some row) :
    (store.update updated).find updated.policyId = some updated := by
  obtain ⟨rows, generation⟩ := store
  simp only [find, update] at found ⊢
  induction rows with
  | nil => cases found
  | cons first rest ih =>
      by_cases same : first.policyId = updated.policyId
      · simp [same]
      · simp only [List.find?_cons, same, decide_false] at found
        simpa [same] using ih found

theorem find_update_of_ne (other : updated.policyId ≠ id) :
    (store.update updated).find id = store.find id := by
  obtain ⟨rows, generation⟩ := store
  simp only [find, update]
  induction rows with
  | nil => rfl
  | cons first rest ih =>
      by_cases same : first.policyId = updated.policyId
      · have notFirst : first.policyId ≠ id := by
          rw [same]
          exact other
        simpa [same, other] using ih
      · simp only [List.map_cons, same, if_false, List.find?_cons, ih]

theorem find_insert (absent : store.find row.policyId = none) :
    (store.insert row).find row.policyId = some row := by
  unfold find at absent
  simp [find, insert, List.find?_append, absent]

theorem find_insert_of_ne (other : row.policyId ≠ id) :
    (store.insert row).find id = store.find id := by
  simp [find, insert, List.find?_append, other]

@[simp]
theorem bumpIf_rows (changed : Bool) :
    (store.bumpIf changed attempt).rows = store.rows := by
  unfold bumpIf
  split <;> rfl

@[simp]
theorem bumpIf_find (changed : Bool) :
    (store.bumpIf changed attempt).find id = store.find id := by
  unfold find
  rw [bumpIf_rows]

@[simp]
theorem bumpIf_false : store.bumpIf false attempt = store := rfl

theorem reconcileRow_of_found (found : store.find doc.policyId = some row) :
    store.reconcileRow deployment doc revision attempt =
      store.converge deployment row doc revision attempt.now := by
  unfold reconcileRow
  cases attempt.seenAbsent with
  | true => simp [found]
  | false => simp [found]

theorem reconcileRow_of_absent (absent : store.find doc.policyId = none) :
    store.reconcileRow deployment doc revision attempt =
      (.absent, store.insert
        (deployment.convergedModel doc doc.createdAt attempt.now revision)) := by
  unfold reconcileRow
  cases attempt.seenAbsent with
  | true => simp [absent]
  | false => simp [absent]

theorem reconcileSystem_ok :
    store.reconcileSystem deployment doc revision attempt =
        .ok (outcome, after) ↔
      validatePolicy deployment.frontend doc.source = .ok () ∧
        ∃ committed,
          store.reconcileRow deployment doc revision attempt =
            (outcome, committed) ∧
          after = committed.bumpIf outcome.contentChanged attempt := by
  unfold reconcileSystem
  cases validated : validatePolicy deployment.frontend doc.source with
  | error refusal => simp [bind, Except.bind]
  | ok passed =>
      cases reconciled : store.reconcileRow deployment doc revision attempt with
      | mk classified committed =>
          simp only [bind, Except.bind, pure, Except.pure, Except.ok.injEq,
            Prod.mk.injEq, true_and]
          constructor
          · rintro ⟨rfl, rfl⟩
            exact ⟨committed, ⟨rfl, rfl⟩, rfl⟩
          · rintro ⟨_, ⟨rfl, rfl⟩, rfl⟩
            exact ⟨rfl, rfl⟩

/-- A validated document is always reconciled. -/
theorem reconcileSystem_exists
    (valid : validatePolicy deployment.frontend doc.source = .ok ())
    (store : PolicyStore) (revision : Nat) (attempt : Attempt) :
    ∃ outcome after, store.reconcileSystem deployment doc revision attempt =
      .ok (outcome, after) :=
  ⟨_, _, reconcileSystem_ok.mpr ⟨valid, _, rfl, rfl⟩⟩

theorem find_singleton (generation : Nat) (sameId : row.policyId = id) :
    find ⟨[row], generation⟩ id = some row := by
  simp [find, sameId]

theorem convergedModel_matches (createdAt now : Timestamp) :
    AlreadyMatches deployment
      (deployment.convergedModel doc createdAt now revision).storedRow doc := by
  have kind : (deployment.convergedModel doc createdAt now
      revision).storedRow.doc.kind = doc.kind := by
    simp [PolicyModel.storedRow, Deployment.convergedModel,
      kindFromStr_policyKindStr]
  have description : (deployment.convergedModel doc createdAt now
      revision).storedRow.doc.description = doc.description := by
    simp only [PolicyModel.storedRow, Deployment.convergedModel]
    split
    case isTrue empty => simp [empty]
    case isFalse nonempty => rfl
  refine ⟨rfl, ?_, kind, rfl, description⟩
  unfold Deployment.fingerprintOf
  rw [kind, description]
  rfl

theorem convergedModel_revision (createdAt now : Timestamp) :
    (deployment.convergedModel doc createdAt now revision).revision =
      min revision I32.maxValue := by
  simp [PolicyModel.revision, PolicyModel.storedRow, Deployment.convergedModel,
    I32.ofNatSaturating_toNatOrZero]

/-- A converge writes the row the table model writes. -/
theorem convergedModel_storedRow (deployment : Deployment Condition)
    (doc : PolicyDocument) (fits : revision ≤ I32.maxValue)
    (createdAt now : Timestamp) :
    (deployment.convergedModel doc createdAt now revision).storedRow =
      deployment.convergedRow doc createdAt now revision := by
  have stamped : (I32.ofNatSaturating revision).toNatOrZero = revision := by
    rw [I32.ofNatSaturating_toNatOrZero, Nat.min_eq_left fits]
  have description :
      (if doc.description = "" then none else some doc.description).getD "" =
        doc.description := by
    split
    case isTrue empty => simp [empty]
    case isFalse nonempty => rfl
  simp [PolicyModel.storedRow, Deployment.convergedModel,
    Deployment.convergedRow, kindFromStr_policyKindStr, stamped, description]

theorem findRow_map (store : PolicyStore) (id : String) :
    findRow (store.rows.map PolicyModel.storedRow) id =
      (store.find id).map PolicyModel.storedRow := by
  unfold findRow find
  rw [List.find?_map]
  rfl

theorem replaceRow_map (store : PolicyStore) (updated : PolicyModel) :
    replaceRow (store.rows.map PolicyModel.storedRow) updated.storedRow =
      (store.update updated).rows.map PolicyModel.storedRow := by
  simp only [replaceRow, update, List.map_map]
  apply List.map_congr_left
  intro row _
  simp only [Function.comp_apply]
  split
  case isTrue same => rw [if_pos (by simpa [PolicyModel.storedRow] using same)]
  case isFalse other =>
    rw [if_neg (by simpa [PolicyModel.storedRow] using other)]

theorem converge_refines (deployment : Deployment Condition)
    (store : PolicyStore) (row : PolicyModel) (doc : PolicyDocument)
    (fits : revision ≤ I32.maxValue) (now : Timestamp) :
    deployment.converge (store.rows.map PolicyModel.storedRow) row.storedRow
        doc revision now =
      ((store.converge deployment row doc revision now).1,
        (store.converge deployment row doc revision now).2.rows.map
          PolicyModel.storedRow) := by
  have rewritten : replaceRow (store.rows.map PolicyModel.storedRow)
      (deployment.convergedRow doc row.createdAt now revision) =
        (store.update (deployment.convergedModel doc row.createdAt now
          revision)).rows.map PolicyModel.storedRow := by
    rw [← convergedModel_storedRow deployment doc fits]
    exact replaceRow_map store _
  unfold Deployment.converge converge
  cases deployment.classifyStarterPolicy (some row.storedRow) doc
      revision with
  | unchanged => rfl
  | staleBinary provenanceOk => rfl
  | absent => exact congrArg _ rewritten
  | adopted changed previous => exact congrArg _ rewritten
  | reconciled => exact congrArg _ rewritten
  | externallyModified changed previous => exact congrArg _ rewritten

/-- On the rows as the classification reads them, a call is the call of the
table model. -/
theorem reconcileSystem_refines (fits : revision ≤ I32.maxValue) :
    deployment.reconcileSystem (store.rows.map PolicyModel.storedRow) doc
        revision attempt.now attempt.seenAbsent =
      (store.reconcileSystem deployment doc revision attempt).map
        fun result => (result.1, result.2.rows.map PolicyModel.storedRow) := by
  unfold Deployment.reconcileSystem reconcileSystem
  cases validatePolicy deployment.frontend doc.source with
  | error refusal => rfl
  | ok passed =>
      have listed := findRow_map store doc.policyId
      cases found : store.find doc.policyId with
      | none =>
          have inserted := convergedModel_storedRow deployment doc fits
            doc.createdAt attempt.now
          rw [found] at listed
          simp [bind, Except.bind, pure, Except.pure, Except.map, listed,
            reconcileRow_of_absent found, insert, inserted]
      | some row =>
          have converged := converge_refines deployment store row doc fits
            attempt.now
          rw [found] at listed
          simp only [bind, Except.bind, pure, Except.pure, Except.map, listed,
            Option.map_some, reconcileRow_of_found found, bumpIf_rows]
          cases attempt.seenAbsent with
          | true => exact congrArg Except.ok converged
          | false => exact congrArg Except.ok converged

/-- What a call does with a row that is not of a later revision. -/
theorem converge_of_not_later (deployment : Deployment Condition)
    (store : PolicyStore) (doc : PolicyDocument)
    (notLater : row.revision ≤ revision) (now : Timestamp) :
    (AlreadyMatches deployment row.storedRow doc ∧
        store.converge deployment row doc revision now =
          (.unchanged, store)) ∨
      (¬ AlreadyMatches deployment row.storedRow doc ∧
        ∃ outcome, outcome.writes = true ∧ outcome ≠ .absent ∧
          store.converge deployment row doc revision now =
            (outcome, store.update
              (deployment.convergedModel doc row.createdAt now revision))) := by
  unfold converge
  rcases Deployment.classify_of_not_later notLater with
    ⟨matching, unchanged⟩ | ⟨mismatch, writing⟩
  · refine .inl ⟨matching, ?_⟩
    rw [unchanged]
    rfl
  · refine .inr ⟨mismatch, _, writing, Deployment.classify_some_ne_absent, ?_⟩
    simp only [writing, if_true]

theorem converge_of_later (later : revision < row.revision)
    (now : Timestamp) :
    store.converge deployment row doc revision now =
      (.staleBinary (deployment.provenanceOk row.storedRow), store) := by
  unfold converge
  rw [Deployment.classify_stale later]
  rfl

theorem reconcileSystem_unchanged
    (valid : validatePolicy deployment.frontend doc.source = .ok ())
    (found : store.find doc.policyId = some row)
    (notLater : row.revision ≤ revision)
    (matching : AlreadyMatches deployment row.storedRow doc) :
    store.reconcileSystem deployment doc revision attempt =
      .ok (.unchanged, store) := by
  apply reconcileSystem_ok.mpr
  refine ⟨valid, store, ?_, rfl⟩
  rw [reconcileRow_of_found found]
  rcases converge_of_not_later deployment store doc notLater attempt.now with
    ⟨_, unchanged⟩ | ⟨mismatch, _⟩
  · exact unchanged
  · exact absurd matching mismatch

/-- What a call that returns can do to the table. -/
inductive RowEffect (deployment : Deployment Condition) (doc : PolicyDocument)
    (revision : Nat) (before : PolicyStore) :
    StarterPolicyOutcome → PolicyStore → Prop
  | deferred (provenanceOk : Bool) (row : PolicyModel)
      (found : before.find doc.policyId = some row)
      (later : revision < row.revision) :
      RowEffect deployment doc revision before (.staleBinary provenanceOk)
        before
  | kept (row : PolicyModel) (found : before.find doc.policyId = some row)
      (matching : AlreadyMatches deployment row.storedRow doc) :
      RowEffect deployment doc revision before .unchanged before
  | stamped (outcome : StarterPolicyOutcome) (after : PolicyStore)
      (createdAt now : Timestamp) (writing : outcome.writes = true)
      (rewrites : ∀ old, before.find doc.policyId = some old →
        old.revision ≤ revision ∧
          ¬ AlreadyMatches deployment old.storedRow doc)
      (stored : after.find doc.policyId =
        some (deployment.convergedModel doc createdAt now revision))
      (others : ∀ id, id ≠ doc.policyId → after.find id = before.find id) :
      RowEffect deployment doc revision before outcome after

theorem reconcileSystem_effect
    (called : store.reconcileSystem deployment doc revision attempt =
      .ok (outcome, after)) :
    RowEffect deployment doc revision store outcome after := by
  obtain ⟨_, committed, done, rfl⟩ := reconcileSystem_ok.mp called
  cases stored : store.find doc.policyId with
  | none =>
      rw [reconcileRow_of_absent stored] at done
      cases done
      apply RowEffect.stamped .absent _ doc.createdAt attempt.now rfl
      · intro old found
        rw [stored] at found
        cases found
      · rw [bumpIf_find]
        exact find_insert stored
      · intro id other
        rw [bumpIf_find]
        exact find_insert_of_ne (Ne.symm other)
  | some row =>
      rw [reconcileRow_of_found stored] at done
      by_cases later : revision < row.revision
      · rw [converge_of_later later] at done
        cases done
        exact .deferred _ row stored later
      · have notLater : row.revision ≤ revision := by
          omega
        rcases converge_of_not_later deployment store doc notLater
            attempt.now with
          ⟨matching, unchanged⟩ | ⟨mismatch, written, writing, _, rewritten⟩
        · rw [unchanged] at done
          cases done
          exact .kept row stored matching
        · rw [rewritten] at done
          cases done
          apply RowEffect.stamped outcome _ row.createdAt attempt.now writing
          · intro old found
            rw [stored] at found
            cases found
            exact ⟨notLater, mismatch⟩
          · rw [bumpIf_find]
            exact find_update stored
          · intro id other
            rw [bumpIf_find]
            exact find_update_of_ne (Ne.symm other)

/-- The columns of the row hold the document's own values. -/
structure Holds (doc : PolicyDocument) (row : PolicyModel) : Prop where
  kind : row.kind = policyKindStr doc.kind
  source : row.source = doc.source
  description : row.description.getD "" = doc.description
  system : row.system = doc.system

/-- The stored row holds the document, and a further call with it reports
`unchanged` and writes nothing. -/
def Converged (deployment : Deployment Condition) (store : PolicyStore)
    (doc : PolicyDocument) (revision : Nat) : Prop :=
  (∃ row, store.find doc.policyId = some row ∧ Holds doc row) ∧
    ∀ later, store.reconcileSystem deployment doc revision later =
      .ok (.unchanged, store)

/-- The kind column is unreadable and everything else about the row is what a
boot would have written for the static document. -/
structure HiddenByCoercion (deployment : Deployment Condition)
    (row : PolicyModel) (doc : PolicyDocument) : Prop where
  unreadable : kindFromStr row.kind = none
  static : doc.kind = .static
  source : row.source = doc.source
  description : row.description.getD "" = doc.description
  system : row.system = true
  fingerprint : row.contentFingerprint = some (deployment.fingerprintOf doc)

theorem hidden_iff_matches (unreadable : kindFromStr row.kind = none) :
    HiddenByCoercion deployment row doc ↔
      AlreadyMatches deployment row.storedRow doc := by
  have readAsStatic : row.storedRow.doc.kind = .static := by
    simp [PolicyModel.storedRow, unreadable]
  constructor
  · intro hidden
    have kind : row.storedRow.doc.kind = doc.kind := by
      rw [readAsStatic, hidden.static]
    refine ⟨hidden.system, ?_, kind, hidden.source, hidden.description⟩
    have sameFingerprint : deployment.fingerprintOf row.storedRow.doc =
        deployment.fingerprintOf doc := by
      unfold Deployment.fingerprintOf
      rw [kind]
      exact congrArg₂ _ hidden.source hidden.description
    rw [sameFingerprint]
    exact hidden.fingerprint
  · intro matching
    refine ⟨unreadable, ?_, matching.source, matching.description,
      matching.system, ?_⟩
    · rw [← matching.kind, readAsStatic]
    · have stamped := matching.fingerprint
      unfold Deployment.fingerprintOf at stamped ⊢
      rw [matching.kind, matching.source, matching.description] at stamped
      exact stamped

/-- A row that matches holds the document unless its kind was only guessed. -/
theorem holds_iff_readable (system : doc.system = true)
    (matching : AlreadyMatches deployment row.storedRow doc) :
    Holds doc row ↔ kindFromStr row.kind ≠ none := by
  constructor
  · intro holds unreadable
    rw [holds.kind, kindFromStr_policyKindStr] at unreadable
    cases unreadable
  · intro readable
    obtain ⟨kind, read⟩ := Option.ne_none_iff_exists'.mp readable
    have sameKind := matching.kind
    simp only [PolicyModel.storedRow, read, Option.getD_some] at sameKind
    subst sameKind
    refine ⟨policyKindStr_of_kindFromStr read, matching.source,
      matching.description, ?_⟩
    rw [system]
    exact matching.system

theorem convergedModel_holds (system : doc.system = true)
    (createdAt now : Timestamp) :
    Holds doc (deployment.convergedModel doc createdAt now revision) := by
  refine ⟨rfl, rfl, ?_, ?_⟩
  · exact (convergedModel_matches createdAt now).description
  · rw [system]
    rfl

theorem revision_le (notAbove : ∀ stored, row.starterRevision = some stored →
    stored.val ≤ revision) : row.revision ≤ revision := by
  unfold PolicyModel.revision PolicyModel.storedRow
  cases stamped : row.starterRevision with
  | none => simp
  | some stored =>
      have bound := notAbove stored stamped
      simp only [Option.map_some, Option.getD_some, I32.toNatOrZero]
      omega

/-- A call on a row that is not of a later revision converges it unless the
row hides an unreadable kind. -/
theorem converges_iff_not_hidden (system : doc.system = true)
    (stored : store.find doc.policyId = some row)
    (notAbove : ∀ stamped, row.starterRevision = some stamped →
      stamped.val ≤ revision)
    (reconciled : store.reconcileSystem deployment doc revision attempt =
      .ok (outcome, after)) :
    Converged deployment after doc revision ↔
      ¬ HiddenByCoercion deployment row doc := by
  have notLater : row.revision ≤ revision := revision_le notAbove
  obtain ⟨valid, committed, done, rfl⟩ := reconcileSystem_ok.mp reconciled
  rw [reconcileRow_of_found stored] at done
  rcases converge_of_not_later deployment store doc notLater attempt.now with
    ⟨matching, unchanged⟩ | ⟨mismatch, written, _, _, rewritten⟩
  · rw [unchanged] at done
    cases done
    constructor
    · rintro ⟨⟨other, found, holds⟩, _⟩ hidden
      simp only [StarterPolicyOutcome.contentChanged, bumpIf_false] at found
      rw [stored] at found
      cases found
      exact (holds_iff_readable system matching).mp holds hidden.unreadable
    · intro notHidden
      refine ⟨⟨row, stored, ?_⟩, fun later => ?_⟩
      · apply (holds_iff_readable system matching).mpr
        intro unreadable
        exact notHidden ((hidden_iff_matches unreadable).mpr matching)
      · exact reconcileSystem_unchanged valid stored notLater matching
  · rw [rewritten] at done
    cases done
    have found : (store.update (deployment.convergedModel doc row.createdAt
        attempt.now revision)).find doc.policyId =
          some (deployment.convergedModel doc row.createdAt attempt.now
            revision) := find_update stored
    constructor
    · rintro _ hidden
      exact mismatch ((hidden_iff_matches hidden.unreadable).mp hidden)
    · intro _
      have foundAfter : PolicyStore.find (PolicyStore.bumpIf
          (store.update (deployment.convergedModel doc row.createdAt
            attempt.now revision)) outcome.contentChanged attempt)
          doc.policyId = some (deployment.convergedModel doc row.createdAt
            attempt.now revision) := by
        rw [bumpIf_find, found]
      refine ⟨⟨_, foundAfter,
        convergedModel_holds system row.createdAt attempt.now⟩,
        fun later => ?_⟩
      apply reconcileSystem_unchanged valid foundAfter
      · rw [convergedModel_revision]
        exact Nat.min_le_left _ _
      · exact convergedModel_matches row.createdAt attempt.now

end PolicyStore

/-- A release: the documents it carries and the revision it declares for
them. -/
structure Binary (Condition : Type) where
  deployment : Deployment Condition
  revision : Nat
  starterPolicies : List PolicyDocument

structure ReconcileEvent where
  policyId : String
  revision : Nat
  outcome : StarterPolicyOutcome
deriving DecidableEq

/-- The shared table, and the calls that returned on it so far. -/
structure Fleet where
  store : PolicyStore
  log : List ReconcileEvent

structure ReconcileCall (Condition : Type) where
  binary : Binary Condition
  doc : PolicyDocument
  attempt : Attempt

inductive FailureKind where
  | survivable
  | fatalMissingRow
  | fatalUnknownSnapshot
deriving DecidableEq

def classifyFailure (snapshot : Option (List String)) (key : String) :
    FailureKind :=
  match snapshot with
  | some ids => if key ∈ ids then .survivable else .fatalMissingRow
  | none => .fatalUnknownSnapshot

namespace Fleet

/-- One call on the shared table.  A call that fails has rolled back. -/
def reconcile (fleet : Fleet) (call : ReconcileCall Condition) :
    Option Fleet :=
  if call.attempt.backendFails then
    none
  else
    match fleet.store.reconcileSystem call.binary.deployment call.doc
        call.binary.revision call.attempt with
    | .error _ => none
    | .ok (outcome, store) =>
        some ⟨store, fleet.log ++
          [⟨call.doc.policyId, call.binary.revision, outcome⟩]⟩

/-- The calls of all boots on one table, in any order. -/
def step (fleet : Fleet) (call : ReconcileCall Condition) : Option Fleet :=
  if call.doc ∈ call.binary.starterPolicies then
    some ((fleet.reconcile call).getD fleet)
  else
    none

/-- One boot: the documents in their order, each with what the environment
answers to its call.  The second component says whether the boot went on. -/
def reconcilePolicies (binary : Binary Condition)
    (existingIds : Option (List String)) (fleet : Fleet) :
    List (PolicyDocument × Attempt) → Fleet × Bool
  | [] => (fleet, true)
  | (doc, attempt) :: rest =>
      match fleet.reconcile ⟨binary, doc, attempt⟩ with
      | some next => reconcilePolicies binary existingIds next rest
      | none =>
          match classifyFailure existingIds doc.policyId with
          | .survivable => reconcilePolicies binary existingIds fleet rest
          | _ => (fleet, false)

/-- Every boot is a run of calls, so any sequence of boots is one too. -/
theorem reconcilePolicies_run (binary : Binary Condition)
    (existingIds : Option (List String)) (fleet : Fleet)
    (boot : List (PolicyDocument × Attempt))
    (carried : ∀ entry ∈ boot, entry.1 ∈ binary.starterPolicies) :
    ∃ calls : List (ReconcileCall Condition),
      runFrom step fleet calls =
        some (reconcilePolicies binary existingIds fleet boot).1 := by
  induction boot generalizing fleet with
  | nil => exact ⟨[], rfl⟩
  | cons entry rest ih =>
      obtain ⟨doc, attempt⟩ := entry
      have known : doc ∈ binary.starterPolicies :=
        carried (doc, attempt) List.mem_cons_self
      have others : ∀ entry ∈ rest, entry.1 ∈ binary.starterPolicies :=
        fun entry member => carried entry (List.mem_cons_of_mem _ member)
      have stepped : step fleet ⟨binary, doc, attempt⟩ = some
          ((fleet.reconcile ⟨binary, doc, attempt⟩).getD fleet) :=
        if_pos known
      unfold reconcilePolicies
      cases called : fleet.reconcile ⟨binary, doc, attempt⟩ with
      | some next =>
          obtain ⟨calls, run⟩ := ih next others
          rw [called] at stepped
          exact ⟨_ :: calls, runFrom_cons.mpr ⟨next, stepped, run⟩⟩
      | none =>
          cases classifyFailure existingIds doc.policyId with
          | survivable =>
              obtain ⟨calls, run⟩ := ih fleet others
              rw [called] at stepped
              exact ⟨_ :: calls, runFrom_cons.mpr ⟨fleet, stepped, run⟩⟩
          | fatalMissingRow => exact ⟨[], rfl⟩
          | fatalUnknownSnapshot => exact ⟨[], rfl⟩

end Fleet

namespace ReconcileEvent

/-- The event wrote the row or found it matching. -/
def confirms (event : ReconcileEvent) (policyId : String) : Bool :=
  event.policyId = policyId &&
    (event.outcome.writes || event.outcome = .unchanged)

/-- The event wrote over a row that was there. -/
def overwrites (event : ReconcileEvent) : Bool :=
  event.outcome.writes && event.outcome ≠ .absent

end ReconcileEvent

/-- The revision that last wrote the row or found it matching. -/
def lastConfirmed (log : List ReconcileEvent) (policyId : String) :
    Option Nat :=
  ((log.filter (·.confirms policyId)).getLast?).map ReconcileEvent.revision

/-- No call overwrites a row that a later revision was the last to confirm. -/
def NeverRegresses (log : List ReconcileEvent) : Prop :=
  ∀ position event, log[position]? = some event → event.overwrites = true →
    ∀ confirmed, lastConfirmed (log.take position) event.policyId =
      some confirmed → confirmed ≤ event.revision

/-- The call's revision fits the column, and a row it would find matching is
not stamped with a lower revision. -/
def StampIsCurrent (fleet : Fleet) (call : ReconcileCall Condition) : Prop :=
  call.binary.revision ≤ I32.maxValue ∧
    ∀ row, fleet.store.find call.doc.policyId = some row →
      AlreadyMatches call.binary.deployment row.storedRow call.doc →
        call.binary.revision ≤ row.revision

theorem lastConfirmed_append (log : List ReconcileEvent)
    (event : ReconcileEvent) (policyId : String) :
    lastConfirmed (log ++ [event]) policyId =
      if event.confirms policyId then some event.revision
      else lastConfirmed log policyId := by
  unfold lastConfirmed
  rw [List.filter_append]
  by_cases confirming : event.confirms policyId = true
  · simp [confirming]
  · simp [confirming]

theorem NeverRegresses.append {log : List ReconcileEvent}
    {event : ReconcileEvent} (before : NeverRegresses log)
    (here : event.overwrites = true → ∀ confirmed,
      lastConfirmed log event.policyId = some confirmed →
        confirmed ≤ event.revision) : NeverRegresses (log ++ [event]) := by
  intro position found isAt overwriting confirmed isLast
  rcases at_append.mp isAt with old | ⟨rfl, rfl⟩
  · have inside : position ≤ log.length := (at_lt old).le
    rw [List.take_append_of_le_length inside] at isLast
    exact before position found old overwriting confirmed isLast
  · rw [List.take_left] at isLast
    exact here overwriting confirmed isLast

namespace Fleet

variable {fleet next : Fleet} {call : ReconcileCall Condition}

/-- What one call can do to the table and the log. -/
inductive CallEffect (fleet : Fleet) (call : ReconcileCall Condition) :
    Fleet → Prop
  | failed : CallEffect fleet call fleet
  | deferred (provenanceOk : Bool) : CallEffect fleet call
      ⟨fleet.store, fleet.log ++ [⟨call.doc.policyId, call.binary.revision,
        .staleBinary provenanceOk⟩]⟩
  | confirmed (row : PolicyModel)
      (found : fleet.store.find call.doc.policyId = some row)
      (matching : AlreadyMatches call.binary.deployment row.storedRow
        call.doc) :
      CallEffect fleet call
        ⟨fleet.store, fleet.log ++ [⟨call.doc.policyId,
          call.binary.revision, .unchanged⟩]⟩
  | written (outcome : StarterPolicyOutcome) (store : PolicyStore)
      (row : PolicyModel) (writing : outcome.writes = true)
      (notLater : ∀ old, fleet.store.find call.doc.policyId = some old →
        old.revision ≤ call.binary.revision)
      (stored : store.find call.doc.policyId = some row)
      (stamped : row.revision = min call.binary.revision I32.maxValue)
      (others : ∀ id, id ≠ call.doc.policyId →
        store.find id = fleet.store.find id) :
      CallEffect fleet call
        ⟨store, fleet.log ++ [⟨call.doc.policyId, call.binary.revision,
          outcome⟩]⟩

theorem step_effect (stepped : step fleet call = some next) :
    CallEffect fleet call next := by
  unfold step at stepped
  split at stepped
  case isFalse unknown => cases stepped
  case isTrue known =>
    cases stepped
    unfold reconcile
    split
    case isTrue failing => exact .failed
    case isFalse working =>
      cases called : fleet.store.reconcileSystem call.binary.deployment
          call.doc call.binary.revision call.attempt with
      | error refusal => exact .failed
      | ok result =>
          obtain ⟨outcome, after⟩ := result
          cases PolicyStore.reconcileSystem_effect called with
          | deferred provenanceOk row found later =>
              exact .deferred provenanceOk
          | kept row found matching => exact .confirmed row found matching
          | stamped outcome after createdAt now writing rewrites stored
              others =>
              apply CallEffect.written outcome _ _ writing
              · intro old found
                exact (rewrites old found).1
              · exact stored
              · exact PolicyStore.convergedModel_revision _ _
              · exact others

/-- Every confirmed row is stamped at least with the revision that confirmed
it last, and the log so far does not regress. -/
structure Monotone (fleet : Fleet) : Prop where
  stamped : ∀ id confirmed, lastConfirmed fleet.log id = some confirmed →
    ∃ row, fleet.store.find id = some row ∧ confirmed ≤ row.revision
  history : NeverRegresses fleet.log

theorem Monotone.step (monotone : Monotone fleet)
    (current : StampIsCurrent fleet call)
    (stepped : fleet.step call = some next) : Monotone next := by
  cases step_effect stepped with
  | failed => exact monotone
  | deferred provenanceOk =>
      constructor
      · intro id confirmed isLast
        rw [lastConfirmed_append] at isLast
        apply monotone.stamped id confirmed
        simpa [ReconcileEvent.confirms, StarterPolicyOutcome.writes]
          using isLast
      · apply monotone.history.append
        intro overwriting
        cases overwriting
  | confirmed row found matching =>
      constructor
      · intro id confirmed isLast
        rw [lastConfirmed_append] at isLast
        split at isLast
        case isTrue confirming =>
          cases isLast
          have sameId : call.doc.policyId = id := by
            simpa [ReconcileEvent.confirms] using confirming
          subst sameId
          exact ⟨row, found, current.2 row found matching⟩
        case isFalse other => exact monotone.stamped id confirmed isLast
      · apply monotone.history.append
        intro overwriting
        cases overwriting
  | written outcome store row writing notLater stored stamped others =>
      constructor
      · intro id confirmed isLast
        rw [lastConfirmed_append] at isLast
        by_cases sameId : call.doc.policyId = id
        · subst sameId
          rw [if_pos (by simp [ReconcileEvent.confirms, writing])] at isLast
          cases isLast
          refine ⟨row, stored, ?_⟩
          rw [stamped, Nat.min_eq_left current.1]
        · rw [if_neg (by simp [ReconcileEvent.confirms, sameId])] at isLast
          obtain ⟨old, found, bound⟩ := monotone.stamped id confirmed isLast
          exact ⟨old, by rw [others id (Ne.symm sameId), found], bound⟩
      · apply monotone.history.append
        intro overwriting confirmed isLast
        obtain ⟨old, found, bound⟩ :=
          monotone.stamped call.doc.policyId confirmed isLast
        exact bound.trans (notLater old found)

/-- Whatever the table holds at first, no run whose stamps are current lets a
lower revision overwrite what a later one confirmed. -/
theorem never_regresses {initial : PolicyStore}
    {calls : List (ReconcileCall Condition)}
    (current : EveryStep Fleet.step StampIsCurrent ⟨initial, []⟩ calls)
    (run : runFrom Fleet.step ⟨initial, []⟩ calls = some fleet) :
    NeverRegresses fleet.log := by
  have initially : Monotone ⟨initial, []⟩ := by
    constructor
    · intro id confirmed isLast
      cases isLast
    · intro position event isAt
      cases isAt
  have monotone : Monotone fleet :=
    runFrom_invariant_of_everyStep
      (fun _ _ _ holds condition stepped => holds.step condition stepped)
      initially current run
  exact monotone.history

theorem step_of_reconciled {outcome : StarterPolicyOutcome}
    {after : PolicyStore} (known : call.doc ∈ call.binary.starterPolicies)
    (working : call.attempt.backendFails = false)
    (called : fleet.store.reconcileSystem call.binary.deployment call.doc
      call.binary.revision call.attempt = .ok (outcome, after)) :
    fleet.step call = some ⟨after, fleet.log ++
      [⟨call.doc.policyId, call.binary.revision, outcome⟩]⟩ := by
  simp [step, reconcile, known, working, called]

end Fleet

section ArchivedDenial

/-- The static starter document under a given wording of its description. -/
def denial (wording : String) : PolicyDocument :=
  { policyId := forbidArchivedWritesId
    kind := .static
    source := forbidArchivedWritesSource
    description := wording
    system := true
    createdAt := 1
    updatedAt := 1 }

def firstWording : String := "Deny writes below an archived node."

def secondWording : String := "Deny every write below an archived node."

def firstDigest : Vector UInt8 32 :=
  #v[105, 171, 152, 160, 195, 151, 166, 59, 253, 61, 9, 110, 237, 44, 205,
    122, 49, 59, 166, 178, 45, 104, 85, 94, 223, 52, 125, 137, 189, 164, 230,
    138]

def secondDigest : Vector UInt8 32 :=
  #v[184, 56, 37, 90, 14, 185, 68, 224, 177, 183, 251, 98, 232, 89, 154, 198,
    215, 21, 226, 253, 231, 247, 163, 60, 100, 113, 188, 38, 201, 151, 17, 86]

/-- The hash of the two wordings. -/
def denialBlake3 (bytes : List UInt8) : Vector UInt8 32 :=
  if bytes = fingerprintEncoding .static forbidArchivedWritesSource
      firstWording then
    firstDigest
  else if bytes = fingerprintEncoding .static forbidArchivedWritesSource
      secondWording then
    secondDigest
  else
    Vector.replicate 32 0

def denialDeployment : Deployment String where
  frontend := Tables.starterFrontend
  contentFingerprint := contentFingerprint denialBlake3

def calmly : Attempt := ⟨7, false, false, false⟩

theorem denial_valid : validatePolicy denialDeployment.frontend
    forbidArchivedWritesSource = .ok () :=
  validatePolicy_ok Tables.starterFrontend_forbids rfl

theorem denial_fingerprint :
    denialDeployment.fingerprintOf (denial firstWording) =
      "69ab98a0c397a63bfd3d096eed2ccd7a313ba6b22d68555edf347d89bda4e68a" := by
  change String.ofList (toHex (denialBlake3 (fingerprintEncoding .static
    forbidArchivedWritesSource firstWording)).toList) = _
  unfold denialBlake3
  rw [if_pos rfl]
  decide

/-- The row of the current boot, but for its kind. -/
def corruptRow : PolicyModel where
  policyId := "forbid-archived-writes"
  kind := "statik"
  source := forbidArchivedWritesSource
  description := some "Deny writes below an archived node."
  system := true
  createdAt := 1
  updatedAt := 7
  contentFingerprint := some
    "69ab98a0c397a63bfd3d096eed2ccd7a313ba6b22d68555edf347d89bda4e68a"
  starterRevision := some ⟨4, by decide⟩

theorem corruptRow_hidden : PolicyStore.HiddenByCoercion denialDeployment
    corruptRow (denial firstWording) := by
  refine ⟨by decide, rfl, rfl, rfl, rfl, ?_⟩
  rw [denial_fingerprint]
  rfl

/-- The boot reports `unchanged` and the unreadable kind stays. -/
theorem corruptKind_survives :
    (denial firstWording).system = true ∧
      (∀ stamped, corruptRow.starterRevision = some stamped →
        stamped.val ≤ 4) ∧
      PolicyStore.reconcileSystem denialDeployment ⟨[corruptRow], 0⟩
          (denial firstWording) 4 calmly =
        .ok (.unchanged, ⟨[corruptRow], 0⟩) ∧
      corruptRow.kind ≠ policyKindStr (denial firstWording).kind ∧
      ¬ PolicyStore.Converged denialDeployment ⟨[corruptRow], 0⟩
        (denial firstWording) 4 := by
  have notAbove : ∀ stamped, corruptRow.starterRevision = some stamped →
      stamped.val ≤ 4 := by
    rintro stamped isStamped
    cases isStamped
    decide
  have found : PolicyStore.find ⟨[corruptRow], 0⟩
      (denial firstWording).policyId = some corruptRow :=
    PolicyStore.find_singleton 0 rfl
  have different :
      corruptRow.kind ≠ policyKindStr (denial firstWording).kind := by
    decide
  refine ⟨rfl, notAbove, ?_, different, ?_⟩
  · exact PolicyStore.reconcileSystem_unchanged denial_valid found
      (PolicyStore.revision_le notAbove)
      ((PolicyStore.hidden_iff_matches corruptRow_hidden.unreadable).mp
        corruptRow_hidden)
  · rintro ⟨⟨row, stored, holds⟩, _⟩
    rw [found] at stored
    cases stored
    exact different holds.kind

/-- A hand-edited row: an unreadable kind, a cleared description and a
negative revision. -/
def editedRow : PolicyModel :=
  { corruptRow with description := none, starterRevision := some ⟨-3, by decide⟩ }

theorem editedRow_converges :
    ∃ outcome after,
      PolicyStore.reconcileSystem denialDeployment ⟨[editedRow], 0⟩
        (denial firstWording) 4 calmly = .ok (outcome, after) ∧
      PolicyStore.Converged denialDeployment after (denial firstWording) 4 := by
  have notAbove : ∀ stamped, editedRow.starterRevision = some stamped →
      stamped.val ≤ 4 := by
    rintro stamped isStamped
    cases isStamped
    decide
  have found : PolicyStore.find ⟨[editedRow], 0⟩
      (denial firstWording).policyId = some editedRow :=
    PolicyStore.find_singleton 0 rfl
  have valid : validatePolicy denialDeployment.frontend
      (denial firstWording).source = .ok () := denial_valid
  obtain ⟨outcome, after, reconciled⟩ :=
    PolicyStore.reconcileSystem_exists valid ⟨[editedRow], 0⟩ 4 calmly
  refine ⟨outcome, after, reconciled, ?_⟩
  apply (PolicyStore.converges_iff_not_hidden rfl found notAbove
    reconciled).mpr
  intro hidden
  have cleared := hidden.description
  revert cleared
  decide

/-- A release whose first document has the given wording. -/
def release (revision : Nat) (wording : String) : Binary String where
  deployment := denialDeployment
  revision := revision
  starterPolicies := denial wording :: (starterPolicies 1).tail

def denialCall (revision : Nat) (wording : String) : ReconcileCall String :=
  ⟨release revision wording, denial wording, calmly⟩

/-- The row a release writes. -/
def denialRow (revision : Nat) (wording : String) : PolicyModel :=
  denialDeployment.convergedModel (denial wording) 1 7 revision

theorem denialRow_found (revision generation : Nat)
    (wording other : String) :
    PolicyStore.find ⟨[denialRow revision wording], generation⟩
      (denial other).policyId = some (denialRow revision wording) :=
  PolicyStore.find_singleton generation rfl

theorem denialRow_matches_iff (revision : Nat) (wording other : String) :
    AlreadyMatches denialDeployment (denialRow revision wording).storedRow
      (denial other) ↔ wording = other := by
  have stored : AlreadyMatches denialDeployment
      (denialRow revision wording).storedRow (denial wording) :=
    PolicyStore.convergedModel_matches 1 7
  constructor
  · intro matching
    have same := matching.description
    rw [stored.description] at same
    exact same
  · rintro rfl
    exact stored

theorem step_seeds (revision : Nat) (wording : String)
    (log : List ReconcileEvent) :
    Fleet.step ⟨⟨[], 0⟩, log⟩ (denialCall revision wording) =
      some ⟨⟨[denialRow revision wording], 1⟩,
        log ++ [⟨forbidArchivedWritesId, revision, .absent⟩]⟩ := by
  apply Fleet.step_of_reconciled List.mem_cons_self rfl
  apply PolicyStore.reconcileSystem_ok.mpr
  refine ⟨denial_valid, ⟨[denialRow revision wording], 0⟩, ?_, rfl⟩
  exact PolicyStore.reconcileRow_of_absent rfl

theorem denialRow_revision_le (revision : Nat) (wording : String) :
    (denialRow revision wording).revision ≤ revision := by
  unfold denialRow
  rw [PolicyStore.convergedModel_revision]
  exact Nat.min_le_left _ _

theorem step_confirms {stamped revision : Nat} (wording : String)
    (generation : Nat) (log : List ReconcileEvent)
    (notLater : stamped ≤ revision) :
    Fleet.step ⟨⟨[denialRow stamped wording], generation⟩, log⟩
        (denialCall revision wording) =
      some ⟨⟨[denialRow stamped wording], generation⟩,
        log ++ [⟨forbidArchivedWritesId, revision, .unchanged⟩]⟩ := by
  apply Fleet.step_of_reconciled List.mem_cons_self rfl
  exact PolicyStore.reconcileSystem_unchanged denial_valid
    (denialRow_found stamped generation wording wording)
    ((denialRow_revision_le stamped wording).trans notLater)
    ((denialRow_matches_iff stamped wording wording).mpr rfl)

theorem step_rewrites {stamped revision : Nat} {wording other : String}
    (generation : Nat) (log : List ReconcileEvent)
    (notLater : stamped ≤ revision) (changed : wording ≠ other) :
    ∃ outcome store, outcome.writes = true ∧ outcome ≠ .absent ∧
      Fleet.step ⟨⟨[denialRow stamped wording], generation⟩, log⟩
          (denialCall revision other) =
        some ⟨store,
          log ++ [⟨forbidArchivedWritesId, revision, outcome⟩]⟩ := by
  rcases PolicyStore.converge_of_not_later denialDeployment
      ⟨[denialRow stamped wording], generation⟩ (denial other)
      ((denialRow_revision_le stamped wording).trans notLater) 7 with
    ⟨matching, _⟩ | ⟨_, outcome, writing, present, rewritten⟩
  · exact absurd ((denialRow_matches_iff stamped wording other).mp matching)
      changed
  · have reconciled : PolicyStore.reconcileRow denialDeployment
        ⟨[denialRow stamped wording], generation⟩ (denial other) revision
        calmly = (outcome, _) :=
      (PolicyStore.reconcileRow_of_found
        (denialRow_found stamped generation wording other)).trans rewritten
    exact ⟨outcome, _, writing, present,
      Fleet.step_of_reconciled List.mem_cons_self rfl
        (PolicyStore.reconcileSystem_ok.mpr
          ⟨denial_valid, _, reconciled, rfl⟩)⟩

/-- Revision 4 rewords the row of revision 3. -/
theorem reworded_row_refines :
    denialDeployment.reconcileSystem
        ([denialRow 3 firstWording].map PolicyModel.storedRow)
        (denial secondWording) 4 calmly.now calmly.seenAbsent =
      (PolicyStore.reconcileSystem denialDeployment
          ⟨[denialRow 3 firstWording], 1⟩ (denial secondWording) 4 calmly).map
        fun result =>
          (result.1, result.2.rows.map PolicyModel.storedRow) := by
  have fits : 4 ≤ I32.maxValue := by decide
  exact @PolicyStore.reconcileSystem_refines String denialDeployment
    ⟨[denialRow 3 firstWording], 1⟩ (denial secondWording) 4 calmly fits

/-- Revision 5 finds the row of revision 3 matching and does not restamp it,
so revision 4 overwrites it afterwards. -/
theorem confirmed_row_is_overwritten :
    ∃ fleet, runFrom Fleet.step ⟨⟨[], 0⟩, []⟩
        [denialCall 3 firstWording, denialCall 5 firstWording,
          denialCall 4 secondWording] = some fleet ∧
      lastConfirmed (fleet.log.take 2) forbidArchivedWritesId = some 5 ∧
      (∃ event, fleet.log[2]? = some event ∧ event.revision = 4 ∧
        event.policyId = forbidArchivedWritesId ∧ event.overwrites = true) ∧
      ¬ NeverRegresses fleet.log := by
  have notLater : 3 ≤ 4 := by decide
  have changed : firstWording ≠ secondWording := by decide
  have confirmed : lastConfirmed
      [⟨forbidArchivedWritesId, 3, .absent⟩,
        ⟨forbidArchivedWritesId, 5, .unchanged⟩] forbidArchivedWritesId =
      some 5 := by decide
  obtain ⟨outcome, store, writing, present, rewritten⟩ :=
    step_rewrites 1 _ notLater changed
  have overwriting : ReconcileEvent.overwrites
      ⟨forbidArchivedWritesId, 4, outcome⟩ = true := by
    simp [ReconcileEvent.overwrites, writing, present]
  refine ⟨_, runFrom_cons.mpr ⟨_, step_seeds 3 firstWording [],
    runFrom_cons.mpr ⟨_, step_confirms firstWording 1 _ (by decide),
      runFrom_cons.mpr ⟨_, rewritten, rfl⟩⟩⟩, confirmed,
    ⟨_, rfl, rfl, rfl, overwriting⟩, ?_⟩
  intro regular
  have bound : 5 ≤ 4 := regular 2 _ rfl overwriting 5 confirmed
  omega

/-- Revision 4 rewrites the row that revision 3 wrote. -/
theorem upgraded_row_is_kept :
    ∃ fleet, runFrom Fleet.step ⟨⟨[], 0⟩, []⟩
        [denialCall 3 firstWording, denialCall 4 secondWording] =
          some fleet ∧
      NeverRegresses fleet.log := by
  have notLater : 3 ≤ 4 := by decide
  have changed : firstWording ≠ secondWording := by decide
  obtain ⟨outcome, store, writing, present, rewritten⟩ :=
    step_rewrites 1 _ notLater changed
  have run : runFrom Fleet.step ⟨⟨[], 0⟩, []⟩
      [denialCall 3 firstWording, denialCall 4 secondWording] = some
        ⟨store, [⟨forbidArchivedWritesId, 3, .absent⟩,
          ⟨forbidArchivedWritesId, 4, outcome⟩]⟩ :=
    runFrom_cons.mpr ⟨_, step_seeds 3 firstWording [],
      runFrom_cons.mpr ⟨_, rewritten, rfl⟩⟩
  refine ⟨_, run, Fleet.never_regresses ?_ run⟩
  refine ⟨⟨by decide, ?_⟩, ?_⟩
  · intro row found
    cases found
  · intro next stepped
    rw [step_seeds] at stepped
    cases stepped
    refine ⟨⟨by decide, ?_⟩, fun _ _ => trivial⟩
    intro row found matching
    rw [show (denialCall 4 secondWording).doc = denial secondWording from rfl,
      denialRow_found] at found
    cases found
    exact absurd ((denialRow_matches_iff 3 firstWording secondWording).mp
      matching) changed

end ArchivedDenial

end Paigasus.Policies
