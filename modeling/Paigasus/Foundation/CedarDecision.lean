import Mathlib.Data.List.Sort
import Mathlib.Data.String.Basic
import Mathlib.Logic.Relation
import Paigasus.Foundation.Cedar

/-!
# Decisions of an entity-based policy language

Entities form a hierarchy through their parents.  A policy applies to a request
when its scope constraints and its conditions hold; a request is allowed when
some permit applies and no forbid does.  A policy whose evaluation fails takes
no part in the decision and is reported.
-/

namespace Foundation.Cedar

structure Entity (Attribute : Type*) where
  uid : EntityUid
  parents : List EntityUid
  attributes : List (String × Attribute)
deriving DecidableEq

/-- A question, with the attributes of its context. -/
structure Request (Attribute : Type*) where
  principal : EntityUid
  action : EntityUid
  resource : EntityUid
  context : List (String × Attribute)
deriving DecidableEq

section Hierarchy

variable {Attribute : Type*}

def parentsOf (entities : List (Entity Attribute)) (uid : EntityUid) :
    List EntityUid :=
  (entities.filter fun entity => entity.uid = uid).flatMap Entity.parents

/-- A path of at most `fuel` parent edges. -/
def reaches (entities : List (Entity Attribute)) :
    Nat → EntityUid → EntityUid → Bool
  | 0, low, high => low = high
  | fuel + 1, low, high =>
      low = high ||
        (parentsOf entities low).any fun parent =>
          reaches entities fuel parent high

/-- `low in high`.  A path without repetition has at most one edge for each
entity. -/
def isIn (entities : List (Entity Attribute)) (low high : EntityUid) : Bool :=
  reaches entities entities.length low high

/-- The hierarchy: reachable through parent edges. -/
def Below (entities : List (Entity Attribute)) :
    EntityUid → EntityUid → Prop :=
  Relation.ReflTransGen fun low parent => parent ∈ parentsOf entities low

theorem below_of_reaches {entities : List (Entity Attribute)} {fuel : Nat}
    {low high : EntityUid} (found : reaches entities fuel low high = true) :
    Below entities low high := by
  induction fuel generalizing low with
  | zero =>
      rw [reaches, decide_eq_true_eq] at found
      rw [found]
      exact .refl
  | succ fuel ih =>
      rw [reaches, Bool.or_eq_true, decide_eq_true_eq] at found
      rcases found with rfl | further
      · exact .refl
      · obtain ⟨parent, edge, later⟩ := List.any_eq_true.mp further
        exact .head edge (ih later)

/-- What an entity is in, other than itself, is the parent of some entity. -/
theorem Below.eq_or_parent {entities : List (Entity Attribute)}
    {low high : EntityUid} (below : Below entities low high) :
    high = low ∨ ∃ entity ∈ entities, high ∈ entity.parents := by
  rcases Relation.ReflTransGen.cases_tail below with same | ⟨child, _, edge⟩
  · exact .inl same
  · obtain ⟨entity, found, isParent⟩ := List.mem_flatMap.mp edge
    exact .inr ⟨entity, List.mem_of_mem_filter found, isParent⟩

/-- A path of parent edges, as the list of the entities it leaves. -/
inductive Trail (entities : List (Entity Attribute)) :
    EntityUid → List EntityUid → EntityUid → Prop where
  | nil (uid : EntityUid) : Trail entities uid [] uid
  | cons {low parent high : EntityUid} {path : List EntityUid} :
      parent ∈ parentsOf entities low →
      Trail entities parent path high →
      Trail entities low (low :: path) high

/-- A path that passes through an entity can be entered there. -/
theorem Trail.enter {entities : List (Entity Attribute)}
    {low high uid : EntityUid} {path : List EntityUid}
    (trail : Trail entities low path high) (passes : uid ∈ path) :
    ∃ rest, rest <:+ path ∧ Trail entities uid rest high := by
  induction trail with
  | nil => cases passes
  | @cons low parent high path edge later ih =>
      rcases List.mem_cons.mp passes with rfl | deeper
      · exact ⟨_, List.suffix_rfl, .cons edge later⟩
      · obtain ⟨rest, suffix, further⟩ := ih deeper
        exact ⟨rest, suffix.trans (List.suffix_cons _ _), further⟩

/-- What is reachable is reachable without passing an entity twice. -/
theorem Below.trail {entities : List (Entity Attribute)}
    {low high : EntityUid} (below : Below entities low high) :
    ∃ path, path.Nodup ∧ Trail entities low path high := by
  induction below using Relation.ReflTransGen.head_induction_on with
  | refl => exact ⟨[], List.nodup_nil, .nil high⟩
  | @head low parent edge _ ih =>
      obtain ⟨path, unique, later⟩ := ih
      by_cases passes : low ∈ path
      · obtain ⟨rest, suffix, further⟩ := later.enter passes
        exact ⟨rest, suffix.sublist.nodup unique, further⟩
      · exact ⟨low :: path, List.nodup_cons.mpr ⟨passes, unique⟩,
          .cons edge later⟩

theorem Trail.length_le {entities : List (Entity Attribute)}
    {low high : EntityUid} {path : List EntityUid}
    (trail : Trail entities low path high) (unique : path.Nodup) :
    path.length ≤ entities.length := by
  have inside : path ⊆ entities.map Entity.uid := by
    clear unique
    induction trail with
    | nil => exact List.nil_subset _
    | @cons low parent high path edge later ih =>
        apply List.cons_subset.mpr
        refine ⟨?_, ih⟩
        obtain ⟨entity, found, _⟩ := List.mem_flatMap.mp edge
        obtain ⟨member, same⟩ := List.mem_filter.mp found
        rw [← of_decide_eq_true same]
        exact List.mem_map_of_mem member
  have bound := (List.subperm_of_subset unique inside).length_le
  rwa [List.length_map] at bound

theorem Trail.reaches {entities : List (Entity Attribute)}
    {low high : EntityUid} {path : List EntityUid} {fuel : Nat}
    (trail : Trail entities low path high) (short : path.length ≤ fuel) :
    reaches entities fuel low high = true := by
  induction trail generalizing fuel with
  | nil => cases fuel <;> simp [Cedar.reaches]
  | @cons low parent high path edge later ih =>
      cases fuel with
      | zero => cases short
      | succ fuel =>
          rw [Cedar.reaches, Bool.or_eq_true]
          refine .inr (List.any_eq_true.mpr ⟨parent, edge, ?_⟩)
          exact ih (Nat.le_of_succ_le_succ short)

/-- Membership is reachability through parent edges. -/
theorem isIn_iff_below {entities : List (Entity Attribute)}
    {low high : EntityUid} :
    isIn entities low high = true ↔ Below entities low high := by
  constructor
  · exact below_of_reaches
  · intro below
    obtain ⟨path, unique, trail⟩ := below.trail
    exact trail.reaches (trail.length_le unique)

/-- An entity that is not listed is in itself only. -/
theorem Below.eq_of_unlisted {entities : List (Entity Attribute)}
    {low high : EntityUid} (below : Below entities low high)
    (unlisted : ∀ entity ∈ entities, entity.uid ≠ low) : high = low := by
  rcases Relation.ReflTransGen.cases_head below with same | ⟨parent, edge, _⟩
  · exact same.symm
  · obtain ⟨entity, found, _⟩ := List.mem_flatMap.mp edge
    obtain ⟨member, same⟩ := List.mem_filter.mp found
    exact absurd (of_decide_eq_true same) (unlisted entity member)

end Hierarchy

section Decision

variable {Attribute Condition : Type*}

def Reference.resolve (slot : Option EntityUid) : Reference → Option EntityUid
  | .entity uid => some uid
  | .slot => slot

def ScopeConstraint.holds (entities : List (Entity Attribute))
    (slot : Option EntityUid) (uid : EntityUid) : ScopeConstraint → Bool
  | .any => true
  | .eq target => target.resolve slot = some uid
  | .isIn target => (target.resolve slot).any (Cedar.isIn entities uid)
  | .is typeName => uid.typeName = typeName
  | .isTypeIn typeName target =>
      uid.typeName = typeName &&
        (target.resolve slot).any (Cedar.isIn entities uid)

def ActionConstraint.holds (entities : List (Entity Attribute))
    (uid : EntityUid) : ActionConstraint → Bool
  | .any => true
  | .eq target => uid = target
  | .isIn targets => targets.any (Cedar.isIn entities uid)

/-- How a condition evaluates; `none` is an evaluation error. -/
abbrev Evaluation (Attribute Condition : Type*) : Type _ :=
  List (Entity Attribute) → Request Attribute → Condition → Option Bool

/-- The conditions in order, up to the first that does not hold. -/
def conditionsHold (evaluate : Condition → Option Bool) :
    List Condition → Option Bool
  | [] => some true
  | condition :: rest =>
      match evaluate condition with
      | some true => conditionsHold evaluate rest
      | other => other

def Statement.scopeHolds (entities : List (Entity Attribute))
    (request : Request Attribute) (values : SlotValues)
    (statement : Statement Condition) : Bool :=
  statement.principal.holds entities values.principal request.principal &&
    statement.action.holds entities request.action &&
    statement.resource.holds entities values.resource request.resource

/-- Whether the statement applies; `none` when its evaluation fails. -/
def Statement.applies (evaluate : Evaluation Attribute Condition)
    (entities : List (Entity Attribute)) (request : Request Attribute)
    (values : SlotValues) (statement : Statement Condition) : Option Bool :=
  if statement.scopeHolds entities request values then
    conditionsHold (evaluate entities request) statement.conditions
  else
    some false

/-- A policy of the set: a static statement, or a template with the values of
one link. -/
structure Instance (Condition : Type*) where
  id : String
  statement : Statement Condition
  values : SlotValues

/-- The policies that take part in decisions. -/
def PolicySet.instances (set : PolicySet Condition) :
    List (Instance Condition) :=
  (set.policies.map fun entry => ⟨entry.1, entry.2, ⟨none, none⟩⟩) ++
    set.links.filterMap fun link =>
      (set.template? link.templateId).map fun statement =>
        ⟨link.linkId, statement, link.values⟩

structure Response where
  permits : List String
  forbids : List String
  errors : List String
deriving DecidableEq

/-- The ids of the applying policies with the given effect. -/
def applying (evaluate : Evaluation Attribute Condition)
    (entities : List (Entity Attribute)) (request : Request Attribute) (effect : Effect)
    (instances : List (Instance Condition)) : List String :=
  (instances.filter fun policy =>
    policy.statement.effect = effect &&
      policy.statement.applies evaluate entities request policy.values =
        some true).map Instance.id

def isAuthorized (evaluate : Evaluation Attribute Condition)
    (set : PolicySet Condition) (entities : List (Entity Attribute))
    (request : Request Attribute) : Response :=
  { permits := applying evaluate entities request .permit set.instances
    forbids := applying evaluate entities request .forbid set.instances
    errors := (set.instances.filter fun policy =>
      (policy.statement.applies evaluate entities request
        policy.values).isNone).map Instance.id }

def Response.allows (response : Response) : Bool :=
  !response.permits.isEmpty && response.forbids.isEmpty

/-- The policies that determine the answer. -/
def Response.reason (response : Response) : List String :=
  if response.forbids.isEmpty then response.permits else response.forbids

theorem applies_iff {evaluate : Evaluation Attribute Condition}
    {entities : List (Entity Attribute)} {request : Request Attribute}
    {values : SlotValues} {statement : Statement Condition} :
    statement.applies evaluate entities request values = some true ↔
      (statement.principal.holds entities values.principal request.principal =
          true ∧
        statement.action.holds entities request.action = true ∧
        statement.resource.holds entities values.resource request.resource =
          true) ∧
      conditionsHold (evaluate entities request) statement.conditions =
        some true := by
  have scope : statement.scopeHolds entities request values = true ↔
      statement.principal.holds entities values.principal request.principal =
          true ∧
        statement.action.holds entities request.action = true ∧
        statement.resource.holds entities values.resource request.resource =
          true := by
    rw [Statement.scopeHolds, Bool.and_eq_true, Bool.and_eq_true, and_assoc]
  rw [Statement.applies, ← scope]
  split
  case isTrue holds => simp [holds]
  case isFalse fails => simp [fails]

theorem mem_applying {evaluate : Evaluation Attribute Condition}
    {entities : List (Entity Attribute)} {request : Request Attribute} {effect : Effect}
    {instances : List (Instance Condition)} :
    (applying evaluate entities request effect instances).isEmpty = false ↔
      ∃ policy ∈ instances, policy.statement.effect = effect ∧
        policy.statement.applies evaluate entities request policy.values =
          some true := by
  rw [applying, List.isEmpty_eq_false_iff_exists_mem]
  constructor
  · rintro ⟨id, member⟩
    obtain ⟨policy, found, _⟩ := List.mem_map.mp member
    obtain ⟨inSet, applies⟩ := List.mem_filter.mp found
    rw [Bool.and_eq_true, decide_eq_true_eq, decide_eq_true_eq] at applies
    exact ⟨policy, inSet, applies.1, applies.2⟩
  · rintro ⟨policy, inSet, effects, applies⟩
    refine ⟨policy.id, List.mem_map_of_mem (List.mem_filter.mpr ⟨inSet, ?_⟩)⟩
    rw [Bool.and_eq_true, decide_eq_true_eq, decide_eq_true_eq]
    exact ⟨effects, applies⟩

/-- Some permit applies and no forbid does. -/
theorem allows_iff {evaluate : Evaluation Attribute Condition}
    {set : PolicySet Condition} {entities : List (Entity Attribute)}
    {request : Request Attribute} :
    (isAuthorized evaluate set entities request).allows = true ↔
      (∃ policy ∈ set.instances, policy.statement.effect = .permit ∧
          policy.statement.applies evaluate entities request policy.values =
            some true) ∧
        ¬ ∃ policy ∈ set.instances, policy.statement.effect = .forbid ∧
          policy.statement.applies evaluate entities request policy.values =
            some true := by
  rw [Response.allows, Bool.and_eq_true, Bool.not_eq_true', isAuthorized,
    ← mem_applying, ← mem_applying, Bool.not_eq_false]

/-- An allowed request has an applying permit. -/
theorem permit_of_allows {evaluate : Evaluation Attribute Condition}
    {set : PolicySet Condition} {entities : List (Entity Attribute)}
    {request : Request Attribute}
    (allows : (isAuthorized evaluate set entities request).allows = true) :
    ∃ policy ∈ set.instances, policy.statement.effect = .permit ∧
      policy.statement.scopeHolds entities request policy.values = true := by
  obtain ⟨⟨policy, inSet, permits, applies⟩, _⟩ := allows_iff.mp allows
  obtain ⟨⟨principal, action, resource⟩, _⟩ := applies_iff.mp applies
  refine ⟨policy, inSet, permits, ?_⟩
  rw [Statement.scopeHolds, principal, action, resource]
  rfl

end Decision

section Unlinked

variable {Condition : Type*}

namespace PolicySet

/-- The set without one of its templates. -/
def without (set : PolicySet Condition) (id : String) : PolicySet Condition :=
  { set with templates := set.templates.filter fun entry => entry.1 ≠ id }

variable {set next : PolicySet Condition} {id other : String}

theorem mem_ids_of_without (member : other ∈ (set.without id).ids) :
    other ∈ set.ids := by
  simp only [ids, without, List.mem_append, List.mem_map,
    List.mem_filter] at member ⊢
  rcases member with (isPolicy | ⟨entry, ⟨isTemplate, _⟩, same⟩) | isLink
  · exact .inl (.inl isPolicy)
  · exact .inl (.inr ⟨entry, isTemplate, same⟩)
  · exact .inr isLink

theorem template?_without (kept : other ≠ id) :
    (set.without id).template? other = set.template? other := by
  unfold template? without
  rw [List.find?_filter]
  congr 2
  funext entry
  by_cases same : entry.1 = other
  · simp [same, kept]
  · simp [same]

theorem add_without {statement : Statement Condition}
    (added : set.add other statement = .ok next) :
    (set.without id).add other statement = .ok (next.without id) := by
  unfold add at added ⊢
  split at added
  case isTrue => cases added
  case isFalse fresh =>
    cases added
    rw [if_neg fun used => fresh (mem_ids_of_without used)]
    rfl

theorem addTemplate_without {statement : Statement Condition}
    (kept : other ≠ id) (added : set.addTemplate other statement = .ok next) :
    (set.without id).addTemplate other statement = .ok (next.without id) := by
  unfold addTemplate at added ⊢
  split at added
  case isTrue => cases added
  case isFalse fresh =>
    cases added
    rw [if_neg fun used => fresh (mem_ids_of_without used)]
    simp [without, kept]

/-- What is left out is not there before it is left out. -/
theorem without_addTemplate {statement : Statement Condition}
    (added : set.addTemplate id statement = .ok next) :
    next.without id = set.without id := by
  unfold addTemplate at added
  split at added
  case isTrue => cases added
  case isFalse =>
    cases added
    simp [without]

theorem link_without {linkId : String} {values : SlotValues}
    (kept : other ≠ id) (linked : set.link other linkId values = .ok next) :
    (set.without id).link other linkId values = .ok (next.without id) := by
  unfold link at linked ⊢
  rw [template?_without kept]
  split at linked
  case h_1 => cases linked
  case h_2 statement present =>
    split at linked
    case isFalse => cases linked
    case isTrue fits =>
      rw [if_pos fits]
      split at linked
      case isTrue => cases linked
      case isFalse fresh =>
        cases linked
        rw [if_neg fun used => fresh (mem_ids_of_without used)]
        rfl

/-- A template without links takes no part in decisions. -/
theorem instances_without
    (unlinked : ∀ link ∈ set.links, link.templateId ≠ id) :
    (set.without id).instances = set.instances := by
  unfold instances
  congr 1
  apply List.filterMap_congr
  intro link isLink
  rw [template?_without (unlinked link isLink)]

end PolicySet

end Unlinked

end Foundation.Cedar
