import Mathlib.Data.List.Nodup

/-!
# Policy sets of an entity-based policy language

A statement permits or forbids requests by constraints on the principal, the
action and the resource and by further conditions.  A statement with slots is a
template, and a link fills the slots of a template under an id of its own.  A
policy set keeps its ids apart: static policies, templates and links share one
name space.  The conditions are a parameter, with an evaluation that may fail.
-/

namespace Foundation.Cedar

structure EntityUid where
  typeName : String
  id : String
deriving DecidableEq

inductive Slot where
  | principal
  | resource
deriving DecidableEq

/-- An entity that a constraint names, or the slot of the constraint. -/
inductive Reference where
  | entity (uid : EntityUid)
  | slot
deriving DecidableEq

inductive ScopeConstraint where
  | any
  | eq (target : Reference)
  | isIn (target : Reference)
  | is (typeName : String)
  | isTypeIn (typeName : String) (target : Reference)
deriving DecidableEq

def ScopeConstraint.hasSlot : ScopeConstraint → Bool
  | any => false
  | eq target => target = .slot
  | isIn target => target = .slot
  | is _ => false
  | isTypeIn _ target => target = .slot

inductive ActionConstraint where
  | any
  | eq (uid : EntityUid)
  | isIn (uids : List EntityUid)
deriving DecidableEq

inductive Effect where
  | permit
  | forbid
deriving DecidableEq

/-- One policy or template. -/
structure Statement (Condition : Type*) where
  effect : Effect
  principal : ScopeConstraint
  action : ActionConstraint
  resource : ScopeConstraint
  conditions : List Condition
deriving DecidableEq

/-- Values for the slots. -/
structure SlotValues where
  principal : Option EntityUid
  resource : Option EntityUid
deriving DecidableEq

section PolicySets

variable {Condition : Type*}

namespace Statement

def slots (statement : Statement Condition) : List Slot :=
  (if statement.principal.hasSlot then [.principal] else []) ++
    if statement.resource.hasSlot then [.resource] else []

def isTemplate (statement : Statement Condition) : Bool :=
  !statement.slots.isEmpty

end Statement

/-- A link gives values to exactly the slots of its template. -/
def SlotValues.fits (values : SlotValues) (statement : Statement Condition) :
    Bool :=
  values.principal.isSome = statement.principal.hasSlot &&
    values.resource.isSome = statement.resource.hasSlot

structure TemplateLink where
  linkId : String
  templateId : String
  values : SlotValues
deriving DecidableEq

/-- Reading of texts: the statements of a text, whether they conform to the
schema, and which texts name an entity type. -/
structure Frontend (Condition : Type*) where
  fromStr : String → Option (List (Statement Condition))
  validates : List (Statement Condition) → Bool
  isTypeName : String → Bool

namespace Frontend

/-- Reads exactly one static policy. -/
def parsePolicy (frontend : Frontend Condition) (source : String) :
    Option (Statement Condition) :=
  match frontend.fromStr source with
  | some [statement] => if statement.isTemplate then none else some statement
  | _ => none

/-- Reads exactly one template. -/
def parseTemplate (frontend : Frontend Condition) (source : String) :
    Option (Statement Condition) :=
  match frontend.fromStr source with
  | some [statement] => if statement.isTemplate then some statement else none
  | _ => none

end Frontend

structure PolicySet (Condition : Type*) where
  policies : List (String × Statement Condition)
  templates : List (String × Statement Condition)
  links : List TemplateLink

inductive PolicySetError where
  | alreadyDefined
  | noTemplate
  | badSlots
deriving DecidableEq

namespace PolicySet

def empty : PolicySet Condition := ⟨[], [], []⟩

def ids (set : PolicySet Condition) : List String :=
  set.policies.map Prod.fst ++ set.templates.map Prod.fst ++
    set.links.map TemplateLink.linkId

def template? (set : PolicySet Condition) (id : String) :
    Option (Statement Condition) :=
  (set.templates.find? fun entry => entry.1 = id).map Prod.snd

def add (set : PolicySet Condition) (id : String)
    (statement : Statement Condition) :
    Except PolicySetError (PolicySet Condition) :=
  if id ∈ set.ids then
    .error .alreadyDefined
  else
    .ok { set with policies := set.policies ++ [(id, statement)] }

def addTemplate (set : PolicySet Condition) (id : String)
    (statement : Statement Condition) :
    Except PolicySetError (PolicySet Condition) :=
  if id ∈ set.ids then
    .error .alreadyDefined
  else
    .ok { set with templates := set.templates ++ [(id, statement)] }

def link (set : PolicySet Condition) (templateId linkId : String)
    (values : SlotValues) : Except PolicySetError (PolicySet Condition) :=
  match set.template? templateId with
  | none => .error .noTemplate
  | some statement =>
      if values.fits statement then
        if linkId ∈ set.ids then
          .error .alreadyDefined
        else
          .ok { set with links := set.links ++ [⟨linkId, templateId, values⟩] }
      else
        .error .badSlots

theorem template?_mem {set : PolicySet Condition} {id : String}
    {statement : Statement Condition}
    (found : set.template? id = some statement) :
    (id, statement) ∈ set.templates := by
  obtain ⟨entry, located, rfl⟩ := Option.map_eq_some_iff.mp found
  have sameId : entry.1 = id := by
    simpa using List.find?_some located
  have member := List.mem_of_find?_eq_some located
  rw [← sameId]
  exact member

end PolicySet

end PolicySets

end Foundation.Cedar
