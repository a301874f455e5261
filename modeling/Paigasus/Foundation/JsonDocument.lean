import Paigasus.Foundation.Json
import Mathlib.Data.List.Nodup

/-!
# JSON texts with repeated members, and structs read from them

A document keeps every member of an object in the order of the text; the value
it stands for has one member a name, the last one.  A struct is read by the same
rules from a document and from the members of a value: a field that occurs twice
is refused, a name that is no field is passed over.
-/

namespace Foundation

inductive JsonDocument where
  | null
  | bool (value : Bool)
  | number (value : JsonNumber)
  | string (text : String)
  | array (items : List JsonDocument)
  | object (members : List (String × JsonDocument))

namespace JsonDocument

mutual

/-- The value of a document; a name is looked up from the end. -/
def value : JsonDocument → Json
  | null => .null
  | bool value => .bool value
  | number value => .number value
  | string text => .string text
  | array items => .array (values items)
  | object members => .object (memberValues members).reverse

def values : List JsonDocument → List Json
  | [] => []
  | item :: items => item.value :: values items

def memberValues : List (String × JsonDocument) → List (String × Json)
  | [] => []
  | (name, document) :: members =>
      (name, document.value) :: memberValues members

end

theorem values_eq (items : List JsonDocument) :
    values items = items.map value := by
  induction items with
  | nil => rfl
  | cons item items ih => simp [values, ih]

theorem memberValues_eq (members : List (String × JsonDocument)) :
    memberValues members =
      members.map fun member => (member.1, member.2.value) := by
  induction members with
  | nil => rfl
  | cons member members ih => simp [memberValues, ih]

/-- The top-level members; only an object has any. -/
def members : JsonDocument → List (String × JsonDocument)
  | object members => members
  | _ => []

end JsonDocument

/-- What a field asks of the value that it is read from. -/
structure FieldReader (Source : Type) where
  isNull : Source → Bool
  string : Source → Option String
  unsigned : Source → Option Nat
  items : Source → Option (List Source)
  value : Source → Json

def Json.fieldReader : FieldReader Json where
  isNull
    | .null => true
    | _ => false
  string := Json.asStr
  unsigned := Json.asU64
  items := Json.asArray
  value := id

def JsonDocument.fieldReader : FieldReader JsonDocument where
  isNull
    | .null => true
    | _ => false
  string
    | .string text => some text
    | _ => none
  unsigned
    | .number (.unsigned value) => some value
    | _ => none
  items
    | .array items => some items
    | _ => none
  value := JsonDocument.value

namespace FieldReader

variable {Source Field : Type} (reader : FieldReader Source)

/-- An array of texts. -/
def strings (source : Source) : Option (List String) :=
  (reader.items source).bind fun items => items.mapM reader.string

/-- A field without which the struct is refused. -/
def required (read : Source → Option Field) (found : Option Source) :
    Option Field :=
  found.bind read

/-- A field that is `None` where it is missing or `null`. -/
def optional (read : Source → Option Field) :
    Option Source → Option (Option Field)
  | none => some none
  | some source =>
      if reader.isNull source then some none else (read source).map some

/-- Two readers agree along a map between what they read. -/
structure Agrees {Other : Type} (other : FieldReader Other)
    (change : Source → Other) : Prop where
  isNull : ∀ source, other.isNull (change source) = reader.isNull source
  string : ∀ source, other.string (change source) = reader.string source
  unsigned : ∀ source, other.unsigned (change source) = reader.unsigned source
  items : ∀ source,
    other.items (change source) = (reader.items source).map (List.map change)
  value : ∀ source, other.value (change source) = reader.value source

section Agreement

variable {reader} {Other : Type} {other : FieldReader Other}
  {change : Source → Other} (agrees : reader.Agrees other change)
  {read : Source → Option Field} {readOther : Other → Option Field}
  (same : ∀ source, readOther (change source) = read source)

include agrees in
theorem Agrees.strings (source : Source) :
    other.strings (change source) = reader.strings source := by
  unfold FieldReader.strings
  rw [agrees.items]
  cases reader.items source with
  | none => rfl
  | some items =>
      simp only [Option.map_some, Option.bind_some]
      induction items with
      | nil => rfl
      | cons item items ih =>
          simp only [List.map_cons, List.mapM_cons, agrees.string, ih]

include same in
theorem required_map (found : Option Source) :
    required readOther (found.map change) = required read found := by
  cases found with
  | none => rfl
  | some source => exact same source

include agrees same in
theorem optional_map (found : Option Source) :
    other.optional readOther (found.map change) =
      reader.optional read found := by
  cases found with
  | none => rfl
  | some source =>
      simp only [Option.map_some, optional, agrees.isNull, same]

end Agreement

end FieldReader

theorem JsonDocument.agrees :
    JsonDocument.fieldReader.Agrees Json.fieldReader JsonDocument.value where
  isNull source := by cases source <;> rfl
  string source := by cases source <;> rfl
  unsigned source := by
    cases source with
    | number value => cases value <;> rfl
    | _ => rfl
  items source := by
    cases source with
    | array items => exact congrArg some (JsonDocument.values_eq items)
    | _ => rfl
  value _ := rfl

section Fields

variable {Source : Type}

/-- The fields of a struct in the members of an object. -/
def memberFields (names : List String) (members : List (String × Source)) :
    Option (String → Option Source) :=
  if names.all fun name =>
      (members.filter fun member => member.1 = name).length ≤ 1 then
    some fun name => members.lookup name
  else
    none

/-- The fields of a struct in an array, by their places. -/
def elementFields (names : List String) (items : List Source) :
    Option (String → Option Source) :=
  if items.length = names.length then
    some fun name => (names.zip items).lookup name
  else
    none

/-- Where a struct of these fields is read from a document. -/
def JsonDocument.fields (names : List String) :
    JsonDocument → Option (String → Option JsonDocument)
  | .object members => memberFields names members
  | .array items => elementFields names items
  | _ => none

theorem memberFields_of_nodup {members : List (String × Source)}
    (unique : (members.map Prod.fst).Nodup) (names : List String) :
    memberFields names members = some fun name => members.lookup name := by
  unfold memberFields
  rw [if_pos]
  apply List.all_eq_true.mpr
  intro name _
  have once : (members.map Prod.fst).count name ≤ 1 :=
    List.nodup_iff_count_le_one.mp unique name
  rw [List.count, List.countP_map, List.countP_eq_length_filter] at once
  simpa [Function.comp_def, beq_eq_decide] using once

theorem lookup_map_snd {Other : Type} (change : Source → Other)
    (members : List (String × Source)) (name : String) :
    (members.map fun member => (member.1, change member.2)).lookup name =
      (members.lookup name).map change := by
  induction members with
  | nil => rfl
  | cons member members ih =>
      obtain ⟨key, source⟩ := member
      simp only [List.map_cons, List.lookup_cons, ih]
      cases name == key with
      | true => rfl
      | false => rfl

theorem lookup_isSome {members : List (String × Source)} {name : String} :
    (members.lookup name).isSome = true ↔ name ∈ members.map Prod.fst := by
  induction members with
  | nil => simp
  | cons member members ih =>
      obtain ⟨key, source⟩ := member
      rw [List.lookup_cons]
      cases same : name == key with
      | true => simp [eq_of_beq same]
      | false => simp [ih, ne_of_beq_false same]

/-- Where names occur once, a lookup finds every member. -/
theorem lookup_eq_some_iff_mem {members : List (String × Source)}
    (unique : (members.map Prod.fst).Nodup) {name : String} {source : Source} :
    members.lookup name = some source ↔ (name, source) ∈ members := by
  induction members with
  | nil => simp
  | cons member members ih =>
      obtain ⟨key, first⟩ := member
      obtain ⟨fresh, unique⟩ := List.nodup_cons.mp unique
      rw [List.lookup_cons, List.mem_cons]
      cases same : name == key with
      | true =>
          obtain rfl := eq_of_beq same
          have other : (name, source) ∉ members := fun listed =>
            fresh (List.mem_map.mpr ⟨_, listed, rfl⟩)
          simp [other, eq_comm]
      | false => simp [ih unique, ne_of_beq_false same]

end Fields

end Foundation
