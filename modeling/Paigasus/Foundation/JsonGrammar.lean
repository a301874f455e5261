import Paigasus.Foundation.Json
import Paigasus.Foundation.JsonText

/-!
# The grammar of JSON texts

Which texts are JSON, and which values they denote.  A member keeps the spelling
of its name beside the name.  Of several members with one name the last one
counts.
-/

namespace Foundation

namespace JsonGrammar

open JsonText

def IsSpaces (text : List Char) : Prop := ∀ char ∈ text, isSpace char = true

/-- A text between quotation marks, and what it denotes. -/
inductive IsChars : List Char → List Char → Prop where
  | nil : IsChars [] []
  | plain {char : Char} {raw text : List Char} :
      char ≠ '"' → char ≠ '\\' → 32 ≤ char.toNat → IsChars raw text →
      IsChars (char :: raw) (char :: text)
  | escaped {char : Char} {raw rest text : List Char} :
      readEscape raw = some (char, rest) → IsChars rest text →
      IsChars ('\\' :: raw) (char :: text)

def IsDigits (text : List Char) : Prop :=
  text ≠ [] ∧ ∀ char ∈ text, char.isDigit = true

/-- A number, in its parts. -/
structure IsNumber (sign whole fraction exponent : List Char) : Prop where
  isSign : sign = [] ∨ sign = ['-']
  isWhole : IsDigits whole
  noZeros : whole = ['0'] ∨ whole.head? ≠ some '0'
  isFraction : fraction = [] ∨
    ∃ digits, fraction = '.' :: digits ∧ IsDigits digits
  isExponent : exponent = [] ∨ ∃ mark sign digits,
    exponent = mark :: (sign ++ digits) ∧ mark ∈ ['e', 'E'] ∧
      sign ∈ [[], ['+'], ['-']] ∧ IsDigits digits

def numberOf (raw : List Char) : JsonNumber :=
  if small : Nat.ofDigitChars 10 raw 0 < 2 ^ 64 then
    if raw.all Char.isDigit then .unsigned ⟨_, small⟩
    else .other (String.ofList raw)
  else
    .other (String.ofList raw)

/-- A member of an object; `raw` is its name as it is spelled. -/
structure Member where
  raw : List Char
  name : String
  value : Json

/-- The value of an object: a name is looked up from the end. -/
def objectOf (members : List Member) : Json :=
  .object (members.reverse.map fun member => (member.name, member.value))

section Structure

variable (IsValue : List Char → Json → Prop)

/-- One or more values with commas between them. -/
inductive IsElements : List Char → List Json → Prop where
  | single {lead text trail : List Char} {value : Json} :
      IsSpaces lead → IsValue text value → IsSpaces trail →
      IsElements (lead ++ text ++ trail) [value]
  | cons {lead text trail rest : List Char} {value : Json}
      {values : List Json} :
      IsSpaces lead → IsValue text value → IsSpaces trail →
      IsElements rest values →
      IsElements (lead ++ text ++ trail ++ ',' :: rest) (value :: values)

/-- A name, a colon and a value. -/
inductive IsMember : List Char → Member → Prop where
  | mk {raw name between behind text : List Char} {value : Json} :
      IsChars raw name → IsSpaces between → IsSpaces behind →
      IsValue text value →
      IsMember ('"' :: raw ++ '"' :: between ++ ':' :: behind ++ text)
        ⟨raw, String.ofList name, value⟩

/-- One or more members with commas between them. -/
inductive IsMembers : List Char → List Member → Prop where
  | single {lead text trail : List Char} {member : Member} :
      IsSpaces lead → IsMember IsValue text member → IsSpaces trail →
      IsMembers (lead ++ text ++ trail) [member]
  | cons {lead text trail rest : List Char} {member : Member}
      {members : List Member} :
      IsSpaces lead → IsMember IsValue text member → IsSpaces trail →
      IsMembers rest members →
      IsMembers (lead ++ text ++ trail ++ ',' :: rest) (member :: members)

end Structure

inductive IsValue : List Char → Json → Prop where
  | null : IsValue "null".toList .null
  | true : IsValue "true".toList (.bool true)
  | false : IsValue "false".toList (.bool false)
  | number {sign whole fraction exponent : List Char} :
      IsNumber sign whole fraction exponent →
      IsValue (sign ++ whole ++ fraction ++ exponent)
        (.number (numberOf (sign ++ whole ++ fraction ++ exponent)))
  | string {raw text : List Char} :
      IsChars raw text →
      IsValue ('"' :: raw ++ ['"']) (.string (String.ofList text))
  | emptyArray {spaces : List Char} :
      IsSpaces spaces → IsValue ('[' :: spaces ++ [']']) (.array [])
  | array {text : List Char} {values : List Json} :
      IsElements IsValue text values →
      IsValue ('[' :: text ++ [']']) (.array values)
  | emptyObject {spaces : List Char} :
      IsSpaces spaces →
      IsValue ('\x7b' :: spaces ++ ['\x7d']) (.object [])
  | object {text : List Char} {members : List Member} :
      IsMembers IsValue text members →
      IsValue ('\x7b' :: text ++ ['\x7d']) (objectOf members)

/-- A whole text. -/
def IsText (text : List Char) (value : Json) : Prop :=
  ∃ lead inner trail, text = lead ++ inner ++ trail ∧ IsSpaces lead ∧
    IsValue inner value ∧ IsSpaces trail

/-- A whole text that is an object with these members. -/
def IsObjectText (text : List Char) (members : List Member) : Prop :=
  ∃ lead inner trail, text = lead ++ '\x7b' :: inner ++ '\x7d' :: trail ∧
    IsSpaces lead ∧ IsMembers IsValue inner members ∧ IsSpaces trail

theorem isChars_self {raw : List Char}
    (plain : ∀ char ∈ raw, char ≠ '"' ∧ char ≠ '\\' ∧ 32 ≤ char.toNat) :
    IsChars raw raw := by
  induction raw with
  | nil => exact .nil
  | cons char rest ih =>
      obtain ⟨notQuote, notEscape, printed⟩ := plain char List.mem_cons_self
      apply IsChars.plain notQuote notEscape printed
      exact ih fun other member => plain other (List.mem_cons_of_mem _ member)

theorem IsChars.eq_of_plain {raw text : List Char} (isChars : IsChars raw text)
    (plain : '\\' ∉ raw) : raw = text := by
  induction isChars with
  | nil => rfl
  | plain _ _ _ _ ih =>
      rw [ih fun member => plain (List.mem_cons_of_mem _ member)]
  | escaped _ _ _ => exact absurd List.mem_cons_self plain

/-- Where a member stands: at the start or behind a comma, up to white space. -/
theorem IsMembers.exists_at {Value : List Char → Json → Prop}
    {text : List Char} {members : List Member} {member : Member}
    (isMembers : IsMembers Value text members) (listed : member ∈ members) :
    ∃ before lead spelled after,
      text = before ++ lead ++ spelled ++ after ∧ IsSpaces lead ∧
        IsMember Value spelled member ∧
        (before = [] ∨ ∃ front, before = front ++ [',']) := by
  induction isMembers with
  | @single leadText spelled trailText first lead isMember trail =>
      obtain rfl := List.mem_singleton.mp listed
      exact ⟨[], leadText, spelled, trailText, rfl, lead, isMember, .inl rfl⟩
  | @cons leadText spelled trailText rest first members lead isMember trail
      others ih =>
      rcases List.mem_cons.mp listed with rfl | later
      · exact ⟨[], leadText, spelled, trailText ++ ',' :: rest, by simp, lead,
          isMember, .inl rfl⟩
      · obtain ⟨before, lead', spelled', after, rfl, isLead, found, ends⟩ :=
          ih later
        refine ⟨leadText ++ spelled ++ trailText ++ [','] ++ before, lead',
          spelled', after, by simp, isLead, found, .inr ?_⟩
        rcases ends with rfl | ⟨front, rfl⟩
        · exact ⟨leadText ++ spelled ++ trailText, by simp⟩
        · exact ⟨leadText ++ spelled ++ trailText ++ [','] ++ front, by simp⟩

theorem exists_of_field {members : List Member} {name : String} {value : Json}
    (found : (objectOf members).field name = some value) :
    ∃ member ∈ members, member.name = name ∧ member.value = value := by
  unfold objectOf Json.field at found
  obtain ⟨before, behind, whole, _⟩ := List.lookup_eq_some_iff.mp found
  have listed : (name, value) ∈
      members.reverse.map fun member => (member.name, member.value) := by
    rw [whole]
    simp
  obtain ⟨member, isMember, same⟩ := List.mem_map.mp listed
  cases same
  exact ⟨member, List.mem_reverse.mp isMember, rfl, rfl⟩

theorem IsValue.exists_braces {text : List Char} {fields : List (String × Json)}
    (isObject : IsValue text (.object fields)) :
    ∃ rest, text = '\x7b' :: rest := by
  generalize value : Json.object fields = json at isObject
  cases isObject with
  | emptyObject => exact ⟨_, rfl⟩
  | object => exact ⟨_, rfl⟩
  | _ => cases value

/-- A text whose value has a field is an object with members. -/
theorem IsText.isObjectText {text : List Char} {value inner : Json}
    {name : String} (isText : IsText text value)
    (found : value.field name = some inner) :
    ∃ members, IsObjectText text members ∧ value = objectOf members := by
  obtain ⟨lead, spelled, trail, rfl, isLead, isValue, isTrail⟩ := isText
  cases isValue with
  | emptyObject => cases found
  | @object body members isMembers =>
      exact ⟨members, ⟨lead, body, trail, by simp, isLead, isMembers, isTrail⟩,
        rfl⟩
  | _ => cases found

end JsonGrammar

end Foundation
