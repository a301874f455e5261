import Mathlib.Algebra.Group.Nat.Defs
import Mathlib.Data.List.Basic

/-!
# JSON values

A number keeps the distinction a parser makes between the integers it can hold
and every other number.
-/

namespace Foundation

inductive JsonNumber where
  | unsigned (value : Fin (2 ^ 64))
  | other (text : String)
deriving DecidableEq

inductive Json where
  | null
  | bool (value : Bool)
  | number (value : JsonNumber)
  | string (text : String)
  | array (items : List Json)
  | object (fields : List (String × Json))

namespace Json

/-- The field of an object; nothing else has fields. -/
def field (name : String) : Json → Option Json
  | object fields => fields.lookup name
  | _ => none

def asStr : Json → Option String
  | string text => some text
  | _ => none

def asU64 : Json → Option Nat
  | number (.unsigned value) => some value
  | _ => none

def asArray : Json → Option (List Json)
  | array items => some items
  | _ => none

def asObject : Json → Option (List (String × Json))
  | object fields => some fields
  | _ => none

/-- Follows field names from the value inwards. -/
def pointer (value : Json) : List String → Option Json
  | [] => some value
  | name :: path =>
      match value.field name with
      | some inner => inner.pointer path
      | none => none

end Json

end Foundation
