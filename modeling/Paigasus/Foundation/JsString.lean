import Mathlib.Algebra.GroupWithZero.Nat
import Mathlib.Data.List.Basic

/-!
# JavaScript strings

What the runtime's string functions read of a character: its white space, and
its length in code units.
-/

namespace Foundation.JsString

/-- White space and line terminators, by code. -/
def isWhiteSpace (code : Nat) : Bool :=
  (9 ≤ code && code ≤ 13) || code == 0x20 || code == 0xa0 || code == 0x1680 ||
    (0x2000 ≤ code && code ≤ 0x200a) || code == 0x2028 || code == 0x2029 ||
    code == 0x202f || code == 0x205f || code == 0x3000 || code == 0xfeff

/-- `trim`, for items with a code. -/
def trimBy {α : Type} (code : α → Nat) (text : List α) : List α :=
  let started := text.dropWhile fun item => isWhiteSpace (code item)
  (started.reverse.dropWhile fun item => isWhiteSpace (code item)).reverse

def trim (text : List Char) : List Char := trimBy Char.toNat text

/-- A character above the basic plane takes two code units. -/
def units (char : Char) : Nat := if char.toNat < 0x10000 then 1 else 2

/-- `length` -/
def length (text : List Char) : Nat := (text.map units).sum

@[simp]
theorem length_nil : length [] = 0 := rfl

@[simp]
theorem length_cons (char : Char) (text : List Char) :
    length (char :: text) = units char + length text := by
  simp [length]

@[simp]
theorem length_append (first second : List Char) :
    length (first ++ second) = length first + length second := by
  simp [length]

end Foundation.JsString
