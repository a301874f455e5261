import Mathlib.Order.Interval.Set.Basic
import Mathlib.Data.Int.Order.Basic
import Mathlib.Tactic.Linarith

/-!
# Fixed-width integers

A signed value is an integer together with the proof that it is in range, so
its order is the order of the integers.  Unsigned values are natural numbers.
The arithmetic is the saturating and the checked arithmetic of the source
language.
-/

namespace Foundation

/-- A signed 64-bit integer. -/
abbrev I64 : Type := {value : Int // -(2 ^ 63) ≤ value ∧ value < 2 ^ 63}

instance (left right : I64) : Decidable (left ≤ right) :=
  inferInstanceAs (Decidable (left.val ≤ right.val))

instance (left right : I64) : Decidable (left < right) :=
  inferInstanceAs (Decidable (left.val < right.val))

namespace I64

/-- The in-range integer nearest to the given one. -/
def clamp (value : Int) : I64 :=
  ⟨max (-(2 ^ 63)) (min value (2 ^ 63 - 1)), by omega⟩

def ofInt? (value : Int) : Option I64 :=
  if inRange : -(2 ^ 63) ≤ value ∧ value < 2 ^ 63 then
    some ⟨value, inRange⟩
  else
    none

instance (digits : Nat) : OfNat I64 digits := ⟨clamp digits⟩

def saturatingAdd (left right : I64) : I64 := clamp (left.val + right.val)

def saturatingSub (left right : I64) : I64 := clamp (left.val - right.val)

def checkedSub (left right : I64) : Option I64 := ofInt? (left.val - right.val)

def checkedAbs (value : I64) : Option I64 := ofInt? |value.val|

theorem clamp_val (value : Int) :
    (clamp value).val = max (-(2 ^ 63)) (min value (2 ^ 63 - 1)) := rfl

theorem ofInt?_eq_some {value : Int} {result : I64} :
    ofInt? value = some result ↔ result.val = value := by
  constructor
  · intro converted
    unfold ofInt? at converted
    split at converted
    · cases converted
      rfl
    · cases converted
  · rintro rfl
    exact dif_pos result.property

theorem checkedSub_eq_some {left right result : I64} :
    checkedSub left right = some result ↔
      result.val = left.val - right.val :=
  ofInt?_eq_some

theorem checkedAbs_eq_some {value result : I64} :
    checkedAbs value = some result ↔ result.val = |value.val| :=
  ofInt?_eq_some

/-- A sum that reaches a representable bound still reaches it after
saturation. -/
theorem le_saturatingAdd {bound left right : I64}
    (reaches : bound.val ≤ left.val + right.val) :
    bound ≤ saturatingAdd left right := by
  change bound.val ≤ (clamp (left.val + right.val)).val
  have inRange := bound.property
  rw [clamp_val]
  omega

end I64

/-- A signed 32-bit integer. -/
abbrev I32 : Type := {value : Int // -(2 ^ 31) ≤ value ∧ value < 2 ^ 31}

namespace I32

/-- The largest signed 32-bit integer. -/
def maxValue : Nat := 2 ^ 31 - 1

/-- The number itself, or the largest value where it does not fit. -/
def ofNatSaturating (value : Nat) : I32 :=
  ⟨min value maxValue, by unfold maxValue; omega⟩

/-- The value as an unsigned one, or zero where it is negative. -/
def toNatOrZero (value : I32) : Nat := value.val.toNat

/-- The in-range integer that differs by a multiple of `2 ^ 32`. -/
def wrap (value : Int) : I32 :=
  ⟨(value + 2 ^ 31) % 2 ^ 32 - 2 ^ 31, by omega⟩

def ofInt? (value : Int) : Option I32 :=
  if inRange : -(2 ^ 31) ≤ value ∧ value < 2 ^ 31 then
    some ⟨value, inRange⟩
  else
    none

theorem wrap_val (value : Int) :
    (wrap value).val = (value + 2 ^ 31) % 2 ^ 32 - 2 ^ 31 := rfl

theorem wrap_val_of_fits {value : Int}
    (fits : -(2 ^ 31) ≤ value ∧ value < 2 ^ 31) : (wrap value).val = value := by
  rw [wrap_val]
  omega

theorem ofInt?_val (value : I32) : ofInt? value.val = some value :=
  dif_pos value.property

theorem ofNatSaturating_toNatOrZero (value : Nat) :
    (ofNatSaturating value).toNatOrZero = min value maxValue := by
  change (min (value : Int) maxValue).toNat = min value maxValue
  omega

end I32

namespace U64

/-- The largest unsigned 64-bit integer. -/
def maxValue : Nat := 2 ^ 64 - 1

def checkedAdd (left right : Nat) : Option Nat :=
  if left + right ≤ maxValue then some (left + right) else none

def saturatingAdd (left right : Nat) : Nat := min (left + right) maxValue

def saturatingMul (left right : Nat) : Nat := min (left * right) maxValue

end U64

/-- A positive unsigned 64-bit integer. -/
abbrev NonZeroU64 : Type := {value : Nat // 0 < value ∧ value ≤ U64.maxValue}

end Foundation
