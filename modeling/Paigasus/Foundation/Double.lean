import Mathlib.Algebra.Order.Ring.Int
import Mathlib.Tactic.Ring

/-!
# Binary64 numbers

A finite number is a whole number of units of `2 ^ -1074` that fits a
significand of 53 bits.  Every operation rounds its exact result once, to the
nearest number and to the even significand at a midpoint.  There is no negative
zero: no operation here tells it from zero.
-/

namespace Foundation

namespace Double

def precision : Nat := 53

def unitExponent : Nat := 1074

/-- The units of one. -/
def scale : Nat := 2 ^ unitExponent

/-- The finite numbers end below this many units. -/
def overflow : Nat := 2 ^ (1024 + unitExponent)

def Representable (units : Nat) : Prop :=
  units < overflow ∧ ∃ significand exponent,
    significand < 2 ^ precision ∧ units = significand * 2 ^ exponent

/-- The quotient, rounded to a significand of the given precision. -/
def nearest (numerator denominator : Nat) : Nat :=
  let spacing := 2 ^ ((numerator / denominator).log2 + 1 - precision)
  let step := denominator * spacing
  let below := numerator / step
  let rest := numerator % step
  if 2 * rest < step ∨ 2 * rest = step ∧ below % 2 = 0 then below * spacing
  else (below + 1) * spacing

theorem scale_pos : 0 < scale := Nat.two_pow_pos unitExponent

theorem lt_pow_of_quotient (whole : Nat) :
    whole / 2 ^ (whole.log2 + 1 - precision) < 2 ^ precision := by
  apply Nat.div_lt_of_lt_mul
  rw [← Nat.pow_add]
  have below : whole < 2 ^ (whole.log2 + 1) := Nat.lt_log2_self
  have wide : 2 ^ (whole.log2 + 1) ≤
      2 ^ (whole.log2 + 1 - precision + precision) :=
    Nat.pow_le_pow_right (by decide) (by omega)
  exact Nat.lt_of_lt_of_le below wide

/-- Rounding leaves a significand that fits, also where it carries. -/
theorem nearest_significand (numerator denominator : Nat) :
    ∃ significand exponent, significand < 2 ^ precision ∧
      nearest numerator denominator = significand * 2 ^ exponent := by
  have fits := lt_pow_of_quotient (numerator / denominator)
  rw [Nat.div_div_eq_div_mul] at fits
  unfold nearest
  dsimp only
  split
  case isTrue => exact ⟨_, _, fits, rfl⟩
  case isFalse =>
    rcases Nat.lt_or_eq_of_le (Nat.succ_le_of_lt fits) with small | carry
    · exact ⟨_, _, small, rfl⟩
    · refine ⟨1, precision + ((numerator / denominator).log2 + 1 - precision),
        by decide, ?_⟩
      rw [Nat.one_mul, Nat.pow_add, ← carry]

/-- A number that fits is its own rounding. -/
theorem nearest_of_significand {significand exponent : Nat}
    (fits : significand < 2 ^ precision) {denominator : Nat}
    (positive : 0 < denominator) :
    nearest (significand * 2 ^ exponent * denominator) denominator =
      significand * 2 ^ exponent := by
  generalize isUnits : significand * 2 ^ exponent = units
  have whole : units * denominator / denominator = units :=
    Nat.mul_div_cancel _ positive
  have enough : units.log2 + 1 - precision ≤ exponent := by
    rcases Nat.eq_zero_or_pos units with rfl | nonzero
    · exact Nat.zero_le _
    · have below : units < 2 ^ (precision + exponent) := by
        rw [← isUnits, Nat.pow_add]
        exact Nat.mul_lt_mul_of_pos_right fits (Nat.two_pow_pos _)
      have bits := (Nat.log2_lt (Nat.ne_of_gt nonzero)).mpr below
      omega
  have divides : 2 ^ (units.log2 + 1 - precision) ∣ units :=
    Nat.dvd_trans (Nat.pow_dvd_pow 2 enough)
      (isUnits ▸ Nat.dvd_mul_left (2 ^ exponent) significand)
  obtain ⟨below, isBelow⟩ := divides
  unfold nearest
  rw [whole]
  generalize isSpacing : 2 ^ (units.log2 + 1 - precision) = spacing at isBelow
  have spacingPos : 0 < spacing := isSpacing ▸ Nat.two_pow_pos _
  have exact : units * denominator = denominator * spacing * below := by
    rw [isBelow]
    ring
  have stepPos := Nat.mul_pos positive spacingPos
  dsimp only
  rw [exact, Nat.mul_mod_right, Nat.mul_div_cancel_left _ stepPos,
    if_pos (Or.inl (by omega)), isBelow, Nat.mul_comm]

end Double

/-- A binary64 number. -/
inductive Double where
  | nan
  | infinite (negative : Bool)
  | finite (units : Int) (representable : Double.Representable units.natAbs)

namespace Double

/-- The nearest number to a quotient of units. -/
def round (numerator : Int) (denominator : Nat) : Double :=
  let units := nearest numerator.natAbs denominator
  if fits : units < overflow then
    .finite (if numerator < 0 then -units else units) (by
      have same : (if numerator < 0 then -(units : Int) else units).natAbs =
          units := by
        split <;> omega
      rw [same]
      exact ⟨fits, nearest_significand _ _⟩)
  else
    .infinite (numerator < 0)

def ofInt (value : Int) : Double := round (value * scale) 1

/-- `±significand × base ^ exponent`. -/
def ofScientific (negative : Bool) (significand base : Nat) (exponent : Int) :
    Double :=
  let units := significand * base ^ exponent.toNat * scale
  round (if negative then -units else units) (base ^ (-exponent).toNat)

/-- The value of an integral number. -/
def toInt? : Double → Option Int
  | .finite units _ => if units % scale = 0 then some (units / scale) else none
  | _ => none

def neg : Double → Double
  | .nan => .nan
  | .infinite negative => .infinite !negative
  | .finite units representable =>
      .finite (-units) (by rwa [Int.natAbs_neg])

def add : Double → Double → Double
  | .nan, _ => .nan
  | _, .nan => .nan
  | .infinite left, .infinite right =>
      if left = right then .infinite left else .nan
  | .infinite left, .finite _ _ => .infinite left
  | .finite _ _, .infinite right => .infinite right
  | .finite left _, .finite right _ => round (left + right) 1

def sub (left right : Double) : Double := left.add right.neg

def mul : Double → Double → Double
  | .nan, _ => .nan
  | _, .nan => .nan
  | .infinite left, .infinite right => .infinite (left ^^ right)
  | .infinite left, .finite right _ =>
      if right = 0 then .nan else .infinite (left ^^ decide (right < 0))
  | .finite left _, .infinite right =>
      if left = 0 then .nan else .infinite (decide (left < 0) ^^ right)
  | .finite left _, .finite right _ => round (left * right) scale

def floor : Double → Double
  | .finite units _ => round (units / scale * scale) 1
  | number => number

/-- The order; nothing is at most or at least a number that is none. -/
def le : Double → Double → Bool
  | .nan, _ => false
  | _, .nan => false
  | .infinite true, _ => true
  | _, .infinite false => true
  | .infinite false, _ => false
  | _, .infinite true => false
  | .finite left _, .finite right _ => left ≤ right

def lt (left right : Double) : Bool := left.le right && !right.le left

def eq (left right : Double) : Bool := left.le right && right.le left

/-! ## Whole numbers below `2 ^ 53` are exact -/

theorem round_mul_of_representable {units : Int} {denominator : Nat}
    (representable : Representable units.natAbs) (positive : 0 < denominator) :
    round (units * denominator) denominator = .finite units representable := by
  obtain ⟨bounded, significand, exponent, fits, isUnits⟩ := id representable
  have same : nearest (units * denominator).natAbs denominator =
      units.natAbs := by
    rw [Int.natAbs_mul, Int.natAbs_natCast, isUnits,
      nearest_of_significand fits positive]
  have negative : units * denominator < 0 ↔ units < 0 :=
    ⟨fun below => by
      by_contra nonneg
      have := Int.mul_nonneg (Int.not_lt.mp nonneg)
        (Int.natCast_nonneg denominator)
      omega,
      fun below => Int.mul_neg_of_neg_of_pos below (by omega)⟩
  have fit : nearest (units * denominator).natAbs denominator < overflow := by
    rwa [same]
  unfold round
  dsimp only
  rw [dif_pos fit]
  congr 1
  rw [same]
  split
  case isTrue below =>
    have := negative.mp below
    omega
  case isFalse nonneg =>
    have := mt negative.mpr nonneg
    omega

theorem round_of_representable {units : Int}
    (representable : Representable units.natAbs) :
    round units 1 = .finite units representable := by
  have rounded := @round_mul_of_representable units 1 representable
    Nat.one_pos
  rwa [Nat.cast_one, Int.mul_one] at rounded

/-- A whole number that fits the significand. -/
def Small (value : Int) : Prop := value.natAbs < 2 ^ precision

theorem Small.representable {value : Int} (small : Small value) :
    Representable (value * scale).natAbs := by
  have units : (value * scale).natAbs =
      value.natAbs * 2 ^ unitExponent := by
    rw [Int.natAbs_mul, Int.natAbs_natCast, scale]
  rw [units]
  refine ⟨?_, value.natAbs, unitExponent, small, rfl⟩
  calc value.natAbs * 2 ^ unitExponent
      < 2 ^ precision * 2 ^ unitExponent :=
        Nat.mul_lt_mul_of_pos_right small (Nat.two_pow_pos _)
    _ = 2 ^ (precision + unitExponent) :=
        (pow_add 2 precision unitExponent).symm
    _ ≤ overflow := Nat.pow_le_pow_right (by decide) (by decide)

theorem ofInt_eq {value : Int} (small : Small value) :
    ofInt value = .finite (value * scale) small.representable :=
  round_of_representable small.representable

section Exact

variable {left right : Int} (leftSmall : Small left) (rightSmall : Small right)

include leftSmall rightSmall

theorem add_ofInt : (ofInt left).add (ofInt right) = ofInt (left + right) := by
  rw [ofInt_eq leftSmall, ofInt_eq rightSmall]
  simp only [add, ofInt, Int.add_mul]

theorem sub_ofInt : (ofInt left).sub (ofInt right) = ofInt (left - right) := by
  have difference : left * scale + -(right * scale) =
      (left - right) * scale := by
    ring
  rw [ofInt_eq leftSmall, ofInt_eq rightSmall]
  simp only [sub, neg, add, ofInt, difference]

theorem mul_ofInt (small : Small (left * right)) :
    (ofInt left).mul (ofInt right) = ofInt (left * right) := by
  have product : left * scale * (right * scale) =
      left * right * scale * (scale : Nat) := by
    ring
  rw [ofInt_eq leftSmall, ofInt_eq rightSmall, ofInt_eq small, mul, product,
    round_mul_of_representable small.representable scale_pos]

theorem le_ofInt : (ofInt left).le (ofInt right) = decide (left ≤ right) := by
  rw [ofInt_eq leftSmall, ofInt_eq rightSmall, le, decide_eq_decide]
  exact mul_le_mul_iff_left₀ (by exact_mod_cast scale_pos)

end Exact

/-! ## Large whole numbers -/

theorem nearest_bounds (numerator : Nat) :
    numerator ≤ 2 * nearest numerator 1 ∧
      nearest numerator 1 ≤ 2 * numerator := by
  rcases Nat.eq_zero_or_pos numerator with rfl | positive
  · decide
  · have spacingLe : 2 ^ (numerator.log2 + 1 - precision) ≤ numerator := by
      calc 2 ^ (numerator.log2 + 1 - precision)
          ≤ 2 ^ numerator.log2 :=
            Nat.pow_le_pow_right (by decide) (by unfold precision; omega)
        _ ≤ numerator := Nat.log2_self_le (Nat.ne_of_gt positive)
    have spacingPos := Nat.two_pow_pos (numerator.log2 + 1 - precision)
    unfold nearest
    rw [Nat.div_one]
    dsimp only
    rw [Nat.one_mul]
    generalize 2 ^ (numerator.log2 + 1 - precision) = spacing at *
    have parts := Nat.div_add_mod' numerator spacing
    have rest := Nat.mod_lt numerator spacingPos
    have whole : spacing ≤ numerator / spacing * spacing :=
      Nat.le_mul_of_pos_left _ (Nat.div_pos spacingLe spacingPos)
    split
    case isTrue => omega
    case isFalse =>
      rw [Nat.add_mul, Nat.one_mul]
      omega

theorem scale_dvd_nearest (value : Nat) : scale ∣ nearest (value * scale) 1 := by
  by_cases small : value < 2 ^ precision
  · have exact := @nearest_of_significand value unitExponent small 1 Nat.one_pos
    rw [Nat.mul_one] at exact
    rw [scale, exact]
    exact Nat.dvd_mul_left _ _
  · have large : 2 ^ (precision + unitExponent) ≤ value * scale := by
      rw [pow_add, scale]
      exact Nat.mul_le_mul_right _ (Nat.not_lt.mp small)
    have nonzero : value * scale ≠ 0 :=
      Nat.ne_of_gt (Nat.lt_of_lt_of_le (Nat.two_pow_pos _) large)
    have bits := (Nat.le_log2 nonzero).mpr large
    have divides : scale ∣ 2 ^ ((value * scale).log2 + 1 - precision) :=
      Nat.pow_dvd_pow 2 (by omega)
    unfold nearest
    rw [Nat.div_one]
    dsimp only
    split
    case isTrue => exact Nat.dvd_mul_left_of_dvd divides _
    case isFalse => exact Nat.dvd_mul_left_of_dvd divides _

theorem finite_congr {left right : Int} (same : left = right)
    {leftFits : Representable left.natAbs}
    {rightFits : Representable right.natAbs} :
    finite left leftFits = finite right rightFits := by
  cases same
  rfl

/-- Rounding takes a whole number to a whole number of its size. -/
theorem ofInt_whole {value : Nat} (bounded : value < 2 ^ 64) :
    ∃ whole : Nat, ∃ representable,
      ofInt value = .finite (whole * scale) representable ∧
        value ≤ 2 * whole := by
  have doubled : 2 * value < 2 ^ 65 := by omega
  obtain ⟨whole, isNearest⟩ := scale_dvd_nearest value
  obtain ⟨below, above⟩ := nearest_bounds (value * scale)
  have fits : nearest (value * scale) 1 < overflow := by
    have wide : 2 ^ 65 * scale ≤ overflow := by
      rw [scale, ← pow_add]
      exact Nat.pow_le_pow_right (by decide) (by decide)
    calc nearest (value * scale) 1
        ≤ 2 * (value * scale) := above
      _ = 2 * value * scale := (Nat.mul_assoc ..).symm
      _ < 2 ^ 65 * scale := Nat.mul_lt_mul_of_pos_right doubled scale_pos
      _ ≤ overflow := wide
  have units : ((value : Int) * scale).natAbs = value * scale := by
    rw [Int.natAbs_mul, Int.natAbs_natCast, Int.natAbs_natCast]
  have nonnegative : ¬ (value : Int) * scale < 0 :=
    Int.not_lt.mpr (Int.mul_nonneg (Int.natCast_nonneg _) (Int.natCast_nonneg _))
  have same : ((nearest (value * scale) 1 : Nat) : Int) = whole * scale := by
    rw [isNearest, Nat.cast_mul, Int.mul_comm]
  have representable : Representable ((whole : Int) * scale).natAbs := by
    rw [← same, Int.natAbs_natCast]
    exact ⟨fits, nearest_significand _ _⟩
  refine ⟨whole, representable, ?_, ?_⟩
  · unfold ofInt round
    dsimp only
    rw [dif_pos (by rwa [units])]
    apply finite_congr
    rw [if_neg nonnegative, units, same]
  · have scaled : value * scale ≤ 2 * whole * scale := by
      calc value * scale ≤ 2 * nearest (value * scale) 1 := below
        _ = 2 * whole * scale := by
            rw [isNearest, Nat.mul_comm scale, Nat.mul_assoc]
    exact Nat.le_of_mul_le_mul_right scaled scale_pos

theorem eq_floor_ofInt {value : Nat} (bounded : value < 2 ^ 64) :
    (ofInt value).eq (ofInt value).floor = true := by
  obtain ⟨whole, representable, isWhole, _⟩ := ofInt_whole bounded
  have nonzero : (scale : Int) ≠ 0 := by exact_mod_cast scale_pos.ne'
  rw [isWhole, floor, Int.mul_ediv_cancel _ nonzero,
    round_of_representable representable]
  unfold eq le
  simp only [Int.le_refl, decide_true, Bool.and_self]

/-- The rounding of a larger number stays above the small ones. -/
theorem le_ofInt_of_small {limit value : Nat} (small : limit < 2 ^ 52)
    (bounded : value < 2 ^ 64) :
    (ofInt limit).le (ofInt value) = decide (limit ≤ value) := by
  by_cases exact : value < 2 ^ 53
  · have limitSmall : Small (limit : Int) := by
      unfold Small precision
      omega
    have valueSmall : Small (value : Int) := by
      unfold Small precision
      omega
    rw [le_ofInt limitSmall valueSmall, decide_eq_decide]
    exact Int.ofNat_le
  · have limitSmall : Small (limit : Int) := by
      unfold Small precision
      omega
    obtain ⟨whole, representable, isWhole, size⟩ := ofInt_whole bounded
    have above : (limit : Int) * scale ≤ whole * scale := by
      apply Int.mul_le_mul_of_nonneg_right _ (Int.natCast_nonneg _)
      omega
    rw [ofInt_eq limitSmall, isWhole, le, decide_eq_decide]
    exact iff_of_true above (by omega)

theorem toInt?_ofInt {value : Int} (small : Small value) :
    (ofInt value).toInt? = some value := by
  have nonzero : (scale : Int) ≠ 0 := by exact_mod_cast scale_pos.ne'
  rw [ofInt_eq small, toInt?, Int.mul_emod_left, if_pos rfl,
    Int.mul_ediv_cancel _ nonzero]

end Double

end Foundation
