import Mathlib.Data.List.Basic
import Mathlib.Data.List.Flatten
import Mathlib.Data.List.Induction
import Mathlib.Data.String.Basic

/-!
# Byte encodings

The UTF-8 bytes of a text, numbers as little-endian bytes of a fixed width or as
big-endian bytes, and fields that start with their length.  Such a field is read
back in front of any further bytes, so a sequence of fields has one reading only.
-/

namespace Foundation

def utf8 (text : String) : List UInt8 :=
  text.toList.flatMap String.utf8EncodeChar

/-- What holds of the characters that a text is made of holds of its list. -/
theorem holds_of_chars (Holds : List Char → Prop) {chars : List Char}
    (holds : Holds chars) : Holds (String.ofList chars).toList := by
  rwa [String.toList_ofList]

theorem utf8_injective : Function.Injective utf8 := by
  intro left right same
  have encoded : left.toList.utf8Encode = right.toList.utf8Encode := by
    unfold List.utf8Encode
    exact congrArg List.toByteArray same
  rw [String.utf8Encode_toList, String.utf8Encode_toList] at encoded
  exact String.toByteArray_inj.mp encoded

/-- The lowest `width` bytes of a number, least significant first. -/
def leBytes : Nat → Nat → List UInt8
  | 0, _ => []
  | width + 1, value => UInt8.ofNat value :: leBytes width (value / 256)

@[simp]
theorem leBytes_length (width value : Nat) :
    (leBytes width value).length = width := by
  induction width generalizing value with
  | zero => rfl
  | succ width ih => simp [leBytes, ih]

theorem leBytes_injective {width left right : Nat}
    (leftSmall : left < 256 ^ width) (rightSmall : right < 256 ^ width)
    (same : leBytes width left = leBytes width right) : left = right := by
  induction width generalizing left right with
  | zero =>
      simp only [Nat.pow_zero, Nat.lt_one_iff] at leftSmall rightSmall
      rw [leftSmall, rightSmall]
  | succ width ih =>
      obtain ⟨sameLow, sameHigh⟩ := List.cons.inj same
      have low : left % 256 = right % 256 := by
        have bytes := congrArg UInt8.toNat sameLow
        simpa using bytes
      have high : left / 256 = right / 256 := by
        apply ih _ _ sameHigh
        · rw [Nat.pow_succ] at leftSmall
          omega
        · rw [Nat.pow_succ] at rightSmall
          omega
      omega

/-- The number that the bytes write, the most significant first. -/
def beNat (bytes : List UInt8) : Nat :=
  bytes.foldl (fun value byte => value * 256 + byte.toNat) 0

theorem beNat_concat (bytes : List UInt8) (last : UInt8) :
    beNat (bytes ++ [last]) = beNat bytes * 256 + last.toNat := by
  rw [beNat, List.foldl_append]
  rfl

/-- Bytes of one length are told apart by the number they write. -/
theorem beNat_injective {left right : List UInt8}
    (sameLength : left.length = right.length)
    (same : beNat left = beNat right) : left = right := by
  induction left using List.reverseRecOn generalizing right with
  | nil => exact (List.length_eq_zero_iff.mp sameLength.symm).symm
  | append_singleton bytes last ih =>
      rcases List.eq_nil_or_concat' right with rfl | ⟨others, final, rfl⟩
      · simp at sameLength
      · rw [beNat_concat, beNat_concat] at same
        have lastSmall := last.toNat_lt
        have finalSmall := final.toNat_lt
        have sameLast : last = final := UInt8.toNat_inj.mp (by omega)
        rw [ih (by simpa using sameLength) (by omega), sameLast]

theorem beNat_lt (bytes : List UInt8) : beNat bytes < 256 ^ bytes.length := by
  induction bytes using List.reverseRecOn with
  | nil => exact Nat.one_pos
  | append_singleton bytes last ih =>
      have lastSmall := last.toNat_lt
      rw [beNat_concat, List.length_append, List.length_singleton, Nat.pow_succ]
      omega

theorem le_beNat {first : UInt8} (positive : first ≠ 0) (rest : List UInt8) :
    256 ^ rest.length ≤ beNat (first :: rest) := by
  induction rest using List.reverseRecOn with
  | nil =>
      have notZero : first.toNat ≠ 0 := fun zero =>
        positive (UInt8.toNat_inj.mp zero)
      show 1 ≤ 0 * 256 + first.toNat
      omega
  | append_singleton rest last ih =>
      rw [← List.cons_append, beNat_concat, List.length_append,
        List.length_singleton, Nat.pow_succ]
      omega

/-- Without zeros in front the number determines the bytes. -/
theorem beNat_injective_of_minimal {first other : UInt8}
    {rest remaining : List UInt8} (positive : first ≠ 0)
    (otherPositive : other ≠ 0)
    (same : beNat (first :: rest) = beNat (other :: remaining)) :
    first :: rest = other :: remaining := by
  apply beNat_injective _ same
  have low := le_beNat positive rest
  have otherLow := le_beNat otherPositive remaining
  have high := beNat_lt (first :: rest)
  have otherHigh := beNat_lt (other :: remaining)
  have below : rest.length < remaining.length + 1 :=
    (Nat.pow_lt_pow_iff_right (by decide)).mp
      (Nat.lt_of_le_of_lt (same ▸ low) otherHigh)
  have above : remaining.length < rest.length + 1 :=
    (Nat.pow_lt_pow_iff_right (by decide)).mp
      (Nat.lt_of_le_of_lt (same ▸ otherLow) high)
  simp only [List.length_cons]
  omega

/-- A field with its length in front, in eight bytes. -/
def prefixed (field : List UInt8) : List UInt8 :=
  leBytes 8 field.length ++ field

theorem prefixed_append_inj {left right rest remaining : List UInt8}
    (leftSmall : left.length < 2 ^ 64) (rightSmall : right.length < 2 ^ 64)
    (same : prefixed left ++ rest = prefixed right ++ remaining) :
    left = right ∧ rest = remaining := by
  unfold prefixed at same
  rw [List.append_assoc, List.append_assoc] at same
  obtain ⟨sameLength, sameFields⟩ :=
    List.append_inj same (by rw [leBytes_length, leBytes_length])
  have lengths : left.length = right.length :=
    leBytes_injective (by simpa using leftSmall) (by simpa using rightSmall)
      sameLength
  exact List.append_inj sameFields lengths

/-- The same number of fields in front of further bytes. -/
theorem flatMap_prefixed_inj {left right : List (List UInt8)}
    {rest remaining : List UInt8} (sameCount : left.length = right.length)
    (leftSmall : ∀ field ∈ left, field.length < 2 ^ 64)
    (rightSmall : ∀ field ∈ right, field.length < 2 ^ 64)
    (same : left.flatMap prefixed ++ rest =
      right.flatMap prefixed ++ remaining) :
    left = right ∧ rest = remaining := by
  induction left generalizing right with
  | nil =>
      cases right with
      | nil => exact ⟨rfl, by simpa using same⟩
      | cons field fields => cases sameCount
  | cons field fields ih =>
      cases right with
      | nil => cases sameCount
      | cons other others =>
          rw [List.flatMap_cons, List.flatMap_cons, List.append_assoc,
            List.append_assoc] at same
          obtain ⟨sameField, sameFields⟩ := prefixed_append_inj
            (leftSmall field List.mem_cons_self)
            (rightSmall other List.mem_cons_self) same
          obtain ⟨sameOthers, sameRest⟩ := ih
            (by simpa using sameCount)
            (fun next member => leftSmall next (List.mem_cons_of_mem _ member))
            (fun next member => rightSmall next (List.mem_cons_of_mem _ member))
            sameFields
          exact ⟨by rw [sameField, sameOthers], sameRest⟩

end Foundation
