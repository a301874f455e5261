import Paigasus.Foundation.Delimited
import Paigasus.Foundation.FixedWidth

/-!
# Integers as texts

Decimal integers with a sign, padded with zeros to a width that counts the
sign, and read back with a range check.
-/

namespace Foundation

/-- Decimal digits, and nothing else. -/
def readNat (text : List Char) : Option Nat :=
  if text ≠ [] ∧ text.all Char.isDigit = true then
    some (Nat.ofDigitChars 10 text 0)
  else
    none

/-- Reads an unsigned number below the bound; a plus sign may stand in front. -/
def readUnsigned (bound : Nat) (text : List Char) : Option Nat :=
  let digits :=
    match text with
    | '+' :: rest => rest
    | _ => text
  (readNat digits).filter (· < bound)

def I32.read (text : List Char) : Option I32 :=
  match text with
  | '-' :: rest => (readNat rest).bind fun value => I32.ofInt? (-value)
  | '+' :: rest => (readNat rest).bind fun value => I32.ofInt? value
  | _ => (readNat text).bind fun value => I32.ofInt? value

/-- Padded with zeros between the sign and the digits. -/
def paddedInt (width : Nat) (value : Int) : List Char :=
  if value < 0 then '-' :: zeroPadded (width - 1) value.natAbs
  else zeroPadded width value.natAbs

theorem zeroPadded_ne_nil (width value : Nat) : zeroPadded width value ≠ [] := by
  intro empty
  have noDigits := (List.append_eq_nil_iff.mp empty).2
  have positive := Nat.length_toDigits_pos (b := 10) (n := value)
  rw [noDigits] at positive
  cases positive

theorem readNat_zeroPadded (width value : Nat) :
    readNat (zeroPadded width value) = some value := by
  rw [readNat, if_pos ⟨zeroPadded_ne_nil width value,
    List.all_eq_true.mpr zeroPadded_isDigit⟩]
  simp [zeroPadded, Nat.ofDigitChars_append, Nat.ofDigitChars_replicate_zero,
    Nat.ofDigitChars_toDigits]

/-- A padded number starts with a digit. -/
theorem zeroPadded_cons (width value : Nat) : ∃ digit rest,
    zeroPadded width value = digit :: rest ∧ digit.isDigit = true := by
  cases padded : zeroPadded width value with
  | nil => exact absurd padded (zeroPadded_ne_nil width value)
  | cons digit rest =>
      refine ⟨digit, rest, rfl, ?_⟩
      apply @zeroPadded_isDigit width value
      rw [padded]
      exact List.mem_cons_self

theorem readUnsigned_zeroPadded {width value bound : Nat}
    (below : value < bound) :
    readUnsigned bound (zeroPadded width value) = some value := by
  obtain ⟨digit, rest, isPadded, isDigit⟩ := zeroPadded_cons width value
  have unsigned : digit ≠ '+' := by
    rintro rfl
    cases isDigit
  have reads := readNat_zeroPadded width value
  rw [isPadded] at reads ⊢
  simp [readUnsigned, unsigned, reads, below]

theorem I32.read_paddedInt (width : Nat) (value : I32) :
    I32.read (paddedInt width value.val) = some value := by
  unfold paddedInt
  split
  case isTrue negative =>
    have sameValue : -(value.val.natAbs : Int) = value.val := by omega
    simp only [I32.read, readNat_zeroPadded, Option.bind_some, sameValue,
      I32.ofInt?_val]
  case isFalse nonnegative =>
    obtain ⟨digit, rest, isPadded, isDigit⟩ :=
      zeroPadded_cons width value.val.natAbs
    have reads := readNat_zeroPadded width value.val.natAbs
    have sameValue : (value.val.natAbs : Int) = value.val := by omega
    rw [isPadded] at reads ⊢
    unfold I32.read
    split
    case h_1 rest' isSign =>
      cases (List.cons.inj isSign).1
      cases isDigit
    case h_2 rest' isSign =>
      cases (List.cons.inj isSign).1
      cases isDigit
    case h_3 =>
      rw [reads, Option.bind_some, sameValue, I32.ofInt?_val]

theorem not_mem_paddedInt {separator : Char}
    (notDigit : separator.isDigit = false) (notSign : separator ≠ '-')
    (width : Nat) (value : Int) : separator ∉ paddedInt width value := by
  unfold paddedInt
  split
  · intro member
    rcases List.mem_cons.mp member with isSign | inDigits
    · exact notSign isSign
    · exact not_mem_zeroPadded notDigit _ _ inDigits
  · exact not_mem_zeroPadded notDigit _ _

end Foundation
