import Mathlib.Data.List.Basic
import Mathlib.Tactic.IntervalCases

/-!
# Base64 texts without padding

Three bytes are four characters of six bits each; one or two bytes at the end
are two or three characters.  A reader is only asked to read back what was
written, so that anything else it does with other texts stays open.
-/

namespace Foundation

/-- A writer and a reader that reads back what was written. -/
structure Base64Engine where
  encode : List UInt8 → List Char
  decode : List Char → Option (List UInt8)
  decode_encode : ∀ bytes, decode (encode bytes) = some bytes

namespace Base64

/-- The characters of the URL-safe alphabet, by their six bits. -/
def sextet (bits : Nat) : Char :=
  if bits < 26 then Char.ofNat (65 + bits)
  else if bits < 52 then Char.ofNat (71 + bits)
  else if bits < 62 then Char.ofNat (bits - 4)
  else if bits = 62 then '-'
  else '_'

def bits? (char : Char) : Option Nat :=
  if 65 ≤ char.toNat ∧ char.toNat ≤ 90 then some (char.toNat - 65)
  else if 97 ≤ char.toNat ∧ char.toNat ≤ 122 then some (char.toNat - 71)
  else if 48 ≤ char.toNat ∧ char.toNat ≤ 57 then some (char.toNat + 4)
  else if char = '-' then some 62
  else if char = '_' then some 63
  else none

def encode : List UInt8 → List Char
  | [] => []
  | [first] =>
      [sextet (first.toNat / 4), sextet (first.toNat % 4 * 16)]
  | [first, second] =>
      [sextet (first.toNat / 4),
        sextet (first.toNat % 4 * 16 + second.toNat / 16),
        sextet (second.toNat % 16 * 4)]
  | first :: second :: third :: rest =>
      sextet (first.toNat / 4) ::
        sextet (first.toNat % 4 * 16 + second.toNat / 16) ::
          sextet (second.toNat % 16 * 4 + third.toNat / 64) ::
            sextet (third.toNat % 64) :: encode rest

/-- Reads the characters back; bits left over at the end must be zero. -/
def decode : List Char → Option (List UInt8)
  | [] => some []
  | [_] => none
  | [first, second] =>
      match bits? first, bits? second with
      | some high, some low =>
          if low % 16 = 0 then some [UInt8.ofNat (high * 4 + low / 16)]
          else none
      | _, _ => none
  | [first, second, third] =>
      match bits? first, bits? second, bits? third with
      | some high, some middle, some low =>
          if low % 4 = 0 then
            some [UInt8.ofNat (high * 4 + middle / 16),
              UInt8.ofNat (middle % 16 * 16 + low / 4)]
          else none
      | _, _, _ => none
  | first :: second :: third :: fourth :: rest =>
      match bits? first, bits? second, bits? third, bits? fourth with
      | some high, some middle, some low, some last =>
          (decode rest).map fun bytes =>
            UInt8.ofNat (high * 4 + middle / 16) ::
              UInt8.ofNat (middle % 16 * 16 + low / 4) ::
                UInt8.ofNat (low % 4 * 64 + last) :: bytes
      | _, _, _, _ => none

theorem bits?_sextet {bits : Nat} (small : bits < 64) :
    bits? (sextet bits) = some bits := by
  interval_cases bits <;> rfl

theorem ofNat_eq {value : Nat} (byte : UInt8) (same : value = byte.toNat) :
    UInt8.ofNat value = byte := by
  rw [same, UInt8.ofNat_toNat]

theorem decode_encode (bytes : List UInt8) :
    decode (encode bytes) = some bytes := by
  induction bytes using encode.induct with
  | case1 => rfl
  | case2 first =>
      have firstSmall := first.toNat_lt
      simp only [encode, decode]
      rw [bits?_sextet (by omega), bits?_sextet (by omega)]
      simp only
      rw [if_pos (by omega), ofNat_eq first (by omega)]
  | case3 first second =>
      have firstSmall := first.toNat_lt
      have secondSmall := second.toNat_lt
      simp only [encode, decode]
      rw [bits?_sextet (by omega), bits?_sextet (by omega),
        bits?_sextet (by omega)]
      simp only
      rw [if_pos (by omega), ofNat_eq first (by omega),
        ofNat_eq second (by omega)]
  | case4 first second third rest ih =>
      have firstSmall := first.toNat_lt
      have secondSmall := second.toNat_lt
      have thirdSmall := third.toNat_lt
      simp only [encode, decode]
      rw [bits?_sextet (by omega), bits?_sextet (by omega),
        bits?_sextet (by omega), bits?_sextet (by omega), ih]
      simp only [Option.map_some]
      rw [ofNat_eq first (by omega),
        ofNat_eq second (by omega),
        ofNat_eq third (by omega)]

theorem bits?_spec {char : Char} {bits : Nat} (found : bits? char = some bits) :
    bits < 64 ∧ sextet bits = char := by
  have same : ∀ value, char.toNat = value → Char.ofNat value = char := by
    intro value isValue
    rw [← isValue, Char.ofNat_toNat]
  unfold bits? at found
  split at found
  case isTrue upper =>
    cases found
    refine ⟨by omega, ?_⟩
    rw [sextet, if_pos (by omega)]
    exact same _ (by omega)
  case isFalse =>
    split at found
    case isTrue lower =>
      cases found
      refine ⟨by omega, ?_⟩
      rw [sextet, if_neg (by omega), if_pos (by omega)]
      exact same _ (by omega)
    case isFalse =>
      split at found
      case isTrue digit =>
        cases found
        refine ⟨by omega, ?_⟩
        rw [sextet, if_neg (by omega), if_neg (by omega), if_pos (by omega)]
        exact same _ (by omega)
      case isFalse =>
        split at found
        case isTrue isMinus =>
          cases found
          exact ⟨by omega, isMinus.symm⟩
        case isFalse =>
          split at found
          case isTrue isLine =>
            cases found
            exact ⟨by omega, isLine.symm⟩
          case isFalse => cases found

theorem toNat_ofNat {value : Nat} (small : value < 256) :
    (UInt8.ofNat value).toNat = value := by
  rw [UInt8.toNat_ofNat']
  omega

/-- A text that is read is the one that is written for the bytes. -/
theorem encode_of_decode {text : List Char} {bytes : List UInt8}
    (decoded : decode text = some bytes) : encode bytes = text := by
  fun_induction decode text generalizing bytes with
  | case1 =>
      cases decoded
      rfl
  | case2 => cases decoded
  | case3 first second high low isFirst isSecond whole =>
      cases decoded
      obtain ⟨highSmall, writesFirst⟩ := bits?_spec isFirst
      obtain ⟨lowSmall, writesSecond⟩ := bits?_spec isSecond
      simp only [encode]
      rw [toNat_ofNat (by omega),
        show (high * 4 + low / 16) / 4 = high by omega,
        show (high * 4 + low / 16) % 4 * 16 = low by omega,
        writesFirst, writesSecond]
  | case4 => cases decoded
  | case5 => cases decoded
  | case6 first second third high middle low isFirst isSecond isThird whole =>
      cases decoded
      obtain ⟨highSmall, writesFirst⟩ := bits?_spec isFirst
      obtain ⟨middleSmall, writesSecond⟩ := bits?_spec isSecond
      obtain ⟨lowSmall, writesThird⟩ := bits?_spec isThird
      simp only [encode]
      rw [toNat_ofNat (by omega), toNat_ofNat (by omega),
        show (high * 4 + middle / 16) / 4 = high by omega,
        show (high * 4 + middle / 16) % 4 * 16 +
          (middle % 16 * 16 + low / 4) / 16 = middle by omega,
        show (middle % 16 * 16 + low / 4) % 16 * 4 = low by omega,
        writesFirst, writesSecond, writesThird]
  | case7 => cases decoded
  | case8 => cases decoded
  | case9 first second third fourth rest high middle low last isFirst isSecond
      isThird isFourth ih =>
      obtain ⟨following, isRest, rfl⟩ := Option.map_eq_some_iff.mp decoded
      obtain ⟨highSmall, writesFirst⟩ := bits?_spec isFirst
      obtain ⟨middleSmall, writesSecond⟩ := bits?_spec isSecond
      obtain ⟨lowSmall, writesThird⟩ := bits?_spec isThird
      obtain ⟨lastSmall, writesFourth⟩ := bits?_spec isFourth
      simp only [encode]
      rw [toNat_ofNat (by omega), toNat_ofNat (by omega),
        toNat_ofNat (by omega), ih isRest,
        show (high * 4 + middle / 16) / 4 = high by omega,
        show (high * 4 + middle / 16) % 4 * 16 +
          (middle % 16 * 16 + low / 4) / 16 = middle by omega,
        show (middle % 16 * 16 + low / 4) % 16 * 4 +
          (low % 4 * 64 + last) / 64 = low by omega,
        show (low % 4 * 64 + last) % 64 = last by omega,
        writesFirst, writesSecond, writesThird, writesFourth]
  | case10 => cases decoded

/-- Only characters of the alphabet are written. -/
theorem bits?_of_mem_encode {bytes : List UInt8} {char : Char}
    (member : char ∈ encode bytes) : ∃ bits, bits? char = some bits := by
  induction bytes using encode.induct with
  | case1 => cases member
  | case2 first =>
      have firstSmall := first.toNat_lt
      simp only [encode, List.mem_cons, List.not_mem_nil, or_false] at member
      rcases member with rfl | rfl
      · exact ⟨_, bits?_sextet (by omega)⟩
      · exact ⟨_, bits?_sextet (by omega)⟩
  | case3 first second =>
      have firstSmall := first.toNat_lt
      have secondSmall := second.toNat_lt
      simp only [encode, List.mem_cons, List.not_mem_nil, or_false] at member
      rcases member with rfl | rfl | rfl
      · exact ⟨_, bits?_sextet (by omega)⟩
      · exact ⟨_, bits?_sextet (by omega)⟩
      · exact ⟨_, bits?_sextet (by omega)⟩
  | case4 first second third rest ih =>
      have firstSmall := first.toNat_lt
      have secondSmall := second.toNat_lt
      have thirdSmall := third.toNat_lt
      simp only [encode, List.mem_cons] at member
      rcases member with rfl | rfl | rfl | rfl | later
      · exact ⟨_, bits?_sextet (by omega)⟩
      · exact ⟨_, bits?_sextet (by omega)⟩
      · exact ⟨_, bits?_sextet (by omega)⟩
      · exact ⟨_, bits?_sextet (by omega)⟩
      · exact ih later

/-- The URL-safe alphabet without padding. -/
def urlSafeNoPad : Base64Engine where
  encode := encode
  decode := decode
  decode_encode := decode_encode

end Base64

/-- The reader accepts only texts of the URL-safe alphabet, without padding and
with zero bits at the end. -/
def Base64Engine.OnlyCanonical (engine : Base64Engine) : Prop :=
  ∀ text bytes, engine.decode text = some bytes → text = Base64.encode bytes

theorem Base64.urlSafeNoPad_onlyCanonical :
    Base64.urlSafeNoPad.OnlyCanonical := fun _ _ decoded =>
  (encode_of_decode decoded).symm

end Foundation
