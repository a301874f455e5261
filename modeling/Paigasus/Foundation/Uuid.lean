import Mathlib.Data.List.Basic
import Mathlib.Data.Fintype.Basic
import Mathlib.Tactic.IntervalCases
import Mathlib.Tactic.Ring

/-!
# UUIDs and their hyphenated text form

A UUID is a 128-bit number.  Its canonical text is the 32 lowercase hexadecimal
digits in groups of 8, 4, 4, 4 and 12; the reader also takes uppercase digits.
-/

namespace Foundation

/-- A 128-bit identifier. -/
@[ext]
structure Uuid where
  value : Fin (2 ^ 128)
deriving DecidableEq

namespace Uuid

instance (digits : Nat) : OfNat Uuid digits := ⟨⟨Fin.ofNat (2 ^ 128) digits⟩⟩

def hexDigit (digit : Nat) : Char :=
  if digit < 10 then Char.ofNat (48 + digit) else Char.ofNat (87 + digit)

def hexValue? (char : Char) : Option Nat :=
  if 48 ≤ char.toNat ∧ char.toNat ≤ 57 then
    some (char.toNat - 48)
  else if 97 ≤ char.toNat ∧ char.toNat ≤ 102 then
    some (char.toNat - 87)
  else if 65 ≤ char.toNat ∧ char.toNat ≤ 70 then
    some (char.toNat - 55)
  else
    none

/-- The lowest `width` hexadecimal digits of a number, most significant first. -/
def hexDigits : Nat → Nat → List Char
  | 0, _ => []
  | width + 1, value => hexDigits width (value / 16) ++ [hexDigit (value % 16)]

def parseHexFrom (high : Nat) : List Char → Option Nat
  | [] => some high
  | char :: rest =>
      match hexValue? char with
      | none => none
      | some digit => parseHexFrom (high * 16 + digit) rest

def parseHex (text : List Char) : Option Nat := parseHexFrom 0 text

def hyphenated (id : Uuid) : List Char :=
  let digits := hexDigits 32 id.value.val
  digits.take 8 ++ '-' :: ((digits.drop 8).take 4 ++ '-' ::
    ((digits.drop 12).take 4 ++ '-' ::
      ((digits.drop 16).take 4 ++ '-' :: digits.drop 20)))

/-- Reads the hyphenated form. -/
def tryParse (text : List Char) : Option Uuid :=
  match text.splitOn '-' with
  | [first, second, third, fourth, fifth] =>
      if first.length = 8 ∧ second.length = 4 ∧ third.length = 4 ∧
          fourth.length = 4 ∧ fifth.length = 12 then
        match parseHex (first ++ second ++ third ++ fourth ++ fifth) with
        | none => none
        | some value => some ⟨Fin.ofNat (2 ^ 128) value⟩
      else
        none
  | _ => none

/-- The text of all 32 digits, without hyphens. -/
def simple (id : Uuid) : List Char := hexDigits 32 id.value.val

/-- Reads the form without hyphens. -/
def parseSimple (text : List Char) : Option Uuid :=
  if text.length = 32 then
    (parseHex text).map fun value => ⟨Fin.ofNat (2 ^ 128) value⟩
  else
    none

@[simp]
theorem hexDigits_length (width value : Nat) :
    (hexDigits width value).length = width := by
  induction width generalizing value with
  | zero => rfl
  | succ width ih => simp [hexDigits, ih]

theorem hexValue?_hexDigit {digit : Nat} (small : digit < 16) :
    hexValue? (hexDigit digit) = some digit := by
  interval_cases digit <;> rfl

theorem hexDigit_ne_of_not_hex {separator : Char}
    (notHex : hexValue? separator = none) {digit : Nat} (small : digit < 16) :
    hexDigit digit ≠ separator := by
  intro same
  rw [← same, hexValue?_hexDigit small] at notHex
  cases notHex

theorem not_mem_hexDigits {separator : Char}
    (notHex : hexValue? separator = none) (width value : Nat) :
    separator ∉ hexDigits width value := by
  induction width generalizing value with
  | zero => simp [hexDigits]
  | succ width ih =>
      have last : hexDigit (value % 16) ≠ separator :=
        hexDigit_ne_of_not_hex notHex (Nat.mod_lt value (by omega))
      simp [hexDigits, ih, last.symm]

theorem parseHexFrom_append (high : Nat) (first second : List Char) :
    parseHexFrom high (first ++ second) =
      (parseHexFrom high first).bind (parseHexFrom · second) := by
  induction first generalizing high with
  | nil => rfl
  | cons char rest ih =>
      simp only [List.cons_append, parseHexFrom]
      cases hexValue? char with
      | none => rfl
      | some digit => exact ih (high * 16 + digit)

theorem parseHexFrom_hexDigits (high width value : Nat)
    (fits : value < 16 ^ width) :
    parseHexFrom high (hexDigits width value) =
      some (high * 16 ^ width + value) := by
  induction width generalizing value with
  | zero =>
      have zero : value = 0 := by simpa using fits
      simp [hexDigits, parseHexFrom, zero]
  | succ width ih =>
      have highFits : value / 16 < 16 ^ width := by
        rw [Nat.div_lt_iff_lt_mul (by omega), ← pow_succ]
        exact fits
      rw [hexDigits, parseHexFrom_append, ih (value / 16) highFits]
      simp only [Option.bind_some, parseHexFrom,
        hexValue?_hexDigit (Nat.mod_lt value (show 0 < 16 by omega))]
      have split := Nat.div_add_mod value 16
      congr 1
      rw [pow_succ]
      ring_nf
      omega

private theorem take_drop_append (digits : List Char) (skip width : Nat) :
    (digits.drop skip).take width ++ digits.drop (skip + width) =
      digits.drop skip := by
  rw [← List.drop_drop, List.take_append_drop]

theorem value_lt (id : Uuid) : id.value.val < 16 ^ 32 :=
  lt_of_lt_of_eq id.value.isLt (by norm_num)

/-- The hyphenated text without its hyphens is the text of all 32 digits. -/
theorem hyphenated_digits (id : Uuid) :
    id.hyphenated.filter (· ≠ '-') = hexDigits 32 id.value.val := by
  have noHyphen : ∀ char ∈ hexDigits 32 id.value.val, char ≠ '-' := by
    intro char member same
    rw [same] at member
    exact not_mem_hexDigits rfl 32 id.value.val member
  have keep : ∀ part : List Char, part ⊆ hexDigits 32 id.value.val →
      part.filter (· ≠ '-') = part := by
    intro part sub
    apply List.filter_eq_self.mpr
    intro char member
    simpa using noHyphen char (sub member)
  have takeDrop : ∀ skip width,
      ((hexDigits 32 id.value.val).drop skip).take width ⊆
        hexDigits 32 id.value.val := by
    intro skip width char member
    exact List.mem_of_mem_drop (List.mem_of_mem_take member)
  have first := keep ((hexDigits 32 id.value.val).take 8) (takeDrop 0 8)
  have last := keep ((hexDigits 32 id.value.val).drop 20)
    (List.drop_subset _ _)
  simp only [hyphenated, List.filter_append, List.filter_cons, first, last,
    keep _ (takeDrop 8 4), keep _ (takeDrop 12 4), keep _ (takeDrop 16 4)]
  simp only [ne_eq, not_true_eq_false, decide_false, Bool.false_eq_true,
    if_false]
  rw [take_drop_append _ 16 4, take_drop_append _ 12 4,
    take_drop_append _ 8 4, List.take_append_drop]

theorem not_mem_hyphenated {separator : Char}
    (notHex : hexValue? separator = none) (notHyphen : separator ≠ '-')
    (id : Uuid) : separator ∉ id.hyphenated := by
  intro member
  apply not_mem_hexDigits notHex 32 id.value.val
  rw [← hyphenated_digits]
  exact List.mem_filter.mpr ⟨member, by simpa using notHyphen⟩

@[simp]
theorem hyphenated_length (id : Uuid) : id.hyphenated.length = 36 := by
  simp [hyphenated]

theorem hyphenated_injective : Function.Injective hyphenated := by
  intro left right same
  have digits : hexDigits 32 left.value.val = hexDigits 32 right.value.val := by
    rw [← hyphenated_digits, ← hyphenated_digits, same]
  have values := congrArg (parseHexFrom 0) digits
  rw [parseHexFrom_hexDigits 0 32 _ left.value_lt,
    parseHexFrom_hexDigits 0 32 _ right.value_lt] at values
  have sameValue : left.value = right.value := by
    apply Fin.ext
    simpa only [zero_mul, zero_add, Option.some.injEq] using values
  exact Uuid.ext sameValue

theorem parseSimple_simple (id : Uuid) : parseSimple id.simple = some id := by
  have value : Fin.ofNat (2 ^ 128) (0 * 16 ^ 32 + id.value.val) = id.value := by
    apply Fin.ext
    simp
  rw [parseSimple, simple, if_pos (hexDigits_length 32 _), parseHex,
    parseHexFrom_hexDigits 0 32 _ id.value_lt, Option.map_some, value]

/-- Hexadecimal digits of either case, of a fixed number. -/
structure HexGroup (width : Nat) (text : List Char) : Prop where
  digits : ∀ char ∈ text, (hexValue? char).isSome = true
  width : text.length = width

/-- The hyphenated form: groups of 8, 4, 4, 4 and 12 hexadecimal digits. -/
def IsHyphenated (text : List Char) : Prop :=
  ∃ first second third fourth fifth : List Char,
    HexGroup 8 first ∧ HexGroup 4 second ∧ HexGroup 4 third ∧
      HexGroup 4 fourth ∧ HexGroup 12 fifth ∧
        text = first ++ '-' :: (second ++ '-' ::
          (third ++ '-' :: (fourth ++ '-' :: fifth)))

theorem HexGroup.not_mem {width : Nat} {text : List Char} {separator : Char}
    (group : HexGroup width text) (notHex : hexValue? separator = none) :
    separator ∉ text := by
  intro member
  have digit := group.digits separator member
  rw [notHex] at digit
  cases digit

theorem HexGroup.hexDigits_take_drop (skip width value total : Nat)
    (fits : skip + width ≤ total) :
    HexGroup width (((hexDigits total value).drop skip).take width) := by
  refine ⟨?_, ?_⟩
  · intro char member
    have digit := List.mem_of_mem_drop (List.mem_of_mem_take member)
    cases isHex : hexValue? char with
    | some _ => rfl
    | none => exact absurd digit (not_mem_hexDigits isHex total value)
  · rw [List.length_take, List.length_drop, hexDigits_length]
    omega

theorem parseHexFrom_isSome_iff (high : Nat) (text : List Char) :
    (parseHexFrom high text).isSome = true ↔
      ∀ char ∈ text, (hexValue? char).isSome = true := by
  induction text generalizing high with
  | nil => simp [parseHexFrom]
  | cons char rest ih =>
      cases value : hexValue? char with
      | none => simp [parseHexFrom, value]
      | some digit => simp [parseHexFrom, value, ih]

theorem splitOn_groups {first second third fourth fifth : List Char}
    (firstGroup : HexGroup 8 first) (secondGroup : HexGroup 4 second)
    (thirdGroup : HexGroup 4 third) (fourthGroup : HexGroup 4 fourth)
    (fifthGroup : HexGroup 12 fifth) :
    (first ++ '-' :: (second ++ '-' ::
      (third ++ '-' :: (fourth ++ '-' :: fifth)))).splitOn '-' =
        [first, second, third, fourth, fifth] := by
  rw [List.splitOn_append_cons_self_of_not_mem (firstGroup.not_mem rfl),
    List.splitOn_append_cons_self_of_not_mem (secondGroup.not_mem rfl),
    List.splitOn_append_cons_self_of_not_mem (thirdGroup.not_mem rfl),
    List.splitOn_append_cons_self_of_not_mem (fourthGroup.not_mem rfl),
    List.splitOn_eq_singleton (fifthGroup.not_mem rfl)]

theorem tryParse_groups {first second third fourth fifth : List Char}
    (firstGroup : HexGroup 8 first) (secondGroup : HexGroup 4 second)
    (thirdGroup : HexGroup 4 third) (fourthGroup : HexGroup 4 fourth)
    (fifthGroup : HexGroup 12 fifth) :
    tryParse (first ++ '-' :: (second ++ '-' ::
      (third ++ '-' :: (fourth ++ '-' :: fifth)))) =
        (parseHex (first ++ second ++ third ++ fourth ++ fifth)).map
          fun value => ⟨Fin.ofNat (2 ^ 128) value⟩ := by
  rw [tryParse, splitOn_groups firstGroup secondGroup thirdGroup fourthGroup
    fifthGroup]
  simp only [firstGroup.width, secondGroup.width, thirdGroup.width,
    fourthGroup.width, fifthGroup.width, and_self, if_true]
  cases parseHex (first ++ second ++ third ++ fourth ++ fifth) <;> rfl

/-- The reader takes exactly the hyphenated form. -/
theorem tryParse_isSome_iff (text : List Char) :
    (∃ id, tryParse text = some id) ↔ IsHyphenated text := by
  constructor
  · rintro ⟨id, parsed⟩
    rw [tryParse] at parsed
    split at parsed
    case h_1 first second third fourth fifth fields =>
      split at parsed
      case isTrue widths =>
        obtain ⟨firstWidth, secondWidth, thirdWidth, fourthWidth,
          fifthWidth⟩ := widths
        have isHex : (parseHex
            (first ++ second ++ third ++ fourth ++ fifth)).isSome = true := by
          cases value : parseHex
              (first ++ second ++ third ++ fourth ++ fifth) with
          | none =>
              rw [value] at parsed
              cases parsed
          | some value => rfl
        have digits := (parseHexFrom_isSome_iff 0 _).mp isHex
        simp only [List.mem_append, or_imp, forall_and] at digits
        obtain ⟨⟨⟨⟨ofFirst, ofSecond⟩, ofThird⟩, ofFourth⟩, ofFifth⟩ := digits
        refine ⟨first, second, third, fourth, fifth, ⟨ofFirst, firstWidth⟩,
          ⟨ofSecond, secondWidth⟩, ⟨ofThird, thirdWidth⟩,
          ⟨ofFourth, fourthWidth⟩, ⟨ofFifth, fifthWidth⟩, ?_⟩
        have whole : ['-'].intercalate (text.splitOn '-') = text :=
          List.intercalate_splitOn '-'
        rw [fields] at whole
        rw [← whole]
        simp [List.intercalate_cons_cons]
      case isFalse => cases parsed
    case h_2 => cases parsed
  · rintro ⟨first, second, third, fourth, fifth, firstGroup, secondGroup,
      thirdGroup, fourthGroup, fifthGroup, rfl⟩
    rw [tryParse_groups firstGroup secondGroup thirdGroup fourthGroup
      fifthGroup]
    have isHex : (parseHex
        (first ++ second ++ third ++ fourth ++ fifth)).isSome = true := by
      apply (parseHexFrom_isSome_iff 0 _).mpr
      simp only [List.mem_append, or_imp, forall_and]
      exact ⟨⟨⟨⟨firstGroup.digits, secondGroup.digits⟩, thirdGroup.digits⟩,
        fourthGroup.digits⟩, fifthGroup.digits⟩
    obtain ⟨value, isValue⟩ := Option.isSome_iff_exists.mp isHex
    rw [isValue]
    exact ⟨_, rfl⟩

theorem isHyphenated_hyphenated (id : Uuid) : IsHyphenated id.hyphenated := by
  have group := fun skip width fits =>
    HexGroup.hexDigits_take_drop skip width id.value.val 32 fits
  have last := group 20 12 (by omega)
  rw [List.take_of_length_le (by simp)] at last
  exact ⟨_, _, _, _, _, group 0 8 (by omega), group 8 4 (by omega),
    group 12 4 (by omega), group 16 4 (by omega), last, rfl⟩

/-- The text of an identifier reads back as it. -/
theorem tryParse_hyphenated (id : Uuid) :
    tryParse id.hyphenated = some id := by
  have group := fun skip width fits =>
    HexGroup.hexDigits_take_drop skip width id.value.val 32 fits
  have last := group 20 12 (by omega)
  rw [List.take_of_length_le (by simp)] at last
  have digits : (((hexDigits 32 id.value.val).drop 0).take 8 ++
      ((hexDigits 32 id.value.val).drop 8).take 4 ++
      ((hexDigits 32 id.value.val).drop 12).take 4 ++
      ((hexDigits 32 id.value.val).drop 16).take 4 ++
      (hexDigits 32 id.value.val).drop 20) = hexDigits 32 id.value.val := by
    rw [List.append_assoc, take_drop_append _ 16 4, List.append_assoc,
      take_drop_append _ 12 4, List.append_assoc, take_drop_append _ 8 4,
      take_drop_append _ 0 8, List.drop_zero]
  have parsed := tryParse_groups (group 0 8 (by omega)) (group 8 4 (by omega))
    (group 12 4 (by omega)) (group 16 4 (by omega)) last
  rw [digits, parseHex, parseHexFrom_hexDigits 0 32 _ id.value_lt] at parsed
  have value : Fin.ofNat (2 ^ 128) (0 * 16 ^ 32 + id.value.val) = id.value := by
    apply Fin.ext
    simp
  rw [Option.map_some, value] at parsed
  exact parsed

theorem isHyphenated_length {text : List Char} (isText : IsHyphenated text) :
    text.length = 36 := by
  obtain ⟨first, second, third, fourth, fifth, firstGroup, secondGroup,
    thirdGroup, fourthGroup, fifthGroup, rfl⟩ := isText
  simp only [List.length_append, List.length_cons, firstGroup.width,
    secondGroup.width, thirdGroup.width, fourthGroup.width, fifthGroup.width]

/-- A character of the hyphenated form is a hyphen or a digit. -/
theorem IsHyphenated.char {text : List Char} (isText : IsHyphenated text)
    {char : Char} (member : char ∈ text) :
    char = '-' ∨ (hexValue? char).isSome = true := by
  obtain ⟨first, second, third, fourth, fifth, firstGroup, secondGroup,
    thirdGroup, fourthGroup, fifthGroup, rfl⟩ := isText
  simp only [List.mem_append, List.mem_cons] at member
  rcases member with inFirst | rfl | inSecond | rfl | inThird | rfl |
    inFourth | rfl | inFifth
  · exact .inr (firstGroup.digits char inFirst)
  · exact .inl rfl
  · exact .inr (secondGroup.digits char inSecond)
  · exact .inl rfl
  · exact .inr (thirdGroup.digits char inThird)
  · exact .inl rfl
  · exact .inr (fourthGroup.digits char inFourth)
  · exact .inl rfl
  · exact .inr (fifthGroup.digits char inFifth)

theorem IsHyphenated.not_mem {text : List Char} (isText : IsHyphenated text)
    {separator : Char} (notHex : hexValue? separator = none)
    (notHyphen : separator ≠ '-') : separator ∉ text := by
  intro member
  rcases isText.char member with isHyphen | isDigit
  · exact notHyphen isHyphen
  · rw [notHex] at isDigit
    cases isDigit

theorem utf8Size_of_hex {char : Char}
    (isHex : (hexValue? char).isSome = true) : char.utf8Size = 1 := by
  have small : char.toNat ≤ 102 := by
    by_contra large
    have notHex : hexValue? char = none := by
      rw [hexValue?, if_neg (by omega), if_neg (by omega), if_neg (by omega)]
    rw [notHex] at isHex
    cases isHex
  have code : char.val.toNat ≤ 127 := by
    have same : char.val.toNat = char.toNat := rfl
    omega
  exact Char.utf8Size_eq_one_iff.mpr (UInt32.le_iff_toNat_le.mpr code)

/-- Every hyphenated text takes 36 bytes. -/
theorem IsHyphenated.utf8ByteSize {text : List Char}
    (isText : IsHyphenated text) :
    (String.ofList text).utf8ByteSize = 36 := by
  have sizes : ∀ chars : List Char, (∀ char ∈ chars, char.utf8Size = 1) →
      (String.ofList chars).utf8ByteSize = chars.length := by
    intro chars
    induction chars with
    | nil => exact fun _ => rfl
    | cons char rest ih =>
        intro single
        have later := ih fun next member =>
          single next (List.mem_cons_of_mem _ member)
        rw [String.ofList_cons, String.utf8ByteSize_append,
          String.utf8ByteSize_singleton, later,
          single char List.mem_cons_self, List.length_cons]
        omega
  rw [sizes text _, isHyphenated_length isText]
  intro char member
  rcases isText.char member with rfl | isDigit
  · rfl
  · exact utf8Size_of_hex isDigit

end Uuid

end Foundation
