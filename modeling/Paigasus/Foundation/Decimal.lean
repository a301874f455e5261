import Mathlib.Algebra.Group.Nat.Defs
import Mathlib.Data.Int.Basic
import Mathlib.Data.List.TakeDrop
import Mathlib.Tactic.Common
import Paigasus.Foundation.Delimited

/-!
# Decimal numbers and their text

A finite number is the decimal that it prints: sign, significand and a power of
ten.  `Decimal.text` is the number format of JavaScript, which writes a plain
decimal up to twenty-one digits and an exponent beyond; `readNumber` accepts
every number of the JSON grammar.  There is no negative zero.
-/

namespace Foundation

/-- `±significand × 10 ^ exponent`, with no zero at the end of the significand. -/
structure Decimal where
  negative : Bool
  significand : Nat
  exponent : Int
  zero : significand = 0 → negative = false ∧ exponent = 0
  shortest : significand ≠ 0 → significand % 10 ≠ 0
deriving DecidableEq

namespace Decimal

/-- Moves the zeros at the end of a positive number to the exponent. -/
def stripZeros : Nat → Nat → Int → Nat × Int
  | 0, significand, exponent => (significand, exponent)
  | digits + 1, significand, exponent =>
      if significand % 10 = 0 then
        stripZeros digits (significand / 10) (exponent + 1)
      else
        (significand, exponent)

theorem stripZeros_shortest {digits significand : Nat} {exponent : Int}
    (positive : significand ≠ 0) (bound : significand < 10 ^ digits) :
    (stripZeros digits significand exponent).1 % 10 ≠ 0 := by
  induction digits generalizing significand exponent with
  | zero =>
      rw [Nat.pow_zero] at bound
      omega
  | succ digits ih =>
      unfold stripZeros
      split
      case isTrue divisible =>
        apply ih
        · omega
        · rw [Nat.pow_succ] at bound
          omega
      case isFalse notDivisible => exact notDivisible

theorem stripZeros_mul_pow {digits significand zeros : Nat} {exponent : Int}
    (shortest : significand % 10 ≠ 0) (enough : zeros ≤ digits) :
    stripZeros digits (significand * 10 ^ zeros) exponent =
      (significand, exponent + zeros) := by
  induction zeros generalizing digits exponent with
  | zero =>
      cases digits with
      | zero => simp [stripZeros]
      | succ digits => simp [stripZeros, shortest]
  | succ zeros ih =>
      cases digits with
      | zero => omega
      | succ digits =>
          have split : significand * 10 ^ (zeros + 1) =
              significand * 10 ^ zeros * 10 := by
            rw [Nat.pow_succ, Nat.mul_assoc]
          unfold stripZeros
          rw [split, if_pos (Nat.mul_mod_left _ _),
            Nat.mul_div_cancel _ (by decide), ih (Nat.le_of_succ_le_succ enough)]
          congr 1
          push_cast
          omega

/-- The zeros that are moved keep the value. -/
theorem stripZeros_value (digits significand : Nat) (exponent : Int) :
    ∃ zeros : Nat,
      (stripZeros digits significand exponent).2 = exponent + zeros ∧
      significand = (stripZeros digits significand exponent).1 * 10 ^ zeros := by
  induction digits generalizing significand exponent with
  | zero => exact ⟨0, by simp [stripZeros], by simp [stripZeros]⟩
  | succ digits ih =>
      unfold stripZeros
      split
      case isTrue divisible =>
        obtain ⟨zeros, moved, value⟩ := ih (significand / 10) (exponent + 1)
        refine ⟨zeros + 1, ?_, ?_⟩
        · rw [moved]
          push_cast
          omega
        · rw [Nat.pow_succ, ← Nat.mul_assoc, ← value]
          omega
      case isFalse => exact ⟨0, by simp, by simp⟩

theorem lt_pow_length_toDigits (number : Nat) :
    number < 10 ^ (Nat.toDigits 10 number).length :=
  (Nat.length_toDigits_le_iff (by decide) Nat.length_toDigits_pos).mp le_rfl

/-- The decimal of a significand that may end in zeros. -/
def ofScientific (negative : Bool) (significand : Nat) (exponent : Int) :
    Decimal :=
  if isZero : significand = 0 then ⟨false, 0, 0, by simp, by simp⟩
  else
    let stripped := stripZeros (Nat.toDigits 10 significand).length significand
      exponent
    have shortest : stripped.1 % 10 ≠ 0 :=
      stripZeros_shortest isZero (lt_pow_length_toDigits significand)
    ⟨negative, stripped.1, stripped.2, by
      intro impossible
      rw [impossible] at shortest
      exact absurd rfl shortest, fun _ => shortest⟩

instance : OfNat Decimal number := ⟨ofScientific false number 0⟩

/-- Zeros that were moved out of the exponent are moved back. -/
theorem ofScientific_mul_pow (decimal : Decimal) {zeros : Nat} {exponent : Int}
    (moved : exponent + zeros = decimal.exponent)
    (noZero : decimal.significand = 0 → zeros = 0) :
    ofScientific decimal.negative (decimal.significand * 10 ^ zeros) exponent =
      decimal := by
  obtain ⟨negative, significand, total, zero, shortest⟩ := decimal
  dsimp only at moved noZero
  by_cases isZero : significand = 0
  · obtain ⟨rfl, rfl⟩ := zero isZero
    subst isZero
    simp [ofScientific]
  · have positive : significand * 10 ^ zeros ≠ 0 :=
      Nat.mul_ne_zero isZero (Nat.pow_pos (by decide) |> Nat.ne_of_gt)
    have enough : zeros ≤
        (Nat.toDigits 10 (significand * 10 ^ zeros)).length := by
      have bound := lt_pow_length_toDigits (significand * 10 ^ zeros)
      have lower : 10 ^ zeros ≤ significand * 10 ^ zeros :=
        Nat.le_mul_of_pos_left _ (Nat.pos_of_ne_zero isZero)
      apply Nat.le_of_lt
      apply (Nat.pow_lt_pow_iff_right (by decide : 1 < 10)).mp
      exact lt_of_le_of_lt lower bound
    unfold ofScientific
    rw [dif_neg positive]
    simp only [stripZeros_mul_pow (shortest isZero) enough, moved]

/-- Different whole numbers are different decimals. -/
theorem ofScientific_injective {negative : Bool} {left right : Nat}
    (same : ofScientific negative left 0 = ofScientific negative right 0) :
    left = right := by
  have whole (number : Nat) : ∃ zeros : Nat,
      (ofScientific negative number 0).exponent = zeros ∧
      number = (ofScientific negative number 0).significand * 10 ^ zeros := by
    by_cases isZero : number = 0
    · exact ⟨0, by simp [ofScientific, isZero], by simp [ofScientific, isZero]⟩
    · obtain ⟨zeros, moved, value⟩ :=
        stripZeros_value (Nat.toDigits 10 number).length number 0
      refine ⟨zeros, ?_, ?_⟩
      · simpa [ofScientific, isZero] using moved
      · simpa [ofScientific, isZero] using value
  obtain ⟨leftZeros, leftExponent, leftValue⟩ := whole left
  obtain ⟨rightZeros, rightExponent, rightValue⟩ := whole right
  rw [same, rightExponent] at leftExponent
  have zeros : rightZeros = leftZeros := by omega
  rw [leftValue, rightValue, same, zeros]

/-- The digits of the significand. -/
def digits (decimal : Decimal) : List Char :=
  Nat.toDigits 10 decimal.significand

/-- The number of digits before the point, negative for zeros after it. -/
def pointAt (decimal : Decimal) : Int :=
  decimal.digits.length + decimal.exponent

def zeros (count : Nat) : List Char := List.replicate count '0'

def exponentText (exponent : Int) : List Char :=
  'e' :: (if exponent < 0 then '-' else '+') ::
    Nat.toDigits 10 exponent.natAbs

/-- The digits, and the exponent if there is one. -/
def unsignedText (decimal : Decimal) : List Char :=
  let digits := decimal.digits
  let point := decimal.pointAt
  if digits.length ≤ point ∧ point ≤ 21 then
    digits ++ zeros (point - digits.length).toNat
  else if 0 < point ∧ point ≤ 21 then
    digits.take point.toNat ++ '.' :: digits.drop point.toNat
  else if -6 < point ∧ point ≤ 0 then
    '0' :: '.' :: zeros (-point).toNat ++ digits
  else if digits.length = 1 then
    digits ++ exponentText (point - 1)
  else
    digits.take 1 ++ '.' :: digits.drop 1 ++ exponentText (point - 1)

/-- `Number.prototype.toString`. -/
def text (decimal : Decimal) : List Char :=
  (if decimal.negative then ['-'] else []) ++ decimal.unsignedText

end Decimal

/-- The digits at the front of the text, of which there must be one. -/
def readDigits (text : List Char) : Option (List Char × List Char) :=
  match text.span Char.isDigit with
  | ([], _) => none
  | found => some found

def readSign : List Char → Bool × List Char
  | '-' :: rest => (true, rest)
  | rest => (false, rest)

/-- The digits before the point; a zero is the only digit that starts with one. -/
def readInteger (text : List Char) : Option (List Char × List Char) :=
  match readDigits text with
  | some ('0' :: _ :: _, _) => none
  | found => found

def readFraction : List Char → Option (List Char × List Char)
  | '.' :: rest => readDigits rest
  | rest => some ([], rest)

def readExponentDigits (negative : Bool) (text : List Char) :
    Option (Int × List Char) :=
  (readDigits text).map fun (digits, rest) =>
    let exponent : Int := Nat.ofDigitChars 10 digits 0
    (if negative then -exponent else exponent, rest)

def readExponent : List Char → Option (Int × List Char)
  | mark :: rest =>
      if mark = 'e' ∨ mark = 'E' then
        match rest with
        | '-' :: rest => readExponentDigits true rest
        | '+' :: rest => readExponentDigits false rest
        | rest => readExponentDigits false rest
      else
        some (0, mark :: rest)
  | [] => some (0, [])

/-- The number at the front of the text. -/
def readNumber (text : List Char) : Option (Decimal × List Char) :=
  let (negative, unsigned) := readSign text
  match readInteger unsigned with
  | none => none
  | some (integer, rest) =>
      match readFraction rest with
      | none => none
      | some (fraction, rest) =>
          match readExponent rest with
          | none => none
          | some (exponent, rest) =>
              some (.ofScientific negative
                (Nat.ofDigitChars 10 (integer ++ fraction) 0)
                (exponent - fraction.length), rest)

/-- A number before this text ends where the text starts. -/
def endsNumber : List Char → Bool
  | [] => true
  | next :: _ => !(next.isDigit || next = '.' || next = 'e' || next = 'E')

section RoundTrip

/-- The text does not start with a digit. -/
def StopsDigits (text : List Char) : Prop :=
  ∀ next ∈ text.head?, next.isDigit = false

variable {rest : List Char}

theorem stopsDigits_of_endsNumber (ends : endsNumber rest = true) :
    StopsDigits rest := by
  intro next isNext
  cases rest with
  | nil => cases isNext
  | cons head tail =>
      cases isNext
      simp only [endsNumber, Bool.not_eq_true', Bool.or_eq_false_iff] at ends
      exact ends.1.1.1

theorem stopsDigits_cons {next : Char} (notDigit : next.isDigit = false) :
    StopsDigits (next :: rest) := by
  rintro _ ⟨⟩
  exact notDigit

/-- Digits are read up to a character that is none. -/
theorem readDigits_append {digits : List Char} (nonempty : digits ≠ [])
    (areDigits : ∀ digit ∈ digits, digit.isDigit = true)
    (stops : StopsDigits rest) :
    readDigits (digits ++ rest) = some (digits, rest) := by
  have taken : rest.takeWhile Char.isDigit = [] := by
    cases rest with
    | nil => rfl
    | cons head tail => simp [stops head rfl]
  have dropped : rest.dropWhile Char.isDigit = rest := by
    cases rest with
    | nil => rfl
    | cons head tail => simp [stops head rfl]
  have found : (digits ++ rest).span Char.isDigit = (digits, rest) := by
    rw [List.span_eq_takeWhile_dropWhile,
      List.takeWhile_append_of_pos areDigits,
      List.dropWhile_append_of_pos areDigits, taken, dropped, List.append_nil]
  unfold readDigits
  rw [found]
  cases digits with
  | nil => exact absurd rfl nonempty
  | cons head tail => rfl

/-- What the grammar allows before the point. -/
structure IsInteger (digits : List Char) : Prop where
  nonempty : digits ≠ []
  areDigits : ∀ digit ∈ digits, digit.isDigit = true
  noZero : digits.head? = some '0' → digits.length = 1

theorem isInteger_zero : IsInteger ['0'] where
  nonempty := List.cons_ne_nil _ _
  areDigits digit member := by
    cases List.mem_singleton.mp member
    rfl
  noZero _ := rfl

theorem IsInteger.readInteger_append {digits : List Char}
    (isInteger : IsInteger digits) (stops : StopsDigits rest) :
    readInteger (digits ++ rest) = some (digits, rest) := by
  unfold readInteger
  rw [readDigits_append isInteger.nonempty isInteger.areDigits stops]
  split
  case h_1 second others _ found =>
    cases found
    have single := isInteger.noZero rfl
    simp at single
  case h_2 => rfl

/-- The point and the digits after it, if there are any. -/
def fractionText : List Char → List Char
  | [] => []
  | fraction => '.' :: fraction

theorem readFraction_append {fraction : List Char}
    (areDigits : ∀ digit ∈ fraction, digit.isDigit = true)
    (stops : StopsDigits rest) (noPoint : rest.head? ≠ some '.') :
    readFraction (fractionText fraction ++ rest) = some (fraction, rest) := by
  cases fraction with
  | nil =>
      change readFraction rest = _
      unfold readFraction
      split
      case h_1 => exact absurd rfl noPoint
      case h_2 => rfl
  | cons digit others =>
      exact readDigits_append (List.cons_ne_nil _ _) areDigits stops

theorem readExponent_none (ends : endsNumber rest = true) :
    readExponent rest = some (0, rest) := by
  cases rest with
  | nil => rfl
  | cons next others =>
      have noMark : ¬ (next = 'e' ∨ next = 'E') := by
        simp only [endsNumber, Bool.not_eq_true', Bool.or_eq_false_iff,
          decide_eq_false_iff_not] at ends
        rintro (isMark | isMark)
        · exact ends.1.2 isMark
        · exact ends.2 isMark
      exact if_neg noMark

theorem readExponent_exponentText (exponent : Int)
    (ends : endsNumber rest = true) :
    readExponent (Decimal.exponentText exponent ++ rest) =
      some (exponent, rest) := by
  have found : readDigits (Nat.toDigits 10 exponent.natAbs ++ rest) =
      some (Nat.toDigits 10 exponent.natAbs, rest) :=
    readDigits_append Nat.toDigits_ne_nil (areDigits_toDigits _)
      (stopsDigits_of_endsNumber ends)
  have read (negative : Bool) :
      readExponentDigits negative (Nat.toDigits 10 exponent.natAbs ++ rest) =
        some (if negative then -(exponent.natAbs : Int) else exponent.natAbs,
          rest) := by
    simp only [readExponentDigits, found, Option.map_some,
      Nat.ofDigitChars_ten_toDigits]
  unfold Decimal.exponentText
  by_cases negative : exponent < 0
  · have value : -(exponent.natAbs : Int) = exponent := by omega
    have isRead := read true
    rw [if_pos rfl, value] at isRead
    rw [if_pos negative]
    exact isRead
  · have value : (exponent.natAbs : Int) = exponent := by omega
    have isRead := read false
    rw [if_neg nofun, value] at isRead
    rw [if_neg negative]
    exact isRead

/-- The parts of a number that the grammar accepts are read back. -/
theorem readNumber_parts (negative : Bool) {integer fraction : List Char}
    (exponent : Option Int) (isInteger : IsInteger integer)
    (areDigits : ∀ digit ∈ fraction, digit.isDigit = true)
    (ends : endsNumber rest = true) :
    readNumber ((if negative then ['-'] else []) ++
        (integer ++ (fractionText fraction ++
          (exponent.elim [] Decimal.exponentText ++ rest)))) =
      some (.ofScientific negative
        (Nat.ofDigitChars 10 (integer ++ fraction) 0)
        (exponent.getD 0 - fraction.length), rest) := by
  have exponentRead : readExponent
      (exponent.elim [] Decimal.exponentText ++ rest) =
        some (exponent.getD 0, rest) := by
    cases exponent with
    | none => exact readExponent_none ends
    | some exponent => exact readExponent_exponentText exponent ends
  have afterFraction : StopsDigits
      (exponent.elim [] Decimal.exponentText ++ rest) := by
    cases exponent with
    | none => exact stopsDigits_of_endsNumber ends
    | some exponent => exact stopsDigits_cons (by decide)
  have noPoint : (exponent.elim [] Decimal.exponentText ++ rest).head? ≠
      some '.' := by
    cases exponent with
    | none =>
        cases rest with
        | nil => exact nofun
        | cons next others =>
            rintro ⟨⟩
            cases ends
    | some exponent => exact nofun
  have afterInteger : StopsDigits (fractionText fraction ++
      (exponent.elim [] Decimal.exponentText ++ rest)) := by
    cases fraction with
    | nil => exact afterFraction
    | cons digit others => exact stopsDigits_cons (by decide)
  have signRead (unsigned : List Char)
      (noSign : unsigned.head? ≠ some '-') :
      readSign ((if negative then ['-'] else []) ++ unsigned) =
        (negative, unsigned) := by
    cases negative with
    | true => rfl
    | false =>
        change readSign unsigned = _
        unfold readSign
        split
        case h_1 => exact absurd rfl noSign
        case h_2 => rfl
  unfold readNumber
  rw [signRead]
  · simp only [isInteger.readInteger_append afterInteger,
      readFraction_append areDigits afterFraction noPoint, exponentRead]
  · cases start : integer with
    | nil => exact absurd start isInteger.nonempty
    | cons digit others =>
        rintro ⟨⟩
        have impossible := isInteger.areDigits '-' (by simp [start])
        cases impossible

/-- A text whose parts have the value of the decimal is read back as it. -/
theorem readNumber_of_parts (decimal : Decimal)
    (integer fraction : List Char) (exponent : Option Int) (zeros : Nat)
    (parts : decimal.unsignedText = integer ++ (fractionText fraction ++
      exponent.elim [] Decimal.exponentText))
    (isInteger : IsInteger integer)
    (areDigits : ∀ digit ∈ fraction, digit.isDigit = true)
    (value : Nat.ofDigitChars 10 (integer ++ fraction) 0 =
      decimal.significand * 10 ^ zeros)
    (moved : exponent.getD 0 - fraction.length + zeros = decimal.exponent)
    (noZero : decimal.significand = 0 → zeros = 0)
    (ends : endsNumber rest = true) :
    readNumber (decimal.text ++ rest) = some (decimal, rest) := by
  have read := readNumber_parts decimal.negative exponent isInteger areDigits
    ends
  rw [value, Decimal.ofScientific_mul_pow decimal moved noZero] at read
  unfold Decimal.text
  rw [parts]
  simpa only [List.append_assoc] using read

/-- Digits that start as those of a number are an integer of the grammar. -/
theorem isInteger_of_head (decimal : Decimal) {integer : List Char}
    (nonempty : integer ≠ [])
    (areDigits : ∀ digit ∈ integer, digit.isDigit = true)
    (starts : integer.head? = decimal.digits.head?)
    (noZero : decimal.significand = 0 → integer.length = 1) :
    IsInteger integer where
  nonempty := nonempty
  areDigits := areDigits
  noZero isZero := by
    by_cases none : decimal.significand = 0
    · exact noZero none
    · rw [starts] at isZero
      exact absurd isZero (head_toDigits (Nat.pos_of_ne_zero none))

theorem areDigits_zeros (count : Nat) :
    ∀ digit ∈ Decimal.zeros count, digit.isDigit = true := by
  intro digit member
  rw [List.eq_of_mem_replicate member]
  rfl

theorem fractionText_of_ne_nil {fraction : List Char}
    (nonempty : fraction ≠ []) : fractionText fraction = '.' :: fraction := by
  cases fraction with
  | nil => exact absurd rfl nonempty
  | cons digit others => rfl

namespace Decimal

variable (decimal : Decimal)

theorem length_digits_pos : 0 < decimal.digits.length :=
  Nat.length_toDigits_pos

theorem pointAt_eq :
    decimal.pointAt = decimal.digits.length + decimal.exponent := rfl

theorem areDigits_digits : ∀ digit ∈ decimal.digits, digit.isDigit = true :=
  areDigits_toDigits decimal.significand

theorem value_digits :
    Nat.ofDigitChars 10 decimal.digits 0 = decimal.significand :=
  Nat.ofDigitChars_ten_toDigits

theorem length_digits_of_zero (isZero : decimal.significand = 0) :
    decimal.digits.length = 1 := by
  simp [digits, isZero]

theorem isInteger_take {count : Nat} (isSome : 0 < count) :
    IsInteger (decimal.digits.take count) := by
  have positive := decimal.length_digits_pos
  apply isInteger_of_head decimal
  · apply List.ne_nil_of_length_pos
    rw [List.length_take]
    omega
  · intro digit member
    exact decimal.areDigits_digits digit (List.mem_of_mem_take member)
  · rw [List.head?_take, if_neg (by omega)]
  · intro isZero
    rw [List.length_take, decimal.length_digits_of_zero isZero]
    omega

theorem areDigits_drop (count : Nat) :
    ∀ digit ∈ decimal.digits.drop count, digit.isDigit = true :=
  fun digit member =>
    decimal.areDigits_digits digit (List.mem_of_mem_drop member)

theorem isInteger_digits : IsInteger decimal.digits := by
  have whole := decimal.isInteger_take decimal.length_digits_pos
  rwa [List.take_length] at whole

theorem isInteger_append_zeros {count : Nat}
    (noZero : decimal.significand = 0 → count = 0) :
    IsInteger (decimal.digits ++ zeros count) := by
  apply isInteger_of_head decimal
  · exact List.append_ne_nil_of_left_ne_nil
      (List.ne_nil_of_length_pos decimal.length_digits_pos) _
  · intro digit member
    rcases List.mem_append.mp member with isDigit | isZero
    · exact decimal.areDigits_digits digit isDigit
    · exact areDigits_zeros _ digit isZero
  · obtain ⟨digit, others, isCons⟩ :=
      List.exists_cons_of_length_pos decimal.length_digits_pos
    rw [isCons]
    rfl
  · intro isZero
    rw [List.length_append, decimal.length_digits_of_zero isZero,
      noZero isZero]
    rfl

end Decimal

/-- The text of a number is read back as the number. -/
theorem readNumber_text (decimal : Decimal) (ends : endsNumber rest = true) :
    readNumber (decimal.text ++ rest) = some (decimal, rest) := by
  have positive := decimal.length_digits_pos
  have point := decimal.pointAt_eq
  have value := decimal.value_digits
  -- the cases of the format, in its order
  by_cases plain : decimal.digits.length ≤ decimal.pointAt ∧
      decimal.pointAt ≤ 21
  · have noZero (isZero : decimal.significand = 0) :
        (decimal.pointAt - decimal.digits.length).toNat = 0 := by
      have exponent := (decimal.zero isZero).2
      omega
    apply readNumber_of_parts decimal (decimal.digits ++
      Decimal.zeros (decimal.pointAt - decimal.digits.length).toNat) [] none
      (decimal.pointAt - decimal.digits.length).toNat _
      (decimal.isInteger_append_zeros noZero) nofun _ _ noZero ends
    · simp only [Decimal.unsignedText, if_pos plain, fractionText,
        Option.elim_none, List.append_nil]
    · rw [List.append_nil, Nat.ofDigitChars_append, value, Decimal.zeros,
        Nat.ofDigitChars_replicate_zero, Nat.mul_comm]
    · simp only [Option.getD_none, List.length_nil]
      omega
  by_cases inside : 0 < decimal.pointAt ∧ decimal.pointAt ≤ 21
  · have short : decimal.pointAt.toNat < decimal.digits.length := by omega
    have nonempty : decimal.digits.drop decimal.pointAt.toNat ≠ [] := by
      apply List.ne_nil_of_length_pos
      rw [List.length_drop]
      omega
    apply readNumber_of_parts decimal
      (decimal.digits.take decimal.pointAt.toNat)
      (decimal.digits.drop decimal.pointAt.toNat) none 0 _
      (decimal.isInteger_take (by omega)) (decimal.areDigits_drop _) _ _
      (fun _ => rfl) ends
    · simp only [Decimal.unsignedText, if_neg plain, if_pos inside,
        fractionText_of_ne_nil nonempty, Option.elim_none, List.append_nil]
    · rw [List.take_append_drop, value]
      omega
    · simp only [Option.getD_none, List.length_drop]
      omega
  by_cases small : -6 < decimal.pointAt ∧ decimal.pointAt ≤ 0
  · have nonempty : Decimal.zeros (-decimal.pointAt).toNat ++ decimal.digits ≠ [] :=
      List.append_ne_nil_of_right_ne_nil _ (List.ne_nil_of_length_pos positive)
    have areDigits : ∀ digit ∈ Decimal.zeros (-decimal.pointAt).toNat ++
        decimal.digits, digit.isDigit = true := by
      intro digit member
      rcases List.mem_append.mp member with isZero | isDigit
      · exact areDigits_zeros _ digit isZero
      · exact decimal.areDigits_digits digit isDigit
    apply readNumber_of_parts decimal ['0']
      (Decimal.zeros (-decimal.pointAt).toNat ++ decimal.digits) none 0 _
      isInteger_zero areDigits _ _
      (fun _ => rfl) ends
    · simp only [Decimal.unsignedText, if_neg plain, if_neg inside,
        if_pos small, fractionText_of_ne_nil nonempty, Option.elim_none,
        List.append_nil, List.cons_append, List.nil_append]
    · rw [Nat.ofDigitChars_append, Nat.ofDigitChars_append, Decimal.zeros,
        Nat.ofDigitChars_replicate_zero]
      simpa [Nat.ofDigitChars] using value
    · simp only [Option.getD_none, List.length_append, Decimal.zeros,
        List.length_replicate]
      omega
  by_cases alone : decimal.digits.length = 1
  · apply readNumber_of_parts decimal decimal.digits []
      (some (decimal.pointAt - 1)) 0 _ decimal.isInteger_digits nofun _ _
      (fun _ => rfl) ends
    · simp only [Decimal.unsignedText, if_neg plain, if_neg inside,
        if_neg small, if_pos alone, fractionText, Option.elim_some,
        List.nil_append]
    · rw [List.append_nil, value]
      omega
    · simp only [Option.getD_some, List.length_nil]
      omega
  · have nonempty : decimal.digits.drop 1 ≠ [] := by
      apply List.ne_nil_of_length_pos
      rw [List.length_drop]
      omega
    apply readNumber_of_parts decimal (decimal.digits.take 1)
      (decimal.digits.drop 1) (some (decimal.pointAt - 1)) 0 _
      (decimal.isInteger_take (by decide)) (decimal.areDigits_drop 1) _ _
      (fun _ => rfl) ends
    · simp only [Decimal.unsignedText, if_neg plain, if_neg inside,
        if_neg small, if_neg alone, fractionText_of_ne_nil nonempty,
        Option.elim_some, List.append_assoc, List.cons_append]
    · rw [List.take_append_drop, value]
      omega
    · simp only [Option.getD_some, List.length_drop]
      omega

theorem readNumber_eq_none {first : Char} (noSign : first ≠ '-')
    (noDigit : first.isDigit = false) : readNumber (first :: rest) = none := by
  have unsigned : readSign (first :: rest) = (false, first :: rest) := by
    unfold readSign
    split
    case h_1 isSign =>
      cases isSign
      exact absurd rfl noSign
    case h_2 => rfl
  have noInteger : readInteger (first :: rest) = none := by
    simp [readInteger, readDigits, List.span_eq_takeWhile_dropWhile, noDigit]
  simp [readNumber, unsigned, noInteger]

/-- The text of a number starts with a sign or a digit. -/
theorem Decimal.text_starts (decimal : Decimal) : ∃ first others,
    decimal.text = first :: others ∧ (first = '-' ∨ first.isDigit = true) := by
  have read : readNumber (decimal.text ++ []) = some (decimal, []) :=
    readNumber_text decimal rfl
  rw [List.append_nil] at read
  cases written : decimal.text with
  | nil =>
      rw [written] at read
      cases read
  | cons first others =>
      refine ⟨first, others, rfl, ?_⟩
      by_cases isSign : first = '-'
      · exact .inl isSign
      · cases isDigit : first.isDigit with
        | true => exact .inr rfl
        | false =>
            rw [written, readNumber_eq_none isSign isDigit] at read
            cases read

end RoundTrip

end Foundation
