import Mathlib.Data.List.TakeWhile
import Paigasus.Foundation.Delimited
import Paigasus.Foundation.Double
import Paigasus.Foundation.Uuid

/-!
# Texts as numbers in Lua

`tonumber` of Lua 5.1 reads the longest number at the start of a text as the C
library does: a decimal or hexadecimal number, with a point and an exponent, an
infinity, or the number that is none.  White space may stand on either side.
The characters of a text stand for its bytes.
-/

namespace Foundation

namespace Lua

/-- White space of the C locale. -/
def isSpace (char : Char) : Bool :=
  char = ' ' || (9 ≤ char.toNat && char.toNat ≤ 13)

def sign : List Char → Bool × List Char
  | '-' :: rest => (true, rest)
  | '+' :: rest => (false, rest)
  | text => (false, text)

def digit? (base : Nat) (char : Char) : Option Nat :=
  (Uuid.hexValue? char).filter (· < base)

/-- The digits at the start of a text, and what follows. -/
def takeDigits (base : Nat) : List Char → List Nat × List Char
  | [] => ([], [])
  | char :: rest =>
      match digit? base char with
      | none => ([], char :: rest)
      | some digit =>
          let (digits, after) := takeDigits base rest
          (digit :: digits, after)

def ofDigits (base : Nat) (digits : List Nat) : Nat :=
  digits.foldl (fun value digit => value * base + digit) 0

/-- Digits with at most one point among them: the number they make without the
point, how many stand after it, and what follows. -/
structure Significand where
  digits : Nat
  fraction : Nat
  rest : List Char

def significand? (base : Nat) (text : List Char) : Option Significand :=
  let (whole, rest) := takeDigits base text
  let (fraction, rest) :=
    match rest with
    | '.' :: rest => takeDigits base rest
    | _ => ([], rest)
  if whole = [] ∧ fraction = [] then
    none
  else
    some ⟨ofDigits base (whole ++ fraction), fraction.length, rest⟩

/-- The exponent after its letter; without a digit the letter is no part of the
number. -/
def exponent (letters : List Char) (text : List Char) : Int × List Char :=
  match text with
  | [] => (0, [])
  | letter :: rest =>
      if letters.contains letter then
        let (negative, digits) := sign rest
        match takeDigits 10 digits with
        | ([], _) => (0, text)
        | (digits, rest) =>
            let value : Int := ofDigits 10 digits
            (if negative then -value else value, rest)
      else
        (0, text)

def decimal? (negative : Bool) (text : List Char) :
    Option (Double × List Char) :=
  (significand? 10 text).map fun read =>
    let (power, rest) := exponent ['e', 'E'] read.rest
    (.ofScientific negative read.digits 10 (power - read.fraction), rest)

def hexadecimal? (negative : Bool) (text : List Char) :
    Option (Double × List Char) :=
  match text with
  | '0' :: letter :: digits =>
      if letter = 'x' ∨ letter = 'X' then
        (significand? 16 digits).map fun read =>
          let (power, rest) := exponent ['p', 'P'] read.rest
          (.ofScientific negative read.digits 2 (power - 4 * read.fraction),
            rest)
      else
        none
  | _ => none

/-- What follows a word, in capital or small letters. -/
def afterWord (word text : List Char) : Option (List Char) :=
  if (text.take word.length).map Char.toLower = word then
    some (text.drop word.length)
  else
    none

/-- What follows the letters and digits in parentheses that may stand after the
word for no number. -/
def afterPayload (text : List Char) : List Char :=
  match text with
  | '(' :: payload =>
      match payload.dropWhile fun char => char.isAlphanum || char = '_' with
      | ')' :: rest => rest
      | _ => text
  | _ => text

/-- The longest number at the start of a text. -/
def strtod (text : List Char) : Option (Double × List Char) :=
  let (negative, text) := sign (text.dropWhile isSpace)
  match afterWord "infinity".toList text <|> afterWord "inf".toList text with
  | some rest => some (.infinite negative, rest)
  | none =>
      match afterWord "nan".toList text with
      | some rest => some (.nan, afterPayload rest)
      | none => hexadecimal? negative text <|> decimal? negative text

/-- The text ends at its first NUL.  Where the number stops at an `x`, Lua reads
once more, a hexadecimal integer; that one stops at the same letter. -/
def tonumber (text : String) : Option Double :=
  match strtod (text.toList.takeWhile fun char => char.toNat ≠ 0) with
  | some (value, rest) => if rest.all isSpace then some value else none
  | none => none

/-! ## Decimal texts of whole numbers -/

theorem digit?_of_isDigit {char : Char} (isDigit : char.isDigit = true) :
    digit? 10 char = some (char.toNat - 48) := by
  have range := Char.isDigit_iff_toNat.mp isDigit
  have zero : '0'.toNat = 48 := rfl
  have nine : '9'.toNat = 57 := rfl
  rw [zero, nine] at range
  unfold digit? Uuid.hexValue?
  rw [if_pos range]
  have below : char.toNat - 48 < 10 := by omega
  simp [below]

theorem takeDigits_of_isDigit {text : List Char}
    (digits : ∀ char ∈ text, char.isDigit = true) :
    takeDigits 10 text = (text.map fun char => char.toNat - 48, []) := by
  induction text with
  | nil => rfl
  | cons char rest ih =>
      have first := digit?_of_isDigit (digits char List.mem_cons_self)
      have others := ih fun other member =>
        digits other (List.mem_cons_of_mem _ member)
      simp only [takeDigits, first, others, List.map_cons]

theorem ofDigits_map (text : List Char) :
    ofDigits 10 (text.map fun char => char.toNat - 48) =
      Nat.ofDigitChars 10 text 0 := by
  have zero : '0'.toNat = 48 := rfl
  unfold ofDigits
  rw [Nat.ofDigitChars_eq_foldl, List.foldl_map]
  simp only [Nat.mul_comm 10, zero]

theorem decimal?_of_isDigit {text : List Char} (nonempty : text ≠ [])
    (digits : ∀ char ∈ text, char.isDigit = true) :
    decimal? false text =
      some (.ofInt (Nat.ofDigitChars 10 text 0 : Nat), []) := by
  have read : significand? 10 text =
      some ⟨Nat.ofDigitChars 10 text 0, 0, []⟩ := by
    unfold significand?
    rw [takeDigits_of_isDigit digits]
    simp only [List.map_eq_nil_iff, nonempty, false_and, if_false,
      List.append_nil, ofDigits_map, List.length_nil]
  have noExponent : (0 : Int) - ((0 : Nat) : Int) = 0 := rfl
  unfold decimal?
  rw [read, Option.map_some]
  dsimp only [exponent]
  rw [noExponent, Double.ofScientific, if_neg Bool.false_ne_true, Int.neg_zero,
    Int.toNat_zero, pow_zero, mul_one]
  rfl

theorem toLower_of_isDigit {char : Char} (isDigit : char.isDigit = true) :
    char.toLower = char := by
  unfold Char.toLower
  split
  case isTrue isUpper =>
    have range := Char.isDigit_iff_toNat.mp isDigit
    have nine : '9'.toNat = 57 := rfl
    have above : 65 ≤ char.toNat := UInt32.le_iff_toNat_le.mp isUpper.1
    omega
  case isFalse => rfl

/-- Digits do not start as a word does. -/
theorem afterWord_of_isDigit {char letter : Char} {word rest : List Char}
    (isDigit : char.isDigit = true) (notDigit : letter.isDigit = false) :
    afterWord (letter :: word) (char :: rest) = none := by
  apply if_neg
  intro same
  rw [List.length_cons, List.take_succ_cons, List.map_cons,
    toLower_of_isDigit isDigit] at same
  rw [(List.cons.inj same).1, notDigit] at isDigit
  cases isDigit

theorem hexadecimal?_of_isDigit {text : List Char}
    (digits : ∀ char ∈ text, char.isDigit = true) :
    hexadecimal? false text = none := by
  unfold hexadecimal?
  split
  case h_1 letter rest =>
    have isDigit := digits letter (List.mem_cons_of_mem _ List.mem_cons_self)
    apply if_neg
    rintro (rfl | rfl) <;> cases isDigit
  case h_2 => rfl

/-- The longest number at the start of some digits is all of them. -/
theorem strtod_of_isDigit {text : List Char} (nonempty : text ≠ [])
    (digits : ∀ char ∈ text, char.isDigit = true) :
    strtod text =
      some (.ofInt (Nat.ofDigitChars 10 text 0 : Nat), []) := by
  have read := decimal?_of_isDigit nonempty digits
  have noHexadecimal := hexadecimal?_of_isDigit digits
  obtain ⟨first, rest, rfl⟩ := List.exists_cons_of_ne_nil nonempty
  have isDigit := digits first List.mem_cons_self
  have other (char : Char) (notDigit : char.isDigit = false) :
      first ≠ char := by
    rintro rfl
    rw [isDigit] at notDigit
    cases notDigit
  have noSpace : isSpace first = false := by
    have range := Char.isDigit_iff_toNat.mp isDigit
    have zero : '0'.toNat = 48 := rfl
    simp only [isSpace, other ' ' rfl, decide_false, Bool.false_or,
      Bool.and_eq_false_iff, decide_eq_false_iff_not]
    omega
  have unsigned : sign (first :: rest) = (false, first :: rest) := by
    unfold sign
    split
    case h_1 same => exact absurd (List.cons.inj same).1 (other '-' rfl)
    case h_2 same => exact absurd (List.cons.inj same).1 (other '+' rfl)
    case h_3 => rfl
  have noInfinity : afterWord "infinity".toList (first :: rest) = none :=
    afterWord_of_isDigit isDigit rfl
  have noInf : afterWord "inf".toList (first :: rest) = none :=
    afterWord_of_isDigit isDigit rfl
  have noNan : afterWord "nan".toList (first :: rest) = none :=
    afterWord_of_isDigit isDigit rfl
  unfold strtod
  rw [List.dropWhile_cons_of_neg (by rw [noSpace]; exact Bool.false_ne_true),
    unsigned]
  dsimp only
  rw [noInfinity, noInf, noNan, noHexadecimal, read]
  rfl

/-- The decimal text of a whole number is read as the number. -/
theorem tonumber_toString (value : Nat) :
    tonumber (toString value) = some (.ofInt value) := by
  have digits := areDigits_toDigits value
  have noNul : (Nat.toDigits 10 value).takeWhile
      (fun char => char.toNat ≠ 0) = Nat.toDigits 10 value := by
    rw [List.takeWhile_eq_self_iff]
    intro char member
    have range := Char.isDigit_iff_toNat.mp (digits char member)
    have zero : '0'.toNat = 48 := rfl
    simp only [ne_eq, decide_not, Bool.not_eq_true', decide_eq_false_iff_not]
    omega
  unfold tonumber
  rw [toString_toList, noNul, strtod_of_isDigit Nat.toDigits_ne_nil digits]
  simp only [Nat.ofDigitChars_ten_toDigits, List.all_nil, if_true]

end Lua

end Foundation
