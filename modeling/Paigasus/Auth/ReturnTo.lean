import Paigasus.Foundation.JsString
import Paigasus.Foundation.Utf8
import Paigasus.Foundation.WebUrl

/-!
# Return targets

The path a browser is sent to after a login.  Accepted as it is, a target keeps
the origin it is resolved against.  After one percent-decoding it may start with
two slashes all the same: where an escaped tab or line end after its first slash
hides the second.
-/

namespace Paigasus.Auth

open Foundation WebUrl

/-- A string of the runtime, by code units. -/
abbrev JsText : Type := List UInt16

namespace JsText

def trim (text : JsText) : JsText := JsString.trimBy UInt16.toNat text

def startsWith (text : JsText) (start : String) : Bool :=
  (start.toList.map fun char => UInt16.ofNat char.toNat).isPrefixOf text

/-- Somewhere in the text stands a percent sign, the digit, and the letter in
either case. -/
def hasEscape (digit small large : Char) (text : JsText) : Bool :=
  text.tails.any fun tail =>
    startsWith tail (String.ofList ['%', digit, small]) ||
      startsWith tail (String.ofList ['%', digit, large])

def isHigh (unit : UInt16) : Bool :=
  0xd800 ≤ unit.toNat && unit.toNat ≤ 0xdbff

def isLow (unit : UInt16) : Bool :=
  0xdc00 ≤ unit.toNat && unit.toNat ≤ 0xdfff

/-- A code unit that is no half of a pair. -/
def single (unit : UInt16) : Char :=
  if isHigh unit || isLow unit then Utf8.replacement
  else Utf8.scalar unit.toNat

/-- The characters of a string; half a pair is replaced. -/
def chars : JsText → List Char
  | [] => []
  | [unit] => [single unit]
  | high :: low :: rest =>
      if isHigh high && isLow low then
        Utf8.scalar (0x10000 + (high.toNat - 0xd800) * 0x400 +
          (low.toNat - 0xdc00)) :: chars rest
      else
        single high :: chars (low :: rest)

end JsText

open JsText in
def validateReturnTo (raw : Option JsText) (fallback : JsText) : JsText :=
  match raw with
  | none => fallback
  | some raw =>
      if raw ≠ raw.trim ∨ raw.length = 0 then fallback
      else if raw.any fun unit => unit = 9 || unit = 10 || unit = 13 then
        fallback
      else if startsWith raw "/" = false then fallback
      else if startsWith raw "//" then fallback
      else if raw.contains 0x5c then fallback
      else if hasEscape '2' 'f' 'F' ((raw.drop 1).take 3) ∨
          hasEscape '5' 'c' 'C' raw then
        fallback
      else raw

/-- One percent-decoding of a text. -/
def decodeOnce (text : List Char) : List Char :=
  Utf8.decode (percentDecode text)

/-- A text without the escaped tabs and line ends at its start. -/
def skipEscapes : List Char → List Char
  | '%' :: '0' :: char :: rest =>
      if char ∈ ['9', 'a', 'A', 'd', 'D'] then skipEscapes rest
      else '%' :: '0' :: char :: rest
  | text => text

/-- Behind escaped tabs and line ends stands a slash, escaped or not. -/
def hidesSlash (text : List Char) : Bool :=
  match skipEscapes text with
  | '/' :: _ => true
  | '%' :: '2' :: 'f' :: _ => true
  | '%' :: '2' :: 'F' :: _ => true
  | _ => false

section Decoded

theorem percentDecode_plain {char : Char} (plain : char ≠ '%')
    (rest : List Char) :
    percentDecode (char :: rest) =
      String.utf8EncodeChar char ++ percentDecode rest := by
  rw [percentDecode]
  rintro high low more rfl
  exact absurd rfl plain

theorem percentDecode_percent {rest : List Char}
    (open_ : ∀ high low more, rest = high :: low :: more →
      hexValue high = none ∨ hexValue low = none) :
    percentDecode ('%' :: rest) = 37 :: percentDecode rest := by
  match rest with
  | [] => rfl
  | [char] => rfl
  | high :: low :: more =>
      rw [percentDecode]
      rcases open_ high low more rfl with none | none
      · rw [none]
      · rw [none]
        cases hexValue high <;> rfl

theorem percentDecode_escape {high low : Char} {first second : Nat}
    (isFirst : hexValue high = some first)
    (isSecond : hexValue low = some second) (rest : List Char) :
    percentDecode ('%' :: high :: low :: rest) =
      UInt8.ofNat (16 * first + second) :: percentDecode rest := by
  rw [percentDecode, isFirst, isSecond]

theorem hexValue_spec {char : Char} {value : Nat}
    (isHex : hexValue char = some value) :
    (value < 10 ∧ char.toNat = 48 + value) ∨
      (10 ≤ value ∧ value < 16 ∧
        (char.toNat = 87 + value ∨ char.toNat = 55 + value)) := by
  have le (low high : Char) : low ≤ high ↔ low.toNat ≤ high.toNat := Iff.rfl
  unfold hexValue at isHex
  simp only [le] at isHex
  split at isHex
  case isTrue digit =>
    cases isHex
    have low : 48 ≤ char.toNat := digit.1
    have high : char.toNat ≤ 57 := digit.2
    omega
  case isFalse =>
    split at isHex
    case isTrue small =>
      cases isHex
      have low : 97 ≤ char.toNat := small.1
      have high : char.toNat ≤ 102 := small.2
      omega
    case isFalse =>
      split at isHex
      case isTrue large =>
        cases isHex
        have low : 65 ≤ char.toNat := large.1
        have high : char.toNat ≤ 70 := large.2
        omega
      case isFalse => cases isHex

theorem char_eq {char other : Char} (same : char.toNat = other.toNat) :
    char = other := by
  rw [← Char.ofNat_toNat char, same, Char.ofNat_toNat]

/-- A text whose decoding starts with a character that is no tab or line end. -/
theorem startsSlash_of_cons {text rest : List Char} {first : Char}
    (whole : text = first :: rest) (kept : isTabOrNewline first = false) :
    startsSlash (text.dropWhile isTabOrNewline) = isSlash first := by
  rw [whole, List.dropWhile_cons_of_neg (by simp [kept])]
  simp [startsSlash]

theorem plain_of_wide {char : Char} (wide : 0x80 ≤ char.toNat) :
    isTabOrNewline char = false ∧ isSlash char = false := by
  have differs (other : Char) (isAscii : other.toNat < 0x80) :
      char ≠ other := by
    rintro rfl
    omega
  simp [isTabOrNewline, isSlash, differs '\t' (by decide),
    differs '\n' (by decide), differs '\r' (by decide),
    differs '/' (by decide), differs '\\' (by decide)]

theorem startsSlash_wide {bytes rest : List UInt8} {byte : UInt8}
    (whole : bytes = byte :: rest) (wide : 0x80 ≤ byte.toNat) :
    startsSlash ((Utf8.decode bytes).dropWhile isTabOrNewline) = false := by
  obtain ⟨first, more, decoded, isWide⟩ := Utf8.decode_wide wide rest
  obtain ⟨kept, notSlash⟩ := plain_of_wide isWide
  rw [whole, startsSlash_of_cons decoded kept, notSlash]

/-- A character that stands for itself. -/
theorem startsSlash_char {char : Char} (plain : char ≠ '%')
    (kept : isTabOrNewline char = false) (rest : List Char) :
    startsSlash ((decodeOnce (char :: rest)).dropWhile isTabOrNewline) =
      isSlash char := by
  unfold decodeOnce
  rw [percentDecode_plain plain]
  by_cases isAscii : char.toNat < 0x80
  · exact startsSlash_of_cons (Utf8.decode_encode_ascii isAscii _) kept
  · have wide := Nat.not_lt.mp isAscii
    obtain ⟨byte, more, encoded, byteWide⟩ := Utf8.encode_wide wide
    rw [encoded, (plain_of_wide wide).2]
    exact startsSlash_wide rfl byteWide

theorem startsSlash_percent {rest : List Char}
    (open_ : ∀ high low more, rest = high :: low :: more →
      hexValue high = none ∨ hexValue low = none) :
    startsSlash ((decodeOnce ('%' :: rest)).dropWhile isTabOrNewline) =
      false := by
  unfold decodeOnce
  rw [percentDecode_percent open_]
  exact startsSlash_of_cons (Utf8.decode_cons_ascii (by decide) _) (by decide)

/-- An escape stands for the character of its value. -/
theorem startsSlash_escape {high low : Char} {first second : Nat}
    (isFirst : hexValue high = some first)
    (isSecond : hexValue low = some second) (rest : List Char) :
    startsSlash ((decodeOnce ('%' :: high :: low :: rest)).dropWhile
        isTabOrNewline) =
      if 16 * first + second = 9 ∨ 16 * first + second = 10 ∨
          16 * first + second = 13 then
        startsSlash ((decodeOnce rest).dropWhile isTabOrNewline)
      else
        decide (16 * first + second = 0x2f ∨ 16 * first + second = 0x5c) := by
  have small : 16 * first + second < 256 := by
    have firstSmall := hexValue_spec isFirst
    have secondSmall := hexValue_spec isSecond
    omega
  unfold decodeOnce
  rw [percentDecode_escape isFirst isSecond]
  generalize 16 * first + second = value at small
  have same : (UInt8.ofNat value).toNat = value := by
    rw [UInt8.toNat_ofNat']
    omega
  by_cases isAscii : value < 0x80
  · have code : (Char.ofNat value).toNat = value :=
      Utf8.toNat_ofNat (.inl (by omega))
    have isChar (other : Char) :
        Char.ofNat value = other ↔ value = other.toNat := by
      constructor
      · rintro rfl
        exact code.symm
      · intro isOther
        exact char_eq (code.trans isOther)
    have kept : isTabOrNewline (Char.ofNat value) =
        decide (value = 9 ∨ value = 10 ∨ value = 13) := by
      simp [isTabOrNewline, isChar, Bool.or_assoc]
    have slash : isSlash (Char.ofNat value) =
        decide (value = 0x2f ∨ value = 0x5c) := by
      simp [isSlash, isChar]
    have decoded := Utf8.decode_cons_ascii (by rw [same]; exact isAscii)
      (percentDecode rest)
    rw [same] at decoded
    by_cases skipped : value = 9 ∨ value = 10 ∨ value = 13
    · rw [if_pos skipped, decoded, List.dropWhile_cons_of_pos]
      rw [kept]
      exact decide_eq_true skipped
    · rw [if_neg skipped, startsSlash_of_cons decoded, slash]
      rw [kept]
      exact decide_eq_false skipped
  · rw [if_neg (by omega), startsSlash_wide rfl (by rw [same]; omega)]
    exact (decide_eq_false (by omega)).symm

/-- A text in which neither a backslash nor a tab or line end stands, and no
escape of a backslash. -/
structure Tame (text : List Char) : Prop where
  noBackslash : '\\' ∉ text
  noTab : ∀ char ∈ text, isTabOrNewline char = false
  noEscape : ∀ letter rest, '%' :: '5' :: letter :: rest <:+ text →
    letter ≠ 'c' ∧ letter ≠ 'C'

theorem Tame.suffix {text rest : List Char} (tame : Tame text)
    (suffix : rest <:+ text) : Tame rest where
  noBackslash member := tame.noBackslash (suffix.subset member)
  noTab char member := tame.noTab char (suffix.subset member)
  noEscape letter more isSuffix :=
    tame.noEscape letter more (isSuffix.trans suffix)

theorem hexValue_digit {char : Char} {value : Nat} (small : value < 10)
    (isHex : hexValue char = some value) : char.toNat = 48 + value := by
  have spec := hexValue_spec isHex
  omega

theorem hexValue_letter {char : Char} {value : Nat} (large : 10 ≤ value)
    (isHex : hexValue char = some value) :
    char.toNat = 87 + value ∨ char.toNat = 55 + value := by
  have spec := hexValue_spec isHex
  omega

/-- A first escape that is no tab or line end. -/
theorem startsSlash_escaped {text rest : List Char} {high low : Char}
    (whole : text = '%' :: high :: low :: rest) (tame : Tame text)
    (kept : high = '0' → low ∉ ['9', 'a', 'A', 'd', 'D']) :
    startsSlash ((decodeOnce text).dropWhile isTabOrNewline) =
      decide (high = '2' ∧ (low = 'f' ∨ low = 'F')) := by
  subst whole
  have isLetter (small large : Char) {value : Nat} (letter : 10 ≤ value)
      (isLow : hexValue low = some value) (isSmall : small.toNat = 87 + value)
      (isLarge : large.toNat = 55 + value) : low = small ∨ low = large := by
    rcases hexValue_letter letter isLow with code | code
    · exact .inl (char_eq (code.trans isSmall.symm))
    · exact .inr (char_eq (code.trans isLarge.symm))
  cases isFirst : hexValue high with
  | none =>
      rw [startsSlash_percent (by
        rintro _ _ _ ⟨⟩
        exact .inl isFirst)]
      refine (decide_eq_false ?_).symm
      rintro ⟨rfl, _⟩
      cases isFirst
  | some first =>
      cases isSecond : hexValue low with
      | none =>
          rw [startsSlash_percent (by
            rintro _ _ _ ⟨⟩
            exact .inr isSecond)]
          refine (decide_eq_false ?_).symm
          rintro ⟨_, rfl | rfl⟩
          · cases isSecond
          · cases isSecond
      | some second =>
          have firstSmall := hexValue_spec isFirst
          have secondSmall := hexValue_spec isSecond
          rw [startsSlash_escape isFirst isSecond, if_neg ?_]
          · rw [decide_eq_decide]
            constructor
            · rintro (isSlash | isBackslash)
              · have two : first = 2 := by omega
                have fifteen : second = 15 := by omega
                subst two fifteen
                exact ⟨char_eq (hexValue_digit (by decide) isFirst),
                  isLetter 'f' 'F' (by decide) isSecond rfl rfl⟩
              · have five : first = 5 := by omega
                have twelve : second = 12 := by omega
                subst five twelve
                have isFive : high = '5' :=
                  char_eq (hexValue_digit (by decide) isFirst)
                subst isFive
                obtain ⟨notSmall, notLarge⟩ :=
                  tame.noEscape low rest (List.suffix_refl _)
                rcases isLetter 'c' 'C' (by decide) isSecond rfl rfl with
                  is | is
                · exact absurd is notSmall
                · exact absurd is notLarge
            · rintro ⟨rfl, rfl | rfl⟩
              · cases isFirst
                cases isSecond
                exact .inl rfl
              · cases isFirst
                cases isSecond
                exact .inl rfl
          · intro isControl
            have zero : first = 0 := by omega
            subst zero
            have isZero : high = '0' :=
              char_eq (hexValue_digit (by decide) isFirst)
            apply kept isZero
            simp only [List.mem_cons, List.not_mem_nil, or_false]
            rcases isControl with nine | ten | thirteen
            · have is : second = 9 := by omega
              subst is
              exact .inl (char_eq (hexValue_digit (by decide) isSecond))
            · have is : second = 10 := by omega
              subst is
              rcases isLetter 'a' 'A' (by decide) isSecond rfl rfl with
                small | large
              · exact .inr (.inl small)
              · exact .inr (.inr (.inl large))
            · have is : second = 13 := by omega
              subst is
              rcases isLetter 'd' 'D' (by decide) isSecond rfl rfl with
                small | large
              · exact .inr (.inr (.inr (.inl small)))
              · exact .inr (.inr (.inr (.inr large)))

theorem hidesSlash_char {char : Char} (plain : char ≠ '%')
    (rest : List Char) : hidesSlash (char :: rest) = decide (char = '/') := by
  have same : skipEscapes (char :: rest) = char :: rest := by
    rw [skipEscapes]
    intro letter more same
    exact plain (List.cons.inj same).1
  unfold hidesSlash
  rw [same]
  by_cases isSlash : char = '/'
  · simp [isSlash]
  · rw [decide_eq_false isSlash]
    split
    all_goals simp_all

/-- One decoding shows a second slash exactly where the text hides one. -/
theorem startsSlash_decodeOnce {text : List Char} (tame : Tame text) :
    startsSlash ((decodeOnce text).dropWhile isTabOrNewline) =
      hidesSlash text := by
  induction text using skipEscapes.induct with
  | case1 char rest skipped ih =>
      have later := ih (tame.suffix
        ⟨['%', '0', char], by simp⟩)
      have hides : hidesSlash ('%' :: '0' :: char :: rest) =
          hidesSlash rest := by
        unfold hidesSlash
        rw [skipEscapes, if_pos skipped]
      rw [hides, ← later]
      have step (second : Nat) (isSecond : hexValue char = some second)
          (isControl : second = 9 ∨ second = 10 ∨ second = 13) :
          startsSlash ((decodeOnce ('%' :: '0' :: char :: rest)).dropWhile
              isTabOrNewline) =
            startsSlash ((decodeOnce rest).dropWhile isTabOrNewline) := by
        have zero : hexValue '0' = some 0 := rfl
        have escaped := startsSlash_escape zero isSecond rest
        rw [Nat.mul_zero, Nat.zero_add] at escaped
        rwa [if_pos isControl] at escaped
      simp only [List.mem_cons, List.not_mem_nil, or_false] at skipped
      rcases skipped with rfl | rfl | rfl | rfl | rfl
      · exact step 9 rfl (by decide)
      · exact step 10 rfl (by decide)
      · exact step 10 rfl (by decide)
      · exact step 13 rfl (by decide)
      · exact step 13 rfl (by decide)
  | case2 char rest kept =>
      rw [startsSlash_escaped rfl tame (fun _ => kept)]
      unfold hidesSlash
      rw [skipEscapes, if_neg kept]
      rfl
  | case3 text other =>
      match text with
      | [] => rfl
      | char :: rest =>
          by_cases isPercent : char = '%'
          · subst isPercent
            have same : skipEscapes ('%' :: rest) = '%' :: rest := by
              rw [skipEscapes]
              exact other
            have short (open_ : ∀ high low more, rest ≠ high :: low :: more) :
                startsSlash ((decodeOnce ('%' :: rest)).dropWhile
                  isTabOrNewline) = false :=
              startsSlash_percent fun high low more isRest =>
                absurd isRest (open_ high low more)
            match rest with
            | [] => exact short (by simp)
            | [char] =>
                rw [short (by simp), hidesSlash, same]
                split <;> simp_all
            | high :: low :: more =>
                have notZero : high ≠ '0' := by
                  rintro rfl
                  exact other low more rfl
                rw [startsSlash_escaped rfl tame
                  (fun isZero => absurd isZero notZero), hidesSlash, same]
                split
                case h_1 => simp_all
                case h_2 => simp_all
                case h_3 => simp_all
                case h_4 _ notSlash notSmall notLarge =>
                  apply decide_eq_false
                  rintro ⟨rfl, rfl | rfl⟩
                  · exact notSmall more rfl
                  · exact notLarge more rfl
          · have notBackslash : char ≠ '\\' := by
              rintro rfl
              exact tame.noBackslash List.mem_cons_self
            rw [startsSlash_char isPercent (tame.noTab char List.mem_cons_self),
              hidesSlash_char isPercent]
            simp [isSlash, notBackslash]

end Decoded

namespace JsText

theorem single_ascii {unit : UInt16} {char : Char} (same : single unit = char)
    (isAscii : char.toNat < 0x80) : unit.toNat = char.toNat := by
  subst same
  unfold single at isAscii ⊢
  split at isAscii
  case isTrue => exact absurd isAscii (by decide)
  case isFalse notHalf =>
    rw [if_neg notHalf]
    have below : unit.toNat < 0x10000 := unit.toNat_lt
    have valid : unit.toNat.isValidChar := by
      unfold isHigh isLow at notHalf
      simp only [Bool.or_eq_true, Bool.and_eq_true, decide_eq_true_eq] at notHalf
      unfold Nat.isValidChar
      omega
    unfold Utf8.scalar
    rw [if_pos valid, Utf8.toNat_ofNat valid]

/-- An ASCII character of a string is a code unit of it. -/
theorem chars_split {text : JsText} {before after : List Char} {char : Char}
    (same : text.chars = before ++ char :: after)
    (isAscii : char.toNat < 0x80) :
    ∃ front unit back, text = front ++ unit :: back ∧
      unit.toNat = char.toNat ∧ chars back = after := by
  induction text using chars.induct generalizing before with
  | case1 => cases before <;> cases same
  | case2 unit =>
      cases before with
      | nil =>
          obtain ⟨isChar, noRest⟩ := List.cons.inj same
          exact ⟨[], unit, [], rfl, single_ascii isChar isAscii, noRest⟩
      | cons first before => simp [chars] at same
  | case3 high low rest isPair ih =>
      rw [chars, if_pos isPair] at same
      cases before with
      | nil =>
          obtain ⟨isChar, _⟩ := List.cons.inj same
          have wide : 0x80 ≤ char.toNat := by
            rw [← isChar]
            exact Utf8.le_scalar (by omega)
          omega
      | cons first before =>
          obtain ⟨front, unit, back, isRest, code, isAfter⟩ :=
            ih (List.cons.inj same).2
          exact ⟨high :: low :: front, unit, back, by rw [isRest]; rfl, code,
            isAfter⟩
  | case4 high low rest noPair ih =>
      rw [chars, if_neg noPair] at same
      cases before with
      | nil =>
          obtain ⟨isChar, isRest⟩ := List.cons.inj same
          exact ⟨[], high, low :: rest, rfl, single_ascii isChar isAscii,
            isRest⟩
      | cons first before =>
          obtain ⟨front, unit, back, isRest, code, isAfter⟩ :=
            ih (List.cons.inj same).2
          exact ⟨high :: front, unit, back, by rw [isRest]; rfl, code, isAfter⟩

theorem chars_cons {text : JsText} {char : Char} {after : List Char}
    (same : text.chars = char :: after) (isAscii : char.toNat < 0x80) :
    ∃ unit back, text = unit :: back ∧ unit.toNat = char.toNat ∧
      chars back = after := by
  cases text with
  | nil => cases same
  | cons unit back =>
      cases back with
      | nil =>
          obtain ⟨isChar, noRest⟩ := List.cons.inj same
          exact ⟨unit, [], rfl, single_ascii isChar isAscii, noRest⟩
      | cons low rest =>
          rw [chars] at same
          split at same
          case isTrue =>
            obtain ⟨isChar, _⟩ := List.cons.inj same
            have wide : 0x80 ≤ char.toNat := by
              rw [← isChar]
              exact Utf8.le_scalar (by omega)
            omega
          case isFalse =>
            obtain ⟨isChar, isRest⟩ := List.cons.inj same
            exact ⟨unit, low :: rest, rfl, single_ascii isChar isAscii, isRest⟩

theorem chars_ascii_cons {unit : UInt16} (isAscii : unit.toNat < 0x80)
    (rest : JsText) :
    chars (unit :: rest) = Char.ofNat unit.toNat :: chars rest := by
  have notHigh : isHigh unit = false := by
    unfold isHigh
    simp only [Bool.and_eq_false_iff, decide_eq_false_iff_not]
    omega
  have notLow : isLow unit = false := by
    unfold isLow
    simp only [Bool.and_eq_false_iff, decide_eq_false_iff_not]
    omega
  have isSingle : single unit = Char.ofNat unit.toNat := by
    unfold single
    have valid : unit.toNat.isValidChar := Or.inl (by omega)
    rw [notHigh, notLow]
    exact if_pos valid
  cases rest with
  | nil => exact congrArg (· :: []) isSingle
  | cons low rest =>
      rw [chars, if_neg (by simp [notHigh]), isSingle]

end JsText

section Accepted

open JsText

/-- What the tests of an accepted target say about its characters. -/
structure Accepted (raw : JsText) : Prop where
  slash : ∃ rest, raw = 0x2f :: rest
  single : startsWith raw "//" = false
  noTab : ∀ unit ∈ raw, unit ≠ 9 ∧ unit ≠ 10 ∧ unit ≠ 13
  noBackslash : (0x5c : UInt16) ∉ raw
  noEscape : hasEscape '5' 'c' 'C' raw = false

/-- Returned whatever the fallback is. -/
theorem accepted_of_returned {raw : JsText}
    (returned : ∀ fallback, validateReturnTo (some raw) fallback = raw) :
    Accepted raw := by
  have differs : raw ++ [0] ≠ raw := by
    intro same
    have lengths := congrArg List.length same
    simp at lengths
  have passes := returned (raw ++ [0])
  unfold validateReturnTo at passes
  dsimp only at passes
  split at passes
  case isTrue => exact absurd passes differs
  case isFalse =>
    split at passes
    case isTrue => exact absurd passes differs
    case isFalse noTabs =>
      split at passes
      case isTrue => exact absurd passes differs
      case isFalse starts =>
        split at passes
        case isTrue => exact absurd passes differs
        case isFalse single =>
          split at passes
          case isTrue => exact absurd passes differs
          case isFalse noBackslash =>
            split at passes
            case isTrue => exact absurd passes differs
            case isFalse noEscapes =>
              refine ⟨?_, by simpa using single, ?_, by simpa using noBackslash,
                ?_⟩
              · cases raw with
                | nil => exact absurd rfl starts
                | cons unit rest =>
                    have isSlash : startsWith (unit :: rest) "/" = true := by
                      simpa using starts
                    have unitIs : (0x2f : UInt16) = unit := by
                      simpa [startsWith] using isSlash
                    exact ⟨rest, by rw [unitIs]⟩
              · intro unit member
                simp only [List.any_eq_true, not_exists, not_and] at noTabs
                simpa [or_assoc] using noTabs unit member
              · exact Bool.eq_false_iff.mpr fun found => noEscapes (.inr found)

theorem hasEscape_of_suffix {raw rest : JsText} {letter : UInt16}
    (suffix : 37 :: 53 :: letter :: rest <:+ raw)
    (isLetter : letter = 99 ∨ letter = 67) :
    hasEscape '5' 'c' 'C' raw = true := by
  unfold hasEscape
  rw [List.any_eq_true]
  refine ⟨_, (List.mem_tails _ _).mpr suffix, ?_⟩
  rcases isLetter with rfl | rfl
  · rfl
  · rfl

variable {raw rest : JsText}

theorem unit_of_char (suffix : rest <:+ raw) {char : Char}
    (isAscii : char.toNat < 0x80) (member : char ∈ rest.chars) :
    ∃ unit ∈ raw, unit.toNat = char.toNat := by
  obtain ⟨before, after, same⟩ := List.append_of_mem member
  obtain ⟨front, unit, back, isRest, code, _⟩ := chars_split same isAscii
  refine ⟨unit, suffix.subset ?_, code⟩
  rw [isRest]
  simp

/-- What follows the first slash of an accepted target. -/
theorem Accepted.tame (accepted : Accepted raw) (suffix : rest <:+ raw) :
    Tame rest.chars where
  noBackslash member := by
    obtain ⟨unit, isUnit, code⟩ :=
      unit_of_char suffix (by decide) member
    have same : unit = 0x5c := UInt16.toNat_inj.mp code
    exact accepted.noBackslash (same ▸ isUnit)
  noTab char member := by
    rw [Bool.eq_false_iff]
    intro isTab
    simp only [isTabOrNewline, Bool.or_eq_true, decide_eq_true_eq] at isTab
    have isAscii : char.toNat < 0x80 := by
      rcases isTab with (rfl | rfl) | rfl <;> decide
    obtain ⟨unit, isUnit, code⟩ := unit_of_char suffix isAscii member
    obtain ⟨notTab, notLf, notCr⟩ := accepted.noTab unit isUnit
    rcases isTab with (rfl | rfl) | rfl
    · exact notTab (UInt16.toNat_inj.mp code)
    · exact notLf (UInt16.toNat_inj.mp code)
    · exact notCr (UInt16.toNat_inj.mp code)
  noEscape letter more isSuffix := by
    obtain ⟨before, same⟩ := isSuffix
    obtain ⟨front, percent, back, isRest, isPercent, afterPercent⟩ :=
      chars_split same.symm (by decide)
    obtain ⟨five, behind, isBack, isFive, afterFive⟩ :=
      chars_cons afterPercent (by decide)
    have noLetter (isLetter : letter = 'c' ∨ letter = 'C') : False := by
      have isAscii : letter.toNat < 0x80 := by
        rcases isLetter with rfl | rfl <;> decide
      obtain ⟨unit, last, isBehind, code, _⟩ := chars_cons afterFive isAscii
      have found : hasEscape '5' 'c' 'C' raw = true := by
        refine @hasEscape_of_suffix raw last unit ?_ ?_
        · have isThirtySeven : percent = 37 := UInt16.toNat_inj.mp isPercent
          have isFiftyThree : five = 53 := UInt16.toNat_inj.mp isFive
          rw [← isThirtySeven, ← isFiftyThree]
          refine List.IsSuffix.trans ⟨front, ?_⟩ suffix
          rw [isRest, isBack, isBehind]
        · rcases isLetter with rfl | rfl
          · exact .inl (UInt16.toNat_inj.mp code)
          · exact .inr (UInt16.toNat_inj.mp code)
      rw [accepted.noEscape] at found
      cases found
    exact ⟨fun isC => noLetter (.inl isC), fun isC => noLetter (.inr isC)⟩

/-- An accepted target starts with one slash. -/
theorem Accepted.chars_eq (accepted : Accepted raw) :
    ∃ rest, raw.chars = '/' :: rest ∧ Tame rest ∧
      startsSlash (rest.dropWhile isTabOrNewline) = false := by
  obtain ⟨rest, isRaw⟩ := accepted.slash
  have suffix : rest <:+ raw := ⟨[0x2f], isRaw.symm⟩
  have tame := accepted.tame suffix
  have whole : raw.chars = '/' :: chars rest := by
    rw [isRaw, chars_ascii_cons (by decide)]
    rfl
  refine ⟨chars rest, whole, tame, ?_⟩
  cases tail : chars rest with
  | nil => rfl
  | cons first more =>
      rw [tail] at tame
      rw [startsSlash_of_cons rfl (tame.noTab first List.mem_cons_self)]
      have notBackslash : first ≠ '\\' := by
        rintro rfl
        exact tame.noBackslash List.mem_cons_self
      have notSlash : first ≠ '/' := by
        rintro rfl
        obtain ⟨unit, back, isRest, code, _⟩ := chars_cons tail (by decide)
        have isUnit : unit = 0x2f := UInt16.toNat_inj.mp code
        have double := accepted.single
        rw [isRaw, isRest, isUnit] at double
        cases double
      simp [isSlash, notBackslash, notSlash]

end Accepted

/-- The text is resolved within the origin of the base. -/
def Keeps (hosts : HostParser) (base : WebUrl) (text : List Char) : Prop :=
  (parse hosts (some base) text).map origin = some base.origin

/-- A URL of an `http` or `https` origin. -/
structure IsOrigin (hosts : HostParser) (base : WebUrl) : Prop where
  scheme : base.scheme = .http ∨ base.scheme = .https
  host : hosts.parse base.host = some base.host

/-- Two origins whose hosts differ. -/
theorem isOrigin_letter (hosts : HostParser) {letter : Char}
    (small : 'a' ≤ letter ∧ letter ≤ 'z') :
    IsOrigin hosts ⟨.https, [letter], none, [[]]⟩ := by
  refine ⟨.inr rfl, hosts.name _ (List.cons_ne_nil _ _) ?_⟩
  intro char member
  rw [List.mem_singleton.mp member]
  exact small

/-- After two slashes no origin is kept by all bases. -/
theorem not_keeps_slashes (hosts : HostParser) {rest : List Char}
    (double : startsSlash (rest.dropWhile isTabOrNewline) = true)
    (keeps : ∀ base, IsOrigin hosts base → Keeps hosts base ('/' :: rest)) :
    False := by
  have first := keeps _ (isOrigin_letter hosts
    (show 'a' ≤ 'a' ∧ 'a' ≤ 'z' by decide))
  have second := keeps _ (isOrigin_letter hosts
    (show 'a' ≤ 'b' ∧ 'b' ≤ 'z' by decide))
  unfold Keeps at first second
  rw [parse_slashes hosts _ double] at first second
  have same := first.symm.trans second
  cases same

/-- An accepted target keeps the origin as it is; decoded once it does exactly
where no escaped tab or line end hides a second slash. -/
theorem validateReturnTo_keeps_origin_iff (hosts : HostParser) (raw : JsText)
    (accepted : ∀ fallback, validateReturnTo (some raw) fallback = raw) :
    (∀ base, IsOrigin hosts base → Keeps hosts base raw.chars) ∧
      ((∀ base, IsOrigin hosts base →
          Keeps hosts base raw.chars ∧
            Keeps hosts base (decodeOnce raw.chars)) ↔
        hidesSlash raw.chars.tail = false) := by
  obtain ⟨rest, whole, tame, single⟩ :=
    (accepted_of_returned accepted).chars_eq
  have literal (base : WebUrl) : Keeps hosts base raw.chars := by
    rw [whole]
    exact origin_parse_slash hosts base single
  have decoded : decodeOnce raw.chars = '/' :: decodeOnce rest := by
    rw [whole]
    unfold decodeOnce
    rw [percentDecode_plain (by decide)]
    exact Utf8.decode_encode_ascii (by decide) _
  have shows := startsSlash_decodeOnce tame
  refine ⟨fun base _ => literal base, ?_⟩
  rw [decoded, whole, List.tail_cons]
  constructor
  · intro keeps
    rw [← shows, Bool.eq_false_iff]
    intro double
    exact not_keeps_slashes hosts double fun base isOrigin =>
      (keeps base isOrigin).2
  · intro hidden base isOrigin
    rw [← whole]
    exact ⟨literal base, origin_parse_slash hosts base (shows.trans hidden)⟩

section SampleTargets

def jsText (text : String) : JsText :=
  text.toList.map fun char => UInt16.ofNat char.toNat

def sampleBase : WebUrl := ⟨.https, "app.example".toList, none, [[]]⟩

theorem sampleBase_isOrigin : IsOrigin .names sampleBase :=
  ⟨.inr rfl, by decide⟩

theorem validateReturnTo_keeps_origin_iff_sample :
    Keeps .names sampleBase (decodeOnce (jsText "/a%09/b").chars) := by
  have returned (fallback : JsText) :
      validateReturnTo (some (jsText "/a%09/b")) fallback =
        jsText "/a%09/b" := rfl
  have keeps := ((validateReturnTo_keeps_origin_iff .names _ returned).2.mpr
    (by decide)) sampleBase sampleBase_isOrigin
  exact keeps.2

/-- An escaped tab after the first slash: accepted, and decoded once a URL of
another host. -/
theorem validateReturnTo_hides_host :
    (∀ fallback, validateReturnTo (some (jsText "/%09/evil.com")) fallback =
      jsText "/%09/evil.com") ∧
    IsOrigin .names sampleBase ∧
    parse .names (some sampleBase) (decodeOnce (jsText "/%09/evil.com").chars) =
      some ⟨.https, "evil.com".toList, none, [[]]⟩ := by
  refine ⟨fun fallback => rfl, sampleBase_isOrigin, ?_⟩
  decide

end SampleTargets

end Paigasus.Auth
