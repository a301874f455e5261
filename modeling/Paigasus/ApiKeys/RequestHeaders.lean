import Paigasus.Core.Authn
import Paigasus.Foundation.Delimited
import Paigasus.Foundation.Utf8
import Mathlib.Data.List.DropRight

/-!
# Credentials in request headers

A request presents a token in its authorization header, after the scheme and a
blank.  What is read is the text of the header, cut at the first blank and freed
of the blanks around the rest.
-/

namespace Paigasus.ApiKeys

open Foundation Core

/-- What the router reads of a request. -/
structure RoutedRequest where
  path : String
  authorization : Option (List UInt8)
  dpop : List (List UInt8)

/-- `HeaderValue::to_str`: visible characters, blanks and tabs. -/
def headerText (value : List UInt8) : Option (List Char) :=
  if value.all fun byte => 32 ≤ byte && byte < 127 || byte = 9 then
    some (value.map fun byte => Char.ofNat byte.toNat)
  else
    none

def isBlank (char : Char) : Bool := char = ' ' || char = '\t'

def trim (text : List Char) : List Char :=
  (text.dropWhile isBlank).rdropWhile isBlank

/-- The token of an authorization header with the scheme in lower case. -/
def tokenOfScheme (scheme : String) (request : RoutedRequest) :
    Option String :=
  match request.authorization.bind headerText with
  | none => none
  | some value =>
      match splitFirst ' ' value with
      | none => none
      | some (found, rest) =>
          if found.map Char.toLower = scheme.toList && trim rest ≠ [] then
            some (String.ofList (trim rest))
          else
            none

def bearerFromHeaders : RoutedRequest → Option String :=
  tokenOfScheme "bearer"

def dpopTokenFromHeaders : RoutedRequest → Option String := tokenOfScheme "dpop"

/-- The proof of a request with exactly one. -/
def dpopProofFromHeaders (request : RoutedRequest) :
    Except ProofDefect String :=
  match request.dpop with
  | [] => .error .missing
  | [value] =>
      match headerText value with
      | none => .error .malformed
      | some proof =>
          if proof = [] then .error .malformed else .ok (String.ofList proof)
  | _ => .error .malformed

section Texts

/-- The character may stand in the text of a header. -/
def isHeaderChar (char : Char) : Bool :=
  32 ≤ char.toNat && char.toNat < 127 || char = '\t'

theorem isHeaderChar_iff {char : Char} : isHeaderChar char = true ↔
    32 ≤ char.toNat ∧ char.toNat < 127 ∨ char.toNat = 9 := by
  have isTab : char = '\t' ↔ char.toNat = 9 := by
    constructor
    · rintro rfl
      rfl
    · intro same
      rw [← Char.ofNat_toNat char, same]
  simp [isHeaderChar, isTab]

theorem ascii_of_isHeaderChar {text : List Char}
    (plain : text.all isHeaderChar = true) :
    text.all (fun char => char.toNat < 0x80) = true := by
  apply List.all_eq_true.mpr
  intro char member
  have found := isHeaderChar_iff.mp (List.all_eq_true.mp plain char member)
  rw [decide_eq_true_eq]
  omega

/-- The bytes of a text are read as the text itself, if they are read. -/
theorem headerText_utf8 (text : String) : headerText (utf8 text) =
    if text.toList.all isHeaderChar then some text.toList else none := by
  have visible (byte : UInt8) :
      (32 ≤ byte && byte < 127 || byte = 9) = true ↔
        32 ≤ byte.toNat ∧ byte.toNat < 127 ∨ byte.toNat = 9 := by
    have isTab : byte = 9 ↔ byte.toNat = 9 :=
      ⟨fun same => by rw [same]; rfl, fun same => UInt8.toNat_inj.mp same⟩
    have least : (32 : UInt8) ≤ byte ↔ 32 ≤ byte.toNat := UInt8.le_iff_toNat_le
    have most : byte < (127 : UInt8) ↔ byte.toNat < 127 := UInt8.lt_iff_toNat_lt
    simp [isTab, least, most]
  unfold headerText
  by_cases plain : text.toList.all isHeaderChar = true
  · have ascii := ascii_of_isHeaderChar plain
    rw [if_pos plain, if_pos, Utf8.chars_of_utf8 ascii]
    apply List.all_eq_true.mpr
    intro byte member
    obtain ⟨char, isChar, isByte⟩ := List.mem_flatMap.mp member
    have small : char.toNat < 0x80 := by
      simpa using List.all_eq_true.mp ascii char isChar
    rw [Utf8.encode_ascii small, List.mem_singleton] at isByte
    rw [visible, isByte, Utf8.toNat_ofNat_ascii small]
    exact isHeaderChar_iff.mp (List.all_eq_true.mp plain char isChar)
  · rw [if_neg plain, if_neg]
    intro allVisible
    apply plain
    apply List.all_eq_true.mpr
    intro char isChar
    have encoded {byte : UInt8}
        (written : byte ∈ String.utf8EncodeChar char) :
        32 ≤ byte.toNat ∧ byte.toNat < 127 ∨ byte.toNat = 9 :=
      (visible byte).mp (List.all_eq_true.mp allVisible byte
        (List.mem_flatMap.mpr ⟨char, isChar, written⟩))
    by_cases small : char.toNat < 0x80
    · have found := encoded (by
        rw [Utf8.encode_ascii small]
        exact List.mem_singleton_self _)
      rw [Utf8.toNat_ofNat_ascii small] at found
      exact isHeaderChar_iff.mpr found
    · obtain ⟨first, rest, written, wide⟩ :=
        Utf8.encode_wide (Nat.le_of_not_lt small)
      have found := @encoded first (by
        rw [written]
        exact List.mem_cons_self)
      omega

/-- A text is trimmed to itself if it begins and ends with other characters. -/
theorem trim_eq_self {text : List Char}
    (first : ∀ char ∈ text.head?, isBlank char = false)
    (last : ∀ char ∈ text.getLast?, isBlank char = false) :
    trim text = text := by
  have begins : text.dropWhile isBlank = text := by
    cases text with
    | nil => rfl
    | cons char rest => simp [first char rfl]
  rw [trim, begins]
  apply List.rdropWhile_eq_self_iff.mpr
  intro present
  rw [last _ (List.getLast?_eq_some_getLast present)]
  exact Bool.false_ne_true

theorem first_of_trim {text : List Char} (same : trim text = text) :
    ∀ char ∈ text.head?, isBlank char = false := by
  intro char isFirst
  cases text with
  | nil => cases isFirst
  | cons first rest =>
      cases isFirst
      cases blank : isBlank char with
      | false => rfl
      | true =>
          have shorter : (trim (char :: rest)).length ≤ rest.length := by
            rw [trim, List.dropWhile_cons_of_pos blank]
            exact Nat.le_trans (List.rdropWhile_prefix _ _).length_le
              (List.dropWhile_suffix _).length_le
          rw [same, List.length_cons] at shorter
          omega

end Texts

/-- The request presents the token after the scheme, in any case, and a blank. -/
def RoutedRequest.Presents (request : RoutedRequest) (token : String) : Prop :=
  ∃ scheme : String, scheme.toList.map Char.toLower = "bearer".toList ∧
    request.authorization = some (utf8 (scheme ++ " " ++ token))

section Presented

variable {request : RoutedRequest} {token : String}

theorem isHeaderChar_of_toLower {char : Char}
    (lower : char.toLower ∈ "bearer".toList) :
    isHeaderChar char = true ∧ char ≠ ' ' := by
  have letter : 65 ≤ char.toNat ∧ char.toNat ≤ 122 := by
    by_cases upper : 65 ≤ char.toNat ∧ char.toNat ≤ 90
    · omega
    · have same : char.toLower = char := by
        unfold Char.toLower
        rw [dif_neg]
        rintro ⟨least, most⟩
        exact upper ⟨UInt32.le_iff_toNat_le.mp least,
          UInt32.le_iff_toNat_le.mp most⟩
      have letters : "bearer".toList = ['b', 'e', 'a', 'r', 'e', 'r'] := rfl
      rw [same, letters] at lower
      simp only [List.mem_cons, List.not_mem_nil, or_false] at lower
      rcases lower with isChar | isChar | isChar | isChar | isChar | isChar
        <;> rw [isChar] <;> decide
  refine ⟨isHeaderChar_iff.mpr (.inl (by omega)), ?_⟩
  rintro rfl
  exact absurd letter.1 (by decide)

/-- What is read of a token that a request presents. -/
theorem bearerFromHeaders_of_presents (presented : request.Presents token) :
    bearerFromHeaders request =
      if token.toList.all isHeaderChar && trim token.toList ≠ [] then
        some (String.ofList (trim token.toList))
      else
        none := by
  obtain ⟨scheme, isScheme, header⟩ := presented
  have letters : ∀ char ∈ scheme.toList,
      isHeaderChar char = true ∧ char ≠ ' ' := by
    intro char member
    apply isHeaderChar_of_toLower
    rw [← isScheme]
    exact List.mem_map_of_mem member
  have blank : isHeaderChar ' ' = true := rfl
  have schemeText : scheme.toList.all isHeaderChar = true :=
    List.all_eq_true.mpr fun char member => (letters char member).1
  have noBlank : ' ' ∉ scheme.toList := fun member =>
    (letters ' ' member).2 rfl
  have value : (scheme ++ " " ++ token).toList =
      scheme.toList ++ ' ' :: token.toList := by
    simp
  unfold bearerFromHeaders tokenOfScheme
  rw [header, Option.bind_some, headerText_utf8, value, List.all_append,
    List.all_cons, schemeText, blank, Bool.true_and, Bool.true_and]
  cases plain : token.toList.all isHeaderChar with
  | false => simp
  | true =>
      simp only [if_true, Bool.true_and, splitFirst_append noBlank, isScheme,
        decide_true]

end Presented

end Paigasus.ApiKeys
