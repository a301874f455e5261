import Paigasus.ApiKeys.Resolve
import Paigasus.Foundation.Base64

/-!
# API-key tokens

A token is a prefix, the 32 digits of the key id, an underscore and the secret
in base64.  The id is read by its width, since the alphabet of the secret has an
underscore too.  Both parts have to be in the form they are written in, so a
token has one text only.
-/

namespace Paigasus.ApiKeys

open Foundation Core

def formatToken (engine : Base64Engine) (keyPrefix : String) (keyId : Uuid)
    (secret : List UInt8) : String :=
  keyPrefix ++ String.ofList keyId.simple ++ "_" ++
    String.ofList (engine.encode secret)

/-- Cuts a text after a number of bytes, which must end a character. -/
def splitAtByte : Nat → List Char → Option (List Char × List Char)
  | 0, rest => some ([], rest)
  | _ + 1, [] => none
  | count + 1, char :: rest =>
      if char.utf8Size ≤ count + 1 then
        (splitAtByte (count + 1 - char.utf8Size) rest).map
          fun (first, second) => (char :: first, second)
      else
        none

/-- Reads the secret; it must be in the form that is written. -/
def parseSecret (engine : Base64Engine) (text : List Char) :
    Except ApiKeyDefect (List UInt8) :=
  match engine.decode text with
  | none => .error .badSecret
  | some secret =>
      if engine.encode secret ≠ text then .error .badSecret else .ok secret

/-- Reads a token: its length first, then the prefix, the key id by its width,
the underscore, and the secret. -/
def parseToken (engine : Base64Engine) (keyPrefix token : String)
    (maxBytes : Nat) : Except ApiKeyDefect ParsedToken :=
  if token.utf8ByteSize > maxBytes then
    .error .malformed
  else
    match token.toList.dropPrefix? keyPrefix.toList with
    | none => .error .malformed
    | some rest =>
        match splitAtByte 32 rest with
        | none => .error .malformed
        | some (keyIdHex, afterId) =>
            match Uuid.parseSimple keyIdHex with
            | none => .error .malformed
            | some keyId =>
                if keyId.simple ≠ keyIdHex then
                  .error .malformed
                else
                  match afterId with
                  | '_' :: secretText =>
                      (parseSecret engine secretText).map fun secret =>
                        { keyId, secret }
                  | _ => .error .malformed

theorem toList_formatToken (engine : Base64Engine) (keyPrefix : String)
    (keyId : Uuid) (secret : List UInt8) :
    (formatToken engine keyPrefix keyId secret).toList =
      keyPrefix.toList ++ (keyId.simple ++ '_' :: engine.encode secret) := by
  have underscore : "_".toList = ['_'] := rfl
  unfold formatToken
  simp only [String.toList_append, String.toList_ofList, underscore,
    List.append_assoc, List.cons_append, List.nil_append]

/-- A text of single-byte characters is cut after so many characters. -/
theorem splitAtByte_length {text : List Char}
    (single : ∀ char ∈ text, char.utf8Size = 1) (rest : List Char) :
    splitAtByte text.length (text ++ rest) = some (text, rest) := by
  induction text with
  | nil => cases rest <;> rfl
  | cons char tail ih =>
      have size := single char List.mem_cons_self
      have later := ih fun next member =>
        single next (List.mem_cons_of_mem _ member)
      rw [List.length_cons, List.cons_append, splitAtByte, size,
        if_pos (by omega), Nat.add_sub_cancel, later, Option.map_some]

theorem append_of_splitAtByte {count : Nat} {text first second : List Char}
    (cut : splitAtByte count text = some (first, second)) :
    text = first ++ second := by
  induction text generalizing count first with
  | nil =>
      cases count with
      | zero =>
          cases cut
          rfl
      | succ count => cases cut
  | cons char rest ih =>
      cases count with
      | zero =>
          cases cut
          rfl
      | succ count =>
          rw [splitAtByte] at cut
          split at cut
          case isTrue =>
            obtain ⟨⟨left, right⟩, isCut, same⟩ :=
              Option.map_eq_some_iff.mp cut
            cases same
            rw [ih isCut, List.cons_append]
          case isFalse => cases cut

theorem splitAtByte_simple (keyId : Uuid) (rest : List Char) :
    splitAtByte 32 (keyId.simple ++ rest) = some (keyId.simple, rest) := by
  have single : ∀ char ∈ keyId.simple, char.utf8Size = 1 := by
    intro char member
    apply Uuid.utf8Size_of_hex
    cases isHex : Uuid.hexValue? char with
    | some _ => rfl
    | none => exact absurd member (Uuid.not_mem_hexDigits isHex 32 _)
  have cut := splitAtByte_length single rest
  rw [Uuid.simple, Uuid.hexDigits_length] at cut
  exact cut

theorem parseSecret_encode (engine : Base64Engine) (secret : List UInt8) :
    parseSecret engine (engine.encode secret) = .ok secret := by
  rw [parseSecret, engine.decode_encode]
  simp

theorem encode_of_parseSecret {engine : Base64Engine} {text : List Char}
    {secret : List UInt8} (parsed : parseSecret engine text = .ok secret) :
    engine.encode secret = text := by
  rw [parseSecret] at parsed
  split at parsed
  case h_1 => cases parsed
  case h_2 =>
    split at parsed
    case isTrue => cases parsed
    case isFalse same =>
      cases parsed
      exact not_not.mp same

/-- A token that was written reads back as its parts. -/
theorem parseToken_formatToken (engine : Base64Engine) (keyPrefix : String)
    (keyId : Uuid) (secret : List UInt8) (maxBytes : Nat)
    (short : (formatToken engine keyPrefix keyId secret).utf8ByteSize ≤
      maxBytes) :
    parseToken engine keyPrefix (formatToken engine keyPrefix keyId secret)
      maxBytes = .ok { keyId, secret } := by
  have rest : (keyPrefix.toList ++
      (keyId.simple ++ '_' :: engine.encode secret)).dropPrefix?
        keyPrefix.toList = some (keyId.simple ++ '_' :: engine.encode secret) :=
    List.dropPrefix?_append_of_beq _ (beq_self_eq_true _)
  rw [parseToken, if_neg (Nat.not_lt.mpr short), toList_formatToken, rest]
  simp only [splitAtByte_simple, Uuid.parseSimple_simple, ne_eq,
    not_true_eq_false, if_false, parseSecret_encode]
  rfl

/-- An accepted token is the text its parts are written as. -/
theorem formatToken_of_parseToken {engine : Base64Engine}
    {keyPrefix token : String} {maxBytes : Nat} {parsed : ParsedToken}
    (accepted : parseToken engine keyPrefix token maxBytes = .ok parsed) :
    formatToken engine keyPrefix parsed.keyId parsed.secret = token := by
  rw [parseToken] at accepted
  split at accepted
  case isTrue => cases accepted
  case isFalse =>
    split at accepted
    case h_1 => cases accepted
    case h_2 rest isRest =>
      split at accepted
      case h_1 => cases accepted
      case h_2 keyIdHex afterId cut =>
        split at accepted
        case h_1 => cases accepted
        case h_2 keyId isKeyId =>
          split at accepted
          case isTrue => cases accepted
          case isFalse canonical =>
            split at accepted
            case h_1 secretText =>
              cases isSecret : parseSecret engine secretText with
              | error defect =>
                  rw [isSecret] at accepted
                  cases accepted
              | ok secret =>
                  rw [isSecret] at accepted
                  cases accepted
                  obtain ⟨start, whole, isPrefix⟩ :=
                    List.dropPrefix?_eq_some_iff.mp isRest
                  apply String.toList_inj.mp
                  rw [toList_formatToken, encode_of_parseSecret isSecret,
                    whole, append_of_splitAtByte cut,
                    not_not.mp canonical, eq_of_beq isPrefix]
            case h_2 => cases accepted

/-- Tokens read back as the parts they were written from, and an accepted token
is the only one with its parts. -/
theorem token_codec (engine : Base64Engine) (keyPrefix : String)
    (maxBytes : Nat) :
    (∀ keyId secret,
      (formatToken engine keyPrefix keyId secret).utf8ByteSize ≤ maxBytes →
        parseToken engine keyPrefix
          (formatToken engine keyPrefix keyId secret) maxBytes =
            .ok { keyId, secret }) ∧
    (∀ token parsed,
      parseToken engine keyPrefix token maxBytes = .ok parsed →
        formatToken engine keyPrefix parsed.keyId parsed.secret = token) ∧
    (∀ first second parsed,
      parseToken engine keyPrefix first maxBytes = .ok parsed →
      parseToken engine keyPrefix second maxBytes = .ok parsed →
        first = second) := by
  refine ⟨?_, ?_, ?_⟩
  · intro keyId secret short
    exact parseToken_formatToken engine keyPrefix keyId secret maxBytes short
  · intro token parsed accepted
    exact formatToken_of_parseToken accepted
  · intro first second parsed isFirst isSecond
    rw [← formatToken_of_parseToken isFirst,
      formatToken_of_parseToken isSecond]

/-- A secret whose text is underscores only. -/
theorem token_codec_sample :
    parseToken Base64.urlSafeNoPad "pgs_sk_"
      "pgs_sk_00000000000000000000000000000001_____" 512 =
        .ok { keyId := 1, secret := [255, 255, 255] } := by
  have written : formatToken Base64.urlSafeNoPad "pgs_sk_" 1
      [255, 255, 255] = "pgs_sk_00000000000000000000000000000001_____" := by
    decide
  have parsed := (token_codec Base64.urlSafeNoPad "pgs_sk_" 512).1 1
    [255, 255, 255] (by rw [written]; decide)
  rw [written] at parsed
  exact parsed

end Paigasus.ApiKeys
