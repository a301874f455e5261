import Paigasus.Foundation.Base64
import Mathlib.Data.List.Infix

/-!
# What begins a base64 text

A text begins the base64 form of some bytes where a few more characters make it
whole and the bytes that it then spells are those bytes, or begin them.
-/

namespace Foundation.Base64

/-- Four characters are written for three bytes. -/
theorem encode_take (bytes : List UInt8) (groups : Nat) :
    (encode bytes).take (4 * groups) = encode (bytes.take (3 * groups)) := by
  induction bytes using encode.induct generalizing groups with
  | case1 => simp [encode]
  | case2 first =>
      cases groups with
      | zero => simp [encode]
      | succ groups => simp [encode, Nat.mul_add]
  | case3 first second =>
      cases groups with
      | zero => simp [encode]
      | succ groups => simp [encode, Nat.mul_add]
  | case4 first second third rest ih =>
      cases groups with
      | zero => simp [encode]
      | succ groups => simp [encode, Nat.mul_add, ih groups]

theorem encode_append {front : List UInt8} (whole : front.length % 3 = 0)
    (back : List UInt8) : encode (front ++ back) = encode front ++ encode back := by
  induction front using encode.induct with
  | case1 => rfl
  | case2 first => simp at whole
  | case3 first second => simp at whole
  | case4 first second third rest ih =>
      have restWhole : rest.length % 3 = 0 := by
        simp only [List.length_cons] at whole
        omega
      simp [encode, ih restWhole]

theorem length_encode (bytes : List UInt8) :
    (encode bytes).length = (4 * bytes.length + 2) / 3 := by
  induction bytes using encode.induct with
  | case1 => rfl
  | case2 first => simp [encode]
  | case3 first second => simp [encode]
  | case4 first second third rest ih =>
      simp only [encode, List.length_cons, ih]
      omega

/-- The text begins the base64 form of bytes of a kind: completed by at most
three characters it spells such bytes, or bytes that begin such. -/
def Begins (IsKind : List UInt8 → Prop) (text : List Char) : Prop :=
  ∃ completion bytes, completion.length ≤ 3 ∧
    decode (text ++ completion) = some bytes ∧
      (IsKind bytes ∨ (text ++ completion).length % 4 = 0 ∧
        ∃ more, IsKind (bytes ++ more))

theorem begins_iff {IsKind : List UInt8 → Prop} {text : List Char} :
    Begins IsKind text ↔ ∃ bytes, IsKind bytes ∧ text <+: encode bytes := by
  constructor
  · rintro ⟨completion, bytes, _short, decoded, isKind | ⟨whole, more, isKind⟩⟩
    · refine ⟨bytes, isKind, completion, ?_⟩
      exact (encode_of_decode decoded).symm
    · refine ⟨bytes ++ more, isKind, completion ++ encode more, ?_⟩
      have written := encode_of_decode decoded
      have wholeBytes : bytes.length % 3 = 0 := by
        rw [← written, length_encode] at whole
        omega
      rw [encode_append wholeBytes, written, List.append_assoc]
  · rintro ⟨bytes, isKind, begins⟩
    -- The text reaches into the last group of four that is taken here.
    obtain ⟨groups, high, low⟩ : ∃ groups, text.length ≤ 4 * groups ∧
        4 * groups ≤ text.length + 3 := ⟨(text.length + 3) / 4, by omega, by omega⟩
    have taken := encode_take bytes groups
    obtain ⟨completion, completes⟩ : text <+: encode (bytes.take (3 * groups)) := by
      rw [← taken]
      exact List.prefix_take_iff.mpr ⟨begins, high⟩
    refine ⟨completion, bytes.take (3 * groups), ?_, ?_, ?_⟩
    · have bound : (encode (bytes.take (3 * groups))).length ≤ 4 * groups := by
        rw [← taken]
        exact List.length_take_le _ _
      rw [← completes, List.length_append] at bound
      omega
    · rw [completes, decode_encode]
    · by_cases long : 3 * groups < bytes.length
      · right
        refine ⟨?_, bytes.drop (3 * groups), ?_⟩
        · rw [completes, length_encode, List.length_take]
          omega
        · rw [List.take_append_drop]
          exact isKind
      · left
        rw [List.take_of_length_le (by omega)]
        exact isKind

/-- Four characters of the alphabet are always three bytes. -/
theorem decode_of_alphabet {text : List Char} (whole : text.length % 4 = 0)
    (alphabet : ∀ char ∈ text, (bits? char).isSome) :
    ∃ bytes, decode text = some bytes := by
  induction text using decode.induct with
  | case1 => exact ⟨[], rfl⟩
  | case9 first second third fourth rest high middle low last isLast isLow
      isMiddle isHigh ih =>
      have restWhole : rest.length % 4 = 0 := by
        simp only [List.length_cons] at whole
        omega
      obtain ⟨bytes, decoded⟩ :=
        ih restWhole fun char member => alphabet char (by simp [member])
      simp [decode, isHigh, isMiddle, isLow, isLast, decoded]
  | case10 first second third fourth rest unread =>
      obtain ⟨high, isHigh⟩ :=
        Option.isSome_iff_exists.mp (alphabet first (by simp))
      obtain ⟨middle, isMiddle⟩ :=
        Option.isSome_iff_exists.mp (alphabet second (by simp))
      obtain ⟨low, isLow⟩ :=
        Option.isSome_iff_exists.mp (alphabet third (by simp))
      obtain ⟨last, isLast⟩ :=
        Option.isSome_iff_exists.mp (alphabet fourth (by simp))
      exact absurd isLast (unread high middle low last isHigh isMiddle isLow)
  | _ => simp at whole

theorem begins_of_alphabet {text : List Char}
    (alphabet : ∀ char ∈ text, (bits? char).isSome) :
    ∃ bytes, text <+: encode bytes := by
  let padding := List.replicate ((4 - text.length % 4) % 4) 'A'
  obtain ⟨bytes, decoded⟩ : ∃ bytes, decode (text ++ padding) = some bytes := by
    apply decode_of_alphabet
    · simp only [padding, List.length_append, List.length_replicate]
      omega
    · intro char member
      rcases List.mem_append.mp member with inText | inPadding
      · exact alphabet char inText
      · rw [List.eq_of_mem_replicate inPadding]
        rfl
  exact ⟨bytes, padding, (encode_of_decode decoded).symm⟩

end Foundation.Base64
