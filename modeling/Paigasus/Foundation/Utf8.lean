import Mathlib.Data.List.Basic
import Mathlib.Data.String.Basic
import Mathlib.Algebra.Group.Nat.Defs
import Paigasus.Foundation.Bytes

/-!
# The UTF-8 decoder

Bytes are decoded one at a time.  What is no character, a sequence that stops
early included, decodes to the replacement character, so every byte string has a
text.  An ASCII byte always stands for itself and leaves nothing pending: the
text of a stream can be cut at each of them.
-/

namespace Foundation.Utf8

/-- The range of the next byte of an open sequence. -/
inductive Range where
  | all
  | fromA0
  | upTo9F
  | from90
  | upTo8F
deriving DecidableEq

def Range.lower : Range → Nat
  | .fromA0 => 0xa0
  | .from90 => 0x90
  | _ => 0x80

def Range.upper : Range → Nat
  | .upTo9F => 0x9f
  | .upTo8F => 0x8f
  | _ => 0xbf

/-- Between two characters, or inside one with `more + 1` bytes to come. -/
inductive Decoder where
  | ready
  | inside (more : Nat) (code : Nat) (range : Range)
deriving DecidableEq

def replacement : Char := Char.ofNat 0xfffd

def scalar (code : Nat) : Char :=
  if code.isValidChar then Char.ofNat code else replacement

namespace Decoder

/-- The first byte of a character. -/
def start (byte : UInt8) : List Char × Decoder :=
  let value := byte.toNat
  if value < 0x80 then
    ([Char.ofNat value], .ready)
  else if 0xc2 ≤ value ∧ value ≤ 0xdf then
    ([], .inside 0 (value - 0xc0) .all)
  else if value = 0xe0 then
    ([], .inside 1 0 .fromA0)
  else if value = 0xed then
    ([], .inside 1 0xd .upTo9F)
  else if 0xe1 ≤ value ∧ value ≤ 0xef then
    ([], .inside 1 (value - 0xe0) .all)
  else if value = 0xf0 then
    ([], .inside 2 0 .from90)
  else if value = 0xf4 then
    ([], .inside 2 4 .upTo8F)
  else if 0xf1 ≤ value ∧ value ≤ 0xf3 then
    ([], .inside 2 (value - 0xf0) .all)
  else
    ([replacement], .ready)

/-- One byte: the characters it completes, and the next state.  A byte that
cannot continue an open sequence is read again as a first byte. -/
def feed : Decoder → UInt8 → List Char × Decoder
  | .ready, byte => start byte
  | .inside more code range, byte =>
      if range.lower ≤ byte.toNat ∧ byte.toNat ≤ range.upper then
        let longer := code * 64 + (byte.toNat - 0x80)
        match more with
        | 0 => ([scalar longer], .ready)
        | more + 1 => ([], .inside more longer .all)
      else
        (replacement :: (start byte).1, (start byte).2)

/-- What an open sequence becomes when no byte continues it. -/
def flush : Decoder → List Char
  | .ready => []
  | .inside _ _ _ => [replacement]

/-- The characters of a chunk, and the state after it. -/
def run (decoder : Decoder) : List UInt8 → List Char × Decoder
  | [] => ([], decoder)
  | byte :: rest =>
      let step := decoder.feed byte
      let later := run step.2 rest
      (step.1 ++ later.1, later.2)

theorem run_append (decoder : Decoder) (first second : List UInt8) :
    decoder.run (first ++ second) =
      ((decoder.run first).1 ++ ((decoder.run first).2.run second).1,
        ((decoder.run first).2.run second).2) := by
  induction first generalizing decoder with
  | nil => rfl
  | cons byte first ih => simp only [List.cons_append, run, ih,
      List.append_assoc]

theorem start_ascii {byte : UInt8} (isAscii : byte.toNat < 0x80) :
    start byte = ([Char.ofNat byte.toNat], .ready) := by
  unfold start
  exact if_pos isAscii

/-- An ASCII byte stands for itself in every state. -/
theorem feed_ascii (decoder : Decoder) {byte : UInt8}
    (isAscii : byte.toNat < 0x80) :
    decoder.feed byte = (decoder.flush ++ [Char.ofNat byte.toNat], .ready) := by
  cases decoder with
  | ready => exact start_ascii isAscii
  | inside more code range =>
      have outside : ¬ (range.lower ≤ byte.toNat ∧
          byte.toNat ≤ range.upper) := by
        cases range <;> simp only [Range.lower] <;> omega
      simp only [feed, if_neg outside, start_ascii isAscii]
      rfl

end Decoder

/-- The text of a byte string. -/
def decode (bytes : List UInt8) : List Char :=
  let whole := Decoder.ready.run bytes
  whole.1 ++ whole.2.flush

@[simp]
theorem decode_nil : decode [] = [] := rfl

theorem decode_append_ascii (before : List UInt8) {byte : UInt8}
    (isAscii : byte.toNat < 0x80) (after : List UInt8) :
    decode (before ++ byte :: after) =
      decode before ++ Char.ofNat byte.toNat :: decode after := by
  unfold decode
  rw [Decoder.run_append, Decoder.run, Decoder.feed_ascii _ isAscii]
  simp

theorem decode_cons_ascii {byte : UInt8} (isAscii : byte.toNat < 0x80)
    (after : List UInt8) :
    decode (byte :: after) = Char.ofNat byte.toNat :: decode after :=
  decode_append_ascii [] isAscii after

/-- An ASCII text between other bytes stands for itself. -/
theorem decode_append_text (before : List UInt8) {text : List UInt8}
    (present : text ≠ []) (isAscii : ∀ byte ∈ text, byte.toNat < 0x80)
    (after : List UInt8) :
    decode (before ++ text ++ after) =
      decode before ++ text.map (fun byte => Char.ofNat byte.toNat) ++
        decode after := by
  induction text generalizing before with
  | nil => exact absurd rfl present
  | cons byte text ih =>
      have first := isAscii byte List.mem_cons_self
      cases text with
      | nil => simp [decode_append_ascii before first]
      | cons second text =>
          have rest := ih [] (List.cons_ne_nil _ _)
            (fun next member => isAscii next (List.mem_cons_of_mem _ member))
          rw [List.append_assoc, List.cons_append,
            decode_append_ascii before first]
          rw [List.nil_append] at rest
          rw [rest]
          simp

/-- The end of a text decodes as such. -/
theorem decode_append_ascii_end (before : List UInt8) {text : List UInt8}
    (present : text ≠ []) (isAscii : ∀ byte ∈ text, byte.toNat < 0x80) :
    decode (before ++ text) =
      decode before ++ text.map (fun byte => Char.ofNat byte.toNat) := by
  have whole := decode_append_text before present isAscii []
  rw [List.append_nil] at whole
  rw [whole, decode_nil, List.append_nil]

section FirstCharacter

/-- The sequence is too long for an ASCII character. -/
def Decoder.Wide : Decoder → Prop
  | .ready => False
  | .inside 0 code _ => 2 ≤ code
  | .inside 1 code range => 1 ≤ code ∨ range = .fromA0
  | .inside (_ + 2) code range => 1 ≤ code ∨ range = .from90

theorem toNat_ofNat {code : Nat} (valid : code.isValidChar) :
    (Char.ofNat code).toNat = code := by
  unfold Char.ofNat
  rw [dif_pos valid]
  rfl

theorem le_scalar {code : Nat} (wide : 0x80 ≤ code) :
    0x80 ≤ (scalar code).toNat := by
  unfold scalar
  split
  case isTrue valid =>
    rw [toNat_ofNat valid]
    exact wide
  case isFalse => decide

theorem Decoder.start_wide {byte : UInt8} (notAscii : 0x80 ≤ byte.toNat) :
    start byte = ([replacement], .ready) ∨
      ((start byte).1 = [] ∧ (start byte).2.Wide) := by
  unfold start
  dsimp only
  rw [if_neg (by omega)]
  repeat' split
  all_goals simp [Wide]
  all_goals omega

theorem Decoder.Wide.continued {more code : Nat} {range : Range} {byte : UInt8}
    (wide : (inside (more + 1) code range).Wide)
    (inRange : range.lower ≤ byte.toNat) :
    (inside more (code * 64 + (byte.toNat - 0x80)) .all).Wide := by
  cases more with
  | zero =>
      simp only [Wide] at wide ⊢
      rcases wide with positive | rfl
      · omega
      · simp only [Range.lower] at inRange
        omega
  | succ more =>
      simp only [Wide] at wide
      have positive : 1 ≤ code * 64 + (byte.toNat - 0x80) := by
        rcases wide with positive | rfl
        · omega
        · simp only [Range.lower] at inRange
          omega
      cases more with
      | zero => exact .inl positive
      | succ more => exact .inl positive

/-- A character that starts with no ASCII byte is no ASCII character. -/
theorem Decoder.run_wide {decoder : Decoder} (wide : decoder.Wide)
    (bytes : List UInt8) :
    ∃ first rest, (decoder.run bytes).1 ++ (decoder.run bytes).2.flush =
      first :: rest ∧ 0x80 ≤ first.toNat := by
  induction bytes generalizing decoder with
  | nil =>
      cases decoder with
      | ready => exact wide.elim
      | inside more code range =>
          exact ⟨replacement, [], rfl, by decide⟩
  | cons byte bytes ih =>
      cases decoder with
      | ready => exact wide.elim
      | inside more code range =>
          simp only [run, feed]
          split
          case isTrue inRange =>
            have low := inRange.1
            cases more with
            | zero =>
                refine ⟨_, _, rfl, le_scalar ?_⟩
                simp only [Wide] at wide
                omega
            | succ more => exact ih (wide.continued low)
          case isFalse =>
            exact ⟨replacement, _, rfl, by decide⟩

/-- What an open sequence is in every state that is reached. -/
def Decoder.Sound (decoder : Decoder) : Prop :=
  decoder = .ready ∨ decoder.Wide

/-- A byte that is not ASCII completes no ASCII character. -/
theorem Decoder.Sound.feed_wide {decoder : Decoder} (sound : decoder.Sound)
    {byte : UInt8} (notAscii : 0x80 ≤ byte.toNat) :
    (∀ char ∈ (decoder.feed byte).1, 0x80 ≤ char.toNat) ∧
      (decoder.feed byte).2.Sound := by
  have started : (∀ char ∈ (start byte).1, 0x80 ≤ char.toNat) ∧
      (start byte).2.Sound := by
    rcases start_wide notAscii with replaced | ⟨silent, wide⟩
    · rw [replaced]
      refine ⟨?_, .inl rfl⟩
      intro char member
      rw [List.mem_singleton.mp member]
      decide
    · rw [silent]
      exact ⟨nofun, .inr wide⟩
  cases decoder with
  | ready => exact started
  | inside more code range =>
      have wide : (inside more code range).Wide := by
        rcases sound with isReady | wide
        · cases isReady
        · exact wide
      simp only [feed]
      split
      case isTrue inRange =>
        cases more with
        | zero =>
            refine ⟨?_, .inl rfl⟩
            intro char member
            rw [List.mem_singleton.mp member]
            apply le_scalar
            simp only [Wide] at wide
            omega
        | succ more => exact ⟨nofun, .inr (wide.continued inRange.1)⟩
      case isFalse =>
        refine ⟨?_, started.2⟩
        intro char member
        rcases List.mem_cons.mp member with rfl | later
        · decide
        · exact started.1 char later

theorem Decoder.Sound.run {decoder : Decoder} (sound : decoder.Sound)
    (bytes : List UInt8) : (decoder.run bytes).2.Sound := by
  induction bytes generalizing decoder with
  | nil => exact sound
  | cons byte bytes ih =>
      apply ih
      by_cases isAscii : byte.toNat < 0x80
      · rw [feed_ascii decoder isAscii]
        exact .inl rfl
      · exact (sound.feed_wide (Nat.not_lt.mp isAscii)).2

theorem decode_wide {byte : UInt8} (notAscii : 0x80 ≤ byte.toNat)
    (bytes : List UInt8) :
    ∃ first rest, decode (byte :: bytes) = first :: rest ∧
      0x80 ≤ first.toNat := by
  unfold decode
  simp only [Decoder.run, Decoder.feed]
  rcases Decoder.start_wide notAscii with replaced | ⟨silent, wide⟩
  · rw [replaced]
    exact ⟨replacement, _, rfl, by decide⟩
  · rw [silent, List.nil_append]
    exact Decoder.run_wide wide bytes

end FirstCharacter

section Encoding

theorem encode_ascii {char : Char} (isAscii : char.toNat < 0x80) :
    String.utf8EncodeChar char = [UInt8.ofNat char.toNat] := by
  have small : char.val.toNat ≤ 0x7f := Nat.le_of_lt_succ isAscii
  unfold String.utf8EncodeChar
  dsimp only
  rw [if_pos small]
  rfl

theorem encode_wide {char : Char} (wide : 0x80 ≤ char.toNat) :
    ∃ byte rest, String.utf8EncodeChar char = byte :: rest ∧
      0x80 ≤ byte.toNat := by
  have large : ¬ char.val.toNat ≤ 0x7f := Nat.not_le.mpr wide
  unfold String.utf8EncodeChar
  dsimp only
  rw [if_neg large]
  split
  case isTrue => exact ⟨_, _, rfl, by rw [UInt8.toNat_ofNat']; omega⟩
  case isFalse =>
    split
    case isTrue => exact ⟨_, _, rfl, by rw [UInt8.toNat_ofNat']; omega⟩
    case isFalse => exact ⟨_, _, rfl, by rw [UInt8.toNat_ofNat']; omega⟩

theorem toNat_ofNat_ascii {char : Char} (isAscii : char.toNat < 0x80) :
    (UInt8.ofNat char.toNat).toNat = char.toNat := by
  rw [UInt8.toNat_ofNat']
  omega

/-- An ASCII character is decoded from its own byte. -/
theorem decode_encode_ascii {char : Char} (isAscii : char.toNat < 0x80)
    (rest : List UInt8) :
    decode (String.utf8EncodeChar char ++ rest) = char :: decode rest := by
  have same := toNat_ofNat_ascii isAscii
  rw [encode_ascii isAscii, List.singleton_append,
    decode_cons_ascii (by rw [same]; exact isAscii), same, Char.ofNat_toNat]

theorem chars_of_utf8 {text : String}
    (ascii : text.toList.all (fun char => char.toNat < 0x80) = true) :
    (utf8 text).map (fun byte => Char.ofNat byte.toNat) = text.toList := by
  unfold utf8
  generalize text.toList = chars at ascii ⊢
  induction chars with
  | nil => rfl
  | cons char rest ih =>
      obtain ⟨isAscii, others⟩ : char.toNat < 0x80 ∧
          rest.all (fun char => char.toNat < 0x80) = true := by
        simpa using ascii
      rw [List.flatMap_cons, encode_ascii isAscii, List.map_append,
        ih others, List.map_singleton, toNat_ofNat_ascii isAscii,
        Char.ofNat_toNat, List.singleton_append]

theorem ascii_of_utf8 {text : String}
    (ascii : text.toList.all (fun char => char.toNat < 0x80) = true) :
    ∀ byte ∈ utf8 text, byte.toNat < 0x80 := by
  intro byte listed
  obtain ⟨char, isChar, isByte⟩ := List.mem_flatMap.mp listed
  have isAscii : char.toNat < 0x80 := by
    simpa using List.all_eq_true.mp ascii char isChar
  rw [encode_ascii isAscii, List.mem_singleton] at isByte
  rw [isByte, toNat_ofNat_ascii isAscii]
  exact isAscii

end Encoding

/-- The byte order mark at the start of a text is no part of it. -/
def dropMark : List Char → List Char
  | [] => []
  | first :: rest => if first.toNat = 0xfeff then rest else first :: rest

theorem dropMark_append_of_ne_nil {before : List Char} (present : before ≠ [])
    (rest : List Char) : dropMark (before ++ rest) = dropMark before ++ rest := by
  cases before with
  | nil => exact absurd rfl present
  | cons char before =>
      simp only [List.cons_append, dropMark]
      split <;> rfl

theorem dropMark_append {first : Char} (notMark : first.toNat ≠ 0xfeff)
    (before rest : List Char) :
    dropMark (before ++ first :: rest) = dropMark before ++ first :: rest := by
  cases before with
  | nil => simp [dropMark, notMark]
  | cons char before => exact dropMark_append_of_ne_nil (by simp) _

/-- What a reader of a stream sees of its bytes. -/
def textOf (bytes : List UInt8) : List Char := dropMark (decode bytes)

/-- The characters that the bytes so far complete. -/
def readSoFar (bytes : List UInt8) : List Char :=
  dropMark (Decoder.ready.run bytes).1

theorem readSoFar_isPrefix (before after : List UInt8) :
    readSoFar before <+: textOf (before ++ after) := by
  unfold readSoFar textOf decode
  rw [Decoder.run_append, List.append_assoc]
  cases (Decoder.ready.run before).1 with
  | nil => exact List.nil_prefix
  | cons char rest =>
      rw [dropMark_append_of_ne_nil (by simp)]
      exact List.prefix_append _ _

/-- The text is what was read, and a replacement for a sequence left open. -/
theorem textOf_eq (bytes : List UInt8) :
    textOf bytes = readSoFar bytes ++ (Decoder.ready.run bytes).2.flush := by
  unfold readSoFar textOf decode
  dsimp only
  cases (Decoder.ready.run bytes).1 with
  | nil =>
      cases (Decoder.ready.run bytes).2 with
      | ready => rfl
      | inside more code range => rfl
  | cons char rest => exact dropMark_append_of_ne_nil (by simp) _

theorem textOf_append_ascii (bytes : List UInt8) {byte : UInt8}
    (isAscii : byte.toNat < 0x80) :
    textOf (bytes ++ [byte]) = textOf bytes ++ [Char.ofNat byte.toNat] := by
  have notMark : (Char.ofNat byte.toNat).toNat ≠ 0xfeff := by
    rw [toNat_ofNat (.inl (by omega))]
    omega
  unfold textOf
  rw [decode_append_ascii bytes isAscii, decode_nil,
    dropMark_append notMark]

/-- A byte that is not ASCII changes the text at its end only, and adds no
ASCII character. -/
theorem textOf_append_wide (bytes : List UInt8) {byte : UInt8}
    (notAscii : 0x80 ≤ byte.toNat) :
    ∃ more, textOf (bytes ++ [byte]) = readSoFar bytes ++ more ∧
      ∀ char ∈ more, 0x80 ≤ char.toNat := by
  have sound : (Decoder.ready.run bytes).2.Sound :=
    Decoder.Sound.run (.inl rfl) bytes
  obtain ⟨wide, _⟩ := sound.feed_wide notAscii
  have flushed (decoder : Decoder) :
      ∀ char ∈ decoder.flush, 0x80 ≤ char.toNat := by
    cases decoder with
    | ready => exact nofun
    | inside more code range =>
        intro char member
        rw [List.mem_singleton.mp member]
        decide
  have added : ∀ char ∈ ((Decoder.ready.run bytes).2.feed byte).1 ++
      ((Decoder.ready.run bytes).2.feed byte).2.flush, 0x80 ≤ char.toNat := by
    intro char member
    rcases List.mem_append.mp member with emitted | pending
    · exact wide char emitted
    · exact flushed _ char pending
  generalize isMore : ((Decoder.ready.run bytes).2.feed byte).1 ++
    ((Decoder.ready.run bytes).2.feed byte).2.flush = more at added
  have whole : decode (bytes ++ [byte]) =
      (Decoder.ready.run bytes).1 ++ more := by
    rw [← isMore, decode, Decoder.run_append]
    simp [Decoder.run]
  unfold textOf readSoFar
  rw [whole]
  cases (Decoder.ready.run bytes).1 with
  | nil =>
      refine ⟨dropMark more, rfl, ?_⟩
      intro char member
      apply added
      cases more with
      | nil => exact member
      | cons first rest =>
          rw [dropMark] at member
          split at member
          · exact List.mem_cons_of_mem _ member
          · exact member
  | cons first rest =>
      exact ⟨more, dropMark_append_of_ne_nil (List.cons_ne_nil _ _) _, added⟩

end Foundation.Utf8
