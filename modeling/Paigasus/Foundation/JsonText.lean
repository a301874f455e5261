import Paigasus.Foundation.Decimal

/-!
# JSON texts as JavaScript writes and reads them

`stringify` and `parse` are `JSON.stringify` and `JSON.parse` on the values that
JSON can carry.  The parser accepts the whole grammar, whitespace and all
escapes included; it reads back what `stringify` has written.
-/

namespace Foundation

/-- A value that JSON can carry.  The fields of an object come in the order in
which JavaScript enumerates them. -/
inductive JsValue where
  | null
  | bool (value : Bool)
  | number (value : Decimal)
  | string (text : String)
  | array (items : List JsValue)
  | object (fields : List (String × JsValue))

namespace JsValue

/-- No object has two fields of one name. -/
inductive WellFormed : JsValue → Prop where
  | null : WellFormed .null
  | bool (value : Bool) : WellFormed (.bool value)
  | number (value : Decimal) : WellFormed (.number value)
  | string (text : String) : WellFormed (.string text)
  | array {items : List JsValue} (all : ∀ item ∈ items, WellFormed item) :
      WellFormed (.array items)
  | object {fields : List (String × JsValue)}
      (distinct : (fields.map Prod.fst).Nodup)
      (all : ∀ field ∈ fields, WellFormed field.2) :
      WellFormed (.object fields)

/-- The own property of an object; nothing else has properties here. -/
def field (name : String) : JsValue → Option JsValue
  | .object fields => fields.lookup name
  | _ => none

end JsValue

namespace JsonText

/-- The characters that are written with a letter after a backslash. -/
def shortEscapes : List (Char × Char) :=
  [('"', '"'), ('\\', '\\'), ('\x08', 'b'), ('\x0c', 'f'), ('\n', 'n'),
    ('\r', 'r'), ('\t', 't')]

/-- The escape of one character in `JSON.stringify`. -/
def escapeChar (char : Char) : List Char :=
  match shortEscapes.lookup char with
  | some letter => ['\\', letter]
  | none =>
      if char.toNat < 32 then
        ['\\', 'u', '0', '0', Nat.digitChar (char.toNat / 16),
          Nat.digitChar (char.toNat % 16)]
      else [char]

def quote (text : String) : List Char :=
  '"' :: text.toList.flatMap escapeChar ++ ['"']

/-- The texts with a comma between two of them. -/
def separated : List (List Char) → List Char
  | [] => []
  | [text] => text
  | text :: next :: texts => text ++ ',' :: separated (next :: texts)

mutual

def text : JsValue → List Char
  | .null => ['n', 'u', 'l', 'l']
  | .bool true => ['t', 'r', 'u', 'e']
  | .bool false => ['f', 'a', 'l', 's', 'e']
  | .number value => value.text
  | .string value => quote value
  | .array items => '[' :: separated (texts items) ++ [']']
  | .object fields => '\x7b' :: separated (fieldTexts fields) ++ ['\x7d']

def texts : List JsValue → List (List Char)
  | [] => []
  | item :: items => text item :: texts items

def fieldTexts : List (String × JsValue) → List (List Char)
  | [] => []
  | (name, value) :: fields =>
      (quote name ++ ':' :: text value) :: fieldTexts fields

end

/-- `JSON.stringify`. -/
def stringify (value : JsValue) : String := String.ofList (text value)

def isSpace (char : Char) : Bool :=
  char = ' ' || char = '\t' || char = '\n' || char = '\r'

def skipSpace (text : List Char) : List Char := text.dropWhile isSpace

def hexValue (char : Char) : Option Nat :=
  if char.isDigit then some (char.toNat - 48)
  else if 'a' ≤ char ∧ char ≤ 'f' then some (char.toNat - 87)
  else if 'A' ≤ char ∧ char ≤ 'F' then some (char.toNat - 55)
  else none

/-- The code unit of a `\u` escape. -/
def readUnit : List Char → Option (Nat × List Char)
  | first :: second :: third :: fourth :: rest =>
      match hexValue first, hexValue second, hexValue third,
          hexValue fourth with
      | some first, some second, some third, some fourth =>
          some (((first * 16 + second) * 16 + third) * 16 + fourth, rest)
      | _, _, _, _ => none
  | _ => none

/-- The character of a `\u` escape, or of the two that make a surrogate pair.  A
surrogate that stands alone is no character. -/
def readUnicode (text : List Char) : Option (Char × List Char) :=
  match readUnit text with
  | none => none
  | some (unit, rest) =>
      if 0xD800 ≤ unit ∧ unit < 0xDC00 then
        match rest with
        | '\\' :: 'u' :: rest =>
            match readUnit rest with
            | none => none
            | some (low, rest) =>
                if 0xDC00 ≤ low ∧ low < 0xE000 then
                  some (Char.ofNat (0x10000 + (unit - 0xD800) * 0x400 +
                    (low - 0xDC00)), rest)
                else none
        | _ => none
      else if 0xDC00 ≤ unit ∧ unit < 0xE000 then none
      else some (Char.ofNat unit, rest)

/-- The letters after a backslash; a slash may be written so, too. -/
def letterEscapes : List (Char × Char) :=
  ('/', '/') :: shortEscapes.map Prod.swap

/-- What follows a backslash. -/
def readEscape : List Char → Option (Char × List Char)
  | [] => none
  | mark :: rest =>
      match letterEscapes.lookup mark with
      | some char => some (char, rest)
      | none => if mark = 'u' then readUnicode rest else none

/-- The characters up to the closing quotation mark. -/
def readChars : Nat → List Char → Option (List Char × List Char)
  | 0, _ => none
  | _ + 1, [] => none
  | fuel + 1, char :: rest =>
      if char = '"' then some ([], rest)
      else if char = '\\' then
        match readEscape rest with
        | none => none
        | some (char, rest) =>
            (readChars fuel rest).map fun (chars, rest) => (char :: chars, rest)
      else if char.toNat < 32 then none
      else
        (readChars fuel rest).map fun (chars, rest) => (char :: chars, rest)

/-- A string whose opening quotation mark was read. -/
def readString (text : List Char) : Option (String × List Char) :=
  (readChars (text.length + 1) text).map fun (chars, rest) =>
    (String.ofList chars, rest)

/-- One or more items with a comma between two, and the closing character. -/
def readSeparated {Item : Type} (close : Char)
    (read : List Char → Option (Item × List Char)) :
    Nat → List Char → Option (List Item × List Char)
  | 0, _ => none
  | fuel + 1, text =>
      match read text with
      | none => none
      | some (item, rest) =>
          match skipSpace rest with
          | [] => none
          | next :: rest =>
              if next = close then some ([item], rest)
              else if next = ',' then
                (readSeparated close read fuel rest).map fun (items, rest) =>
                  (item :: items, rest)
              else none

/-- Any number of items, and the closing character. -/
def readItems {Item : Type} (close : Char)
    (read : List Char → Option (Item × List Char)) (text : List Char) :
    Option (List Item × List Char) :=
  match skipSpace text with
  | [] => none
  | next :: rest =>
      if next = close then some ([], rest)
      else readSeparated close read (rest.length + 1) (next :: rest)

def readField (read : List Char → Option (JsValue × List Char))
    (text : List Char) : Option ((String × JsValue) × List Char) :=
  match skipSpace text with
  | '"' :: rest =>
      match readString rest with
      | none => none
      | some (name, rest) =>
          match skipSpace rest with
          | ':' :: rest =>
              (read rest).map fun (value, rest) => ((name, value), rest)
          | _ => none
  | _ => none

/-- A field of a name that exists replaces its value. -/
def setField (fields : List (String × JsValue))
    (field : String × JsValue) : List (String × JsValue) :=
  if field.1 ∈ fields.map Prod.fst then
    fields.map fun old => if old.1 = field.1 then field else old
  else fields ++ [field]

def readValue : Nat → List Char → Option (JsValue × List Char)
  | 0, _ => none
  | depth + 1, text =>
      match skipSpace text with
      | 'n' :: 'u' :: 'l' :: 'l' :: rest => some (.null, rest)
      | 't' :: 'r' :: 'u' :: 'e' :: rest => some (.bool true, rest)
      | 'f' :: 'a' :: 'l' :: 's' :: 'e' :: rest => some (.bool false, rest)
      | '"' :: rest =>
          (readString rest).map fun (value, rest) => (.string value, rest)
      | '[' :: rest =>
          (readItems ']' (readValue depth) rest).map fun (items, rest) =>
            (.array items, rest)
      | '\x7b' :: rest =>
          (readItems '\x7d' (readField (readValue depth)) rest).map
            fun (fields, rest) => (.object (fields.foldl setField []), rest)
      | text => (readNumber text).map fun (value, rest) => (.number value, rest)

/-- `JSON.parse`; `none` is a `SyntaxError`. -/
def parse (source : String) : Option JsValue :=
  match readValue (source.toList.length + 1) source.toList with
  | none => none
  | some (value, rest) => if skipSpace rest = [] then some value else none

section RoundTrip

variable {rest : List Char}

theorem readUnit_control : ∀ code < 32, ∀ rest : List Char,
    readUnit ('0' :: '0' :: Nat.digitChar (code / 16) ::
      Nat.digitChar (code % 16) :: rest) = some (code, rest) := by
  intro code small rest
  have table : ∀ code < 32,
      hexValue (Nat.digitChar (code / 16)) = some (code / 16) ∧
        hexValue (Nat.digitChar (code % 16)) = some (code % 16) := by decide
  obtain ⟨high, low⟩ := table code small
  have zero : hexValue '0' = some 0 := rfl
  simp only [readUnit, zero, high, low]
  congr 2
  omega

/-- One written character is read back. -/
theorem readChars_escapeChar (fuel : Nat) (char : Char) :
    readChars (fuel + 1) (escapeChar char ++ rest) =
      (readChars fuel rest).map fun (chars, rest) => (char :: chars, rest) := by
  unfold escapeChar
  split
  case h_1 letter isShort =>
    have table : ∀ pair ∈ shortEscapes,
        letterEscapes.lookup pair.2 = some pair.1 := by decide
    have member : (char, letter) ∈ shortEscapes := by
      obtain ⟨before, after, split, _⟩ := List.lookup_eq_some_iff.mp isShort
      rw [split]
      exact List.mem_append_right _ List.mem_cons_self
    have back : letterEscapes.lookup letter = some char := table _ member
    simp [readChars, readEscape, back]
  case h_2 noShort =>
    split
    case isTrue small =>
      have unit := readUnit_control char.toNat small rest
      have noHigh : ¬ (0xD800 ≤ char.toNat ∧ char.toNat < 0xDC00) := by omega
      have noLow : ¬ (0xDC00 ≤ char.toNat ∧ char.toNat < 0xE000) := by omega
      have noLetter : letterEscapes.lookup 'u' = none := rfl
      simp [readChars, readEscape, readUnicode, noLetter, unit, noHigh, noLow]
    case isFalse large =>
      have notQuote : char ≠ '"' := by
        rintro rfl
        cases noShort
      have notBackslash : char ≠ '\\' := by
        rintro rfl
        cases noShort
      simp [readChars, notQuote, notBackslash, large]

theorem length_escapeChar_pos (char : Char) : 0 < (escapeChar char).length := by
  unfold escapeChar
  split
  case h_1 => exact Nat.succ_pos _
  case h_2 =>
    split
    case isTrue => exact Nat.succ_pos _
    case isFalse => exact Nat.succ_pos _

theorem readChars_flatMap {chars : List Char} {fuel : Nat}
    (enough : chars.length < fuel) :
    readChars fuel (chars.flatMap escapeChar ++ '"' :: rest) =
      some (chars, rest) := by
  induction chars generalizing fuel with
  | nil =>
      cases fuel with
      | zero => cases enough
      | succ fuel => rfl
  | cons char chars ih =>
      cases fuel with
      | zero => cases enough
      | succ fuel =>
          rw [List.flatMap_cons, List.append_assoc, readChars_escapeChar,
            ih (Nat.lt_of_succ_lt_succ enough)]
          rfl

theorem length_le_flatMap_escapeChar (chars : List Char) :
    chars.length ≤ (chars.flatMap escapeChar).length := by
  induction chars with
  | nil => exact Nat.le_refl _
  | cons char chars ih =>
      have positive := length_escapeChar_pos char
      rw [List.flatMap_cons, List.length_append, List.length_cons]
      omega

theorem readString_quote (value : String) :
    readString (value.toList.flatMap escapeChar ++ '"' :: rest) =
      some (value, rest) := by
  have enough : value.toList.length <
      (value.toList.flatMap escapeChar ++ '"' :: rest).length + 1 := by
    have written := length_le_flatMap_escapeChar value.toList
    rw [List.length_append]
    omega
  unfold readString
  rw [readChars_flatMap enough]
  simp

/-- What a reader of one item must do: it reads the text of the item back when a
comma or the closing character follows. -/
def Reads {Item : Type} (close : Char)
    (read : List Char → Option (Item × List Char)) (write : Item → List Char)
    (item : Item) : Prop :=
  ∀ next rest, next = ',' ∨ next = close →
    read (write item ++ next :: rest) = some (item, next :: rest)

section Items

variable {Item : Type} {close : Char}
  {read : List Char → Option (Item × List Char)} {write : Item → List Char}

theorem separated_cons_cons (first second : Item) (others : List Item) :
    separated ((first :: second :: others).map write) =
      write first ++ ',' :: separated ((second :: others).map write) := rfl

theorem length_le_separated (write : Item → List Char) {items : List Item}
    {item : Item} (member : item ∈ items) :
    (write item).length ≤ (separated (items.map write)).length := by
  induction items with
  | nil => cases member
  | cons first items ih =>
      cases items with
      | nil =>
          cases List.mem_singleton.mp member
          exact Nat.le_refl _
      | cons second others =>
          rw [separated_cons_cons, List.length_append, List.length_cons]
          rcases List.mem_cons.mp member with rfl | later
          · omega
          · have bound := ih later
            omega

theorem count_le_separated (write : Item → List Char) (items : List Item) :
    items.length ≤ (separated (items.map write)).length + 1 := by
  induction items with
  | nil => exact Nat.zero_le _
  | cons first items ih =>
      cases items with
      | nil => exact Nat.succ_le_succ (Nat.zero_le _)
      | cons second others =>
          simp only [separated_cons_cons, List.length_append,
            List.length_cons] at ih ⊢
          omega

theorem readSeparated_separated (noSpace : isSpace close = false)
    (noComma : close ≠ ',') {items : List Item} {fuel : Nat}
    (nonempty : items ≠ []) (enough : items.length ≤ fuel)
    (reads : ∀ item ∈ items, Reads close read write item) :
    readSeparated close read fuel
      (separated (items.map write) ++ close :: rest) = some (items, rest) := by
  have stops : skipSpace (close :: rest) = close :: rest := by
    simp [skipSpace, noSpace]
  induction items generalizing fuel with
  | nil => exact absurd rfl nonempty
  | cons first items ih =>
      cases fuel with
      | zero => cases enough
      | succ fuel =>
          cases items with
          | nil =>
              have item : read (separated [write first] ++ close :: rest) =
                  some (first, close :: rest) :=
                reads first List.mem_cons_self close rest (.inr rfl)
              simp [readSeparated, item, stops]
          | cons second others =>
              have item := reads first List.mem_cons_self ','
                (separated (List.map write (second :: others)) ++
                  close :: rest) (.inl rfl)
              have later := ih (List.cons_ne_nil _ _)
                (Nat.le_of_succ_le_succ enough)
                (fun item member => reads item (List.mem_cons_of_mem _ member))
              have comma : skipSpace (',' :: (separated
                  (List.map write (second :: others)) ++ close :: rest)) =
                ',' :: (separated (List.map write (second :: others)) ++
                  close :: rest) := rfl
              unfold readSeparated
              rw [separated_cons_cons, List.append_assoc, List.cons_append,
                item]
              simp only [comma, if_neg noComma.symm, ↓reduceIte, later,
                Option.map_some]

theorem readItems_separated (noSpace : isSpace close = false)
    (noComma : close ≠ ',') {items : List Item}
    (starts : ∀ item ∈ items, ∃ first others, write item = first :: others ∧
      isSpace first = false ∧ first ≠ close)
    (reads : ∀ item ∈ items, Reads close read write item) :
    readItems close read (separated (items.map write) ++ close :: rest) =
      some (items, rest) := by
  cases items with
  | nil =>
      have stops : skipSpace (close :: rest) = close :: rest := by
        simp [skipSpace, noSpace]
      simp [readItems, separated, stops]
  | cons item items =>
      obtain ⟨first, others, written, firstNoSpace, notClose⟩ :=
        starts item List.mem_cons_self
      have nonempty : ∃ tail, separated ((item :: items).map write) =
          first :: tail := by
        cases items with
        | nil => exact ⟨others, written⟩
        | cons second more =>
            rw [separated_cons_cons, written]
            exact ⟨_, rfl⟩
      obtain ⟨tail, isTail⟩ := nonempty
      have enough : (item :: items).length ≤
          (tail ++ close :: rest).length + 1 := by
        have count := count_le_separated write (item :: items)
        rw [isTail] at count
        simp only [List.length_append, List.length_cons] at count ⊢
        omega
      have found : readSeparated close read
          ((tail ++ close :: rest).length + 1)
          (separated ((item :: items).map write) ++ close :: rest) =
            some (item :: items, rest) :=
        readSeparated_separated noSpace noComma (List.cons_ne_nil item items)
          enough reads
      rw [isTail, List.cons_append] at found ⊢
      have skipped : skipSpace (first :: (tail ++ close :: rest)) =
          first :: (tail ++ close :: rest) := by
        simp [skipSpace, firstNoSpace]
      unfold readItems
      rw [skipped]
      simp only [if_neg notClose, found]

end Items

theorem texts_eq_map (items : List JsValue) : texts items = items.map text := by
  induction items with
  | nil => rfl
  | cons item items ih => rw [texts, ih, List.map_cons]

def fieldText (field : String × JsValue) : List Char :=
  quote field.1 ++ ':' :: text field.2

theorem fieldTexts_eq_map (fields : List (String × JsValue)) :
    fieldTexts fields = fields.map fieldText := by
  induction fields with
  | nil => rfl
  | cons field fields ih => rw [fieldTexts, ih, List.map_cons, fieldText]

/-- Distinct fields are all kept, in their order. -/
theorem foldl_setField {fields : List (String × JsValue)}
    (distinct : (fields.map Prod.fst).Nodup) :
    fields.foldl setField [] = fields := by
  suffices general : ∀ found : List (String × JsValue),
      ((found ++ fields).map Prod.fst).Nodup →
        fields.foldl setField found = found ++ fields from general [] distinct
  clear distinct
  induction fields with
  | nil =>
      intro found _
      rw [List.foldl_nil, List.append_nil]
  | cons field fields ih =>
      intro found distinct
      have split : found ++ field :: fields = found ++ [field] ++ fields := by
        simp
      have isNew : field.1 ∉ found.map Prod.fst := by
        rw [List.map_append, List.nodup_append] at distinct
        intro member
        exact distinct.2.2 field.1 member field.1 List.mem_cons_self rfl
      rw [List.foldl_cons, setField, if_neg isNew, split]
      rw [split] at distinct
      exact ih _ distinct

/-- The text of a value starts with a character that is neither a space nor the
end of an array. -/
theorem text_starts (value : JsValue) : ∃ first others,
    text value = first :: others ∧ isSpace first = false ∧ first ≠ ']' := by
  cases value with
  | null => exact ⟨_, _, rfl, rfl, by decide⟩
  | bool value =>
      cases value with
      | true => exact ⟨_, _, rfl, rfl, by decide⟩
      | false => exact ⟨_, _, rfl, rfl, by decide⟩
  | number value =>
      obtain ⟨first, others, written, starts⟩ := value.text_starts
      refine ⟨first, others, written, ?_, ?_⟩
      · cases space : isSpace first with
        | false => rfl
        | true =>
            simp only [isSpace, Bool.or_eq_true, decide_eq_true_eq] at space
            rcases space with ((rfl | rfl) | rfl) | rfl
            all_goals
              rcases starts with same | isDigit
              · cases same
              · cases isDigit
      · rintro rfl
        rcases starts with same | isDigit
        · cases same
        · cases isDigit
  | string value => exact ⟨_, _, rfl, rfl, by decide⟩
  | array items => exact ⟨_, _, rfl, rfl, by decide⟩
  | object fields => exact ⟨_, _, rfl, rfl, by decide⟩

theorem readValue_number (value : Decimal) (depth : Nat)
    (ends : endsNumber rest = true) :
    readValue (depth + 1) (value.text ++ rest) =
      some (.number value, rest) := by
  obtain ⟨first, others, written, starts⟩ := value.text_starts
  obtain ⟨_, _, same, noSpace, _⟩ := text_starts (.number value)
  have read := readNumber_text value ends
  have skipped : skipSpace (value.text ++ rest) = value.text ++ rest := by
    have sameText : value.text = _ := same
    rw [sameText]
    simp [skipSpace, noSpace]
  have other (char : Char) (tail : List Char)
      (isHead : value.text ++ rest = char :: tail) (noSign : char ≠ '-')
      (noDigit : char.isDigit = false) : False := by
    rw [written] at isHead
    cases isHead
    rcases starts with isSign | isDigit
    · exact noSign isSign
    · rw [noDigit] at isDigit
      cases isDigit
  unfold readValue
  rw [skipped]
  split
  case h_1 isHead => exact (other _ _ isHead (by decide) rfl).elim
  case h_2 isHead => exact (other _ _ isHead (by decide) rfl).elim
  case h_3 isHead => exact (other _ _ isHead (by decide) rfl).elim
  case h_4 isHead => exact (other _ _ isHead (by decide) rfl).elim
  case h_5 isHead => exact (other _ _ isHead (by decide) rfl).elim
  case h_6 isHead => exact (other _ _ isHead (by decide) rfl).elim
  case h_7 =>
    rw [read]
    rfl

theorem readField_fieldText {field : String × JsValue} {depth : Nat}
    (reads : readValue depth (text field.2 ++ rest) = some (field.2, rest)) :
    readField (readValue depth) (fieldText field ++ rest) =
      some (field, rest) := by
  have written : fieldText field ++ rest =
      '"' :: (field.1.toList.flatMap escapeChar ++
        '"' :: ':' :: (text field.2 ++ rest)) := by
    simp [fieldText, quote]
  have skipped (tail : List Char) : skipSpace ('"' :: tail) = '"' :: tail := rfl
  have colon (tail : List Char) : skipSpace (':' :: tail) = ':' :: tail := rfl
  rw [written]
  simp only [readField, skipped, readString_quote, colon, reads,
    Option.map_some]

theorem readValue_text {value : JsValue} (wellFormed : value.WellFormed)
    {depth : Nat} (enough : (text value).length ≤ depth)
    (ends : endsNumber rest = true) :
    readValue (depth + 1) (text value ++ rest) = some (value, rest) := by
  induction wellFormed generalizing depth rest with
  | null => rfl
  | bool value =>
      cases value with
      | true => rfl
      | false => rfl
  | number value => exact readValue_number value depth ends
  | string value =>
      have written : text (.string value) ++ rest =
          '"' :: (value.toList.flatMap escapeChar ++ '"' :: rest) := by
        simp [text, quote]
      have read : readValue (depth + 1)
          ('"' :: (value.toList.flatMap escapeChar ++ '"' :: rest)) =
        (readString (value.toList.flatMap escapeChar ++ '"' :: rest)).map
          fun (value, rest) => (.string value, rest) := rfl
      rw [written, read, readString_quote]
      rfl
  | @array items all ih =>
      have written : text (.array items) ++ rest =
          '[' :: (separated (items.map text) ++ ']' :: rest) := by
        simp [text, texts_eq_map]
      have long : (separated (items.map text)).length + 2 ≤ depth := by
        have whole : (text (.array items)).length =
            (separated (items.map text)).length + 2 := by
          simp [text, texts_eq_map]
        omega
      obtain ⟨inner, rfl⟩ : ∃ inner, depth = inner + 1 :=
        ⟨depth - 1, by omega⟩
      have read : readItems ']' (readValue (inner + 1))
          (separated (items.map text) ++ ']' :: rest) = some (items, rest) := by
        apply readItems_separated rfl (by decide)
        · intro item _
          exact text_starts item
        · intro item member next rest stops
          have short := length_le_separated text member
          apply ih item member
          · omega
          · rcases stops with rfl | rfl
            all_goals rfl
      have opened (tail : List Char) : readValue (inner + 1 + 1) ('[' :: tail) =
          (readItems ']' (readValue (inner + 1)) tail).map
            fun (items, rest) => (.array items, rest) := rfl
      rw [written, opened, read]
      rfl
  | @object fields distinct all ih =>
      have written : text (.object fields) ++ rest =
          '\x7b' :: (separated (fields.map fieldText) ++ '\x7d' :: rest) := by
        simp [text, fieldTexts_eq_map]
      have long : (separated (fields.map fieldText)).length + 2 ≤ depth := by
        have whole : (text (.object fields)).length =
            (separated (fields.map fieldText)).length + 2 := by
          simp [text, fieldTexts_eq_map]
        omega
      obtain ⟨inner, rfl⟩ : ∃ inner, depth = inner + 1 :=
        ⟨depth - 1, by omega⟩
      have read : readItems '\x7d' (readField (readValue (inner + 1)))
          (separated (fields.map fieldText) ++ '\x7d' :: rest) =
            some (fields, rest) := by
        apply readItems_separated rfl (by decide)
        · intro field _
          exact ⟨_, _, rfl, rfl, by decide⟩
        · intro field member next rest stops
          have short := length_le_separated fieldText member
          have inside : (text field.2).length ≤ (fieldText field).length := by
            simp [fieldText]
            omega
          apply readField_fieldText
          apply ih field member
          · omega
          · rcases stops with rfl | rfl
            all_goals rfl
      have opened (tail : List Char) :
          readValue (inner + 1 + 1) ('\x7b' :: tail) =
            (readItems '\x7d' (readField (readValue (inner + 1))) tail).map
              fun (fields, rest) => (.object (fields.foldl setField []), rest) :=
        rfl
      rw [written, opened, read]
      simp [foldl_setField distinct]

/-- What `stringify` has written is read back. -/
theorem parse_stringify {value : JsValue} (wellFormed : value.WellFormed) :
    parse (stringify value) = some value := by
  have read : readValue ((text value).length + 1) (text value ++ []) =
      some (value, []) := readValue_text wellFormed (Nat.le_refl _) rfl
  rw [List.append_nil] at read
  simp [parse, stringify, read, skipSpace]

end RoundTrip

end JsonText

end Foundation
