import Paigasus.Foundation.JsonGrammar
import Paigasus.Gateway.UsageScanner

/-!
# The search before the usage is parsed

A record is parsed only when a search of its bytes finds the key `usage` and an
opening brace behind its colon.  Where that key is spelled without escapes, the
search finds it in every record that reports a usage, so that it changes
nothing.
-/

namespace Paigasus.Gateway

open Foundation JsonGrammar

def encode (text : List Char) : List UInt8 :=
  text.flatMap String.utf8EncodeChar

theorem encode_append (first second : List Char) :
    encode (first ++ second) = encode first ++ encode second :=
  List.flatMap_append

/-- What the reader reads is the total of a JSON text; it may refuse texts that
are nested too deeply or hold too large numbers. -/
def JsonReader.ReadsJson (json : JsonReader) : Prop :=
  ∀ data total, json.usageTotal data = some total →
    ∃ text value, data = encode text ∧ IsText text value ∧
      (value.pointer ["usage", "total_tokens"]).bind Json.asU64 = some total

/-- The members named `usage` of a record are spelled without escapes. -/
def SpelledPlainly (data : List UInt8) : Prop :=
  ∀ text members, data = encode text → IsObjectText text members →
    ∀ member ∈ members, member.name = "usage" → member.raw = "usage".toList

/-- `dispatch` without the search: every record is parsed. -/
def UsageScanner.dispatchParsed (json : JsonReader) (scanner : UsageScanner) :
    UsageScanner :=
  if scanner.data = utf8 "[DONE]" then
    scanner
  else
    match json.usageTotal scanner.data with
    | some total => { scanner with reported := some total }
    | none =>
        { scanner with records := U64.saturatingAdd scanner.records 1 }

section Search

theorem hasUsageObject_of_no_key {data : List UInt8}
    (noKey : afterUsageKey data = none) : hasUsageObject data = false := by
  rw [hasUsageObject]
  split
  case h_1 => rfl
  case h_2 rest found =>
    rw [noKey] at found
    cases found

theorem hasUsageObject_key {data : List UInt8}
    (here : usageKey.isPrefixOf data = true) :
    hasUsageObject data = (opensObject (data.drop usageKey.length) ||
      hasUsageObject (data.drop usageKey.length)) := by
  cases data with
  | nil => cases here
  | cons byte rest =>
      rw [hasUsageObject]
      split
      case h_1 none =>
        unfold afterUsageKey at none
        rw [if_pos here] at none
        cases none
      case h_2 behind found =>
        unfold afterUsageKey at found
        rw [if_pos here] at found
        cases found
        rfl

theorem hasUsageObject_cons {byte : UInt8} {rest : List UInt8}
    (notHere : usageKey.isPrefixOf (byte :: rest) = false) :
    hasUsageObject (byte :: rest) = hasUsageObject rest := by
  have same : afterUsageKey (byte :: rest) = afterUsageKey rest := by
    rw [afterUsageKey, if_neg (by simp [notHere])]
  rw [hasUsageObject, hasUsageObject]
  split
  case h_1 none =>
    rw [same] at none
    split
    case h_1 => rfl
    case h_2 behind found =>
      rw [none] at found
      cases found
  case h_2 behind found =>
    rw [same] at found
    split
    case h_1 none =>
      rw [none] at found
      cases found
    case h_2 other isOther =>
      rw [found] at isOther
      cases isOther
      rfl

/-- Two occurrences of the key share at most a quotation mark, and then the
later one follows an `e`. -/
theorem usageKey_apart {before rest : List UInt8} (nonempty : before ≠ [])
    (here : usageKey.isPrefixOf (before ++ usageKey ++ rest) = true)
    (ends : before.getLast? ≠ some 101) :
    ∃ middle, before = usageKey ++ middle := by
  have key : usageKey = [34, 117, 115, 97, 103, 101, 34] := by decide
  rw [key] at here ⊢
  match before with
  | [] => exact absurd rfl nonempty
  | [_] | [_, _] | [_, _, _] | [_, _, _, _] | [_, _, _, _, _] =>
      simp [List.isPrefixOf] at here
  | [_, _, _, _, _, last] =>
      simp [List.isPrefixOf] at here
      simp [here] at ends
  | first :: second :: third :: fourth :: fifth :: sixth :: seventh :: middle =>
      simp only [List.cons_append, List.isPrefixOf, Bool.and_eq_true,
        beq_iff_eq] at here
      obtain ⟨rfl, rfl, rfl, rfl, rfl, rfl, rfl, -⟩ := here
      exact ⟨middle, rfl⟩

/-- The search finds every occurrence of the key that does not follow an `e`. -/
theorem hasUsageObject_append {before rest : List UInt8}
    (opens : opensObject rest = true) (ends : before.getLast? ≠ some 101) :
    hasUsageObject (before ++ usageKey ++ rest) = true := by
  induction size : before.length using Nat.strong_induction_on
    generalizing before with
  | h size ih =>
      subst size
      cases shape : before with
      | nil =>
          rw [List.nil_append, hasUsageObject_key (by simp), List.drop_left,
            opens, Bool.true_or]
      | cons byte front =>
          rw [shape] at ends
          cases here : usageKey.isPrefixOf
              ((byte :: front) ++ usageKey ++ rest) with
          | true =>
              obtain ⟨middle, isBefore⟩ :=
                usageKey_apart (List.cons_ne_nil _ _) here ends
              have keyLength : usageKey.length = 7 := by decide
              rw [hasUsageObject_key here, isBefore, List.append_assoc,
                List.append_assoc, List.drop_left, ← List.append_assoc]
              have shorter : middle.length < before.length := by
                rw [shape, isBefore, List.length_append]
                omega
              have stillEnds : middle.getLast? ≠ some 101 := by
                cases middle with
                | nil => nofun
                | cons head tail =>
                    rw [isBefore, List.getLast?_append_cons] at ends
                    exact ends
              rw [ih middle.length shorter stillEnds rfl, Bool.or_true]
          | false =>
              have step : hasUsageObject (byte :: front ++ usageKey ++ rest) =
                  hasUsageObject (front ++ usageKey ++ rest) :=
                hasUsageObject_cons here
              rw [step]
              have stillEnds : front.getLast? ≠ some 101 := by
                cases front with
                | nil => nofun
                | cons head tail => exact ends
              exact ih front.length (by rw [shape]; simp) stillEnds rfl

end Search

section Prefilter

/-- What stands before a member: a brace, a comma or white space. -/
def Opens (char : Char) : Prop :=
  JsonText.isSpace char = true ∨ char = '\x7b' ∨ char = ','

theorem encode_space {char : Char} (isSpace : JsonText.isSpace char = true) :
    ∃ byte, encode [char] = [byte] ∧ isAsciiWhitespace byte = true := by
  simp only [JsonText.isSpace, Bool.or_eq_true, decide_eq_true_eq] at isSpace
  rcases isSpace with ((rfl | rfl) | rfl) | rfl
  · exact ⟨32, by decide, by decide⟩
  · exact ⟨9, by decide, by decide⟩
  · exact ⟨10, by decide, by decide⟩
  · exact ⟨13, by decide, by decide⟩

theorem encode_opens {char : Char} (opens : Opens char) :
    ∃ byte, encode [char] = [byte] ∧ byte ≠ 101 := by
  rcases opens with isSpace | rfl | rfl
  · obtain ⟨byte, encoded, isWhite⟩ := encode_space isSpace
    refine ⟨byte, encoded, ?_⟩
    rintro rfl
    exact absurd isWhite (by decide)
  · exact ⟨123, by decide, by decide⟩
  · exact ⟨44, by decide, by decide⟩

/-- White space at the start is skipped. -/
theorem trimStart_spaces {spaces : List Char} {byte : UInt8}
    {rest : List UInt8} (isSpaces : IsSpaces spaces)
    (stays : isAsciiWhitespace byte = false) :
    trimStart (encode spaces ++ byte :: rest) = byte :: rest := by
  induction spaces with
  | nil => exact List.dropWhile_cons_of_neg (by simp [stays])
  | cons char spaces ih =>
      obtain ⟨white, encoded, isWhite⟩ := encode_space
        (isSpaces char List.mem_cons_self)
      have later := ih fun other member =>
        isSpaces other (List.mem_cons_of_mem _ member)
      have split : encode (char :: spaces) = white :: encode spaces := by
        rw [← List.singleton_append, encode_append, encoded]
        rfl
      rw [split, List.cons_append]
      exact (List.dropWhile_cons_of_pos isWhite).trans later

theorem opensObject_spaced {between behind rest : List Char}
    (isBetween : IsSpaces between) (isBehind : IsSpaces behind) :
    opensObject (encode (between ++ ':' :: behind ++ '\x7b' :: rest)) =
      true := by
  have colon : encode (between ++ ':' :: behind ++ '\x7b' :: rest) =
      encode between ++ 58 :: (encode behind ++ 123 :: encode rest) := by
    rw [List.append_assoc, List.cons_append, encode_append,
      ← List.singleton_append, encode_append, encode_append,
      ← List.singleton_append, encode_append]
    rfl
  rw [colon]
  unfold opensObject
  rw [trimStart_spaces isBetween (by decide)]
  change decide ((trimStart (encode behind ++ 123 :: encode rest)).head? =
    some 123) = true
  rw [trimStart_spaces isBehind (by decide)]
  rfl

theorem getLast?_encode {front : List Char} {char : Char}
    (opens : Opens char) : (encode (front ++ [char])).getLast? ≠ some 101 := by
  obtain ⟨byte, encoded, notE⟩ := encode_opens opens
  rw [encode_append, encoded, List.getLast?_concat]
  exact fun same => notE (Option.some.inj same)

/-- A member follows a character that opens it. -/
theorem exists_opens {lead before spaces : List Char}
    (isSpaces : IsSpaces spaces)
    (ends : before = [] ∨ ∃ front, before = front ++ [',']) :
    ∃ front char, lead ++ '\x7b' :: before ++ spaces = front ++ [char] ∧
      Opens char := by
  rcases List.eq_nil_or_concat spaces with rfl | ⟨init, last, rfl⟩
  · rcases ends with rfl | ⟨front, rfl⟩
    · exact ⟨lead, '\x7b', by simp, .inr (.inl rfl)⟩
    · exact ⟨lead ++ '\x7b' :: front, ',', by simp, .inr (.inr rfl)⟩
  · exact ⟨lead ++ '\x7b' :: before ++ init, last, by simp,
      .inl (isSpaces last (by simp))⟩

/-- An object with a plainly spelled member `usage` that is an object itself is
found. -/
theorem hasUsageObject_of_member {text : List Char} {members : List Member}
    {member : Member} {fields : List (String × Json)}
    (isObject : IsObjectText text members) (listed : member ∈ members)
    (plain : member.raw = "usage".toList)
    (isInner : member.value = .object fields) :
    hasUsageObject (encode text) = true := by
  obtain ⟨lead, inner, trail, rfl, _, isMembers, _⟩ := isObject
  obtain ⟨before, spaces, spelled, after, rfl, isSpaces, isMember, ends⟩ :=
    isMembers.exists_at listed
  cases isMember with
  | @mk raw name between behind value json _ isBetween isBehind isValue =>
      subst plain
      dsimp only at isInner
      subst isInner
      obtain ⟨rest, rfl⟩ := isValue.exists_braces
      obtain ⟨front, char, isFront, opens⟩ := @exists_opens lead before spaces
        isSpaces ends
      have key : encode ('"' :: "usage".toList ++ ['"']) = usageKey := by
        decide
      have whole : lead ++ '\x7b' :: (before ++ spaces ++
            ('"' :: "usage".toList ++ '"' :: between ++ ':' :: behind ++
              '\x7b' :: rest) ++ after) ++ '\x7d' :: trail =
          (front ++ [char]) ++ ('"' :: "usage".toList ++ ['"']) ++
            (between ++ ':' :: behind ++
              '\x7b' :: (rest ++ after ++ '\x7d' :: trail)) := by
        rw [← isFront]
        simp
      rw [whole, encode_append, encode_append, key]
      exact hasUsageObject_append (opensObject_spaced isBetween isBehind)
        (getLast?_encode opens)

/-- A record that reports a usage is found by the search. -/
theorem hasUsageObject_of_total {json : JsonReader} {data : List UInt8}
    {total : Nat} (readsJson : json.ReadsJson) (plain : SpelledPlainly data)
    (reported : json.usageTotal data = some total) :
    hasUsageObject data = true := by
  obtain ⟨text, value, rfl, isText, pointed⟩ := readsJson data total reported
  obtain ⟨number, found, _⟩ := Option.bind_eq_some_iff.mp pointed
  unfold Json.pointer at found
  split at found
  case h_2 => cases found
  case h_1 usage isUsage =>
    unfold Json.pointer at found
    split at found
    case h_2 => cases found
    case h_1 inner isTotal =>
      obtain ⟨members, isObject, rfl⟩ := isText.isObjectText isUsage
      obtain ⟨member, listed, name, rfl⟩ := exists_of_field isUsage
      have raw := plain text members rfl isObject member listed name
      cases value : member.value with
      | object fields =>
          exact hasUsageObject_of_member isObject listed raw value
      | _ =>
          rw [value] at isTotal
          cases isTotal

theorem JsonReader.recordUsage_eq {json : JsonReader} {data : List UInt8}
    (readsJson : json.ReadsJson) (plain : SpelledPlainly data) :
    json.recordUsage data = json.usageTotal data := by
  unfold JsonReader.recordUsage
  cases reported : json.usageTotal data with
  | none => rw [ite_self]
  | some total =>
      rw [if_pos (hasUsageObject_of_total readsJson plain reported)]

/-- The search changes nothing: where the key `usage` is spelled without
escapes, a record has the same effect when every record is parsed. -/
theorem dispatch_eq_dispatchParsed {json : JsonReader}
    {scanner : UsageScanner} (readsJson : json.ReadsJson)
    (plain : SpelledPlainly scanner.data) :
    scanner.dispatch json = scanner.dispatchParsed json := by
  have same := JsonReader.recordUsage_eq readsJson plain
  unfold UsageScanner.dispatch UsageScanner.dispatchParsed
  rw [same] <;> rfl

/-- Without a backslash there are no escapes. -/
theorem spelledPlainly_of_plain {data : List UInt8} (plain : 92 ∉ data) :
    SpelledPlainly data := by
  rintro text members rfl isObject member listed named
  obtain ⟨lead, inner, trail, rfl, _, isMembers, _⟩ := isObject
  obtain ⟨before, spaces, spelled, after, rfl, _, isMember, _⟩ :=
    isMembers.exists_at listed
  cases isMember with
  | @mk raw name between behind value json isChars _ _ _ =>
      have noEscape : '\\' ∉ raw := by
        intro escape
        apply plain
        refine List.mem_flatMap.mpr ⟨'\\', ?_, by decide⟩
        simp [escape]
      dsimp only at named ⊢
      rw [isChars.eq_of_plain noEscape, ← named, String.toList_ofList]

section SampleRecord

/-- A record with a usage, whose key is spelled in some way. -/
def recordWith (key : List Char) : List Char :=
  "\x7b\"".toList ++ key ++ "\": \x7b\"total_tokens\":7\x7d\x7d".toList

/-- Reads the one record. -/
def readerOf (text : List Char) : JsonReader :=
  ⟨fun data => if data = encode text then some 7 else none⟩

theorem readerOf_readsJson {key : List Char}
    (isKey : IsChars key "usage".toList) :
    (readerOf (recordWith key)).ReadsJson := by
  intro data total reported
  have isRecord : data = encode (recordWith key) ∧ 7 = total := by
    unfold readerOf at reported
    dsimp only at reported
    split at reported
    case isTrue same => exact ⟨same, Option.some.inj reported⟩
    case isFalse => cases reported
  obtain ⟨rfl, rfl⟩ := isRecord
  have none : IsSpaces [] := by simp [IsSpaces]
  have space : IsSpaces [' '] := by simp [IsSpaces, JsonText.isSpace]
  have seven : IsValue ['7'] (.number (numberOf ['7'])) :=
    @IsValue.number [] ['7'] [] [] ⟨.inl rfl, ⟨by simp, List.all_eq_true.mp (by decide)⟩,
      .inr (by decide),
      .inl rfl, .inl rfl⟩
  have name : IsChars "total_tokens".toList "total_tokens".toList :=
    isChars_self fun char member => of_decide_eq_true
      (@List.all_eq_true _ (fun char =>
        decide (char ≠ '"' ∧ char ≠ '\\' ∧ 32 ≤ char.toNat)) _ |>.mp
          (by decide) char member)
  have inner := IsValue.object (.single none (.mk name none none seven) none)
  have outer := IsValue.object
    (.single none (.mk isKey none space inner) none)
  refine ⟨recordWith key, _, rfl, ⟨[], _, [], ?_, none, outer, none⟩, rfl⟩
  simp [recordWith]

theorem plain_usage : IsChars "usage".toList "usage".toList :=
  isChars_self fun char member => of_decide_eq_true
    (@List.all_eq_true _ (fun char =>
      decide (char ≠ '"' ∧ char ≠ '\\' ∧ 32 ≤ char.toNat)) _ |>.mp
        (by decide) char member)

theorem dispatch_eq_dispatchParsed_sample :
    let scanner :=
      { UsageScanner.new with data := encode (recordWith "usage".toList) }
    scanner.dispatch (readerOf (recordWith "usage".toList)) =
      scanner.dispatchParsed (readerOf (recordWith "usage".toList)) :=
  dispatch_eq_dispatchParsed (readerOf_readsJson plain_usage)
    (spelledPlainly_of_plain (by decide))

end SampleRecord

end Prefilter

end Paigasus.Gateway
