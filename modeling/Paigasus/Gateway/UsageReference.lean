import Paigasus.Gateway.UsagePrefilter

/-!
# The reference of the usage scanner

A parser of event streams reads the records of the whole stream: their `data`
fields, joined by line feeds, are the payload, and a payload that is a JSON text
with a usage reports it.  The scanner reaches the same result, unless the stream
starts with a byte order mark, has a `data` field without a colon, or spells the
key of a usage with escapes.
-/

namespace Paigasus.Gateway

open Foundation EventStream

/-- What the reference makes of one record. -/
def UsageSummary.readConforming (json : JsonReader) (summary : UsageSummary)
    (record : List Line) : UsageSummary :=
  if maxRecordBytes < recordSize record then
    { summary with records := summary.records + 1 }
  else
    match fieldValues (utf8 "data") record with
    | [] => summary
    | values =>
        let payload := [lf].intercalate values
        if payload = utf8 "[DONE]" then
          summary
        else
          match json.usageTotal payload with
          | some total => { summary with reported := some total }
          | none => { summary with records := summary.records + 1 }

/-- The reference: the records of the whole stream, one after another. -/
def referenceUsage (json : JsonReader) (bytes : List UInt8) : UsageSummary :=
  (EventStream.records (dropMark bytes)).foldl
    (UsageSummary.readConforming json) ⟨0, none⟩

/-- The stream gives the scanner no occasion to read it otherwise. -/
structure ReadAlike (bytes : List UInt8) : Prop where
  unmarked : ¬ [0xef, 0xbb, 0xbf] <+: bytes
  withColon : utf8 "data" ∉ splitLines bytes
  plain : ∀ record ∈ EventStream.records bytes,
    recordSize record ≤ maxRecordBytes →
      SpelledPlainly ([lf].intercalate (fieldValues (utf8 "data") record))

theorem dataValue_append (value : List UInt8) :
    dataValue (utf8 "data" ++ colon :: value) =
      some (if value.head? = some space then value.tail else value) := by
  have name : utf8 "data" ++ colon :: value = utf8 "data:" ++ value := by
    have spelled : utf8 "data:" = utf8 "data" ++ [colon] := by decide
    rw [spelled, List.append_assoc, List.singleton_append]
  have begins : (utf8 "data:").isPrefixOf (utf8 "data:" ++ value) = true :=
    List.isPrefixOf_iff_prefix.mpr (List.prefix_append _ _)
  unfold dataValue
  rw [name, if_pos begins, List.drop_left]
  cases value with
  | nil => rfl
  | cons byte value =>
      by_cases isSpace : byte = space
      · subst isSpace
        rfl
      · have notSpace : (byte :: value).head? ≠ some space := fun same =>
          isSpace (Option.some.inj same)
        rw [if_neg notSpace]
        split
        case h_1 rest same =>
          cases same
          exact absurd rfl isSpace
        case h_2 => rfl

/-- The scanner takes a line for a `data` field exactly as the reference does,
unless it has no colon. -/
theorem dataValue_eq_field {line : Line} (withColon : line ≠ utf8 "data") :
    dataValue line = (field line).bind fun (found, value) =>
      if found = utf8 "data" then some value else none := by
  have free : colon ∉ utf8 "data" := by decide
  by_cases isData : ∃ value, line = utf8 "data" ++ colon :: value
  · obtain ⟨value, rfl⟩ := isData
    rw [dataValue_append, field_append (by decide) free]
    simp
  · have unread : dataValue line = none := by
      apply if_neg
      intro begins
      obtain ⟨value, isLine⟩ := List.isPrefixOf_iff_prefix.mp begins
      apply isData
      refine ⟨value, ?_⟩
      rw [← isLine]
      rfl
    rw [unread]
    cases parsed : field line with
    | none => rfl
    | some pair =>
        obtain ⟨found, value⟩ := pair
        change none = if found = utf8 "data" then some value else none
        rw [if_neg]
        rintro rfl
        rcases field_some parsed with same | ⟨rest, same⟩
        · exact withColon same
        · exact isData ⟨rest, same⟩

theorem dataFields_eq_fieldValues {record : List Line}
    (withColon : utf8 "data" ∉ record) :
    dataFields record = fieldValues (utf8 "data") record := by
  apply List.filterMap_congr
  intro line member
  apply dataValue_eq_field
  rintro rfl
  exact withColon member

/-- The lines of the records are lines of the stream. -/
theorem mem_of_groupRecords {pending lines record : List Line} {line : Line}
    (isRecord : record ∈ groupRecords pending lines) (member : line ∈ record) :
    line ∈ pending ∨ line ∈ lines := by
  induction lines generalizing pending with
  | nil =>
      unfold groupRecords at isRecord
      split at isRecord
      case isTrue => cases isRecord
      case isFalse =>
        rw [List.mem_singleton] at isRecord
        exact .inl (isRecord ▸ member)
  | cons first rest ih =>
      have later {before : List Line}
          (inRest : line ∈ before ∨ line ∈ rest)
          (before_sub : line ∈ before → line ∈ pending ∨ line = first) :
          line ∈ pending ∨ line ∈ first :: rest := by
        rcases inRest with inBefore | inRest
        · rcases before_sub inBefore with inPending | rfl
          · exact .inl inPending
          · exact .inr List.mem_cons_self
        · exact .inr (List.mem_cons_of_mem _ inRest)
      unfold groupRecords at isRecord
      split at isRecord
      case isTrue =>
        split at isRecord
        case isTrue =>
          exact later (ih isRecord) fun inNone => absurd inNone List.not_mem_nil
        case isFalse =>
          rcases List.mem_cons.mp isRecord with rfl | inRest
          · exact .inl member
          · apply later (ih inRest)
            exact fun inNone => absurd inNone List.not_mem_nil
      case isFalse =>
        refine later (ih isRecord) ?_
        intro inTaken
        rcases List.mem_append.mp inTaken with inPending | isFirst
        · exact .inl inPending
        · exact .inr (List.mem_singleton.mp isFirst)

/-- A record that the scanner and the reference read alike. -/
theorem UsageSummary.read_eq_readConforming {json : JsonReader}
    (readsJson : json.ReadsJson) {record : List Line}
    (withColon : utf8 "data" ∉ record)
    (plain : recordSize record ≤ maxRecordBytes →
      SpelledPlainly ([lf].intercalate (fieldValues (utf8 "data") record)))
    (summary : UsageSummary) :
    summary.read json record = summary.readConforming json record := by
  unfold UsageSummary.read UsageSummary.readConforming
  split
  case isTrue => rfl
  case isFalse within =>
    have spelled := plain (Nat.le_of_not_lt within)
    rw [dataFields_eq_fieldValues withColon]
    cases values : fieldValues (utf8 "data") record with
    | nil => rfl
    | cons value rest =>
        rw [values] at spelled
        rw [if_neg (List.cons_ne_nil _ _)]
        dsimp only
        have same := json.recordUsage_eq readsJson spelled
        generalize json.recordUsage ([lf].intercalate (value :: rest)) = total
          at same
        cases same
        rfl

/-- A stream that the scanner and the reference read alike. -/
theorem foldl_read_eq_referenceUsage {json : JsonReader}
    (readsJson : json.ReadsJson) {bytes : List UInt8}
    (alike : ReadAlike bytes) :
    (EventStream.records bytes).foldl (UsageSummary.read json) ⟨0, none⟩ =
      referenceUsage json bytes := by
  unfold referenceUsage
  rw [dropMark_eq_self alike.unmarked]
  apply List.foldl_ext
  intro summary record isRecord
  apply UsageSummary.read_eq_readConforming readsJson
  · intro bare
    rcases mem_of_groupRecords isRecord bare with inNone | isLine
    · cases inNone
    · exact alike.withColon isLine
  · exact alike.plain record isRecord

/-- Whatever the chunks of a stream, the scanner reaches the same result as on
the whole stream, and a second `finish` changes nothing.  The result is that of
the reference, for a stream without a byte order mark in front, without a `data`
field that has no colon, and without escapes in the key of a usage. -/
theorem UsageScanner.scan_eq_reference (json : JsonReader)
    (chunks : List (List UInt8)) :
    let scanned := (chunks.foldl (feed json) new).finish json
    let reference := referenceUsage json chunks.flatten
    scanned = (new.feed json chunks.flatten).finish json ∧
      scanned.finish json = scanned ∧
      (json.ReadsJson → ReadAlike chunks.flatten →
        scanned.records = min reference.records U64.maxValue ∧
          scanned.reported = reference.reported) := by
  intro scanned reference
  obtain ⟨reads, resumed⟩ := reads_records json chunks
  refine ⟨?_, finish_of_reads json reads resumed, ?_⟩
  · show (chunks.foldl (feed json) new).finish json = _
    rw [feed_flatten]
  · intro readsJson alike
    rw [foldl_read_eq_referenceUsage readsJson alike] at reads
    exact ⟨reads.records, reads.reported⟩

section Samples

def sampleStream (key : String) : List (List UInt8) :=
  [utf8 "data", utf8 ": ", encode (recordWith key.toList), [lf], [lf]]

/-- A record with a usage, cut into five chunks. -/
theorem scan_eq_reference_sample :
    let reader := readerOf (recordWith "usage".toList)
    let scanned := ((sampleStream "usage").foldl (UsageScanner.feed reader)
      .new).finish reader
    scanned.records = 0 ∧ scanned.reported = some 7 := by
  intro reader scanned
  have one : EventStream.records (sampleStream "usage").flatten =
      [[utf8 "data: " ++ encode (recordWith "usage".toList)]] := by decide
  have alike : ReadAlike (sampleStream "usage").flatten := by
    refine ⟨by decide, by decide, ?_⟩
    intro record isRecord _
    rw [one, List.mem_singleton] at isRecord
    subst isRecord
    exact spelledPlainly_of_plain (by decide)
  obtain ⟨records, reported⟩ := (UsageScanner.scan_eq_reference reader
    (sampleStream "usage")).2.2 (readerOf_readsJson plain_usage) alike
  have reads : referenceUsage reader (sampleStream "usage").flatten =
      ⟨0, some 7⟩ := by decide
  rw [reads] at records reported
  exact ⟨records, reported⟩

def escapedKey : List Char := "us\\u0061ge".toList

theorem escaped_usage : JsonGrammar.IsChars escapedKey "usage".toList := by
  have plain {char : Char} {raw text : List Char}
      (isPlain : char ≠ '"' ∧ char ≠ '\\' ∧ 32 ≤ char.toNat)
      (rest : JsonGrammar.IsChars raw text) :
      JsonGrammar.IsChars (char :: raw) (char :: text) :=
    .plain isPlain.1 isPlain.2.1 isPlain.2.2 rest
  have behind : JsonGrammar.IsChars "ge".toList "ge".toList :=
    plain (by decide) (plain (by decide) .nil)
  exact plain (by decide) (plain (by decide) (.escaped rfl behind))

/-- A record of one `data` field whose payload the search passes over. -/
theorem UsageSummary.read_unfound {json : JsonReader} {record : List Line}
    {payload : List UInt8} (fields : dataFields record = [payload])
    (within : recordSize record ≤ maxRecordBytes)
    (notDone : payload ≠ utf8 "[DONE]")
    (unfound : hasUsageObject payload = false) (summary : UsageSummary) :
    summary.read json record =
      { summary with records := summary.records + 1 } := by
  have joined : [lf].intercalate [payload] = payload := by
    simp [List.intercalate]
  unfold UsageSummary.read
  rw [if_neg (Nat.not_lt.mpr within), fields, if_neg (List.cons_ne_nil _ _)]
  dsimp only
  rw [joined, if_neg notDone, JsonReader.recordUsage, unfound]
  rfl

theorem scan_escaped (json : JsonReader) :
    (([(sampleStream "us\\u0061ge").flatten].foldl (UsageScanner.feed json)
      .new).finish json).reported = none := by
  have one : EventStream.records (sampleStream "us\\u0061ge").flatten =
      [[utf8 "data: " ++ encode (recordWith escapedKey)]] := by decide
  have counted : [[utf8 "data: " ++ encode (recordWith escapedKey)]].foldl
      (UsageSummary.read json) ⟨0, none⟩ = ⟨1, none⟩ := by
    rw [List.foldl_cons, List.foldl_nil]
    exact @UsageSummary.read_unfound json
      [utf8 "data: " ++ encode (recordWith escapedKey)]
      (encode (recordWith escapedKey)) (by decide) (by decide) (by decide)
      (hasUsageObject_of_no_key (by decide)) ⟨0, none⟩
  have reads := (UsageScanner.reads_records json
    [(sampleStream "us\\u0061ge").flatten]).1
  rw [List.flatten_singleton, one, counted] at reads
  exact reads.reported

/-- Three streams that the reference reads otherwise: a field without a colon, a
byte order mark, and a key with an escape. -/
theorem scan_misses_fields :
    let reader := readerOf (recordWith escapedKey)
    let scanned := fun bytes =>
      ([bytes].foldl (UsageScanner.feed reader) .new).finish reader
    let bare := utf8 "data\n\n"
    let marked := [0xef, 0xbb, 0xbf] ++ utf8 "data: a\n\n"
    let escaped := (sampleStream "us\\u0061ge").flatten
    reader.ReadsJson ∧
      ((scanned bare).records = 0 ∧ (referenceUsage reader bare).records = 1) ∧
      ((scanned marked).records = 0 ∧
        (referenceUsage reader marked).records = 1) ∧
      (scanned escaped).reported = none ∧
        (referenceUsage reader escaped).reported = some 7 := by
  refine ⟨readerOf_readsJson escaped_usage, ⟨by decide, by decide⟩,
    ⟨by decide, by decide⟩, scan_escaped _, by decide⟩

end Samples

end Paigasus.Gateway
