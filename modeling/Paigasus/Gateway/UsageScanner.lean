import Paigasus.Foundation.Bytes
import Paigasus.Foundation.EventStream
import Paigasus.Foundation.FixedWidth

/-!
# The usage scanner

The gateway reads a copy of a forwarded event stream byte by byte, with bounded
buffers, and counts its records and the last usage they report.  Whatever the
chunks, it takes the records of the whole stream one after another.
-/

namespace Paigasus.Gateway

open Foundation EventStream

def maxRecordBytes : Nat := 65536

def usageKey : List UInt8 := utf8 "\"usage\""

def isAsciiWhitespace (byte : UInt8) : Bool :=
  byte = 32 || byte = 9 || byte = 10 || byte = 12 || byte = 13

def trimStart (bytes : List UInt8) : List UInt8 :=
  bytes.dropWhile isAsciiWhitespace

/-- What follows the first occurrence of the key. -/
def afterUsageKey : List UInt8 → Option (List UInt8)
  | [] => none
  | byte :: rest =>
      if usageKey.isPrefixOf (byte :: rest) then
        some ((byte :: rest).drop usageKey.length)
      else
        afterUsageKey rest

theorem afterUsageKey_length {data rest : List UInt8}
    (found : afterUsageKey data = some rest) : rest.length < data.length := by
  induction data with
  | nil => cases found
  | cons byte data ih =>
      unfold afterUsageKey at found
      split at found
      case isTrue here =>
        cases found
        have keyLength : usageKey.length = 7 := by decide
        rw [List.length_drop, keyLength, List.length_cons]
        omega
      case isFalse =>
        have shorter := ih found
        rw [List.length_cons]
        omega

/-- The bytes start with a colon and an opening brace, up to white space. -/
def opensObject (bytes : List UInt8) : Bool :=
  match trimStart bytes with
  | 58 :: afterColon => (trimStart afterColon).head? = some 123
  | _ => false

def hasUsageObject (data : List UInt8) : Bool :=
  match found : afterUsageKey data with
  | none => false
  | some rest => opensObject rest || hasUsageObject rest
termination_by data.length
decreasing_by exact afterUsageKey_length found

/-- The reader of a JSON text that holds `usage.total_tokens`. -/
structure JsonReader where
  usageTotal : List UInt8 → Option Nat

/-- The usage a record reports. -/
def JsonReader.recordUsage (json : JsonReader) (data : List UInt8) :
    Option Nat :=
  if hasUsageObject data then json.usageTotal data else none

structure UsageScanner where
  line : List UInt8
  lineLen : Nat
  afterCr : Bool
  data : List UInt8
  hasData : Bool
  recordBytes : Nat
  oversized : Bool
  records : Nat
  reported : Option Nat
deriving DecidableEq

/-- The value of a `data` field, without the space after the colon. -/
def dataValue (line : Line) : Option (List UInt8) :=
  if (utf8 "data:").isPrefixOf line then
    match line.drop (utf8 "data:").length with
    | 32 :: value => some value
    | value => some value
  else
    none

namespace UsageScanner

def new : UsageScanner := ⟨[], 0, false, [], false, 0, false, 0, none⟩

variable (json : JsonReader)

def dispatch (scanner : UsageScanner) : UsageScanner :=
  if scanner.data = utf8 "[DONE]" then
    scanner
  else
    match json.recordUsage scanner.data with
    | some total => { scanner with reported := some total }
    | none =>
        { scanner with records := U64.saturatingAdd scanner.records 1 }

def endRecord (scanner : UsageScanner) : UsageScanner :=
  let closed :=
    if scanner.oversized then
      { scanner with records := U64.saturatingAdd scanner.records 1 }
    else if scanner.hasData then
      scanner.dispatch json
    else
      scanner
  { closed with
    data := []
    hasData := false
    oversized := false
    recordBytes := 0 }

def endLine (scanner : UsageScanner) : UsageScanner :=
  if scanner.lineLen = 0 then
    scanner.endRecord json
  else
    let line := scanner.line
    let taken := { scanner with lineLen := 0, line := [] }
    if taken.oversized then
      taken
    else
      match dataValue line with
      | none => taken
      | some value =>
          { taken with
            data := (if taken.hasData then taken.data ++ [lf]
              else taken.data) ++ value
            hasData := true }

def pushByte (scanner : UsageScanner) (byte : UInt8) : UsageScanner :=
  let counted :=
    { scanner with
      lineLen := U64.saturatingAdd scanner.lineLen 1
      recordBytes := U64.saturatingAdd scanner.recordBytes 1 }
  if maxRecordBytes < counted.recordBytes then
    { counted with oversized := true, line := [], data := [] }
  else
    { counted with line := counted.line ++ [byte] }

def feedByte (scanner : UsageScanner) (byte : UInt8) : UsageScanner :=
  let resumed := { scanner with afterCr := false }
  if scanner.afterCr ∧ byte = lf then
    resumed
  else if byte = lf then
    resumed.endLine json
  else if byte = cr then
    { resumed.endLine json with afterCr := true }
  else
    resumed.pushByte byte

def feed (scanner : UsageScanner) (chunk : List UInt8) : UsageScanner :=
  chunk.foldl (feedByte json) scanner

/-- The end of the stream closes a pending line and a pending record. -/
def finish (scanner : UsageScanner) : UsageScanner :=
  scanner.feed json [lf, lf]

end UsageScanner

/-- What a stream says about its tokens. -/
structure UsageSummary where
  records : Nat
  reported : Option Nat
deriving DecidableEq

/-- The `data` fields of a record. -/
def dataFields (record : List Line) : List (List UInt8) :=
  record.filterMap dataValue

def recordSize (record : List Line) : Nat := (record.map List.length).sum

/-- What the scanner makes of one record: above the cap it counts as one and is
not parsed. -/
def UsageSummary.read (json : JsonReader) (summary : UsageSummary)
    (record : List Line) : UsageSummary :=
  if maxRecordBytes < recordSize record then
    { summary with records := summary.records + 1 }
  else if dataFields record = [] then
    summary
  else
    let data := [lf].intercalate (dataFields record)
    if data = utf8 "[DONE]" then
      summary
    else
      match json.recordUsage data with
      | some total => { summary with reported := some total }
      | none => { summary with records := summary.records + 1 }

theorem intercalate_append {fields : List (List UInt8)}
    (present : fields ≠ []) (separator value : List UInt8) :
    separator.intercalate (fields ++ [value]) =
      separator.intercalate fields ++ separator ++ value := by
  induction fields with
  | nil => exact absurd rfl present
  | cons first rest ih =>
      cases rest with
      | nil => simp [List.intercalate]
      | cons second rest =>
          have tail := ih (by simp)
          simp only [List.intercalate, List.cons_append,
            List.intersperse_cons_cons, List.flatten_cons] at tail ⊢
          rw [tail]
          simp [List.append_assoc]

theorem dataFields_append (record : List Line) (line : Line) :
    dataFields (record ++ [line]) =
      dataFields record ++ (dataValue line).toList := by
  unfold dataFields
  rw [List.filterMap_append]
  cases value : dataValue line with
  | none => simp [value]
  | some bytes => simp [value]

theorem recordSize_append (record : List Line) (line : Line) :
    recordSize (record ++ [line]) = recordSize record + line.length := by
  simp [recordSize]

theorem UsageSummary.read_nil (json : JsonReader) (summary : UsageSummary) :
    summary.read json [] = summary := by
  simp [read, recordSize, dataFields]

/-- Reads the records that further lines close, the open one first. -/
def UsageSummary.readLines (json : JsonReader) (summary : UsageSummary)
    (pending lines : List Line) : UsageSummary :=
  (groupRecords pending lines).foldl (read json) summary

namespace UsageSummary

variable (json : JsonReader) (summary : UsageSummary) (pending : List Line)

theorem readLines_end :
    summary.readLines json pending [] = summary.read json pending := by
  by_cases closed : pending = []
  · simp [readLines, groupRecords, closed, read_nil]
  · simp [readLines, groupRecords, closed]

theorem readLines_blank (lines : List Line) :
    summary.readLines json pending ([] :: lines) =
      (summary.read json pending).readLines json [] lines := by
  by_cases closed : pending = []
  · simp [readLines, groupRecords, closed, read_nil]
  · simp [readLines, groupRecords, closed]

theorem readLines_line {line : Line} (present : line ≠ [])
    (lines : List Line) :
    summary.readLines json pending (line :: lines) =
      summary.readLines json (pending ++ [line]) lines := by
  simp [readLines, groupRecords, present]

end UsageSummary

/-- The scanner has read the closed records of the summary, the lines of the
open one, and a part of a line. -/
structure Reads (scanner : UsageScanner) (summary : UsageSummary)
    (pending : List Line) (part : Line) : Prop where
  lineLen : scanner.lineLen = min part.length U64.maxValue
  recordBytes : scanner.recordBytes =
    min (recordSize pending + part.length) U64.maxValue
  oversized : scanner.oversized = true ↔
    maxRecordBytes < recordSize pending + part.length
  skipped : scanner.oversized = true → scanner.line = [] ∧ scanner.data = []
  line : scanner.oversized = false → scanner.line = part
  data : scanner.oversized = false →
    scanner.data = [lf].intercalate (dataFields pending)
  hasData : scanner.oversized = false →
    (scanner.hasData = true ↔ dataFields pending ≠ [])
  records : scanner.records = min summary.records U64.maxValue
  reported : scanner.reported = summary.reported

namespace Reads

variable {json : JsonReader} {scanner : UsageScanner} {summary : UsageSummary}
  {pending : List Line} {part : Line}

theorem start : Reads .new ⟨0, none⟩ [] [] where
  lineLen := rfl
  recordBytes := rfl
  oversized := by decide
  skipped := by decide
  line _ := rfl
  data _ := rfl
  hasData _ := by decide
  records := rfl
  reported := rfl

/-- The flag of a CR is not part of what was read. -/
theorem resume (reads : Reads scanner summary pending part) (flag : Bool) :
    Reads { scanner with afterCr := flag } summary pending part :=
  ⟨reads.lineLen, reads.recordBytes, reads.oversized, reads.skipped,
    reads.line, reads.data, reads.hasData, reads.records, reads.reported⟩

theorem pushByte (reads : Reads scanner summary pending part) (byte : UInt8) :
    Reads (scanner.pushByte byte) summary pending (part ++ [byte]) := by
  have large : maxRecordBytes < U64.maxValue := by decide
  have lineLen : U64.saturatingAdd scanner.lineLen 1 =
      min (part ++ [byte]).length U64.maxValue := by
    rw [reads.lineLen, U64.saturatingAdd, List.length_append,
      List.length_singleton]
    omega
  have recordBytes : U64.saturatingAdd scanner.recordBytes 1 =
      min (recordSize pending + (part ++ [byte]).length) U64.maxValue := by
    rw [reads.recordBytes, U64.saturatingAdd, List.length_append,
      List.length_singleton]
    omega
  unfold UsageScanner.pushByte
  dsimp only
  split
  case isTrue beyond =>
    rw [recordBytes] at beyond
    refine ⟨lineLen, recordBytes, ?_, fun _ => ⟨rfl, rfl⟩, ?_, ?_, ?_,
      reads.records, reads.reported⟩
    · exact iff_of_true rfl (by omega)
    all_goals
      intro impossible
      cases impossible
  case isFalse within =>
    rw [recordBytes] at within
    have small : ¬ maxRecordBytes <
        recordSize pending + (part ++ [byte]).length := by omega
    have before : scanner.oversized = false := by
      rw [← Bool.not_eq_true, reads.oversized]
      rw [List.length_append, List.length_singleton] at small
      omega
    refine ⟨lineLen, recordBytes, ?_, ?_, ?_, ?_, ?_, reads.records,
      reads.reported⟩
    · exact iff_of_false (by simp [before]) small
    · simp [before]
    · intro _
      simp [reads.line before]
    · intro _
      exact reads.data before
    · intro _
      exact reads.hasData before

theorem endLine_line (reads : Reads scanner summary pending part)
    (present : part ≠ []) :
    Reads (scanner.endLine json) summary (pending ++ [part]) [] := by
  have positive : 0 < part.length := List.length_pos_iff.mpr present
  have inLine : scanner.lineLen ≠ 0 := by
    rw [reads.lineLen]
    unfold U64.maxValue
    omega
  have size : recordSize (pending ++ [part]) + ([] : Line).length =
      recordSize pending + part.length := by
    rw [recordSize_append]
    rfl
  unfold UsageScanner.endLine
  rw [if_neg inLine]
  dsimp only
  split
  case isTrue beyond =>
    refine ⟨rfl, ?_, ?_, ?_, ?_, ?_, ?_, reads.records, reads.reported⟩
    · rw [size]
      exact reads.recordBytes
    · rw [size]
      exact reads.oversized
    · intro _
      exact ⟨rfl, (reads.skipped beyond).2⟩
    all_goals
      intro within
      exact absurd (beyond.symm.trans within) (by decide)
  case isFalse notOver =>
    have within : scanner.oversized = false := by simpa using notOver
    have fields := dataFields_append pending part
    rw [reads.line within]
    cases value : dataValue part with
    | none =>
        rw [value, Option.toList_none, List.append_nil] at fields
        refine ⟨rfl, ?_, ?_, ?_, ?_, ?_, ?_, reads.records, reads.reported⟩
        · rw [size]
          exact reads.recordBytes
        · rw [size]
          exact reads.oversized
        · intro beyond
          exact absurd beyond notOver
        · intro _
          rfl
        · intro _
          rw [fields]
          exact reads.data within
        · intro _
          rw [fields]
          exact reads.hasData within
    | some bytes =>
        rw [value, Option.toList_some] at fields
        refine ⟨rfl, ?_, ?_, ?_, ?_, ?_, ?_, reads.records, reads.reported⟩
        · rw [size]
          exact reads.recordBytes
        · rw [size]
          exact reads.oversized
        · intro beyond
          exact absurd beyond notOver
        · intro _
          rfl
        · intro _
          rw [fields, reads.data within]
          by_cases first : dataFields pending = []
          · have noData : ¬ scanner.hasData = true := by
              rw [reads.hasData within]
              exact not_not_intro first
            simp [first, noData, List.intercalate]
          · have someData : scanner.hasData = true :=
              (reads.hasData within).mpr first
            rw [intercalate_append first]
            simp [someData]
        · intro _
          rw [fields]
          simp

theorem endLine_blank (reads : Reads scanner summary pending []) :
    Reads (scanner.endLine json) (summary.read json pending) [] [] := by
  have blank : scanner.lineLen = 0 := reads.lineLen
  have emptyLine : scanner.line = [] := by
    cases beyond : scanner.oversized with
    | true => exact (reads.skipped beyond).1
    | false => exact reads.line beyond
  have size : recordSize pending + ([] : Line).length = recordSize pending :=
    rfl
  have closes {closed : UsageScanner} {read : UsageSummary}
      (line : closed.line = []) (lineLen : closed.lineLen = 0)
      (records : closed.records = min read.records U64.maxValue)
      (reported : closed.reported = read.reported) :
      Reads { closed with
        data := [], hasData := false, oversized := false, recordBytes := 0 }
        read [] [] := by
    refine ⟨lineLen, rfl, ?_, ?_, fun _ => line, fun _ => rfl, ?_, records,
      reported⟩
    · exact iff_of_false (by simp) (by decide)
    · intro impossible
      cases impossible
    · intro _
      exact iff_of_false (by simp) (by simp [dataFields])
  have oneMore : U64.saturatingAdd scanner.records 1 =
      min (summary.records + 1) U64.maxValue := by
    rw [reads.records, U64.saturatingAdd]
    omega
  unfold UsageScanner.endLine
  rw [if_pos blank]
  unfold UsageScanner.endRecord UsageSummary.read
  dsimp only
  cases beyond : scanner.oversized with
  | true =>
      have large := reads.oversized.mp beyond
      rw [size] at large
      rw [if_pos rfl, if_pos large]
      exact closes emptyLine blank oneMore reads.reported
  | false =>
      have small : ¬ maxRecordBytes < recordSize pending := by
        rw [← size, ← reads.oversized, beyond]
        decide
      rw [if_neg (by decide), if_neg small]
      by_cases noData : dataFields pending = []
      · have unset : ¬ scanner.hasData = true := by
          rw [reads.hasData beyond]
          exact not_not_intro noData
        rw [if_neg unset, if_pos noData]
        exact closes emptyLine blank reads.records reads.reported
      · have isSet : scanner.hasData = true := (reads.hasData beyond).mpr noData
        rw [if_pos isSet, if_neg noData]
        unfold UsageScanner.dispatch
        rw [reads.data beyond]
        split
        case isTrue done =>
          exact closes emptyLine blank reads.records reads.reported
        case isFalse =>
          cases json.recordUsage ([lf].intercalate (dataFields pending)) with
          | none => exact closes emptyLine blank oneMore reads.reported
          | some total => exact closes emptyLine blank reads.records rfl

/-- A line terminator takes the part read so far as a line. -/
theorem endLine (json : JsonReader)
    (reads : Reads scanner summary pending part) (lines : List Line) :
    ∃ next opened, Reads (scanner.endLine json) next opened [] ∧
      summary.readLines json pending (part :: lines) =
        next.readLines json opened lines := by
  by_cases blank : part = []
  · subst blank
    exact ⟨_, _, reads.endLine_blank,
      summary.readLines_blank json pending lines⟩
  · exact ⟨_, _, reads.endLine_line blank,
      summary.readLines_line json pending blank lines⟩

end Reads

namespace UsageScanner

variable (json : JsonReader)

theorem endLine_afterCr (scanner : UsageScanner) :
    (scanner.endLine json).afterCr = scanner.afterCr := by
  unfold endLine endRecord dispatch
  dsimp only
  repeat' split
  all_goals rfl

/-- A usage once seen is only replaced by another one. -/
theorem endLine_reported (scanner : UsageScanner)
    (unseen : (scanner.endLine json).reported = none) :
    scanner.reported = none := by
  unfold endLine endRecord dispatch at unseen
  dsimp only at unseen
  repeat' split at unseen
  all_goals first | exact unseen | cases unseen

theorem feedByte_reported {scanner : UsageScanner} {byte : UInt8}
    (unseen : (scanner.feedByte json byte).reported = none) :
    scanner.reported = none := by
  have resumed (ended : ({ scanner with afterCr := false }.endLine
      json).reported = none) : scanner.reported = none :=
    endLine_reported json { scanner with afterCr := false } ended
  unfold feedByte at unseen
  dsimp only at unseen
  split at unseen
  · exact unseen
  · split at unseen
    · exact resumed unseen
    · split at unseen
      · exact resumed unseen
      · unfold pushByte at unseen
        dsimp only at unseen
        split at unseen
        · exact unseen
        · exact unseen

theorem feed_reported {scanner : UsageScanner} {bytes : List UInt8}
    (unseen : (scanner.feed json bytes).reported = none) :
    scanner.reported = none := by
  induction bytes generalizing scanner with
  | nil => exact unseen
  | cons byte rest ih => exact feedByte_reported json (ih unseen)

theorem feed_append (scanner : UsageScanner) (first second : List UInt8) :
    scanner.feed json (first ++ second) =
      (scanner.feed json first).feed json second :=
  List.foldl_append

theorem feed_flatten (scanner : UsageScanner) (chunks : List (List UInt8)) :
    chunks.foldl (feed json) scanner = scanner.feed json chunks.flatten := by
  induction chunks generalizing scanner with
  | nil => rfl
  | cons chunk chunks ih =>
      rw [List.foldl_cons, ih, List.flatten_cons, feed_append]

/-- The lines still to be read, the part of the first one in front. -/
def upcoming (scanner : UsageScanner) (part : Line) (bytes : List UInt8) :
    List Line :=
  attach part (splitLines (if scanner.afterCr then skipLf bytes else bytes))

end UsageScanner

namespace Reads

variable {scanner : UsageScanner} {summary : UsageSummary}
  {pending : List Line} {part : Line}

/-- One byte moves between the two sides of the stream: what was read and what
is to come describe the same records before and after it. -/
theorem feedByte (json : JsonReader)
    (reads : Reads scanner summary pending part)
    (lineStart : scanner.afterCr = true → part = []) (byte : UInt8)
    (rest : List UInt8) :
    ∃ next opened part',
      Reads (scanner.feedByte json byte) next opened part' ∧
      ((scanner.feedByte json byte).afterCr = true → part' = []) ∧
      summary.readLines json pending (scanner.upcoming part (byte :: rest)) =
        next.readLines json opened
          ((scanner.feedByte json byte).upcoming part' rest) := by
  have crNotLf : cr ≠ lf := by decide
  have noLines : ∀ bytes, attach [] (splitLines bytes) = splitLines bytes :=
    fun bytes => attach_nil (splitLines_ne_nil bytes)
  unfold UsageScanner.feedByte
  dsimp only
  split
  case isTrue secondHalf =>
    obtain ⟨flag, isLf⟩ := secondHalf
    refine ⟨summary, pending, part, reads.resume false, ?_, ?_⟩
    · intro impossible
      cases impossible
    · simp [UsageScanner.upcoming, flag, isLf, skipLf]
  case isFalse whole =>
    -- From here on the byte is not the second half of a CRLF.
    have counts : (if scanner.afterCr then skipLf (byte :: rest)
        else byte :: rest) = byte :: rest := by
      cases flag : scanner.afterCr with
      | false => simp
      | true =>
          have notLf : byte ≠ lf := fun isLf => whole ⟨flag, isLf⟩
          simp [skipLf, notLf]
    have ends := fun lines => (reads.resume false).endLine json lines
    have keeps := UsageScanner.endLine_afterCr json
      { scanner with afterCr := false }
    split
    case isTrue isLf =>
      obtain ⟨next, opened, closed, sameRecords⟩ := ends (splitLines rest)
      refine ⟨next, opened, [], closed, fun _ => rfl, ?_⟩
      rw [UsageScanner.upcoming, UsageScanner.upcoming, counts, keeps, isLf,
        splitLines_lf]
      simpa [attach_cons, noLines] using sameRecords
    case isFalse notLf =>
      split
      case isTrue isCr =>
        obtain ⟨next, opened, closed, sameRecords⟩ :=
          ends (splitLines (skipLf rest))
        refine ⟨next, opened, [], closed.resume true, fun _ => rfl, ?_⟩
        rw [UsageScanner.upcoming, UsageScanner.upcoming, counts, isCr,
          splitLines_cr]
        simpa [attach_cons, noLines] using sameRecords
      case isFalse notCr =>
        have resumed : ({ scanner with afterCr := false }.pushByte
            byte).afterCr = false := by
          unfold UsageScanner.pushByte
          dsimp only
          split <;> rfl
        refine ⟨summary, pending, part ++ [byte],
          (reads.resume false).pushByte byte, ?_, ?_⟩
        · intro flag
          rw [resumed] at flag
          cases flag
        · rw [UsageScanner.upcoming, UsageScanner.upcoming, counts, resumed,
            splitLines_byte notCr notLf, attach_attach]
          rfl

/-- The end of the stream closes the line and the record that are open. -/
theorem finish (json : JsonReader)
    (reads : Reads scanner summary pending part)
    (lineStart : scanner.afterCr = true → part = []) :
    Reads (scanner.finish json)
        (summary.readLines json pending (scanner.upcoming part [])) [] [] ∧
      (scanner.finish json).afterCr = false := by
  have closes {current : UsageScanner} {read : UsageSummary}
      {opened : List Line} (atStart : Reads current read opened [])
      (resumed : current.afterCr = false) :
      Reads (current.feedByte json lf) (read.read json opened) [] [] ∧
        (current.feedByte json lf).afterCr = false := by
    have step : current.feedByte json lf =
        { current with afterCr := false }.endLine json := by
      simp [UsageScanner.feedByte, resumed]
    rw [step]
    exact ⟨(atStart.resume false).endLine_blank,
      UsageScanner.endLine_afterCr json _⟩
  have twice : scanner.finish json =
      (scanner.feedByte json lf).feedByte json lf := rfl
  rw [twice, UsageScanner.upcoming]
  cases flag : scanner.afterCr with
  | true =>
      have atStart := lineStart flag
      subst atStart
      have skips : scanner.feedByte json lf =
          { scanner with afterCr := false } := by
        simp [UsageScanner.feedByte, flag]
      have lines : attach [] (splitLines (skipLf [])) = [[]] := rfl
      rw [skips, if_pos rfl, lines, UsageSummary.readLines_blank,
        UsageSummary.readLines_end, UsageSummary.read_nil]
      exact closes (reads.resume false) rfl
  | false =>
      have lines : attach part (splitLines []) = [part] := by
        simp [splitLines, attach]
      obtain ⟨next, opened, closed, sameRecords⟩ :=
        (reads.resume false).endLine json []
      have step : scanner.feedByte json lf =
          { scanner with afterCr := false }.endLine json := by
        simp [UsageScanner.feedByte, flag]
      rw [if_neg (by decide), lines, sameRecords, step,
        UsageSummary.readLines_end]
      exact closes closed (UsageScanner.endLine_afterCr json _)

/-- Feeding the rest of a stream and closing it reads every record to come. -/
theorem feed_finish (json : JsonReader)
    (reads : Reads scanner summary pending part)
    (lineStart : scanner.afterCr = true → part = []) (rest : List UInt8) :
    Reads ((scanner.feed json rest).finish json)
        (summary.readLines json pending (scanner.upcoming part rest)) [] [] ∧
      ((scanner.feed json rest).finish json).afterCr = false := by
  induction rest generalizing scanner summary pending part with
  | nil => exact reads.finish json lineStart
  | cons byte rest ih =>
      obtain ⟨next, opened, part', reads', lineStart', sameRecords⟩ :=
        reads.feedByte json lineStart byte rest
      rw [sameRecords]
      exact ih reads' lineStart'

end Reads

namespace UsageScanner

/-- Between two records nothing of a scanner is left but its summary. -/
theorem eq_of_reads {first second : UsageScanner} {summary : UsageSummary}
    (firstReads : Reads first summary [] [])
    (secondReads : Reads second summary [] [])
    (sameFlag : first.afterCr = second.afterCr) : first = second := by
  have within {scanner : UsageScanner} (reads : Reads scanner summary [] []) :
      scanner = ⟨[], 0, scanner.afterCr, [], false, 0, false,
        min summary.records U64.maxValue, summary.reported⟩ := by
    have small : scanner.oversized = false := by
      rw [← Bool.not_eq_true, reads.oversized]
      decide
    have noData : scanner.hasData = false := by
      rw [← Bool.not_eq_true, reads.hasData small]
      simp [dataFields]
    obtain ⟨line, lineLen, afterCr, data, hasData, recordBytes, oversized,
      records, reported⟩ := scanner
    have isLine := reads.line small
    have isData := reads.data small
    have isLineLen := reads.lineLen
    have isRecordBytes := reads.recordBytes
    have isRecords := reads.records
    have isReported := reads.reported
    dsimp only at *
    subst small noData isLine isData isLineLen isRecordBytes isRecords isReported
    rfl
  rw [within firstReads, within secondReads, sameFlag]

/-- Whatever the chunks of a stream, the scanner takes the records of the whole
stream one after another. -/
theorem reads_records (json : JsonReader) (chunks : List (List UInt8)) :
    Reads ((chunks.foldl (feed json) new).finish json)
        ((EventStream.records chunks.flatten).foldl (UsageSummary.read json)
          ⟨0, none⟩) [] [] ∧
      ((chunks.foldl (feed json) new).finish json).afterCr = false := by
  rw [feed_flatten]
  have lines : upcoming new [] chunks.flatten = splitLines chunks.flatten :=
    attach_nil (splitLines_ne_nil _)
  have reads := Reads.start.feed_finish json
    (fun flag => absurd flag (by decide)) chunks.flatten
  rw [lines] at reads
  exact reads

/-- A second `finish` changes nothing. -/
theorem finish_of_reads (json : JsonReader) {scanner : UsageScanner}
    {summary : UsageSummary}
    (reads : Reads scanner summary [] []) (resumed : scanner.afterCr = false) :
    scanner.finish json = scanner := by
  obtain ⟨again, resumedAgain⟩ :=
    reads.finish json (fun flag => absurd (flag.symm.trans resumed) (by decide))
  have noLines : scanner.upcoming [] [] = [[]] := by
    rw [upcoming, resumed]
    rfl
  rw [noLines, UsageSummary.readLines_blank, UsageSummary.readLines_end,
    UsageSummary.read_nil, UsageSummary.read_nil] at again
  exact eq_of_reads again reads (resumedAgain.trans resumed.symm)

end UsageScanner

end Paigasus.Gateway
