import Paigasus.Sdk.FrameAgreement

/-!
# Where a cut record changes a report

A record of the stream falls into parts, each up to a CRLF, and the parser
reports on the parts.  It agrees with a reader of server-sent events at the end
of every record exactly when each record whose data is a terminal frame has one
part that is, with the same error, and no other part of any record is.
-/

namespace Paigasus.Sdk

open Foundation EventSource Utf8

section Parts

/-- The records of a text, with the ends of their lines. -/
def endedRecords (text : List Char) : List (List Line) :=
  (group ends holds [] (readLines text).ended).1

/-- The ended lines of the record that is open at the end of a text. -/
def openLines (text : List Char) : List Line :=
  (group ends holds [] (readLines text).ended).2

/-- Some lines, split after each CRLF, and those after the last one. -/
def splitLines (lines : List Line) : List (List Line) × List Line :=
  group (fun line => line.ending = .crlf) (fun _ => true) [] lines

/-- The parts of an open record that a CRLF has ended. -/
def openParts (lines : List Line) : List Record :=
  (splitLines lines).1.map (List.map Line.text)

/-- The parts of a record: those up to a CRLF, and the rest. -/
def parts (record : List Line) : List Record :=
  openParts record ++ closing ((splitLines record).2.map Line.text)

theorem group_ends_map (pending ended : List Line) :
    (group ends holds pending ended).1.map (List.map Line.text) =
      (group isBlank isFilled (pending.map Line.text)
        (ended.map Line.text)).1 := by
  induction ended generalizing pending with
  | nil => rfl
  | cons line rest ih =>
      have taken : (if holds line then pending ++ [line]
          else pending).map Line.text =
          if isFilled line.text then pending.map Line.text ++ [line.text]
          else pending.map Line.text := by
        unfold holds isFilled
        split <;> simp
      simp only [group, List.map_cons, ← taken]
      have same : isBlank line.text = ends line := rfl
      rw [same]
      split
      · have later := ih []
        rw [List.map_nil] at later
        rw [← later]
        by_cases noLines : (if holds line then pending ++ [line]
            else pending) = []
        · simp [noLines]
        · simp [noLines]
      · exact ih _

/-- They are the records of a reader of server-sent events. -/
theorem endedRecords_texts (text : List Char) :
    (endedRecords text).map (List.map Line.text) = records text :=
  group_ends_map [] (readLines text).ended

theorem splitLines_append (pending : List Line) (line : Line) :
    splitLines (pending ++ [line]) =
      if line.ending = .crlf then
        ((splitLines pending).1 ++ [(splitLines pending).2 ++ [line]], [])
      else
        ((splitLines pending).1, (splitLines pending).2 ++ [line]) := by
  unfold splitLines
  rw [group_append]
  by_cases isCrlf : line.ending = .crlf
  · simp [group, isCrlf]
  · simp [group, isCrlf]

theorem parts_nil : parts [] = [] := rfl

theorem group_ends_blank (pending : List Line) {line : Line}
    (blank : line.text = []) (rest : List Line) :
    group ends holds pending (line :: rest) =
      (if pending = [] then (group ends holds [] rest).1
        else pending :: (group ends holds [] rest).1,
        (group ends holds [] rest).2) := by
  simp [group, ends, holds, blank]

theorem group_ends_filled (pending : List Line) {line : Line}
    (filled : line.text ≠ []) (rest : List Line) :
    group ends holds pending (line :: rest) =
      group ends holds (pending ++ [line]) rest := by
  simp [group, ends, holds, filled]

/-- Cutting the lines of a stream cuts each of its records. -/
theorem group_cuts_parts (pending ended : List Line) :
    openParts pending ++ (group cuts holds (splitLines pending).2 ended).1.map
        (List.map Line.text) =
      (group ends holds pending ended).1.flatMap parts ++
        openParts (group ends holds pending ended).2 := by
  induction ended generalizing pending with
  | nil => simp [group]
  | cons line rest ih =>
      by_cases blank : line.text = []
      · have isCut : cuts line = true := by simp [cuts, blank]
        have later := ih []
        rw [(group_cut line isCut _ rest).1, group_ends_blank pending blank,
          if_pos blank, List.append_nil]
        have whole : openParts pending ++
            closing ((splitLines pending).2.map Line.text) = parts pending := rfl
        rw [← List.append_assoc, whole]
        have none : splitLines [] = ([], []) := rfl
        rw [openParts, none, List.map_nil, List.nil_append] at later
        rw [later]
        by_cases noLines : pending = []
        · rw [noLines, parts_nil, if_pos rfl, List.nil_append]
        · rw [if_neg noLines, List.flatMap_cons, List.append_assoc]
      · have later := ih (pending ++ [line])
        rw [group_ends_filled pending blank, ← later]
        unfold openParts
        rw [splitLines_append]
        by_cases isCrlf : line.ending = .crlf
        · have isCut : cuts line = true := by simp [cuts, isCrlf]
          rw [(group_cut line isCut _ rest).1, if_pos isCrlf, if_neg blank]
          simp [closing]
        · have uncut : cuts line = false := by simp [cuts, isCrlf, blank]
          rw [group_uncut line uncut, if_neg isCrlf]

theorem cutRecords_eq (text : List Char) :
    cutRecords text =
      (endedRecords text).flatMap parts ++ openParts (openLines text) :=
  group_cuts_parts [] (readLines text).ended

end Parts

section Frames

variable {Error : Type} (reader : FrameReader Error)

/-- The error of a payload that is a terminal frame. -/
def FrameReader.terminal (payload : List Char) : Option Error :=
  (reader.parse payload).bind reader.reportBody

/-- The data of a record. -/
def payload? (record : Record) : Option (List Char) :=
  match fieldValues "data" record with
  | [] => none
  | values => some (['\n'].intercalate values)

/-- The data of a part, with trimmed values, unless it is empty or the mark of
the end. -/
def partPayload? (part : Record) : Option (List Char) :=
  let data := ['\n'].intercalate (part.filterMap FrameReader.dataValue)
  if data = [] ∨ data = "[DONE]".toList then none else some data

/-- The terminal frame that a record is. -/
def FrameReader.recordFrame (record : Record) : Option Error :=
  (payload? record).bind reader.terminal

/-- The terminal frame that a part of a record is. -/
def FrameReader.partFrame (part : Record) : Option Error :=
  (partPayload? part).bind reader.terminal

theorem reportRecord_eq : reader.reportRecord = reader.recordFrame := by
  funext record
  unfold FrameReader.reportRecord FrameReader.recordFrame payload?
    FrameReader.terminal
  cases fieldValues "data" record with
  | nil => rfl
  | cons value rest =>
      simp only [Option.bind_some]
      cases reader.parse (['\n'].intercalate (value :: rest)) <;> rfl

theorem reportLines_eq : reader.reportLines = reader.partFrame := by
  funext part
  unfold FrameReader.reportLines FrameReader.partFrame partPayload?
    FrameReader.terminal
  dsimp only
  split
  case isTrue => rfl
  case isFalse =>
    simp only [Option.bind_some]
    cases reader.parse (['\n'].intercalate
      (part.filterMap FrameReader.dataValue)) <;> rfl

/-- A record that cutting does no harm: it is no terminal frame and has no part
that is, or it is one and so is one of its parts, with the same error. -/
inductive FrameReader.Unharmed (record : List Line) : Prop
  | silent (whole : reader.recordFrame (record.map Line.text) = none)
      (quiet : ∀ part ∈ parts record, reader.partFrame part = none)
  | reported {error : Error} {before after : List Record} {frame : Record}
      (whole : reader.recordFrame (record.map Line.text) = some error)
      (split : parts record = before ++ frame :: after)
      (found : reader.partFrame frame = some error)
      (quiet : ∀ part ∈ before ++ after, reader.partFrame part = none)

/-- Cutting does no harm to the records of a stream, and no part of the record
that is open at its end is a terminal frame. -/
structure FrameReader.KeepsFrames (bytes : List UInt8) : Prop where
  closed : ∀ record ∈ endedRecords (textOf bytes), reader.Unharmed record
  opened : ∀ part ∈ openParts (openLines (textOf bytes)),
    reader.partFrame part = none

theorem unharmed_iff (record : List Line) :
    reader.Unharmed record ↔ (parts record).filterMap reader.partFrame =
      (reader.recordFrame (record.map Line.text)).toList := by
  constructor
  · intro unharmed
    cases unharmed with
    | silent whole quiet =>
        rw [whole]
        exact List.filterMap_eq_nil_iff.mpr quiet
    | @reported error before after frame whole split found quiet =>
        have first : before.filterMap reader.partFrame = [] :=
          List.filterMap_eq_nil_iff.mpr fun part member =>
            quiet part (List.mem_append_left _ member)
        have last : after.filterMap reader.partFrame = [] :=
          List.filterMap_eq_nil_iff.mpr fun part member =>
            quiet part (List.mem_append_right _ member)
        rw [whole, split, List.filterMap_append, List.filterMap_cons, first,
          last, found]
        rfl
  · intro same
    cases whole : reader.recordFrame (record.map Line.text) with
    | none =>
        rw [whole] at same
        exact .silent whole (List.filterMap_eq_nil_iff.mp same)
    | some error =>
        rw [whole] at same
        obtain ⟨before, frame, after, split, first, found, last⟩ :=
          List.filterMap_eq_cons_iff.mp same
        refine .reported whole split found ?_
        intro part member
        rcases List.mem_append.mp member with inBefore | inAfter
        · exact first part inBefore
        · exact List.filterMap_eq_nil_iff.mp last part inAfter

/-- The reports of the parts of the records, in order, and of the open one. -/
theorem cutErrors_eq (bytes : List UInt8) :
    cutErrors reader bytes =
      (endedRecords (textOf bytes)).flatMap (fun record =>
          (parts record).filterMap reader.partFrame) ++
        (openParts (openLines (textOf bytes))).filterMap reader.partFrame := by
  unfold cutErrors
  rw [cutRecords_eq, List.filterMap_append, reportLines_eq,
    List.filterMap_flatMap]

theorem referenceErrors_eq (bytes : List UInt8) :
    referenceErrors reader bytes =
      (endedRecords (textOf bytes)).flatMap fun record =>
        (reader.recordFrame (record.map Line.text)).toList := by
  unfold referenceErrors
  rw [← endedRecords_texts, List.filterMap_map, reportRecord_eq]
  exact List.filterMap_eq_flatMap_toList _ _

theorem flatMap_frames {records : List (List Line)}
    (unharmed : ∀ record ∈ records, reader.Unharmed record) :
    records.flatMap (fun record =>
        (parts record).filterMap reader.partFrame) =
      records.flatMap fun record =>
        (reader.recordFrame (record.map Line.text)).toList := by
  apply List.flatMap_congr
  intro record member
  exact (unharmed_iff reader record).mp (unharmed record member)

/-- Where cutting does no harm, the reports are those of the whole records. -/
theorem FrameReader.KeepsFrames.cutErrors_eq {bytes : List UInt8}
    (keeps : reader.KeepsFrames bytes) :
    cutErrors reader bytes = referenceErrors reader bytes := by
  rw [Sdk.cutErrors_eq, referenceErrors_eq, flatMap_frames reader keeps.closed,
    List.filterMap_eq_nil_iff.mpr keeps.opened, List.append_nil]

end Frames

section RecordEnds

/-- The bytes end with the blank line of a record, or are none. -/
def RecordEnd (bytes : List UInt8) : Prop :=
  openLines (textOf bytes) = [] ∧ (readLines (textOf bytes)).rest = []

theorem rest_eq_current (text : List Char) :
    (readLines text).rest = (Cutter.new.run text).2.current := by
  have read := (Cutter.new.reads text [] [] Cutter.holds_new nofun).opened
  rw [Lines.prepend_nil] at read
  exact read.current.symm

theorem rest_append_plain (text : List Char) {char : Char}
    (plain : ¬ IsBreak char) : (readLines (text ++ [char])).rest ≠ [] := by
  rw [rest_eq_current, Cutter.run_append]
  simp [Cutter.run, Cutter.feed_plain plain]

theorem rest_append_break (text : List Char) {char : Char}
    (isBreak : IsBreak char) : (readLines (text ++ [char])).rest = [] := by
  rw [rest_eq_current, Cutter.run_append]
  generalize (Cutter.new.run text).2 = cutter
  simp only [Cutter.run, Cutter.feed, Cutter.endLine]
  split
  case isTrue => rfl
  case isFalse => split <;> rfl

theorem endedRecords_append_plain (text : List Char) {more : List Char}
    (plain : ∀ char ∈ more, ¬ IsBreak char) :
    endedRecords (text ++ more) = endedRecords text := by
  induction more generalizing text with
  | nil => rw [List.append_nil]
  | cons char more ih =>
      have later := ih (text ++ [char])
        (fun other member => plain other (List.mem_cons_of_mem _ member))
      rw [List.append_assoc, List.singleton_append] at later
      rw [later]
      unfold endedRecords
      rw [ended_append_plain text (plain char List.mem_cons_self)]

/-- At most one more record is closed, and then no line is open. -/
def ClosesOne (before after : List (List Line) × List Line) : Prop :=
  after.1 = before.1 ∨
    ∃ record, after.1 = before.1 ++ [record] ∧ after.2 = []

theorem ClosesOne.first_line {before after : List Line}
    (later : ∀ pending, ClosesOne (group ends holds pending before)
      (group ends holds pending after)) (line : Line) (pending : List Line) :
    ClosesOne (group ends holds pending (line :: before))
      (group ends holds pending (line :: after)) := by
  by_cases blank : line.text = []
  · rw [group_ends_blank pending blank, group_ends_blank pending blank]
    rcases later [] with same | ⟨record, closed, idle⟩
    · refine .inl ?_
      dsimp only
      rw [same]
    · refine .inr ⟨record, ?_, idle⟩
      dsimp only
      rw [closed]
      split <;> rfl
  · rw [group_ends_filled pending blank, group_ends_filled pending blank]
    exact later _

theorem ClosesOne.line (pending : List Line) (line : Line) :
    ClosesOne ([], pending) (group ends holds pending [line]) := by
  by_cases blank : line.text = []
  · rw [group_ends_blank pending blank]
    by_cases idle : pending = []
    · exact .inl (if_pos idle)
    · exact .inr ⟨pending, if_neg idle, rfl⟩
  · rw [group_ends_filled pending blank]
    exact .inl rfl

/-- How a line ends makes no difference. -/
theorem ClosesOne.line_end (pending : List Line) (text : List Char)
    (first second : Ending) :
    ClosesOne (group ends holds pending [⟨text, first⟩])
      (group ends holds pending [⟨text, second⟩]) := by
  by_cases blank : text = []
  · rw [group_ends_blank pending blank, group_ends_blank pending blank]
    exact .inl rfl
  · rw [group_ends_filled pending blank, group_ends_filled pending blank]
    exact .inl rfl

/-- A line end closes at most one record. -/
theorem closesOne_break (text : List Char) {char : Char}
    (isBreak : IsBreak char) (pending : List Line) (part : List Char) :
    ClosesOne (group ends holds pending ((readLines text).prepend part).ended)
      (group ends holds pending
        ((readLines (text ++ [char])).prepend part).ended) := by
  induction text using readLines.induct generalizing pending part with
  | case1 =>
      rcases isBreak with rfl | rfl
      · have lines : readLines ([] ++ ['\r']) = (readLines []).endLine .cr := rfl
        rw [lines, ended_prepend]
        exact .line pending _
      · have lines : readLines ([] ++ ['\n']) = (readLines []).endLine .lf := rfl
        rw [lines, ended_prepend]
        exact .line pending _
  | case2 rest ih =>
      have lines (rest : List Char) : readLines ('\r' :: '\n' :: rest) =
          (readLines rest).endLine .crlf := rfl
      rw [List.cons_append, List.cons_append, lines, lines, ended_prepend,
        ended_prepend]
      apply ClosesOne.first_line
      intro pending
      have later := ih pending []
      rwa [Lines.prepend_nil, Lines.prepend_nil] at later
  | case3 rest alone ih =>
      have single : rest.head? ≠ some '\n' := by
        intro isLf
        obtain ⟨tail, rfl⟩ := List.head?_eq_some_iff.mp isLf
        exact alone tail rfl
      by_cases joins : (rest ++ [char]).head? = some '\n'
      · -- The new character makes a CRLF of the CR.
        cases rest with
        | cons next rest => exact absurd joins single
        | nil =>
            obtain rfl := Option.some.inj joins
            have lines : readLines (['\r'] ++ ['\n']) =
                (readLines []).endLine .crlf := rfl
            rw [lines, readLines_cr single, ended_prepend, ended_prepend]
            exact .line_end pending part .cr .crlf
      · rw [List.cons_append, readLines_cr single, readLines_cr joins,
          ended_prepend, ended_prepend]
        apply ClosesOne.first_line
        intro pending
        have later := ih pending []
        rwa [Lines.prepend_nil, Lines.prepend_nil] at later
  | case4 rest ih =>
      have lines (rest : List Char) : readLines ('\n' :: rest) =
          (readLines rest).endLine .lf := rfl
      rw [List.cons_append, lines, lines, ended_prepend, ended_prepend]
      apply ClosesOne.first_line
      intro pending
      have later := ih pending []
      rwa [Lines.prepend_nil, Lines.prepend_nil] at later
  | case5 first rest notCrLf notCr notLf ih =>
      have plain : ¬ IsBreak first := not_or.mpr ⟨notCr, notLf⟩
      rw [List.cons_append, readLines_char plain, readLines_char plain,
        Lines.prepend_prepend, Lines.prepend_prepend]
      exact ih pending (part ++ [first])

theorem endedRecords_readSoFar (bytes : List UInt8) :
    endedRecords (textOf bytes) = endedRecords (readSoFar bytes) := by
  rw [textOf_eq]
  apply endedRecords_append_plain
  cases (Decoder.ready.run bytes).2 with
  | ready => exact nofun
  | inside more code range =>
      intro char member
      rw [List.mem_singleton.mp member]
      decide

/-- One more byte closes no record, or it ends one. -/
theorem endedRecords_append (bytes : List UInt8) (byte : UInt8) :
    endedRecords (textOf (bytes ++ [byte])) = endedRecords (textOf bytes) ∨
      ∃ record, endedRecords (textOf (bytes ++ [byte])) =
          endedRecords (textOf bytes) ++ [record] ∧
        RecordEnd (bytes ++ [byte]) := by
  by_cases isAscii : byte.toNat < 0x80
  · have text := textOf_append_ascii bytes isAscii
    by_cases isBreak : IsBreak (Char.ofNat byte.toNat)
    · have closes := closesOne_break (textOf bytes) isBreak [] []
      rw [Lines.prepend_nil, Lines.prepend_nil] at closes
      unfold RecordEnd
      rw [text]
      rcases closes with same | ⟨record, closed, idle⟩
      · exact .inl same
      · exact .inr ⟨record, closed, idle, rest_append_break _ isBreak⟩
    · refine .inl ?_
      rw [text]
      apply endedRecords_append_plain
      intro char member
      rwa [List.mem_singleton.mp member]
  · obtain ⟨more, text, wide⟩ :=
      textOf_append_wide bytes (Nat.not_lt.mp isAscii)
    refine .inl ?_
    rw [text, endedRecords_readSoFar bytes]
    apply endedRecords_append_plain
    rintro char member (rfl | rfl)
    · exact absurd (wide _ member) (by decide)
    · exact absurd (wide _ member) (by decide)

/-- At the end of a record nothing of a character is pending. -/
theorem RecordEnd.textOf_isPrefix {before bytes : List UInt8}
    (isEnd : RecordEnd before) (isPrefix : before <+: bytes) :
    textOf before <+: textOf bytes := by
  obtain ⟨after, rfl⟩ := isPrefix
  have text := textOf_eq before
  cases pending : (Decoder.ready.run before).2 with
  | ready =>
      rw [pending, Decoder.flush, List.append_nil] at text
      rw [text]
      exact readSoFar_isPrefix before after
  | inside more code range =>
      rw [pending, Decoder.flush] at text
      have filled := rest_append_plain (readSoFar before)
        (show ¬ IsBreak replacement by decide)
      rw [← text] at filled
      exact absurd isEnd.2 filled

theorem StaysBelow.before {before bytes : List UInt8}
    (below : StaysBelow bytes) (isEnd : RecordEnd before)
    (isPrefix : before <+: bytes) : StaysBelow before := by
  intro text isText
  exact below text (isText.trans (isEnd.textOf_isPrefix isPrefix))

end RecordEnds

section Agreement

variable {Error : Type} (reader : FrameReader Error)

/-- Whatever the chunks, successive pushes return the errors of a reader of
server-sent events. -/
def FrameReader.Agrees (bytes : List UInt8) : Prop :=
  ∀ chunks, chunks.flatten = bytes →
    (Parser.new.pushes reader chunks).flatten = referenceErrors reader bytes

/-- They do so on the stream, and on each of its starts that ends a record. -/
def FrameReader.AgreesThroughout (bytes : List UInt8) : Prop :=
  ∀ before, before <+: bytes → before = bytes ∨ RecordEnd before →
    reader.Agrees before

variable {reader} {bytes : List UInt8}

theorem agrees_iff (below : StaysBelow bytes) :
    reader.Agrees bytes ↔
      cutErrors reader bytes = referenceErrors reader bytes := by
  constructor
  · intro agrees
    have one : [bytes].flatten = bytes := List.flatten_singleton
    have pushed := pushes_eq_cutErrors reader [bytes] (one.symm ▸ below)
    rw [one] at pushed
    rw [← pushed]
    exact agrees [bytes] one
  · rintro same chunks rfl
    rw [pushes_eq_cutErrors reader chunks below, same]

theorem endedRecords_isPrefix (before after : List UInt8) :
    endedRecords (textOf before) <+: endedRecords (textOf (before ++ after)) := by
  induction after using List.reverseRecOn with
  | nil => rw [List.append_nil]
  | append_singleton after byte ih =>
      rw [← List.append_assoc]
      rcases endedRecords_append (before ++ after) byte with
        same | ⟨record, closed, _⟩
      · rwa [same]
      · rw [closed]
        exact ih.trans (List.prefix_append _ _)

/-- Where pushes agree at the end of every record, an error that one record
misses cannot be made up for by another. -/
theorem unharmed_of_agrees (below : StaysBelow bytes)
    (agrees : ∀ before, before <+: bytes → RecordEnd before →
      reader.Agrees before)
    {before : List UInt8} (isPrefix : before <+: bytes) :
    ∀ record ∈ endedRecords (textOf before), reader.Unharmed record := by
  induction before using List.reverseRecOn with
  | nil => exact nofun
  | append_singleton before byte ih =>
      have earlier := ih ((List.prefix_append before [byte]).trans isPrefix)
      rcases endedRecords_append before byte with
        same | ⟨record, closed, isEnd⟩
      · rwa [same]
      · have same := (agrees_iff (below.before isEnd isPrefix)).mp
          (agrees _ isPrefix isEnd)
        rw [cutErrors_eq, referenceErrors_eq, closed, isEnd.1,
          List.flatMap_append, List.flatMap_append,
          flatMap_frames reader earlier, List.append_assoc] at same
        have last := List.append_cancel_left same
        have unharmed : reader.Unharmed record := by
          rw [unharmed_iff]
          simpa [openParts, splitLines, group] using last
        intro other member
        rw [closed] at member
        rcases List.mem_append.mp member with inEarlier | isLast
        · exact earlier other inEarlier
        · rwa [List.mem_singleton.mp isLast]

/-- The pushes agree with a reader of server-sent events, on the stream and at
the end of each record of it, exactly where cutting the records at their CRLFs
and trimming their values does no harm to a terminal frame and makes none. -/
theorem pushes_eq_reference_iff (reader : FrameReader Error)
    (bytes : List UInt8) (below : StaysBelow bytes) :
    reader.AgreesThroughout bytes ↔ reader.KeepsFrames bytes := by
  constructor
  · intro agrees
    have closed := unharmed_of_agrees below
      (fun before isPrefix isEnd => agrees before isPrefix (.inr isEnd))
      (List.prefix_refl bytes)
    have same := (agrees_iff below).mp
      (agrees bytes (List.prefix_refl bytes) (.inl rfl))
    rw [cutErrors_eq, referenceErrors_eq, flatMap_frames reader closed,
      List.append_right_eq_self] at same
    exact ⟨closed, List.filterMap_eq_nil_iff.mp same⟩
  · intro keeps before isPrefix isEnd
    rcases isEnd with rfl | isEnd
    · exact (agrees_iff below).mpr (keeps.cutErrors_eq reader)
    · apply (agrees_iff (below.before isEnd isPrefix)).mpr
      apply FrameReader.KeepsFrames.cutErrors_eq
      obtain ⟨after, rfl⟩ := isPrefix
      constructor
      · intro record member
        exact keeps.closed record
          ((endedRecords_isPrefix before after).subset member)
      · rw [isEnd.1]
        exact nofun

end Agreement

section Plain

/-- A line whose data value trimming leaves as it is. -/
def PlainLine (line : List Char) : Prop :=
  FrameReader.dataValue line = (field line).bind fun (name, value) =>
    if name = "data".toList then some value else none

instance (line : List Char) : Decidable (PlainLine line) :=
  inferInstanceAs (Decidable (_ = _))

/-- A record without a CRLF but after its last line, and with data values that
trimming leaves as they are. -/
structure Plain (record : List Line) : Prop where
  uncut : ∀ line ∈ record.dropLast, line.ending ≠ .crlf
  values : ∀ line ∈ record, PlainLine line.text

theorem splitLines_of_uncut {lines : List Line}
    (uncut : ∀ line ∈ lines, line.ending ≠ .crlf) :
    splitLines lines = ([], lines) := by
  induction lines using List.reverseRecOn with
  | nil => rfl
  | append_singleton lines line ih =>
      have earlier := ih fun other member =>
        uncut other (List.mem_append_left _ member)
      have last := uncut line (List.mem_append_right _ List.mem_cons_self)
      rw [splitLines_append, if_neg last, earlier]

/-- A plain record is its own only part. -/
theorem Plain.parts_eq {record : List Line} (plain : Plain record) :
    parts record = closing (record.map Line.text) := by
  induction record using List.reverseRecOn with
  | nil => rfl
  | append_singleton lines line =>
      have uncut := plain.uncut
      rw [List.dropLast_concat] at uncut
      have earlier := splitLines_of_uncut uncut
      unfold parts openParts
      rw [splitLines_append, earlier]
      split
      · simp [closing]
      · simp [closing]

variable {Error : Type} {reader : FrameReader Error}

/-- A plain record is read as it should be. -/
theorem Plain.unharmed {record : List Line} (plain : Plain record)
    (noPayload : reader.parse [] = none ∧
      reader.parse "[DONE]".toList = none) : reader.Unharmed record := by
  have values : (record.map Line.text).filterMap FrameReader.dataValue =
      fieldValues "data" (record.map Line.text) := by
    apply List.filterMap_congr
    intro text member
    obtain ⟨line, inRecord, rfl⟩ := List.mem_map.mp member
    exact plain.values line inRecord
  have same : reader.partFrame (record.map Line.text) =
      reader.recordFrame (record.map Line.text) := by
    unfold FrameReader.partFrame FrameReader.recordFrame partPayload? payload?
    rw [values]
    cases fieldValues "data" (record.map Line.text) with
    | nil => rfl
    | cons value rest =>
        dsimp only
        split
        case isTrue silent =>
          simp only [Option.bind_none, Option.bind_some, FrameReader.terminal]
          rcases silent with isEmpty | isDone
          · rw [isEmpty, noPayload.1, Option.bind_none]
          · rw [isDone, noPayload.2, Option.bind_none]
        case isFalse => rfl
  rw [unharmed_iff, plain.parts_eq, ← same, ← reportLines_eq]
  exact filterMap_closing reader _

end Plain

section SampleStreams

/-- A terminal body, over two `data` lines. -/
def splitFrame : List UInt8 :=
  utf8 ("data: \x7b\"error\":\r\ndata: \x7b\"code\":\"upstream-error\"\x7d\x7d" ++
    "\r\n\r\n")

/-- The same with line feeds, and then on one line with CRLFs. -/
def wholeFrames : List UInt8 :=
  splitFrame.filter (· ≠ 13) ++
    utf8 ("data: \x7b\"error\":\x7b\"code\":\"upstream-error\"\x7d\x7d" ++
      "\r\n\r\n")

def sampleBody : Json :=
  .object [("error", .object [("code", .string terminalCode)])]

/-- Parses that body; neither of its two lines is a JSON text. -/
def sampleReader : FrameReader Unit where
  parse text :=
    if text.filter (· ≠ '\n') = ("\x7b\"error\":" ++
        "\x7b\"code\":\"upstream-error\"\x7d\x7d").toList then
      some sampleBody
    else
      none
  mapError _ := ()

theorem staysBelow_of_short {bytes : List UInt8}
    (short : JsString.length (textOf bytes) < maxPendingRecord) :
    StaysBelow bytes := by
  rintro before ⟨after, same⟩
  have bound := openSize_le before
  rw [← same, JsString.length_append] at short
  omega

/-- Both frames are found, however the bytes arrive. -/
theorem pushes_eq_reference_iff_sample :
    referenceErrors sampleReader wholeFrames = [(), ()] ∧
      sampleReader.AgreesThroughout wholeFrames := by
  have below : StaysBelow wholeFrames := staysBelow_of_short
    (by decide +kernel)
  have plain : ∀ record ∈ endedRecords (textOf wholeFrames),
      (∀ line ∈ record.dropLast, line.ending ≠ .crlf) ∧
        ∀ line ∈ record, PlainLine line.text := by
    decide +kernel
  refine ⟨by decide +kernel, (pushes_eq_reference_iff sampleReader _ below).mpr ?_⟩
  constructor
  · intro record member
    obtain ⟨uncut, values⟩ := plain record member
    exact Plain.unharmed ⟨uncut, values⟩ (by decide +kernel)
  · decide +kernel

/-- The CRLF between the two lines ends the record for the parser. -/
theorem pushes_miss_split_frame :
    StaysBelow splitFrame ∧
      (Parser.new.pushes sampleReader [splitFrame]).flatten = [] ∧
      referenceErrors sampleReader splitFrame = [()] := by
  have below : StaysBelow [splitFrame].flatten :=
    staysBelow_of_short (by decide)
  have pushed := pushes_eq_cutErrors sampleReader [splitFrame] below
  exact ⟨below, pushed.trans (by decide), by decide⟩

end SampleStreams

end Paigasus.Sdk
