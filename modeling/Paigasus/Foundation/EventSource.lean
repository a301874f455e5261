import Mathlib.Data.List.Basic
import Mathlib.Data.List.Infix

/-!
# Server-sent events

The text of an event stream is a sequence of lines, each ended by CRLF, CR or
LF.  A blank line ends the record before it.  A record with a `data` field is an
event; the record that is open at the end of the text is none.
-/

namespace Foundation.EventSource

inductive Ending where
  | crlf
  | cr
  | lf
deriving DecidableEq

/-- A line and how it ends. -/
structure Line where
  text : List Char
  ending : Ending
deriving DecidableEq

/-- The ended lines of a text, and what follows the last of them. -/
structure Lines where
  ended : List Line
  rest : List Char
deriving DecidableEq

namespace Lines

def endLine (ending : Ending) (lines : Lines) : Lines :=
  { lines with ended := ⟨[], ending⟩ :: lines.ended }

/-- Puts text in front of the first line. -/
def prepend (text : List Char) (lines : Lines) : Lines :=
  match lines.ended with
  | [] => { lines with rest := text ++ lines.rest }
  | first :: ended =>
      { lines with ended := { first with text := text ++ first.text } :: ended }

/-- The nonblank texts, the unended one included. -/
def texts (lines : Lines) : List (List Char) :=
  lines.ended.map Line.text ++ [lines.rest]

end Lines

def readLines : List Char → Lines
  | [] => ⟨[], []⟩
  | '\r' :: '\n' :: rest => (readLines rest).endLine .crlf
  | '\r' :: rest => (readLines rest).endLine .cr
  | '\n' :: rest => (readLines rest).endLine .lf
  | char :: rest => (readLines rest).prepend [char]

/-- The characters that end a line. -/
def IsBreak (char : Char) : Prop := char = '\r' ∨ char = '\n'

instance (char : Char) : Decidable (IsBreak char) :=
  inferInstanceAs (Decidable (_ ∨ _))

theorem readLines_cr {rest : List Char} (single : rest.head? ≠ some '\n') :
    readLines ('\r' :: rest) = (readLines rest).endLine .cr := by
  cases rest with
  | nil => rfl
  | cons char rest =>
      have notLf : char ≠ '\n' := by
        rintro rfl
        exact single rfl
      rw [readLines]
      rintro rest' ⟨⟩
      exact notLf rfl

theorem readLines_char {char : Char} (plain : ¬ IsBreak char)
    (rest : List Char) :
    readLines (char :: rest) = (readLines rest).prepend [char] := by
  obtain ⟨notCr, notLf⟩ := not_or.mp plain
  rw [readLines] <;> simp_all

@[simp]
theorem Lines.prepend_prepend (first second : List Char) (lines : Lines) :
    (lines.prepend second).prepend first = lines.prepend (first ++ second) := by
  cases lines with
  | mk ended rest =>
      cases ended with
      | nil => simp [prepend]
      | cons line ended => simp [prepend]

@[simp]
theorem Lines.prepend_nil (lines : Lines) : lines.prepend [] = lines := by
  cases lines with
  | mk ended rest =>
      cases ended with
      | nil => rfl
      | cons line ended => rfl

/-- Groups items into records.  An item that closes a record is its last one,
unless it is not kept; a record without items is none.  The second part is the
open record. -/
def group {α : Type} (closes keeps : α → Bool) (pending : List α) :
    List α → List (List α) × List α
  | [] => ([], pending)
  | item :: rest =>
      let taken := if keeps item then pending ++ [item] else pending
      if closes item then
        let later := group closes keeps [] rest
        (if taken = [] then later.1 else taken :: later.1, later.2)
      else
        group closes keeps taken rest

theorem group_append {α : Type} (closes keeps : α → Bool)
    (pending first second : List α) :
    group closes keeps pending (first ++ second) =
      ((group closes keeps pending first).1 ++
          (group closes keeps (group closes keeps pending first).2 second).1,
        (group closes keeps (group closes keeps pending first).2 second).2) := by
  induction first generalizing pending with
  | nil => rfl
  | cons item first ih =>
      simp only [List.cons_append, group]
      generalize (if keeps item then pending ++ [item] else pending) = taken
      by_cases isClosed : closes item = true
      · by_cases noItems : taken = []
        · simp [isClosed, noItems, ih]
        · simp [isClosed, noItems, ih]
      · rw [if_neg isClosed, if_neg isClosed]
        exact ih taken

/-- The nonblank lines of a record. -/
abbrev Record : Type := List (List Char)

def isBlank (text : List Char) : Bool := text.isEmpty

def isFilled (text : List Char) : Bool := !text.isEmpty

/-- The records that blank lines close, and the ended lines of the open one. -/
def Lines.grouped (pending : Record) (lines : Lines) : List Record × Record :=
  group isBlank isFilled pending (lines.ended.map Line.text)

/-- The one record of some lines. -/
def closing (lines : Record) : List Record :=
  if lines = [] then [] else [lines]

/-- The lines of the open record, the unended one included. -/
def Lines.opened (pending : Record) (lines : Lines) : Record :=
  (lines.grouped pending).2 ++ if lines.rest = [] then [] else [lines.rest]

/-- The records of a text, without the open one. -/
def records (text : List Char) : List Record := ((readLines text).grouped []).1

def openRecord (text : List Char) : Record := (readLines text).opened []

section Grouping

variable (pending : Record) (lines : Lines)

theorem group_blank (rest : List (List Char)) :
    group isBlank isFilled pending ([] :: rest) =
      (closing pending ++ (group isBlank isFilled [] rest).1,
        (group isBlank isFilled [] rest).2) := by
  cases pending with
  | nil => rfl
  | cons line pending => rfl

theorem group_filled {text : List Char} (filled : text ≠ [])
    (rest : List (List Char)) :
    group isBlank isFilled pending (text :: rest) =
      group isBlank isFilled (pending ++ [text]) rest := by
  cases text with
  | nil => exact absurd rfl filled
  | cons char text => rfl

/-- What a line with the given text does to the lines before it. -/
theorem grouped_endLine_prepend (ending : Ending) (text : List Char) :
    ((lines.endLine ending).prepend text).grouped pending =
      if text = [] then
        (closing pending ++ (lines.grouped []).1, (lines.grouped []).2)
      else
        lines.grouped (pending ++ [text]) := by
  split
  case isTrue blank =>
    subst blank
    rw [Lines.prepend_nil]
    exact group_blank pending _
  case isFalse filled =>
    simp only [Lines.grouped, Lines.endLine, Lines.prepend, List.map_cons,
      List.append_nil]
    exact group_filled pending filled _

theorem rest_endLine_prepend (ending : Ending) (text : List Char) :
    ((lines.endLine ending).prepend text).rest = lines.rest := rfl

theorem opened_endLine_prepend (ending : Ending) (text : List Char) :
    ((lines.endLine ending).prepend text).opened pending =
      if text = [] then lines.opened []
      else lines.opened (pending ++ [text]) := by
  unfold Lines.opened
  rw [grouped_endLine_prepend, rest_endLine_prepend]
  split <;> rfl

end Grouping

/-- A line that ends the same way in two texts. -/
theorem blank_line_step {before whole : Lines} {after : List Char}
    (rest : ∀ pending,
      (whole.grouped pending).1 = (before.grouped pending).1 ++
          closing (before.opened pending) ++ records after ∧
        whole.opened pending = openRecord after)
    (first second : Ending) (text : List Char) (pending : Record) :
    (((whole.endLine first).prepend text).grouped pending).1 =
        (((before.endLine second).prepend text).grouped pending).1 ++
          closing (((before.endLine second).prepend text).opened pending) ++
          records after ∧
      ((whole.endLine first).prepend text).opened pending =
        openRecord after := by
  simp only [grouped_endLine_prepend, opened_endLine_prepend]
  split
  case isTrue =>
    obtain ⟨closed, opened⟩ := rest []
    exact ⟨by simp only [closed, List.append_assoc], opened⟩
  case isFalse => exact rest (pending ++ [text])

/-- Two line feeds close the record that is open before them. -/
theorem grouped_blank_line (before after text : List Char) (pending : Record) :
    (((readLines (before ++ '\n' :: '\n' :: after)).prepend text).grouped
        pending).1 =
      (((readLines before).prepend text).grouped pending).1 ++
        closing (((readLines before).prepend text).opened pending) ++
        records after ∧
    ((readLines (before ++ '\n' :: '\n' :: after)).prepend text).opened
        pending = openRecord after := by
  have blank (pending : Record) :
      (((readLines after).endLine .lf).grouped pending).1 =
          ((readLines []).grouped pending).1 ++
            closing ((readLines []).opened pending) ++ records after ∧
        ((readLines after).endLine .lf).opened pending = openRecord after := by
    have closed := grouped_endLine_prepend pending (readLines after) .lf []
    have opened := opened_endLine_prepend pending (readLines after) .lf []
    rw [Lines.prepend_nil, if_pos rfl] at closed opened
    have noLines : (readLines []).opened pending = pending :=
      List.append_nil pending
    rw [closed, noLines]
    exact ⟨rfl, opened⟩
  induction before using readLines.induct generalizing text pending with
  | case1 =>
      have both : readLines ([] ++ '\n' :: '\n' :: after) =
          ((readLines after).endLine .lf).endLine .lf := rfl
      rw [both, grouped_endLine_prepend, opened_endLine_prepend]
      split
      case isTrue isEmpty =>
        obtain ⟨closed, opened⟩ := blank []
        subst isEmpty
        have noLines : (readLines []).opened pending = pending :=
          List.append_nil pending
        rw [Lines.prepend_nil, noLines]
        exact ⟨congrArg (closing pending ++ ·) closed, opened⟩
      case isFalse filled =>
        obtain ⟨closed, opened⟩ := blank (pending ++ [text])
        refine ⟨closed.trans ?_, opened⟩
        have lines : ((readLines []).prepend text).opened pending =
            pending ++ [text] := by
          simp [readLines, Lines.prepend, Lines.opened, Lines.grouped, group,
            filled]
        have noLines : (readLines []).opened (pending ++ [text]) =
            pending ++ [text] := List.append_nil _
        rw [lines, noLines]
        rfl
  | case2 rest ih =>
      have step (pending : Record) := ih [] pending
      simp only [Lines.prepend_nil] at step
      exact blank_line_step step .crlf .crlf text pending
  | case3 rest single ih =>
      have step (pending : Record) := ih [] pending
      simp only [Lines.prepend_nil] at step
      cases rest with
      | nil => exact blank_line_step blank .crlf .cr text pending
      | cons char rest =>
          have notLf : char ≠ '\n' := by
            rintro rfl
            exact single rest rfl
          rw [List.cons_append, readLines_cr (by simpa using notLf),
            readLines_cr (by simpa using notLf)]
          exact blank_line_step step .cr .cr text pending
  | case4 rest ih =>
      have step (pending : Record) := ih [] pending
      simp only [Lines.prepend_nil] at step
      exact blank_line_step step .lf .lf text pending
  | case5 char rest notCrLf notCr notLf ih =>
      have plain : ¬ IsBreak char := not_or.mpr ⟨notCr, notLf⟩
      rw [List.cons_append, readLines_char plain, readLines_char plain,
        Lines.prepend_prepend, Lines.prepend_prepend]
      exact ih (text ++ [char]) pending

theorem records_blank_line (before after : List Char) :
    records (before ++ '\n' :: '\n' :: after) =
      records before ++ closing (openRecord before) ++ records after := by
  have closed := (grouped_blank_line before after [] []).1
  simp only [Lines.prepend_nil] at closed
  exact closed

theorem openRecord_blank_line (before after : List Char) :
    openRecord (before ++ '\n' :: '\n' :: after) = openRecord after := by
  have opened := (grouped_blank_line before after [] []).2
  simp only [Lines.prepend_nil] at opened
  exact opened

/-- The name and the value of a line that is no comment; one space after the
colon is no part of the value. -/
def field (line : List Char) : Option (List Char × List Char) :=
  match line.dropWhile (· ≠ ':') with
  | [] => some (line, [])
  | _ :: value =>
      if line.head? = some ':' then
        none
      else
        some (line.takeWhile (· ≠ ':'),
          if value.head? = some ' ' then value.tail else value)

/-- The values of the fields of one name. -/
def fieldValues (name : String) (record : Record) : List (List Char) :=
  record.filterMap fun line =>
    (field line).bind fun (found, value) =>
      if found = name.toList then some value else none

theorem fieldValues_singleton {line found value : List Char}
    (parsed : field line = some (found, value)) (name : String) :
    fieldValues name [line] = if found = name.toList then [value] else [] := by
  simp only [fieldValues, List.filterMap_cons, parsed, Option.bind_some]
  by_cases same : found = name.toList
  · simp [same]
  · simp [same]

/-- An event as its listeners see it. -/
structure Event where
  kind : List Char
  data : List Char
  lastEventId : List Char
deriving DecidableEq

/-- The identifier in force after a record. -/
def lastId (id : List Char) (record : Record) : List Char :=
  ((fieldValues "id" record).filter fun value =>
    !value.contains (Char.ofNat 0)).getLast?.getD id

def eventKind (record : Record) : List Char :=
  match (fieldValues "event" record).getLast?.getD [] with
  | [] => "message".toList
  | kind => kind

/-- The event of a record with `data` fields. -/
def dispatch (id : List Char) (record : Record) : Option Event :=
  match fieldValues "data" record with
  | [] => none
  | values =>
      some ⟨eventKind record, ['\n'].intercalate values, lastId id record⟩

/-- The events of some records, and the identifier after them. -/
def interpret (id : List Char) : List Record → List Event × List Char
  | [] => ([], id)
  | record :: rest =>
      let later := interpret (lastId id record) rest
      ((dispatch id record).toList ++ later.1, later.2)

theorem interpret_append (id : List Char) (first second : List Record) :
    interpret id (first ++ second) =
      ((interpret id first).1 ++ (interpret (interpret id first).2 second).1,
        (interpret (interpret id first).2 second).2) := by
  induction first generalizing id with
  | nil => rfl
  | cons record first ih =>
      simp only [List.cons_append, interpret, ih, List.append_assoc]

end Foundation.EventSource
