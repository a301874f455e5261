import Mathlib.Data.List.Basic
import Mathlib.Data.List.TakeWhile

/-!
# Event streams

The lines of a byte stream end with CR, LF or CRLF; a blank line closes the
record before it, and so does the end of the stream.  A line is a comment or a
field, whose name ends at the first colon.
-/

namespace Foundation.EventStream

/-- A line without its terminator. -/
abbrev Line : Type := List UInt8

def cr : UInt8 := 13

def lf : UInt8 := 10

/-- Puts bytes in front of the first line. -/
def attach (bytes : Line) : List Line → List Line
  | [] => [bytes]
  | line :: rest => (bytes ++ line) :: rest

/-- The lines of a stream, the unterminated last one included. -/
def splitLines : List UInt8 → List Line
  | [] => [[]]
  | [byte] => if byte = cr ∨ byte = lf then [[], []] else [[byte]]
  | first :: second :: rest =>
      if first = cr ∧ second = lf then
        [] :: splitLines rest
      else if first = cr ∨ first = lf then
        [] :: splitLines (second :: rest)
      else
        attach [first] (splitLines (second :: rest))

/-- The rest of a stream after a CR: a line feed belongs to it. -/
def skipLf : List UInt8 → List UInt8
  | [] => []
  | byte :: rest => if byte = lf then rest else byte :: rest

/-- Groups lines into records; `pending` are the lines of the open one. -/
def groupRecords (pending : List Line) : List Line → List (List Line)
  | [] => if pending = [] then [] else [pending]
  | line :: rest =>
      if line = [] then
        if pending = [] then groupRecords [] rest
        else pending :: groupRecords [] rest
      else
        groupRecords (pending ++ [line]) rest

/-- The byte order mark at the start of a stream is no part of it. -/
def dropMark : List UInt8 → List UInt8
  | 0xef :: 0xbb :: 0xbf :: rest => rest
  | bytes => bytes

def colon : UInt8 := 58

def space : UInt8 := 32

/-- The name and the value of a line that is no comment; one space after the
colon is no part of the value, and a line without a colon has an empty one. -/
def field (line : Line) : Option (List UInt8 × List UInt8) :=
  match line.dropWhile (· ≠ colon) with
  | [] => some (line, [])
  | _ :: value =>
      if line.head? = some colon then
        none
      else
        some (line.takeWhile (· ≠ colon),
          if value.head? = some space then value.tail else value)

/-- The values of the fields of one name. -/
def fieldValues (name : List UInt8) (record : List Line) : List (List UInt8) :=
  record.filterMap fun line =>
    (field line).bind fun (found, value) =>
      if found = name then some value else none

/-- The records of a stream, the open one at its end included. -/
def records (bytes : List UInt8) : List (List Line) :=
  groupRecords [] (splitLines bytes)

theorem attach_cons (bytes line : Line) (rest : List Line) :
    attach bytes (line :: rest) = (bytes ++ line) :: rest :=
  rfl

theorem attach_nil {lines : List Line} (present : lines ≠ []) :
    attach [] lines = lines := by
  cases lines with
  | nil => exact absurd rfl present
  | cons line rest => rfl

theorem attach_attach (first second : Line) (lines : List Line) :
    attach first (attach second lines) = attach (first ++ second) lines := by
  cases lines with
  | nil => rfl
  | cons line rest => simp [attach, List.append_assoc]

theorem attach_ne_nil (bytes : Line) (lines : List Line) :
    attach bytes lines ≠ [] := by
  cases lines with
  | nil => simp [attach]
  | cons line rest => simp [attach]

theorem splitLines_ne_nil (bytes : List UInt8) : splitLines bytes ≠ [] := by
  match bytes with
  | [] => simp [splitLines]
  | [byte] =>
      simp only [splitLines]
      split <;> simp
  | first :: second :: rest =>
      simp only [splitLines]
      split
      · simp
      · split
        · simp
        · exact attach_ne_nil _ _

theorem splitLines_lf (rest : List UInt8) :
    splitLines (lf :: rest) = [] :: splitLines rest := by
  have notCr : lf ≠ cr := by decide
  cases rest with
  | nil => simp [splitLines]
  | cons second rest => simp [splitLines, notCr]

theorem splitLines_cr (rest : List UInt8) :
    splitLines (cr :: rest) = [] :: splitLines (skipLf rest) := by
  cases rest with
  | nil => simp [splitLines, skipLf]
  | cons second rest =>
      by_cases isLf : second = lf
      · simp [splitLines, skipLf, isLf]
      · simp [splitLines, skipLf, isLf]

theorem splitLines_byte {byte : UInt8} (notCr : byte ≠ cr) (notLf : byte ≠ lf)
    (rest : List UInt8) :
    splitLines (byte :: rest) = attach [byte] (splitLines rest) := by
  cases rest with
  | nil => simp [splitLines, notCr, notLf, attach]
  | cons second rest => simp [splitLines, notCr, notLf]

theorem dropMark_eq_self {bytes : List UInt8}
    (unmarked : ¬ [0xef, 0xbb, 0xbf] <+: bytes) : dropMark bytes = bytes := by
  unfold dropMark
  split
  case h_1 rest => exact absurd (List.prefix_append [0xef, 0xbb, 0xbf] rest) unmarked
  case h_2 => rfl

/-- The field of a line that begins with a name and a colon. -/
theorem field_append {name : List UInt8} (present : name ≠ [])
    (free : colon ∉ name) (value : List UInt8) :
    field (name ++ colon :: value) = some (name,
      if value.head? = some space then value.tail else value) := by
  have passes : ∀ byte ∈ name, decide (byte ≠ colon) = true := by
    intro byte member
    rw [decide_eq_true_eq]
    rintro rfl
    exact free member
  have behind : (name ++ colon :: value).dropWhile (· ≠ colon) =
      colon :: value := by
    rw [List.dropWhile_append_of_pos passes]
    exact List.dropWhile_cons_of_neg (by simp)
  have before : (name ++ colon :: value).takeWhile (· ≠ colon) = name := by
    rw [List.takeWhile_append_of_pos passes,
      List.takeWhile_cons_of_neg (by simp), List.append_nil]
  have first : (name ++ colon :: value).head? ≠ some colon := by
    cases name with
    | nil => exact absurd rfl present
    | cons byte name =>
        intro same
        cases same
        exact free List.mem_cons_self
  unfold field
  rw [behind, before]
  exact if_neg first

/-- What a line with a field is made of. -/
theorem field_some {line name value : List UInt8}
    (parsed : field line = some (name, value)) :
    line = name ∨ ∃ rest, line = name ++ colon :: rest := by
  unfold field at parsed
  split at parsed
  case h_1 =>
    cases parsed
    exact .inl rfl
  case h_2 byte rest behind =>
    split at parsed
    case isTrue => cases parsed
    case isFalse =>
      cases parsed
      have isColon : byte = colon := by
        have stops := List.head?_dropWhile_not (· ≠ colon) line
        rw [behind, List.head?_cons] at stops
        simpa using stops
      subst isColon
      refine .inr ⟨rest, ?_⟩
      rw [← behind, List.takeWhile_append_dropWhile]

end Foundation.EventStream
