import Paigasus.Foundation.EventSource
import Paigasus.Foundation.JsString
import Paigasus.Foundation.Json
import Paigasus.Foundation.Utf8

/-!
# The terminal frame parser

The SDK looks for the terminal error frame in a stream that its caller reads in
chunks.  The parser ends a record where its delimiter matches, and the delimiter
matches every CRLF: a record is cut at each of its CRLFs.  Otherwise it reports,
whatever the chunks, what a reader of server-sent events reports.
-/

namespace Paigasus.Sdk

open Foundation EventSource

/-- A streaming decoder; the mark counts at the start only. -/
structure TextDecoder where
  decoder : Utf8.Decoder
  started : Bool
deriving DecidableEq

namespace TextDecoder

def new : TextDecoder := ⟨.ready, false⟩

/-- `decode(chunk, { stream: true })` -/
def decode (decoder : TextDecoder) (chunk : List UInt8) :
    List Char × TextDecoder :=
  let read := decoder.decoder.run chunk
  if decoder.started then (read.1, ⟨read.2, true⟩)
  else (Utf8.dropMark read.1, ⟨read.2, !read.1.isEmpty⟩)

end TextDecoder

/-- The rests of a text after each way to read one line end at its start, in
the order in which they are tried. -/
def afterBreak : List Char → List (List Char)
  | '\r' :: '\n' :: rest => [rest, '\n' :: rest]
  | '\r' :: rest => [rest]
  | '\n' :: rest => [rest]
  | _ => []

/-- What follows the delimiter at the start of a text: two line ends, the first
of them tried again when the second fails. -/
def afterDelimiter (text : List Char) : Option (List Char) :=
  ((afterBreak text).flatMap afterBreak).head?

/-- What precedes and what follows the first delimiter of a text. -/
def execDelimiter : List Char → Option (List Char × List Char)
  | [] => none
  | char :: rest =>
      match afterDelimiter (char :: rest) with
      | some after => some ([], after)
      | none => (execDelimiter rest).map fun (before, after) =>
          (char :: before, after)

def maxPendingRecord : Nat := 64 * 1024

def terminalCode : String := "upstream-error"

/-- `JSON.parse`, and the mapping of a terminal body for one response head. -/
structure FrameReader (Error : Type) where
  parse : List Char → Option Json
  mapError : Json → Error

namespace FrameReader

variable {Error : Type} (reader : FrameReader Error)

def reportBody (body : Json) : Option Error :=
  match body.pointer ["error", "code"] with
  | some (.string code) =>
      if code = terminalCode then some (reader.mapError body) else none
  | _ => none

/-- The value of a `data:` line. -/
def dataValue (line : List Char) : Option (List Char) :=
  if "data:".toList.isPrefixOf line then
    some (JsString.trim (line.drop "data:".length))
  else
    none

/-- The report on the lines of a record. -/
def reportLines (lines : List (List Char)) : Option Error :=
  let data := ['\n'].intercalate (lines.filterMap dataValue)
  if data = [] ∨ data = "[DONE]".toList then
    none
  else
    match reader.parse data with
    | none => none
    | some body => reader.reportBody body

/-- The report on a record, split at its line ends. -/
def terminalErrorFrom (record : List Char) : Option Error :=
  reader.reportLines (readLines record).texts

/-- What a reader of server-sent events reports on a record. -/
def reportRecord (record : Record) : Option Error :=
  match fieldValues "data" record with
  | [] => none
  | values =>
      match reader.parse (['\n'].intercalate values) with
      | none => none
      | some body => reader.reportBody body

end FrameReader

structure Parser where
  decoder : TextDecoder
  buffer : List Char
  resynchronising : Bool
deriving DecidableEq

theorem afterBreak_length {text after : List Char}
    (member : after ∈ afterBreak text) : after.length < text.length := by
  unfold afterBreak at member
  split at member <;> simp_all <;> grind

theorem execDelimiter_length {text before after : List Char}
    (found : execDelimiter text = some (before, after)) :
    after.length < text.length := by
  induction text generalizing before with
  | nil => cases found
  | cons char rest ih =>
      unfold execDelimiter at found
      split at found
      case h_1 _ here =>
        cases found
        obtain ⟨middle, first, second⟩ :=
          List.mem_flatMap.mp (List.mem_of_head? here)
        exact (afterBreak_length second).trans (afterBreak_length first)
      case h_2 =>
        obtain ⟨⟨_, _⟩, later, same⟩ := Option.map_eq_some_iff.mp found
        cases same
        exact (ih later).trans (Nat.lt_succ_self _)

/-- The loop of one push: the errors, whether it still skips a tail, and the
pending text. -/
def drain {Error : Type} (reader : FrameReader Error) (resynchronising : Bool)
    (buffer : List Char) : List Error × Bool × List Char :=
  match found : execDelimiter buffer with
  | none => ([], resynchronising, buffer)
  | some (record, rest) =>
      let later := drain reader false rest
      if resynchronising then later
      else ((reader.terminalErrorFrom record).toList ++ later.1, later.2)
termination_by buffer.length
decreasing_by exact execDelimiter_length found

namespace Parser

def new : Parser := ⟨.new, [], false⟩

def push {Error : Type} (reader : FrameReader Error) (parser : Parser)
    (chunk : List UInt8) : List Error × Parser :=
  let decoded := parser.decoder.decode chunk
  let drained := drain reader parser.resynchronising
    (parser.buffer ++ decoded.1)
  if maxPendingRecord < JsString.length drained.2.2 then
    (drained.1, ⟨decoded.2, [], true⟩)
  else
    (drained.1, ⟨decoded.2, drained.2.2, drained.2.1⟩)

/-- The errors of successive pushes. -/
def pushes {Error : Type} (reader : FrameReader Error) (parser : Parser) :
    List (List UInt8) → List (List Error)
  | [] => []
  | chunk :: rest =>
      let step := parser.push reader chunk
      step.1 :: pushes reader step.2 rest

end Parser

end Paigasus.Sdk
