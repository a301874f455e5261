import Paigasus.Foundation.EventSource
import Paigasus.Foundation.Utf8
import Paigasus.Gateway.ChatCompletion

/-!
# The terminal frame

When an upstream stream fails, the relay sends one frame after the bytes it has
forwarded.  Wherever the upstream stopped, a client that reads server-sent
events sees the records of those bytes, the open one closed, and then the frame
as one record of its own.
-/

namespace Paigasus.Gateway

open Foundation

namespace TerminalFrame

open EventSource Utf8

/-- The records of a prefix, the open one closed. -/
def closedRecords (bytes : List UInt8) : List Record :=
  records (textOf bytes) ++ closing (openRecord (textOf bytes))

def payload : String :=
  "\x7b\"error\":\x7b\"message\":\"upstream stream error\",\"type\":\"api_error\",\"param\":null,\"code\":\"upstream-error\"\x7d\x7d"

/-- The one line of the frame that is not blank. -/
def line : List Char := ("data: " ++ payload).toList

theorem line_eq : line = "data: ".toList ++ payload.toList :=
  String.toList_append

/-- The text of the frame, which is ASCII, and its characters. -/
theorem terminalSseError_text : ∃ text, terminalSseError = utf8 text ∧
    text.toList.all (fun char => char.toNat < 0x80) = true ∧
      text.toList = '\n' :: '\n' :: (line ++ ['\n', '\n']) := by
  refine ⟨_, rfl, ?_, ?_⟩
  · exact holds_of_chars (fun chars =>
      chars.all (fun char => char.toNat < 0x80) = true) (by decide)
  · rw [line_eq]
    exact holds_of_chars (fun whole => whole = '\n' :: '\n' ::
      ("data: ".toList ++ payload.toList ++ ['\n', '\n']))
        (holds_of_chars (fun name => _ = '\n' :: '\n' ::
          (name ++ payload.toList ++ ['\n', '\n']))
            (holds_of_chars (fun value => _ = '\n' :: '\n' ::
              (_ ++ value ++ ['\n', '\n'])) rfl))

theorem terminalSseError_eq :
    terminalSseError.map (fun byte => Char.ofNat byte.toNat) =
      '\n' :: '\n' :: (line ++ ['\n', '\n']) := by
  obtain ⟨text, isText, ascii, chars⟩ := terminalSseError_text
  rw [isText, chars_of_utf8 ascii, chars]

theorem terminalSseError_ascii :
    ∀ byte ∈ terminalSseError, byte.toNat < 0x80 := by
  obtain ⟨text, isText, ascii, _⟩ := terminalSseError_text
  rw [isText]
  exact ascii_of_utf8 ascii

theorem textOf_frame (bytes : List UInt8) :
    textOf (bytes ++ terminalSseError) =
      textOf bytes ++ '\n' :: '\n' :: (line ++ ['\n', '\n']) := by
  unfold textOf
  have present : terminalSseError ≠ [] := by
    intro isNil
    have chars := terminalSseError_eq
    rw [isNil] at chars
    cases chars
  rw [decode_append_ascii_end bytes present terminalSseError_ascii,
    terminalSseError_eq]
  exact dropMark_append (by decide) _ _

theorem records_line : records (line ++ ['\n', '\n']) = [[line]] := by
  rw [line_eq]
  exact holds_of_chars (fun value => records
    ("data: ".toList ++ value ++ ['\n', '\n']) = [["data: ".toList ++ value]])
      (holds_of_chars (fun name =>
        records (name ++ _ ++ ['\n', '\n']) = [[name ++ _]])
          (by decide +kernel))

theorem openRecord_line : openRecord (line ++ ['\n', '\n']) = [] := by
  rw [line_eq]
  exact holds_of_chars (fun value =>
    openRecord ("data: ".toList ++ value ++ ['\n', '\n']) = [])
      (holds_of_chars (fun name =>
        openRecord (name ++ _ ++ ['\n', '\n']) = []) (by decide +kernel))

theorem field_line : field line = some ("data".toList, payload.toList) := by
  rw [line_eq]
  exact holds_of_chars (fun value => field ("data: ".toList ++ value) =
    some ("data".toList, value))
      (holds_of_chars (fun name => field (name ++ _) =
        some ("data".toList, _))
          (holds_of_chars (fun kind => field _ = some (kind, _))
            (by decide)))

theorem records_terminal (bytes : List UInt8) :
    records (textOf (bytes ++ terminalSseError)) =
      closedRecords bytes ++ [[line]] := by
  rw [textOf_frame, records_blank_line, records_line]
  rfl

theorem openRecord_terminal (bytes : List UInt8) :
    openRecord (textOf (bytes ++ terminalSseError)) = [] := by
  rw [textOf_frame, openRecord_blank_line, openRecord_line]

/-- The frame is a message with the error, and keeps the last identifier. -/
theorem interpret_line (id : List Char) :
    interpret id [[line]] = ([⟨"message".toList, payload.toList, id⟩], id) := by
  have fields := fieldValues_singleton field_line
  have noId : lastId id [line] = id := by
    unfold lastId
    rw [fields, if_neg (by decide)]
    rfl
  have noKind : eventKind [line] = "message".toList := by
    unfold eventKind
    rw [fields, if_neg (by decide)]
    rfl
  simp only [interpret, dispatch, noId, noKind, fields, if_pos,
    List.intercalate_singleton, Option.toList_some, List.append_nil]

end TerminalFrame

namespace Exchange

/-- The relay forwards some chunks. -/
def relayChunks (json : JsonReader) (exchange : Exchange) (relay : Relay)
    (now : SystemTime) : List (List UInt8) → Exchange × Relay
  | [] => (exchange, relay)
  | chunk :: rest =>
      relayChunks json (exchange.relayItem json relay now (.chunk chunk))
        (relay.feed json chunk) now rest

theorem relayChunks_body (json : JsonReader) (exchange : Exchange)
    (relay : Relay) (now : SystemTime) (chunks : List (List UInt8)) :
    (relayChunks json exchange relay now chunks).1.body =
      exchange.body ++ chunks.flatten := by
  induction chunks generalizing exchange relay with
  | nil => simp [relayChunks]
  | cons chunk rest ih =>
      rw [relayChunks, ih, relayItem, List.flatten_cons, List.append_assoc]

/-- The body of a response whose upstream failed after some chunks. -/
def failedBody (json : JsonReader) (exchange : Exchange) (relay : Relay)
    (now : SystemTime) (chunks : List (List UInt8)) : List UInt8 :=
  let reached := relayChunks json exchange relay now chunks
  (reached.1.relayItem json reached.2 now .failed).body

end Exchange

open EventSource TerminalFrame Utf8 in
/-- Whatever the upstream sent before it failed, the frame closes the open
record and is one record of its own, and one event of its own. -/
theorem terminal_frame_is_one_record (json : JsonReader) (exchange : Exchange)
    (relay : Relay) (now : SystemTime) (chunks : List (List UInt8)) :
    let before := exchange.body ++ chunks.flatten
    let text := textOf (exchange.failedBody json relay now chunks)
    let closed := interpret [] (closedRecords before)
    records text = closedRecords before ++ [[TerminalFrame.line]] ∧
      openRecord text = [] ∧
      interpret [] (records text) =
        (closed.1 ++ [⟨"message".toList, payload.toList, closed.2⟩],
          closed.2) := by
  have body : exchange.failedBody json relay now chunks =
      exchange.body ++ chunks.flatten ++ terminalSseError := by
    unfold Exchange.failedBody
    dsimp only
    rw [Exchange.relayItem, Exchange.relayChunks_body]
  dsimp only
  rw [body, records_terminal, openRecord_terminal, interpret_append,
    interpret_line]
  exact ⟨rfl, rfl, rfl⟩

end Paigasus.Gateway
