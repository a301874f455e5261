import Mathlib.Data.List.Chain
import Paigasus.Foundation.Bytes
import Paigasus.Sdk.TerminalFrameParser

/-!
# What the terminal frame parser reads

A cutter reads the text of a stream one character at a time and ends a record
after each CRLF and at each blank line.  The parser's loop does the same on a
buffer, and its buffer stands for the text so far, so the chunks do not matter.
-/

namespace Paigasus.Sdk

open Foundation EventSource

/-- The filled lines of the open record, the open line, whether the last
character was a CR, and the length of the open record. -/
structure Cutter where
  lines : Record
  current : List Char
  afterCr : Bool
  size : Nat
deriving DecidableEq

namespace Cutter

def new : Cutter := ⟨[], [], false, 0⟩

def endLine (cutter : Cutter) (char : Char) : List Record × Cutter :=
  if cutter.current = [] then
    (closing cutter.lines, ⟨[], [], char = '\r', 0⟩)
  else
    ([], ⟨cutter.lines ++ [cutter.current], [], char = '\r', cutter.size + 1⟩)

def feed (cutter : Cutter) (char : Char) : List Record × Cutter :=
  if cutter.afterCr = true ∧ char = '\n' then
    (closing cutter.lines, new)
  else if IsBreak char then
    cutter.endLine char
  else
    ([], ⟨cutter.lines, cutter.current ++ [char], false,
      cutter.size + JsString.units char⟩)

def run (cutter : Cutter) : List Char → List Record × Cutter
  | [] => ([], cutter)
  | char :: rest =>
      let step := cutter.feed char
      let later := run step.2 rest
      (step.1 ++ later.1, later.2)

theorem run_append (cutter : Cutter) (first second : List Char) :
    cutter.run (first ++ second) =
      ((cutter.run first).1 ++ ((cutter.run first).2.run second).1,
        ((cutter.run first).2.run second).2) := by
  induction first generalizing cutter with
  | nil => rfl
  | cons char first ih => simp only [List.cons_append, run, ih,
      List.append_assoc]

/-- No record is open. -/
def Idle (cutter : Cutter) : Prop :=
  cutter.lines = [] ∧ cutter.current = [] ∧ cutter.size = 0

/-- The same open record; after a CR only where one is open. -/
structure Alike (left right : Cutter) : Prop where
  lines : left.lines = right.lines
  current : left.current = right.current
  size : left.size = right.size
  afterCr : left.afterCr = right.afterCr ∨ left.Idle

theorem Alike.refl (cutter : Cutter) : Alike cutter cutter :=
  ⟨rfl, rfl, rfl, .inl rfl⟩

theorem alike_of_idle {left right : Cutter} (leftIdle : left.Idle)
    (rightIdle : right.Idle) : Alike left right :=
  ⟨leftIdle.1.trans rightIdle.1.symm,
    leftIdle.2.1.trans rightIdle.2.1.symm,
    leftIdle.2.2.trans rightIdle.2.2.symm, .inr leftIdle⟩

theorem Idle.feed_break {cutter : Cutter} (idle : cutter.Idle) {char : Char}
    (isBreak : IsBreak char) :
    (cutter.feed char).1 = [] ∧ (cutter.feed char).2.Idle := by
  obtain ⟨noLines, noCurrent, _⟩ := idle
  unfold feed
  split
  case isTrue =>
    rw [noLines]
    exact ⟨rfl, rfl, rfl, rfl⟩
  case isFalse =>
    rw [endLine, if_pos noCurrent, noLines]
    exact ⟨rfl, rfl, rfl, rfl⟩

theorem Alike.feed {left right : Cutter} (alike : Alike left right)
    (char : Char) :
    (left.feed char).1 = (right.feed char).1 ∧
      Alike (left.feed char).2 (right.feed char).2 := by
  rcases alike.afterCr with sameCr | leftIdle
  · have same : left = right := by
      obtain ⟨lines, current, size, _⟩ := alike
      cases left
      cases right
      simp_all
    rw [same]
    exact ⟨rfl, .refl _⟩
  · have rightIdle : right.Idle := by
      obtain ⟨lines, current, size, _⟩ := alike
      exact ⟨lines ▸ leftIdle.1, current ▸ leftIdle.2.1, size ▸ leftIdle.2.2⟩
    by_cases isBreak : IsBreak char
    · obtain ⟨leftSilent, leftNext⟩ := leftIdle.feed_break isBreak
      obtain ⟨rightSilent, rightNext⟩ := rightIdle.feed_break isBreak
      exact ⟨leftSilent.trans rightSilent.symm,
        alike_of_idle leftNext rightNext⟩
    · have notLf : char ≠ '\n' := fun isLf => isBreak (.inr isLf)
      simp only [Cutter.feed, notLf, and_false, if_false, if_neg isBreak,
        alike.lines, alike.current, alike.size]
      exact ⟨trivial, .refl _⟩

theorem Alike.run {left right : Cutter} (alike : Alike left right)
    (text : List Char) :
    (left.run text).1 = (right.run text).1 ∧
      Alike (left.run text).2 (right.run text).2 := by
  induction text generalizing left right with
  | nil => exact ⟨rfl, alike⟩
  | cons char text ih =>
      obtain ⟨sameStep, next⟩ := alike.feed char
      obtain ⟨sameRest, final⟩ := ih next
      exact ⟨congrArg₂ (· ++ ·) sameStep sameRest, final⟩

theorem Alike.trans {first second third : Cutter} (left : Alike first second)
    (right : Alike second third) : Alike first third := by
  refine ⟨left.lines.trans right.lines, left.current.trans right.current,
    left.size.trans right.size, ?_⟩
  rcases left.afterCr with same | idle
  · rcases right.afterCr with sameToo | idle
    · exact .inl (same.trans sameToo)
    · exact .inr ⟨left.lines ▸ idle.1, left.current ▸ idle.2.1,
        left.size ▸ idle.2.2⟩
  · exact .inr idle

end Cutter

section LinesOfCutter

/-- What ends a record for the parser: a blank line, or a CRLF. -/
def cuts (line : Line) : Bool := line.text.isEmpty || line.ending = .crlf

def ends (line : Line) : Bool := line.text.isEmpty

def holds (line : Line) : Bool := !line.text.isEmpty

/-- The length of a line with its end. -/
def lineSize (line : Line) : Nat :=
  JsString.length line.text + if line.ending = .crlf then 2 else 1

def linesSize (lines : List Line) : Nat := (lines.map lineSize).sum

/-- The records of a text, cut after each CRLF as well. -/
def cutRecords (text : List Char) : List Record :=
  (group cuts holds [] (readLines text).ended).1.map (List.map Line.text)

/-- The length of the record that is open at the end of a text. -/
def openSize (text : List Char) : Nat :=
  linesSize (group ends holds [] (readLines text).ended).2 +
    JsString.length (readLines text).rest

/-- A cutter holds the lines of the open record, and an open line. -/
structure Cutter.Holds (cutter : Cutter) (pending : List Line)
    (part : List Char) : Prop where
  lines : cutter.lines = pending.map Line.text
  current : cutter.current = part
  size : cutter.size = linesSize pending + JsString.length part

/-- A cutter reads a text as the lines say. -/
structure Cutter.Reads (cutter : Cutter) (text : List Char)
    (pending : List Line) (lines : Lines) : Prop where
  records : (cutter.run text).1 =
    (group cuts holds pending lines.ended).1.map (List.map Line.text)
  opened : (cutter.run text).2.Holds
    (group cuts holds pending lines.ended).2 lines.rest

theorem ended_prepend (lines : Lines) (ending : Ending) (text : List Char) :
    ((lines.endLine ending).prepend text).ended =
      ⟨text, ending⟩ :: lines.ended := by
  simp [Lines.endLine, Lines.prepend]

theorem group_cut (line : Line) (isCut : cuts line = true)
    (pending rest : List Line) :
    (group cuts holds pending (line :: rest)).1.map (List.map Line.text) =
        closing ((pending.map Line.text) ++
          if line.text = [] then [] else [line.text]) ++
        (group cuts holds [] rest).1.map (List.map Line.text) ∧
      (group cuts holds pending (line :: rest)).2 =
        (group cuts holds [] rest).2 := by
  obtain ⟨text, ending⟩ := line
  cases text with
  | nil => cases pending <;> simp [group, isCut, holds, closing]
  | cons char text => simp [group, isCut, holds, closing]

theorem group_uncut (line : Line) (uncut : cuts line = false)
    (pending rest : List Line) :
    group cuts holds pending (line :: rest) =
      group cuts holds (pending ++ [line]) rest := by
  have filled : holds line = true := by
    unfold cuts at uncut
    unfold holds
    rw [(Bool.or_eq_false_iff.mp uncut).1]
    rfl
  simp [group, uncut, filled]

theorem linesSize_append (pending : List Line) (line : Line) :
    linesSize (pending ++ [line]) = linesSize pending + lineSize line := by
  simp [linesSize]

variable {cutter : Cutter} {pending : List Line} {part : List Char}

theorem Cutter.holds_new : Cutter.new.Holds [] [] := ⟨rfl, rfl, rfl⟩

theorem Cutter.run_cons (char : Char) (rest : List Char) :
    cutter.run (char :: rest) =
      ((cutter.feed char).1 ++ ((cutter.feed char).2.run rest).1,
        ((cutter.feed char).2.run rest).2) := rfl

/-- A CR or an LF that is a line end of its own. -/
theorem Cutter.Holds.feed_break (held : cutter.Holds pending part)
    {char : Char} (isBreak : IsBreak char)
    (single : cutter.afterCr = true → char ≠ '\n') :
    (part = [] → (cutter.feed char).1 = closing (pending.map Line.text) ∧
      (cutter.feed char).2.Holds [] []) ∧
    (part ≠ [] → (cutter.feed char).1 = [] ∧ ∀ ending, ending ≠ .crlf →
      (cutter.feed char).2.Holds (pending ++ [⟨part, ending⟩]) []) ∧
    (cutter.feed char).2.afterCr = (char = '\r') := by
  have plain : ¬ (cutter.afterCr = true ∧ char = '\n') :=
    fun both => single both.1 both.2
  have step : cutter.feed char = cutter.endLine char := by
    unfold Cutter.feed
    rw [if_neg plain, if_pos isBreak]
  obtain ⟨lines, current, size⟩ := held
  rw [step]
  unfold Cutter.endLine
  refine ⟨?_, ?_, ?_⟩
  · intro blank
    rw [if_pos (current.trans blank), lines]
    exact ⟨rfl, rfl, rfl, rfl⟩
  · intro filled
    rw [if_neg (current ▸ filled)]
    refine ⟨rfl, ?_⟩
    intro ending notCrlf
    refine ⟨by simp [lines, current], rfl, ?_⟩
    rw [linesSize_append, lineSize, if_neg notCrlf]
    simp only [size, JsString.length_nil]
    omega
  · split <;> simp

theorem Cutter.Reads.single_break {rest : List Char} {lines : Lines}
    {char : Char} {ending : Ending} (held : cutter.Holds pending part)
    (isBreak : IsBreak char) (single : cutter.afterCr = true → char ≠ '\n')
    (notCrlf : ending ≠ .crlf)
    (next : ∀ pending, (cutter.feed char).2.Holds pending [] →
      (cutter.feed char).2.Reads rest pending lines) :
    cutter.Reads (char :: rest) pending
      ((lines.endLine ending).prepend part) := by
  obtain ⟨blank, filled, _⟩ := held.feed_break isBreak single
  by_cases isEmpty : part = []
  · obtain ⟨closed, idle⟩ := blank isEmpty
    obtain ⟨records, opened⟩ := next [] idle
    have cut := group_cut ⟨part, ending⟩ (by simp [cuts, isEmpty])
      pending lines.ended
    refine ⟨?_, ?_⟩
    · rw [ended_prepend, cut.1, run_cons, records, closed]
      simp [isEmpty]
    · rw [ended_prepend, cut.2, run_cons]
      exact opened
  · obtain ⟨silent, kept⟩ := filled isEmpty
    obtain ⟨records, opened⟩ := next _ (kept ending notCrlf)
    have uncut := group_uncut ⟨part, ending⟩
      (by simp [cuts, isEmpty, notCrlf]) pending lines.ended
    refine ⟨?_, ?_⟩
    · rw [ended_prepend, uncut, run_cons, records, silent]
      rfl
    · rw [ended_prepend, uncut, run_cons]
      exact opened

/-- A CRLF closes the open record. -/
theorem Cutter.Holds.feed_crlf (held : cutter.Holds pending part) :
    (cutter.feed '\r').1 ++ ((cutter.feed '\r').2.feed '\n').1 =
        closing (pending.map Line.text ++ if part = [] then [] else [part]) ∧
      ((cutter.feed '\r').2.feed '\n').2 = .new := by
  obtain ⟨blank, filled, afterCr⟩ := held.feed_break (.inl (rfl : '\r' = '\r'))
    (fun _ => by decide)
  have isAfterCr : (cutter.feed '\r').2.afterCr = true := by
    rw [afterCr]
  have second : (cutter.feed '\r').2.feed '\n' =
      (closing (cutter.feed '\r').2.lines, .new) := by
    rw [feed, if_pos ⟨isAfterCr, rfl⟩]
  rw [second]
  refine ⟨?_, rfl⟩
  by_cases isEmpty : part = []
  · obtain ⟨closed, idle⟩ := blank isEmpty
    rw [closed, idle.lines, if_pos isEmpty]
    simp [closing]
  · obtain ⟨silent, kept⟩ := filled isEmpty
    rw [silent, (kept .cr (by decide)).lines, if_neg isEmpty]
    simp

/-- The cutter reads the lines of a text. -/
theorem Cutter.reads (text : List Char) (cutter : Cutter)
    (pending : List Line) (part : List Char)
    (held : cutter.Holds pending part)
    (single : cutter.afterCr = true → text.head? ≠ some '\n') :
    cutter.Reads text pending ((readLines text).prepend part) := by
  induction text using readLines.induct generalizing cutter pending part with
  | case1 =>
      refine ⟨rfl, ?_⟩
      simpa [readLines, Lines.prepend, group, run] using held
  | case2 rest ih =>
      obtain ⟨closed, next⟩ := held.feed_crlf
      obtain ⟨records, opened⟩ := ih .new [] [] holds_new (by simp [new])
      rw [Lines.prepend_nil] at records opened
      have cut := group_cut ⟨part, .crlf⟩ (by simp [cuts]) pending
        (readLines rest).ended
      have lines : readLines ('\r' :: '\n' :: rest) =
          (readLines rest).endLine .crlf := rfl
      rw [lines]
      refine ⟨?_, ?_⟩
      · rw [ended_prepend, cut.1, run_cons, run_cons, next, records,
          ← List.append_assoc, closed]
      · rw [ended_prepend, cut.2, run_cons, run_cons, next]
        exact opened
  | case3 rest alone ih =>
      have notLf : rest.head? ≠ some '\n' := by
        intro isLf
        obtain ⟨tail, rfl⟩ := List.head?_eq_some_iff.mp isLf
        exact alone tail rfl
      rw [readLines_cr notLf]
      apply Reads.single_break held (.inl rfl) (fun _ => by decide) (by decide)
      intro next kept
      have read := ih _ next [] kept (fun _ => notLf)
      rwa [Lines.prepend_nil] at read
  | case4 rest ih =>
      have alone : cutter.afterCr = true → '\n' ≠ '\n' := by
        intro afterCr
        exact absurd rfl (single afterCr)
      have afterCr := (held.feed_break (.inr rfl) alone).2.2
      have lines : readLines ('\n' :: rest) = (readLines rest).endLine .lf := rfl
      rw [lines]
      apply Reads.single_break held (.inr rfl) alone (by decide)
      intro next kept
      have read := ih _ next [] kept (by
        rw [afterCr]
        simp)
      rwa [Lines.prepend_nil] at read
  | case5 char rest notCrLf notCr notLf ih =>
      have plain : ¬ IsBreak char := not_or.mpr ⟨notCr, notLf⟩
      have step : cutter.feed char = ([], ⟨cutter.lines,
          cutter.current ++ [char], false,
          cutter.size + JsString.units char⟩) := by
        unfold feed
        rw [if_neg (fun both => notLf both.2), if_neg plain]
      have next : (cutter.feed char).2.Holds pending (part ++ [char]) := by
        rw [step]
        refine ⟨held.lines, by simp [held.current], ?_⟩
        simp only [held.size, JsString.length_append, JsString.length_cons,
          JsString.length_nil]
        omega
      obtain ⟨records, opened⟩ := ih _ pending (part ++ [char]) next (by
        rw [step]
        simp)
      rw [readLines_char plain, Lines.prepend_prepend]
      refine ⟨?_, ?_⟩
      · rw [run_cons, step, List.nil_append, ← records, step]
      · rw [run_cons]
        exact opened

end LinesOfCutter

section Loop

/-- No two line ends follow each other. -/
def Apart (text : List Char) : Prop :=
  text.IsChain fun first second => ¬ (IsBreak first ∧ IsBreak second)

theorem mem_afterBreak {text after : List Char}
    (member : after ∈ afterBreak text) :
    ∃ first more, text = first :: (more ++ after) ∧ IsBreak first ∧
      ∀ char ∈ more, IsBreak char := by
  unfold afterBreak at member
  split at member
  case h_1 rest =>
    rcases List.mem_cons.mp member with rfl | last
    · exact ⟨'\r', ['\n'], rfl, .inl rfl, by simp [IsBreak]⟩
    · exact ⟨'\r', [], by simp_all, .inl rfl, nofun⟩
  case h_2 rest _ =>
    exact ⟨'\r', [], by simp_all, .inl rfl, nofun⟩
  case h_3 rest =>
    exact ⟨'\n', [], by simp_all, .inr rfl, nofun⟩
  case h_4 => cases member

theorem afterBreak_break {char : Char} (isBreak : IsBreak char)
    (rest : List Char) : rest ∈ afterBreak (char :: rest) := by
  rcases isBreak with rfl | rfl
  · cases rest with
    | nil => simp [afterBreak]
    | cons next rest =>
        by_cases isLf : next = '\n'
        · simp [afterBreak, isLf]
        · simp [afterBreak, isLf]
  · simp [afterBreak]

/-- The delimiter matches at the start, or two line ends do not follow there. -/
theorem not_break_of_none {first second : Char} {rest : List Char}
    (none : afterDelimiter (first :: second :: rest) = none) :
    ¬ (IsBreak first ∧ IsBreak second) := by
  rintro ⟨firstBreak, secondBreak⟩
  have member : rest ∈ (afterBreak (first :: second :: rest)).flatMap
      afterBreak :=
    List.mem_flatMap.mpr ⟨second :: rest, afterBreak_break firstBreak _,
      afterBreak_break secondBreak _⟩
  rw [List.head?_eq_none_iff.mp none] at member
  cases member

theorem apart_of_none {text : List Char} (none : execDelimiter text = none) :
    Apart text := by
  induction text with
  | nil => exact .nil
  | cons first rest ih =>
      unfold execDelimiter at none
      split at none
      case h_1 => cases none
      case h_2 here =>
        have later := ih (Option.map_eq_none_iff.mp none)
        cases rest with
        | nil => exact .singleton _
        | cons second rest =>
            exact .cons_cons (not_break_of_none here) later

/-- What the delimiter matches: two line ends at least, the first of them. -/
theorem execDelimiter_some {text before after : List Char}
    (found : execDelimiter text = some (before, after)) :
    ∃ first second more,
      text = before ++ first :: second :: (more ++ after) ∧
      IsBreak first ∧ IsBreak second ∧ (∀ char ∈ more, IsBreak char) ∧
      Apart (before ++ [first]) := by
  induction text generalizing before with
  | nil => cases found
  | cons char rest ih =>
      unfold execDelimiter at found
      split at found
      case h_1 _ here =>
        cases found
        obtain ⟨middle, inFirst, inSecond⟩ :=
          List.mem_flatMap.mp (List.mem_of_head? here)
        obtain ⟨first, firstMore, text, firstBreak, firstBreaks⟩ :=
          mem_afterBreak inFirst
        obtain ⟨second, secondMore, rfl, secondBreak, secondBreaks⟩ :=
          mem_afterBreak inSecond
        rw [text]
        cases firstMore with
        | nil =>
            exact ⟨first, second, secondMore, rfl, firstBreak, secondBreak,
              secondBreaks, .singleton _⟩
        | cons next firstMore =>
            refine ⟨first, next, firstMore ++ second :: secondMore, by simp,
              firstBreak, firstBreaks next List.mem_cons_self, ?_,
              .singleton _⟩
            intro char member
            rcases List.mem_append.mp member with isFirst | isSecond
            · exact firstBreaks char (List.mem_cons_of_mem _ isFirst)
            · rcases List.mem_cons.mp isSecond with rfl | isMore
              · exact secondBreak
              · exact secondBreaks char isMore
      case h_2 here =>
        obtain ⟨⟨later, _⟩, foundLater, same⟩ := Option.map_eq_some_iff.mp found
        cases same
        obtain ⟨first, second, more, rfl, firstBreak, secondBreak, breaks,
          apart⟩ := ih foundLater
        refine ⟨first, second, more, rfl, firstBreak, secondBreak, breaks, ?_⟩
        cases later with
        | nil => exact .cons_cons (not_break_of_none here) apart
        | cons next later => exact .cons_cons (not_break_of_none here) apart

variable {cutter : Cutter}

/-- A line end after another closes the open record. -/
theorem Cutter.feed_blank (noCurrent : cutter.current = []) {char : Char}
    (isBreak : IsBreak char) :
    (cutter.feed char).1 = closing cutter.lines ∧
      (cutter.feed char).2.Idle := by
  unfold feed
  split
  case isTrue => exact ⟨rfl, rfl, rfl, rfl⟩
  case isFalse =>
    rw [endLine, if_pos noCurrent]
    exact ⟨rfl, rfl, rfl, rfl⟩

theorem Cutter.Idle.run_breaks (idle : cutter.Idle) {text : List Char}
    (breaks : ∀ char ∈ text, IsBreak char) :
    (cutter.run text).1 = [] ∧ (cutter.run text).2.Idle := by
  induction text generalizing cutter with
  | nil => exact ⟨rfl, idle⟩
  | cons char text ih =>
      obtain ⟨silent, next⟩ := idle.feed_break (breaks char List.mem_cons_self)
      obtain ⟨later, final⟩ := ih next
        (fun other member => breaks other (List.mem_cons_of_mem _ member))
      rw [run_cons, silent, later]
      exact ⟨rfl, final⟩

/-- The cutter is between records, or inside a line. -/
def Cutter.Inside (cutter : Cutter) : Prop :=
  cutter.Idle ∨ (cutter.current ≠ [] ∧ cutter.afterCr = false)

/-- Two line ends and more close the record that is open. -/
theorem Cutter.Inside.run_delimiter (inside : cutter.Inside)
    {first second : Char} {more : List Char} (firstBreak : IsBreak first)
    (secondBreak : IsBreak second) (breaks : ∀ char ∈ more, IsBreak char) :
    (cutter.run (first :: second :: more)).1 = closing (cutter.lines ++
        if cutter.current = [] then [] else [cutter.current]) ∧
      (cutter.run (first :: second :: more)).2.Idle := by
  rcases inside with idle | ⟨filled, notAfterCr⟩
  · obtain ⟨silent, final⟩ := idle.run_breaks
      (show ∀ char ∈ first :: second :: more, IsBreak char by
        simpa [firstBreak, secondBreak] using breaks)
    rw [silent, idle.1, if_pos idle.2.1]
    exact ⟨rfl, final⟩
  · have step : cutter.feed first = ([], ⟨cutter.lines ++ [cutter.current], [],
        first = '\r', cutter.size + 1⟩) := by
      unfold feed
      rw [notAfterCr, if_neg (by simp), if_pos firstBreak, endLine,
        if_neg filled]
    have noCurrent : (cutter.feed first).2.current = [] := by rw [step]
    obtain ⟨closed, idle⟩ := feed_blank noCurrent secondBreak
    obtain ⟨silent, final⟩ := idle.run_breaks breaks
    rw [run_cons, run_cons, closed, silent, step, if_neg filled]
    rw [step] at final
    exact ⟨by simp, final⟩

theorem units_break {char : Char} (isBreak : IsBreak char) :
    JsString.units char = 1 := by
  rcases isBreak with rfl | rfl
  · rfl
  · rfl

theorem Cutter.feed_plain {char : Char} (plain : ¬ IsBreak char) :
    cutter.feed char = ([], ⟨cutter.lines, cutter.current ++ [char], false,
      cutter.size + JsString.units char⟩) := by
  have notLf : char ≠ '\n' := fun isLf => plain (.inr isLf)
  unfold feed
  rw [if_neg (fun both => notLf both.2), if_neg plain]

/-- The text starts with a line end. -/
def StartsBreak (text : List Char) : Prop :=
  ∃ char rest, text = char :: rest ∧ IsBreak char

/-- Without two line ends in a row nothing is cut, and the length is counted,
but for a line end at the start. -/
theorem Cutter.run_apart {text : List Char} (apart : Apart text)
    (inside : StartsBreak text → cutter.Inside) :
    (cutter.run text).1 = [] ∧
      cutter.size + JsString.length text ≤ (cutter.run text).2.size + 1 ∧
      (¬ (cutter.Idle ∧ StartsBreak text) →
        cutter.size + JsString.length text ≤ (cutter.run text).2.size) := by
  induction text generalizing cutter with
  | nil => exact ⟨rfl, Nat.le_succ _, fun _ => le_rfl⟩
  | cons char rest ih =>
      have restApart : Apart rest := List.IsChain.tail apart
      rw [run_cons, JsString.length_cons]
      dsimp only
      by_cases isBreak : IsBreak char
      · have restPlain : ¬ StartsBreak rest := by
          rintro ⟨next, tail, rfl, nextBreak⟩
          exact (List.isChain_cons_cons.mp apart).1 ⟨isBreak, nextBreak⟩
        obtain ⟨silent, _, size⟩ := @ih (cutter.feed char).2
          restApart (fun starts => absurd starts restPlain)
        have exactly := size (fun both => restPlain both.2)
        have unit := units_break isBreak
        rcases inside ⟨char, rest, rfl, isBreak⟩ with idle | ⟨filled, notCr⟩
        · obtain ⟨first, next⟩ := idle.feed_break isBreak
          have noSize := next.2.2
          have start := idle.2.2
          refine ⟨by rw [first, silent]; rfl, by omega, ?_⟩
          intro notIdle
          exact absurd ⟨idle, char, rest, rfl, isBreak⟩ notIdle
        · have step : cutter.feed char = ([], ⟨cutter.lines ++
              [cutter.current], [], char = '\r', cutter.size + 1⟩) := by
            unfold feed
            rw [notCr, if_neg (by simp), if_pos isBreak, endLine, if_neg filled]
          have next : (cutter.feed char).2.size = cutter.size + 1 := by
            rw [step]
          refine ⟨by rw [silent, step]; rfl, by omega, fun _ => by omega⟩
      · have step : cutter.feed char = ([], ⟨cutter.lines,
            cutter.current ++ [char], false,
            cutter.size + JsString.units char⟩) := feed_plain isBreak
        have filled : (cutter.feed char).2.current ≠ [] := by
          rw [step]
          simp
        obtain ⟨silent, _, size⟩ := @ih (cutter.feed char).2
          restApart (fun _ => .inr ⟨filled, by rw [step]⟩)
        have exactly := size (fun both => filled both.1.2.1)
        have next : (cutter.feed char).2.size =
            cutter.size + JsString.units char := by rw [step]
        refine ⟨by rw [silent, step]; rfl, by omega, fun _ => by omega⟩

/-- Before a delimiter the cutter is between records or inside a line. -/
theorem Cutter.inside_before {before : List Char} {first : Char}
    (apart : Apart (before ++ [first])) (isBreak : IsBreak first) :
    (Cutter.new.run before).2.Inside := by
  rcases List.eq_nil_or_concat before with rfl | ⟨start, last, rfl⟩
  · exact .inl ⟨rfl, rfl, rfl⟩
  · have plain : ¬ IsBreak last := by
      intro lastBreak
      rw [List.concat_eq_append, List.append_assoc] at apart
      have pair : Apart [last, first] := List.IsChain.right_of_append apart
      exact (List.isChain_cons_cons.mp pair).1 ⟨lastBreak, isBreak⟩
    rw [List.concat_eq_append, run_append]
    refine .inr ⟨?_, ?_⟩
    · simp [run, feed_plain plain]
    · simp [run, feed_plain plain]

/-- What was grouped without a cut is still open. -/
theorem group_silent {α : Type} {closes keeps : α → Bool} {items : List α}
    {pending : List α}
    (silent : (group closes keeps pending items).1 = []) :
    (group closes keeps pending items).2 = pending ++ items.filter keeps := by
  induction items generalizing pending with
  | nil => simp [group]
  | cons item rest ih =>
      simp only [group] at silent ⊢
      by_cases kept : keeps item = true
      · rw [if_pos kept] at silent ⊢
        by_cases isClosed : closes item = true
        · simp [isClosed] at silent
        · rw [if_neg isClosed] at silent ⊢
          simp [ih silent, kept]
      · rw [if_neg kept] at silent ⊢
        by_cases isClosed : closes item = true
        · rw [if_pos isClosed] at silent ⊢
          by_cases noItems : pending = []
          · rw [if_pos noItems] at silent
            simp [ih silent, noItems, kept]
          · simp [noItems] at silent
        · rw [if_neg isClosed] at silent ⊢
          simp [ih silent, kept]

variable {Error : Type} (reader : FrameReader Error)

theorem dataValue_blank : FrameReader.dataValue [] = none := by decide

theorem filterMap_dataValue_filter (lines : List Line) :
    ((lines.filter holds).map Line.text).filterMap FrameReader.dataValue =
      (lines.map Line.text).filterMap FrameReader.dataValue := by
  induction lines with
  | nil => rfl
  | cons line lines ih =>
      obtain ⟨text, ending⟩ := line
      cases text with
      | nil => simp [holds, dataValue_blank, ih]
      | cons char text =>
          simp only [List.filter_cons, holds, List.isEmpty_cons, Bool.not_false,
            if_true, List.map_cons, List.filterMap_cons, ih]

theorem filterMap_dataValue_part (part : List Char) :
    (if part = [] then [] else [part]).filterMap FrameReader.dataValue =
      [part].filterMap FrameReader.dataValue := by
  split
  case isTrue isEmpty => simp [isEmpty, dataValue_blank]
  case isFalse => rfl

/-- The report reads the filled lines only. -/
theorem terminalErrorFrom_eq {text : List Char}
    (silent : (Cutter.new.run text).1 = []) :
    reader.terminalErrorFrom text =
      reader.reportLines ((Cutter.new.run text).2.lines ++
        if (Cutter.new.run text).2.current = [] then []
        else [(Cutter.new.run text).2.current]) := by
  obtain ⟨records, opened⟩ :=
    Cutter.new.reads text [] [] Cutter.holds_new nofun
  rw [Lines.prepend_nil] at records opened
  rw [silent] at records
  have filtered := group_silent (List.map_eq_nil_iff.mp records.symm)
  have lines := opened.lines
  rw [filtered, List.nil_append] at lines
  unfold FrameReader.terminalErrorFrom FrameReader.reportLines
  rw [lines, opened.current, List.filterMap_append, filterMap_dataValue_filter,
    filterMap_dataValue_part, Lines.texts, List.filterMap_append]

theorem filterMap_closing (lines : Record) :
    (closing lines).filterMap reader.reportLines =
      (reader.reportLines lines).toList := by
  unfold closing
  split
  case isTrue noLines =>
    rw [noLines]
    rfl
  case isFalse =>
    cases reported : reader.reportLines lines <;> simp [reported]

/-- The loop reports what the cutter closes, and leaves what it holds. -/
theorem drain_spec (buffer : List Char) :
    (drain reader false buffer).1 =
        ((Cutter.new.run buffer).1).filterMap reader.reportLines ∧
      (drain reader false buffer).2.1 = false ∧
      Cutter.Alike (Cutter.new.run buffer).2
        (Cutter.new.run (drain reader false buffer).2.2).2 ∧
      Apart (drain reader false buffer).2.2 := by
  induction measured : buffer.length using Nat.strong_induction_on
    generalizing buffer with
  | _ size ih =>
      unfold drain
      split
      case h_1 none =>
        have apart := apart_of_none none
        have silent := (Cutter.new.run_apart apart
          (fun _ => .inl ⟨rfl, rfl, rfl⟩)).1
        rw [silent]
        exact ⟨rfl, rfl, .refl _, apart⟩
      case h_2 before after found =>
        obtain ⟨first, second, more, text, firstBreak, secondBreak, breaks,
          apart⟩ := execDelimiter_some found
        obtain ⟨errors, resumed, alike, rest⟩ := ih after.length
          (measured ▸ execDelimiter_length found) after rfl
        have beforeApart : Apart before := List.IsChain.left_of_append apart
        have silent := (Cutter.new.run_apart beforeApart
          (fun _ => .inl ⟨rfl, rfl, rfl⟩)).1
        obtain ⟨closed, idle⟩ := (Cutter.inside_before apart
          firstBreak).run_delimiter firstBreak secondBreak breaks
        have continues := (Cutter.alike_of_idle idle
          (⟨rfl, rfl, rfl⟩ : Cutter.new.Idle)).run after
        have whole : Cutter.new.run buffer =
            ((((Cutter.new.run before).2.run (first :: second :: more)).1 ++
              (((Cutter.new.run before).2.run
                (first :: second :: more)).2.run after).1),
              (((Cutter.new.run before).2.run
                (first :: second :: more)).2.run after).2) := by
          have parts : buffer = before ++ ((first :: second :: more) ++
              after) := by
            rw [text]
            simp
          rw [parts, Cutter.run_append, Cutter.run_append, silent,
            List.nil_append]
        rw [whole]
        dsimp only
        rw [if_neg (by decide), closed, continues.1]
        refine ⟨?_, resumed, continues.2.trans alike, rest⟩
        rw [errors, terminalErrorFrom_eq reader silent, List.filterMap_append,
          filterMap_closing]

end Loop

section Sizes

theorem group_ends_suffix {ended : List Line} {cut whole : List Line}
    (suffix : cut <:+ whole) :
    (group cuts holds cut ended).2 <:+ (group ends holds whole ended).2 := by
  induction ended generalizing cut whole with
  | nil => exact suffix
  | cons line rest ih =>
      have taken : (if holds line then cut ++ [line] else cut) <:+
          (if holds line then whole ++ [line] else whole) := by
        split
        · obtain ⟨more, rfl⟩ := suffix
          exact ⟨more, by simp⟩
        · exact suffix
      simp only [group]
      by_cases isEnd : ends line = true
      · have isCut : cuts line = true := by
          unfold ends at isEnd
          unfold cuts
          rw [isEnd]
          rfl
        rw [if_pos isEnd, if_pos isCut]
        exact ih (List.suffix_refl _)
      · rw [if_neg isEnd]
        by_cases isCut : cuts line = true
        · rw [if_pos isCut]
          exact ih (List.nil_suffix)
        · rw [if_neg isCut]
          exact ih taken

theorem linesSize_le_of_suffix {cut whole : List Line}
    (suffix : cut <:+ whole) : linesSize cut ≤ linesSize whole := by
  obtain ⟨more, rfl⟩ := suffix
  simp [linesSize]

/-- What the parser holds is no longer than the open record. -/
theorem size_le_openSize (text : List Char) :
    (Cutter.new.run text).2.size ≤ openSize text := by
  have opened :=
    (Cutter.new.reads text [] [] Cutter.holds_new nofun).opened.size
  rw [Lines.prepend_nil] at opened
  rw [opened]
  exact Nat.add_le_add_right
    (linesSize_le_of_suffix (group_ends_suffix (List.suffix_refl _))) _

theorem group_size_le (pending ended : List Line) :
    linesSize (group ends holds pending ended).2 ≤
      linesSize pending + linesSize ended := by
  induction ended generalizing pending with
  | nil => simp [group, linesSize]
  | cons line rest ih =>
      have whole : linesSize (line :: rest) = lineSize line + linesSize rest :=
        rfl
      have taken : linesSize (if holds line then pending ++ [line]
          else pending) ≤ linesSize pending + lineSize line := by
        split
        · rw [linesSize_append]
        · omega
      simp only [group]
      split
      · have fresh := ih []
        have none : linesSize [] = 0 := rfl
        dsimp only
        omega
      · have kept := ih (if holds line then pending ++ [line] else pending)
        omega

def sizeOf (lines : Lines) : Nat :=
  linesSize lines.ended + JsString.length lines.rest

theorem sizeOf_endLine (lines : Lines) (ending : Ending) :
    sizeOf (lines.endLine ending) =
      (if ending = .crlf then 2 else 1) + sizeOf lines := by
  simp [sizeOf, Lines.endLine, linesSize, lineSize, Nat.add_assoc]

theorem sizeOf_prepend (lines : Lines) (char : Char) :
    sizeOf (lines.prepend [char]) = JsString.units char + sizeOf lines := by
  obtain ⟨ended, rest⟩ := lines
  cases ended with
  | nil => simp [sizeOf, Lines.prepend, linesSize]
  | cons line ended =>
      simp [sizeOf, Lines.prepend, linesSize, lineSize, Nat.add_assoc]

theorem readLines_size (text : List Char) :
    sizeOf (readLines text) = JsString.length text := by
  have cr : JsString.units '\r' = 1 := rfl
  have lf : JsString.units '\n' = 1 := rfl
  induction text using readLines.induct with
  | case1 => rfl
  | case2 rest ih =>
      have lines : readLines ('\r' :: '\n' :: rest) =
          (readLines rest).endLine .crlf := rfl
      rw [lines, sizeOf_endLine, ih, JsString.length_cons, JsString.length_cons,
        cr, lf, if_pos rfl]
      omega
  | case3 rest alone ih =>
      have notLf : rest.head? ≠ some '\n' := by
        intro isLf
        obtain ⟨tail, rfl⟩ := List.head?_eq_some_iff.mp isLf
        exact alone tail rfl
      rw [readLines_cr notLf, sizeOf_endLine, ih, JsString.length_cons, cr,
        if_neg (by decide)]
  | case4 rest ih =>
      have lines : readLines ('\n' :: rest) = (readLines rest).endLine .lf := rfl
      rw [lines, sizeOf_endLine, ih, JsString.length_cons, lf,
        if_neg (by decide)]
  | case5 char rest notCrLf notCr notLf ih =>
      rw [readLines_char (not_or.mpr ⟨notCr, notLf⟩), sizeOf_prepend, ih,
        JsString.length_cons]

/-- A record is no longer than the text it is in. -/
theorem openSize_le (text : List Char) :
    openSize text ≤ JsString.length text := by
  have grouped := group_size_le [] (readLines text).ended
  have whole := readLines_size text
  have none : linesSize [] = 0 := rfl
  unfold sizeOf at whole
  unfold openSize
  omega

end Sizes

section Pushes

open Utf8

/-- At no point of the stream does the open record reach the cap. -/
def StaysBelow (bytes : List UInt8) : Prop :=
  ∀ before, before <+: textOf bytes → openSize before < maxPendingRecord

/-- The parser stands for the bytes that it was given. -/
structure Parser.StandsFor (parser : Parser) (bytes : List UInt8) : Prop where
  decoder : parser.decoder =
    ⟨(Decoder.ready.run bytes).2, !(Decoder.ready.run bytes).1.isEmpty⟩
  buffer : Cutter.Alike (Cutter.new.run (readSoFar bytes)).2
    (Cutter.new.run parser.buffer).2
  apart : Apart parser.buffer
  reading : parser.resynchronising = false

theorem Parser.standsFor_new : Parser.new.StandsFor [] :=
  ⟨rfl, .refl _, .nil, rfl⟩

theorem TextDecoder.decode_eq (bytes chunk : List UInt8) :
    ∃ read, TextDecoder.decode ⟨(Decoder.ready.run bytes).2,
        !(Decoder.ready.run bytes).1.isEmpty⟩ chunk =
      (read, ⟨(Decoder.ready.run (bytes ++ chunk)).2,
        !(Decoder.ready.run (bytes ++ chunk)).1.isEmpty⟩) ∧
      readSoFar (bytes ++ chunk) = readSoFar bytes ++ read := by
  unfold TextDecoder.decode readSoFar
  dsimp only
  rw [Decoder.run_append]
  cases (Decoder.ready.run bytes).1 with
  | nil => exact ⟨_, rfl, rfl⟩
  | cons char rest => exact ⟨_, rfl, dropMark_append_of_ne_nil (by simp) _⟩

variable {Error : Type} (reader : FrameReader Error)

/-- One push reports what the chunk closes. -/
theorem Parser.StandsFor.push {parser : Parser} {bytes : List UInt8}
    (stands : parser.StandsFor bytes) (chunk : List UInt8)
    (below : openSize (readSoFar (bytes ++ chunk)) < maxPendingRecord) :
    (Cutter.new.run (readSoFar (bytes ++ chunk))).1.filterMap
        reader.reportLines =
      (Cutter.new.run (readSoFar bytes)).1.filterMap reader.reportLines ++
        (parser.push reader chunk).1 ∧
      (parser.push reader chunk).2.StandsFor (bytes ++ chunk) := by
  obtain ⟨read, decoded, soFar⟩ := TextDecoder.decode_eq bytes chunk
  rw [← stands.decoder] at decoded
  obtain ⟨errors, reading, kept, apart⟩ :=
    drain_spec reader (parser.buffer ++ read)
  have silent := (Cutter.new.run_apart stands.apart
    (fun _ => .inl ⟨rfl, rfl, rfl⟩)).1
  obtain ⟨sameRecords, sameHeld⟩ := stands.buffer.run read
  have buffered : Cutter.new.run (parser.buffer ++ read) =
      ((Cutter.new.run parser.buffer).2.run read) := by
    rw [Cutter.run_append, silent, List.nil_append]
  have whole : Cutter.new.run (readSoFar (bytes ++ chunk)) =
      ((Cutter.new.run (readSoFar bytes)).1 ++
        ((Cutter.new.run (readSoFar bytes)).2.run read).1,
        ((Cutter.new.run (readSoFar bytes)).2.run read).2) := by
    rw [soFar, Cutter.run_append]
  have holdsRest : Cutter.Alike (Cutter.new.run (readSoFar (bytes ++ chunk))).2
      (Cutter.new.run
        (drain reader false (parser.buffer ++ read)).2.2).2 := by
    rw [whole]
    rw [buffered] at kept
    exact sameHeld.trans kept
  have short : JsString.length
      (drain reader false (parser.buffer ++ read)).2.2 ≤ maxPendingRecord := by
    have counted := (Cutter.new.run_apart apart
      (fun _ => .inl ⟨rfl, rfl, rfl⟩)).2.1
    have start : Cutter.new.size = 0 := rfl
    have sameSize := holdsRest.size
    have bound := size_le_openSize (readSoFar (bytes ++ chunk))
    omega
  have step : parser.push reader chunk =
      ((drain reader false (parser.buffer ++ read)).1,
        ⟨⟨(Decoder.ready.run (bytes ++ chunk)).2,
            !(Decoder.ready.run (bytes ++ chunk)).1.isEmpty⟩,
          (drain reader false (parser.buffer ++ read)).2.2,
          (drain reader false (parser.buffer ++ read)).2.1⟩) := by
    unfold Parser.push
    rw [decoded, stands.reading]
    exact if_neg (Nat.not_lt.mpr short)
  rw [step]
  refine ⟨?_, rfl, holdsRest, apart, reading⟩
  rw [whole, List.filterMap_append, errors, buffered, sameRecords]

/-- Successive pushes report what the chunks close. -/
theorem Parser.StandsFor.pushes {parser : Parser} {bytes : List UInt8}
    (chunks : List (List UInt8)) (stands : parser.StandsFor bytes)
    (below : StaysBelow (bytes ++ chunks.flatten)) :
    (Cutter.new.run (readSoFar (bytes ++ chunks.flatten))).1.filterMap
        reader.reportLines =
      (Cutter.new.run (readSoFar bytes)).1.filterMap reader.reportLines ++
        (parser.pushes reader chunks).flatten := by
  induction chunks generalizing parser bytes with
  | nil => simp [Parser.pushes]
  | cons chunk rest ih =>
      rw [List.flatten_cons, ← List.append_assoc] at below ⊢
      obtain ⟨reported, next⟩ := stands.push reader chunk
        (below _ (readSoFar_isPrefix _ _))
      rw [ih next below, reported, Parser.pushes, List.flatten_cons,
        List.append_assoc]

/-- What a reader of server-sent events reports on a stream. -/
def referenceErrors (bytes : List UInt8) : List Error :=
  (records (textOf bytes)).filterMap reader.reportRecord

/-- The reports when a record is read as several, each up to a CRLF, and each
data value is trimmed. -/
def cutErrors (bytes : List UInt8) : List Error :=
  (cutRecords (textOf bytes)).filterMap reader.reportLines

theorem ended_prepend_congr {left right : Lines}
    (same : left.ended = right.ended) (text : List Char) :
    (left.prepend text).ended = (right.prepend text).ended := by
  obtain ⟨ended, rest⟩ := left
  obtain ⟨_, other⟩ := right
  subst same
  cases ended <;> rfl

/-- The end of the unended line ends no line. -/
theorem ended_append_plain (text : List Char) {char : Char}
    (plain : ¬ IsBreak char) :
    (readLines (text ++ [char])).ended = (readLines text).ended := by
  have notLf : char ≠ '\n' := fun isLf => plain (.inr isLf)
  induction text using readLines.induct with
  | case1 =>
      rw [List.nil_append, readLines_char plain]
      rfl
  | case2 rest ih => exact congrArg (⟨[], .crlf⟩ :: ·) ih
  | case3 rest alone ih =>
      have single : rest.head? ≠ some '\n' := by
        intro isLf
        obtain ⟨tail, rfl⟩ := List.head?_eq_some_iff.mp isLf
        exact alone tail rfl
      have longer : (rest ++ [char]).head? ≠ some '\n' := by
        cases rest with
        | nil => simpa using notLf
        | cons next rest => exact single
      rw [List.cons_append, readLines_cr longer, readLines_cr single]
      exact congrArg (⟨[], .cr⟩ :: ·) ih
  | case4 rest ih => exact congrArg (⟨[], .lf⟩ :: ·) ih
  | case5 first rest notCrLf notCr notFirstLf ih =>
      have firstPlain : ¬ IsBreak first := not_or.mpr ⟨notCr, notFirstLf⟩
      rw [List.cons_append, readLines_char firstPlain,
        readLines_char firstPlain]
      exact ended_prepend_congr ih _

theorem cutRecords_textOf (bytes : List UInt8) :
    cutRecords (textOf bytes) = (Cutter.new.run (readSoFar bytes)).1 := by
  have read := (Cutter.new.reads (readSoFar bytes) [] [] Cutter.holds_new
    nofun).records
  rw [Lines.prepend_nil] at read
  rw [read, textOf_eq]
  unfold cutRecords
  cases (Decoder.ready.run bytes).2 with
  | ready => rw [Decoder.flush, List.append_nil]
  | inside more code range =>
      rw [Decoder.flush, ended_append_plain _ (by decide)]

/-- Whatever the chunks, the parser reports on the cut records. -/
theorem pushes_eq_cutErrors (chunks : List (List UInt8))
    (below : StaysBelow chunks.flatten) :
    (Parser.new.pushes reader chunks).flatten =
      cutErrors reader chunks.flatten := by
  have pushed := Parser.standsFor_new.pushes reader chunks below
  rw [List.nil_append] at pushed
  unfold cutErrors
  rw [cutRecords_textOf, pushed]
  rfl

end Pushes

end Paigasus.Sdk
