import Paigasus.Dpop.OneTimeUse
import Paigasus.Foundation.WebUrl

/-!
# The forwarded bases

A configured base URL, and the URL that a client signed for a forwarded path
through it.  The parser of URLs is that of the web; its parser of hosts and the
URLs of other schemes stay parameters.  A well-formed path stays under its base
unless it is two dots and spaces behind its slash: the parser drops the spaces.
-/

namespace Paigasus.Dpop

open Foundation

/-- The parser of URLs whose scheme is none of the web's: host, port and path. -/
abbrev OtherUrls : Type :=
  List Char → List Char → Option (Option String × Option UInt16 × String)

def Url.ofWeb (url : WebUrl) : Url :=
  ⟨String.ofList url.scheme.name, some (String.ofList url.host),
    url.port.map UInt16.ofNat, String.ofList (WebUrl.pathText url.path)⟩

/-- `Url::parse` -/
def parseUrl (hosts : WebUrl.HostParser) (others : OtherUrls)
    (text : String) : Option Url :=
  match WebUrl.schemeOf (WebUrl.clean text.toList) with
  | none => none
  | some (name, rest) =>
      match WebUrl.Scheme.ofName name with
      | some _ => (WebUrl.parse hosts none text.toList).map Url.ofWeb
      | none => (others name rest).map fun (host, port, path) =>
          ⟨String.ofList name, host, port, path⟩

/-- Why an entry is no base; the entry is part of the message. -/
inductive BaseError where
  | doesNotParse (raw : String)
  | hasNoHost (raw : String)
deriving DecidableEq

def ForwardedBase.parse (parseUrl : String → Option Url) (raw : String) :
    Except BaseError ForwardedBase :=
  match parseUrl raw with
  | none => .error (.doesNotParse raw)
  | some url =>
      match url.host with
      | none => .error (.hasNoHost raw)
      | some host =>
          .ok ⟨url.scheme, host, url.port,
            String.ofList (url.path.toList.rdropWhile (· = '/'))⟩

/-- The path is two dots and spaces behind its slash. -/
def leavesPrefix (path : String) : Bool :=
  WebUrl.isDoubleDot (path.toList.tail.rdropWhile (· = ' '))

/-- Scheme, host and port of the base, and a path below its prefix. -/
structure LiesUnder (base : ForwardedBase) (url : Url) : Prop where
  scheme : url.scheme = base.scheme
  host : url.host = some base.host
  port : url.port = base.port
  path : ∃ rest, url.path.toList = base.pathPrefix.toList ++ '/' :: rest

section Dots

/-- A segment of dots is one for the source as well. -/
theorem decodeDots_of_dots {segment : List Char} {count : Nat}
    (isDots : WebUrl.dots segment = some count) :
    decodeDots (segment.map Char.toLower) = List.replicate count '.' := by
  induction segment using WebUrl.dots.induct generalizing count with
  | case1 =>
      cases isDots
      rfl
  | case2 rest ih =>
      obtain ⟨fewer, isRest, rfl⟩ := Option.map_eq_some_iff.mp isDots
      exact congrArg ('.' :: ·) (ih isRest)
  | case3 rest ih =>
      obtain ⟨fewer, isRest, rfl⟩ := Option.map_eq_some_iff.mp isDots
      exact congrArg ('.' :: ·) (ih isRest)
  | case4 rest ih =>
      obtain ⟨fewer, isRest, rfl⟩ := Option.map_eq_some_iff.mp isDots
      exact congrArg ('.' :: ·) (ih isRest)
  | case5 segment notNil notDot notLower notUpper =>
      rw [WebUrl.dots] at isDots
      · cases isDots
      all_goals assumption

theorem plain_of_dots {segment : List Char} {count : Nat}
    (isDots : WebUrl.dots segment = some count) :
    ∀ char ∈ segment, WebUrl.isSlash char = false := by
  induction segment using WebUrl.dots.induct generalizing count with
  | case1 =>
      intro char absent
      cases absent
  | case2 rest ih =>
      obtain ⟨fewer, isRest, rfl⟩ := Option.map_eq_some_iff.mp isDots
      exact List.forall_mem_cons.mpr ⟨rfl, ih isRest⟩
  | case3 rest ih =>
      obtain ⟨fewer, isRest, rfl⟩ := Option.map_eq_some_iff.mp isDots
      simpa [WebUrl.isSlash] using ih isRest
  | case4 rest ih =>
      obtain ⟨fewer, isRest, rfl⟩ := Option.map_eq_some_iff.mp isDots
      simpa [WebUrl.isSlash] using ih isRest
  | case5 segment notNil notDot notLower notUpper =>
      rw [WebUrl.dots] at isDots
      · cases isDots
      all_goals assumption

/-- A text with a slash has more than one segment. -/
theorem exists_segments {text : List Char} {slash : Char}
    (member : slash ∈ text) (isSlash : WebUrl.isSlash slash = true) :
    ∃ front last, front ≠ [] ∧
      text.splitOnP WebUrl.isSlash = front ++ [last] := by
  have nonempty := List.splitOnP_ne_nil WebUrl.isSlash text
  refine ⟨_, _, ?_, (List.dropLast_append_getLast nonempty).symm⟩
  obtain ⟨before, behind, rfl⟩ := List.append_of_mem member
  intro none
  have one := congrArg List.length none
  rw [List.length_dropLast, List.splitOnP_append_cons _ _ isSlash,
    List.length_append, List.length_nil] at one
  have left := List.length_pos_of_ne_nil
    (List.splitOnP_ne_nil WebUrl.isSlash before)
  have right := List.length_pos_of_ne_nil
    (List.splitOnP_ne_nil WebUrl.isSlash behind)
  omega

theorem not_dots_of_isDotSegment {segment : List Char}
    (noDot : isDotSegment segment = false) :
    WebUrl.isSingleDot segment = false ∧ WebUrl.isDoubleDot segment = false := by
  unfold isDotSegment at noDot
  dsimp only at noDot
  have neither := of_decide_eq_false noDot
  constructor
  · refine decide_eq_false fun isDots => neither (.inl ?_)
    exact decodeDots_of_dots isDots
  · refine decide_eq_false fun isDots => neither (.inr ?_)
    exact decodeDots_of_dots isDots

end Dots

section Bases

open WebUrl

variable {hosts : HostParser} {others : OtherUrls}

/-- A base in its parts: the path of its URL has no empty segment at the end. -/
structure IsBase (hosts : HostParser) (base : ForwardedBase) (url : WebUrl) :
    Prop where
  written : IsWritten hosts url
  trimmed : ∀ last ∈ url.path.getLast?, last ≠ []
  base : base = ⟨String.ofList url.scheme.name, String.ofList url.host,
    url.port.map UInt16.ofNat, String.ofList (pathText url.path)⟩

theorem ofName_web {name : List Char}
    (web : String.ofList name = "https" ∨ String.ofList name = "http") :
    (Scheme.ofName name).isSome = true := by
  rcases web with isHttps | isHttp
  · have isName : name = "https".toList := by
      rw [← isHttps, String.toList_ofList]
    rw [isName]
    decide
  · have isName : name = "http".toList := by
      rw [← isHttp, String.toList_ofList]
    rw [isName]
    decide

theorem isBase_of_parse {raw : String} {base : ForwardedBase}
    (parsed : ForwardedBase.parse (parseUrl hosts others) raw = .ok base)
    (web : base.scheme = "https" ∨ base.scheme = "http") :
    ∃ url, IsBase hosts base url := by
  unfold ForwardedBase.parse parseUrl at parsed
  split at parsed
  case h_1 => cases parsed
  case h_2 url found =>
    split at parsed
    case h_1 => cases parsed
    case h_2 host isHost =>
      cases parsed
      split at found
      case h_1 => cases found
      case h_2 name rest _ =>
        split at found
        case h_2 none =>
          obtain ⟨_, _, rfl⟩ := Option.map_eq_some_iff.mp found
          have isSome := ofName_web web
          rw [none] at isSome
          cases isSome
        case h_1 =>
          obtain ⟨whole, isWhole, rfl⟩ := Option.map_eq_some_iff.mp found
          have written := isWritten_of_parse isWhole
          cases isHost
          refine ⟨{ whole with path := whole.path.rdropWhile List.isEmpty },
            ⟨written.host, written.port, ?_⟩, ?_, ?_⟩
          · exact fun segment member => written.path segment
              ((List.rdropWhile_prefix _ _).subset member)
          · intro last isLast isEmpty
            obtain ⟨nonempty, isEnd⟩ := List.mem_getLast?_eq_getLast isLast
            apply List.rdropWhile_last_not List.isEmpty whole.path nonempty
            rw [← isEnd, isEmpty]
            rfl
          · have trimmed := pathText_rdropWhile written.path
            simp only [Url.ofWeb, String.toList_ofList, trimmed]

/-- What a well-formed path consists of. -/
structure IsForwarded (path : String) (rest : List Char) : Prop where
  path : path.toList = '/' :: rest
  plain : ∀ char ∈ rest, char ≠ '?' ∧ char ≠ '#' ∧ char ≠ '\\' ∧
    isControl char = false
  noDots : ∀ segment ∈ rest.splitOnP isSlash,
    isSingleDot segment = false ∧ isDoubleDot segment = false

theorem isForwarded_of_wellFormed {path : String}
    (wellFormed : pathIsWellFormed path = true) :
    ∃ rest, IsForwarded path rest := by
  unfold pathIsWellFormed at wellFormed
  rw [Bool.and_eq_true, Bool.and_eq_true, decide_eq_true_eq,
    Bool.not_eq_true', Bool.not_eq_true'] at wellFormed
  obtain ⟨⟨starts, plain⟩, noDots⟩ := wellFormed
  obtain ⟨rest, isPath⟩ := List.head?_eq_some_iff.mp starts
  rw [isPath] at plain noDots
  have tame : ∀ char ∈ rest, char ≠ '?' ∧ char ≠ '#' ∧ char ≠ '\\' ∧
      isControl char = false := by
    intro char member
    have allowed := List.any_eq_false.mp plain char
      (List.mem_cons_of_mem _ member)
    simpa [or_assoc] using allowed
  refine ⟨rest, isPath, tame, ?_⟩
  intro segment member
  have slashes : rest.splitOnP isSlash = rest.splitOn '/' := by
    rw [List.splitOn_eq_splitOnP]
    apply splitOnP_congr
    intro char isChar
    simp [isSlash, (tame char isChar).2.2.1, Bool.beq_eq_decide_eq]
  apply not_dots_of_isDotSegment
  refine Bool.eq_false_iff.mpr (List.any_eq_false.mp noDots segment ?_)
  rw [List.splitOn_cons_eq_if_modifyHead, if_pos (by decide), ← slashes]
  exact List.mem_cons_of_mem _ member

variable {base : ForwardedBase} {url : WebUrl} {path : String}
  {rest : List Char}

theorem IsForwarded.isRest (forwarded : IsForwarded path rest) :
    IsRest rest := by
  intro char member
  obtain ⟨noQuery, noFragment, _, noControl⟩ := forwarded.plain char member
  refine ⟨?_, by simp [endsPath, noQuery, noFragment]⟩
  rw [Bool.eq_false_iff]
  intro isTab
  simp only [isTabOrNewline, Bool.or_eq_true, decide_eq_true_eq] at isTab
  rcases isTab with (rfl | rfl) | rfl <;> exact absurd noControl (by decide)

/-- The parser drops the spaces at the end of a path, and nothing else. -/
theorem IsForwarded.trimmed (forwarded : IsForwarded path rest) :
    rest.rdropWhile isOuter = rest.rdropWhile (· = ' ') := by
  apply rdropWhile_congr
  intro char member
  have noControl := (forwarded.plain char member).2.2.2
  unfold isControl at noControl
  have high := of_decide_eq_false noControl
  unfold isOuter
  rw [decide_eq_decide]
  constructor
  · intro low
    have isSpace : char.toNat = 32 := by omega
    rw [← Char.ofNat_toNat char, isSpace]
  · rintro rfl
    decide

theorem toList_port {number : Option Nat}
    (small : ∀ value ∈ number, value ≤ 65535) :
    (((number.map UInt16.ofNat).map fun p => ":" ++ toString p).getD "").toList =
      portText number := by
  cases number with
  | none => rfl
  | some value =>
      have isValue : (UInt16.ofNat value).toNat = value := by
        rw [UInt16.toNat_ofNat']
        have bound := small value rfl
        omega
      have text : toString (UInt16.ofNat value) = toString value := by
        have unfolded : toString (UInt16.ofNat value) =
            toString (UInt16.ofNat value).toNat := rfl
        rw [unfolded, isValue]
      have digits : (toString value).toList = Nat.toDigits 10 value := by
        rw [Nat.toString_eq_repr, Nat.toList_repr]
      simp only [Option.map_some, Option.getD_some, text, String.toList_append,
        portText, digits]
      rfl

/-- The URL that is expected for a forwarded path is one, at the base. -/
theorem IsBase.expected_eq (isBase : IsBase hosts base url)
    (forwarded : IsForwarded path rest) :
    base.expected (parseUrl hosts others) path = some (Url.ofWeb { url with
      path := pushSegments url.path
        ((rest.rdropWhile (· = ' ')).splitOnP isSlash) }) := by
  obtain ⟨written, _, rfl⟩ := isBase
  obtain ⟨parsed, behind, scheme⟩ := parse_written written forwarded.isRest
  have text : (String.ofList url.scheme.name ++ "://" ++
      String.ofList url.host ++
      ((url.port.map UInt16.ofNat).map fun p => ":" ++ toString p).getD "" ++
      String.ofList (pathText url.path) ++ path).toList =
        originText url ++ pathText url.path ++ '/' :: rest := by
    have port := toList_port fun value isPort => (written.port value isPort).1
    unfold originText
    simp only [String.toList_append, String.toList_ofList, forwarded.path, port]
  have found := (name_facts url.scheme).2.2.1
  unfold ForwardedBase.expected parseUrl
  dsimp only
  rw [text, scheme]
  dsimp only
  rw [found]
  dsimp only
  rw [parsed, forwarded.trimmed]
  dsimp only [Option.map_some, Url.ofWeb]
  rw [if_pos ⟨rfl, rfl, rfl⟩]

/-- The segments of a forwarded path: dots can only be the last one, which the
parser cuts at its spaces. -/
theorem IsForwarded.segments (forwarded : IsForwarded path rest) :
    ∃ front last, (rest.rdropWhile (· = ' ')).splitOnP isSlash =
        front ++ [last] ∧
      (∀ segment ∈ front,
        isSingleDot segment = false ∧ isDoubleDot segment = false) ∧
      (leavesPrefix path = true ↔ front = [] ∧ isDoubleDot last = true) := by
  have isLeaving : leavesPrefix path =
      isDoubleDot (rest.rdropWhile (· = ' ')) := by
    unfold leavesPrefix
    rw [forwarded.path]
    rfl
  rw [isLeaving]
  by_cases slashed : ∃ slash ∈ rest.rdropWhile (· = ' '), isSlash slash = true
  · obtain ⟨slash, member, isSlash⟩ := slashed
    obtain ⟨front, last, more, split⟩ := exists_segments member isSlash
    have notDots : isDoubleDot (rest.rdropWhile (· = ' ')) ≠ true := by
      intro double
      have plain := plain_of_dots (of_decide_eq_true double) slash member
      rw [isSlash] at plain
      cases plain
    refine ⟨front, last, split, ?_, fun double => absurd double notDots,
      fun both => absurd both.1 more⟩
    intro segment member
    apply forwarded.noDots
    have spaces : ∀ char ∈ rest.rtakeWhile (· = ' '),
        WebUrl.isSlash char = false := by
      intro char member
      have isSpace := List.mem_rtakeWhile_imp member
      rw [of_decide_eq_true isSpace]
      rfl
    have whole := splitOnP_append_plain split spaces
    rw [List.rdropWhile_append_rtakeWhile] at whole
    rw [whole]
    exact List.mem_append_left _ member
  · have plain : ∀ char ∈ rest.rdropWhile (· = ' '), isSlash char = false :=
      fun char member => Bool.eq_false_iff.mpr fun isSlash =>
        slashed ⟨char, member, isSlash⟩
    exact ⟨[], _, List.splitOnP_eq_singleton plain, nofun,
      fun double => ⟨rfl, double⟩, fun both => both.2⟩

/-- What is added to the path of a base, for a path that keeps it. -/
theorem IsForwarded.pushed (forwarded : IsForwarded path rest)
    (kept : leavesPrefix path = false) (before : List (List Char)) :
    ∃ segment more, pushSegments before
        ((rest.rdropWhile (· = ' ')).splitOnP isSlash) =
      before ++ segment :: more := by
  obtain ⟨front, last, split, noDots, leaves⟩ := forwarded.segments
  rw [split, pushSegments_concat noDots]
  unfold pushSegment
  split
  case isTrue double =>
    cases front with
    | nil => rw [leaves.mpr ⟨rfl, double⟩] at kept; cases kept
    | cons first front =>
        rw [if_pos rfl, List.map_cons,
          List.dropLast_append_of_ne_nil (List.cons_ne_nil _ _),
          List.append_assoc]
        obtain ⟨segment, more, whole⟩ := List.exists_cons_of_ne_nil
          (List.append_ne_nil_of_right_ne_nil
            (escape first :: front.map escape).dropLast
            (List.cons_ne_nil [] []))
        exact ⟨segment, more, congrArg (before ++ ·) whole⟩
  case isFalse =>
    have behind (added : List Char) : ∃ segment more,
        before ++ front.map escape ++ [added] = before ++ segment :: more := by
      obtain ⟨segment, more, whole⟩ := List.exists_cons_of_ne_nil
        (List.append_ne_nil_of_right_ne_nil (front.map escape)
          (List.cons_ne_nil added []))
      exact ⟨segment, more, by rw [List.append_assoc, whole]⟩
    split
    case isTrue => exact behind []
    case isFalse => exact behind (escape last)

/-- A path of two dots takes the last segment of its base. -/
theorem IsForwarded.popped (forwarded : IsForwarded path rest)
    (leaves : leavesPrefix path = true) (before : List (List Char)) :
    pushSegments before ((rest.rdropWhile (· = ' ')).splitOnP isSlash) =
      before.dropLast ++ [[]] := by
  obtain ⟨front, last, split, noDots, both⟩ := forwarded.segments
  obtain ⟨rfl, double⟩ := both.mp leaves
  rw [split, pushSegments_concat noDots]
  unfold pushSegment
  rw [if_pos double, if_pos rfl, List.map_nil, List.append_nil]

/-- The URL that is expected lies under its base, unless the path of the base
has a segment that the forwarded path takes. -/
theorem IsBase.liesUnder_iff (isBase : IsBase hosts base url)
    (forwarded : IsForwarded path rest) :
    LiesUnder base (Url.ofWeb { url with
        path := pushSegments url.path
          ((rest.rdropWhile (· = ' ')).splitOnP isSlash) }) ↔
      base.pathPrefix = "" ∨ leavesPrefix path = false := by
  obtain ⟨written, trimmed, rfl⟩ := isBase
  constructor
  · rintro ⟨_, _, _, behind, isUnder⟩
    by_contra both
    obtain ⟨named, leaves⟩ := not_or.mp both
    rw [Bool.not_eq_false] at leaves
    rw [forwarded.popped leaves] at isUnder
    simp only [Url.ofWeb, String.toList_ofList] at isUnder named
    rcases List.eq_nil_or_concat url.path with none | ⟨front, last, whole⟩
    · rw [none] at named
      exact named rfl
    · rw [List.concat_eq_append] at whole
      have nonempty : last ≠ [] := trimmed last (by simp [whole])
      have lengths := congrArg List.length isUnder
      have positive := List.length_pos_of_ne_nil nonempty
      rw [whole, List.dropLast_concat, pathText_append, pathText_append]
        at lengths
      simp [pathText] at lengths
  · intro kept
    refine ⟨rfl, rfl, rfl, ?_⟩
    simp only [Url.ofWeb, String.toList_ofList]
    rcases Bool.eq_false_or_eq_true (leavesPrefix path) with leaves | stays
    · have named := kept.resolve_right (by simp [leaves])
      rw [forwarded.popped leaves]
      have none : pathText url.path = [] := by
        have text := congrArg String.toList named
        rw [String.toList_ofList] at text
        exact text
      have isNil : url.path = [] := by
        cases path : url.path with
        | nil => rfl
        | cons segment more => rw [path] at none; cases none
      exact ⟨[], by rw [isNil]; rfl⟩
    · obtain ⟨segment, more, pushed⟩ := forwarded.pushed stays url.path
      rw [pushed, pathText_append]
      exact ⟨segment ++ pathText more, rfl⟩

/-- A base that the configuration holds: its check asks for these schemes. -/
def IsConfigured (hosts : HostParser) (others : OtherUrls)
    (base : ForwardedBase) : Prop :=
  (∃ raw, ForwardedBase.parse (parseUrl hosts others) raw = .ok base) ∧
    (base.scheme = "https" ∨ base.scheme = "http")

/-- What is expected for a base lies under it, unless the path takes a segment
of it. -/
theorem expected_liesUnder_iff (configured : IsConfigured hosts others base)
    (wellFormed : pathIsWellFormed path = true) :
    (∀ url, base.expected (parseUrl hosts others) path = some url →
        LiesUnder base url) ↔
      base.pathPrefix = "" ∨ leavesPrefix path = false := by
  obtain ⟨⟨raw, parsed⟩, web⟩ := configured
  obtain ⟨url, isBase⟩ := isBase_of_parse parsed web
  obtain ⟨rest, forwarded⟩ := isForwarded_of_wellFormed wellFormed
  have expected := @IsBase.expected_eq hosts others base url path rest isBase
    forwarded
  rw [← isBase.liesUnder_iff forwarded, expected]
  exact ⟨fun under => under _ rfl, fun under found same =>
    Option.some.inj same ▸ under⟩

theorem htuMatches_eq_true {verifier : DpopProofVerifier} {htu : String} :
    verifier.htuMatches htu path = true ↔ pathIsWellFormed path = true ∧
      ∃ url, verifier.parseUrl htu = some url ∧
        ∃ base ∈ verifier.bases, ∃ expected,
          base.expected verifier.parseUrl path = some expected ∧
          sameTarget url expected = true := by
  unfold DpopProofVerifier.htuMatches
  cases wellFormed : pathIsWellFormed path with
  | false => simp
  | true =>
      cases verifier.parseUrl htu with
      | none => simp
      | some url =>
          simp only [Bool.true_eq_false, if_false, List.any_eq_true,
            List.mem_filterMap, true_and, Option.some.injEq]
          constructor
          · rintro ⟨expected, ⟨base, member, found⟩, same⟩
            exact ⟨url, rfl, base, member, expected, found, same⟩
          · rintro ⟨_, rfl, base, member, expected, found, same⟩
            exact ⟨expected, ⟨base, member, found⟩, same⟩

/-- Scheme, host, port and path are compared, so the place under a base is. -/
theorem liesUnder_of_sameTarget {base : ForwardedBase} {url expected : Url}
    (same : sameTarget url expected = true)
    (under : LiesUnder base expected) : LiesUnder base url := by
  obtain ⟨scheme, host, port, path⟩ := of_decide_eq_true same
  obtain ⟨underScheme, underHost, underPort, underPath⟩ := under
  exact ⟨scheme.trans underScheme, host.trans underHost, port.trans underPort,
    path ▸ underPath⟩

/-- The expected URLs of a well-formed path lie under their bases, and a proof
is accepted for a URL under one, exactly when the path takes no segment of a
base. -/
theorem forwarded_path_stays_iff {verifier : DpopProofVerifier}
    (parses : verifier.parseUrl = parseUrl hosts others)
    (configured : ∀ base ∈ verifier.bases, IsConfigured hosts others base)
    (wellFormed : pathIsWellFormed path = true) :
    ((∀ base ∈ verifier.bases, ∀ url,
        base.expected verifier.parseUrl path = some url → LiesUnder base url) ∧
      ∀ htu, verifier.htuMatches htu path = true →
        ∃ base ∈ verifier.bases, ∃ url,
          verifier.parseUrl htu = some url ∧ LiesUnder base url) ↔
    ∀ base ∈ verifier.bases,
      base.pathPrefix = "" ∨ leavesPrefix path = false := by
  rw [parses]
  constructor
  · rintro ⟨under, _⟩ base member
    exact (expected_liesUnder_iff (configured base member) wellFormed).mp
      (under base member)
  · intro kept
    have under : ∀ base ∈ verifier.bases, ∀ url,
        base.expected (parseUrl hosts others) path = some url →
          LiesUnder base url :=
      fun base member =>
        (expected_liesUnder_iff (configured base member) wellFormed).mpr
          (kept base member)
    refine ⟨under, ?_⟩
    intro htu accepted
    obtain ⟨_, url, parsed, base, member, expected, found, same⟩ :=
      htuMatches_eq_true.mp accepted
    rw [parses] at parsed found
    exact ⟨base, member, url, parsed,
      liesUnder_of_sameTarget same (under base member expected found)⟩

end Bases

section SampleBases

/-- A verifier with one base, whose path is `/a`. -/
def sampleVerifier : DpopProofVerifier :=
  { World.chatVerifier with
    parseUrl := parseUrl .names fun _ _ => none
    bases := [⟨"https", "api.example", none, "/a"⟩] }

theorem sampleVerifier_isConfigured : ∀ base ∈ sampleVerifier.bases,
    IsConfigured .names (fun _ _ => none) base := by
  intro base member
  rw [List.mem_singleton.mp member]
  refine ⟨⟨"https://api.example/a/", ?_⟩, .inl rfl⟩
  decide

theorem forwarded_path_stays_iff_sample :
    LiesUnder ⟨"https", "api.example", none, "/a"⟩
      ⟨"https", some "api.example", none, "/a/b%20/..%20/"⟩ := by
  have stays := (forwarded_path_stays_iff rfl sampleVerifier_isConfigured
    (show pathIsWellFormed "/b /.. /" = true by decide)).mpr
    fun _ _ => .inr (by decide)
  refine stays.1 _ List.mem_cons_self _ ?_
  decide

/-- Two dots and a space are no dot segment, and the parser drops the space. -/
theorem forwarded_path_leaves_base :
    pathIsWellFormed "/.. " = true ∧
    sampleVerifier.htuMatches "https://api.example/" "/.. " = true ∧
    (∀ base ∈ sampleVerifier.bases, ∀ url,
      sampleVerifier.parseUrl "https://api.example/" = some url →
        ¬ LiesUnder base url) := by
  refine ⟨by decide, by decide, ?_⟩
  intro base member url parsed under
  have isRoot : sampleVerifier.parseUrl "https://api.example/" =
      some ⟨"https", some "api.example", none, "/"⟩ := by decide
  rw [isRoot] at parsed
  cases parsed
  rw [List.mem_singleton.mp member] at under
  obtain ⟨rest, behind⟩ := under.path
  exact absurd (congrArg List.length behind) (by simp)

end SampleBases

end Paigasus.Dpop
