import Mathlib.Data.List.DropRight
import Mathlib.Data.List.Infix
import Paigasus.Foundation.Utf8

/-!
# URLs of the web

The URL parser of the web, for the schemes that name a host and have a default
port.  White space around the text is dropped, and tabs and line ends anywhere
in it; a backslash is a slash; dot segments are resolved, escaped dots included.
What a text says about the host is left to a parser of hosts, of which only
documented behaviour is assumed.  Credentials, query and fragment are read over.
-/

namespace Foundation

namespace WebUrl

/-- The schemes with a host and a default port. -/
inductive Scheme where
  | http
  | https
  | ws
  | wss
  | ftp
deriving DecidableEq

def Scheme.name : Scheme → List Char
  | .http => "http".toList
  | .https => "https".toList
  | .ws => "ws".toList
  | .wss => "wss".toList
  | .ftp => "ftp".toList

def Scheme.defaultPort : Scheme → Nat
  | .http => 80
  | .https => 443
  | .ws => 80
  | .wss => 443
  | .ftp => 21

def Scheme.all : List Scheme := [.http, .https, .ws, .wss, .ftp]

def Scheme.ofName (name : List Char) : Option Scheme :=
  Scheme.all.find? fun scheme => scheme.name = name

/-- What a host looks like in a URL: colons stand between brackets only. -/
structure IsHost (host : List Char) : Prop where
  nonempty : host ≠ []
  plain : ∀ char ∈ host, 0x20 < char.toNat ∧
    char ∉ ['/', '\\', '?', '#', '@']
  colons : (∀ char ∈ host, char ≠ ':' ∧ char ≠ '[') ∨
    ∃ inside, host = '[' :: (inside ++ [']']) ∧ ']' ∉ inside

/-- A parser of hosts: what it returns is a host that it reads as it is, and it
reads a name of small letters as it is. -/
structure HostParser where
  parse : List Char → Option (List Char)
  isHost : ∀ text host, parse text = some host → IsHost host
  stable : ∀ text host, parse text = some host → parse host = some host
  name : ∀ text, text ≠ [] → (∀ char ∈ text, 'a' ≤ char ∧ char ≤ 'z') →
    parse text = some text

def isNameChar (char : Char) : Bool :=
  ('a' ≤ char && char ≤ 'z') || char = '.'

/-- Reads the names of small letters and dots, and nothing else. -/
def parseName (text : List Char) : Option (List Char) :=
  if text ≠ [] ∧ text.all isNameChar then some text else none

theorem parseName_eq_some {text host : List Char} :
    parseName text = some host ↔
      text = host ∧ text ≠ [] ∧ text.all isNameChar = true := by
  unfold parseName
  split
  case isTrue named =>
    rw [Option.some_inj]
    exact ⟨fun same => ⟨same, named⟩, fun parsed => parsed.1⟩
  case isFalse unnamed =>
    exact ⟨nofun, fun parsed => absurd parsed.2 unnamed⟩

theorem isNameChar_ne {char other : Char} (isName : isNameChar char = true)
    (noName : isNameChar other = false) : char ≠ other := by
  rintro rfl
  rw [isName] at noName
  cases noName

theorem parseName_isHost (text host : List Char)
    (parsed : parseName text = some host) : IsHost host := by
  obtain ⟨rfl, nonempty, named⟩ := parseName_eq_some.mp parsed
  have isName := List.all_eq_true.mp named
  refine ⟨nonempty, ?_, .inl ?_⟩
  · intro char member
    have letter := isName char member
    refine ⟨?_, ?_⟩
    · unfold isNameChar at letter
      simp only [Bool.or_eq_true, Bool.and_eq_true, decide_eq_true_eq] at letter
      rcases letter with ⟨low, _⟩ | rfl
      · have least : 97 ≤ char.toNat := low
        omega
      · decide
    · simp only [List.mem_cons, List.not_mem_nil, or_false, not_or]
      exact ⟨isNameChar_ne letter (by decide), isNameChar_ne letter (by decide),
        isNameChar_ne letter (by decide), isNameChar_ne letter (by decide),
        isNameChar_ne letter (by decide)⟩
  · intro char member
    exact ⟨isNameChar_ne (isName char member) (by decide),
      isNameChar_ne (isName char member) (by decide)⟩

theorem parseName_stable (text host : List Char)
    (parsed : parseName text = some host) : parseName host = some host := by
  obtain ⟨rfl, named⟩ := parseName_eq_some.mp parsed
  exact parseName_eq_some.mpr ⟨rfl, named⟩

theorem parseName_name (text : List Char) (nonempty : text ≠ [])
    (small : ∀ char ∈ text, 'a' ≤ char ∧ char ≤ 'z') :
    parseName text = some text := by
  refine parseName_eq_some.mpr ⟨rfl, nonempty, List.all_eq_true.mpr ?_⟩
  intro char member
  unfold isNameChar
  simp [small char member]

def HostParser.names : HostParser :=
  ⟨parseName, parseName_isHost, parseName_stable, parseName_name⟩

end WebUrl

/-- A parsed URL; a default port is `none`. -/
structure WebUrl where
  scheme : WebUrl.Scheme
  host : List Char
  port : Option Nat
  path : List (List Char)
deriving DecidableEq

namespace WebUrl

def isTabOrNewline (char : Char) : Bool :=
  char = '\t' || char = '\n' || char = '\r'

/-- A control character or the space. -/
def isOuter (char : Char) : Bool := char.toNat ≤ 0x20

def clean (text : List Char) : List Char :=
  ((text.dropWhile isOuter).rdropWhile isOuter).filter
    fun char => !isTabOrNewline char

def isSlash (char : Char) : Bool := char = '/' || char = '\\'

def endsPath (char : Char) : Bool := char = '?' || char = '#'

def endsAuthority (char : Char) : Bool := isSlash char || endsPath char

section Path

/-- The number of dots that a segment of dots stands for. -/
def dots : List Char → Option Nat
  | [] => some 0
  | '.' :: rest => (dots rest).map (· + 1)
  | '%' :: '2' :: 'e' :: rest => (dots rest).map (· + 1)
  | '%' :: '2' :: 'E' :: rest => (dots rest).map (· + 1)
  | _ => none

def isSingleDot (segment : List Char) : Bool := dots segment = some 1

def isDoubleDot (segment : List Char) : Bool := dots segment = some 2

def hexDigit (value : Nat) : Char :=
  if value < 10 then Char.ofNat (48 + value) else Char.ofNat (55 + value)

/-- The characters that are escaped in a path. -/
def isEscaped (char : Char) : Bool :=
  char.toNat ≤ 0x20 || 0x7e < char.toNat ||
    char ∈ ['"', '#', '<', '>', '?', '^', '`', '{', '}']

def escapeByte (byte : UInt8) : List Char :=
  ['%', hexDigit (byte.toNat / 16), hexDigit (byte.toNat % 16)]

def escapeChar (char : Char) : List Char :=
  if isEscaped char then (String.utf8EncodeChar char).flatMap escapeByte
  else [char]

def escape (segment : List Char) : List Char := segment.flatMap escapeChar

/-- One segment; `last` says that no slash follows. -/
def pushSegment (path : List (List Char)) (segment : List Char) (last : Bool) :
    List (List Char) :=
  if isDoubleDot segment then
    if last then path.dropLast ++ [[]] else path.dropLast
  else if isSingleDot segment then
    if last then path ++ [[]] else path
  else
    path ++ [escape segment]

def pushSegments (path : List (List Char)) :
    List (List Char) → List (List Char)
  | [] => path
  | [segment] => pushSegment path segment true
  | segment :: rest => pushSegments (pushSegment path segment false) rest

/-- The path of a text after its first slash. -/
def readPath (path : List (List Char)) (text : List Char) :
    List (List Char) :=
  pushSegments path ((text.takeWhile fun char => !endsPath char).splitOnP
    isSlash)

/-- The text of a path. -/
def pathText (path : List (List Char)) : List Char :=
  path.flatMap ('/' :: ·)

end Path

section Authority

/-- The text up to the first colon that is not between brackets, and what
follows it. -/
def splitPort (inside : Bool) : List Char → List Char × Option (List Char)
  | [] => ([], none)
  | char :: rest =>
      if char = ':' ∧ inside = false then
        ([], some rest)
      else
        let later := splitPort
          (if char = '[' then true else if char = ']' then false else inside)
          rest
        (char :: later.1, later.2)

/-- A port; the default one and an empty one are none. -/
def readPort (scheme : Scheme) : Option (List Char) → Option (Option Nat)
  | none => some none
  | some [] => some none
  | some digits =>
      if digits.all Char.isDigit then
        let value := Nat.ofDigitChars 10 digits 0
        if 65535 < value then none
        else if value = scheme.defaultPort then some none
        else some (some value)
      else
        none

/-- What follows the last `@`. -/
def afterCredentials (authority : List Char) : List Char :=
  authority.rtakeWhile fun char => char ≠ '@'

def readAuthority (hosts : HostParser) (scheme : Scheme)
    (authority : List Char) : Option (List Char × Option Nat) :=
  let parts := splitPort false (afterCredentials authority)
  if parts.1 = [] then
    none
  else
    match hosts.parse parts.1, readPort scheme parts.2 with
    | some host, some port => some (host, port)
    | _, _ => none

/-- A text that starts with the slashes before an authority. -/
def readFromAuthority (hosts : HostParser) (scheme : Scheme)
    (text : List Char) : Option WebUrl :=
  let named := text.dropWhile isSlash
  let rest := named.dropWhile fun char => !endsAuthority char
  match readAuthority hosts scheme
      (named.takeWhile fun char => !endsAuthority char) with
  | none => none
  | some (host, port) =>
      some ⟨scheme, host, port,
        readPath [] (if (rest.head?.map isSlash) = some true then rest.tail
          else rest)⟩

end Authority

def isSchemeChar (char : Char) : Bool :=
  char.isAlphanum || char = '+' || char = '-' || char = '.'

/-- The scheme of a text, in small letters, and what follows its colon. -/
def schemeOf (text : List Char) : Option (List Char × List Char) :=
  match text.head? with
  | some first =>
      if first.isAlpha then
        match text.dropWhile isSchemeChar with
        | ':' :: rest =>
            some ((text.takeWhile isSchemeChar).map Char.toLower, rest)
        | _ => none
      else
        none
  | none => none

/-- A text without a scheme, against the URL it is found in. -/
def readRelative (hosts : HostParser) (base : WebUrl) (text : List Char) :
    Option WebUrl :=
  match text with
  | [] => some base
  | first :: rest =>
      if isSlash first then
        if (rest.head?.map isSlash) = some true then
          readFromAuthority hosts base.scheme rest
        else
          some { base with path := readPath [] rest }
      else if endsPath first then
        some base
      else
        some { base with path := readPath base.path.dropLast (first :: rest) }

/-- The URL of a text, found in a URL or alone; `none` for a failure and for a
URL of another scheme. -/
def parse (hosts : HostParser) (base : Option WebUrl) (text : List Char) :
    Option WebUrl :=
  match schemeOf (clean text) with
  | some (name, rest) =>
      match Scheme.ofName name with
      | none => none
      | some scheme =>
          match base with
          | none => readFromAuthority hosts scheme rest
          | some url =>
              if url.scheme = scheme ∧ ¬ ['/', '/'] <+: rest then
                readRelative hosts url rest
              else
                readFromAuthority hosts scheme rest
  | none =>
      match base with
      | none => none
      | some url => readRelative hosts url (clean text)

/-- Scheme, host and port. -/
def origin (url : WebUrl) : Scheme × List Char × Option Nat :=
  (url.scheme, url.host, url.port)

/-- The first character of a text is a slash. -/
def startsSlash (text : List Char) : Bool := text.head?.map isSlash = some true

section Clean

theorem rdropWhile_cons {α : Type} (drops : α → Bool) (first : α)
    (rest : List α) :
    (first :: rest).rdropWhile drops =
      if rest.rdropWhile drops = [] ∧ drops first = true then []
      else first :: rest.rdropWhile drops := by
  induction rest using List.reverseRecOn with
  | nil =>
      by_cases dropped : drops first = true
      · simp [List.rdropWhile, dropped]
      · simp [List.rdropWhile, dropped]
  | append_singleton rest last ih =>
      rw [← List.cons_append]
      by_cases dropped : drops last = true
      · rw [List.rdropWhile_concat_pos _ _ _ dropped,
          List.rdropWhile_concat_pos _ _ _ dropped]
        exact ih
      · rw [List.rdropWhile_concat_neg _ _ _ dropped,
          List.rdropWhile_concat_neg _ _ _ dropped]
        simp

/-- A text that starts with a slash is cleaned behind it. -/
theorem clean_slash (rest : List Char) :
    clean ('/' :: rest) =
      '/' :: (rest.rdropWhile isOuter).filter fun char =>
        !isTabOrNewline char := by
  have notOuter : isOuter '/' = false := by decide
  unfold clean
  rw [List.dropWhile_cons_of_neg (by simp [notOuter]), rdropWhile_cons,
    if_neg (by simp [notOuter])]
  rfl

/-- What follows the tabs and line ends at the start is not dropped when it is
a slash. -/
theorem startsSlash_clean (rest : List Char) :
    startsSlash ((rest.rdropWhile isOuter).filter fun char =>
        !isTabOrNewline char) =
      startsSlash (rest.dropWhile isTabOrNewline) := by
  induction rest with
  | nil => rfl
  | cons first rest ih =>
      rw [rdropWhile_cons]
      by_cases skipped : isTabOrNewline first = true
      · rw [List.dropWhile_cons_of_pos skipped, ← ih]
        split
        case isTrue none => rw [none.1]
        case isFalse => simp [skipped]
      · rw [List.dropWhile_cons_of_neg skipped]
        split
        case isTrue outer =>
          have notSlash : isSlash first = false := by
            have low := outer.2
            unfold isOuter at low
            unfold isSlash
            rw [decide_eq_true_eq] at low
            rw [Bool.or_eq_false_iff, decide_eq_false_iff_not,
              decide_eq_false_iff_not]
            constructor
            · rintro rfl
              exact absurd low (by decide)
            · rintro rfl
              exact absurd low (by decide)
          simp [startsSlash, notSlash]
        case isFalse => simp [startsSlash, skipped]

end Clean

section Relative

variable (hosts : HostParser) (base : WebUrl)

theorem schemeOf_slash (rest : List Char) : schemeOf ('/' :: rest) = none := rfl

/-- A text that starts with one slash keeps the origin. -/
theorem origin_parse_slash {rest : List Char}
    (single : startsSlash (rest.dropWhile isTabOrNewline) = false) :
    (parse hosts (some base) ('/' :: rest)).map origin =
      some base.origin := by
  rw [← startsSlash_clean] at single
  have slash : isSlash '/' = true := rfl
  unfold parse
  rw [clean_slash, schemeOf_slash]
  unfold startsSlash at single
  simp only [readRelative, slash, if_true, if_neg (of_decide_eq_false single)]
  rfl

/-- After two slashes only the scheme of the base counts. -/
theorem parse_slashes {rest : List Char}
    (double : startsSlash (rest.dropWhile isTabOrNewline) = true) :
    parse hosts (some base) ('/' :: rest) =
      readFromAuthority hosts base.scheme ((rest.rdropWhile isOuter).filter
        fun char => !isTabOrNewline char) := by
  rw [← startsSlash_clean] at double
  have slash : isSlash '/' = true := rfl
  unfold parse
  rw [clean_slash, schemeOf_slash]
  unfold startsSlash at double
  simp only [readRelative, slash, if_true, if_pos (of_decide_eq_true double)]

end Relative

section Segments

/-- A segment as a parser writes it: nothing to escape, no slash, no dots. -/
structure IsSegment (segment : List Char) : Prop where
  plain : ∀ char ∈ segment, isEscaped char = false ∧ isSlash char = false
  single : isSingleDot segment = false
  double : isDoubleDot segment = false

theorem isSegment_nil : IsSegment [] := ⟨nofun, rfl, rfl⟩

theorem hexDigit_plain {value : Nat} (small : value < 16) :
    isEscaped (hexDigit value) = false ∧ isSlash (hexDigit value) = false := by
  have all : ∀ value < 16, isEscaped (hexDigit value) = false ∧
      isSlash (hexDigit value) = false := by decide
  exact all value small

theorem escapeByte_plain (byte : UInt8) {char : Char}
    (member : char ∈ escapeByte byte) :
    isEscaped char = false ∧ isSlash char = false := by
  have small : byte.toNat < 256 := byte.toNat_lt
  simp only [escapeByte, List.mem_cons, List.not_mem_nil, or_false] at member
  rcases member with rfl | rfl | rfl
  · decide
  · exact hexDigit_plain (by omega)
  · exact hexDigit_plain (by omega)

theorem escape_plain {segment : List Char}
    (noSlash : ∀ char ∈ segment, isSlash char = false) :
    ∀ char ∈ escape segment, isEscaped char = false ∧ isSlash char = false := by
  intro char member
  obtain ⟨source, isSource, fromSource⟩ := List.mem_flatMap.mp member
  unfold escapeChar at fromSource
  split at fromSource
  case isTrue =>
    obtain ⟨byte, _, fromByte⟩ := List.mem_flatMap.mp fromSource
    exact escapeByte_plain byte fromByte
  case isFalse unescaped =>
    rw [List.mem_singleton.mp fromSource]
    exact ⟨Bool.eq_false_iff.mpr unescaped, noSlash source isSource⟩

theorem escape_eq_self {segment : List Char}
    (plain : ∀ char ∈ segment, isEscaped char = false) :
    escape segment = segment := by
  induction segment with
  | nil => rfl
  | cons char segment ih =>
      have unescaped := plain char List.mem_cons_self
      have rest := ih fun other member =>
        plain other (List.mem_cons_of_mem _ member)
      unfold escape at rest ⊢
      rw [List.flatMap_cons, rest, escapeChar, unescaped]
      rfl

/-- The escapes that a parser writes are no dots. -/
theorem dots_escapeByte {byte : UInt8} (notDot : byte.toNat ≠ 0x2e)
    (rest : List Char) : dots (escapeByte byte ++ rest) = none := by
  have small : byte.toNat < 256 := byte.toNat_lt
  have two : ∀ value < 16, hexDigit value = '2' → value = 2 := by decide
  have upper : ∀ value < 16, hexDigit value = 'E' → value = 14 := by decide
  have lower : ∀ value < 16, hexDigit value ≠ 'e' := by decide
  have high (isTwo : hexDigit (byte.toNat / 16) = '2') : byte.toNat / 16 = 2 :=
    two _ (by omega) isTwo
  rw [escapeByte, List.cons_append, List.cons_append, List.cons_append, dots]
  · exact nofun
  · intro more same
    exact absurd (List.cons.inj same).1 (by decide)
  · intro more same
    obtain ⟨_, isLower⟩ := List.cons.inj (List.cons.inj same).2
    exact absurd (List.cons.inj isLower).1 (lower _ (by omega))
  · intro more same
    obtain ⟨isTwo, isUpper⟩ := List.cons.inj (List.cons.inj same).2
    have first := high isTwo
    have second := upper _ (by omega) (List.cons.inj isUpper).1
    omega

/-- Only an escape starts with a percent sign that the text does not have. -/
theorem escape_eq_cons {segment rest : List Char} {char : Char}
    (whole : escape segment = char :: rest) (notPercent : char ≠ '%') :
    ∃ more, segment = char :: more ∧ escape more = rest := by
  cases segment with
  | nil => cases whole
  | cons first more =>
      unfold escape at whole
      rw [List.flatMap_cons] at whole
      unfold escapeChar at whole
      split at whole
      case isTrue =>
        cases encoded : String.utf8EncodeChar first with
        | nil => exact absurd encoded String.utf8EncodeChar_ne_nil
        | cons byte bytes =>
            rw [encoded, List.flatMap_cons, escapeByte] at whole
            exact absurd (List.cons.inj whole).1.symm notPercent
      case isFalse =>
        obtain ⟨isFirst, isRest⟩ := List.cons.inj whole
        exact ⟨more, by rw [isFirst], isRest⟩

theorem dots_escape (segment : List Char) :
    dots (escape segment) = dots segment := by
  induction segment using dots.induct with
  | case1 => rfl
  | case2 rest ih => exact congrArg (Option.map (· + 1)) ih
  | case3 rest ih => exact congrArg (Option.map (· + 1)) ih
  | case4 rest ih => exact congrArg (Option.map (· + 1)) ih
  | case5 segment notNil notDot notLower notUpper =>
      have none : dots segment = none := by
        rw [dots]
        all_goals assumption
      rw [none]
      cases segment with
      | nil => exact absurd rfl notNil
      | cons first rest =>
          unfold escape
          rw [List.flatMap_cons, escapeChar]
          split
          case isTrue escaped =>
            obtain ⟨byte, bytes, encoded, notDot⟩ :
                ∃ byte bytes, String.utf8EncodeChar first = byte :: bytes ∧
                  byte.toNat ≠ 0x2e := by
              by_cases isAscii : first.toNat < 0x80
              · refine ⟨_, _, Utf8.encode_ascii isAscii, ?_⟩
                rw [Utf8.toNat_ofNat_ascii isAscii]
                intro code
                have isDot : first = '.' := by
                  rw [← Char.ofNat_toNat first, code]
                exact notDot rest (by rw [isDot])
              · obtain ⟨byte, bytes, encoded, wide⟩ :=
                  Utf8.encode_wide (Nat.not_lt.mp isAscii)
                exact ⟨byte, bytes, encoded, by omega⟩
            rw [encoded, List.flatMap_cons, List.append_assoc]
            exact dots_escapeByte notDot _
          case isFalse =>
            rw [List.singleton_append, dots]
            · exact nofun
            · intro more same
              exact notDot rest (by rw [(List.cons.inj same).1])
            · intro more same
              obtain ⟨isPercent, isRest⟩ := List.cons.inj same
              obtain ⟨behind, rfl, isBehind⟩ :=
                escape_eq_cons isRest (by decide)
              obtain ⟨last, rfl, _⟩ := escape_eq_cons isBehind (by decide)
              exact notLower last (by rw [isPercent])
            · intro more same
              obtain ⟨isPercent, isRest⟩ := List.cons.inj same
              obtain ⟨behind, rfl, isBehind⟩ :=
                escape_eq_cons isRest (by decide)
              obtain ⟨last, rfl, _⟩ := escape_eq_cons isBehind (by decide)
              exact notUpper last (by rw [isPercent])

theorem mem_splitOnP {separates : Char → Bool} {text segment : List Char}
    (member : segment ∈ text.splitOnP separates) :
    ∀ char ∈ segment, separates char = false ∧ char ∈ text := by
  induction text generalizing segment with
  | nil =>
      rw [List.splitOnP_nil, List.mem_singleton] at member
      subst member
      exact nofun
  | cons first rest ih =>
      rw [List.splitOnP_cons_eq_if_modifyHead] at member
      have longer (other : List Char) (isIn : other ∈ rest.splitOnP separates)
          (char : Char) (isChar : char ∈ other) :
          separates char = false ∧ char ∈ first :: rest :=
        ⟨(ih isIn char isChar).1, List.mem_cons_of_mem _ (ih isIn char isChar).2⟩
      split at member
      case isTrue =>
        rcases List.mem_cons.mp member with rfl | later
        · exact nofun
        · exact longer segment later
      case isFalse kept =>
        obtain ⟨head, tail, split⟩ :=
          List.exists_cons_of_ne_nil (List.splitOnP_ne_nil separates rest)
        rw [split, List.modifyHead_cons] at member
        rcases List.mem_cons.mp member with rfl | later
        · intro char isChar
          rcases List.mem_cons.mp isChar with rfl | isHead
          · exact ⟨Bool.eq_false_iff.mpr kept, List.mem_cons_self⟩
          · exact longer head (by rw [split]; exact List.mem_cons_self) char
              isHead
        · exact longer segment
            (by rw [split]; exact List.mem_cons_of_mem _ later)

theorem isSegment_escape {segment : List Char}
    (noSlash : ∀ char ∈ segment, isSlash char = false)
    (single : isSingleDot segment = false)
    (double : isDoubleDot segment = false) : IsSegment (escape segment) := by
  refine ⟨escape_plain noSlash, ?_, ?_⟩
  · unfold isSingleDot at single ⊢
    rw [dots_escape]
    exact single
  · unfold isDoubleDot at double ⊢
    rw [dots_escape]
    exact double

/-- The paths that a parser writes. -/
def IsPath (path : List (List Char)) : Prop := ∀ segment ∈ path, IsSegment segment

theorem IsPath.append {first second : List (List Char)} (left : IsPath first)
    (right : IsPath second) : IsPath (first ++ second) := by
  intro segment member
  rcases List.mem_append.mp member with isLeft | isRight
  · exact left segment isLeft
  · exact right segment isRight

theorem IsPath.dropLast {path : List (List Char)} (isPath : IsPath path) :
    IsPath path.dropLast :=
  fun segment member => isPath segment (List.mem_of_mem_dropLast member)

theorem isPath_singleton {segment : List Char} (isSegment : IsSegment segment) :
    IsPath [segment] := by
  intro other member
  rw [List.mem_singleton.mp member]
  exact isSegment

theorem isPath_pushSegment {path : List (List Char)} {segment : List Char}
    (isPath : IsPath path) (noSlash : ∀ char ∈ segment, isSlash char = false)
    (last : Bool) : IsPath (pushSegment path segment last) := by
  have empty := isPath_singleton isSegment_nil
  unfold pushSegment
  split
  case isTrue =>
    split
    · exact isPath.dropLast.append empty
    · exact isPath.dropLast
  case isFalse double =>
    split
    case isTrue =>
      split
      · exact isPath.append empty
      · exact isPath
    case isFalse single =>
      exact isPath.append (isPath_singleton (isSegment_escape noSlash
        (Bool.eq_false_iff.mpr single) (Bool.eq_false_iff.mpr double)))

theorem isPath_pushSegments {path segments : List (List Char)}
    (isPath : IsPath path)
    (noSlash : ∀ segment ∈ segments, ∀ char ∈ segment, isSlash char = false) :
    IsPath (pushSegments path segments) := by
  induction segments generalizing path with
  | nil => exact isPath
  | cons segment rest ih =>
      have pushed (last : Bool) := isPath_pushSegment isPath
        (noSlash segment List.mem_cons_self) last
      cases rest with
      | nil => exact pushed true
      | cons next rest =>
          exact ih (pushed false) fun other member =>
            noSlash other (List.mem_cons_of_mem _ member)

theorem isPath_readPath {path : List (List Char)} (isPath : IsPath path)
    (text : List Char) : IsPath (readPath path text) :=
  isPath_pushSegments isPath fun _ member char isChar =>
    (mem_splitOnP member char isChar).1

/-- Segments that a parser has written are pushed as they are. -/
theorem pushSegments_append {path written segments : List (List Char)}
    (isPath : IsPath written) (more : segments ≠ []) :
    pushSegments path (written ++ segments) =
      pushSegments (path ++ written) segments := by
  induction written generalizing path with
  | nil => rw [List.nil_append, List.append_nil]
  | cons segment written ih =>
      have isSegment := isPath segment List.mem_cons_self
      have pushed : pushSegment path segment false = path ++ [segment] := by
        unfold pushSegment
        rw [isSegment.single, isSegment.double,
          escape_eq_self fun char member => (isSegment.plain char member).1]
        rfl
      have rest := @ih (path ++ [segment]) fun other member =>
        isPath other (List.mem_cons_of_mem _ member)
      rw [List.append_assoc, List.singleton_append] at rest
      rw [← rest, ← pushed, List.cons_append]
      obtain ⟨next, tail, isMore⟩ := List.exists_cons_of_ne_nil
        (List.append_ne_nil_of_right_ne_nil written more)
      rw [isMore]
      rfl

/-- Segments that are no dots stay; the last one is pushed behind them. -/
theorem pushSegments_concat {path segments : List (List Char)}
    (noDots : ∀ segment ∈ segments,
      isSingleDot segment = false ∧ isDoubleDot segment = false)
    (last : List Char) :
    pushSegments path (segments ++ [last]) =
      pushSegment (path ++ segments.map escape) last true := by
  induction segments generalizing path with
  | nil => rw [List.nil_append, List.map_nil, List.append_nil]; rfl
  | cons segment rest ih =>
      obtain ⟨single, double⟩ := noDots segment List.mem_cons_self
      have pushed : pushSegment path segment false =
          path ++ [escape segment] := by
        unfold pushSegment
        rw [single, double]
        rfl
      have later := @ih (path ++ [escape segment])
        fun other member => noDots other (List.mem_cons_of_mem _ member)
      rw [List.append_assoc, List.singleton_append] at later
      rw [List.map_cons, ← later, ← pushed, List.cons_append]
      obtain ⟨next, tail, isMore⟩ := List.exists_cons_of_ne_nil
        (List.append_ne_nil_of_right_ne_nil rest (List.cons_ne_nil last []))
      rw [isMore]
      rfl

theorem IsSegment.noSlash {segment : List Char} (isSegment : IsSegment segment) :
    ∀ char ∈ segment, isSlash char = false :=
  fun char member => (isSegment.plain char member).2

/-- The text of a path is split into its segments again. -/
theorem splitOnP_pathText {path : List (List Char)} (isPath : IsPath path)
    (rest : List Char) :
    ((pathText path ++ '/' :: rest).tail).splitOnP isSlash =
      path ++ rest.splitOnP isSlash := by
  induction path with
  | nil => rfl
  | cons segment path ih =>
      have later := ih fun other member =>
        isPath other (List.mem_cons_of_mem _ member)
      have noSlash := (isPath segment List.mem_cons_self).noSlash
      have slash : isSlash '/' = true := rfl
      have split (behind : List Char) :
          (segment ++ '/' :: behind).splitOnP isSlash =
            segment :: behind.splitOnP isSlash :=
        List.splitOnP_append_cons_of_forall_mem noSlash '/' slash behind
      unfold pathText at later ⊢
      rw [List.flatMap_cons, List.cons_append, List.cons_append, List.tail_cons,
        List.append_assoc]
      cases path with
      | nil => exact split rest
      | cons next path =>
          rw [List.flatMap_cons, List.cons_append, List.cons_append,
            List.tail_cons] at later
          rw [List.flatMap_cons, List.cons_append, List.cons_append, split,
            later]
          rfl

theorem pathText_append (first second : List (List Char)) :
    pathText (first ++ second) = pathText first ++ pathText second :=
  List.flatMap_append

/-- Without the slashes at its end a path has no empty segment there. -/
theorem pathText_rdropWhile {path : List (List Char)} (isPath : IsPath path) :
    (pathText path).rdropWhile (· = '/') =
      pathText (path.rdropWhile List.isEmpty) := by
  induction path using List.reverseRecOn with
  | nil => rfl
  | append_singleton path last ih =>
      have isFront : IsPath path := fun segment member =>
        isPath segment (List.mem_append_left _ member)
      have isLast := isPath last (by simp)
      rw [pathText_append]
      rcases List.eq_nil_or_concat last with rfl | ⟨front, char, rfl⟩
      · rw [List.rdropWhile_concat_pos _ _ _ (by rfl), ← ih isFront]
        exact List.rdropWhile_concat_pos _ _ _ (by rfl)
      · have notSlash : char ≠ '/' := by
          rintro rfl
          have plain := isLast.noSlash '/' (by simp)
          cases plain
        rw [List.rdropWhile_concat_neg _ _ _ (by simp)]
        have whole : pathText path ++ pathText [front.concat char] =
            (pathText path ++ '/' :: front) ++ [char] := by
          simp [pathText]
        rw [whole, List.rdropWhile_concat_neg _ _ _ (by simpa using notSlash),
          ← whole, pathText_append]

theorem splitOnP_congr {left right : Char → Bool} {text : List Char}
    (same : ∀ char ∈ text, left char = right char) :
    text.splitOnP left = text.splitOnP right := by
  induction text with
  | nil => rw [List.splitOnP_nil, List.splitOnP_nil]
  | cons first rest ih =>
      rw [List.splitOnP_cons_eq_if_modifyHead,
        List.splitOnP_cons_eq_if_modifyHead, same first List.mem_cons_self,
        ih fun char member => same char (List.mem_cons_of_mem _ member)]

/-- What does not separate lengthens the last part. -/
theorem splitOnP_append_plain {separates : Char → Bool} {text more : List Char}
    {front : List (List Char)} {last : List Char}
    (split : text.splitOnP separates = front ++ [last])
    (plain : ∀ char ∈ more, separates char = false) :
    (text ++ more).splitOnP separates = front ++ [last ++ more] := by
  induction text generalizing front last with
  | nil =>
      have single : front = [] ∧ last = [] := by
        rw [List.splitOnP_nil] at split
        cases front with
        | nil => exact ⟨rfl, (List.cons.inj split).1.symm⟩
        | cons first front => simp at split
      rw [single.1, single.2]
      exact List.splitOnP_eq_singleton plain
  | cons first rest ih =>
      rw [List.splitOnP_cons_eq_if_modifyHead] at split
      rw [List.cons_append, List.splitOnP_cons_eq_if_modifyHead]
      obtain ⟨others, end_, whole⟩ : ∃ others end_,
          rest.splitOnP separates = others ++ [end_] :=
        ⟨_, _, (List.dropLast_append_getLast
          (List.splitOnP_ne_nil separates rest)).symm⟩
      rw [ih whole]
      rw [whole] at split
      split at split
      case isTrue isSeparator =>
        rw [if_pos isSeparator]
        have parts : front = [] :: others ∧ last = end_ := by
          have same := List.append_inj' (show front ++ [last] =
            ([] :: others) ++ [end_] from split.symm) rfl
          exact ⟨same.1, (List.cons.inj same.2).1⟩
        rw [parts.1, parts.2]
        rfl
      case isFalse notSeparator =>
        rw [if_neg notSeparator]
        cases others with
        | nil =>
            have parts : front = [] ∧ last = first :: end_ := by
              cases front with
              | nil => exact ⟨rfl, (List.cons.inj split).1.symm⟩
              | cons head front => simp at split
            rw [parts.1, parts.2]
            rfl
        | cons head others =>
            have parts : front = (first :: head) :: others ∧ last = end_ := by
              have same := List.append_inj' (show front ++ [last] =
                ((first :: head) :: others) ++ [end_] from split.symm) rfl
              exact ⟨same.1, (List.cons.inj same.2).1⟩
            rw [parts.1, parts.2]
            rfl

theorem rdropWhile_congr {left right : Char → Bool} {text : List Char}
    (same : ∀ char ∈ text, left char = right char) :
    text.rdropWhile left = text.rdropWhile right := by
  induction text with
  | nil => rfl
  | cons first rest ih =>
      rw [rdropWhile_cons, rdropWhile_cons, same first List.mem_cons_self,
        ih fun char member => same char (List.mem_cons_of_mem _ member)]

end Segments

section Written

/-- A URL as the parser returns it: its parts are read back as they are. -/
structure IsWritten (hosts : HostParser) (url : WebUrl) : Prop where
  host : hosts.parse url.host = some url.host
  port : ∀ port ∈ url.port, port ≤ 65535 ∧ port ≠ url.scheme.defaultPort
  path : IsPath url.path

def portText : Option Nat → List Char
  | none => []
  | some port => ':' :: Nat.toDigits 10 port

def originText (url : WebUrl) : List Char :=
  url.scheme.name ++ "://".toList ++ url.host ++ portText url.port

theorem readPort_bounds {scheme : Scheme} {text : Option (List Char)}
    {port : Option Nat} (read : readPort scheme text = some port) :
    ∀ number ∈ port, number ≤ 65535 ∧ number ≠ scheme.defaultPort := by
  unfold readPort at read
  split at read
  case h_1 =>
    cases read
    exact nofun
  case h_2 =>
    cases read
    exact nofun
  case h_3 =>
    split at read
    case isFalse => cases read
    case isTrue =>
      dsimp only at read
      split at read
      case isTrue => cases read
      case isFalse small =>
        split at read
        case isTrue =>
          cases read
          exact nofun
        case isFalse other =>
          cases read
          rintro number ⟨⟩
          exact ⟨Nat.not_lt.mp small, other⟩

theorem isWritten_of_authority {hosts : HostParser} {scheme : Scheme}
    {text : List Char} {url : WebUrl}
    (read : readFromAuthority hosts scheme text = some url) :
    IsWritten hosts url := by
  unfold readFromAuthority at read
  dsimp only at read
  split at read
  case h_1 => cases read
  case h_2 host port authority =>
    cases read
    unfold readAuthority at authority
    dsimp only at authority
    split at authority
    case isTrue => cases authority
    case isFalse =>
      split at authority
      case h_1 _ _ isHost isPort =>
        cases authority
        exact ⟨hosts.stable _ _ isHost, readPort_bounds isPort,
          isPath_readPath (fun _ member => by cases member) _⟩
      case h_2 => cases authority

theorem isWritten_of_parse {hosts : HostParser} {text : List Char}
    {url : WebUrl} (parsed : parse hosts none text = some url) :
    IsWritten hosts url := by
  unfold parse at parsed
  split at parsed
  case h_1 =>
    split at parsed
    case h_1 => cases parsed
    case h_2 => exact isWritten_of_authority parsed
  case h_2 => cases parsed

variable {hosts : HostParser} {url : WebUrl}

theorem rdropWhile_append_cons {drops : Char → Bool} {kept : Char}
    (isKept : drops kept = false) (before after : List Char) :
    (before ++ kept :: after).rdropWhile drops =
      before ++ kept :: after.rdropWhile drops := by
  induction before with
  | nil =>
      rw [List.nil_append, rdropWhile_cons, if_neg (by simp [isKept])]
      rfl
  | cons char before ih =>
      rw [List.cons_append, rdropWhile_cons, ih, if_neg (by simp)]
      rfl

/-- The digits of a port are read as the port. -/
theorem readPort_portText {scheme : Scheme} {port : Nat} (small : port ≤ 65535)
    (other : port ≠ scheme.defaultPort) :
    readPort scheme (some (Nat.toDigits 10 port)) = some (some port) := by
  have digits : (Nat.toDigits 10 port).all Char.isDigit = true := by
    rw [List.all_eq_true]
    intro digit member
    exact Nat.isDigit_of_mem_toDigits (by decide) (by decide) member
  have value : Nat.ofDigitChars 10 (Nat.toDigits 10 port) 0 = port :=
    Nat.ofDigitChars_ten_toDigits
  unfold readPort
  split
  case h_1 => contradiction
  case h_2 _ noDigits =>
    exact absurd (Option.some.inj noDigits) Nat.toDigits_ne_nil
  case h_3 _ _ isDigits =>
    cases isDigits
    rw [if_pos digits]
    dsimp only
    rw [value, if_neg (Nat.not_lt.mpr small), if_neg other]

theorem splitPort_inside {inside : List Char} (closed : ']' ∉ inside)
    (rest : List Char) :
    splitPort true (inside ++ ']' :: rest) =
      (inside ++ ']' :: (splitPort false rest).1, (splitPort false rest).2) := by
  induction inside with
  | nil => rfl
  | cons char inside ih =>
      have notClosed : char ≠ ']' := by
        rintro rfl
        exact closed List.mem_cons_self
      have later := ih fun member => closed (List.mem_cons_of_mem _ member)
      have stays : (if char = '[' then true
          else if char = ']' then false else true) = true := by
        rw [if_neg notClosed]
        split <;> rfl
      rw [List.cons_append, splitPort, if_neg (by simp), stays, later]
      rfl

theorem splitPort_plain {text : List Char}
    (plain : ∀ char ∈ text, char ≠ ':' ∧ char ≠ '[') (rest : List Char) :
    splitPort false (text ++ rest) =
      (text ++ (splitPort false rest).1, (splitPort false rest).2) := by
  induction text with
  | nil => rfl
  | cons char text ih =>
      obtain ⟨notColon, notOpen⟩ := plain char List.mem_cons_self
      have later := ih fun other member =>
        plain other (List.mem_cons_of_mem _ member)
      have stays : (if char = '[' then true
          else if char = ']' then false else false) = false := by
        rw [if_neg notOpen]
        split <;> rfl
      rw [List.cons_append, splitPort, if_neg (by simp [notColon]), stays,
        later]
      rfl

/-- A host is split from its port. -/
theorem IsHost.splitPort {host : List Char} (isHost : IsHost host)
    (port : Option Nat) :
    splitPort false (host ++ portText port) =
      (host, port.map (Nat.toDigits 10)) := by
  have alone : WebUrl.splitPort false (portText port) =
      ([], port.map (Nat.toDigits 10)) := by
    cases port <;> rfl
  rcases isHost.colons with plain | ⟨inside, rfl, closed⟩
  · rw [splitPort_plain plain, alone, List.append_nil]
  · have inner := splitPort_inside closed (portText port)
    rw [alone] at inner
    rw [List.cons_append, List.append_assoc, List.singleton_append,
      WebUrl.splitPort, if_neg (by decide), if_pos rfl, inner]

/-- A character that stays where it is in the text of a URL. -/
def isInner (char : Char) : Bool := !isOuter char && !endsPath char

theorem isTabOrNewline_of_isInner {char : Char} (inner : isInner char = true) :
    isTabOrNewline char = false := by
  rw [Bool.eq_false_iff]
  intro isTab
  simp only [isTabOrNewline, Bool.or_eq_true, decide_eq_true_eq] at isTab
  rcases isTab with (rfl | rfl) | rfl <;> exact absurd inner (by decide)

theorem isInner_of_plain {char : Char} (low : 0x20 < char.toNat)
    (noQuery : char ≠ '?') (noFragment : char ≠ '#') : isInner char = true := by
  simp [isInner, isOuter, endsPath, noQuery, noFragment, Nat.not_le.mpr low]

theorem pathText_inner {path : List (List Char)} (isPath : IsPath path) :
    ∀ char ∈ pathText path, isInner char = true := by
  intro char member
  obtain ⟨segment, isSegment, isChar⟩ := List.mem_flatMap.mp member
  rcases List.mem_cons.mp isChar with rfl | inSegment
  · decide
  · have unescaped := ((isPath segment isSegment).plain char inSegment).1
    simp only [isEscaped, Bool.or_eq_false_iff, decide_eq_false_iff_not,
      List.mem_cons, List.not_mem_nil, or_false, not_or] at unescaped
    exact isInner_of_plain (Nat.not_le.mp unescaped.1.1) unescaped.2.2.2.2.2.1
      unescaped.2.2.1

theorem portText_plain {port : Option Nat} {char : Char}
    (member : char ∈ portText port) : char = ':' ∨ char.isDigit = true := by
  cases port with
  | none => cases member
  | some port =>
      rcases List.mem_cons.mp member with isColon | isDigit
      · exact .inl isColon
      · exact .inr
          (Nat.isDigit_of_mem_toDigits (by decide) (by decide) isDigit)

/-- The characters of a host and a port. -/
theorem authority_plain {host : List Char} (isHost : IsHost host)
    (port : Option Nat) : ∀ char ∈ host ++ portText port,
      isInner char = true ∧ endsAuthority char = false ∧ char ≠ '@' := by
  intro char member
  have facts : 0x20 < char.toNat ∧
      char ∉ ['/', '\\', '?', '#', '@'] := by
    rcases List.mem_append.mp member with inHost | inPort
    · exact isHost.plain char inHost
    · rcases portText_plain inPort with rfl | digit
      · decide
      · have low : 48 ≤ char.toNat ∧ char.toNat ≤ 57 := by
          unfold Char.isDigit at digit
          simp only [Bool.and_eq_true, decide_eq_true_eq] at digit
          exact ⟨UInt32.le_iff_toNat_le.mp digit.1,
            UInt32.le_iff_toNat_le.mp digit.2⟩
        refine ⟨by omega, ?_⟩
        have differs (other : Char)
            (noDigit : other.toNat < 48 ∨ 57 < other.toNat) :
            char ≠ other := by
          rintro rfl
          omega
        simp [differs '/' (by decide), differs '\\' (by decide),
          differs '?' (by decide), differs '#' (by decide),
          differs '@' (by decide)]
  obtain ⟨low, others⟩ := facts
  simp only [List.mem_cons, List.not_mem_nil, or_false, not_or] at others
  obtain ⟨noSlash, noBackslash, noQuery, noFragment, noAt⟩ := others
  exact ⟨isInner_of_plain low noQuery noFragment,
    by simp [endsAuthority, isSlash, endsPath, noSlash, noBackslash, noQuery,
      noFragment], noAt⟩

theorem filter_inner {text : List Char}
    (inner : ∀ char ∈ text, isInner char = true) :
    (text.filter fun char => !isTabOrNewline char) = text := by
  rw [List.filter_eq_self]
  intro char member
  rw [isTabOrNewline_of_isInner (inner char member)]
  rfl

theorem name_facts (scheme : Scheme) :
    (∀ char ∈ scheme.name, isInner char = true ∧ isSchemeChar char = true) ∧
      scheme.name.map Char.toLower = scheme.name ∧
      Scheme.ofName scheme.name = some scheme ∧
      ∃ first rest, scheme.name = first :: rest ∧ first.isAlpha = true ∧
        isOuter first = false := by
  have inside : ∀ char ∈ scheme.name,
      (isInner char && isSchemeChar char) = true := by
    apply List.all_eq_true.mp
    cases scheme <;> decide
  refine ⟨fun char member => Bool.and_eq_true_iff.mp (inside char member), ?_⟩
  cases scheme <;>
    exact ⟨by decide, by decide, _, _, rfl, by decide, by decide⟩

/-- The scheme of a text that starts with its name. -/
theorem schemeOf_name (scheme : Scheme) (rest : List Char) :
    schemeOf (scheme.name ++ ':' :: rest) = some (scheme.name, rest) := by
  obtain ⟨chars, lower, _, first, more, isName, isAlpha, _⟩ := name_facts scheme
  have colon : isSchemeChar ':' = false := by decide
  have plain : ∀ char ∈ scheme.name, isSchemeChar char = true :=
    fun char member => (chars char member).2
  have taken : (scheme.name ++ ':' :: rest).takeWhile isSchemeChar =
      scheme.name := by
    rw [List.takeWhile_append_of_pos plain,
      List.takeWhile_cons_of_neg (by simp [colon]), List.append_nil]
  have dropped : (scheme.name ++ ':' :: rest).dropWhile isSchemeChar =
      ':' :: rest := by
    rw [List.dropWhile_append_of_pos plain,
      List.dropWhile_cons_of_neg (by simp [colon])]
  have head : (scheme.name ++ ':' :: rest).head? = some first := by
    rw [isName]
    rfl
  unfold schemeOf
  rw [head]
  dsimp only
  rw [if_pos isAlpha, dropped, taken, lower]
  rfl

/-- A text without tabs, line ends, query and fragment. -/
def IsRest (text : List Char) : Prop :=
  ∀ char ∈ text, isTabOrNewline char = false ∧ endsPath char = false

theorem clean_written (isWritten : IsWritten hosts url) {rest : List Char}
    (isRest : IsRest rest) :
    clean (originText url ++ pathText url.path ++ '/' :: rest) =
      originText url ++ pathText url.path ++ '/' :: rest.rdropWhile isOuter := by
  obtain ⟨chars, _, _, first, more, isName, _, notOuter⟩ :=
    name_facts url.scheme
  have isHost := hosts.isHost _ _ isWritten.host
  have start : ∃ others, originText url ++ pathText url.path ++ '/' :: rest =
      first :: others := by
    unfold originText
    rw [isName]
    exact ⟨_, rfl⟩
  obtain ⟨others, isStart⟩ := start
  have inner : ∀ char ∈ originText url ++ pathText url.path,
      isInner char = true := by
    intro char member
    rcases List.mem_append.mp member with inOrigin | inPath
    · unfold originText at inOrigin
      rw [List.append_assoc] at inOrigin
      rcases List.mem_append.mp inOrigin with inName | inAuthority
      · rcases List.mem_append.mp inName with inName | inSlashes
        · exact (chars char inName).1
        · have slashes : ∀ char ∈ "://".toList, isInner char = true :=
            List.all_eq_true.mp (by decide)
          exact slashes char inSlashes
      · exact (authority_plain isHost url.port char inAuthority).1
    · exact pathText_inner isWritten.path char inPath
  have slash : isOuter '/' = false := by decide
  unfold clean
  rw [isStart, List.dropWhile_cons_of_neg (by simp [notOuter]), ← isStart,
    rdropWhile_append_cons slash, List.filter_append, filter_inner inner]
  congr 1
  rw [List.filter_cons_of_pos (by decide)]
  congr 1
  rw [List.filter_eq_self]
  intro char member
  rw [(isRest char ((List.rdropWhile_prefix isOuter rest).subset member)).1]
  rfl

theorem readAuthority_written (isWritten : IsWritten hosts url) :
    readAuthority hosts url.scheme (url.host ++ portText url.port) =
      some (url.host, url.port) := by
  have isHost := hosts.isHost _ _ isWritten.host
  have whole : afterCredentials (url.host ++ portText url.port) =
      url.host ++ portText url.port := by
    unfold afterCredentials
    rw [List.rtakeWhile_eq_self_iff]
    intro char member
    simpa using (authority_plain isHost url.port char member).2.2
  unfold readAuthority
  rw [whole, isHost.splitPort url.port]
  dsimp only
  rw [if_neg isHost.nonempty, isWritten.host]
  cases port : url.port with
  | none => rfl
  | some number =>
      obtain ⟨small, other⟩ := isWritten.port number port
      rw [Option.map_some, readPort_portText small other]

/-- What was written for a URL is read as it, up to the path behind. -/
theorem readFromAuthority_written (isWritten : IsWritten hosts url)
    {rest : List Char} (isRest : IsRest rest) :
    readFromAuthority hosts url.scheme ('/' :: '/' ::
        (url.host ++ portText url.port ++
          (pathText url.path ++ '/' :: rest))) =
      some { url with
        path := pushSegments url.path (rest.splitOnP isSlash) } := by
  have isHost := hosts.isHost _ _ isWritten.host
  have authority := authority_plain isHost url.port
  have slash : isSlash '/' = true := rfl
  obtain ⟨behind, isBehind⟩ :
      ∃ behind, pathText url.path ++ '/' :: rest = '/' :: behind := by
    cases url.path with
    | nil => exact ⟨_, rfl⟩
    | cons segment path => exact ⟨_, rfl⟩
  have named : ('/' :: '/' :: (url.host ++ portText url.port ++
      (pathText url.path ++ '/' :: rest))).dropWhile isSlash =
        url.host ++ portText url.port ++
          (pathText url.path ++ '/' :: rest) := by
    obtain ⟨first, more, isFirst⟩ :=
      List.exists_cons_of_ne_nil isHost.nonempty
    have notSlash : isSlash first = false := by
      have ends := (authority first (by rw [isFirst]; simp)).2.1
      exact (Bool.or_eq_false_iff.mp ends).1
    rw [List.dropWhile_cons_of_pos slash, List.dropWhile_cons_of_pos slash,
      isFirst]
    exact List.dropWhile_cons_of_neg (by simp [notSlash])
  have ends : ∀ char ∈ url.host ++ portText url.port,
      (!endsAuthority char) = true := by
    intro char member
    rw [(authority char member).2.1]
    rfl
  have stops : (!endsAuthority '/') = false := rfl
  have taken : (url.host ++ portText url.port ++
      (pathText url.path ++ '/' :: rest)).takeWhile
        (fun char => !endsAuthority char) =
      url.host ++ portText url.port := by
    rw [List.takeWhile_append_of_pos ends, isBehind,
      List.takeWhile_cons_of_neg (by simp [stops]), List.append_nil]
  have dropped : (url.host ++ portText url.port ++
      (pathText url.path ++ '/' :: rest)).dropWhile
        (fun char => !endsAuthority char) =
      pathText url.path ++ '/' :: rest := by
    rw [List.dropWhile_append_of_pos ends, isBehind,
      List.dropWhile_cons_of_neg (by simp [stops])]
  have whole : (pathText url.path ++ '/' :: rest).tail.takeWhile
      (fun char => !endsPath char) =
        (pathText url.path ++ '/' :: rest).tail := by
    rw [List.takeWhile_eq_self_iff]
    intro char member
    have isChar := List.mem_of_mem_tail member
    have plain : endsPath char = false := by
      rcases List.mem_append.mp isChar with inPath | inRest
      · have inner := pathText_inner isWritten.path char inPath
        unfold isInner at inner
        simpa using (Bool.and_eq_true_iff.mp inner).2
      · rcases List.mem_cons.mp inRest with rfl | inRest
        · rfl
        · exact (isRest char inRest).2
    rw [plain]
    rfl
  have starts : (pathText url.path ++ '/' :: rest).head?.map isSlash =
      some true := by
    rw [isBehind]
    rfl
  unfold readFromAuthority
  dsimp only
  rw [named, taken, dropped, readAuthority_written isWritten]
  dsimp only
  rw [if_pos starts]
  unfold readPath
  rw [whole, splitOnP_pathText isWritten.path,
    pushSegments_append isWritten.path (List.splitOnP_ne_nil _ _),
    List.nil_append]

/-- What was written for a URL is parsed as it, up to the path behind. -/
theorem parse_written (isWritten : IsWritten hosts url) {rest : List Char}
    (isRest : IsRest rest) :
    parse hosts none (originText url ++ pathText url.path ++ '/' :: rest) =
      some { url with
        path := pushSegments url.path
          ((rest.rdropWhile isOuter).splitOnP isSlash) } ∧
    ∃ behind, schemeOf (clean (originText url ++ pathText url.path ++
      '/' :: rest)) = some (url.scheme.name, behind) := by
  have kept : IsRest (rest.rdropWhile isOuter) := fun char member =>
    isRest char ((List.rdropWhile_prefix isOuter rest).subset member)
  have text : originText url ++ pathText url.path ++
      '/' :: rest.rdropWhile isOuter =
        url.scheme.name ++ ':' :: '/' :: '/' ::
          (url.host ++ portText url.port ++
            (pathText url.path ++ '/' :: rest.rdropWhile isOuter)) := by
    unfold originText
    simp
  have scheme := schemeOf_name url.scheme ('/' :: '/' ::
    (url.host ++ portText url.port ++
      (pathText url.path ++ '/' :: rest.rdropWhile isOuter)))
  have ofName := (name_facts url.scheme).2.2.1
  unfold parse
  rw [clean_written isWritten isRest, text, scheme]
  dsimp only
  rw [ofName]
  exact ⟨readFromAuthority_written isWritten kept, _, rfl⟩

end Written

section PercentDecoding

def hexValue (char : Char) : Option Nat :=
  if '0' ≤ char ∧ char ≤ '9' then some (char.toNat - 48)
  else if 'a' ≤ char ∧ char ≤ 'f' then some (char.toNat - 87)
  else if 'A' ≤ char ∧ char ≤ 'F' then some (char.toNat - 55)
  else none

/-- The bytes of a text with its escapes read. -/
def percentDecode : List Char → List UInt8
  | '%' :: high :: low :: rest =>
      match hexValue high, hexValue low with
      | some first, some second =>
          UInt8.ofNat (16 * first + second) :: percentDecode rest
      | _, _ => 37 :: percentDecode (high :: low :: rest)
  | char :: rest => String.utf8EncodeChar char ++ percentDecode rest
  | [] => []

end PercentDecoding

end WebUrl

end Foundation
