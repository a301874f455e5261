import Paigasus.Foundation.LuaNumber
import Paigasus.Foundation.Redis
import Paigasus.Foundation.Results
import Paigasus.Gateway.MemoryStore
import Paigasus.Gateway.Periods

/-!
# The admission script

The script that a request runs in the shared Redis reads every count, decides,
and counts an admitted request under the current key of each rate limit.  It
runs alone, but what it wrote before an error stays written.  Its numbers are
those of Lua; `INCR` reads the same texts by the server's own syntax.
-/

namespace Paigasus.Gateway

open Foundation

def rateKeyTtlSecs : Nat := 180

/-- The keys of one request; the two that are counted are different. -/
structure AdmissionKeys where
  principalCurrent : String
  principalPrevious : String
  orgCurrent : String
  orgPrevious : String
  budget : String
  distinct : principalCurrent ≠ orgCurrent

/-- The arguments; an empty limit is none. -/
structure AdmissionArgs where
  elapsedMs : String
  principalLimit : String
  orgLimit : String
  budgetLimit : String
  rateTtl : String

inductive ScriptError where
  | badArgument
  | nonIntegerCount (key : String)
  | notAnInteger (key : String)
  | badExpiry (key : String)
deriving DecidableEq

/-- A command that changed a key. -/
inductive Write where
  | incr (key : String)
  | expire (key : String) (seconds : Int)
deriving DecidableEq

namespace AdmissionScript

/-- One rate check, with the counts it read. -/
structure RateCheck where
  ok : Bool
  previous : Double
  current : Double

/-- The answer of the script. -/
structure Reply where
  admitted : Bool
  principal : RateCheck
  org : RateCheck
  budgetOk : Bool
  budgetUsed : Double

/-- A run: what it left, the writes it made, and how it ended. -/
structure Run where
  database : Redis
  writes : List Write
  result : Except ScriptError Reply

def argument (text : String) : Except ScriptError Double :=
  okOr .badArgument (Lua.tonumber text)

/-- The time in the window, with its last millisecond as the most. -/
def clamp (elapsedMs : Double) : Double :=
  if (Double.ofInt 59999).lt elapsedMs then .ofInt 59999 else elapsedMs

/-- Reads a count; a number that is not its own floor is an error. -/
def count (database : Redis) (now : Int) (key : String) :
    Except ScriptError Double :=
  match database.get now key with
  | none => .ok (.ofInt 0)
  | some value =>
      match Lua.tonumber value with
      | none => .error (.nonIntegerCount key)
      | some number =>
          if number.eq number.floor then .ok number
          else .error (.nonIntegerCount key)

def admits (previous current elapsed limit : Double) : Bool :=
  (((previous.mul ((Double.ofInt 60000).sub elapsed)).add
    (current.mul (.ofInt 60000))).add (.ofInt 60000)).le
      (limit.mul (.ofInt 60000))

def rate (database : Redis) (now : Int) (elapsed : Double)
    (currentKey previousKey limitArg : String) :
    Except ScriptError RateCheck :=
  if limitArg = "" then
    .ok ⟨true, .ofInt 0, .ofInt 0⟩
  else do
    let current ← count database now currentKey
    let previous ← count database now previousKey
    let limit ← argument limitArg
    .ok ⟨admits previous current elapsed limit, previous, current⟩

def budget (database : Redis) (now : Int) (key limitArg : String) :
    Except ScriptError (Bool × Double) :=
  if limitArg = "" then
    .ok (true, .ofInt 0)
  else do
    let used ← count database now key
    let limit ← argument limitArg
    .ok (!limit.le used, used)

/-- All reads and the decision, before the first write. -/
def readPhase (database : Redis) (now : Int) (keys : AdmissionKeys)
    (args : AdmissionArgs) : Except ScriptError Reply := do
  let elapsed ← argument args.elapsedMs
  let principal ← rate database now (clamp elapsed) keys.principalCurrent
    keys.principalPrevious args.principalLimit
  let org ← rate database now (clamp elapsed) keys.orgCurrent keys.orgPrevious
    args.orgLimit
  let (budgetOk, budgetUsed) ← budget database now keys.budget
    args.budgetLimit
  .ok ⟨principal.ok && org.ok && budgetOk, principal, org, budgetOk, budgetUsed⟩

/-- The seconds a number is for `EXPIRE`: a whole number, in range as
milliseconds and as an instant. -/
def expireSecs? (now : Int) (ttl : Double) : Option Int :=
  ttl.toInt?.filter fun seconds =>
    -(2 ^ 63) ≤ 1000 * seconds && 1000 * seconds < 2 ^ 63 &&
      now + 1000 * seconds < 2 ^ 63

/-- `INCR` and `EXPIRE` on one current key; `none` when both were accepted. -/
def countRequest (now : Int) (ttl : Option Double) (key : String)
    (database : Redis) : Redis × List Write × Option ScriptError :=
  match database.incr now key with
  | none => (database, [], some (.notAnInteger key))
  | some counted =>
      match ttl.bind (expireSecs? now) with
      | none => (counted, [.incr key], some (.badExpiry key))
      | some seconds =>
          (counted.expire now key seconds, [.incr key, .expire key seconds],
            none)

/-- Counts the request if the limit is set. -/
def countLimited (now : Int) (ttl : Option Double) (limitArg key : String)
    (database : Redis) : Redis × List Write × Option ScriptError :=
  if limitArg = "" then (database, [], none)
  else countRequest now ttl key database

def admission (database : Redis) (now : Int) (keys : AdmissionKeys)
    (args : AdmissionArgs) : Run :=
  match readPhase database now keys args with
  | .error error => ⟨database, [], .error error⟩
  | .ok reply =>
      if reply.admitted then
        let ttl := Lua.tonumber args.rateTtl
        let (afterPrincipal, writes, refused) :=
          countLimited now ttl args.principalLimit keys.principalCurrent
            database
        match refused with
        | some error => ⟨afterPrincipal, writes, .error error⟩
        | none =>
            let (afterOrg, more, refused) :=
              countLimited now ttl args.orgLimit keys.orgCurrent
                afterPrincipal
            match refused with
            | some error => ⟨afterOrg, writes ++ more, .error error⟩
            | none => ⟨afterOrg, writes ++ more, .ok reply⟩
      else
        ⟨database, [], .ok reply⟩

/-- A run that errs or refuses has written nothing. -/
structure Run.AllOrNothing (run : Run) (before : Redis) : Prop where
  error : ∀ error, run.result = .error error →
    run.writes = [] ∧ run.database = before
  refusal : ∀ reply, run.result = .ok reply → reply.admitted = false →
    run.writes = [] ∧ run.database = before

/-! ## When a request passes every check -/

/-- The count under a key: zero where it is absent, else the whole number that
its text reads as. -/
inductive Holds (database : Redis) (now : Int) (key : String) : Double → Prop
  | absent (missing : database.get now key = none) :
      Holds database now key (.ofInt 0)
  | number {text : String} {value : Double}
      (found : database.get now key = some text)
      (reads : Lua.tonumber text = some value)
      (whole : value.eq value.floor = true) : Holds database now key value

/-- One more request is within the limit, if there is one. -/
def HasRoom (database : Redis) (now : Int) (elapsed : Double)
    (currentKey previousKey limitArg : String) : Prop :=
  limitArg ≠ "" → ∃ current previous limit,
    Holds database now currentKey current ∧
      Holds database now previousKey previous ∧
      Lua.tonumber limitArg = some limit ∧
      admits previous current elapsed limit = true

/-- The budget is not used up, if there is one. -/
def HasBudget (database : Redis) (now : Int) (key limitArg : String) : Prop :=
  limitArg ≠ "" → ∃ used limit, Holds database now key used ∧
    Lua.tonumber limitArg = some limit ∧ limit.le used = false

/-- The request is one to be counted. -/
def Passes (database : Redis) (now : Int) (keys : AdmissionKeys)
    (args : AdmissionArgs) : Prop :=
  ∃ elapsed, Lua.tonumber args.elapsedMs = some elapsed ∧
    HasRoom database now (clamp elapsed) keys.principalCurrent
      keys.principalPrevious args.principalLimit ∧
    HasRoom database now (clamp elapsed) keys.orgCurrent keys.orgPrevious
      args.orgLimit ∧
    HasBudget database now keys.budget args.budgetLimit

/-- `EXPIRE` takes the lifetime. -/
def expirable (now : Int) (args : AdmissionArgs) : Bool :=
  ((Lua.tonumber args.rateTtl).bind (expireSecs? now)).isSome

/-- A first count is taken, and the server refuses a later command. -/
inductive BreaksOff (database : Redis) (now : Int) (keys : AdmissionKeys)
    (args : AdmissionArgs) : Prop
  | principalLifetime (limited : args.principalLimit ≠ "")
      (counted : database.Countable now keys.principalCurrent)
      (refused : expirable now args = false)
  | orgLifetime (unlimited : args.principalLimit = "")
      (limited : args.orgLimit ≠ "")
      (counted : database.Countable now keys.orgCurrent)
      (refused : expirable now args = false)
  | orgCount (principalLimited : args.principalLimit ≠ "")
      (orgLimited : args.orgLimit ≠ "")
      (counted : database.Countable now keys.principalCurrent)
      (refused : ¬ database.Countable now keys.orgCurrent)

variable {database : Redis} {now : Int} {keys : AdmissionKeys}
  {args : AdmissionArgs}

theorem argument_eq_ok {text : String} {value : Double} :
    argument text = .ok value ↔ Lua.tonumber text = some value := okOr_ok

theorem count_eq_ok {key : String} {value : Double} :
    count database now key = .ok value ↔ Holds database now key value := by
  unfold count
  constructor
  · intro counted
    split at counted
    case h_1 missing =>
      obtain rfl := Except.ok.inj counted
      exact .absent missing
    case h_2 text found =>
      split at counted
      case h_1 => cases counted
      case h_2 number reads =>
        split at counted
        case isTrue whole =>
          cases counted
          exact .number found reads whole
        case isFalse => cases counted
  · intro holds
    cases holds with
    | absent missing => rw [missing]
    | number found reads whole =>
        rw [found]
        dsimp only
        rw [reads]
        dsimp only
        rw [if_pos whole]

theorem rate_ok_iff {elapsed : Double}
    {currentKey previousKey limitArg : String} :
    (∃ check, rate database now elapsed currentKey previousKey limitArg =
        .ok check ∧ check.ok = true) ↔
      HasRoom database now elapsed currentKey previousKey limitArg := by
  unfold rate HasRoom
  split
  case isTrue noLimit =>
    exact iff_of_true ⟨_, rfl, rfl⟩ fun limited => absurd noLimit limited
  case isFalse limited =>
    constructor
    · rintro ⟨check, read, ok⟩ _
      obtain ⟨current, isCurrent, read⟩ := bind_ok.mp read
      obtain ⟨previous, isPrevious, read⟩ := bind_ok.mp read
      obtain ⟨limit, isLimit, read⟩ := bind_ok.mp read
      cases read
      exact ⟨current, previous, limit, count_eq_ok.mp isCurrent,
        count_eq_ok.mp isPrevious, argument_eq_ok.mp isLimit, ok⟩
    · intro room
      obtain ⟨current, previous, limit, isCurrent, isPrevious, isLimit, ok⟩ :=
        room limited
      refine ⟨⟨admits previous current elapsed limit, previous, current⟩,
        ?_, ok⟩
      apply bind_ok.mpr ⟨current, count_eq_ok.mpr isCurrent, ?_⟩
      apply bind_ok.mpr ⟨previous, count_eq_ok.mpr isPrevious, ?_⟩
      exact bind_ok.mpr ⟨limit, argument_eq_ok.mpr isLimit, rfl⟩

theorem budget_ok_iff {key limitArg : String} :
    (∃ used, budget database now key limitArg = .ok (true, used)) ↔
      HasBudget database now key limitArg := by
  unfold budget HasBudget
  split
  case isTrue noLimit =>
    exact iff_of_true ⟨_, rfl⟩ fun limited => absurd noLimit limited
  case isFalse limited =>
    constructor
    · rintro ⟨used, read⟩ _
      obtain ⟨counted, isCounted, read⟩ := bind_ok.mp read
      obtain ⟨limit, isLimit, read⟩ := bind_ok.mp read
      simp only [Except.ok.injEq, Prod.mk.injEq, Bool.not_eq_true'] at read
      exact ⟨counted, limit, count_eq_ok.mp isCounted,
        argument_eq_ok.mp isLimit, read.1⟩
    · intro left
      obtain ⟨used, limit, isUsed, isLimit, under⟩ := left limited
      refine ⟨used, bind_ok.mpr ⟨used, count_eq_ok.mpr isUsed, ?_⟩⟩
      apply bind_ok.mpr ⟨limit, argument_eq_ok.mpr isLimit, ?_⟩
      rw [under, Bool.not_false]

/-- The read phase ends in an admission exactly for a request that passes every
check. -/
theorem readPhase_admits_iff :
    (∃ reply, readPhase database now keys args = .ok reply ∧
        reply.admitted = true) ↔ Passes database now keys args := by
  unfold readPhase Passes
  simp only [← rate_ok_iff, ← budget_ok_iff, ← argument_eq_ok]
  constructor
  · rintro ⟨reply, read, admitted⟩
    obtain ⟨elapsed, isElapsed, read⟩ := bind_ok.mp read
    obtain ⟨principal, isPrincipal, read⟩ := bind_ok.mp read
    obtain ⟨org, isOrg, read⟩ := bind_ok.mp read
    obtain ⟨⟨budgetOk, used⟩, isBudget, read⟩ := bind_ok.mp read
    cases read
    simp only [Bool.and_eq_true] at admitted
    obtain ⟨⟨principalOk, orgOk⟩, rfl⟩ := admitted
    exact ⟨elapsed, isElapsed, ⟨principal, isPrincipal, principalOk⟩,
      ⟨org, isOrg, orgOk⟩, used, isBudget⟩
  · rintro ⟨elapsed, isElapsed, ⟨principal, isPrincipal, principalOk⟩,
      ⟨org, isOrg, orgOk⟩, used, isBudget⟩
    refine ⟨⟨principal.ok && org.ok && true, principal, org, true, used⟩,
      bind_ok.mpr ⟨elapsed, isElapsed, ?_⟩, ?_⟩
    · apply bind_ok.mpr ⟨principal, isPrincipal, ?_⟩
      apply bind_ok.mpr ⟨org, isOrg, ?_⟩
      exact bind_ok.mpr ⟨(true, used), isBudget, rfl⟩
    · simp only [principalOk, orgOk, Bool.and_self]

/-! ## What an admitted request comes to -/

/-- What counting under one key comes to. -/
inductive Counted (now : Int) (args : AdmissionArgs) (limitArg key : String)
    (before : Redis) : Redis × List Write × Option ScriptError → Prop where
  | unlimited (noLimit : limitArg = "") :
      Counted now args limitArg key before (before, [], none)
  | refused (limited : limitArg ≠ "")
      (rejected : ¬ before.Countable now key) :
      Counted now args limitArg key before
        (before, [], some (.notAnInteger key))
  | broken (limited : limitArg ≠ "") (taken : before.Countable now key)
      (rejected : expirable now args = false) (after : Redis) :
      Counted now args limitArg key before
        (after, [.incr key], some (.badExpiry key))
  | counted (limited : limitArg ≠ "") (taken : before.Countable now key)
      (accepted : expirable now args = true) (after : Redis) (seconds : Int)
      (others : ∀ other, other ≠ key →
        after.find now other = before.find now other) :
      Counted now args limitArg key before
        (after, [.incr key, .expire key seconds], none)

theorem countLimited_cases (now : Int) (args : AdmissionArgs)
    (limitArg key : String) (before : Redis) :
    Counted now args limitArg key before
      (countLimited now (Lua.tonumber args.rateTtl) limitArg key before) := by
  unfold countLimited
  split
  case isTrue noLimit => exact .unlimited noLimit
  case isFalse limited =>
    unfold countRequest
    split
    case h_1 rejected =>
      refine .refused limited ?_
      rw [← Redis.incr_isSome, rejected]
      exact Bool.false_ne_true
    case h_2 counted taken =>
      have isTaken : before.Countable now key := by
        rw [← Redis.incr_isSome, taken]
        rfl
      split
      case h_1 rejected =>
        exact .broken limited isTaken (by rw [expirable, rejected]; rfl) counted
      case h_2 seconds accepted =>
        refine .counted limited isTaken (by rw [expirable, accepted]; rfl) _
          seconds ?_
        intro other distinct
        rw [Redis.find_expire_of_ne distinct,
          Redis.find_incr_of_ne distinct taken]

theorem admission_of_error {error : ScriptError}
    (failed : readPhase database now keys args = .error error) :
    admission database now keys args = ⟨database, [], .error error⟩ := by
  unfold admission
  rw [failed]

theorem admission_of_refusal {reply : Reply}
    (read : readPhase database now keys args = .ok reply)
    (refused : reply.admitted = false) :
    admission database now keys args = ⟨database, [], .ok reply⟩ := by
  unfold admission
  rw [read]
  simp only [refused, Bool.false_eq_true, if_false]

/-- What an admitted request comes to, after each of the two keys. -/
def Run.ofCounts (reply : Reply)
    (first : Redis × List Write × Option ScriptError)
    (second : Redis → Redis × List Write × Option ScriptError) : Run :=
  match first.2.2 with
  | some error => ⟨first.1, first.2.1, .error error⟩
  | none =>
      match (second first.1).2.2 with
      | some error =>
          ⟨(second first.1).1, first.2.1 ++ (second first.1).2.1, .error error⟩
      | none =>
          ⟨(second first.1).1, first.2.1 ++ (second first.1).2.1, .ok reply⟩

theorem admission_of_admitted {reply : Reply}
    (read : readPhase database now keys args = .ok reply)
    (admitted : reply.admitted = true) :
    admission database now keys args =
      .ofCounts reply
        (countLimited now (Lua.tonumber args.rateTtl) args.principalLimit
          keys.principalCurrent database)
        (countLimited now (Lua.tonumber args.rateTtl) args.orgLimit
          keys.orgCurrent) := by
  unfold admission
  rw [read]
  simp only [admitted, if_true]
  rfl

theorem Run.allOrNothing_of_ok {reply : Reply} {after : Redis}
    {writes : List Write} (admitted : reply.admitted = true)
    (before : Redis) :
    AllOrNothing ⟨after, writes, .ok reply⟩ before := by
  constructor
  · intro error failed
    cases failed
  · intro other isReply refused
    cases isReply
    rw [admitted] at refused
    cases refused

theorem Run.allOrNothing_of_unwritten {error : ScriptError}
    (before : Redis) : AllOrNothing ⟨before, [], .error error⟩ before := by
  constructor
  · intro _ _
    exact ⟨rfl, rfl⟩
  · intro reply isReply
    cases isReply

theorem Run.not_allOrNothing {after before : Redis} {write : Write}
    {writes : List Write} {error : ScriptError} :
    ¬ AllOrNothing ⟨after, write :: writes, .error error⟩ before := by
  intro holds
  have nothing := (holds.error error rfl).1
  cases nothing

/-- An admitted request without a principal's limit: the organization's count
is the first write. -/
theorem allOrNothing_of_unlimited {reply : Reply}
    (admitted : reply.admitted = true) (noLimit : args.principalLimit = "")
    {second : Redis → Redis × List Write × Option ScriptError}
    (org : Counted now args args.orgLimit keys.orgCurrent database
      (second database)) :
    (Run.ofCounts reply (database, [], none) second).AllOrNothing database ↔
      ¬ BreaksOff database now keys args := by
  unfold Run.ofCounts
  generalize second database = result at org
  cases org with
  | unlimited noOrgLimit =>
      refine iff_of_true (Run.allOrNothing_of_ok admitted database) ?_
      rintro (⟨limited, _, _⟩ | ⟨_, limited, _, _⟩ | ⟨limited, _, _, _⟩)
      · exact limited noLimit
      · exact limited noOrgLimit
      · exact limited noLimit
  | refused limited rejected =>
      refine iff_of_true (Run.allOrNothing_of_unwritten database) ?_
      rintro (⟨limited, _, _⟩ | ⟨_, _, counted, _⟩ | ⟨limited, _, _, _⟩)
      · exact limited noLimit
      · exact rejected counted
      · exact limited noLimit
  | broken limited taken rejected after =>
      refine iff_of_false Run.not_allOrNothing ?_
      intro holds
      exact holds (.orgLifetime noLimit limited taken rejected)
  | counted limited taken accepted after seconds others =>
      refine iff_of_true (Run.allOrNothing_of_ok admitted database) ?_
      rintro (⟨limited, _, _⟩ | ⟨_, _, _, refused⟩ | ⟨limited, _, _, _⟩)
      · exact limited noLimit
      · rw [accepted] at refused
        cases refused
      · exact limited noLimit

/-- An admitted request whose principal was counted: from here on, an error
leaves that count behind. -/
theorem allOrNothing_of_counted {reply : Reply}
    (admitted : reply.admitted = true) (limited : args.principalLimit ≠ "")
    (counted : database.Countable now keys.principalCurrent)
    (accepted : expirable now args = true) {middle : Redis}
    (same : middle.Countable now keys.orgCurrent ↔
      database.Countable now keys.orgCurrent)
    {write : Write} {writes : List Write}
    {second : Redis → Redis × List Write × Option ScriptError}
    (org : Counted now args args.orgLimit keys.orgCurrent middle
      (second middle)) :
    (Run.ofCounts reply (middle, write :: writes, none) second).AllOrNothing
        database ↔
      ¬ BreaksOff database now keys args := by
  have onlyCount (breaks : BreaksOff database now keys args) :
      args.orgLimit ≠ "" ∧ ¬ middle.Countable now keys.orgCurrent := by
    cases breaks with
    | principalLifetime _ _ refused =>
        rw [accepted] at refused
        cases refused
    | orgLifetime noLimit _ _ _ => exact absurd noLimit limited
    | orgCount _ orgLimited _ refused =>
        exact ⟨orgLimited, fun taken => refused (same.mp taken)⟩
  unfold Run.ofCounts
  generalize second middle = result at org
  cases org with
  | unlimited noLimit =>
      refine iff_of_true (Run.allOrNothing_of_ok admitted database) ?_
      intro breaks
      exact (onlyCount breaks).1 noLimit
  | refused orgLimited rejected =>
      refine iff_of_false Run.not_allOrNothing ?_
      intro holds
      exact holds (.orgCount limited orgLimited counted
        fun taken => rejected (same.mpr taken))
  | broken orgLimited taken rejected after =>
      rw [accepted] at rejected
      cases rejected
  | counted orgLimited taken _ after seconds others =>
      refine iff_of_true (Run.allOrNothing_of_ok admitted database) ?_
      intro breaks
      exact (onlyCount breaks).2 taken

theorem admitted_allOrNothing_iff {reply : Reply}
    (read : readPhase database now keys args = .ok reply)
    (admitted : reply.admitted = true) :
    (admission database now keys args).AllOrNothing database ↔
      ¬ BreaksOff database now keys args := by
  have principal := countLimited_cases now args args.principalLimit
    keys.principalCurrent database
  have org := countLimited_cases now args args.orgLimit keys.orgCurrent
  rw [admission_of_admitted read admitted]
  generalize countLimited now (Lua.tonumber args.rateTtl)
    args.principalLimit keys.principalCurrent database = first at principal
  cases principal with
  | unlimited noLimit =>
      exact allOrNothing_of_unlimited admitted noLimit (org database)
  | refused limited rejected =>
      refine iff_of_true (Run.allOrNothing_of_unwritten database) ?_
      rintro (⟨_, counted, _⟩ | ⟨noLimit, _, _, _⟩ | ⟨_, _, counted, _⟩)
      · exact rejected counted
      · exact limited noLimit
      · exact rejected counted
  | broken limited taken rejected after =>
      refine iff_of_false Run.not_allOrNothing ?_
      intro holds
      exact holds (.principalLifetime limited taken rejected)
  | counted limited taken accepted after seconds others =>
      have same := others keys.orgCurrent keys.distinct.symm
      exact allOrNothing_of_counted admitted limited taken accepted
        (Redis.Countable.congr same) (org after)

/-- The script is all or nothing unless the request passes every check and the
server, after a count, refuses a later command. -/
theorem admission_allOrNothing_iff (database : Redis) (now : Int)
    (keys : AdmissionKeys) (args : AdmissionArgs) :
    (admission database now keys args).AllOrNothing database ↔
      ¬ (Passes database now keys args ∧
        BreaksOff database now keys args) := by
  rw [← readPhase_admits_iff]
  cases read : readPhase database now keys args with
  | error error =>
      rw [admission_of_error read]
      refine iff_of_true (Run.allOrNothing_of_unwritten database) ?_
      rintro ⟨⟨reply, isReply, _⟩, _⟩
      cases isReply
  | ok reply =>
      cases decision : reply.admitted with
      | true =>
          rw [admitted_allOrNothing_iff read decision]
          constructor
          · intro holds breaks
            exact holds breaks.2
          · intro holds breaks
            exact holds ⟨⟨reply, rfl, decision⟩, breaks⟩
      | false =>
          rw [admission_of_refusal read decision]
          refine iff_of_true ⟨nofun, fun _ _ _ => ⟨rfl, rfl⟩⟩ ?_
          rintro ⟨⟨other, isOther, admitted⟩, _⟩
          cases isOther
          rw [decision] at admitted
          cases admitted

end AdmissionScript

namespace RedisLimitStore

def keyPrefix : String := "paigasus:gateway:limits:v1:"

def principalRateKey (principal : String) (window : Nat) : String :=
  keyPrefix ++ "rate:p:" ++ principal ++ ":" ++ toString window

def orgRateKey (org : Uuid) (window : Nat) : String :=
  keyPrefix ++ "rate:o:" ++ String.ofList org.hyphenated ++ ":" ++
    toString window

def periodKind : PeriodKey → String
  | .day _ => "d"
  | .week _ _ => "w"
  | .month _ _ => "m"

def budgetKey (org : Uuid) (period : PeriodKey) : String :=
  keyPrefix ++ "budget:" ++ String.ofList org.hyphenated ++ ":" ++
    periodKind period ++ period.label

def orgKeyOrNone (org : Option Uuid) (window : Nat) : String :=
  match org with
  | some id => orgRateKey id window
  | none => keyPrefix ++ "rate:o:none:" ++ toString window

def limitArg (limit : Option NonZeroU64) : String :=
  (limit.map fun value => toString value.val).getD ""

/-- A principal's key is no organization's key. -/
theorem principalRateKey_ne (principal : String) (org : Option Uuid)
    (window otherWindow : Nat) :
    principalRateKey principal window ≠ orgKeyOrNone org otherWindow := by
  have ofPrincipal : ∃ rest, principalRateKey principal window =
      keyPrefix ++ ("rate:p:" ++ rest) := by
    unfold principalRateKey
    simp only [String.append_assoc]
    exact ⟨_, rfl⟩
  have ofOrg : ∃ rest, orgKeyOrNone org otherWindow =
      keyPrefix ++ ("rate:o:" ++ rest) := by
    cases org with
    | none =>
        have split : "rate:o:none:" = "rate:o:" ++ "none:" := rfl
        unfold orgKeyOrNone
        simp only [split, String.append_assoc]
        exact ⟨_, rfl⟩
    | some id =>
        unfold orgKeyOrNone orgRateKey
        simp only [String.append_assoc]
        exact ⟨_, rfl⟩
  obtain ⟨rest, principalText⟩ := ofPrincipal
  obtain ⟨otherRest, orgText⟩ := ofOrg
  rw [principalText, orgText]
  intro same
  have texts := congrArg String.toList ((String.append_right_inj _).mp same)
  have ofP : "rate:p:".toList = ['r', 'a', 't', 'e', ':', 'p', ':'] := rfl
  have ofO : "rate:o:".toList = ['r', 'a', 't', 'e', ':', 'o', ':'] := rfl
  simp only [String.toList_append, ofP, ofO, List.cons_append,
    List.cons.injEq, true_and] at texts
  exact absurd texts.1 (by decide)

/-- The keys of one check. -/
def admissionKeys (principal : String) (org : Option Uuid)
    (policy : LimitPolicy) (now : SystemTime) : AdmissionKeys :=
  let window := (WindowIndex.atInstant now).index
  { principalCurrent := principalRateKey principal window
    principalPrevious := principalRateKey principal (window - 1)
    orgCurrent := orgKeyOrNone org window
    orgPrevious := orgKeyOrNone org (window - 1)
    budget :=
      match MemoryLimitStore.appliedBudget policy org now with
      | some (_, id, key) => budgetKey id key
      | none => keyPrefix ++ "budget:none"
    distinct := principalRateKey_ne principal org window window }

/-- The arguments of one check. -/
def admissionArgs (org : Option Uuid) (policy : LimitPolicy)
    (now : SystemTime) : AdmissionArgs where
  elapsedMs := toString (WindowIndex.atInstant now).elapsedMs
  principalLimit := limitArg policy.principalRequestsPerMinute
  orgLimit := limitArg (org.bind fun _ => policy.orgRequestsPerMinute)
  budgetLimit := limitArg
    ((MemoryLimitStore.appliedBudget policy org now).map
      fun (budget, _) => budget.tokens)
  rateTtl := toString rateKeyTtlSecs

end RedisLimitStore

section Sample

/-- Ten requests a minute for the principal and for the organization. -/
def tenPerMinute : LimitPolicy where
  principalRequestsPerMinute := some ⟨10, by decide⟩
  orgRequestsPerMinute := some ⟨10, by decide⟩
  budget := none

/-- The organization's current key holds a one with a fraction. -/
def fractionalCount : Redis :=
  AList.singleton (RedisLimitStore.orgRateKey 7 0) ⟨"1.0", none⟩

def fractionalRun : AdmissionScript.Run :=
  AdmissionScript.admission fractionalCount 0
    (RedisLimitStore.admissionKeys "p" (some 7) tenPerMinute 0)
    (RedisLimitStore.admissionArgs (some 7) tenPerMinute 0)

/-- The principal is counted, then the organization's count is refused. -/
theorem admission_breaks_off :
    ¬ fractionalRun.AllOrNothing fractionalCount := by
  have ends : fractionalRun.result.toOption.isNone = true := by
    decide +kernel
  have written : fractionalRun.writes =
      [.incr (RedisLimitStore.principalRateKey "p" 0),
        .expire (RedisLimitStore.principalRateKey "p" 0) 180] := by
    decide +kernel
  intro holds
  cases result : fractionalRun.result with
  | ok reply =>
      rw [result] at ends
      cases ends
  | error error =>
      have nothing := (holds.error error result).1
      rw [written] at nothing
      cases nothing

end Sample

end Paigasus.Gateway
