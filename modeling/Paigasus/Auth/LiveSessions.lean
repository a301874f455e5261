import Paigasus.Auth.SingleFlight

/-!
# The expiry of the sessions that are handed out

`resolveSession` with every read of the clock on its own: where a step compares
two expiries, time passes between the two reads.  A call carries the last value
that it has read.  A session is live at that value where its absolute cap has not
passed unnoticed.
-/

namespace Paigasus.Auth

open Foundation

/-- The further values that a step reads from the clock, after `now`. -/
structure ClockedInput extends StepInput where
  second : Int
  third : Int
deriving DecidableEq

/-- A call, and the last value it has read from the clock. -/
structure ClockedCall where
  call : Call
  last : Option Int
deriving DecidableEq

namespace Phase

variable (timings : Timings) (id : Nat) (world : World) (input : ClockedInput)

def clockedReadStep : World × Phase :=
  match world.stored with
  | none => (world, .finished .absent)
  | some record =>
      if record.absoluteExpiresAt ≤ input.now then (world, .expiring)
      else if !shouldRefresh input.second record.accessExpiresAt
          timings.skewMs then
        (world, .finished (.session record none))
      else if record.refreshToken.isSome then (world, .preparing)
      else (world, .locking (input.third + timings.lockWaitMs))

def clockedRereadUnpreparedStep : World × Phase :=
  match world.stored with
  | none => (world, .finished .absent)
  | some record =>
      if !shouldRefresh input.now record.accessExpiresAt timings.skewMs then
        (world, .finished (.session record none))
      else
        (world, .finished
          (transientRefreshFailure record input.second .discovery))

def clockedRecheckStep : World × Phase :=
  match world.stored with
  | none => (world, .releasing [] .absent)
  | some fresh =>
      if fresh.absoluteExpiresAt ≤ input.now then
        (world, .deleting .absoluteExpiry [] .absent)
      else if !shouldRefresh input.second fresh.accessExpiresAt
          timings.skewMs then
        (world, .releasing [] (.session fresh none))
      else
        match fresh.refreshToken with
        | none => (world, .deleting .noRefreshToken [] .absent)
        | some token => (world, .refreshing fresh token)

/-- Only these steps read the clock more than once. -/
def clockedStep (phase : Phase) : Option (World × Phase) :=
  match phase with
  | .reading =>
      some (if input.fails then (world, .finished (.throws .store))
        else clockedReadStep timings world input)
  | .rereadingUnprepared =>
      some (if input.fails then (world, .finished (.throws .store))
        else clockedRereadUnpreparedStep timings world input)
  | .rechecking =>
      some (if input.fails then (world, .releasing [] (.throws .store))
        else clockedRecheckStep timings world input)
  | phase => phase.step timings id world input.toStepInput

/-- The last value that a step reads from the clock, if it reads it. -/
def lastRead (phase : Phase) : Option Int :=
  match phase with
  | .reading =>
      if input.fails then none
      else world.stored.map fun record =>
        if record.absoluteExpiresAt ≤ input.now then input.now
        else if !shouldRefresh input.second record.accessExpiresAt
            timings.skewMs || record.refreshToken.isSome then
          input.second
        else input.third
  | .preparing => if input.fails then none else some input.now
  | .rereadingUnprepared =>
      if input.fails then none
      else world.stored.map fun record =>
        if !shouldRefresh input.now record.accessExpiresAt timings.skewMs then
          input.now
        else input.second
  | .locking _ =>
      if input.fails || world.lock.isNone then none else some input.now
  | .readingLast | .rereading _ =>
      if input.fails then none else world.stored.map fun _ => input.now
  | .rechecking =>
      if input.fails then none
      else world.stored.map fun fresh =>
        if fresh.absoluteExpiresAt ≤ input.now then input.now
        else input.second
  | .refreshing fresh _ =>
      match input.answer with
      | .rejected => none
      | .failed => some input.now
      | .accepted tokens =>
          if idTokenMismatch fresh tokens then none else some input.now
  | _ => none

/-- Where each read returns the same value, the step is the one without reads of
their own. -/
theorem clockedStep_eq_step (phase : Phase) (second : input.second = input.now)
    (third : input.third = input.now) :
    phase.clockedStep timings id world input =
      phase.step timings id world input.toStepInput := by
  cases phase with
  | reading =>
      simp only [clockedStep, step, clockedReadStep, readStep, second, third] <;>
        rfl
  | rereadingUnprepared =>
      simp only [clockedStep, step, clockedRereadUnpreparedStep,
        rereadUnpreparedStep, second] <;> rfl
  | rechecking =>
      simp only [clockedStep, step, clockedRecheckStep, recheckStep, second] <;>
        rfl
  | _ => rfl

end Phase

def ClockedCall.step (timings : Timings) (id : Nat) (world : World)
    (input : ClockedInput) (clocked : ClockedCall) :
    Option (World × ClockedCall) :=
  match clocked.call with
  | .resolve phase =>
      (phase.clockedStep timings id world input).map fun (after, next) =>
        (after, ⟨.resolve next,
          (phase.lastRead timings world input).or clocked.last⟩)
  | .logout request =>
      (request.step world input.toStepInput).map fun (after, next) =>
        (after, ⟨.logout next, clocked.last⟩)

def clockedSessions (timings : Timings) :
    Program World ClockedCall ClockedInput Expiry where
  starts clocked := clocked.call.starts && clocked.last.isNone
  step id world clocked input := clocked.step timings id world input
  outside world _ := some { world with lock := none }

/-- The absolute cap of the record that a step reads, or refreshes, has not
passed at the last read of the clock; a record that another writer has stored is
live there. -/
def Phase.keepsCap (timings : Timings) (world : World) (input : ClockedInput)
    (last : Option Int) : Phase → Bool
  | .reading | .rechecking =>
      input.fails || world.stored.all fun record =>
        record.absoluteExpiresAt ≤ input.now ||
          shouldRefresh input.second record.accessExpiresAt timings.skewMs ||
          input.second < record.absoluteExpiresAt
  | .rereadingUnprepared | .rereading _ =>
      input.fails || world.stored.all fun record =>
        shouldRefresh input.now record.accessExpiresAt timings.skewMs ||
          input.now < record.absoluteExpiresAt
  | .refreshing fresh _ =>
      match input.answer with
      | .accepted tokens =>
          idTokenMismatch fresh tokens || input.now < fresh.absoluteExpiresAt
      | _ => true
  | .readingWinner attempt =>
      input.fails || world.stored.all fun winner =>
        winner.rev = attempt.fresh.rev || last.any winner.isLive
  | _ => true

/-- No step of a call misses that the absolute cap has passed. -/
def KeepsCap (timings : Timings)
    (configuration : Configuration World ClockedCall) :
    Move ClockedCall ClockedInput Expiry → Bool
  | .run id input =>
      match configuration.process id with
      | some ⟨.resolve phase, last⟩ =>
          phase.keepsCap timings configuration.shared input last
      | _ => true
  | _ => true

def Resolved.record : Resolved → Option SessionRecord
  | .session record _ => some record
  | _ => none

/-- The record that a call will return, if nothing else comes of it. -/
def Phase.carried : Phase → Option SessionRecord
  | .writing attempt | .readingWinner attempt | .rewriting attempt _ =>
      some attempt.next
  | .deleting _ _ result | .releasing _ result | .revoking _ result
  | .finished result => result.record
  | _ => none

/-- What a call carries is live at its last read of the clock. -/
def Phase.Live (phase : Phase) (last : Option Int) : Prop :=
  ∀ record, phase.carried = some record →
    ∃ now, last = some now ∧ record.isLive now = true

theorem SessionRecord.isLive_iff {record : SessionRecord} {now : Int} :
    record.isLive now = true ↔
      now < record.accessExpiresAt ∧ now < record.absoluteExpiresAt := by
  unfold isLive
  rw [decide_eq_true_eq, Int.lt_min]

/-- An access token that is not due for a refresh is live. -/
theorem lt_of_notDue {now expiresAt skewMs : Int} (skew : 0 ≤ skewMs)
    (notDue : shouldRefresh now expiresAt skewMs = false) :
    now < expiresAt := by
  unfold shouldRefresh at notDue
  have later := of_decide_eq_false notDue
  omega

theorem SessionRecord.isLive_iff_of_notDue {record : SessionRecord}
    {now skewMs : Int} (skew : 0 ≤ skewMs)
    (notDue : shouldRefresh now record.accessExpiresAt skewMs = false) :
    record.isLive now = true ↔ now < record.absoluteExpiresAt := by
  rw [isLive_iff]
  exact ⟨And.right, fun ahead => ⟨lt_of_notDue skew notDue, ahead⟩⟩

/-- A refreshed record is live up to its absolute cap. -/
theorem nextRecord_isLive_iff {timings : Timings} {fresh : SessionRecord}
    {tokens : RefreshedTokens} {now : Int} (skew : 0 ≤ timings.skewMs) :
    (nextRecord timings fresh tokens now).isLive now = true ↔
      now < fresh.absoluteExpiresAt := by
  have floor : timings.skewMs + minAccessTtlBufferMs ≤
      max (tokens.expiresIn * 1000) (timings.skewMs + minAccessTtlBufferMs) :=
    Int.le_max_right _ _
  have buffer : minAccessTtlBufferMs = 1000 := rfl
  rw [SessionRecord.isLive_iff]
  unfold nextRecord
  dsimp only
  rw [Int.lt_min]
  constructor
  · exact fun both => both.2
  · exact fun ahead => ⟨⟨by omega, ahead⟩, ahead⟩

namespace Phase

variable {timings : Timings} {id : Nat} {world after : World}
  {input : ClockedInput} {phase next : Phase} {last : Option Int}

theorem live_of_none (none : phase.carried = none) : phase.Live last := by
  intro record carried
  rw [none] at carried
  cases carried

theorem live_some_iff {record : SessionRecord} {now : Int}
    (carried : phase.carried = some record) :
    phase.Live (some now) ↔ record.isLive now = true := by
  constructor
  · intro live
    obtain ⟨value, isLast, isLive⟩ := live record carried
    cases isLast
    exact isLive
  · intro isLive other isOther
    rw [carried] at isOther
    cases isOther
    exact ⟨now, rfl, isLive⟩

/-- What a call carries on to its end stays live while it does not read the
clock. -/
theorem Live.carry (live : phase.Live last)
    (same : ∀ record, next.carried = some record → ∃ other,
      phase.carried = some other ∧
        record.accessExpiresAt = other.accessExpiresAt ∧
        record.absoluteExpiresAt = other.absoluteExpiresAt) :
    next.Live last := by
  intro record carried
  obtain ⟨other, isOther, access, absolute⟩ := same record carried
  obtain ⟨now, isLast, isLive⟩ := live other isOther
  refine ⟨now, isLast, ?_⟩
  rw [SessionRecord.isLive_iff] at isLive ⊢
  rw [access, absolute]
  exact isLive

theorem transientRefreshFailure_live {record : SessionRecord} {now : Int}
    {error : ResolveError} {found : SessionRecord}
    (carried : (transientRefreshFailure record now error).record = some found) :
    found.isLive now = true := by
  unfold transientRefreshFailure at carried
  split at carried
  case isTrue isLive =>
    cases carried
    exact isLive
  case isFalse => cases carried

theorem clockedRead_live_iff (skew : 0 ≤ timings.skewMs)
    (acts : input.fails = false) :
    (clockedReadStep timings world input).2.Live
        ((Phase.reading.lastRead timings world input).or last) ↔
      Phase.reading.keepsCap timings world input last = true := by
  unfold clockedReadStep lastRead keepsCap
  rw [acts]
  cases world.stored with
  | none => exact iff_of_true (live_of_none rfl) rfl
  | some record =>
      by_cases passed : record.absoluteExpiresAt ≤ input.now
      · simp only [passed, ↓reduceIte]
        exact iff_of_true (live_of_none rfl) (by simp [passed])
      · cases due : shouldRefresh input.second record.accessExpiresAt
            timings.skewMs with
        | true =>
            have carried : (if record.refreshToken.isSome = true then
                (world, preparing)
              else (world, locking (input.third + timings.lockWaitMs))).2.carried =
                none := by
              split <;> rfl
            simp only [passed, due, ↓reduceIte, Bool.not_true,
              Bool.false_eq_true]
            exact iff_of_true (live_of_none carried) (by simp [due])
        | false =>
            have ahead := record.isLive_iff_of_notDue skew due
            simp only [passed, due, ↓reduceIte, Bool.not_false,
              Bool.false_eq_true, Option.map_some, Bool.true_or, Option.some_or]
            rw [live_some_iff rfl, ahead]
            simp [passed, due]

theorem clockedRereadUnprepared_live_iff (skew : 0 ≤ timings.skewMs)
    (acts : input.fails = false) :
    (clockedRereadUnpreparedStep timings world input).2.Live
        ((Phase.rereadingUnprepared.lastRead timings world input).or last) ↔
      Phase.rereadingUnprepared.keepsCap timings world input last = true := by
  unfold clockedRereadUnpreparedStep lastRead keepsCap
  rw [acts]
  cases world.stored with
  | none => exact iff_of_true (live_of_none rfl) rfl
  | some record =>
      cases due : shouldRefresh input.now record.accessExpiresAt
          timings.skewMs with
      | true =>
          simp only [due, ↓reduceIte, Bool.not_true, Bool.false_eq_true,
            Option.map_some, Option.some_or]
          refine iff_of_true ?_ (by simp [due])
          intro found carried
          exact ⟨input.second, rfl, transientRefreshFailure_live carried⟩
      | false =>
          have ahead := record.isLive_iff_of_notDue skew due
          simp only [due, ↓reduceIte, Bool.not_false, Bool.false_eq_true,
            Option.map_some, Option.some_or]
          rw [live_some_iff rfl, ahead]
          simp [due]

theorem reread_live_iff {deadline : Int} (skew : 0 ≤ timings.skewMs)
    (acts : input.fails = false) :
    (rereadStep timings world input.toStepInput deadline).2.Live
        (((Phase.rereading deadline).lastRead timings world input).or last) ↔
      (Phase.rereading deadline).keepsCap timings world input last = true := by
  unfold rereadStep lastRead keepsCap
  rw [acts]
  cases world.stored with
  | none => exact iff_of_true (live_of_none rfl) rfl
  | some record =>
      cases due : shouldRefresh input.now record.accessExpiresAt
          timings.skewMs with
      | true =>
          simp only [due, ↓reduceIte, Bool.not_true, Bool.false_eq_true]
          exact iff_of_true (live_of_none rfl) (by simp [due])
      | false =>
          have ahead := record.isLive_iff_of_notDue skew due
          simp only [due, ↓reduceIte, Bool.not_false, Bool.false_eq_true,
            Option.map_some, Option.some_or]
          rw [live_some_iff rfl, ahead]
          simp [due]

theorem readLast_live (acts : input.fails = false) :
    (readLastStep world input.toStepInput).2.Live
      ((Phase.readingLast.lastRead timings world input).or last) := by
  unfold readLastStep lastRead
  rw [acts]
  cases world.stored with
  | none => exact live_of_none rfl
  | some record =>
      cases isLive : record.isLive input.now with
      | true =>
          simp only [isLive, ↓reduceIte, Bool.false_eq_true, Option.map_some,
            Option.some_or]
          exact (live_some_iff rfl).mpr isLive
      | false =>
          simp only [isLive, ↓reduceIte, Bool.false_eq_true]
          exact live_of_none rfl

theorem clockedRecheck_live_iff (skew : 0 ≤ timings.skewMs)
    (acts : input.fails = false) :
    (clockedRecheckStep timings world input).2.Live
        ((Phase.rechecking.lastRead timings world input).or last) ↔
      Phase.rechecking.keepsCap timings world input last = true := by
  unfold clockedRecheckStep lastRead keepsCap
  rw [acts]
  cases world.stored with
  | none => exact iff_of_true (live_of_none rfl) rfl
  | some fresh =>
      by_cases passed : fresh.absoluteExpiresAt ≤ input.now
      · simp only [passed, ↓reduceIte]
        exact iff_of_true (live_of_none rfl) (by simp [passed])
      · cases due : shouldRefresh input.second fresh.accessExpiresAt
            timings.skewMs with
        | true =>
            simp only [passed, due, ↓reduceIte, Bool.not_true,
              Bool.false_eq_true]
            refine iff_of_true ?_ (by simp [due])
            cases fresh.refreshToken with
            | none => exact live_of_none rfl
            | some token => exact live_of_none rfl
        | false =>
            have ahead := fresh.isLive_iff_of_notDue skew due
            simp only [passed, due, ↓reduceIte, Bool.not_false,
              Bool.false_eq_true, Option.map_some, Option.some_or]
            rw [live_some_iff rfl, ahead]
            simp [passed, due]

theorem refresh_live_iff {fresh : SessionRecord} {token : String}
    (skew : 0 ≤ timings.skewMs)
    (stepped : refreshStep timings id world input.toStepInput fresh token =
      some (after, next)) :
    next.Live (((Phase.refreshing fresh token).lastRead timings world
        input).or last) ↔
      (Phase.refreshing fresh token).keepsCap timings world input last =
        true := by
  unfold refreshStep at stepped
  unfold lastRead keepsCap
  split at stepped
  case h_1 isRejected =>
    cases stepped
    rw [isRejected]
    exact iff_of_true (live_of_none rfl) rfl
  case h_2 isFailed =>
    cases stepped
    rw [isFailed]
    refine iff_of_true ?_ rfl
    intro found carried
    exact ⟨input.now, rfl, transientRefreshFailure_live carried⟩
  case h_3 tokens isAccepted =>
    rw [isAccepted]
    dsimp only
    split at stepped
    case h_1 => cases stepped
    case h_2 =>
      cases mismatch : idTokenMismatch fresh tokens with
      | true =>
          rw [mismatch, if_pos rfl] at stepped
          cases stepped
          exact iff_of_true (live_of_none rfl) rfl
      | false =>
          rw [mismatch, if_neg Bool.false_ne_true] at stepped
          cases stepped
          rw [if_neg Bool.false_ne_true, Option.some_or, live_some_iff rfl,
            nextRecord_isLive_iff skew]
          simp

theorem readWinner_live_iff {attempt : Attempt}
    (live : (Phase.readingWinner attempt).Live last)
    (acts : input.fails = false) :
    (readWinnerStep world attempt).2.Live last ↔
      (Phase.readingWinner attempt).keepsCap timings world input last =
        true := by
  unfold readWinnerStep keepsCap
  rw [acts]
  cases world.stored with
  | none => exact iff_of_true (live_of_none rfl) rfl
  | some winner =>
      by_cases same : winner.rev = attempt.fresh.rev
      · simp only [same, ne_eq, not_true_eq_false, ↓reduceIte]
        refine iff_of_true (live.carry ?_) (by simp [same])
        exact fun record carried => ⟨record, carried, rfl, rfl⟩
      · simp only [same, ne_eq, not_false_eq_true, ↓reduceIte]
        cases last with
        | none =>
            refine iff_of_false ?_ (by simp [same])
            intro isLive
            obtain ⟨now, isLast, _⟩ := isLive winner rfl
            cases isLast
        | some now =>
            rw [live_some_iff rfl]
            simp [same]

theorem Live.write {attempt : Attempt} (live : (writing attempt).Live last) :
    (writeStep world attempt).2.Live last := by
  unfold writeStep
  split
  · exact live.carry fun record carried => ⟨record, carried, rfl, rfl⟩
  · exact live.carry fun record carried => ⟨record, carried, rfl, rfl⟩

theorem Live.rewrite {attempt : Attempt} {rev : Nat}
    (live : (rewriting attempt rev).Live last) :
    (rewriteStep world attempt rev).2.Live last := by
  unfold rewriteStep
  split
  · refine live.carry fun record carried => ⟨attempt.next, rfl, ?_⟩
    cases carried
    exact ⟨rfl, rfl⟩
  · exact live_of_none rfl

theorem Live.released {orphaned : List String} {result : Resolved}
    (live : (releasing orphaned result).Live last) :
    (Phase.released orphaned result).Live last := by
  unfold Phase.released
  split
  · exact live.carry fun record carried => ⟨record, carried, rfl, rfl⟩
  · exact live.carry fun record carried => ⟨record, carried, rfl, rfl⟩

/-- The step lemma: what a call carries is live after a step exactly when the
step does not miss the absolute cap. -/
theorem clockedStep_live_iff (skew : 0 ≤ timings.skewMs)
    (live : phase.Live last)
    (stepped : phase.clockedStep timings id world input = some (after, next)) :
    next.Live ((phase.lastRead timings world input).or last) ↔
      phase.keepsCap timings world input last = true := by
  suffices step : (after, next).2.Live
      ((phase.lastRead timings world input).or last) ↔
        phase.keepsCap timings world input last = true from step
  cases phase with
  | reading =>
      rw [← Option.some.inj stepped]
      cases acts : input.fails with
      | true =>
          rw [if_pos rfl]
          exact iff_of_true (live_of_none rfl) (by simp [keepsCap, acts])
      | false => exact clockedRead_live_iff skew acts
  | rereadingUnprepared =>
      rw [← Option.some.inj stepped]
      cases acts : input.fails with
      | true =>
          rw [if_pos rfl]
          exact iff_of_true (live_of_none rfl) (by simp [keepsCap, acts])
      | false => exact clockedRereadUnprepared_live_iff skew acts
  | rechecking =>
      rw [← Option.some.inj stepped]
      cases acts : input.fails with
      | true =>
          rw [if_pos rfl]
          exact iff_of_true (live_of_none rfl) (by simp [keepsCap, acts])
      | false => exact clockedRecheck_live_iff skew acts
  | rereading deadline =>
      rw [← Option.some.inj stepped]
      cases acts : input.fails with
      | true =>
          rw [if_pos rfl]
          exact iff_of_true (live_of_none rfl) (by simp [keepsCap, acts])
      | false => exact reread_live_iff skew acts
  | refreshing fresh token => exact refresh_live_iff skew stepped
  | readingWinner attempt =>
      rw [← Option.some.inj stepped]
      cases acts : input.fails with
      | true =>
          rw [if_pos rfl]
          exact iff_of_true (live_of_none rfl) (by simp [keepsCap, acts])
      | false => exact readWinner_live_iff live acts
  | readingLast =>
      rw [← Option.some.inj stepped]
      refine iff_of_true ?_ rfl
      cases acts : input.fails with
      | true => exact live_of_none rfl
      | false => exact readLast_live acts
  | writing attempt =>
      rw [← Option.some.inj stepped]
      refine iff_of_true ?_ rfl
      split
      · exact live_of_none rfl
      · exact live.write
  | rewriting attempt rev =>
      rw [← Option.some.inj stepped]
      refine iff_of_true ?_ rfl
      split
      · exact live_of_none rfl
      · exact live.rewrite
  | deleting reason orphaned result =>
      rw [← Option.some.inj stepped]
      refine iff_of_true ?_ rfl
      split
      · exact live_of_none rfl
      · exact live.carry fun record carried => ⟨record, carried, rfl, rfl⟩
  | releasing orphaned result =>
      rw [← Option.some.inj stepped]
      exact iff_of_true live.released rfl
  | revoking orphaned result =>
      rw [← Option.some.inj stepped]
      refine iff_of_true ?_ rfl
      exact live.carry fun record carried => ⟨record, carried, rfl, rfl⟩
  | expiring =>
      rw [← Option.some.inj stepped]
      refine iff_of_true (live_of_none ?_) rfl
      split <;> rfl
  | preparing =>
      rw [← Option.some.inj stepped]
      refine iff_of_true (live_of_none ?_) rfl
      dsimp only
      split <;> rfl
  | locking deadline =>
      rw [← Option.some.inj stepped]
      refine iff_of_true (live_of_none ?_) rfl
      unfold lockStep
      split
      · rfl
      · split
        · rfl
        · split <;> rfl
  | sleeping deadline =>
      rw [← Option.some.inj stepped]
      exact iff_of_true (live_of_none rfl) rfl
  | finished result => cases stepped

end Phase

/-- What every call carries is live at its last read of the clock. -/
def AllLive (configuration : Configuration World ClockedCall) : Prop :=
  ∀ id phase last, configuration.process id = some ⟨.resolve phase, last⟩ →
    phase.Live last

theorem AllLive.move {timings : Timings} (skew : 0 ≤ timings.skewMs)
    {configuration next : Configuration World ClockedCall}
    {action : Move ClockedCall ClockedInput Expiry}
    (allLive : AllLive configuration)
    (keeps : KeepsCap timings configuration action = true)
    (moved : (clockedSessions timings).move configuration action = some next) :
    AllLive next := by
  intro other phase last running
  cases Program.move_cases moved with
  | @spawn id initial _ starts =>
      by_cases same : other = id
      · subst same
        rw [Configuration.set_process_self] at running
        cases running
        have isStart : phase = .reading := by
          simpa [clockedSessions, Call.starts] using (Bool.and_eq_true_iff.mp
            starts).1
        rw [isStart]
        exact Phase.live_of_none rfl
      · rw [Configuration.set_process_of_ne _ same] at running
        exact allLive other phase last running
  | @run id clocked after input shared before stepped =>
      by_cases same : other = id
      · subst same
        rw [Configuration.set_process_self] at running
        cases running
        obtain ⟨call, earlier⟩ := clocked
        cases call with
        | logout request =>
            obtain ⟨_, _, isNext⟩ := Option.map_eq_some_iff.mp stepped
            cases isNext
        | resolve current =>
            obtain ⟨⟨world, later⟩, isStep, isNext⟩ :=
              Option.map_eq_some_iff.mp stepped
            cases isNext
            refine (Phase.clockedStep_live_iff skew
              (allLive other current earlier before) isStep).mpr ?_
            simpa [KeepsCap, before] using keeps
      · rw [Configuration.set_process_of_ne _ same] at running
        exact allLive other phase last running
  | outside => exact allLive other phase last running

/-- In every run in which no step misses that the absolute cap has passed, a
session is handed out below both of its expiries. -/
theorem resolved_sessions_are_live {timings : Timings}
    (skew : 0 ≤ timings.skewMs) (world : World)
    (schedule : List (Move ClockedCall ClockedInput Expiry))
    (final : Configuration World ClockedCall)
    (run : runFrom (clockedSessions timings).move (.start world) schedule =
      some final)
    (keeps : EveryStep (clockedSessions timings).move
      (fun configuration action => KeepsCap timings configuration action = true)
      (.start world) schedule)
    (id : Nat) (record : SessionRecord) (state : Option RefreshState)
    (last : Option Int)
    (returned : final.process id =
      some ⟨.resolve (.finished (.session record state)), last⟩) :
    ∃ now, last = some now ∧
      now < record.accessExpiresAt ∧ now < record.absoluteExpiresAt := by
  have initially : AllLive (.start world) := by
    intro other phase value running
    cases running
  have allLive : AllLive final :=
    runFrom_invariant_of_everyStep
      (fun _ _ _ allLive keeps moved => allLive.move skew keeps moved)
      initially keeps run
  obtain ⟨now, isLast, isLive⟩ := allLive id _ last returned record rfl
  exact ⟨now, isLast, SessionRecord.isLive_iff.mp isLive⟩

section SampleClocks

/-- The values that a step reads from the clock, in order. -/
def clockValues : Move ClockedCall ClockedInput Expiry → List Int
  | .run _ input => [input.now, input.second, input.third]
  | _ => []

def sampleTick (now : Int) : Move ClockedCall ClockedInput Expiry :=
  .run 0 ⟨sampleStep now "second", now, now⟩

/-- A call that takes the lock at the first value, and whose refresh is answered
at the second one. -/
def sampleClocks (begun answered : Int) :
    List (Move ClockedCall ClockedInput Expiry) :=
  Move.spawn 0 ⟨.resolve .reading, none⟩ ::
      List.replicate 4 (sampleTick begun) ++
    List.replicate 3 (sampleTick answered)

/-- The access token ends after 500 seconds, the session after 1000. -/
def expiringRecord : SessionRecord :=
  ⟨0, "access", some "first", 500000, 1000000, "id", ⟨"issuer", "subject"⟩⟩

def expiringWorld : World := .initial (some expiringRecord)

def refreshedRecord (accessExpiresAt : Int) : SessionRecord :=
  { expiringRecord with
    rev := 1
    refreshToken := some "second"
    accessExpiresAt }

theorem resolved_sessions_are_live_sample : ∃ final,
    runFrom (clockedSessions ⟨30000, 5000⟩).move (.start expiringWorld)
      (sampleClocks 480000 490000) = some final ∧
    final.process 0 = some ⟨.resolve (.finished
      (.session (refreshedRecord 550000) none)), some 490000⟩ ∧
    ∃ now, (some 490000 : Option Int) = some now ∧
      now < (refreshedRecord 550000).accessExpiresAt ∧
      now < (refreshedRecord 550000).absoluteExpiresAt := by
  have run : runFrom (clockedSessions ⟨30000, 5000⟩).move
      (.start expiringWorld) (sampleClocks 480000 490000) = some _ := rfl
  refine ⟨_, run, rfl, ?_⟩
  exact @resolved_sessions_are_live ⟨30000, 5000⟩ (by decide) _ _ _ run
    (by decide) 0 (refreshedRecord 550000) none (some 490000) rfl

/-- A refresh that is answered after the absolute cap hands out an expired
session. -/
theorem expired_session_is_handed_out : ¬ ∀ (timings : Timings),
    0 ≤ timings.skewMs → ∀ (world : World)
    (schedule : List (Move ClockedCall ClockedInput Expiry))
    (final : Configuration World ClockedCall),
    (schedule.flatMap clockValues).Pairwise (· ≤ ·) →
    runFrom (clockedSessions timings).move (.start world) schedule =
      some final →
    ∀ (id : Nat) (record : SessionRecord) (state : Option RefreshState)
      (last : Option Int),
    final.process id =
      some ⟨.resolve (.finished (.session record state)), last⟩ →
    ∃ now, last = some now ∧
      now < record.accessExpiresAt ∧ now < record.absoluteExpiresAt := by
  intro claimed
  have run : runFrom (clockedSessions ⟨30000, 5000⟩).move
      (.start expiringWorld) (sampleClocks 480000 1100000) = some _ := rfl
  obtain ⟨now, isLast, _, ahead⟩ := claimed ⟨30000, 5000⟩ (by decide) _ _ _
    (by decide) run 0 (refreshedRecord 1000000) none (some 1100000) rfl
  cases isLast
  exact absurd ahead (by decide)

end SampleClocks

end Paigasus.Auth
