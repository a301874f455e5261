import Paigasus.Auth.SingleFlight

/-!
# The refresh tokens that no record will hold

A call of `resolveSession` together with the refresh that was accepted for it,
its last access to the record and the tokens it has revoked.  Between two of its
steps the world may become any other, so that the store may answer anything.
-/

namespace Paigasus.Auth

open Foundation

/-- A refresh that the provider has accepted. -/
structure AcceptedRefresh where
  fresh : SessionRecord
  token : String
  tokens : RefreshedTokens
deriving DecidableEq

/-- The token that the provider takes next. -/
def AcceptedRefresh.liveToken (response : AcceptedRefresh) : String :=
  response.tokens.refreshToken.getD response.token

def AcceptedRefresh.isRotated (response : AcceptedRefresh) : Bool :=
  response.tokens.refreshToken.any (· ≠ response.token)

/-- A call of the store that reads, writes or deletes the record, and the record
that is stored then. -/
structure Access where
  phase : Phase
  fails : Bool
  leaves : Option SessionRecord
deriving DecidableEq

namespace Phase

def accesses : Phase → Bool
  | .preparing | .locking _ | .sleeping _ | .refreshing _ _ | .releasing _ _
  | .revoking _ _ | .finished _ => false
  | _ => true

def deletes : Phase → Bool
  | .expiring | .deleting _ _ _ => true
  | _ => false

def response (answer : RefreshAnswer) : Phase → Option AcceptedRefresh
  | .refreshing fresh token =>
      match answer with
      | .accepted tokens => some ⟨fresh, token, tokens⟩
      | _ => none
  | _ => none

def revokes : Phase → List String
  | .revoking orphaned _ => orphaned
  | _ => []

end Phase

/-- A call, and what has come of it. -/
structure Visit where
  phase : Phase
  response : Option AcceptedRefresh
  last : Option Access
  revoked : List String
deriving DecidableEq

namespace Visit

def start : Visit := ⟨.reading, none, none, []⟩

def step (timings : Timings) (id : Nat) (world : World) (input : StepInput)
    (visit : Visit) : Option (World × Visit) :=
  (visit.phase.step timings id world input).map fun (after, next) =>
    (after,
      { phase := next
        response := (visit.phase.response input.answer).or visit.response
        last :=
          if visit.phase.accesses then
            some ⟨visit.phase, input.fails, after.stored⟩
          else visit.last
        revoked := visit.revoked ++ visit.phase.revokes })

end Visit

/-- Any number of calls, in a world that may become any other at any time. -/
def visits (timings : Timings) : Program World Visit StepInput World where
  starts visit := visit = .start
  step id world visit input := visit.step timings id world input
  outside _ world := some world

section Covers

variable {timings : Timings} {id : Nat}

/-- One call of `resolveSession`; the other calls are a part of its world. -/
structure SeenFrom (id : Nat) (configuration : Configuration World Call)
    (seen : Configuration World Visit) : Prop where
  shared : seen.shared = configuration.shared
  resolves : ∀ phase, configuration.process id = some (.resolve phase) →
    ∃ visit, seen.process id = some visit ∧ visit.phase = phase
  unused : (∀ phase, configuration.process id ≠ some (.resolve phase)) →
    seen.process id = none

theorem SeenFrom.start (world : World) : SeenFrom id (.start world)
    (.start world) where
  shared := rfl
  resolves phase running := by cases running
  unused _ := rfl

/-- What does not touch the call is a change of the world. -/
theorem SeenFrom.outside {configuration next : Configuration World Call}
    {seen : Configuration World Visit}
    (seenFrom : SeenFrom id configuration seen)
    (same : ∀ phase, next.process id = some (.resolve phase) ↔
      configuration.process id = some (.resolve phase)) :
    ∃ action seenNext, (visits timings).move seen action = some seenNext ∧
      SeenFrom id next seenNext := by
  refine ⟨.outside next.shared, _, Program.Moved.move (.outside rfl), rfl, ?_,
    ?_⟩
  · intro phase running
    exact seenFrom.resolves phase ((same phase).mp running)
  · intro other
    apply seenFrom.unused
    intro phase running
    exact other phase ((same phase).mpr running)

theorem SeenFrom.move {configuration next : Configuration World Call}
    {seen : Configuration World Visit} {action : Move Call StepInput Expiry}
    (seenFrom : SeenFrom id configuration seen)
    (moved : (sessions timings).move configuration action = some next) :
    ∃ action seenNext, (visits timings).move seen action = some seenNext ∧
      SeenFrom id next seenNext := by
  cases Program.move_cases moved with
  | @spawn other initial unused starts =>
      by_cases same : id = other
      · subst same
        cases initial with
        | logout request =>
            apply seenFrom.outside
            intro phase
            rw [Configuration.set_process_self, unused]
            constructor
            · rintro ⟨⟩
            · rintro ⟨⟩
        | resolve phase =>
            have isStart : phase = .reading := by
              simpa [sessions, Call.starts] using starts
            have fresh : seen.process id = none := by
              apply seenFrom.unused
              rw [unused]
              intro phase running
              cases running
            refine ⟨.spawn id .start, _, Program.Moved.move (.spawn fresh rfl),
              seenFrom.shared, ?_, ?_⟩
            · intro found running
              rw [Configuration.set_process_self] at running ⊢
              cases running
              exact ⟨.start, rfl, isStart.symm⟩
            · intro other
              rw [Configuration.set_process_self] at other
              exact absurd rfl (other phase)
      · apply seenFrom.outside
        intro phase
        rw [Configuration.set_process_of_ne _ same]
  | @run other call later input world running stepped =>
      by_cases same : id = other
      · subst same
        cases call with
        | logout request =>
            obtain ⟨_, _, isNext⟩ := Option.map_eq_some_iff.mp stepped
            cases isNext
            apply seenFrom.outside
            intro phase
            rw [Configuration.set_process_self, running]
            constructor
            · rintro ⟨⟩
            · rintro ⟨⟩
        | resolve phase =>
            obtain ⟨⟨changed, next⟩, phaseStepped, isNext⟩ :=
              Option.map_eq_some_iff.mp stepped
            cases isNext
            obtain ⟨visit, isVisit, rfl⟩ := seenFrom.resolves phase running
            obtain ⟨visitNext, visitStepped, isPhase⟩ : ∃ visitNext,
                visit.step timings id seen.shared input =
                  some (world, visitNext) ∧ visitNext.phase = next := by
              unfold Visit.step
              rw [seenFrom.shared, phaseStepped]
              exact ⟨_, rfl, rfl⟩
            refine ⟨.run id input, _,
              Program.Moved.move (.run isVisit visitStepped), rfl, ?_, ?_⟩
            · intro found isFound
              rw [Configuration.set_process_self] at isFound ⊢
              cases isFound
              exact ⟨visitNext, rfl, isPhase⟩
            · intro other
              rw [Configuration.set_process_self] at other
              exact absurd rfl (other next)
      · apply seenFrom.outside
        intro phase
        rw [Configuration.set_process_of_ne _ same]
  | outside changed => exact seenFrom.outside fun _ => Iff.rfl

/-- Every run of the sessions is, for each of its calls, a run of that call in a
world that changes. -/
theorem visits_cover_sessions {world : World}
    {schedule : List (Move Call StepInput Expiry)}
    {final : Configuration World Call} {phase : Phase}
    (run : runFrom (sessions timings).move (.start world) schedule = some final)
    (running : final.process id = some (.resolve phase)) :
    ∃ actions seen visit,
      runFrom (visits timings).move (.start world) actions = some seen ∧
        seen.shared = final.shared ∧ seen.process id = some visit ∧
        visit.phase = phase := by
  obtain ⟨actions, seen, seenRun, seenFrom⟩ :=
    runFrom_simulation
      (fun _ _ _ _ related moved => SeenFrom.move related moved)
      (SeenFrom.start world) run
  obtain ⟨visit, isVisit, isPhase⟩ := seenFrom.resolves phase running
  exact ⟨actions, seen, visit, seenRun, seenFrom.shared, isVisit, isPhase⟩

end Covers

section Accounts

variable (response : AcceptedRefresh) (last : Option Access)
  (revoked : List String)

/-- A refused write has read the record of another writer. -/
def AcceptedRefresh.FoundOwned : Prop :=
  ∃ attempt record, last = some ⟨.readingWinner attempt, false, some record⟩ ∧
    record.rev ≠ response.fresh.rev

/-- The record holds the live token, or another writer owns the record, or the
token is revoked. -/
def AcceptedRefresh.IsKept : Prop :=
  (last.bind Access.leaves).bind SessionRecord.refreshToken =
      some response.liveToken ∨
    response.FoundOwned last ∨
    response.liveToken ∈ revoked

/-- No token that the record holds is revoked. -/
def SparesStored : Prop :=
  ∀ held,
    (last.bind Access.leaves).bind SessionRecord.refreshToken = some held →
    held ∉ revoked

/-- The write has found that the record was deleted. -/
def FoundDeleted : Prop :=
  ∃ attempt, last = some ⟨.readingWinner attempt, false, none⟩

/-- The last access has failed, and it was not a delete. -/
def AccessFailed : Prop :=
  ∃ access, last = some access ∧ access.fails = true ∧
    access.phase.deletes = false

def DeleteFailed : Prop :=
  ∃ access, last = some access ∧ access.fails = true ∧
    access.phase.deletes = true

end Accounts

/-- The refresh is accounted for where these tokens are revoked. -/
structure Accounts (response : AcceptedRefresh) (last : Option Access)
    (revoked : List String) : Prop where
  kept : response.IsKept last revoked ∨
    (FoundDeleted last ∧ response.isRotated = false) ∨ AccessFailed last
  spares : SparesStored last revoked ∨ DeleteFailed last

/-- What holds of a call before a refresh is accepted for it. -/
def Phase.Unanswered : Phase → Prop
  | .refreshing fresh token => fresh.refreshToken = some token
  | .writing _ => False
  | .readingWinner _ => False
  | .rewriting _ _ => False
  | .deleting _ orphaned _ => orphaned = []
  | .releasing orphaned _ => orphaned = []
  | .revoking orphaned _ => orphaned = []
  | _ => True

def Attempt.response (attempt : Attempt) : AcceptedRefresh :=
  ⟨attempt.fresh, attempt.token, attempt.tokens⟩

/-- The record to write holds the live token. -/
structure Attempt.Writes (response : AcceptedRefresh) (attempt : Attempt) :
    Prop where
  isResponse : attempt.response = response
  next : attempt.next.refreshToken = some response.liveToken

/-- What a call has done, and will do, about a refresh that was accepted. -/
def Phase.Answered (response : AcceptedRefresh) (last : Option Access)
    (revoked : List String) : Phase → Prop
  | .writing attempt => revoked = [] ∧ attempt.Writes response
  | .readingWinner attempt => revoked = [] ∧ attempt.Writes response
  | .rewriting attempt _ => revoked = [] ∧ attempt.Writes response
  | .deleting _ orphaned _ => revoked = [] ∧ response.liveToken ∈ orphaned
  | .releasing orphaned _ => revoked = [] ∧ Accounts response last orphaned
  | .revoking orphaned _ => revoked = [] ∧ Accounts response last orphaned
  | .finished _ => Accounts response last revoked
  | _ => False

/-- What holds of a call between its steps, whatever the world is. -/
inductive Visit.Sound (visit : Visit) : Prop where
  | unanswered (response : visit.response = none) (revoked : visit.revoked = [])
      (phase : visit.phase.Unanswered)
  | answered (response : AcceptedRefresh)
      (isResponse : visit.response = some response)
      (answered : visit.phase.Answered response visit.last visit.revoked)

namespace Phase

variable {timings : Timings} {id : Nat} {world after : World}
  {input : StepInput} {phase next : Phase}

theorem recheckStep_unanswered :
    (recheckStep timings world input).2.Unanswered := by
  unfold recheckStep
  split
  case h_1 => rfl
  case h_2 fresh isFresh =>
    split
    case isTrue => rfl
    case isFalse =>
      split
      case isTrue => rfl
      case isFalse =>
        split
        case h_1 => rfl
        case h_2 token isToken => exact isToken

theorem Unanswered.step (unanswered : phase.Unanswered)
    (none : phase.response input.answer = none)
    (stepped : phase.step timings id world input = some (after, next)) :
    next.Unanswered := by
  suffices result : (after, next).2.Unanswered from result
  cases phase with
  | reading =>
      rw [← Option.some.inj stepped]
      unfold readStep
      repeat' split
      all_goals trivial
  | expiring =>
      rw [← Option.some.inj stepped]
      split <;> trivial
  | preparing =>
      rw [← Option.some.inj stepped]
      dsimp only
      split <;> trivial
  | rereadingUnprepared =>
      rw [← Option.some.inj stepped]
      unfold rereadUnpreparedStep
      repeat' split
      all_goals trivial
  | locking deadline =>
      rw [← Option.some.inj stepped]
      unfold lockStep
      repeat' split
      all_goals trivial
  | readingLast =>
      rw [← Option.some.inj stepped]
      unfold readLastStep
      repeat' split
      all_goals trivial
  | sleeping deadline =>
      rw [← Option.some.inj stepped]
      trivial
  | rereading deadline =>
      rw [← Option.some.inj stepped]
      unfold rereadStep
      repeat' split
      all_goals trivial
  | rechecking =>
      rw [← Option.some.inj stepped]
      split
      case isTrue => rfl
      case isFalse => exact recheckStep_unanswered
  | refreshing fresh token =>
      unfold Phase.step refreshStep at stepped
      cases answer : input.answer with
      | rejected =>
          simp only [answer] at stepped
          cases stepped
          rfl
      | failed =>
          simp only [answer] at stepped
          cases stepped
          rfl
      | accepted tokens =>
          rw [answer] at none
          cases none
  | writing attempt => exact unanswered.elim
  | readingWinner attempt => exact unanswered.elim
  | rewriting attempt rev => exact unanswered.elim
  | deleting reason orphaned result =>
      rw [← Option.some.inj stepped]
      split
      · exact unanswered
      · exact unanswered
  | releasing orphaned result =>
      have empty : orphaned = [] := unanswered
      rw [← Option.some.inj stepped]
      dsimp only
      unfold released
      rw [if_pos empty]
      trivial
  | revoking orphaned result =>
      rw [← Option.some.inj stepped]
      trivial
  | finished result => cases stepped

/-- What an accepted refresh leaves to do. -/
theorem accepted_answered {fresh : SessionRecord} {token : String}
    {tokens : RefreshedTokens} (presented : fresh.refreshToken = some token)
    (answer : input.answer = .accepted tokens)
    (stepped : refreshStep timings id world input fresh token =
      some (after, next)) (last : Option Access) :
    next.Answered ⟨fresh, token, tokens⟩ last [] := by
  simp only [refreshStep, answer] at stepped
  split at stepped
  case h_1 => cases stepped
  case h_2 =>
    split at stepped
    case isTrue =>
      cases stepped
      refine ⟨rfl, ?_⟩
      unfold mismatchOrphans AcceptedRefresh.liveToken
      cases tokens.refreshToken with
      | none => exact List.mem_cons_self
      | some new =>
          dsimp only [Option.getD_some]
          split
          case isTrue same =>
            rw [same]
            exact List.mem_cons_self
          case isFalse => exact List.mem_cons_self
    case isFalse =>
      cases stepped
      refine ⟨rfl, rfl, ?_⟩
      cases isNew : tokens.refreshToken with
      | none => simp [nextRecord, AcceptedRefresh.liveToken, isNew, presented]
      | some new => simp [nextRecord, AcceptedRefresh.liveToken, isNew]

end Phase

/-- The new token is the live one, if there is a new token. -/
theorem Attempt.mem_newRefreshToken (attempt : Attempt) :
    attempt.response.liveToken ∈ attempt.newRefreshToken ∨
      attempt.response.isRotated = false := by
  unfold newRefreshToken AcceptedRefresh.isRotated AcceptedRefresh.liveToken
    response
  cases attempt.tokens.refreshToken with
  | none => exact .inr rfl
  | some new =>
      by_cases same : new = attempt.token
      · exact .inr (by simp [same])
      · exact .inl (by simp [same])

theorem Attempt.mem_unpersisted (attempt : Attempt) :
    attempt.response.liveToken ∈ attempt.unpersisted := by
  unfold unpersisted newRefreshToken AcceptedRefresh.liveToken response
  cases attempt.tokens.refreshToken with
  | none => simp
  | some new =>
      by_cases same : new = attempt.token
      · simp [same]
      · simp [same]

namespace Accounts

variable {response : AcceptedRefresh} {last : Option Access}
  {revoked : List String}

/-- The record that is left holds the live token. -/
theorem of_holds {access : Access} {record : SessionRecord}
    (leaves : access.leaves = some record)
    (holds : record.refreshToken = some response.liveToken) :
    Accounts response (some access) [] where
  kept := by
    refine .inl (.inl ?_)
    rw [Option.bind_some, leaves, Option.bind_some, holds]
  spares := .inl fun _ _ member => by cases member

theorem of_failed {access : Access} (fails : access.fails = true)
    (keeps : access.phase.deletes = false) :
    Accounts response (some access) [] where
  kept := .inr (.inr ⟨access, rfl, fails, keeps⟩)
  spares := .inl fun _ _ member => by cases member

/-- The record is another writer's. -/
theorem of_owned {attempt : Attempt} {record : SessionRecord}
    (distinct : record.rev ≠ response.fresh.rev) :
    Accounts response
      (some ⟨.readingWinner attempt, false, some record⟩) [] where
  kept := .inl (.inr (.inl ⟨attempt, record, rfl, distinct⟩))
  spares := .inl fun _ _ member => by cases member

/-- The record is gone, and the live token with the revoked ones. -/
theorem of_deleted {access : Access} (absent : access.leaves = none)
    (queued : response.liveToken ∈ revoked) :
    Accounts response (some access) revoked where
  kept := .inl (.inr (.inr queued))
  spares := by
    refine .inl fun held isHeld => ?_
    rw [Option.bind_some, absent] at isHeld
    cases isHeld

end Accounts

namespace Phase

variable {timings : Timings} {id : Nat} {world after : World}
  {input : StepInput} {phase next : Phase} {response : AcceptedRefresh}
  {last : Option Access} {revoked : List String}

theorem writeStep_answered {attempt : Attempt}
    (writes : attempt.Writes response) :
    (writeStep world attempt).2.Answered response
      (some ⟨.writing attempt, false, (writeStep world attempt).1.stored⟩)
      [] := by
  unfold writeStep
  rcases set_cases world attempt.next attempt.fresh.rev with
    ⟨_, written⟩ | ⟨_, kept⟩
  · rw [written]
    exact ⟨rfl, .of_holds rfl writes.next⟩
  · rw [kept]
    exact ⟨rfl, writes⟩

theorem rewriteStep_answered {attempt : Attempt} {rev : Nat}
    (writes : attempt.Writes response) :
    (rewriteStep world attempt rev).2.Answered response
      (some ⟨.rewriting attempt rev, false,
        (rewriteStep world attempt rev).1.stored⟩) [] := by
  unfold rewriteStep
  rcases set_cases world (attempt.rewritten rev) rev with
    ⟨_, written⟩ | ⟨_, kept⟩
  · rw [written]
    exact ⟨rfl, .of_holds rfl writes.next⟩
  · rw [kept]
    refine ⟨rfl, ?_⟩
    rw [← writes.isResponse]
    exact attempt.mem_unpersisted

theorem readWinnerStep_answered {attempt : Attempt}
    (writes : attempt.Writes response) :
    (readWinnerStep world attempt).2.Answered response
      (some ⟨.readingWinner attempt, false,
        (readWinnerStep world attempt).1.stored⟩) [] := by
  unfold readWinnerStep
  cases stored : world.stored with
  | none =>
      refine ⟨rfl, ?_, .inl ?_⟩
      · rw [← writes.isResponse]
        rcases attempt.mem_newRefreshToken with isNew | repeated
        · exact .inl (.inr (.inr isNew))
        · refine .inr (.inl ⟨⟨attempt, ?_⟩, repeated⟩)
          rw [stored]
      · intro held isHeld
        rw [Option.bind_some, stored] at isHeld
        cases isHeld
  | some winner =>
      dsimp only
      split
      case isTrue other =>
        refine ⟨rfl, ?_⟩
        rw [stored]
        apply Accounts.of_owned
        rw [← writes.isResponse]
        exact other
      case isFalse => exact ⟨rfl, writes⟩

/-- What is left to do is kept by every step of the call. -/
theorem Answered.step (answered : phase.Answered response last revoked)
    (stepped : phase.step timings id world input = some (after, next)) :
    next.Answered response
      (if phase.accesses then some ⟨phase, input.fails, after.stored⟩ else last)
      (revoked ++ phase.revokes) := by
  suffices result : (after, next).2.Answered response
      (if phase.accesses then
        some ⟨phase, input.fails, (after, next).1.stored⟩
      else last) (revoked ++ phase.revokes) from result
  cases phase with
  | writing attempt =>
      obtain ⟨rfl, writes⟩ := answered
      rw [← Option.some.inj stepped]
      cases input.fails with
      | true => exact ⟨rfl, .of_failed rfl rfl⟩
      | false => exact writeStep_answered writes
  | readingWinner attempt =>
      obtain ⟨rfl, writes⟩ := answered
      rw [← Option.some.inj stepped]
      cases input.fails with
      | true => exact ⟨rfl, .of_failed rfl rfl⟩
      | false => exact readWinnerStep_answered writes
  | rewriting attempt rev =>
      obtain ⟨rfl, writes⟩ := answered
      rw [← Option.some.inj stepped]
      cases input.fails with
      | true => exact ⟨rfl, .of_failed rfl rfl⟩
      | false => exact rewriteStep_answered writes
  | deleting reason orphaned result =>
      obtain ⟨rfl, queued⟩ := answered
      rw [← Option.some.inj stepped]
      cases input.fails with
      | true => exact ⟨rfl, .inl (.inr (.inr queued)), .inr ⟨_, rfl, rfl, rfl⟩⟩
      | false => exact ⟨rfl, .of_deleted rfl queued⟩
  | releasing orphaned result =>
      obtain ⟨rfl, accounts⟩ := answered
      rw [← Option.some.inj stepped]
      by_cases empty : orphaned = []
      · subst empty
        exact accounts
      · dsimp only
        unfold released
        rw [if_neg empty]
        exact ⟨rfl, accounts⟩
  | revoking orphaned result =>
      obtain ⟨rfl, accounts⟩ := answered
      rw [← Option.some.inj stepped]
      exact accounts
  | finished result => cases stepped
  | _ => exact answered.elim

/-- Tokens are revoked only for a refresh that was accepted. -/
theorem Unanswered.revokes (unanswered : phase.Unanswered) :
    phase.revokes = [] := by
  cases phase with
  | revoking orphaned result => exact unanswered
  | _ => rfl

theorem Answered.responds_not (answered : phase.Answered response last revoked)
    (answer : RefreshAnswer) : phase.response answer = none := by
  cases phase with
  | refreshing fresh token => exact answered.elim
  | _ => rfl

/-- Only the token endpoint answers a refresh. -/
theorem response_eq_some {answer : RefreshAnswer}
    (responds : phase.response answer = some response) :
    phase = .refreshing response.fresh response.token ∧
      answer = .accepted response.tokens := by
  cases phase with
  | refreshing fresh token =>
      cases answer with
      | accepted tokens =>
          cases responds
          exact ⟨rfl, rfl⟩
      | _ => cases responds
  | _ => cases responds

end Phase

theorem Visit.Sound.step {timings : Timings} {id : Nat} {world after : World}
    {input : StepInput} {visit next : Visit} (sound : visit.Sound)
    (stepped : visit.step timings id world input = some (after, next)) :
    next.Sound := by
  obtain ⟨phase, response, last, revoked⟩ := visit
  obtain ⟨⟨changed, later⟩, phaseStepped, same⟩ :=
    Option.map_eq_some_iff.mp stepped
  cases same
  cases sound with
  | unanswered isNone isEmpty unanswered =>
      dsimp only at isNone isEmpty unanswered phaseStepped
      subst isNone isEmpty
      cases responds : phase.response input.answer with
      | none =>
          refine .unanswered rfl ?_ ?_
          · exact unanswered.revokes
          · exact unanswered.step responds phaseStepped
      | some response =>
          obtain ⟨rfl, answer⟩ := Phase.response_eq_some responds
          refine .answered response rfl ?_
          exact Phase.accepted_answered unanswered answer phaseStepped last
  | answered response isResponse answered =>
      dsimp only at isResponse answered phaseStepped
      subst isResponse
      refine .answered response ?_ (answered.step phaseStepped)
      dsimp only
      rw [Phase.Answered.responds_not answered]
      rfl

theorem visits_outline (timings : Timings) :
    Program.Outline (visits timings) (fun _ => True)
      (fun _ _ visit => visit.Sound) where
  spawned _ _ visit _ starts := by
    have isStart : visit = .start := by simpa [visits] using starts
    rw [isStart]
    exact .unanswered rfl rfl trivial
  own _ _ _ _ _ _ _ sound stepped := ⟨trivial, sound.step stepped⟩
  others _ _ _ _ _ _ _ _ _ _ _ _ kept := kept
  outside _ _ _ _ _ := ⟨trivial, fun _ _ kept => kept⟩

/-- In every run of calls, in a world that may change at any time: when a call
has ended after an accepted refresh, the record holds the live token, or was
read to be another writer's, or the live token is revoked; unless the record was found
deleted and the token is not new, or an access that is not a delete has failed.
It has revoked no token of the record that is stored, unless its delete has
failed. -/
theorem refresh_tokens_accounted (timings : Timings) (world : World)
    (schedule : List (Move Visit StepInput World))
    (final : Configuration World Visit)
    (run : runFrom (visits timings).move (.start world) schedule = some final)
    (id : Nat) (visit : Visit) (running : final.process id = some visit)
    (result : Resolved) (finished : visit.phase = .finished result)
    (response : AcceptedRefresh) (refreshed : visit.response = some response) :
    (response.IsKept visit.last visit.revoked ∨
      (FoundDeleted visit.last ∧ response.isRotated = false) ∨
      AccessFailed visit.last) ∧
    (SparesStored visit.last visit.revoked ∨ DeleteFailed visit.last) := by
  have sound : visit.Sound :=
    ((visits_outline timings).run (.start trivial) run).process id visit running
  cases sound with
  | unanswered isNone =>
      rw [isNone] at refreshed
      cases refreshed
  | answered found isFound answered =>
      rw [isFound] at refreshed
      cases refreshed
      rw [finished] at answered
      have accounts : Accounts response visit.last visit.revoked := answered
      exact ⟨accounts.kept, accounts.spares⟩

section SampleRefreshes

def sampleTokens (new : Option String) (subject : String) : RefreshedTokens :=
  ⟨"access", new, 60, some ("id", ⟨"issuer", subject⟩)⟩

/-- A step under which the store fails or works, with the answer of the token
endpoint. -/
def sampleVisit (fails : Bool) (tokens : RefreshedTokens) :
    Move Visit StepInput World :=
  .run 0 ⟨0, fails, .accepted tokens⟩

/-- A call up to the answer of the token endpoint. -/
def sampleAnswered (tokens : RefreshedTokens) :
    List (Move Visit StepInput World) :=
  .spawn 0 .start :: List.replicate 5 (sampleVisit false tokens)

def sampleResponse (tokens : RefreshedTokens) : AcceptedRefresh :=
  ⟨sampleRecord, "first", tokens⟩

/-- The call has ended after its refresh was accepted. -/
def EndsWith (tokens : RefreshedTokens)
    (schedule : List (Move Visit StepInput World)) (visit : Visit) : Prop :=
  (∃ final, runFrom (visits ⟨30000, 5000⟩).move
      (.start (.initial (some sampleRecord)))
      (sampleAnswered tokens ++ schedule) = some final ∧
    final.process 0 = some visit) ∧
  (∃ result, visit.phase = .finished result) ∧
  visit.response = some (sampleResponse tokens)

def rotating : RefreshedTokens := sampleTokens (some "second") "subject"

/-- Both writes are refused, and the record is deleted. -/
def refusedTwice : List (Move Visit StepInput World) :=
  [.outside (.initial none), sampleVisit false rotating,
    .outside (.initial (some sampleRecord)), sampleVisit false rotating,
    .outside (.initial none)] ++ List.replicate 4 (sampleVisit false rotating)

def refusedTwiceEnds : Visit :=
  ⟨.finished .absent, some (sampleResponse rotating),
    some ⟨.deleting .persistFailed ["second"] .absent, false, none⟩,
    ["second"]⟩

theorem refresh_tokens_accounted_sample :
    EndsWith rotating refusedTwice refusedTwiceEnds ∧
    ((sampleResponse rotating).IsKept refusedTwiceEnds.last
        refusedTwiceEnds.revoked ∨
      (FoundDeleted refusedTwiceEnds.last ∧
        (sampleResponse rotating).isRotated = false) ∨
      AccessFailed refusedTwiceEnds.last) ∧
    (SparesStored refusedTwiceEnds.last refusedTwiceEnds.revoked ∨
      DeleteFailed refusedTwiceEnds.last) := by
  have run : runFrom (visits ⟨30000, 5000⟩).move
      (.start (.initial (some sampleRecord)))
      (sampleAnswered rotating ++ refusedTwice) = some _ := rfl
  refine ⟨⟨⟨_, run, rfl⟩, ⟨.absent, rfl⟩, rfl⟩, ?_⟩
  exact refresh_tokens_accounted ⟨30000, 5000⟩ _ _ _ run 0 refusedTwiceEnds rfl
    .absent rfl (sampleResponse rotating) rfl

/-- The record was deleted, and the provider has repeated its token. -/
def deletedUnrotated : List (Move Visit StepInput World) :=
  .outside (.initial none) ::
    List.replicate 3 (sampleVisit false (sampleTokens none "subject"))

/-- The first write fails. -/
def writeFails : List (Move Visit StepInput World) :=
  [sampleVisit true rotating, sampleVisit false rotating]

/-- The new ID token is another subject's, and the delete fails. -/
def mismatchUndeleted : List (Move Visit StepInput World) :=
  sampleVisit true (sampleTokens none "other") ::
    List.replicate 2 (sampleVisit false (sampleTokens none "other"))

/-- A token of a provider that does not rotate stays valid where the record was
found deleted, and so does a new token whose write fails; a failed delete leaves
a revoked token in the record. -/
theorem refresh_token_orphaned_or_revoked_in_use :
    (∃ visit,
      EndsWith (sampleTokens none "subject") deletedUnrotated visit ∧
        ¬ (sampleResponse (sampleTokens none "subject")).IsKept visit.last
          visit.revoked) ∧
    (∃ visit, EndsWith rotating writeFails visit ∧
      ¬ (sampleResponse rotating).IsKept visit.last visit.revoked) ∧
    (∃ visit, EndsWith (sampleTokens none "other") mismatchUndeleted visit ∧
      ¬ SparesStored visit.last visit.revoked) := by
  refine ⟨⟨_, ⟨⟨_, rfl, rfl⟩, ⟨_, rfl⟩, rfl⟩, ?_⟩,
    ⟨_, ⟨⟨_, rfl, rfl⟩, ⟨_, rfl⟩, rfl⟩, ?_⟩,
    ⟨_, ⟨⟨_, rfl, rfl⟩, ⟨_, rfl⟩, rfl⟩, ?_⟩⟩
  · rintro (held | ⟨attempt, record, isLast, _⟩ | revoked)
    · cases held
    · cases isLast
    · cases revoked
  · rintro (held | ⟨attempt, record, isLast, _⟩ | revoked)
    · exact absurd held (by decide)
    · cases isLast
    · cases revoked
  · intro spares
    exact spares "first" rfl List.mem_cons_self

end SampleRefreshes

end Paigasus.Auth
