import Paigasus.Auth.SingleFlight

/-!
# Logout and the refresh tokens it races with

A refresh token that is issued and not consumed is in the store, or with a call
that will revoke it, or revoked.  Two steps break this, and they are the defect.
A delete may find a token that nobody has read: `handleLogout` reads the record
and deletes it in two steps, and `resolveSession` deletes a record long after it
has read it.  And a call whose write loses to another writer drops the new token
that its refresh has brought.
-/

namespace Paigasus.Auth

open Foundation

/-- The provider accepts; whether it rotates the token is open. -/
def RefreshAnswer.isAccepted : RefreshAnswer → Bool
  | .accepted _ => true
  | _ => false

/-- No call of the store or of the provider fails. -/
def Call.works (call : Call) (input : StepInput) : Bool :=
  match call with
  | .resolve (.refreshing _ _) => input.answer.isAccepted
  | _ => !input.fails

def World.storedToken (world : World) : Option String :=
  world.stored.bind SessionRecord.refreshToken

/-- The record holds no token but one that will be revoked, is consumed or is
revoked. -/
def World.deletable (world : World) (revoking : List String) : Bool :=
  world.storedToken.all fun held =>
    held ∈ revoking || held ∈ world.consumed || held ∈ world.revoked

/-- Where the next step of the call deletes the record: what it revokes after
that. -/
def Phase.deletesNext : Phase → Option (List String)
  | .expiring => some []
  | .deleting _ orphaned _ => some orphaned
  | _ => none

/-- The call has lost its write to another writer, and its refresh has brought a
new token. -/
def Phase.dropsNew (world : World) : Phase → Bool
  | .readingWinner attempt => attempt.newRefreshToken ≠ [] &&
      world.stored.any fun winner => winner.rev ≠ attempt.fresh.rev
  | _ => false

/-- The refresh token that the logout has read. -/
def readBy (logout : Nat) (configuration : Configuration World Call) :
    List String :=
  match configuration.process logout with
  | some (.logout request) => request.read.toList
  | _ => []

/-- The step gives up no live refresh token: a delete of the record finds none
but one that the logout has read or that the deleting call will revoke, and a
call that has lost its write has no new token. -/
def KeepsTokens (logout : Nat) (configuration : Configuration World Call) :
    Move Call StepInput Expiry → Bool
  | .run id _ =>
      match configuration.process id with
      | some (.resolve phase) =>
          !phase.dropsNew configuration.shared &&
            phase.deletesNext.all fun orphaned =>
              configuration.shared.deletable
                (readBy logout configuration ++ orphaned)
      | some (.logout request) =>
          request.phase ≠ .deleting ||
            configuration.shared.deletable request.read.toList
      | none => true
  | _ => true

def working (timings : Timings) : Program World Call StepInput Expiry :=
  (sessions timings).restrict Call.works

section Spent

/-- The refresh has consumed the token it presented, or has brought no new
one. -/
def Attempt.Spent (world : World) (attempt : Attempt) : Prop :=
  attempt.token ∈ world.consumed ∨ attempt.newRefreshToken = []

def Phase.Spent (world : World) : Phase → Prop
  | .writing attempt => attempt.Spent world
  | .readingWinner attempt => attempt.Spent world
  | .rewriting attempt rev =>
      attempt.Spent world ∧ rev = attempt.fresh.rev
  | _ => True

def Call.Spent (world : World) : Call → Prop
  | .resolve phase => phase.Spent world
  | .logout _ => True

variable {id : Nat} {world after : World}

theorem Attempt.Spent.grows {attempt : Attempt} (grows : world.Grows after)
    (spent : attempt.Spent world) : attempt.Spent after := by
  rcases spent with consumed | nothing
  · exact .inl (grows.consumed consumed)
  · exact .inr nothing

theorem Call.Spent.grows {call : Call} (grows : world.Grows after)
    (spent : call.Spent world) : call.Spent after := by
  cases call with
  | logout request => trivial
  | resolve phase =>
      have spent : phase.Spent world := spent
      show phase.Spent after
      cases phase with
      | writing attempt => exact Attempt.Spent.grows grows spent
      | readingWinner attempt => exact Attempt.Spent.grows grows spent
      | rewriting attempt rev =>
          exact ⟨Attempt.Spent.grows grows spent.1, spent.2⟩
      | _ => trivial

/-- A response without a new token. -/
theorem Attempt.newRefreshToken_of_repeated {attempt : Attempt}
    (repeated : attempt.tokens.refreshToken.all (· = attempt.token) = true) :
    attempt.newRefreshToken = [] := by
  unfold newRefreshToken
  split
  case h_1 => rfl
  case h_2 new isNew =>
    rw [isNew] at repeated
    exact if_pos (by simpa using repeated)

/-- Without a new token the record keeps the presented one. -/
theorem Attempt.Sound.keeps_token {attempt : Attempt}
    (sound : attempt.Sound world) (nothing : attempt.newRefreshToken = []) :
    attempt.next.refreshToken = some attempt.token := by
  rw [sound.next]
  unfold Attempt.newRefreshToken at nothing
  split at nothing
  case h_1 absent =>
    rw [absent]
    rfl
  case h_2 new isNew =>
    split at nothing
    case isTrue same =>
      rw [isNew, same]
      rfl
    case isFalse => cases nothing

namespace Phase

variable {timings : Timings} {input : StepInput} {next : Phase}

theorem spent_of_waits {phase : Phase} (waits : phase.holds = false) :
    phase.Spent world := by
  cases phase with
  | writing => cases waits
  | readingWinner => cases waits
  | rewriting => cases waits
  | _ => trivial

theorem refreshStep_spent {fresh : SessionRecord} {token : String}
    (stepped : refreshStep timings id world input fresh token =
      some (after, next)) : next.Spent after := by
  unfold refreshStep at stepped
  split at stepped
  case h_1 =>
    cases stepped
    trivial
  case h_2 =>
    cases stepped
    trivial
  case h_3 tokens answer =>
    split at stepped
    case h_1 => cases stepped
    case h_2 changed accepted =>
      split at stepped
      case isTrue =>
        cases stepped
        trivial
      case isFalse =>
        cases stepped
        obtain ⟨_, ⟨repeated, rfl⟩ | ⟨new, isNew, different, _, rfl⟩⟩ :=
          World.accepts_cases accepted
        · exact .inr (Attempt.newRefreshToken_of_repeated repeated)
        · exact .inl (List.mem_append_right _ List.mem_cons_self)

/-- What a call knows of its attempt after its own step. -/
theorem step_spent {phase : Phase} (spent : phase.Spent world)
    (stepped : phase.step timings id world input = some (after, next)) :
    next.Spent after := by
  cases holds : phase.holds with
  | false =>
      obtain ⟨_, _, lock⟩ := Phase.step_bystander holds stepped
      rcases lock with ⟨quiet, _⟩ | ⟨rfl, _, _⟩
      · exact spent_of_waits quiet
      · trivial
  | true =>
      suffices result : (after, next).2.Spent (after, next).1 from result
      cases phase with
      | rechecking =>
          rw [← Option.some.inj stepped]
          split
          case isTrue => trivial
          case isFalse =>
            unfold recheckStep
            repeat' split
            all_goals trivial
      | refreshing fresh token => exact refreshStep_spent stepped
      | writing attempt =>
          rw [← Option.some.inj stepped]
          split
          case isTrue => trivial
          case isFalse =>
            unfold writeStep
            split
            · trivial
            · exact spent
      | readingWinner attempt =>
          rw [← Option.some.inj stepped]
          split
          case isTrue => trivial
          case isFalse =>
            unfold readWinnerStep
            split
            case h_1 => trivial
            case h_2 winner _ =>
              split
              case isTrue => trivial
              case isFalse same => exact ⟨spent, not_not.mp same⟩
      | rewriting attempt rev =>
          rw [← Option.some.inj stepped]
          split
          case isTrue => trivial
          case isFalse =>
            unfold rewriteStep
            split
            all_goals trivial
      | deleting reason orphaned result =>
          rw [← Option.some.inj stepped]
          split
          all_goals trivial
      | releasing orphaned result =>
          rw [← Option.some.inj stepped]
          apply spent_of_waits
          show (released orphaned result).holds = false
          unfold released
          split
          all_goals rfl
      | _ => cases holds

end Phase

end Spent

section Owed

variable {id : Nat} {world after : World}

theorem World.deletable_cases {revoking : List String} {held : String}
    (deletable : world.deletable revoking = true)
    (isHeld : world.storedToken = some held) :
    held ∈ revoking ∨ held ∈ world.consumed ∨ held ∈ world.revoked := by
  simp only [World.deletable, isHeld, Option.all_some, Bool.or_eq_true,
    decide_eq_true_eq] at deletable
  rcases deletable with (revoked | consumed) | revoked
  · exact .inl revoked
  · exact .inr (.inl consumed)
  · exact .inr (.inr revoked)

theorem World.releaseLock_cases (world : World) (id : Nat) :
    world.releaseLock id = world ∨
      world.releaseLock id = { world with lock := none } := by
  unfold releaseLock
  split
  · exact .inr rfl
  · exact .inl rfl

theorem World.storedToken_eq_some {held : String}
    (isHeld : world.storedToken = some held) :
    ∃ record, world.stored = some record ∧ record.refreshToken = some held :=
  Option.bind_eq_some_iff.mp isHeld

theorem Attempt.response_of_mem_newRefreshToken {attempt : Attempt}
    {held : String} (member : held ∈ attempt.newRefreshToken) :
    attempt.tokens.refreshToken = some held := by
  unfold newRefreshToken at member
  split at member
  case h_1 => cases member
  case h_2 new isNew =>
    split at member
    case isTrue => cases member
    case isFalse => rw [isNew, List.mem_singleton.mp member]

/-- The call will revoke the token, or write it. -/
def Phase.Owes (held : String) : Phase → Prop
  | .writing attempt => held ∈ attempt.newRefreshToken
  | .readingWinner attempt => held ∈ attempt.newRefreshToken
  | .rewriting attempt _ => held ∈ attempt.newRefreshToken
  | .deleting _ orphaned _ => held ∈ orphaned
  | .releasing orphaned _ => held ∈ orphaned
  | .revoking orphaned _ => held ∈ orphaned
  | _ => False

/-- The token is consumed, revoked, in the store or owed. -/
def World.Covers (world : World) (owes : String → Prop) (held : String) :
    Prop :=
  held ∈ world.consumed ∨ held ∈ world.revoked ∨
    world.storedToken = some held ∨ owes held

/-- What one step of a call does with the tokens; what a delete finds in the store
beside the tokens it will revoke is left open. -/
structure Accounting (world after : World) (phase next : Phase) : Prop where
  owed : ∀ held, phase.Owes held → after.Covers next.Owes held
  stored : ∀ held, world.storedToken = some held →
    after.Covers next.Owes held ∨
      ∃ orphaned, phase.deletesNext = some orphaned ∧ held ∉ orphaned
  issued : ∀ held ∈ after.issued, held ∈ world.issued ∨ next.Owes held

namespace Accounting

variable {timings : Timings} {input : StepInput} {phase next : Phase}

/-- A step of a call that owes nothing and leaves the record. -/
theorem idle (owes : ∀ held, ¬ phase.Owes held)
    (stored : after.stored = world.stored)
    (issued : after.issued = world.issued) :
    Accounting world after phase next where
  owed held isOwed := absurd isOwed (owes held)
  stored held isHeld := by
    refine .inl (.inr (.inr (.inl ?_)))
    unfold World.storedToken
    rw [stored]
    exact isHeld
  issued held member := by
    rw [issued] at member
    exact .inl member

theorem waits (isWaiting : phase.holds = false)
    (stepped : phase.step timings id world input = some (after, next)) :
    Accounting world after phase next := by
  obtain ⟨bystander, stored, _⟩ := Phase.step_bystander isWaiting stepped
  cases phase with
  | expiring =>
      refine ⟨fun _ owes => owes.elim, fun _ _ => .inr ⟨[], rfl, nofun⟩, ?_⟩
      intro held member
      rw [bystander.issued] at member
      exact .inl member
  | revoking orphaned result =>
      cases stepped
      refine ⟨?_, ?_, fun _ member => .inl member⟩
      · intro held isOwed
        exact .inr (.inl (List.mem_append_right _ isOwed))
      · intro held isHeld
        exact .inl (.inr (.inr (.inl isHeld)))
  | rechecking => cases isWaiting
  | refreshing => cases isWaiting
  | writing => cases isWaiting
  | readingWinner => cases isWaiting
  | rewriting => cases isWaiting
  | deleting => cases isWaiting
  | releasing => cases isWaiting
  | _ =>
      rcases stored with impossible | kept
      · cases impossible
      · exact idle (fun _ owes => owes) kept bystander.issued

/-- A step that leaves the world. -/
theorem still (owed : ∀ held, phase.Owes held → next.Owes held) :
    Accounting world world phase next where
  owed held isOwed := .inr (.inr (.inr (owed held isOwed)))
  stored held isHeld := .inl (.inr (.inr (.inl isHeld)))
  issued held member := .inl member

theorem recheck : Accounting world (Phase.recheckStep timings world input).1
    .rechecking (Phase.recheckStep timings world input).2 := by
  unfold Phase.recheckStep
  repeat' split
  all_goals exact still fun _ owes => owes.elim

theorem refresh {fresh : SessionRecord} {presented : String}
    (works : input.answer.isAccepted = true)
    (stepped : Phase.refreshStep timings id world input fresh presented =
      some (after, next)) :
    Accounting world after (.refreshing fresh presented) next := by
  unfold Phase.refreshStep at stepped
  split at stepped
  case h_1 answer =>
    rw [answer] at works
    cases works
  case h_2 answer =>
    rw [answer] at works
    cases works
  case h_3 tokens answer =>
    split at stepped
    case h_1 => cases stepped
    case h_2 changed accepted =>
      obtain ⟨_, ⟨_, rfl⟩ | ⟨new, isNew, different, _, rfl⟩⟩ :=
        World.accepts_cases accepted
      · split at stepped
        all_goals
          cases stepped
          exact idle (fun _ owes => owes) rfl rfl
      · have owesNew : next.Owes new := by
          split at stepped
          case isTrue =>
            cases stepped
            simp [Phase.Owes, mismatchOrphans, isNew, different]
          case isFalse =>
            cases stepped
            simp [Phase.Owes, Attempt.newRefreshToken, isNew, different]
        have isAfter : after = { world with
            issued := world.issued ++ [new]
            consumed := world.consumed ++ [presented]
            refreshes := world.refreshes ++ [⟨id, presented, true⟩] } := by
          split at stepped
          all_goals
            cases stepped
            rfl
        subst isAfter
        refine ⟨fun _ owes => owes.elim, ?_, ?_⟩
        · intro held isHeld
          exact .inl (.inr (.inr (.inl isHeld)))
        · intro held member
          rcases List.mem_append.mp member with old | isLast
          · exact .inl old
          · rw [List.mem_singleton.mp isLast]
            exact .inr owesNew

/-- A write over the record that the refresh was made from. -/
theorem writes {attempt : Attempt} {record : SessionRecord}
    (sound : attempt.Sound world) (spent : attempt.Spent world)
    (found : world.stored.map SessionRecord.rev = some attempt.fresh.rev)
    (written : record.refreshToken = attempt.next.refreshToken)
    (owes : ∀ held, phase.Owes held → held ∈ attempt.newRefreshToken)
    (result : Resolved) :
    Accounting world { world with
      stored := some record
      revs := world.revs ++ [record.rev] } phase (.releasing [] result) := by
  refine ⟨?_, ?_, fun _ member => .inl member⟩
  · intro held isOwed
    have isNext : record.refreshToken = some held := by
      rw [written, sound.next,
        Attempt.response_of_mem_newRefreshToken (owes held isOwed)]
      rfl
    exact .inr (.inr (.inl isNext))
  · intro held isHeld
    obtain ⟨replaced, isStored, isToken⟩ := World.storedToken_eq_some isHeld
    have isFresh : replaced = attempt.fresh := by
      rw [isStored] at found
      exact (sound.seen replaced isStored).2 (Option.some.inj found)
    rw [isFresh, sound.presented] at isToken
    cases isToken
    rcases spent with consumed | nothing
    · exact .inl (.inl consumed)
    · have kept : record.refreshToken = some attempt.token :=
        written.trans (sound.keeps_token nothing)
      exact .inl (.inr (.inr (.inl kept)))

theorem write {attempt : Attempt} (sound : attempt.Sound world)
    (spent : attempt.Spent world) :
    Accounting world (Phase.writeStep world attempt).1 (.writing attempt)
      (Phase.writeStep world attempt).2 := by
  unfold Phase.writeStep
  rcases Phase.set_cases world attempt.next attempt.fresh.rev with
    ⟨found, written⟩ | ⟨_, kept⟩
  · rw [written]
    refine writes sound spent found rfl ?_ _
    intro held isOwed
    exact isOwed
  · rw [kept]
    exact still fun _ owes => owes

theorem readWinner {attempt : Attempt}
    (keeps : (Phase.readingWinner attempt).dropsNew world = false) :
    Accounting world (Phase.readWinnerStep world attempt).1
      (.readingWinner attempt) (Phase.readWinnerStep world attempt).2 := by
  unfold Phase.readWinnerStep
  split
  case h_1 => exact still fun _ owes => owes
  case h_2 winner isStored =>
    split
    case isTrue moved =>
      apply still
      intro held isOwed
      have isOwed : held ∈ attempt.newRefreshToken := isOwed
      simp [Phase.dropsNew, isStored, moved] at keeps
      rw [keeps] at isOwed
      cases isOwed
    case isFalse => exact still fun _ owes => owes

theorem rewrite {attempt : Attempt} (sound : attempt.Sound world)
    (spent : attempt.Spent world) :
    Accounting world (Phase.rewriteStep world attempt attempt.fresh.rev).1
      (.rewriting attempt attempt.fresh.rev)
      (Phase.rewriteStep world attempt attempt.fresh.rev).2 := by
  unfold Phase.rewriteStep
  rcases Phase.set_cases world (attempt.rewritten attempt.fresh.rev)
    attempt.fresh.rev with ⟨found, written⟩ | ⟨_, kept⟩
  · have same : (attempt.rewritten attempt.fresh.rev).refreshToken =
        attempt.next.refreshToken := rfl
    rw [written]
    refine writes sound spent found same ?_ _
    intro held isOwed
    exact isOwed
  · rw [kept]
    exact still fun _ isOwed => List.mem_append_left _ isOwed

theorem delete {reason : DeleteReason} {orphaned : List String}
    {result : Resolved} :
    Accounting world world.delete (.deleting reason orphaned result)
      (.releasing orphaned result) := by
  refine ⟨?_, ?_, fun _ member => .inl member⟩
  · intro held isOwed
    exact .inr (.inr (.inr isOwed))
  · intro held isHeld
    by_cases revoked : held ∈ orphaned
    · exact .inl (.inr (.inr (.inr revoked)))
    · exact .inr ⟨orphaned, rfl, revoked⟩

theorem release {orphaned : List String} {result : Resolved} :
    Accounting world (world.releaseLock id) (.releasing orphaned result)
      (Phase.released orphaned result) := by
  have owed (held : String) (isOwed : held ∈ orphaned) :
      (Phase.released orphaned result).Owes held := by
    unfold Phase.released
    rw [if_neg (List.ne_nil_of_mem isOwed)]
    exact isOwed
  rcases World.releaseLock_cases world id with kept | freed
  · rw [kept]
    exact still owed
  · rw [freed]
    refine ⟨?_, ?_, fun _ member => .inl member⟩
    · intro held isOwed
      exact .inr (.inr (.inr (owed held isOwed)))
    · intro held isHeld
      exact .inl (.inr (.inr (.inl isHeld)))

/-- What one step of a call does with the tokens. -/
theorem step (sound : phase.Sound id world) (spent : phase.Spent world)
    (works : Call.works (.resolve phase) input = true)
    (keeps : phase.dropsNew world = false)
    (stepped : phase.step timings id world input = some (after, next)) :
    Accounting world after phase next := by
  cases holds : phase.holds with
  | false => exact waits holds stepped
  | true =>
      suffices result : Accounting world (after, next).1 phase (after, next).2
        from result
      cases phase with
      | rechecking =>
          have acts : ¬ input.fails = true := by simpa [Call.works] using works
          rw [← Option.some.inj stepped, if_neg acts]
          exact recheck
      | refreshing fresh presented => exact refresh works stepped
      | writing attempt =>
          have acts : ¬ input.fails = true := by simpa [Call.works] using works
          rw [← Option.some.inj stepped, if_neg acts]
          exact write sound spent
      | readingWinner attempt =>
          have acts : ¬ input.fails = true := by simpa [Call.works] using works
          rw [← Option.some.inj stepped, if_neg acts]
          exact readWinner keeps
      | rewriting attempt rev =>
          have acts : ¬ input.fails = true := by simpa [Call.works] using works
          obtain ⟨spent, isRev⟩ : attempt.Spent world ∧
            rev = attempt.fresh.rev := spent
          rw [← Option.some.inj stepped, if_neg acts, isRev]
          exact rewrite sound spent
      | deleting reason orphaned result =>
          have acts : ¬ input.fails = true := by simpa [Call.works] using works
          rw [← Option.some.inj stepped, if_neg acts]
          exact delete
      | releasing orphaned result =>
          have acts : ¬ input.fails = true := by simpa [Call.works] using works
          rw [← Option.some.inj stepped, if_neg acts]
          exact release
      | _ => cases holds

end Accounting

/-- The logout will revoke the token it has read. -/
def Logout.Owes (held : String) (logout : Logout) : Prop :=
  logout.read = some held ∧
    (logout.phase = .deleting ∨ ∃ result, logout.phase = .revoking result)

def Call.Owes (held : String) : Call → Prop
  | .resolve phase => phase.Owes held
  | .logout request => request.Owes held

/-- What holds of a logout: past its delete the record is gone, and at its end the
token it has read is revoked. -/
def Logout.Told (world : World) (logout : Logout) : Prop :=
  match logout.phase with
  | .reading => logout.read = none
  | .deleting => True
  | .revoking _ => world.stored = none
  | .finished _ => world.stored = none ∧
      ∀ held, logout.read = some held → held ∈ world.revoked

def Call.Told (world : World) : Call → Prop
  | .resolve _ => True
  | .logout request => request.Told world

theorem Logout.Told.effect {logout : Logout} (effect : Effect id world after)
    (told : logout.Told world) : logout.Told after := by
  unfold Logout.Told at told ⊢
  split
  case h_1 phase =>
    rw [phase] at told
    exact told
  case h_2 => trivial
  case h_3 phase =>
    rw [phase] at told
    exact effect.absent told
  case h_4 phase =>
    rw [phase] at told
    refine ⟨effect.absent told.1, ?_⟩
    intro held isRead
    exact effect.grows.revoked (told.2 held isRead)

theorem Logout.Told.step {input : StepInput} {logout next : Logout}
    (told : logout.Told world) (acts : input.fails = false)
    (stepped : logout.step world input = some (after, next)) :
    next.Told after := by
  cases phase : logout.phase with
  | reading =>
      simp only [Logout.step, phase] at stepped
      cases stepped
      trivial
  | deleting =>
      simp only [Logout.step, phase, acts, Bool.false_eq_true,
        ↓reduceIte] at stepped
      cases stepped
      unfold Logout.ends
      by_cases found : logout.read.isSome = true
      · rw [if_pos found]
        rfl
      · rw [if_neg found]
        refine ⟨rfl, ?_⟩
        intro held isRead
        rw [isRead] at found
        exact absurd rfl found
  | revoking result =>
      simp only [Logout.step, phase] at stepped
      simp only [Logout.Told, phase] at told
      cases stepped
      refine ⟨told, ?_⟩
      intro held isRead
      apply List.mem_append_right
      rw [isRead]
      exact List.mem_cons_self
  | finished result =>
      simp only [Logout.step, phase] at stepped
      cases stepped

/-- What holds between the steps of a call while nothing fails. -/
structure Call.Knows (id : Nat) (world : World) (call : Call) : Prop where
  sound : call.Sound id world
  spent : call.Spent world
  told : call.Told world

theorem Call.Knows.effect {other : Nat} {call : Call}
    (effect : Effect id world after) (knows : call.Knows other world) :
    call.Knows other after := by
  refine ⟨knows.sound.effect effect, knows.spent.grows effect.grows, ?_⟩
  cases call with
  | resolve phase => trivial
  | logout request =>
      have told : request.Told world := knows.told
      exact told.effect effect

theorem Call.Knows.step {timings : Timings} {input : StepInput}
    {call next : Call} (whole : world.Sound) (knows : call.Knows id world)
    (works : call.works input = true)
    (stepped : call.step timings id world input = some (after, next)) :
    next.Knows id after := by
  refine ⟨(Call.Sound.step whole knows.sound stepped).2, ?_, ?_⟩
  · cases call with
    | resolve phase =>
        obtain ⟨⟨changed, later⟩, phaseStepped, same⟩ :=
          Option.map_eq_some_iff.mp stepped
        cases same
        exact Phase.step_spent knows.spent phaseStepped
    | logout request =>
        obtain ⟨_, _, same⟩ := Option.map_eq_some_iff.mp stepped
        cases same
        trivial
  · cases call with
    | resolve phase =>
        obtain ⟨_, _, same⟩ := Option.map_eq_some_iff.mp stepped
        cases same
        trivial
    | logout request =>
        obtain ⟨⟨changed, later⟩, logoutStepped, same⟩ :=
          Option.map_eq_some_iff.mp stepped
        cases same
        have told : request.Told world := knows.told
        exact told.step (by simpa [Call.works] using works) logoutStepped

theorem knows_outline (timings : Timings) :
    Program.Outline (working timings) World.Sound
      (fun id world call => call.Knows id world) where
  spawned id world call whole starts := by
    refine ⟨(outline timings).spawned id world call whole starts, ?_, ?_⟩
    · cases call with
      | resolve phase =>
          have isStart : phase = .reading := by
            simpa [working, Program.restrict, sessions, Call.starts] using starts
          rw [isStart]
          trivial
      | logout request => trivial
    · cases call with
      | resolve phase => trivial
      | logout request =>
          have isStart : request = .start := by
            simpa [working, Program.restrict, sessions, Call.starts] using starts
          rw [isStart]
          rfl
  own id world call input after next whole knows restricted := by
    obtain ⟨works, stepped⟩ := Program.restrict_step restricted
    obtain ⟨effect, _⟩ := Call.Sound.step whole knows.sound stepped
    exact ⟨effect.sound whole, knows.step whole works stepped⟩
  others id world call input after next other held whole knows restricted _
      kept := by
    obtain ⟨_, stepped⟩ := Program.restrict_step restricted
    obtain ⟨effect, _⟩ := Call.Sound.step whole knows.sound stepped
    exact kept.effect effect
  outside world expiry after whole expired := by
    cases expired
    have effect : Effect 0 world { world with lock := none } := .keeps none
    exact ⟨effect.sound whole, fun _ _ knows => knows.effect effect⟩

/-- A call in progress will revoke the token, or write it. -/
def Owner (configuration : Configuration World Call) (held : String) : Prop :=
  ∃ id call, configuration.process id = some call ∧ call.Owes held

/-- The invariant of a run in which no step gives up a live token. -/
structure Accounted (configuration : Configuration World Call) : Prop where
  knows : Program.Holds World.Sound (fun id world call => call.Knows id world)
    configuration
  owed : ∀ held ∈ configuration.shared.issued,
    configuration.shared.Covers (Owner configuration) held

namespace Accounted

variable {timings : Timings} {configuration : Configuration World Call}
  {call next : Call}

/-- Every token stays accounted for when one call takes a step that accounts for
its own tokens and for the one in the store. -/
theorem owed_set (accounted : Accounted configuration)
    (running : configuration.process id = some call)
    (grows : configuration.shared.Grows after)
    (issued : ∀ held ∈ after.issued,
      held ∈ configuration.shared.issued ∨ next.Owes held)
    (own : ∀ held, call.Owes held → after.Covers next.Owes held)
    (stored : ∀ held, configuration.shared.storedToken = some held →
      after.Covers next.Owes held ∨ held ∈ configuration.shared.revoked ∨
        ∃ other owner, other ≠ id ∧
          configuration.process other = some owner ∧ owner.Owes held) :
    ∀ held ∈ (configuration.set id after next).shared.issued,
      (configuration.set id after next).shared.Covers
        (Owner (configuration.set id after next)) held := by
  have ownOwner (held : String) (isOwed : next.Owes held) :
      Owner (configuration.set id after next) held :=
    ⟨id, next, Configuration.set_process_self _ _ _ _, isOwed⟩
  have fromOwn (held : String) (covers : after.Covers next.Owes held) :
      after.Covers (Owner (configuration.set id after next)) held := by
    rcases covers with consumed | revoked | isStored | isOwed
    · exact .inl consumed
    · exact .inr (.inl revoked)
    · exact .inr (.inr (.inl isStored))
    · exact .inr (.inr (.inr (ownOwner held isOwed)))
  have fromOther (held : String) (other : Nat) (owner : Call)
      (distinct : other ≠ id)
      (isOther : configuration.process other = some owner)
      (isOwed : owner.Owes held) :
      Owner (configuration.set id after next) held := by
    refine ⟨other, owner, ?_, isOwed⟩
    rw [Configuration.set_process_of_ne _ distinct]
    exact isOther
  intro held member
  rcases issued held member with known | isNew
  · rcases accounted.owed held known with
      consumed | revoked | isStored | ⟨other, owner, isOwner, isOwed⟩
    · exact .inl (grows.consumed consumed)
    · exact .inr (.inl (grows.revoked revoked))
    · rcases stored held isStored with
        covers | revoked | ⟨other, owner, distinct, isOther, isOwed⟩
      · exact fromOwn held covers
      · exact .inr (.inl (grows.revoked revoked))
      · exact .inr (.inr (.inr
          (fromOther held other owner distinct isOther isOwed)))
    · by_cases same : other = id
      · rw [same, running] at isOwner
        cases isOwner
        exact fromOwn held (own held isOwed)
      · exact .inr (.inr (.inr
          (fromOther held other owner same isOwner isOwed)))
  · exact .inr (.inr (.inr (ownOwner held isNew)))

/-- The logout that has read a token revokes it, or has done so. -/
theorem read_owed (accounted : Accounted configuration) {logout : Nat}
    {request : Logout} {held : String}
    (running : configuration.process logout = some (.logout request))
    (isRead : request.read = some held) :
    held ∈ configuration.shared.revoked ∨ request.Owes held := by
  have told : request.Told configuration.shared :=
    (accounted.knows.process logout _ running).told
  unfold Logout.Told at told
  split at told
  case h_1 =>
    rw [isRead] at told
    cases told
  case h_2 phase => exact .inr ⟨isRead, .inl phase⟩
  case h_3 result phase => exact .inr ⟨isRead, .inr ⟨result, phase⟩⟩
  case h_4 => exact .inl (told.2 held isRead)

/-- A step of the logout itself. -/
theorem logoutStep {input : StepInput} {request later : Logout}
    (acts : input.fails = false)
    (covered : request.phase = .deleting →
      world.deletable request.read.toList = true)
    (stepped : request.step world input = some (after, later)) :
    after.issued = world.issued ∧
      (∀ held, request.Owes held →
        after.Covers (Call.logout later).Owes held) ∧
      ∀ held, world.storedToken = some held →
        after.Covers (Call.logout later).Owes held := by
  cases phase : request.phase with
  | reading =>
      simp only [Logout.step, phase] at stepped
      cases stepped
      refine ⟨rfl, ?_, fun held isHeld => .inr (.inr (.inl isHeld))⟩
      rintro held ⟨_, impossible | ⟨result, impossible⟩⟩
      · rw [phase] at impossible
        cases impossible
      · rw [phase] at impossible
        cases impossible
  | deleting =>
      simp only [Logout.step, phase, acts, Bool.false_eq_true,
        ↓reduceIte] at stepped
      cases stepped
      have owes (held : String) (isRead : request.read = some held) :
          (Call.logout (request.ends .loggedOut)).Owes held := by
        refine ⟨isRead, .inr ⟨.loggedOut, ?_⟩⟩
        unfold Logout.ends
        exact if_pos (by rw [isRead]; rfl)
      refine ⟨rfl, ?_, ?_⟩
      · intro held isOwed
        exact .inr (.inr (.inr (owes held isOwed.1)))
      · intro held isHeld
        rcases World.deletable_cases (covered phase) isHeld with
          isRead | consumed | revoked
        · have isRead : request.read = some held := by simpa using isRead
          exact .inr (.inr (.inr (owes held isRead)))
        · exact .inl consumed
        · exact .inr (.inl revoked)
  | revoking result =>
      simp only [Logout.step, phase] at stepped
      cases stepped
      refine ⟨rfl, ?_, fun held isHeld => .inr (.inr (.inl isHeld))⟩
      intro held isOwed
      refine .inr (.inl (List.mem_append_right _ ?_))
      rw [isOwed.1]
      exact List.mem_cons_self
  | finished result =>
      simp only [Logout.step, phase] at stepped
      cases stepped

theorem move {after : Configuration World Call}
    {action : Move Call StepInput Expiry} {logout : Nat}
    (accounted : Accounted configuration)
    (keeps : KeepsTokens logout configuration action = true)
    (moved : (working timings).move configuration action = some after) :
    Accounted after := by
  refine ⟨(knows_outline timings).move accounted.knows moved, ?_⟩
  cases Program.move_cases moved with
  | @spawn id initial unused starts =>
      intro held member
      rcases accounted.owed held member with
        consumed | revoked | isStored | ⟨other, owner, isOwner, isOwed⟩
      · exact .inl consumed
      · exact .inr (.inl revoked)
      · exact .inr (.inr (.inl isStored))
      · refine .inr (.inr (.inr ⟨other, owner, ?_, isOwed⟩))
        have distinct : other ≠ id := by
          rintro rfl
          rw [unused] at isOwner
          cases isOwner
        rw [Configuration.set_process_of_ne _ distinct]
        exact isOwner
  | @run id state later input world running restricted =>
      obtain ⟨works, stepped⟩ := Program.restrict_step restricted
      have knows := accounted.knows.process id _ running
      obtain ⟨effect, _⟩ :=
        Call.Sound.step accounted.knows.shared knows.sound stepped
      cases state with
      | resolve phase =>
          obtain ⟨⟨changed, next⟩, phaseStepped, same⟩ :=
            Option.map_eq_some_iff.mp stepped
          cases same
          simp only [KeepsTokens, running, Bool.and_eq_true,
            Bool.not_eq_true'] at keeps
          have step := Accounting.step knows.sound knows.spent works keeps.1
            phaseStepped
          have issued : ∀ held ∈ world.issued,
              held ∈ configuration.shared.issued ∨
                (Call.resolve next).Owes held := step.issued
          apply accounted.owed_set running effect.grows issued step.owed
          intro held isHeld
          rcases step.stored held isHeld with
            covers | ⟨orphaned, isDelete, unowed⟩
          · exact .inl covers
          · -- the delete finds what is revoked, or what the logout has read
            have deletable := keeps.2
            rw [isDelete, Option.all_some] at deletable
            rcases World.deletable_cases deletable isHeld with
              listed | consumed | revoked
            · have isRead : held ∈ readBy logout configuration :=
                (List.mem_append.mp listed).resolve_right unowed
              unfold readBy at isRead
              split at isRead
              case h_1 request isLogout =>
                rcases accounted.read_owed isLogout (by simpa using isRead) with
                  revoked | isOwed
                · exact .inr (.inl revoked)
                · refine .inr (.inr ⟨logout, _, ?_, isLogout, isOwed⟩)
                  rintro rfl
                  rw [running] at isLogout
                  cases isLogout
              case h_2 => cases isRead
            · exact .inl (.inl (effect.grows.consumed consumed))
            · exact .inr (.inl revoked)
      | logout request =>
          obtain ⟨⟨changed, next⟩, logoutStepped, same⟩ :=
            Option.map_eq_some_iff.mp stepped
          cases same
          have acts : input.fails = false := by simpa [Call.works] using works
          have covered : request.phase = .deleting →
              configuration.shared.deletable request.read.toList = true := by
            intro phase
            simpa [KeepsTokens, running, phase] using keeps
          obtain ⟨issued, own, stored⟩ :=
            logoutStep acts covered logoutStepped
          apply accounted.owed_set running effect.grows _ own
          · intro held isHeld
            exact .inl (stored held isHeld)
          · intro held member
            rw [issued] at member
            exact .inl member
  | @outside expiry world expired =>
      cases expired
      exact accounted.owed

theorem start (record : Option SessionRecord) :
    Accounted (.start (.initial record)) := by
  refine ⟨Program.Holds.start (World.initial_sound record), ?_⟩
  intro held member
  have isHeld : record.bind SessionRecord.refreshToken = some held := by
    simpa [World.initial, Configuration.start] using member
  exact .inr (.inr (.inl isHeld))

/-- The invariant holds along every run in which nothing fails and no step gives
up a live token. -/
theorem run {final : Configuration World Call} {logout : Nat}
    {schedule : List (Move Call StepInput Expiry)}
    (accounted : Accounted configuration)
    (run : runFrom (sessions timings).move configuration schedule = some final)
    (works : EveryStep (sessions timings).move
      (fun configuration action =>
        Program.Allows Call.works configuration action = true)
      configuration schedule)
    (keeps : EveryStep (sessions timings).move
      (fun configuration action => KeepsTokens logout configuration action = true)
      configuration schedule) : Accounted final := by
  induction schedule generalizing configuration with
  | nil =>
      cases run
      exact accounted
  | cons action rest ih =>
      obtain ⟨middle, moved, remaining⟩ := runFrom_cons.mp run
      obtain ⟨allowed, laterAllowed⟩ := works
      obtain ⟨kept, laterKept⟩ := keeps
      have next : Accounted middle :=
        accounted.move kept (Program.move_restrict moved allowed)
      exact ih next remaining (laterAllowed middle moved)
        (laterKept middle moved)

end Accounted

end Owed

def Call.isFinished : Call → Bool
  | .resolve (.finished _) => true
  | .logout ⟨_, .finished _⟩ => true
  | _ => false

theorem Call.not_owes_of_isFinished {call : Call} {held : String}
    (finished : call.isFinished = true) : ¬ call.Owes held := by
  cases call with
  | resolve phase =>
      cases phase with
      | finished result => exact id
      | _ => cases finished
  | logout request =>
      rintro ⟨_, phase | ⟨result, phase⟩⟩
      all_goals
        obtain ⟨read, _⟩ := request
        cases phase
        cases finished

/-- In every run of a logout and calls of `resolveSession`, with a provider that
rotates the token or not at each refresh, in which nothing fails and no step
gives up a live token: once all have settled, the session is absent and every
token that is issued and not consumed is revoked. -/
theorem logout_revokes (timings : Timings) (record : Option SessionRecord)
    (logout : Nat) (schedule : List (Move Call StepInput Expiry))
    (final : Configuration World Call)
    (run : runFrom (sessions timings).move (.start (.initial record)) schedule =
      some final)
    (works : EveryStep (sessions timings).move
      (fun configuration action =>
        Program.Allows Call.works configuration action = true)
      (.start (.initial record)) schedule)
    (keeps : EveryStep (sessions timings).move
      (fun configuration action => KeepsTokens logout configuration action = true)
      (.start (.initial record)) schedule)
    (settled : ∀ id call, final.process id = some call →
      call.isFinished = true)
    (loggedOut : ∃ request, final.process logout = some (.logout request)) :
    final.shared.stored = none ∧
      ∀ held ∈ final.shared.issued, held ∉ final.shared.consumed →
        held ∈ final.shared.revoked := by
  have accounted : Accounted final :=
    (Accounted.start record).run run works keeps
  obtain ⟨request, isLogout⟩ := loggedOut
  have absent : final.shared.stored = none := by
    have finished := settled logout _ isLogout
    have told : request.Told final.shared :=
      (accounted.knows.process logout _ isLogout).told
    obtain ⟨read, phase⟩ := request
    cases phase with
    | finished result => exact told.1
    | _ => cases finished
  refine ⟨absent, ?_⟩
  intro held member unconsumed
  rcases accounted.owed held member with
    consumed | revoked | isStored | ⟨id, call, running, isOwed⟩
  · exact absurd consumed unconsumed
  · exact revoked
  · simp [World.storedToken, absent] at isStored
  · exact absurd isOwed (Call.not_owes_of_isFinished (settled id call running))

/-- A call that has refreshed with the token, and has not yet written. -/
def sampleRotation (id : Nat) (now : Int) (new : String) :
    List (Move Call StepInput Expiry) :=
  .spawn id (.resolve .reading) ::
    List.replicate 5 (.run id (sampleStep now new))

/-- The next steps of a call. -/
def sampleSteps (id count : Nat) : List (Move Call StepInput Expiry) :=
  List.replicate count (.run id (sampleStep 60000 ""))

/-- A run over the session of the record. -/
def sampleRun (schedule : List (Move Call StepInput Expiry)) :
    Option (Configuration World Call) :=
  runFrom (sessions ⟨30000, 5000⟩).move (.start (.initial (some sampleRecord)))
    schedule

def sampleFinal (schedule : List (Move Call StepInput Expiry)) :
    Configuration World Call :=
  (sampleRun schedule).getD (.start (.initial none))

theorem sampleRun_eq {schedule : List (Move Call StepInput Expiry)}
    (ends : (sampleRun schedule).isSome = true) :
    sampleRun schedule = some (sampleFinal schedule) := by
  obtain ⟨final, isFinal⟩ := Option.isSome_iff_exists.mp ends
  rw [sampleFinal, isFinal, Option.getD_some]

/-- The calls of a sample run have settled. -/
theorem settled_of_spawned {final : Configuration World Call}
    {schedule : List (Move Call StepInput Expiry)} (ids : List Nat)
    (spawns : ∀ action ∈ schedule,
      (Program.spawned action).all (· ∈ ids) = true)
    (finished : ∀ id ∈ ids, (final.process id).all Call.isFinished = true)
    (run : sampleRun schedule = some final) :
    ∀ id call, final.process id = some call → call.isFinished = true := by
  intro id call running
  by_cases listed : id ∈ ids
  · have found := finished id listed
    rw [running] at found
    exact found
  · have unused : final.process id = none := by
      refine Program.process_of_not_spawned ?_ rfl run
      intro action member isId
      have isListed := spawns action member
      rw [isId, Option.all_some, decide_eq_true_eq] at isListed
      exact listed isListed
    rw [unused] at running
    cases running

/-- The first refresh repeats the token, the second one rotates it; the logout
comes between the second refresh and its write, which then fails. -/
theorem logout_revokes_sample : ∃ final,
    sampleRun (sampleRefresh 0 0 "first" ++ sampleRotation 1 60000 "second" ++
      Move.spawn 2 (.logout .start) :: sampleSteps 2 3 ++ sampleSteps 1 4) =
        some final ∧
    final.shared.issued = ["first", "second"] ∧
    final.shared.stored = none ∧
      ∀ held ∈ final.shared.issued, held ∉ final.shared.consumed →
        held ∈ final.shared.revoked := by
  have run := @sampleRun_eq (sampleRefresh 0 0 "first" ++
    sampleRotation 1 60000 "second" ++ Move.spawn 2 (.logout .start) ::
      sampleSteps 2 3 ++ sampleSteps 1 4) (by decide +kernel)
  refine ⟨_, run, by decide +kernel, ?_⟩
  apply logout_revokes ⟨30000, 5000⟩ _ 2 _ _ run
  · decide +kernel
  · decide +kernel
  · exact settled_of_spawned [0, 1, 2] (by decide) (by decide +kernel) run
  · exact ⟨⟨some "first", .finished .loggedOut⟩, by decide +kernel⟩

/-- The token is live at the end of a run of calls and a logout that have all
settled, in which nothing fails. -/
def MissesToken (schedule : List (Move Call StepInput Expiry)) (logout : Nat)
    (held : String) : Prop :=
  ∃ final, sampleRun schedule = some final ∧
    EveryStep (sessions ⟨30000, 5000⟩).move
      (fun configuration action =>
        Program.Allows Call.works configuration action = true)
      (.start (.initial (some sampleRecord))) schedule ∧
    (∀ id call, final.process id = some call → call.isFinished = true) ∧
    (∃ request, final.process logout = some (.logout request)) ∧
    held ∈ final.shared.issued ∧ held ∉ final.shared.consumed ∧
      held ∉ final.shared.revoked

/-- The write of the new token comes between the read of the logout and its
delete: nobody revokes the new token.  The same happens, with a logout after the
calls, to the new token of a call that loses its write to one whose refresh has
repeated the old token. -/
theorem logout_misses_token :
    MissesToken (sampleRotation 0 0 "second" ++ Move.spawn 1 (.logout .start) ::
        sampleSteps 1 1 ++ sampleSteps 0 2 ++ sampleSteps 1 2) 1 "second" ∧
      MissesToken (sampleRotation 0 0 "first" ++ Move.outside .lock ::
        sampleRotation 1 0 "second" ++ sampleSteps 0 2 ++ sampleSteps 1 3 ++
          .spawn 2 (.logout .start) :: sampleSteps 2 3) 2 "second" := by
  refine ⟨?_, ?_⟩
  · have run := @sampleRun_eq (sampleRotation 0 0 "second" ++
      Move.spawn 1 (.logout .start) :: sampleSteps 1 1 ++ sampleSteps 0 2 ++
        sampleSteps 1 2) (by decide +kernel)
    have settled := settled_of_spawned [0, 1] (by decide) (by decide +kernel) run
    exact ⟨_, run, by decide +kernel, settled,
      ⟨⟨some "first", .finished .loggedOut⟩, by decide +kernel⟩,
      by decide +kernel, by decide +kernel, by decide +kernel⟩
  · have run := @sampleRun_eq (sampleRotation 0 0 "first" ++
      Move.outside .lock :: sampleRotation 1 0 "second" ++ sampleSteps 0 2 ++ sampleSteps 1 3 ++
        Move.spawn 2 (.logout .start) :: sampleSteps 2 3) (by decide +kernel)
    have settled :=
      settled_of_spawned [0, 1, 2] (by decide) (by decide +kernel) run
    exact ⟨_, run, by decide +kernel, settled,
      ⟨⟨some "first", .finished .loggedOut⟩, by decide +kernel⟩,
      by decide +kernel, by decide +kernel, by decide +kernel⟩

end Paigasus.Auth
