import Paigasus.Auth.ResolveSession

/-!
# The refresh is single-flight

Every write raises the rev by one and needs a record that is there, so a record
that was deleted stays away.  While each holder keeps the lock until its
release, only one of them is between its double check and its release, and the
token it presents is the one the store still holds.
-/

namespace Paigasus.Auth

open Foundation

/-- What holds of the session and of the tokens at all times. -/
structure World.Sound (world : World) : Prop where
  ordered : world.revs.Pairwise (· < ·)
  last : ∀ record, world.stored = some record →
    world.revs.getLast? = some record.rev
  callers : ∀ call ∈ world.refreshes, call.caller ∈ world.acquired
  tokens : ∀ record token, world.stored = some record →
    record.refreshToken = some token → token ∈ world.issued
  consumed : ∀ token ∈ world.consumed, token ∈ world.issued
  rotated : ∀ call ∈ world.refreshes, call.rotated = true →
    call.token ∈ world.consumed

/-- What one step of a call does to the world. -/
inductive Effect (id : Nat) (before : World) : World → Prop where
  | keeps (lock : Option Nat) : Effect id before { before with lock }
  | deletes : Effect id before before.delete
  | acquires (free : before.lock = none) :
      Effect id before { before with
        lock := some id
        acquired := before.acquired ++ [id] }
  | writes (record : SessionRecord) (rev : Nat)
      (found : before.stored.map SessionRecord.rev = some rev)
      (next : record.rev = rev + 1)
      (known : ∀ token, record.refreshToken = some token →
        token ∈ before.issued) :
      Effect id before { before with
        stored := some record
        revs := before.revs ++ [record.rev] }
  | refuses (token : String) (holder : id ∈ before.acquired) :
      Effect id before (before.refuses id token)
  | accepts (token : String) (tokens : RefreshedTokens) (after : World)
      (holder : id ∈ before.acquired) (known : token ∈ before.issued)
      (accepted : before.accepts id token tokens = some after) :
      Effect id before after
  | revokes (tokens : List String) : Effect id before (before.revoke tokens)

/-- What a refresh that is accepted changes. -/
theorem World.accepts_cases {world after : World} {caller : Nat}
    {token : String} {tokens : RefreshedTokens}
    (accepted : world.accepts caller token tokens = some after) :
    token ∉ world.consumed ∧
      ((tokens.refreshToken.all (· = token) = true ∧
          after = world.refuses caller token) ∨
        ∃ new, tokens.refreshToken = some new ∧ new ≠ token ∧
          new ∉ world.issued ∧
          after = { world with
            issued := world.issued ++ [new]
            consumed := world.consumed ++ [token]
            refreshes := world.refreshes ++ [⟨caller, token, true⟩] }) := by
  unfold accepts at accepted
  split at accepted
  case isTrue => cases accepted
  case isFalse fresh =>
    refine ⟨fresh, ?_⟩
    split at accepted
    case h_1 absent =>
      cases accepted
      exact .inl ⟨by simp [absent], rfl⟩
    case h_2 new present =>
      split at accepted
      case isTrue same =>
        cases accepted
        exact .inl ⟨by simp [present, same], rfl⟩
      case isFalse different =>
        split at accepted
        case isTrue => cases accepted
        case isFalse unissued =>
          cases accepted
          exact .inr ⟨new, present, different, unissued, rfl⟩

variable {id : Nat} {before after : World}

/-- The histories only grow. -/
structure World.Grows (before after : World) : Prop where
  issued : before.issued ⊆ after.issued
  consumed : before.consumed ⊆ after.consumed
  revoked : before.revoked ⊆ after.revoked
  acquired : before.acquired ⊆ after.acquired

theorem World.grows_of_eq (issued : after.issued = before.issued)
    (consumed : after.consumed = before.consumed)
    (revoked : after.revoked = before.revoked)
    (acquired : after.acquired = before.acquired) : before.Grows after := by
  refine ⟨?_, ?_, ?_, ?_⟩
  · rw [issued]
    exact List.Subset.refl _
  · rw [consumed]
    exact List.Subset.refl _
  · rw [revoked]
    exact List.Subset.refl _
  · rw [acquired]
    exact List.Subset.refl _

theorem Effect.grows (effect : Effect id before after) :
    before.Grows after := by
  cases effect with
  | keeps lock => exact World.grows_of_eq rfl rfl rfl rfl
  | deletes => exact World.grows_of_eq rfl rfl rfl rfl
  | acquires free =>
      refine ⟨List.Subset.refl _, List.Subset.refl _, List.Subset.refl _, ?_⟩
      exact List.subset_append_left _ _
  | writes record rev found next known => exact World.grows_of_eq rfl rfl rfl rfl
  | refuses token holder => exact World.grows_of_eq rfl rfl rfl rfl
  | accepts token tokens after holder known accepted =>
      obtain ⟨_, ⟨_, rfl⟩ | ⟨new, _, _, _, rfl⟩⟩ :=
        World.accepts_cases accepted
      · exact World.grows_of_eq rfl rfl rfl rfl
      · refine ⟨?_, ?_, List.Subset.refl _, List.Subset.refl _⟩
        · exact List.subset_append_left _ _
        · exact List.subset_append_left _ _
  | revokes tokens =>
      refine ⟨List.Subset.refl _, List.Subset.refl _, ?_, List.Subset.refl _⟩
      exact List.subset_append_left _ _

theorem World.Sound.refuses {world : World} {token : String}
    (sound : world.Sound) (holder : id ∈ world.acquired) :
    (world.refuses id token).Sound where
  ordered := sound.ordered
  last := sound.last
  callers call member := by
    rcases List.mem_append.mp member with old | new
    · exact sound.callers call old
    · cases List.mem_singleton.mp new
      exact holder
  tokens := sound.tokens
  consumed := sound.consumed
  rotated call member isRotated := by
    rcases List.mem_append.mp member with old | new
    · exact sound.rotated call old isRotated
    · cases List.mem_singleton.mp new
      cases isRotated

theorem Effect.sound (effect : Effect id before after) (sound : before.Sound) :
    after.Sound := by
  cases effect with
  | keeps lock =>
      exact ⟨sound.ordered, sound.last, sound.callers, sound.tokens,
        sound.consumed, sound.rotated⟩
  | deletes =>
      exact ⟨sound.ordered, nofun, sound.callers, nofun, sound.consumed,
        sound.rotated⟩
  | acquires free =>
      refine ⟨sound.ordered, sound.last, ?_, sound.tokens, sound.consumed,
        sound.rotated⟩
      intro call member
      exact List.mem_append_left _ (sound.callers call member)
  | writes record rev found next known =>
      refine ⟨?_, ?_, sound.callers, ?_, sound.consumed, sound.rotated⟩
      · obtain ⟨replaced, isReplaced, isRev⟩ := Option.map_eq_some_iff.mp found
        apply List.pairwise_append.mpr
        refine ⟨sound.ordered, List.pairwise_singleton _ _, ?_⟩
        intro earlier member new isNew
        cases List.mem_singleton.mp isNew
        have isLast := sound.last replaced isReplaced
        have atMost : earlier ≤ rev := by
          rw [← isRev]
          obtain ⟨init, revs⟩ := List.getLast?_eq_some_iff.mp isLast
          have ordered := sound.ordered
          rw [revs] at ordered member
          rcases List.mem_append.mp member with old | same
          · apply Nat.le_of_lt
            exact (List.pairwise_append.mp ordered).2.2 earlier old _
              List.mem_cons_self
          · exact Nat.le_of_eq (List.mem_singleton.mp same)
        omega
      · rintro found ⟨⟩
        exact List.getLast?_concat
      · rintro found token ⟨⟩ isToken
        exact known token isToken
  | refuses token holder => exact sound.refuses holder
  | accepts token tokens after holder known accepted =>
      obtain ⟨_, ⟨_, rfl⟩ | ⟨new, _, _, _, rfl⟩⟩ :=
        World.accepts_cases accepted
      · exact sound.refuses holder
      · refine ⟨sound.ordered, sound.last, ?_, ?_, ?_, ?_⟩
        · intro call member
          rcases List.mem_append.mp member with old | new
          · exact sound.callers call old
          · cases List.mem_singleton.mp new
            exact holder
        · intro record held isStored isToken
          exact List.mem_append_left _
            (sound.tokens record held isStored isToken)
        · intro held member
          rcases List.mem_append.mp member with old | new
          · exact List.mem_append_left _ (sound.consumed held old)
          · cases List.mem_singleton.mp new
            exact List.mem_append_left _ known
        · intro call member isRotated
          rcases List.mem_append.mp member with old | new
          · exact List.mem_append_left _ (sound.rotated call old isRotated)
          · cases List.mem_singleton.mp new
            exact List.mem_append_right _ List.mem_cons_self
  | revokes tokens =>
      exact ⟨sound.ordered, sound.last, sound.callers, sound.tokens,
        sound.consumed, sound.rotated⟩

/-- A record that was read: the store holds it, or has gone on to a later rev, or
is empty. -/
def World.Seen (world : World) (fresh : SessionRecord) : Prop :=
  ∀ record, world.stored = some record →
    fresh.rev ≤ record.rev ∧ (record.rev = fresh.rev → record = fresh)

theorem Effect.seen {fresh : SessionRecord} (effect : Effect id before after)
    (seen : before.Seen fresh) : after.Seen fresh := by
  cases effect with
  | keeps lock => exact seen
  | deletes => exact nofun
  | acquires free => exact seen
  | writes record rev found next known =>
      rintro written ⟨⟩
      obtain ⟨replaced, isReplaced, rfl⟩ := Option.map_eq_some_iff.mp found
      have grown := (seen replaced isReplaced).1
      refine ⟨by omega, ?_⟩
      intro same
      omega
  | refuses token holder => exact seen
  | accepts token tokens after holder known accepted =>
      obtain ⟨_, ⟨_, rfl⟩ | ⟨new, _, _, _, rfl⟩⟩ :=
        World.accepts_cases accepted
      · exact seen
      · exact seen
  | revokes tokens => exact seen

/-- What holds of an accepted refresh. -/
structure Attempt.Sound (world : World) (attempt : Attempt) : Prop where
  rev : attempt.next.rev = attempt.fresh.rev + 1
  presented : attempt.fresh.refreshToken = some attempt.token
  next : attempt.next.refreshToken =
    attempt.tokens.refreshToken.or (some attempt.token)
  known : ∀ token, attempt.next.refreshToken = some token →
    token ∈ world.issued
  seen : world.Seen attempt.fresh

/-- What holds of a call between its steps. -/
def Phase.Sound (id : Nat) (world : World) : Phase → Prop
  | .rechecking => id ∈ world.acquired
  | .refreshing fresh token =>
      id ∈ world.acquired ∧ fresh.refreshToken = some token ∧
        token ∈ world.issued ∧ world.Seen fresh
  | .writing attempt => attempt.Sound world
  | .readingWinner attempt => attempt.Sound world
  | .rewriting attempt _ => attempt.Sound world
  | _ => True

theorem Attempt.Sound.effect {attempt : Attempt}
    (effect : Effect id before after) (sound : attempt.Sound before) :
    attempt.Sound after where
  rev := sound.rev
  presented := sound.presented
  next := sound.next
  known token isToken := effect.grows.issued (sound.known token isToken)
  seen := effect.seen sound.seen

/-- What holds of a call survives the steps of the others. -/
theorem Phase.Sound.effect {other : Nat} {phase : Phase}
    (effect : Effect id before after) (sound : phase.Sound other before) :
    phase.Sound other after := by
  cases phase with
  | rechecking => exact effect.grows.acquired sound
  | refreshing fresh token =>
      obtain ⟨holder, presented, known, seen⟩ := sound
      exact ⟨effect.grows.acquired holder, presented,
        effect.grows.issued known, effect.seen seen⟩
  | writing attempt => exact Attempt.Sound.effect effect sound
  | readingWinner attempt => exact Attempt.Sound.effect effect sound
  | rewriting attempt rev => exact Attempt.Sound.effect effect sound
  | _ => trivial

namespace Phase

variable {timings : Timings} {world : World} {input : StepInput}

theorem recheckStep_sound (timings : Timings) (input : StepInput)
    (sound : world.Sound) (holder : id ∈ world.acquired) :
    (recheckStep timings world input).1 = world ∧
      (recheckStep timings world input).2.Sound id world := by
  unfold recheckStep
  split
  case h_1 => exact ⟨rfl, trivial⟩
  case h_2 fresh isFresh =>
    split
    case isTrue => exact ⟨rfl, trivial⟩
    case isFalse =>
      split
      case isTrue => exact ⟨rfl, trivial⟩
      case isFalse =>
        split
        case h_1 => exact ⟨rfl, trivial⟩
        case h_2 token isToken =>
          refine ⟨rfl, holder, isToken, ?_, ?_⟩
          · exact sound.tokens fresh token isFresh isToken
          · intro record isRecord
            rw [isFresh] at isRecord
            cases isRecord
            exact ⟨Nat.le_refl _, fun _ => rfl⟩

/-- An accepted refresh makes a sound attempt. -/
theorem accepted_sound {after : World} {fresh : SessionRecord} {token : String}
    {tokens : RefreshedTokens} (presented : fresh.refreshToken = some token)
    (known : token ∈ world.issued) (seen : world.Seen fresh)
    (holder : id ∈ world.acquired)
    (accepted : world.accepts id token tokens = some after) :
    Attempt.Sound after ⟨fresh, token, tokens,
      nextRecord timings fresh tokens input.now⟩ := by
  have effect : Effect id world after :=
    .accepts token tokens after holder known accepted
  refine ⟨rfl, presented, ?_, ?_, effect.seen seen⟩
  · simp [nextRecord, presented]
  · intro held isHeld
    simp only [nextRecord, presented] at isHeld
    obtain ⟨_, ⟨same, rfl⟩ | ⟨new, isNew, _, _, rfl⟩⟩ :=
      World.accepts_cases accepted
    · cases response : tokens.refreshToken with
      | none =>
          rw [response] at isHeld
          cases isHeld
          exact known
      | some repeated =>
          rw [response] at isHeld same
          cases isHeld
          have isSame : held = token := by simpa using same
          rw [isSame]
          exact known
    · rw [isNew] at isHeld
      cases isHeld
      exact List.mem_append_right _ List.mem_cons_self

theorem refreshStep_sound {after : World} {next : Phase}
    {fresh : SessionRecord} {token : String}
    (sound : (Phase.refreshing fresh token).Sound id world)
    (stepped : refreshStep timings id world input fresh token =
      some (after, next)) :
    Effect id world after ∧ next.Sound id after := by
  obtain ⟨holder, presented, known, seen⟩ := sound
  unfold refreshStep at stepped
  split at stepped
  case h_1 =>
    cases stepped
    exact ⟨.refuses token holder, trivial⟩
  case h_2 =>
    cases stepped
    exact ⟨.refuses token holder, trivial⟩
  case h_3 tokens answer =>
    split at stepped
    case h_1 => cases stepped
    case h_2 changed accepted =>
      have effect : Effect id world changed :=
        .accepts token tokens changed holder known accepted
      split at stepped
      case isTrue =>
        cases stepped
        exact ⟨effect, trivial⟩
      case isFalse =>
        cases stepped
        exact ⟨effect, accepted_sound presented known seen holder accepted⟩

/-- A write that took effect, by the rev that was expected. -/
theorem set_cases (world : World) (record : SessionRecord) (rev : Nat) :
    (world.stored.map SessionRecord.rev = some rev ∧
        world.set record rev = ({ world with
          stored := some record
          revs := world.revs ++ [record.rev] }, true)) ∨
      (world.stored.map SessionRecord.rev ≠ some rev ∧
        world.set record rev = (world, false)) := by
  unfold World.set
  split
  case isTrue found => exact .inl ⟨found, rfl⟩
  case isFalse moved => exact .inr ⟨moved, rfl⟩

theorem writeStep_sound {attempt : Attempt} (sound : attempt.Sound world) :
    Effect id world (writeStep world attempt).1 ∧
      (writeStep world attempt).2.Sound id (writeStep world attempt).1 := by
  unfold writeStep
  rcases set_cases world attempt.next attempt.fresh.rev with
    ⟨found, written⟩ | ⟨_, kept⟩
  · rw [written]
    exact ⟨.writes attempt.next attempt.fresh.rev found sound.rev sound.known,
      trivial⟩
  · rw [kept]
    exact ⟨.keeps world.lock, sound⟩

theorem rewriteStep_sound {attempt : Attempt} {rev : Nat}
    (sound : attempt.Sound world) :
    Effect id world (rewriteStep world attempt rev).1 ∧
      (rewriteStep world attempt rev).2.Sound id
        (rewriteStep world attempt rev).1 := by
  unfold rewriteStep
  rcases set_cases world (attempt.rewritten rev) rev with
    ⟨found, written⟩ | ⟨_, kept⟩
  · rw [written]
    exact ⟨.writes _ rev found rfl sound.known, trivial⟩
  · rw [kept]
    exact ⟨.keeps world.lock, trivial⟩

theorem readWinnerStep_sound {attempt : Attempt} (sound : attempt.Sound world) :
    Effect id world (readWinnerStep world attempt).1 ∧
      (readWinnerStep world attempt).2.Sound id
        (readWinnerStep world attempt).1 := by
  unfold readWinnerStep
  split
  case h_1 => exact ⟨.keeps world.lock, trivial⟩
  case h_2 =>
    split
    case isTrue => exact ⟨.keeps world.lock, trivial⟩
    case isFalse => exact ⟨.keeps world.lock, sound⟩

theorem lockStep_sound {deadline : Int} :
    Effect id world (lockStep id world input deadline).1 ∧
      (lockStep id world input deadline).2.Sound id
        (lockStep id world input deadline).1 := by
  unfold lockStep World.tryAcquireLock
  cases free : world.lock with
  | some holder =>
      dsimp only
      split
      all_goals exact ⟨.keeps world.lock, trivial⟩
  | none =>
      refine ⟨.acquires free, ?_⟩
      exact List.mem_append_right _ List.mem_cons_self

/-- What one step of a call does, and what holds of it then. -/
theorem Sound.step {phase next : Phase} {after : World} (whole : world.Sound)
    (sound : phase.Sound id world)
    (stepped : phase.step timings id world input = some (after, next)) :
    Effect id world after ∧ next.Sound id after := by
  suffices result : Effect id world (after, next).1 ∧
      (after, next).2.Sound id (after, next).1 from result
  have same : Effect id world world := .keeps world.lock
  cases phase with
  | reading =>
      rw [← Option.some.inj stepped]
      split
      case isTrue => exact ⟨same, trivial⟩
      case isFalse =>
        unfold readStep
        repeat' split
        all_goals exact ⟨same, trivial⟩
  | expiring =>
      rw [← Option.some.inj stepped]
      split
      case isTrue => exact ⟨same, trivial⟩
      case isFalse => exact ⟨.deletes, trivial⟩
  | preparing =>
      rw [← Option.some.inj stepped]
      refine ⟨same, ?_⟩
      dsimp only
      split
      all_goals trivial
  | rereadingUnprepared =>
      rw [← Option.some.inj stepped]
      split
      case isTrue => exact ⟨same, trivial⟩
      case isFalse =>
        unfold rereadUnpreparedStep
        repeat' split
        all_goals exact ⟨same, trivial⟩
  | locking deadline =>
      rw [← Option.some.inj stepped]
      split
      case isTrue => exact ⟨same, trivial⟩
      case isFalse => exact lockStep_sound
  | readingLast =>
      rw [← Option.some.inj stepped]
      split
      case isTrue => exact ⟨same, trivial⟩
      case isFalse =>
        unfold readLastStep
        repeat' split
        all_goals exact ⟨same, trivial⟩
  | sleeping deadline =>
      rw [← Option.some.inj stepped]
      exact ⟨same, trivial⟩
  | rereading deadline =>
      rw [← Option.some.inj stepped]
      split
      case isTrue => exact ⟨same, trivial⟩
      case isFalse =>
        unfold rereadStep
        repeat' split
        all_goals exact ⟨same, trivial⟩
  | rechecking =>
      rw [← Option.some.inj stepped]
      split
      case isTrue => exact ⟨same, trivial⟩
      case isFalse =>
        obtain ⟨kept, next⟩ := recheckStep_sound timings input whole sound
        rw [kept]
        exact ⟨same, next⟩
  | refreshing fresh token => exact refreshStep_sound sound stepped
  | writing attempt =>
      rw [← Option.some.inj stepped]
      split
      case isTrue => exact ⟨same, trivial⟩
      case isFalse => exact writeStep_sound sound
  | readingWinner attempt =>
      rw [← Option.some.inj stepped]
      split
      case isTrue => exact ⟨same, trivial⟩
      case isFalse => exact readWinnerStep_sound sound
  | rewriting attempt rev =>
      rw [← Option.some.inj stepped]
      split
      case isTrue => exact ⟨same, trivial⟩
      case isFalse => exact rewriteStep_sound sound
  | deleting reason orphaned result =>
      rw [← Option.some.inj stepped]
      split
      case isTrue => exact ⟨same, trivial⟩
      case isFalse => exact ⟨.deletes, trivial⟩
  | releasing orphaned result =>
      rw [← Option.some.inj stepped]
      refine ⟨?_, ?_⟩
      · dsimp only
        split
        · exact same
        · unfold World.releaseLock
          split
          · exact .keeps none
          · exact same
      · unfold released
        by_cases settled : orphaned = []
        · rw [if_pos settled]
          trivial
        · rw [if_neg settled]
          trivial
  | revoking orphaned result =>
      rw [← Option.some.inj stepped]
      exact ⟨.revokes orphaned, trivial⟩
  | finished result => cases stepped

end Phase

theorem Logout.step_effect {world : World} {input : StepInput}
    {logout next : Logout} {after : World}
    (stepped : logout.step world input = some (after, next)) :
    Effect id world after := by
  have same : Effect id world world := .keeps world.lock
  unfold Logout.step at stepped
  split at stepped
  case h_1 =>
    cases stepped
    exact same
  case h_2 =>
    split at stepped
    case isTrue =>
      cases stepped
      exact same
    case isFalse =>
      cases stepped
      exact .deletes
  case h_3 =>
    cases stepped
    exact .revokes _
  case h_4 => cases stepped

/-- What holds of a process between its steps. -/
def Call.Sound (id : Nat) (world : World) : Call → Prop
  | .resolve phase => phase.Sound id world
  | .logout _ => True

theorem Call.Sound.effect {other : Nat} {call : Call}
    (effect : Effect id before after) (sound : call.Sound other before) :
    call.Sound other after := by
  cases call with
  | resolve phase => exact Phase.Sound.effect effect sound
  | logout request => trivial

theorem Call.Sound.step {timings : Timings} {world : World} {input : StepInput}
    {call next : Call} {after : World} (whole : world.Sound)
    (sound : call.Sound id world)
    (stepped : call.step timings id world input = some (after, next)) :
    Effect id world after ∧ next.Sound id after := by
  cases call with
  | resolve phase =>
      obtain ⟨⟨changed, later⟩, phaseStepped, same⟩ :=
        Option.map_eq_some_iff.mp stepped
      cases same
      exact Phase.Sound.step whole sound phaseStepped
  | logout request =>
      obtain ⟨⟨changed, later⟩, logoutStepped, same⟩ :=
        Option.map_eq_some_iff.mp stepped
      cases same
      exact ⟨Logout.step_effect logoutStepped, trivial⟩

theorem outline (timings : Timings) :
    Program.Outline (sessions timings) World.Sound
      (fun id world call => call.Sound id world) where
  spawned id world call _ starts := by
    cases call with
    | resolve phase =>
        have isStart : phase = .reading := by
          simpa [sessions, Call.starts] using starts
        rw [isStart]
        trivial
    | logout request => trivial
  own id world call input after next whole sound stepped := by
    obtain ⟨effect, kept⟩ := Call.Sound.step whole sound stepped
    exact ⟨effect.sound whole, kept⟩
  others id world call input after next other held whole sound stepped _ kept :=
    by
    obtain ⟨effect, _⟩ := Call.Sound.step whole sound stepped
    exact Call.Sound.effect effect kept
  outside world expiry after whole expired := by
    have effect : Effect 0 world after := by
      cases expired
      exact .keeps none
    exact ⟨effect.sound whole, fun _ _ sound => Call.Sound.effect effect sound⟩

theorem World.initial_sound (record : Option SessionRecord) :
    (World.initial record).Sound := by
  refine ⟨?_, ?_, nofun, ?_, nofun, nofun⟩
  · cases record with
    | none => exact .nil
    | some found => exact List.pairwise_singleton _ _
  · rintro found rfl
    rfl
  · rintro found token rfl isToken
    have isInitial : (some found).bind SessionRecord.refreshToken = some token :=
      isToken
    simp [World.initial, isInitial]

/-- A record that is gone stays away. -/
theorem Effect.absent (effect : Effect id before after)
    (absent : before.stored = none) : after.stored = none := by
  cases effect with
  | keeps lock => exact absent
  | deletes => rfl
  | acquires free => exact absent
  | writes record rev found next known =>
      rw [absent] at found
      cases found
  | refuses token holder => exact absent
  | accepts token tokens after holder known accepted =>
      obtain ⟨_, ⟨_, rfl⟩ | ⟨new, _, _, _, rfl⟩⟩ :=
        World.accepts_cases accepted
      · exact absent
      · exact absent
  | revokes tokens => exact absent

/-- The states of every run. -/
def Sound (configuration : Configuration World Call) : Prop :=
  Program.Holds World.Sound (fun id world call => call.Sound id world)
    configuration

theorem Sound.start (record : Option SessionRecord) :
    Sound (.start (.initial record)) :=
  Program.Holds.start (World.initial_sound record)

theorem Sound.move {timings : Timings} {configuration next : Configuration World Call}
    {action : Move Call StepInput Expiry} (sound : Sound configuration)
    (moved : (sessions timings).move configuration action = some next) :
    Sound next :=
  (outline timings).move sound moved

theorem Sound.absent {timings : Timings}
    {configuration next : Configuration World Call}
    {action : Move Call StepInput Expiry} (sound : Sound configuration)
    (moved : (sessions timings).move configuration action = some next)
    (absent : configuration.shared.stored = none) :
    next.shared.stored = none := by
  cases Program.move_cases moved with
  | spawn => exact absent
  | run running stepped =>
      obtain ⟨effect, _⟩ :=
        Call.Sound.step sound.shared (sound.process _ _ running) stepped
      exact effect.absent absent
  | outside expired =>
      cases expired
      exact absent

/-- The caller believes that it holds the lock. -/
def Phase.holds : Phase → Bool
  | .rechecking => true
  | .refreshing _ _ => true
  | .writing _ => true
  | .readingWinner _ => true
  | .rewriting _ _ => true
  | .deleting _ _ _ => true
  | .releasing _ _ => true
  | _ => false

/-- The token in the store was not consumed. -/
def World.Unspent (world : World) : Prop :=
  ∀ record token, world.stored = some record →
    record.refreshToken = some token → token ∉ world.consumed

/-- The store holds the record that was read, or is empty. -/
def World.Keeps (world : World) (fresh : SessionRecord) : Prop :=
  world.stored = none ∨ world.stored = some fresh

/-- What the only holder knows. -/
def Phase.Knows (world : World) : Phase → Prop
  | .rechecking => world.Unspent
  | .refreshing fresh token => world.Keeps fresh ∧ token ∉ world.consumed
  | .writing attempt => world.Keeps attempt.fresh ∧
      ∀ token, attempt.next.refreshToken = some token → token ∉ world.consumed
  | .readingWinner _ => world.stored = none
  | .rewriting _ _ => False
  | .releasing _ _ => world.Unspent
  | _ => True

/-- What a step does that is not one of a holder. -/
structure Bystander (id : Nat) (before after : World) : Prop where
  stored : after.stored = before.stored ∨ after.stored = none
  issued : after.issued = before.issued
  consumed : after.consumed = before.consumed
  refreshes : after.refreshes = before.refreshes

theorem Bystander.unspent (bystander : Bystander id before after)
    (unspent : before.Unspent) : after.Unspent := by
  intro record token isStored isToken
  rw [bystander.consumed]
  rcases bystander.stored with same | absent
  · rw [same] at isStored
    exact unspent record token isStored isToken
  · rw [absent] at isStored
    cases isStored

theorem Bystander.keeps {fresh : SessionRecord}
    (bystander : Bystander id before after) (keeps : before.Keeps fresh) :
    after.Keeps fresh := by
  rcases bystander.stored with same | absent
  · unfold World.Keeps
    rw [same]
    exact keeps
  · exact .inl absent

theorem Bystander.knows {phase : Phase} (bystander : Bystander id before after)
    (knows : phase.Knows before) : phase.Knows after := by
  cases phase with
  | rechecking => exact bystander.unspent knows
  | refreshing fresh token =>
      refine ⟨bystander.keeps knows.1, ?_⟩
      rw [bystander.consumed]
      exact knows.2
  | writing attempt =>
      refine ⟨bystander.keeps knows.1, ?_⟩
      rw [bystander.consumed]
      exact knows.2
  | readingWinner attempt =>
      rcases bystander.stored with same | absent
      · exact same.trans knows
      · exact absent
  | rewriting attempt rev => exact knows
  | releasing orphaned result => exact bystander.unspent knows
  | _ => trivial

namespace Phase

variable {timings : Timings} {world after : World} {input : StepInput}
  {phase next : Phase}

/-- What a call does that does not hold the lock. -/
theorem step_bystander (waits : phase.holds = false)
    (stepped : phase.step timings id world input = some (after, next)) :
    Bystander id world after ∧
      (phase = .expiring ∨ after.stored = world.stored) ∧
      ((next.holds = false ∧ after.lock = world.lock) ∨
        (next = .rechecking ∧ world.lock = none ∧ after.lock = some id)) := by
  suffices result : Bystander id world (after, next).1 ∧
      (phase = .expiring ∨ (after, next).1.stored = world.stored) ∧
      (((after, next).2.holds = false ∧ (after, next).1.lock = world.lock) ∨
        ((after, next).2 = .rechecking ∧ world.lock = none ∧
          (after, next).1.lock = some id)) from result
  have same : Bystander id world world := ⟨.inl rfl, rfl, rfl, rfl⟩
  cases phase with
  | reading =>
      rw [← Option.some.inj stepped]
      split
      case isTrue => exact ⟨same, .inr rfl, .inl ⟨rfl, rfl⟩⟩
      case isFalse =>
        unfold readStep
        repeat' split
        all_goals exact ⟨same, .inr rfl, .inl ⟨rfl, rfl⟩⟩
  | expiring =>
      rw [← Option.some.inj stepped]
      split
      case isTrue => exact ⟨same, .inr rfl, .inl ⟨rfl, rfl⟩⟩
      case isFalse => exact ⟨⟨.inr rfl, rfl, rfl, rfl⟩, .inl rfl, .inl ⟨rfl, rfl⟩⟩
  | preparing =>
      rw [← Option.some.inj stepped]
      refine ⟨same, .inr rfl, .inl ⟨?_, rfl⟩⟩
      dsimp only
      split
      all_goals rfl
  | rereadingUnprepared =>
      rw [← Option.some.inj stepped]
      split
      case isTrue => exact ⟨same, .inr rfl, .inl ⟨rfl, rfl⟩⟩
      case isFalse =>
        unfold rereadUnpreparedStep
        repeat' split
        all_goals exact ⟨same, .inr rfl, .inl ⟨rfl, rfl⟩⟩
  | locking deadline =>
      rw [← Option.some.inj stepped]
      split
      case isTrue => exact ⟨same, .inr rfl, .inl ⟨rfl, rfl⟩⟩
      case isFalse =>
        unfold lockStep World.tryAcquireLock
        cases free : world.lock with
        | some holder =>
            dsimp only
            split
            all_goals exact ⟨same, .inr rfl, .inl ⟨rfl, free⟩⟩
        | none => exact ⟨⟨.inl rfl, rfl, rfl, rfl⟩, .inr rfl, .inr ⟨rfl, rfl, rfl⟩⟩
  | readingLast =>
      rw [← Option.some.inj stepped]
      split
      case isTrue => exact ⟨same, .inr rfl, .inl ⟨rfl, rfl⟩⟩
      case isFalse =>
        unfold readLastStep
        repeat' split
        all_goals exact ⟨same, .inr rfl, .inl ⟨rfl, rfl⟩⟩
  | sleeping deadline =>
      rw [← Option.some.inj stepped]
      exact ⟨same, .inr rfl, .inl ⟨rfl, rfl⟩⟩
  | rereading deadline =>
      rw [← Option.some.inj stepped]
      split
      case isTrue => exact ⟨same, .inr rfl, .inl ⟨rfl, rfl⟩⟩
      case isFalse =>
        unfold rereadStep
        repeat' split
        all_goals exact ⟨same, .inr rfl, .inl ⟨rfl, rfl⟩⟩
  | revoking orphaned result =>
      rw [← Option.some.inj stepped]
      exact ⟨⟨.inl rfl, rfl, rfl, rfl⟩, .inr rfl, .inl ⟨rfl, rfl⟩⟩
  | finished result => cases stepped
  | _ => cases waits

/-- The holder knows what it needs, or has settled and released the lock. -/
structure Advances (id : Nat) (world after : World) (next : Phase) : Prop where
  knows : next.Knows after
  ends : (next.holds = true ∧ after.lock = world.lock) ∨
    (next.holds = false ∧ after.Unspent)
  unconsumed : after.refreshes = world.refreshes ∨
    ∃ call, after.refreshes = world.refreshes ++ [call] ∧
      call.token ∉ world.consumed

/-- The provider answers a refresh with a new refresh token, if it accepts. -/
def Rotates (token : String) (answer : RefreshAnswer) : Prop :=
  ∀ tokens, answer = .accepted tokens →
    ∃ new, tokens.refreshToken = some new ∧ new ≠ token

theorem recheckStep_advances (timings : Timings) (input : StepInput)
    (unspent : world.Unspent) :
    Advances id world (recheckStep timings world input).1
      (recheckStep timings world input).2 := by
  unfold recheckStep
  split
  case h_1 => exact ⟨unspent, .inl ⟨rfl, rfl⟩, .inl rfl⟩
  case h_2 fresh isFresh =>
    split
    case isTrue => exact ⟨trivial, .inl ⟨rfl, rfl⟩, .inl rfl⟩
    case isFalse =>
      split
      case isTrue => exact ⟨unspent, .inl ⟨rfl, rfl⟩, .inl rfl⟩
      case isFalse =>
        split
        case h_1 => exact ⟨trivial, .inl ⟨rfl, rfl⟩, .inl rfl⟩
        case h_2 token isToken =>
          refine ⟨⟨.inr isFresh, ?_⟩, .inl ⟨rfl, rfl⟩, .inl rfl⟩
          exact unspent fresh token isFresh isToken

/-- A refresh that was not accepted leaves the token as it was. -/
theorem unspent_of_keeps {fresh : SessionRecord} {token : String}
    (presented : fresh.refreshToken = some token) (keeps : world.Keeps fresh)
    (unconsumed : token ∉ world.consumed) : world.Unspent := by
  intro record held isStored isHeld
  rcases keeps with absent | kept
  · rw [absent] at isStored
    cases isStored
  · rw [kept] at isStored
    cases isStored
    rw [presented] at isHeld
    cases isHeld
    exact unconsumed

theorem refreshStep_advances {fresh : SessionRecord} {token : String}
    (whole : world.Sound) (sound : (Phase.refreshing fresh token).Sound id world)
    (knows : (Phase.refreshing fresh token).Knows world)
    (rotates : Rotates token input.answer)
    (stepped : refreshStep timings id world input fresh token =
      some (after, next)) : Advances id world after next := by
  obtain ⟨holder, presented, known, seen⟩ := sound
  obtain ⟨keeps, unconsumed⟩ := knows
  have logged (rotated : Bool) : ∃ call : RefreshCall,
      world.refreshes ++ [⟨id, token, rotated⟩] = world.refreshes ++ [call] ∧
        call.token ∉ world.consumed := ⟨_, rfl, unconsumed⟩
  unfold refreshStep at stepped
  split at stepped
  case h_1 =>
    cases stepped
    exact ⟨trivial, .inl ⟨rfl, rfl⟩, .inr (logged false)⟩
  case h_2 =>
    cases stepped
    exact ⟨unspent_of_keeps presented keeps unconsumed, .inl ⟨rfl, rfl⟩,
      .inr (logged false)⟩
  case h_3 tokens answer =>
    obtain ⟨expected, isExpected, different⟩ := rotates tokens answer
    split at stepped
    case h_1 => cases stepped
    case h_2 changed accepted =>
      obtain ⟨_, ⟨same, _⟩ | ⟨new, isNew, _, unissued, rfl⟩⟩ :=
        World.accepts_cases accepted
      · rw [isExpected] at same
        exact absurd (by simpa using same) different
      · split at stepped
        case isTrue =>
          cases stepped
          exact ⟨trivial, .inl ⟨rfl, rfl⟩, .inr (logged true)⟩
        case isFalse =>
          cases stepped
          refine ⟨⟨keeps, ?_⟩, .inl ⟨rfl, rfl⟩, .inr (logged true)⟩
          intro held isHeld
          simp only [nextRecord, isNew, Option.some_or] at isHeld
          cases isHeld
          intro member
          rcases List.mem_append.mp member with old | presentedNow
          · exact unissued (whole.consumed new old)
          · rw [isNew] at isExpected
            cases isExpected
            exact different (List.mem_singleton.mp presentedNow)

theorem writeStep_advances {attempt : Attempt}
    (knows : (Phase.writing attempt).Knows world) :
    Advances id world (writeStep world attempt).1
      (writeStep world attempt).2 := by
  obtain ⟨keeps, unconsumed⟩ := knows
  unfold writeStep
  rcases set_cases world attempt.next attempt.fresh.rev with
    ⟨found, written⟩ | ⟨moved, kept⟩
  · rw [written]
    refine ⟨?_, .inl ⟨rfl, rfl⟩, .inl rfl⟩
    rintro record token ⟨⟩ isToken
    exact unconsumed token isToken
  · rw [kept]
    refine ⟨?_, .inl ⟨rfl, rfl⟩, .inl rfl⟩
    rcases keeps with absent | same
    · exact absent
    · rw [same] at moved
      exact absurd rfl moved

/-- What the only holder does while the store works. -/
theorem step_advances (whole : world.Sound) (sound : phase.Sound id world)
    (knows : phase.Knows world) (holds : phase.holds = true)
    (works : input.fails = false)
    (rotates : ∀ fresh token, phase = .refreshing fresh token →
      Rotates token input.answer)
    (stepped : phase.step timings id world input = some (after, next)) :
    Advances id world after next := by
  suffices result : Advances id world (after, next).1 (after, next).2 from result
  have acts : ¬ input.fails = true := by simp [works]
  cases phase with
  | rechecking =>
      rw [← Option.some.inj stepped, if_neg acts]
      exact recheckStep_advances timings input knows
  | refreshing fresh token =>
      exact refreshStep_advances whole sound knows (rotates fresh token rfl)
        stepped
  | writing attempt =>
      rw [← Option.some.inj stepped, if_neg acts]
      exact writeStep_advances knows
  | readingWinner attempt =>
      have absent : world.stored = none := knows
      rw [← Option.some.inj stepped, if_neg acts]
      unfold readWinnerStep
      rw [absent]
      refine ⟨?_, .inl ⟨rfl, rfl⟩, .inl rfl⟩
      intro record token isStored
      rw [absent] at isStored
      cases isStored
  | rewriting attempt rev => exact knows.elim
  | deleting reason orphaned result =>
      rw [← Option.some.inj stepped, if_neg acts]
      exact ⟨nofun, .inl ⟨rfl, rfl⟩, .inl rfl⟩
  | releasing orphaned result =>
      have released : World.Unspent (world.releaseLock id) := by
        unfold World.releaseLock
        split
        · exact knows
        · exact knows
      rw [← Option.some.inj stepped, if_neg acts]
      have refreshes : (world.releaseLock id).refreshes = world.refreshes := by
        unfold World.releaseLock
        split
        all_goals rfl
      unfold Phase.released
      by_cases settled : orphaned = []
      · rw [if_pos settled]
        exact ⟨trivial, .inr ⟨rfl, released⟩, .inl refreshes⟩
      · rw [if_neg settled]
        exact ⟨trivial, .inr ⟨rfl, released⟩, .inl refreshes⟩
  | _ => cases holds

end Phase

theorem Logout.step_bystander {world : World} {input : StepInput}
    {logout next : Logout} {after : World}
    (stepped : logout.step world input = some (after, next)) :
    Bystander id world after := by
  unfold Logout.step at stepped
  split at stepped
  case h_1 =>
    cases stepped
    exact ⟨.inl rfl, rfl, rfl, rfl⟩
  case h_2 =>
    split at stepped
    case isTrue =>
      cases stepped
      exact ⟨.inl rfl, rfl, rfl, rfl⟩
    case isFalse =>
      cases stepped
      exact ⟨.inr rfl, rfl, rfl, rfl⟩
  case h_3 =>
    cases stepped
    exact ⟨.inl rfl, rfl, rfl, rfl⟩
  case h_4 => cases stepped

theorem Logout.step_lock {world : World} {input : StepInput}
    {logout next : Logout} {after : World}
    (stepped : logout.step world input = some (after, next)) :
    after.lock = world.lock := by
  unfold Logout.step at stepped
  repeat' split at stepped
  all_goals first
    | contradiction
    | cases stepped
      rfl

/-- The store does not fail in the step. -/
def Phase.storeWorks (input : StepInput) : Phase → Bool
  | .preparing => true
  | _ => !input.fails

/-- The provider answers with a new refresh token, if it accepts. -/
def Phase.rotates (input : StepInput) : Phase → Bool
  | .refreshing _ token =>
      match input.answer with
      | .accepted tokens => tokens.refreshToken.any (· ≠ token)
      | _ => true
  | _ => true

/-- The store works, the provider rotates tokens, and the lock does not expire
before its holder has released it. -/
def InTime (configuration : Configuration World Call) :
    Move Call StepInput Expiry → Bool
  | .spawn _ _ => true
  | .run id input =>
      match configuration.process id with
      | some (.resolve phase) => phase.storeWorks input && phase.rotates input
      | _ => true
  | .outside .lock =>
      match configuration.shared.lock with
      | none => true
      | some id =>
          match configuration.process id with
          | some (.resolve phase) => !phase.holds
          | _ => true

/-- The invariant of a run in which the lock does its work. -/
structure Orderly (configuration : Configuration World Call) : Prop where
  sound : Sound configuration
  holder : ∀ id phase, configuration.process id = some (.resolve phase) →
    phase.holds = true → configuration.shared.lock = some id
  knows : ∀ id phase, configuration.process id = some (.resolve phase) →
    phase.Knows configuration.shared
  unspent : (∃ id phase, configuration.process id = some (.resolve phase) ∧
    phase.holds = true) ∨ configuration.shared.Unspent
  once : configuration.shared.refreshes.Pairwise fun earlier later =>
    earlier.rotated = true → later.token ≠ earlier.token

namespace Orderly

variable {timings : Timings} {configuration : Configuration World Call}
  {world : World}

theorem start (record : Option SessionRecord) :
    Orderly (.start (.initial record)) := by
  refine ⟨Sound.start record, ?_, ?_, .inr ?_, .nil⟩
  · intro id phase running
    cases running
  · intro id phase running
    cases running
  · intro found token _ _ member
    cases member

theorem knows_of_waits {phase : Phase} (waits : phase.holds = false) :
    phase.Knows world := by
  cases phase with
  | rechecking => cases waits
  | refreshing => cases waits
  | writing => cases waits
  | readingWinner => cases waits
  | rewriting => cases waits
  | releasing => cases waits
  | _ => trivial

/-- A step that is not one of a holder: of a logout, of a call that waits, or the
end of a lock. -/
theorem bystander {id : Nat} {call next : Call}
    (orderly : Orderly configuration)
    (sound : Sound (configuration.set id world next))
    (running : configuration.process id = some call)
    (waits : ∀ phase, call = .resolve phase → phase.holds = false)
    (effect : Bystander id configuration.shared world)
    (lock : (world.lock = configuration.shared.lock ∧
        ∀ phase, next = .resolve phase → phase.holds = false) ∨
      (next = .resolve .rechecking ∧ configuration.shared.lock = none ∧
        world.lock = some id)) :
    Orderly (configuration.set id world next) := by
  have others (other : Nat) (phase : Phase) (distinct : other ≠ id)
      (isOther : (configuration.set id world next).process other =
        some (.resolve phase)) :
      configuration.process other = some (.resolve phase) := by
    rw [Configuration.set_process_of_ne _ distinct] at isOther
    exact isOther
  have idle (free : configuration.shared.lock = none) :
      configuration.shared.Unspent := by
    rcases orderly.unspent with ⟨other, phase, isOther, holds⟩ | unspent
    · have held := orderly.holder other phase isOther holds
      rw [free] at held
      cases held
    · exact unspent
  refine ⟨sound, ?_, ?_, ?_, ?_⟩
  · intro other phase isOther holds
    by_cases same : other = id
    · subst same
      rw [Configuration.set_process_self] at isOther
      cases isOther
      rcases lock with ⟨_, quiet⟩ | ⟨_, _, acquired⟩
      · rw [quiet phase rfl] at holds
        cases holds
      · exact acquired
    · have held :=
        orderly.holder other phase (others other phase same isOther) holds
      rcases lock with ⟨kept, _⟩ | ⟨_, free, _⟩
      · rw [Configuration.set_shared, kept]
        exact held
      · rw [free] at held
        cases held
  · intro other phase isOther
    by_cases same : other = id
    · subst same
      rw [Configuration.set_process_self] at isOther
      cases isOther
      rcases lock with ⟨_, quiet⟩ | ⟨isRecheck, free, _⟩
      · exact knows_of_waits (quiet phase rfl)
      · cases isRecheck
        exact effect.unspent (idle free)
    · exact effect.knows
        (orderly.knows other phase (others other phase same isOther))
  · rcases orderly.unspent with ⟨other, phase, isOther, holds⟩ | unspent
    · have distinct : other ≠ id := by
        rintro rfl
        rw [running] at isOther
        cases isOther
        rw [waits phase rfl] at holds
        cases holds
      refine .inl ⟨other, phase, ?_, holds⟩
      rw [Configuration.set_process_of_ne _ distinct]
      exact isOther
    · exact .inr (effect.unspent unspent)
  · rw [Configuration.set_shared, effect.refreshes]
    exact orderly.once

/-- A step of the holder. -/
theorem advances {id : Nat} {phase next : Phase}
    (orderly : Orderly configuration)
    (sound : Sound (configuration.set id world (.resolve next)))
    (running : configuration.process id = some (.resolve phase))
    (holds : phase.holds = true)
    (advanced : Phase.Advances id configuration.shared world next) :
    Orderly (configuration.set id world (.resolve next)) := by
  have lock := orderly.holder id phase running holds
  -- the lock has one holder
  have waits (other : Nat) (found : Phase) (distinct : other ≠ id)
      (isOther : (configuration.set id world (.resolve next)).process other =
        some (.resolve found)) : found.holds = false := by
    rw [Configuration.set_process_of_ne _ distinct] at isOther
    cases held : found.holds with
    | false => rfl
    | true =>
        have otherLock := orderly.holder other found isOther held
        rw [lock] at otherLock
        cases otherLock
        exact absurd rfl distinct
  refine ⟨sound, ?_, ?_, ?_, ?_⟩
  · intro other found isOther otherHolds
    by_cases same : other = id
    · subst same
      rw [Configuration.set_process_self] at isOther
      cases isOther
      rcases advanced.ends with ⟨_, kept⟩ | ⟨quiet, _⟩
      · rw [Configuration.set_shared, kept]
        exact lock
      · rw [quiet] at otherHolds
        cases otherHolds
    · rw [waits other found same isOther] at otherHolds
      cases otherHolds
  · intro other found isOther
    by_cases same : other = id
    · subst same
      rw [Configuration.set_process_self] at isOther
      cases isOther
      exact advanced.knows
    · exact knows_of_waits (waits other found same isOther)
  · rcases advanced.ends with ⟨still, _⟩ | ⟨_, unspent⟩
    · exact .inl ⟨id, next, Configuration.set_process_self _ _ _ _, still⟩
    · exact .inr unspent
  · rcases advanced.unconsumed with same | ⟨call, logged, unconsumed⟩
    · rw [Configuration.set_shared, same]
      exact orderly.once
    · rw [Configuration.set_shared, logged]
      apply List.pairwise_append.mpr
      refine ⟨orderly.once, List.pairwise_singleton _ _, ?_⟩
      intro earlier member later isLater rotated same
      cases List.mem_singleton.mp isLater
      apply unconsumed
      rw [same]
      exact orderly.sound.shared.rotated earlier member rotated

theorem move {next : Configuration World Call}
    {action : Move Call StepInput Expiry} (orderly : Orderly configuration)
    (inTime : InTime configuration action = true)
    (moved : (sessions timings).move configuration action = some next) :
    Orderly next := by
  have sound := orderly.sound.move moved
  cases Program.move_cases moved with
  | @spawn id initial unused starts =>
      refine ⟨sound, ?_, ?_, ?_, orderly.once⟩
      · intro other phase isOther holds
        by_cases same : other = id
        · subst same
          rw [Configuration.set_process_self] at isOther
          cases isOther
          have isStart : phase = .reading := by
            simpa [sessions, Call.starts] using starts
          rw [isStart] at holds
          cases holds
        · rw [Configuration.set_process_of_ne _ same] at isOther
          exact orderly.holder other phase isOther holds
      · intro other phase isOther
        by_cases same : other = id
        · subst same
          rw [Configuration.set_process_self] at isOther
          cases isOther
          have isStart : phase = .reading := by
            simpa [sessions, Call.starts] using starts
          rw [isStart]
          trivial
        · rw [Configuration.set_process_of_ne _ same] at isOther
          exact orderly.knows other phase isOther
      · rcases orderly.unspent with ⟨other, phase, isOther, holds⟩ | unspent
        · refine .inl ⟨other, phase, ?_, holds⟩
          have distinct : other ≠ id := by
            rintro rfl
            rw [unused] at isOther
            cases isOther
          rw [Configuration.set_process_of_ne _ distinct]
          exact isOther
        · exact .inr unspent
  | @run id state later input world running stepped =>
      cases state with
      | logout request =>
          obtain ⟨⟨changed, ended⟩, logoutStepped, same⟩ :=
            Option.map_eq_some_iff.mp stepped
          cases same
          have effect : Bystander id configuration.shared world :=
            Logout.step_bystander logoutStepped
          have lock : world.lock = configuration.shared.lock :=
            Logout.step_lock logoutStepped
          refine orderly.bystander sound running ?_ effect (.inl ⟨lock, ?_⟩)
          · intro phase impossible
            cases impossible
          · intro phase impossible
            cases impossible
      | resolve phase =>
          obtain ⟨⟨changed, next⟩, phaseStepped, same⟩ :=
            Option.map_eq_some_iff.mp stepped
          cases same
          cases holds : phase.holds with
          | false =>
              obtain ⟨effect, _, lock⟩ := Phase.step_bystander holds phaseStepped
              apply orderly.bystander sound running _ effect
              · rcases lock with ⟨quiet, kept⟩ | ⟨rfl, free, acquired⟩
                · refine .inl ⟨kept, ?_⟩
                  rintro found ⟨⟩
                  exact quiet
                · exact .inr ⟨rfl, free, acquired⟩
              · rintro found ⟨⟩
                exact holds
          | true =>
              simp only [InTime, running, Bool.and_eq_true] at inTime
              obtain ⟨works, rotates⟩ := inTime
              apply orderly.advances sound running holds
              apply Phase.step_advances orderly.sound.shared
                (orderly.sound.process id _ running)
                (orderly.knows id phase running) holds _ _ phaseStepped
              · cases phase with
                | preparing => cases holds
                | _ => simpa [Phase.storeWorks] using works
              · rintro fresh token rfl tokens answer
                simpa [Phase.rotates, answer, Option.any_eq_true] using rotates
  | @outside event world expired =>
      cases event
      cases expired
      refine ⟨sound, ?_, ?_, orderly.unspent, orderly.once⟩
      · intro id phase running holds
        have held := orderly.holder id phase running holds
        unfold InTime at inTime
        dsimp only at inTime
        rw [held] at inTime
        dsimp only at inTime
        rw [running] at inTime
        dsimp only at inTime
        rw [holds] at inTime
        cases inTime
      · intro id phase running
        have bystander : Bystander id configuration.shared
            { configuration.shared with lock := none } := ⟨.inl rfl, rfl, rfl, rfl⟩
        exact bystander.knows (orderly.knows id phase running)

end Orderly

/-- The session was deleted. -/
structure Gone (configuration : Configuration World Call) : Prop where
  sound : Sound configuration
  absent : configuration.shared.stored = none

theorem Gone.move {timings : Timings}
    {configuration next : Configuration World Call}
    {action : Move Call StepInput Expiry} (gone : Gone configuration)
    (moved : (sessions timings).move configuration action = some next) :
    Gone next :=
  ⟨gone.sound.move moved, gone.sound.absent moved gone.absent⟩

/-- In every run the rev of the record rises with every write, a record that is
gone stays away, and only callers that have acquired the lock refresh.  While the
store works, the provider rotates tokens and no holder outlives its lock, no
token is presented that an earlier refresh has consumed. -/
theorem refresh_single_flight (timings : Timings)
    (record : Option SessionRecord) (schedule : List (Move Call StepInput Expiry))
    (final : Configuration World Call)
    (run : runFrom (sessions timings).move (.start (.initial record)) schedule =
      some final) :
    (final.shared.revs.Pairwise (· < ·) ∧
      ∀ stored, final.shared.stored = some stored →
        final.shared.revs.getLast? = some stored.rev) ∧
    (final.shared.stored = none → ∀ rest later,
      runFrom (sessions timings).move final rest = some later →
        later.shared.stored = none) ∧
    (∀ call ∈ final.shared.refreshes, call.caller ∈ final.shared.acquired) ∧
    (EveryStep (sessions timings).move
        (fun configuration action => InTime configuration action = true)
        (.start (.initial record)) schedule →
      final.shared.refreshes.Pairwise fun earlier later =>
        earlier.rotated = true → later.token ≠ earlier.token) := by
  have sound : Sound final :=
    runFrom_invariant (fun _ _ _ sound moved => Sound.move sound moved)
      (Sound.start record) run
  refine ⟨⟨sound.shared.ordered, sound.shared.last⟩, ?_, sound.shared.callers,
    ?_⟩
  · intro absent rest later continued
    have gone : Gone later :=
      runFrom_invariant (fun _ _ _ gone moved => Gone.move gone moved)
        (Gone.mk sound absent) continued
    exact gone.absent
  · intro inTime
    have orderly : Orderly final := by
      refine runFrom_invariant_of_everyStep ?_ (Orderly.start record) inTime run
      intro configuration action next orderly here moved
      exact orderly.move here moved
    exact orderly.once

def sampleRecord : SessionRecord :=
  ⟨0, "access", some "first", 0, 1000000, "id", ⟨"issuer", "subject"⟩⟩

/-- A step at the given instant, with a new refresh token if it refreshes. -/
def sampleStep (now : Int) (new : String) : StepInput :=
  ⟨now, false, .accepted ⟨"access", some new, 60, none⟩⟩

/-- The steps of a call that refreshes. -/
def sampleRefresh (id : Nat) (now : Int) (new : String) :
    List (Move Call StepInput Expiry) :=
  .spawn id (.resolve .reading) ::
    List.replicate 7 (.run id (sampleStep now new))

/-- Two calls, step by step in turn: the second one waits for the first. -/
def sampleTurns : List (Move Call StepInput Expiry) :=
  [Move.spawn 0 (.resolve .reading), .spawn 1 (.resolve .reading)] ++
    (List.replicate 7 [Move.run 0 (sampleStep 0 "second"),
      .run 1 (sampleStep 0 "unused")]).flatten ++
    [Move.run 1 (sampleStep 0 "unused")]

def sampleSchedule : List (Move Call StepInput Expiry) :=
  sampleTurns ++ sampleRefresh 2 60000 "third"

/-- Of two calls at once one refreshes, and a later call refreshes again. -/
theorem refresh_single_flight_sample : ∃ final,
    runFrom (sessions ⟨30000, 5000⟩).move (.start (.initial (some sampleRecord)))
      sampleSchedule = some final ∧
    final.shared.revs = [0, 1, 2] ∧
    final.shared.refreshes = [⟨0, "first", true⟩, ⟨2, "second", true⟩] ∧
    final.shared.refreshes.Pairwise fun earlier later =>
      earlier.rotated = true → later.token ≠ earlier.token := by
  have run : runFrom (sessions ⟨30000, 5000⟩).move
      (.start (.initial (some sampleRecord))) sampleSchedule = some _ := rfl
  have facts := refresh_single_flight ⟨30000, 5000⟩ _ _ _ run
  exact ⟨_, run, rfl, rfl, facts.2.2.2 (by decide +kernel)⟩

end Paigasus.Auth
