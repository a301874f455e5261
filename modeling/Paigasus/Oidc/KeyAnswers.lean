import Paigasus.Oidc.Jwks

/-!
# What `key_for` says of an issuer that could not be reached

Under the cooldown `key_for` answers from the age of the cached key set.  That
answer is right where the cached set is the one that the last fetch obtained,
and wrong after a fetch that failed beside an older set that is still fresh.
-/

namespace Paigasus.Oidc

open Foundation Core

/-- One event seen from the last fetch of an issuer. -/
def noteFetch (issuer : String) (last : Option (Option CachedJwks)) :
    JwksEvent → Option (Option CachedJwks)
  | .fetchStarted _ started _ => if started = issuer then some none else last
  | .fetched _ answered entry =>
      if answered = issuer then some (some entry) else last
  | _ => last

/-- The most recently started fetch of an issuer, with what it has obtained;
`some none` is a fetch that failed or has not answered. -/
def lastFetch (issuer : String) (log : List JwksEvent) :
    Option (Option CachedJwks) :=
  log.foldl (noteFetch issuer) none

@[simp]
theorem lastFetch_append (issuer : String) (log events : List JwksEvent) :
    lastFetch issuer (log ++ events) =
      events.foldl (noteFetch issuer) (lastFetch issuer log) := by
  simp [lastFetch]

/-- The calls of `key_for` on the only provider that writes its cache, whose
backend may still lose the entry of an issuer. -/
def JwksProvider.soleWriter (provider : JwksProvider) :
    Program JwksShared KeyCall KeyInput String where
  starts := provider.keyFor.starts
  step := provider.keyFor.step
  outside shared issuer := provider.keyFor.outside shared (issuer, none)

namespace JwksShared

variable (shared : JwksShared) (id : Nat) (issuer : String)

@[simp]
theorem note_cache (event : JwksEvent) :
    (shared.note event).cache = shared.cache := rfl

@[simp]
theorem note_log (event : JwksEvent) :
    (shared.note event).log = shared.log ++ [event] := rfl

@[simp]
theorem note_clock (event : JwksEvent) :
    (shared.note event).clock = shared.clock := rfl

@[simp]
theorem read_cache (now : Int) : (shared.read id now).cache = shared.cache :=
  rfl

@[simp]
theorem read_log (now : Int) :
    (shared.read id now).log = shared.log ++ [JwksEvent.clockRead id now] := rfl

@[simp]
theorem read_clock (now : Int) : (shared.read id now).clock = now := rfl

@[simp]
theorem acquire_cache : (shared.acquire id issuer).cache = shared.cache := rfl

@[simp]
theorem acquire_log : (shared.acquire id issuer).log = shared.log := rfl

@[simp]
theorem release_cache : (shared.release id issuer).cache = shared.cache := by
  unfold release
  split
  · rfl
  · rfl

@[simp]
theorem release_log : (shared.release id issuer).log = shared.log :=
  Kept.release_log

@[simp]
theorem begin_cache (now : Int) :
    (shared.begin id issuer now).cache = shared.cache := rfl

@[simp]
theorem begin_log (now : Int) :
    (shared.begin id issuer now).log =
      shared.log ++ [JwksEvent.clockRead id now] ++
        [JwksEvent.fetchStarted id issuer now] := rfl

@[simp]
theorem put_cache (entry : CachedJwks) :
    (shared.put issuer entry).cache =
      Function.update shared.cache issuer (some entry) := rfl

@[simp]
theorem put_log (entry : CachedJwks) :
    (shared.put issuer entry).log = shared.log := rfl

end JwksShared

/-- Only a call that holds the lock of an issuer changes its cached set or its
last fetch. -/
structure Leaves (issuer : String) (shared after : JwksShared) : Prop where
  cache : after.cache issuer = shared.cache issuer
  lastFetch : lastFetch issuer after.log = lastFetch issuer shared.log

namespace KeyCall

variable {provider : JwksProvider} {id : Nat} {shared : JwksShared}
  {call : KeyCall} {result : JwksShared × KeyCall}

theorem checked_leaves {entry : Option CachedJwks} {now : Int}
    {missed : KeyPhase} (issuer : String)
    (stepped : call.checked provider id shared entry now missed =
      some result) :
    Leaves issuer shared result.1 := by
  unfold checked at stepped
  split at stepped
  · cases stepped
    exact ⟨rfl, rfl⟩
  · split at stepped
    · split at stepped
      · cases stepped
        exact ⟨by simp [finish], by simp [finish, noteFetch]⟩
      · cases stepped
        exact ⟨by simp, by simp [noteFetch]⟩
    · cases stepped

theorem afterCooldown_leaves {entryIsFresh : Bool} {now : Int}
    (issuer : String)
    (stepped : call.afterCooldown provider id shared entryIsFresh now =
      some result) :
    Leaves issuer shared result.1 := by
  unfold afterCooldown at stepped
  split at stepped
  · cases stepped
    exact ⟨rfl, rfl⟩
  · split at stepped
    · split at stepped
      · cases stepped
        exact ⟨by simp [finish], by simp [finish, noteFetch]⟩
      · cases stepped
        exact ⟨by simp, by simp [noteFetch]⟩
    · cases stepped

theorem step_leaves {input : KeyInput} {issuer : String}
    (elsewhere : call.phase.locked = true → issuer ≠ call.issuer)
    (stepped : call.step provider id shared input = some result) :
    Leaves issuer shared result.1 := by
  unfold step at stepped
  split at stepped
  case h_1 => cases stepped
  case h_2 => cases stepped
  case h_3 =>
    cases stepped
    exact ⟨by simp, by simp⟩
  case h_4 =>
    cases stepped
    exact ⟨rfl, by simp [noteFetch]⟩
  case h_5 =>
    cases stepped
    exact ⟨by simp [finish], by simp [finish]⟩
  case h_6 => exact checked_leaves issuer stepped
  case h_7 =>
    split at stepped
    · cases stepped
    · cases stepped
      exact ⟨rfl, rfl⟩
  case h_8 =>
    cases stepped
    exact ⟨rfl, by simp [noteFetch]⟩
  case h_9 =>
    cases stepped
    exact ⟨by simp [finish], by simp [finish]⟩
  case h_10 => exact checked_leaves issuer stepped
  case h_11 =>
    cases stepped
    exact ⟨rfl, rfl⟩
  case h_12 =>
    split at stepped
    · cases stepped
      exact ⟨rfl, by simp [noteFetch]⟩
    · cases stepped
  case h_13 => exact afterCooldown_leaves issuer stepped
  case h_14 phase =>
    have other := elsewhere (by rw [phase]; rfl)
    split at stepped
    · cases stepped
      exact ⟨rfl, by simp [noteFetch, Ne.symm other]⟩
    · cases stepped
  case h_15 =>
    cases stepped
    exact ⟨by simp [finish], by simp [finish]⟩
  case h_16 phase =>
    have other := elsewhere (by rw [phase]; rfl)
    split at stepped
    · cases stepped
      exact ⟨rfl, by simp [noteFetch, Ne.symm other]⟩
    · cases stepped
  case h_17 phase =>
    have other := elsewhere (by rw [phase]; rfl)
    cases stepped
    exact ⟨by simp [finish, other], by simp [finish]⟩
  case h_18 =>
    cases stepped
    exact ⟨by simp [finish], by simp [finish]⟩
  case h_19 => cases stepped

end KeyCall

/-- What a call knows of the cached set of its issuer once it holds the lock;
the backend may have lost the set since. -/
def Understands (provider : JwksProvider) (shared : JwksShared)
    (call : KeyCall) : Prop :=
  match call.phase with
  | .recheckHit entry => ∀ held, shared.cache call.issuer = some held →
      entry = some held
  | .freshness entry =>
      (∀ held, shared.cache call.issuer = some held → entry = some held) ∧
        ∀ held, entry = some held → ∀ now, shared.clock ≤ now →
          provider.isFresh held now = true →
            findKid held.keys call.kid = none
  | .cooldown true => ∀ held, shared.cache call.issuer = some held →
      findKid held.keys call.kid = none
  | .storing fetched =>
      lastFetch call.issuer shared.log = some (some fetched)
  | _ => True

structure Follows (provider : JwksProvider) (id : Nat) (shared : JwksShared)
    (call : KeyCall) : Prop where
  asserts : Asserts provider id shared call
  understands : Understands provider shared call

theorem JwksProvider.isFresh_of_later {provider : JwksProvider}
    {entry : CachedJwks} {now later : Int} (after : now ≤ later)
    (fresh : provider.isFresh entry later = true) :
    provider.isFresh entry now = true := by
  simp only [isFresh, decide_eq_true_eq] at fresh ⊢
  omega

namespace Understands

variable {provider : JwksProvider} {id : Nat} {shared after : JwksShared}
  {call : KeyCall} {result : JwksShared × KeyCall}

/-- The lock keeps what a call knows; a lost entry only leaves less to know. -/
theorem stable (understands : Understands provider shared call)
    (clock : shared.clock ≤ after.clock)
    (cache : ∀ held, call.phase.locked = true →
      after.cache call.issuer = some held →
        shared.cache call.issuer = some held)
    (fetched : call.phase.locked = true →
      lastFetch call.issuer after.log = lastFetch call.issuer shared.log) :
    Understands provider after call := by
  unfold Understands at understands ⊢
  cases phase : call.phase with
  | recheckHit entry =>
      simp only [phase] at understands ⊢
      intro held isHeld
      exact understands held (cache held (by rw [phase]; rfl) isHeld)
  | freshness entry =>
      simp only [phase] at understands ⊢
      refine ⟨?_, ?_⟩
      · intro held isHeld
        exact understands.1 held (cache held (by rw [phase]; rfl) isHeld)
      · intro held isEntry now later
        exact understands.2 held isEntry now (clock.trans later)
  | cooldown entryIsFresh =>
      cases entryIsFresh with
      | false => trivial
      | true =>
          simp only [phase] at understands ⊢
          intro held isHeld
          exact understands held (cache held (by rw [phase]; rfl) isHeld)
  | storing entry =>
      simp only [phase] at understands ⊢
      exact (fetched (by rw [phase]; rfl)).trans understands
  | _ => trivial

theorem checked {entry : Option CachedJwks} {now : Int} {missed : KeyPhase}
    (stepped : call.checked provider id shared entry now missed =
      some result)
    (missing : ∀ after, after.cache = shared.cache →
      shared.clock ≤ after.clock →
      (∀ held, entry = some held → ∀ now, after.clock ≤ now →
        provider.isFresh held now = true →
          findKid held.keys call.kid = none) →
      Understands provider after (call.at_ missed)) :
    Understands provider result.1 result.2 := by
  unfold KeyCall.checked at stepped
  split at stepped
  case h_1 =>
    cases stepped
    exact missing shared rfl (le_refl _) nofun
  case h_2 found =>
    split at stepped
    case isTrue later =>
      split at stepped
      case h_1 =>
        cases stepped
        trivial
      case h_2 missedHit =>
        cases stepped
        refine missing _ rfl later ?_
        rintro _ ⟨⟩ then_ afterwards fresh
        have freshNow : provider.isFresh found now = true :=
          JwksProvider.isFresh_of_later afterwards fresh
        simpa [JwksProvider.hit, freshNow] using missedHit
    case isFalse => cases stepped

theorem afterCooldown {entryIsFresh : Bool} {now : Int}
    (stepped : call.afterCooldown provider id shared entryIsFresh now =
      some result) :
    Understands provider result.1 result.2 := by
  unfold KeyCall.afterCooldown at stepped
  split at stepped
  · cases stepped
    trivial
  · split at stepped
    · split at stepped
      · cases stepped
        trivial
      · cases stepped
        trivial
    · cases stepped

end Understands

/-- A step keeps what its own call knows of the cached set. -/
theorem KeyCall.step_understands {provider : JwksProvider} {id : Nat}
    {shared : JwksShared} {call : KeyCall} {input : KeyInput}
    {result : JwksShared × KeyCall}
    (understands : Understands provider shared call)
    (stepped : call.step provider id shared input = some result) :
    Understands provider result.1 result.2 := by
  unfold Understands at understands
  unfold KeyCall.step at stepped
  split at stepped
  case h_1 => cases stepped
  case h_2 => cases stepped
  case h_3 =>
    cases stepped
    trivial
  case h_4 =>
    cases stepped
    trivial
  case h_5 =>
    cases stepped
    trivial
  case h_6 => exact .checked stepped fun _ _ _ _ => trivial
  case h_7 =>
    split at stepped
    · cases stepped
    · cases stepped
      trivial
  case h_8 =>
    cases stepped
    intro held isHeld
    exact isHeld
  case h_9 =>
    cases stepped
    trivial
  case h_10 entry now phase =>
    simp only [phase] at understands
    refine .checked stepped ?_
    intro after sameCache _later lacks
    refine ⟨?_, lacks⟩
    intro held isHeld
    change after.cache call.issuer = some held at isHeld
    rw [sameCache] at isHeld
    exact understands held isHeld
  case h_11 =>
    cases stepped
    trivial
  case h_12 entry now phase =>
    simp only [phase] at understands
    split at stepped
    case isTrue later =>
      cases stepped
      change Understands provider (shared.read id now)
        (call.at_ (.cooldown (provider.isFresh entry now)))
      cases fresh : provider.isFresh entry now with
      | false => trivial
      | true =>
          intro held isHeld
          have same : entry = held :=
            Option.some.inj (understands.1 held isHeld)
          subst same
          exact understands.2 entry rfl now later fresh
    case isFalse => cases stepped
  case h_13 => exact .afterCooldown stepped
  case h_14 =>
    split at stepped
    · cases stepped
      trivial
    · cases stepped
  case h_15 =>
    cases stepped
    trivial
  case h_16 =>
    split at stepped
    · cases stepped
      change lastFetch call.issuer _ = _
      simp [noteFetch]
    · cases stepped
  case h_17 =>
    cases stepped
    trivial
  case h_18 =>
    cases stepped
    trivial
  case h_19 => cases stepped

/-- An answer is `UnknownKid` only where the last fetch of the issuer has
obtained a set without the key, and after a fetch that has obtained nothing it is
`Unavailable`, unless the call saw the key in a set that was fresh. -/
structure AnswerSound (provider : JwksProvider) (id : Nat)
    (shared : JwksShared) (call : KeyCall)
    (answer : Except AuthnError Jwk) : Prop where
  unknown : answer = .error (.invalidToken .unknownKid) →
    ∃ obtained, lastFetch call.issuer shared.log = some (some obtained) ∧
      findKid obtained.keys call.kid = none
  unavailable : lastFetch call.issuer shared.log = some none →
    (∀ entry now, JwksEvent.lookedUp id call.issuer (some entry) ∈ shared.log →
      JwksEvent.clockRead id now ∈ shared.log →
      provider.isFresh entry now = true →
        findKid entry.keys call.kid = none) →
    answer = .error .unavailable

/-- The cached set of an issuer is the one that its last fetch obtained. -/
def CachesLastFetch (issuer : String) (shared : JwksShared) : Prop :=
  ∃ obtained, lastFetch issuer shared.log = some (some obtained) ∧
    shared.cache issuer = some obtained

namespace AnswerSound

variable {provider : JwksProvider} {id : Nat} {shared : JwksShared}
  {call : KeyCall}

theorem of_unavailable :
    AnswerSound provider id shared call (.error .unavailable) :=
  ⟨fun same => by simp at same, fun _ _ => rfl⟩

theorem of_fetched {obtained : CachedJwks}
    (fetched : lastFetch call.issuer shared.log = some (some obtained)) :
    AnswerSound provider id shared call
      (match findKid obtained.keys call.kid with
        | some jwk => .ok jwk
        | none => .error (.invalidToken .unknownKid)) := by
  refine ⟨?_, ?_⟩
  · intro unknown
    refine ⟨obtained, fetched, ?_⟩
    split at unknown
    · cases unknown
    · assumption
  · intro failed
    rw [fetched] at failed
    cases failed

theorem of_hit {entry : CachedJwks} {now : Int} {jwk : Jwk}
    (looked : .lookedUp id call.issuer (some entry) ∈ shared.log)
    (read : .clockRead id now ∈ shared.log)
    (hit : provider.hit entry call.kid now = some jwk) :
    AnswerSound provider id shared call (.ok jwk) := by
  refine ⟨nofun, ?_⟩
  intro _failed absent
  unfold JwksProvider.hit at hit
  split at hit
  case isTrue fresh =>
    rw [absent entry now looked read fresh] at hit
    cases hit
  case isFalse => cases hit

end AnswerSound

section Answers

variable {provider : JwksProvider} {id : Nat} {shared after : JwksShared}
  {call returned : KeyCall} {answer : Except AuthnError Jwk}

theorem KeyCall.checked_sound {entry : Option CachedJwks} {now : Int}
    {missed : KeyPhase} (looked : ∀ found, entry = some found →
      .lookedUp id call.issuer (some found) ∈ shared.log)
    (goesOn : missed ≠ .finished answer)
    (stepped : call.checked provider id shared entry now missed =
      some (after, returned))
    (answered : returned.phase = .finished answer) :
    AnswerSound provider id after call answer := by
  unfold KeyCall.checked at stepped
  split at stepped
  case h_1 =>
    cases stepped
    exact absurd answered goesOn
  case h_2 found =>
    split at stepped
    case isTrue later =>
      split at stepped
      case h_1 jwk hit =>
        cases stepped
        cases answered
        have inLog := looked found rfl
        exact .of_hit (by simp [inLog]) (by simp) hit
      case h_2 =>
        cases stepped
        exact absurd answered goesOn
    case isFalse => cases stepped

theorem KeyCall.afterCooldown_sound {entryIsFresh : Bool} {now : Int}
    (missing : entryIsFresh = true →
      ∃ obtained, lastFetch call.issuer shared.log = some (some obtained) ∧
        findKid obtained.keys call.kid = none)
    (stepped : call.afterCooldown provider id shared entryIsFresh now =
      some (after, returned))
    (answered : returned.phase = .finished answer) :
    AnswerSound provider id after call answer := by
  unfold KeyCall.afterCooldown at stepped
  split at stepped
  case h_1 =>
    cases stepped
    cases answered
  case h_2 =>
    split at stepped
    case isFalse => cases stepped
    case isTrue later =>
      split at stepped
      case isFalse =>
        cases stepped
        cases answered
      case isTrue =>
        cases stepped
        cases answered
        cases entryIsFresh with
        | false => exact .of_unavailable
        | true =>
            obtain ⟨obtained, fetched, absent⟩ := missing rfl
            have stillFetched : lastFetch call.issuer
                ((shared.read id now).release id call.issuer).log =
                  some (some obtained) := by
              simp [noteFetch, fetched]
            refine ⟨fun _ => ⟨obtained, stillFetched, absent⟩, ?_⟩
            intro failed
            rw [stillFetched] at failed
            cases failed

/-- Every step that ends a call answers soundly, where a call that found a fresh
set before the cooldown still sees the set of the last fetch. -/
theorem KeyCall.step_sound {input : KeyInput}
    (knows : Knows provider id shared call)
    (understands : Understands provider shared call)
    (fails : ∀ error, input = .fetchFails error → error = .unavailable)
    (cached : call.phase = .cooldown true →
      CachesLastFetch call.issuer shared)
    (stepped : call.step provider id shared input = some (after, returned))
    (answered : returned.phase = .finished answer) :
    AnswerSound provider id after call answer := by
  unfold Knows at knows
  unfold Understands at understands
  unfold KeyCall.step at stepped
  split at stepped
  case h_1 => cases stepped
  case h_2 => cases stepped
  case h_3 =>
    cases stepped
    cases answered
  case h_4 =>
    cases stepped
    cases answered
  case h_5 =>
    cases stepped
    cases answered
    exact .of_unavailable
  case h_6 phase =>
    rw [phase] at knows
    refine checked_sound ?_ (by simp) stepped answered
    rintro found rfl
    exact knows
  case h_7 =>
    split at stepped
    · cases stepped
    · cases stepped
      cases answered
  case h_8 =>
    cases stepped
    cases answered
  case h_9 =>
    cases stepped
    cases answered
    exact .of_unavailable
  case h_10 phase =>
    rw [phase] at knows
    refine checked_sound ?_ (by simp) stepped answered
    rintro found rfl
    exact knows
  case h_11 =>
    cases stepped
    cases answered
  case h_12 =>
    split at stepped
    · cases stepped
      cases answered
    · cases stepped
  case h_13 entryIsFresh now phase =>
    refine afterCooldown_sound ?_ stepped answered
    rintro rfl
    simp only [phase] at understands
    obtain ⟨obtained, fetched, held⟩ := cached phase
    exact ⟨obtained, fetched, understands obtained held⟩
  case h_14 =>
    split at stepped
    · cases stepped
      cases answered
    · cases stepped
  case h_15 error phase =>
    cases stepped
    cases answered
    rw [fails error rfl]
    exact .of_unavailable
  case h_16 =>
    split at stepped
    · cases stepped
      cases answered
    · cases stepped
  case h_17 fetched now phase =>
    simp only [phase] at understands
    cases stepped
    cases answered
    exact .of_fetched (by simpa using understands)
  case h_18 =>
    cases stepped
    cases answered
    exact .of_unavailable
  case h_19 => cases stepped

end Answers

theorem JwksProvider.followed (provider : JwksProvider) :
    provider.soleWriter.Outline (Spaced provider) (Follows provider) where
  spawned id shared initial spaced starts := by
    refine ⟨provider.outline.spawned id shared initial spaced starts, ?_⟩
    unfold JwksProvider.soleWriter JwksProvider.keyFor at starts
    dsimp only at starts
    unfold Understands
    split at starts
    case h_1 phase =>
      rw [phase]
      trivial
    case h_2 => cases starts
  own id shared call input shared' call' spaced follows stepped := by
    have kept := KeyCall.step_kept spaced follows.asserts stepped
    exact ⟨kept.spaced, kept.asserts,
      KeyCall.step_understands follows.understands stepped⟩
  others id shared call input shared' call' other held spaced follows stepped
      distinct otherFollows := by
    refine ⟨provider.outline.others id shared call input shared' call' other
      held spaced follows.asserts stepped distinct otherFollows.asserts, ?_⟩
    have kept := KeyCall.step_kept spaced follows.asserts stepped
    -- Both would hold the lock of the issuer.
    have leaves (locked : held.phase.locked = true) :
        Leaves held.issuer shared shared' := by
      refine KeyCall.step_leaves ?_ stepped
      intro alsoLocked same
      have theirs := otherFollows.asserts.locked locked
      rw [same, follows.asserts.locked alsoLocked] at theirs
      exact distinct (Option.some.inj theirs).symm
    refine otherFollows.understands.stable kept.grows.clock ?_ ?_
    · intro entry locked isHeld
      rw [(leaves locked).cache] at isHeld
      exact isHeld
    · intro locked
      exact (leaves locked).lastFetch
  outside shared issuer shared' spaced changed := by
    obtain ⟨spacedAfter, asserts⟩ :=
      provider.outline.outside shared (issuer, none) shared' spaced changed
    cases changed
    refine ⟨spacedAfter, ?_⟩
    intro id call follows
    refine ⟨asserts id call follows.asserts, ?_⟩
    refine follows.understands.stable (le_refl _) ?_ fun _ => rfl
    intro held _locked isHeld
    by_cases lost : call.issuer = issuer
    · simp [lost] at isHeld
    · simpa [lost] using isHeld

/-- In every run, a call that returns reports an unknown key only after a fetch
that succeeded without it, and an issuer that could not be reached as
unavailable, where each answer under the cooldown from a fresh set is given from
the set of the last fetch. -/
theorem JwksProvider.keyFor_answers_sound (provider : JwksProvider)
    (cache : String → Option CachedJwks) (clock : Int)
    (schedule : List (Move KeyCall KeyInput String))
    (configuration next : Configuration JwksShared KeyCall)
    (id : Nat) (input : KeyInput) (call returned : KeyCall)
    (answer : Except AuthnError Jwk)
    (run : runFrom provider.soleWriter.move
      (.start (.initial cache clock)) schedule = some configuration)
    (running : configuration.process id = some call)
    (moved : provider.soleWriter.move configuration (.run id input) =
      some next)
    (isReturned : next.process id = some returned)
    (answered : returned.phase = .finished answer)
    (fails : ∀ error, input = .fetchFails error → error = .unavailable)
    (cached : call.phase = .cooldown true →
      CachesLastFetch call.issuer configuration.shared) :
    AnswerSound provider id next.shared call answer := by
  have holds := provider.followed.run
    (Program.Holds.start (Spaced.initial provider cache clock)) run
  have follows := holds.process id call running
  cases Program.move_cases moved with
  | run isRunning stepped =>
      cases running.symm.trans isRunning
      rw [Configuration.set_process_self] at isReturned
      cases isReturned
      exact KeyCall.step_sound follows.asserts.knows follows.understands fails
        cached stepped answered

/-- Call 1 asks for a key that the set fetched by call 0 lacks. -/
def knownSetSchedule : List (Move KeyCall KeyInput String) :=
  [.spawn 0 ⟨"issuer", "old", .lookup⟩, .run 0 (.goOn 0), .run 0 (.goOn 0),
    .run 0 (.goOn 0), .run 0 (.goOn 0), .run 0 (.goOn 0), .run 0 (.goOn 0),
    .run 0 (.goOn 0), .run 0 (.goOn 0),
    .run 0 (.fetches [⟨some "old", "key"⟩] "uri" 0), .run 0 (.goOn 0),
    .spawn 1 ⟨"issuer", "new", .lookup⟩, .run 1 (.goOn 5), .run 1 (.goOn 5),
    .run 1 (.goOn 5), .run 1 (.goOn 5), .run 1 (.goOn 5), .run 1 (.goOn 5)]

theorem JwksProvider.keyFor_answers_sound_sample :
    ∃ configuration next call returned,
      runFrom (JwksProvider.mk 3600 30).soleWriter.move
        (.start (.initial (fun _ => none) 0)) knownSetSchedule =
          some configuration ∧
      (JwksProvider.mk 3600 30).soleWriter.move configuration
        (.run 1 (.goOn 5)) = some next ∧
      configuration.process 1 = some call ∧ next.process 1 = some returned ∧
      returned.phase = .finished (.error (.invalidToken .unknownKid)) ∧
      AnswerSound ⟨3600, 30⟩ 1 next.shared call
        (.error (.invalidToken .unknownKid)) := by
  refine ⟨_, _, _, _, rfl, rfl, rfl, rfl, rfl, ?_⟩
  exact keyFor_answers_sound ⟨3600, 30⟩ (fun _ => none) 0 knownSetSchedule _ _
    1 (.goOn 5) _ _ _ rfl rfl rfl rfl rfl nofun fun _ => ⟨_, rfl, rfl⟩

/-- After the cooldown the fetch of call 1 fails; call 2 asks for the same key. -/
def failedFetchSchedule : List (Move KeyCall KeyInput String) :=
  [.spawn 0 ⟨"issuer", "old", .lookup⟩, .run 0 (.goOn 0), .run 0 (.goOn 0),
    .run 0 (.goOn 0), .run 0 (.goOn 0), .run 0 (.goOn 0), .run 0 (.goOn 0),
    .run 0 (.goOn 0), .run 0 (.goOn 0),
    .run 0 (.fetches [⟨some "old", "key"⟩] "uri" 0), .run 0 (.goOn 0),
    .spawn 1 ⟨"issuer", "new", .lookup⟩, .run 1 (.goOn 40), .run 1 (.goOn 40),
    .run 1 (.goOn 40), .run 1 (.goOn 40), .run 1 (.goOn 40),
    .run 1 (.goOn 40), .run 1 (.goOn 40), .run 1 (.goOn 40),
    .run 1 (.fetchFails .unavailable),
    .spawn 2 ⟨"issuer", "new", .lookup⟩, .run 2 (.goOn 45), .run 2 (.goOn 45),
    .run 2 (.goOn 45), .run 2 (.goOn 45), .run 2 (.goOn 45),
    .run 2 (.goOn 45), .run 2 (.goOn 45)]

/-- The fetch of call 1 fails, and call 2 is told that the key is unknown. -/
theorem JwksProvider.unknown_after_failed_fetch :
    ∃ configuration first second,
      runFrom (JwksProvider.mk 3600 30).soleWriter.move
        (.start (.initial (fun _ => none) 0)) failedFetchSchedule =
          some configuration ∧
      configuration.process 1 = some first ∧
      first.phase = .finished (.error .unavailable) ∧
      configuration.process 2 = some second ∧
      second.phase = .finished (.error (.invalidToken .unknownKid)) ∧
      lastFetch "issuer" configuration.shared.log = some none ∧
      ¬ AnswerSound ⟨3600, 30⟩ 2 configuration.shared second
        (.error (.invalidToken .unknownKid)) := by
  refine ⟨_, _, _, rfl, rfl, rfl, rfl, rfl, rfl, ?_⟩
  intro sound
  obtain ⟨obtained, fetched, _absent⟩ := sound.unknown rfl
  cases fetched

end Paigasus.Oidc
