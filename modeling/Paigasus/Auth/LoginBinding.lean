import Paigasus.Auth.LoginSystem

/-!
# A login binds the session to its browser

The secret of a login is in the cookies of a request only where its browser has
received the login's response; a taken transaction names the login that stored
it, and a granted code the request that was built for that login.
-/

namespace Paigasus.Auth

open Foundation Traced

namespace Binding

section System

variable {Principal : Type}

section Effects

variable {runtime : LoginRuntime} {codeOf : String → Option String}

/-- The call takes no transaction, builds no request and redeems no code. -/
def Quiet : PortCall Principal → Prop
  | .handler (.takeTransaction _ (.ok (some _))) => False
  | .handler (.authorizationCodeGrant _ _ _ _ _ (.tokens _)) => False
  | .login (.buildAuthorizationUrl _ _ (.built _)) => False
  | _ => True

/-- What a call does to the store and the provider. -/
inductive Effect (world : World Principal) (id : Nat) :
    PortCall Principal → World Principal → Prop where
  | sessions {call : PortCall Principal} (quiet : Quiet call)
      (sessions : String → Option SessionRecord) :
      Effect world id call { world with sessions }
  | put (txnId : String) (tx : LoginTransaction) (ttlMs : Nat)
      (reply : StoreStep Unit) :
      Effect world id (.login (.putTransaction txnId tx ttlMs reply))
        (world.putTxn txnId tx)
  | take (state : String) (tx : LoginTransaction)
      (stored : world.transactions state = some tx) :
      Effect world id (.handler (.takeTransaction state (.ok (some tx))))
        (world.dropTxn state)
  | drop {call : PortCall Principal} (quiet : Quiet call) (state : String) :
      Effect world id call (world.dropTxn state)
  | build (redirectUri state : String) (authorization : AuthorizationRequest)
      (fresh : ∀ built ∈ world.authorizations,
        built.2.codeVerifier ≠ authorization.codeVerifier) :
      Effect world id
        (.login (.buildAuthorizationUrl redirectUri state
          (.built authorization)))
        { world with
          authorizations := (state, authorization) :: world.authorizations }
  | redeem (redirectUri query state : String) (code : Code)
      (tokens : OidcTokens) (issued : code ∈ world.codes) :
      Effect world id
        (.handler (.authorizationCodeGrant redirectUri query
          code.authorization.codeVerifier state code.authorization.nonce
          (.tokens tokens)))
        { world with
          codes := world.codes.filter (· ≠ code)
          redeemed := (id, code) :: world.redeemed }
  | burn {call : PortCall Principal} (quiet : Quiet call) (kept : Code → Bool) :
      Effect world id call { world with codes := world.codes.filter kept }

variable {world next : World Principal} {id : Nat} {applied : Bool}
  {code : Option Code}

theorem Effect.unchanged {call : PortCall Principal} (quiet : Quiet call) :
    Effect world id call world :=
  .sessions quiet world.sessions

theorem effect_of_performLogin {call : LoginCall}
    (performed : world.performLogin applied call = some next) :
    Effect world id (.login call) next := by
  unfold World.performLogin at performed
  split at performed
  · unfold World.build at performed
    split at performed
    · split at performed
      · cases performed
      next fresh =>
        cases performed
        refine .build _ _ _ ?_
        intro built listed same
        exact fresh (List.mem_map.mpr ⟨built, listed, same⟩)
    · cases performed
      exact .unchanged trivial
    · cases performed
      exact .unchanged trivial
  · cases performed
    exact .put _ _ _ _
  · cases performed
    unfold World.fallen
    split
    · exact .put _ _ _ _
    · exact .unchanged trivial
  · cases performed
    exact .sessions (by trivial) _
  · cases performed
    unfold World.fallen
    split
    · exact .sessions (by trivial) _
    · exact .unchanged trivial

theorem effect_of_performHandler {call : HandlerCall Principal}
    (performed : world.performHandler codeOf id applied code call = some next) :
    Effect world id (.handler call) next := by
  unfold World.performHandler at performed
  split at performed
  case h_1 state found =>
    split at performed
    next stored =>
      cases performed
      cases found with
      | none => exact .drop (by trivial) _
      | some tx => exact .take _ _ stored
    · cases performed
  case h_2 =>
    cases performed
    unfold World.fallen
    split
    · exact .drop (by trivial) _
    · exact .unchanged trivial
  case h_3 redirectUri query verifier state nonce reply =>
    unfold World.redeem at performed
    split at performed
    · split at performed
      · cases performed
      next code =>
        split at performed
        next allowed =>
          obtain ⟨issued, _, rfl, rfl⟩ := allowed
          cases performed
          exact .redeem _ _ _ _ _ issued
        · cases performed
    · cases performed
      exact .unchanged trivial
    · cases performed
      unfold World.fallen
      split
      · exact .burn (by trivial) _
      · exact .unchanged trivial
  case h_8 sid session _ _ inserted =>
    split at performed
    · cases performed
      split
      · exact .sessions (by trivial) _
      · exact .unchanged trivial
    · cases performed
  case h_9 =>
    cases performed
    unfold World.fallen
    split
    · split
      · exact .sessions (by trivial) _
      · exact .unchanged trivial
    · exact .unchanged trivial
  case h_4 =>
    split at performed
    · cases performed
      exact .unchanged trivial
    · cases performed
  case h_6 =>
    cases performed
    exact .sessions (by trivial) _
  case h_7 =>
    cases performed
    unfold World.fallen
    split
    · exact .sessions (by trivial) _
    · exact .unchanged trivial
  all_goals
    cases performed
    exact .unchanged trivial

/-- A call of a handling is its next one, with its effect and a note of it. -/
theorem makeCall_eq_some
    (called : world.makeCall runtime codeOf id applied code = some next) :
    ∃ run call reached, world.running id = some run ∧
      (run.handling.calls runtime)[run.made]? = some call ∧
      Effect world id call reached ∧
      next = { reached with
        running := Function.update reached.running id
          (some { run with made := run.made + 1 })
        log := (id, run.made, call) :: reached.log } := by
  unfold World.makeCall at called
  split at called
  · cases called
  next run isRunning =>
    split at called
    · cases called
    next call isCall =>
      obtain ⟨reached, performed, rfl⟩ := Option.map_eq_some_iff.mp called
      refine ⟨run, call, reached, isRunning, isCall, ?_, rfl⟩
      cases call with
      | login call => exact effect_of_performLogin performed
      | handler call => exact effect_of_performHandler performed

/-- What no call changes. -/
theorem Effect.keeps {call : PortCall Principal}
    (effect : Effect world id call next) :
    next.running = world.running ∧ next.log = world.log ∧
      next.logins = world.logins ∧ next.carried = world.carried ∧
        next.received = world.received := by
  cases effect with
  | sessions => exact ⟨rfl, rfl, rfl, rfl, rfl⟩
  | put => exact ⟨rfl, rfl, rfl, rfl, rfl⟩
  | take => exact ⟨rfl, rfl, rfl, rfl, rfl⟩
  | drop => exact ⟨rfl, rfl, rfl, rfl, rfl⟩
  | build => exact ⟨rfl, rfl, rfl, rfl, rfl⟩
  | redeem => exact ⟨rfl, rfl, rfl, rfl, rfl⟩
  | burn => exact ⟨rfl, rfl, rfl, rfl, rfl⟩

end Effects

section Invariants

variable {runtime : LoginRuntime} {codeOf : String → Option String}
  {world next reached : World Principal}

/-- The log holds the calls that were made, and a request carries the secret of
a login only where its browser received it. -/
structure Logged (runtime : LoginRuntime) (world : World Principal) :
    Prop where
  made : ∀ id place call, (id, place, call) ∈ world.log →
    ∃ run, world.running id = some run ∧
      (run.handling.calls runtime)[place]? = some call ∧ place < run.made
  listed : ∀ id run place call, world.running id = some run →
    place < run.made → (run.handling.calls runtime)[place]? = some call →
      (id, place, call) ∈ world.log
  nodup : world.log.Nodup
  login : ∀ id run request answers, world.running id = some run →
    run.handling = .login request answers →
      (answers.txnId, answers.secret) ∈ world.logins
  oneLogin : ∀ id other run otherRun request otherRequest answers otherAnswers,
    world.running id = some run → world.running other = some otherRun →
      run.handling = .login request answers →
        otherRun.handling = .login otherRequest otherAnswers →
          answers.txnId = otherAnswers.txnId → id = other
  carried : ∀ id run, world.running id = some run →
    ∀ value ∈ run.handling.cookies.map Prod.snd, value ∈ world.carried
  bound : ∀ id run, world.running id = some run →
    ∀ login ∈ world.logins, login.2 ∈ run.handling.cookies.map Prod.snd →
      (run.browser, login.1) ∈ world.received

theorem update_eq_some {Key Value : Type} [DecidableEq Key]
    {table : Key → Option Value} {key other : Key} {value : Option Value}
    {found : Value}
    (isFound : Function.update table key value other = some found) :
    (other = key ∧ value = some found) ∨
      (other ≠ key ∧ table other = some found) := by
  by_cases same : other = key
  · subst same
    rw [Function.update_self] at isFound
    exact .inl ⟨rfl, isFound⟩
  · rw [Function.update_of_ne same] at isFound
    exact .inr ⟨same, isFound⟩

theorem Logged.initial : Logged runtime (World.initial : World Principal) where
  made id place call isLogged := by cases isLogged
  listed id run place call isRunning := by cases isRunning
  nodup := .nil
  login id run request answers isRunning := by cases isRunning
  oneLogin id other run otherRun request otherRequest answers otherAnswers
      isRunning := by cases isRunning
  carried id run isRunning := by cases isRunning
  bound id run isRunning := by cases isRunning

theorem start_eq_some {id browser : Nat} {handling : Handling Principal}
    (started : world.start id browser handling = some next) :
    world.running id = none ∧
      (∀ request answers, handling = .login request answers →
        answers.txnId ∉ world.logins.map Prod.fst ∧
          answers.secret ∉ world.carried ∧
            answers.secret ∉ request.cookies.map Prod.snd) ∧
      (∀ login ∈ world.logins,
        login.2 ∈ handling.cookies.map Prod.snd →
          (browser, login.1) ∈ world.received) ∧
      next = { world with
        logins := world.loginsWith handling
        carried := handling.cookies.map Prod.snd ++ world.carried
        running := Function.update world.running id
          (some ⟨browser, handling, 0⟩) } := by
  unfold World.start at started
  split at started
  case isFalse => cases started
  case isTrue allowed =>
    simp only [Bool.and_eq_true, Option.isNone_iff_eq_none] at allowed
    obtain ⟨⟨isNew, fresh⟩, may⟩ := allowed
    refine ⟨isNew, ?_, ?_, (Option.some.inj started).symm⟩
    · rintro request answers rfl
      simp only [World.freshFor, World.isFresh, Bool.and_eq_true,
        Bool.not_eq_true',
        List.contains_eq_mem, decide_eq_false_iff_not] at fresh
      exact ⟨fresh.1.1.1, fresh.1.2, fresh.2⟩
    · intro login listed carries
      have allows := List.all_eq_true.mp may login listed
      simp only [Bool.or_eq_true, Bool.not_eq_true', List.contains_eq_mem,
        decide_eq_false_iff_not, decide_eq_true_eq] at allows
      rcases allows with lacks | has
      · exact absurd carries lacks
      · exact has

theorem mem_loginsWith {handling : Handling Principal}
    {login : String × String} (listed : login ∈ world.loginsWith handling) :
    login ∈ world.logins ∨ ∃ request answers,
      handling = .login request answers ∧
        login = (answers.txnId, answers.secret) := by
  cases handling with
  | login request answers =>
      rcases List.mem_cons.mp listed with rfl | before
      · exact .inr ⟨request, answers, rfl, rfl⟩
      · exact .inl before
  | callback request answers => exact .inl listed
  | logout request answers => exact .inl listed

theorem loginsWith_of_mem (handling : Handling Principal)
    {login : String × String} (listed : login ∈ world.logins) :
    login ∈ world.loginsWith handling := by
  cases handling with
  | login request answers => exact List.mem_cons_of_mem _ listed
  | callback request answers => exact listed
  | logout request answers => exact listed

theorem Logged.start (sound : Logged runtime world) {id browser : Nat}
    {handling : Handling Principal}
    (started : world.start id browser handling = some next) :
    Logged runtime next := by
  obtain ⟨isNew, fresh, may, rfl⟩ := start_eq_some started
  have kept {other : Nat} {run : Running Principal}
      (isRunning : Function.update world.running id
        (some ⟨browser, handling, 0⟩) other = some run) :
      (other = id ∧ run = ⟨browser, handling, 0⟩) ∨
        (other ≠ id ∧ world.running other = some run) := by
    rcases update_eq_some isRunning with ⟨same, isNow⟩ | before
    · exact .inl ⟨same, (Option.some.inj isNow).symm⟩
    · exact .inr before
  constructor
  · intro other place call isLogged
    obtain ⟨run, isRunning, isCall, before⟩ := sound.made _ _ _ isLogged
    have different : other ≠ id := by
      rintro rfl
      rw [isNew] at isRunning
      cases isRunning
    refine ⟨run, ?_, isCall, before⟩
    dsimp only
    rw [Function.update_of_ne different]
    exact isRunning
  · intro other run place call isRunning before isCall
    rcases kept isRunning with ⟨_, rfl⟩ | ⟨_, wasRunning⟩
    · cases before
    · exact sound.listed _ _ _ _ wasRunning before isCall
  · exact sound.nodup
  · intro other run request answers isRunning isLogin
    rcases kept isRunning with ⟨_, rfl⟩ | ⟨_, wasRunning⟩
    · dsimp only at isLogin
      subst isLogin
      exact List.mem_cons_self
    · exact loginsWith_of_mem handling
        (sound.login _ _ _ _ wasRunning isLogin)
  · intro first second run otherRun request otherRequest answers otherAnswers
      isRunning isOther isLogin isOtherLogin same
    rcases kept isRunning with ⟨rfl, rfl⟩ | ⟨_, wasRunning⟩
    · rcases kept isOther with ⟨rfl, _⟩ | ⟨_, wasOther⟩
      · rfl
      · have listed := sound.login _ _ _ _ wasOther isOtherLogin
        exact absurd (same ▸ List.mem_map_of_mem listed)
          (fresh _ _ isLogin).1
    · rcases kept isOther with ⟨rfl, rfl⟩ | ⟨_, wasOther⟩
      · have listed := sound.login _ _ _ _ wasRunning isLogin
        exact absurd (same ▸ List.mem_map_of_mem listed)
          (fresh _ _ isOtherLogin).1
      · exact sound.oneLogin _ _ _ _ _ _ _ _ wasRunning wasOther isLogin
          isOtherLogin same
  · intro other run isRunning value carries
    rcases kept isRunning with ⟨_, rfl⟩ | ⟨_, wasRunning⟩
    · exact List.mem_append_left _ carries
    · exact List.mem_append_right _ (sound.carried _ _ wasRunning _ carries)
  · intro other run isRunning login listed carries
    rcases kept isRunning with ⟨_, rfl⟩ | ⟨_, wasRunning⟩
    · rcases mem_loginsWith listed with before | ⟨_, answers, rfl, rfl⟩
      · exact may login before carries
      · exact absurd carries (fresh _ _ rfl).2.2
    · rcases mem_loginsWith listed with before | ⟨_, answers, rfl, rfl⟩
      · exact sound.bound _ _ wasRunning _ before carries
      · exact absurd (sound.carried _ _ wasRunning _ carries)
          (fresh _ _ rfl).2.1

/-- The world after a call with this effect. -/
def World.noted (reached : World Principal) (id : Nat)
    (run : Running Principal) (call : PortCall Principal) : World Principal :=
  { reached with
    running := Function.update reached.running id
      (some { run with made := run.made + 1 })
    log := (id, run.made, call) :: reached.log }

theorem Logged.call (sound : Logged runtime world) {id : Nat}
    {run : Running Principal} {call : PortCall Principal}
    (isRunning : world.running id = some run)
    (isCall : (run.handling.calls runtime)[run.made]? = some call)
    (effect : Effect world id call reached) :
    Logged runtime (reached.noted id run call) := by
  obtain ⟨sameRunning, sameLog, sameLogins, sameCarried, sameReceived⟩ :=
    effect.keeps
  have kept {other : Nat} {after : Running Principal}
      (isAfter : (reached.noted id run call).running other = some after) :
      ∃ before, world.running other = some before ∧
        after.handling = before.handling ∧ after.browser = before.browser := by
    rcases update_eq_some isAfter with ⟨rfl, isNow⟩ | ⟨_, wasRunning⟩
    · cases isNow
      exact ⟨run, isRunning, rfl, rfl⟩
    · rw [sameRunning] at wasRunning
      exact ⟨after, wasRunning, rfl, rfl⟩
  constructor
  · intro other place madeCall isLogged
    unfold World.noted at isLogged ⊢
    dsimp only at isLogged ⊢
    rw [sameLog] at isLogged
    rcases List.mem_cons.mp isLogged with now | earlier
    · cases now
      exact ⟨_, Function.update_self .., isCall, Nat.lt_succ_self _⟩
    · obtain ⟨before, wasRunning, wasCall, wasMade⟩ :=
        sound.made _ _ _ earlier
      by_cases same : other = id
      · subst same
        rw [isRunning] at wasRunning
        cases wasRunning
        exact ⟨_, Function.update_self .., wasCall, Nat.lt_succ_of_lt wasMade⟩
      · refine ⟨before, ?_, wasCall, wasMade⟩
        rw [Function.update_of_ne same, sameRunning]
        exact wasRunning
  · intro other after place madeCall isAfter before wasCall
    unfold World.noted at isAfter ⊢
    dsimp only at isAfter ⊢
    rw [sameLog]
    rcases update_eq_some isAfter with ⟨rfl, isNow⟩ | ⟨_, wasRunning⟩
    · cases isNow
      dsimp only at before wasCall
      rcases Nat.lt_succ_iff_lt_or_eq.mp before with earlier | rfl
      · exact List.mem_cons_of_mem _
          (sound.listed _ _ _ _ isRunning earlier wasCall)
      · rw [isCall] at wasCall
        cases wasCall
        exact List.mem_cons_self
    · rw [sameRunning] at wasRunning
      exact List.mem_cons_of_mem _
        (sound.listed _ _ _ _ wasRunning before wasCall)
  · unfold World.noted
    dsimp only
    rw [sameLog]
    refine List.nodup_cons.mpr ⟨?_, sound.nodup⟩
    intro earlier
    obtain ⟨before, wasRunning, _, wasMade⟩ := sound.made _ _ _ earlier
    rw [isRunning] at wasRunning
    cases wasRunning
    exact Nat.lt_irrefl _ wasMade
  · intro other after request answers isAfter isLogin
    obtain ⟨before, wasRunning, handling, _⟩ := kept isAfter
    have listed := sound.login _ _ _ _ wasRunning (handling ▸ isLogin)
    rwa [← sameLogins] at listed
  · intro first second after otherAfter request otherRequest answers
      otherAnswers isAfter isOther isLogin isOtherLogin same
    obtain ⟨before, wasRunning, handling, _⟩ := kept isAfter
    obtain ⟨otherBefore, wasOther, otherHandling, _⟩ := kept isOther
    exact sound.oneLogin _ _ _ _ _ _ _ _ wasRunning wasOther
      (handling ▸ isLogin) (otherHandling ▸ isOtherLogin) same
  · intro other after isAfter value carries
    obtain ⟨before, wasRunning, handling, _⟩ := kept isAfter
    rw [handling] at carries
    have listed := sound.carried _ _ wasRunning _ carries
    rwa [← sameCarried] at listed
  · intro other after isAfter login listed carries
    obtain ⟨before, wasRunning, handling, browser⟩ := kept isAfter
    rw [handling] at carries
    have isListed : login ∈ world.logins := by
      rw [← sameLogins]
      exact listed
    have has := sound.bound _ _ wasRunning _ isListed carries
    rw [← sameReceived, ← browser] at has
    exact has

/-- A transaction in the store was put there by its login and not yet taken,
and each is taken once. -/
structure Stored (world : World Principal) : Prop where
  put : ∀ state tx, world.transactions state = some tx →
    ∃ id place ttlMs reply,
      (id, place, .login (.putTransaction state tx ttlMs reply)) ∈ world.log
  present : ∀ state tx, world.transactions state = some tx →
    ∀ id place taken,
      (id, place, .handler (.takeTransaction state (.ok (some taken)))) ∉
        world.log
  taken : ∀ id place state tx,
    (id, place, .handler (.takeTransaction state (.ok (some tx)))) ∈
        world.log →
      ∃ id place ttlMs reply,
        (id, place, .login (.putTransaction state tx ttlMs reply)) ∈ world.log
  once : ∀ id other place otherPlace state tx otherTx,
    (id, place, .handler (.takeTransaction state (.ok (some tx)))) ∈
        world.log →
      (other, otherPlace, .handler
          (.takeTransaction state (.ok (some otherTx)))) ∈ world.log →
        id = other

/-- Calls of a login are made by a login. -/
theorem login_of_call {handling : Handling Principal} {place : Nat}
    {call : LoginCall}
    (isCall : (handling.calls runtime)[place]? = some (.login call)) :
    ∃ request answers, handling = .login request answers ∧
      (handleLogin runtime request answers).calls[place]? = some call := by
  cases handling with
  | login request answers =>
      rw [Handling.calls, List.getElem?_map] at isCall
      obtain ⟨made, found, same⟩ := Option.map_eq_some_iff.mp isCall
      cases same
      exact ⟨request, answers, rfl, found⟩
  | callback request answers =>
      rw [Handling.calls, List.getElem?_map] at isCall
      obtain ⟨made, _, same⟩ := Option.map_eq_some_iff.mp isCall
      cases same
  | logout request answers =>
      rw [Handling.calls, List.getElem?_map] at isCall
      obtain ⟨made, _, same⟩ := Option.map_eq_some_iff.mp isCall
      cases same

/-- A transaction is put by the login that made it, as its second call. -/
theorem put_call {handling : Handling Principal} {place ttlMs : Nat}
    {state : String} {tx : LoginTransaction} {reply : StoreStep Unit}
    (isCall : (handling.calls runtime)[place]? =
      some (.login (.putTransaction state tx ttlMs reply))) :
    ∃ request answers authorization,
      handling = .login request answers ∧ place = 1 ∧
        answers.txnId = state ∧ answers.authorization = .built authorization ∧
          tx = newTransaction runtime request answers authorization := by
  obtain ⟨request, answers, rfl, found⟩ := login_of_call isCall
  rcases login_call found with ⟨_, same⟩ | ⟨rfl, authorization, built, same⟩ |
    ⟨_, _, same⟩
  · cases same
  · cases same
    exact ⟨request, answers, authorization, rfl, rfl, rfl, built, rfl⟩
  · cases same

theorem dropTxn_eq_some {state other : String} {tx : LoginTransaction}
    (present : (world.dropTxn state).transactions other = some tx) :
    other ≠ state ∧ world.transactions other = some tx := by
  rcases update_eq_some present with ⟨_, isNone⟩ | before
  · cases isNone
  · exact before

/-- A call that takes no transaction and puts none. -/
theorem Stored.quiet (stored : Stored world) {id : Nat}
    {run : Running Principal} {call : PortCall Principal}
    (sameLog : reached.log = world.log)
    (fewer : ∀ state tx, reached.transactions state = some tx →
      world.transactions state = some tx)
    (notTaken : ∀ state tx,
      call ≠ .handler (.takeTransaction state (.ok (some tx)))) :
    Stored (reached.noted id run call) := by
  have before {other place : Nat} {state : String} {tx : LoginTransaction}
      (isLogged : (other, place, .handler
        (.takeTransaction state (.ok (some tx)))) ∈
          (reached.noted id run call).log) :
      (other, place, .handler (.takeTransaction state (.ok (some tx)))) ∈
        world.log := by
    unfold World.noted at isLogged
    dsimp only at isLogged
    rw [sameLog] at isLogged
    rcases List.mem_cons.mp isLogged with now | earlier
    · cases now
      exact absurd rfl (notTaken _ _)
    · exact earlier
  have after {event : Nat × Nat × PortCall Principal}
      (isLogged : event ∈ world.log) :
      event ∈ (reached.noted id run call).log := by
    unfold World.noted
    dsimp only
    rw [sameLog]
    exact List.mem_cons_of_mem _ isLogged
  constructor
  · intro state tx present
    obtain ⟨_, _, _, _, isPut⟩ := stored.put _ _ (fewer _ _ present)
    exact ⟨_, _, _, _, after isPut⟩
  · intro state tx present other place taken isLogged
    exact stored.present _ _ (fewer _ _ present) _ _ _ (before isLogged)
  · intro other place state tx isLogged
    obtain ⟨_, _, _, _, isPut⟩ := stored.taken _ _ _ _ (before isLogged)
    exact ⟨_, _, _, _, after isPut⟩
  · intro first second place otherPlace state tx otherTx isLogged isOther
    exact stored.once _ _ _ _ _ _ _ (before isLogged) (before isOther)

theorem Stored.put_new (stored : Stored world)
    (logged : Logged runtime world) {id : Nat} {run : Running Principal}
    (isRunning : world.running id = some run) {txnId : String}
    {tx : LoginTransaction} {ttlMs : Nat} {reply : StoreStep Unit}
    (isCall : (run.handling.calls runtime)[run.made]? =
      some (.login (.putTransaction txnId tx ttlMs reply))) :
    Stored ((world.putTxn txnId tx).noted id run
      (.login (.putTransaction txnId tx ttlMs reply))) := by
  -- The login of the transaction makes this call for the first time.
  have untaken (other place : Nat) (taken : LoginTransaction) :
      (other, place, .handler
        (.takeTransaction txnId (.ok (some taken)))) ∉ world.log := by
    intro isTaken
    obtain ⟨first, firstPlace, _, _, isPut⟩ := stored.taken _ _ _ _ isTaken
    obtain ⟨firstRun, firstRunning, firstCall, firstMade⟩ :=
      logged.made _ _ _ isPut
    obtain ⟨_, _, _, isLogin, rfl, isTxn, _⟩ := put_call firstCall
    obtain ⟨_, _, _, isOwnLogin, ownPlace, isOwnTxn, _⟩ := put_call isCall
    have same := logged.oneLogin _ _ _ _ _ _ _ _ firstRunning isRunning isLogin
      isOwnLogin (isTxn.trans isOwnTxn.symm)
    subst same
    rw [isRunning] at firstRunning
    cases firstRunning
    omega
  have before {other place : Nat} {state : String} {taken : LoginTransaction}
      (isLogged : (other, place, .handler
        (.takeTransaction state (.ok (some taken)))) ∈
          ((world.putTxn txnId tx).noted id run
            (.login (.putTransaction txnId tx ttlMs reply))).log) :
      (other, place, .handler (.takeTransaction state (.ok (some taken)))) ∈
        world.log := by
    rcases List.mem_cons.mp isLogged with now | earlier
    · cases now
    · exact earlier
  have position {state : String} {present : LoginTransaction}
      (isPresent : Function.update world.transactions txnId (some tx) state =
        some present) :
      (state = txnId ∧ present = tx) ∨
        (state ≠ txnId ∧ world.transactions state = some present) := by
    rcases update_eq_some isPresent with ⟨same, isNow⟩ | before
    · exact .inl ⟨same, (Option.some.inj isNow).symm⟩
    · exact .inr before
  constructor
  · intro state present isPresent
    rcases position isPresent with ⟨rfl, rfl⟩ | ⟨_, wasPresent⟩
    · exact ⟨_, _, _, _, List.mem_cons_self⟩
    · obtain ⟨_, _, _, _, isPut⟩ := stored.put _ _ wasPresent
      exact ⟨_, _, _, _, List.mem_cons_of_mem _ isPut⟩
  · intro state present isPresent other place taken isLogged
    rcases position isPresent with ⟨rfl, rfl⟩ | ⟨_, wasPresent⟩
    · exact untaken _ _ _ (before isLogged)
    · exact stored.present _ _ wasPresent _ _ _ (before isLogged)
  · intro other place state taken isLogged
    obtain ⟨_, _, _, _, isPut⟩ := stored.taken _ _ _ _ (before isLogged)
    exact ⟨_, _, _, _, List.mem_cons_of_mem _ isPut⟩
  · intro first second place otherPlace state taken otherTaken isLogged isOther
    exact stored.once _ _ _ _ _ _ _ (before isLogged) (before isOther)

theorem Stored.take (stored : Stored world) {id : Nat}
    {run : Running Principal} {state : String} {tx : LoginTransaction}
    (isStored : world.transactions state = some tx) :
    Stored ((world.dropTxn state).noted id run
      (.handler (.takeTransaction state (.ok (some tx))))) := by
  constructor
  · intro other present isPresent
    obtain ⟨_, wasPresent⟩ := dropTxn_eq_some isPresent
    obtain ⟨_, _, _, _, isPut⟩ := stored.put _ _ wasPresent
    exact ⟨_, _, _, _, List.mem_cons_of_mem _ isPut⟩
  · intro other present isPresent first place taken isLogged
    obtain ⟨different, wasPresent⟩ := dropTxn_eq_some isPresent
    rcases List.mem_cons.mp isLogged with now | earlier
    · cases now
      exact different rfl
    · exact stored.present _ _ wasPresent _ _ _ earlier
  · intro first place other taken isLogged
    rcases List.mem_cons.mp isLogged with now | earlier
    · cases now
      obtain ⟨_, _, _, _, isPut⟩ := stored.put _ _ isStored
      exact ⟨_, _, _, _, List.mem_cons_of_mem _ isPut⟩
    · obtain ⟨_, _, _, _, isPut⟩ := stored.taken _ _ _ _ earlier
      exact ⟨_, _, _, _, List.mem_cons_of_mem _ isPut⟩
  · intro first second place otherPlace other taken otherTaken isLogged isOther
    rcases List.mem_cons.mp isLogged with now | earlier
    · rcases List.mem_cons.mp isOther with otherNow | otherEarlier
      · cases now
        cases otherNow
        rfl
      · cases now
        exact absurd otherEarlier (stored.present _ _ isStored _ _ _)
    · rcases List.mem_cons.mp isOther with otherNow | otherEarlier
      · cases otherNow
        exact absurd earlier (stored.present _ _ isStored _ _ _)
      · exact stored.once _ _ _ _ _ _ _ earlier otherEarlier

theorem Stored.call (stored : Stored world) (logged : Logged runtime world)
    {id : Nat} {run : Running Principal} {call : PortCall Principal}
    (isRunning : world.running id = some run)
    (isCall : (run.handling.calls runtime)[run.made]? = some call)
    (effect : Effect world id call reached) :
    Stored (reached.noted id run call) := by
  have notTaken (quiet : Quiet call) (state : String) (tx : LoginTransaction) :
      call ≠ .handler (.takeTransaction state (.ok (some tx))) := by
    rintro rfl
    exact quiet
  cases effect with
  | sessions quiet _ =>
      exact stored.quiet rfl (fun _ _ present => present) (notTaken quiet)
  | put txnId tx ttlMs reply => exact stored.put_new logged isRunning isCall
  | take state tx isStored => exact stored.take isStored
  | drop quiet state =>
      exact stored.quiet rfl (fun _ _ present => (dropTxn_eq_some present).2)
        (notTaken quiet)
  | build =>
      exact stored.quiet rfl (fun _ _ present => present) (by simp)
  | redeem =>
      exact stored.quiet rfl (fun _ _ present => present) (by simp)
  | burn quiet _ =>
      exact stored.quiet rfl (fun _ _ present => present) (notTaken quiet)

/-- What the provider has issued, and for which login. -/
structure Coded (world : World Principal) : Prop where
  built : ∀ authorized ∈ world.authorizations, ∃ id place redirectUri,
    (id, place, .login (.buildAuthorizationUrl redirectUri authorized.1
      (.built authorized.2))) ∈ world.log
  listed : ∀ id place redirectUri state authorization,
    (id, place, .login (.buildAuthorizationUrl redirectUri state
      (.built authorization))) ∈ world.log →
        (state, authorization) ∈ world.authorizations
  verifiers : ∀ authorized ∈ world.authorizations,
    ∀ other ∈ world.authorizations,
      authorized.2.codeVerifier = other.2.codeVerifier → authorized = other
  codes : ∀ code ∈ world.codes,
    ∃ state, (state, code.authorization) ∈ world.authorizations
  granted : ∀ id place redirectUri query verifier state nonce tokens,
    (id, place, .handler (.authorizationCodeGrant redirectUri query verifier
      state nonce (.tokens tokens))) ∈ world.log →
        ∃ code, (id, code) ∈ world.redeemed ∧
          code.authorization.codeVerifier = verifier ∧
            code.authorization.nonce = nonce ∧
              ∃ owner, (owner, code.authorization) ∈ world.authorizations

/-- A call that builds no request and redeems no code. -/
theorem Coded.quiet (coded : Coded world) {id : Nat}
    {run : Running Principal} {call : PortCall Principal}
    (sameLog : reached.log = world.log)
    (sameAuthorizations : reached.authorizations = world.authorizations)
    (sameRedeemed : reached.redeemed = world.redeemed)
    (fewer : ∀ code ∈ reached.codes, code ∈ world.codes)
    (notBuilt : ∀ redirectUri state authorization,
      call ≠ .login (.buildAuthorizationUrl redirectUri state
        (.built authorization)))
    (notGranted : ∀ redirectUri query verifier state nonce tokens,
      call ≠ .handler (.authorizationCodeGrant redirectUri query verifier state
        nonce (.tokens tokens))) :
    Coded (reached.noted id run call) := by
  unfold World.noted
  constructor
  · intro authorized isListed
    dsimp only at isListed ⊢
    rw [sameAuthorizations] at isListed
    rw [sameLog]
    obtain ⟨_, _, _, isBuilt⟩ := coded.built _ isListed
    exact ⟨_, _, _, List.mem_cons_of_mem _ isBuilt⟩
  · intro other place redirectUri state authorization isLogged
    dsimp only at isLogged ⊢
    rw [sameLog] at isLogged
    rw [sameAuthorizations]
    rcases List.mem_cons.mp isLogged with now | earlier
    · cases now
      exact absurd rfl (notBuilt _ _ _)
    · exact coded.listed _ _ _ _ _ earlier
  · dsimp only
    rw [sameAuthorizations]
    exact coded.verifiers
  · intro code issued
    dsimp only at issued ⊢
    rw [sameAuthorizations]
    exact coded.codes _ (fewer _ issued)
  · intro other place redirectUri query verifier state nonce tokens isLogged
    dsimp only at isLogged ⊢
    rw [sameLog] at isLogged
    rw [sameAuthorizations, sameRedeemed]
    rcases List.mem_cons.mp isLogged with now | earlier
    · cases now
      exact absurd rfl (notGranted _ _ _ _ _ _)
    · exact coded.granted _ _ _ _ _ _ _ _ earlier

theorem Coded.call (coded : Coded world) {id : Nat}
    {run : Running Principal} {call : PortCall Principal}
    (effect : Effect world id call reached) :
    Coded (reached.noted id run call) := by
  have notBuilt (quiet : Quiet call) (redirectUri state : String)
      (authorization : AuthorizationRequest) :
      call ≠ .login (.buildAuthorizationUrl redirectUri state
        (.built authorization)) := by
    rintro rfl
    exact quiet
  have notGranted (quiet : Quiet call) (redirectUri query verifier state nonce :
      String) (tokens : OidcTokens) :
      call ≠ .handler (.authorizationCodeGrant redirectUri query verifier state
        nonce (.tokens tokens)) := by
    rintro rfl
    exact quiet
  cases effect with
  | sessions quiet _ =>
      exact coded.quiet rfl rfl rfl (fun _ issued => issued) (notBuilt quiet)
        (notGranted quiet)
  | put =>
      exact coded.quiet rfl rfl rfl (fun _ issued => issued) (by simp) (by simp)
  | take =>
      exact coded.quiet rfl rfl rfl (fun _ issued => issued) (by simp) (by simp)
  | drop quiet _ =>
      exact coded.quiet rfl rfl rfl (fun _ issued => issued) (notBuilt quiet)
        (notGranted quiet)
  | burn quiet _ =>
      exact coded.quiet rfl rfl rfl
        (fun _ issued => (List.mem_filter.mp issued).1) (notBuilt quiet)
        (notGranted quiet)
  | build redirectUri state authorization fresh =>
      constructor
      · intro authorized isListed
        rcases List.mem_cons.mp isListed with rfl | earlier
        · exact ⟨_, _, _, List.mem_cons_self⟩
        · obtain ⟨_, _, _, isBuilt⟩ := coded.built _ earlier
          exact ⟨_, _, _, List.mem_cons_of_mem _ isBuilt⟩
      · intro other place uri owner built isLogged
        rcases List.mem_cons.mp isLogged with now | earlier
        · cases now
          exact List.mem_cons_self
        · exact List.mem_cons_of_mem _ (coded.listed _ _ _ _ _ earlier)
      · intro authorized isListed other isOther same
        rcases List.mem_cons.mp isListed with rfl | earlier
        · rcases List.mem_cons.mp isOther with rfl | otherEarlier
          · rfl
          · exact absurd same.symm (fresh _ otherEarlier)
        · rcases List.mem_cons.mp isOther with rfl | otherEarlier
          · exact absurd same (fresh _ earlier)
          · exact coded.verifiers _ earlier _ otherEarlier same
      · intro code issued
        obtain ⟨owner, isListed⟩ := coded.codes _ issued
        exact ⟨owner, List.mem_cons_of_mem _ isListed⟩
      · intro other place uri query verifier owner nonce tokens isLogged
        rcases List.mem_cons.mp isLogged with now | earlier
        · cases now
        · obtain ⟨code, redeemed, isVerifier, isNonce, issuer, isListed⟩ :=
            coded.granted _ _ _ _ _ _ _ _ earlier
          exact ⟨code, redeemed, isVerifier, isNonce, issuer,
            List.mem_cons_of_mem _ isListed⟩
  | redeem redirectUri query state code tokens issued =>
      constructor
      · intro authorized isListed
        obtain ⟨_, _, _, isBuilt⟩ := coded.built _ isListed
        exact ⟨_, _, _, List.mem_cons_of_mem _ isBuilt⟩
      · intro other place uri owner built isLogged
        rcases List.mem_cons.mp isLogged with now | earlier
        · cases now
        · exact coded.listed _ _ _ _ _ earlier
      · exact coded.verifiers
      · intro other isIssued
        exact coded.codes _ (List.mem_filter.mp isIssued).1
      · intro other place uri otherQuery verifier owner nonce granted isLogged
        rcases List.mem_cons.mp isLogged with now | earlier
        · cases now
          exact ⟨code, List.mem_cons_self, rfl, rfl, coded.codes _ issued⟩
        · obtain ⟨redeemed, isRedeemed, rest⟩ :=
            coded.granted _ _ _ _ _ _ _ _ earlier
          exact ⟨redeemed, List.mem_cons_of_mem _ isRedeemed, rest⟩

structure Sound (runtime : LoginRuntime) (world : World Principal) :
    Prop where
  logged : Logged runtime world
  stored : Stored world
  coded : Coded world

theorem Sound.initial : Sound runtime (World.initial : World Principal) where
  logged := .initial
  stored :=
    { put := by
        intro state tx present
        cases present
      present := by
        intro state tx present
        cases present
      taken := by
        intro id place state tx isLogged
        cases isLogged
      once := by
        intro id other place otherPlace state tx otherTx isLogged
        cases isLogged }
  coded :=
    { built := by
        intro authorized isListed
        cases isListed
      listed := by
        intro id place redirectUri state authorization isLogged
        cases isLogged
      verifiers := by
        intro authorized isListed
        cases isListed
      codes := by
        intro code issued
        cases issued
      granted := by
        intro id place redirectUri query verifier state nonce tokens isLogged
        cases isLogged }

theorem Sound.step (sound : Sound runtime world) {action : Action Principal}
    (stepped : World.step runtime codeOf world action = some next) :
    Sound runtime next := by
  obtain ⟨logged, stored, coded⟩ := sound
  cases action with
  | start id browser handling =>
      have isLogged := logged.start stepped
      obtain ⟨_, _, _, rfl⟩ := start_eq_some stepped
      exact ⟨isLogged, ⟨stored.put, stored.present, stored.taken, stored.once⟩,
        ⟨coded.built, coded.listed, coded.verifiers, coded.codes,
          coded.granted⟩⟩
  | call id applied code =>
      obtain ⟨run, call, reached, isRunning, isCall, effect, rfl⟩ :=
        makeCall_eq_some stepped
      exact ⟨logged.call isRunning isCall effect,
        stored.call logged isRunning isCall effect, coded.call effect⟩
  | respond id =>
      have answered : ∃ received, (∀ pair ∈ world.received, pair ∈ received) ∧
          next = { world with received } := by
        simp only [World.step, World.respond] at stepped
        have stays : ∃ received, (∀ pair ∈ world.received, pair ∈ received) ∧
            world = { world with received } :=
          ⟨world.received, fun _ has => has, rfl⟩
        split at stepped
        · split at stepped
          · split at stepped
            · cases stepped
              exact ⟨_, fun _ has => List.mem_cons_of_mem _ has, rfl⟩
            · cases stepped
              exact stays
          · cases stepped
            exact stays
        · cases stepped
          exact stays
      obtain ⟨received, grows, rfl⟩ := answered
      refine ⟨⟨logged.made, logged.listed, logged.nodup, logged.login,
        logged.oneLogin, logged.carried, ?_⟩,
        ⟨stored.put, stored.present, stored.taken, stored.once⟩,
        ⟨coded.built, coded.listed, coded.verifiers, coded.codes,
          coded.granted⟩⟩
      intro other run isRunning login listed carries
      exact grows _ (logged.bound _ _ isRunning _ listed carries)
  | issue code =>
      simp only [World.step] at stepped
      split at stepped
      next allowed =>
        cases stepped
        refine ⟨⟨logged.made, logged.listed, logged.nodup, logged.login,
          logged.oneLogin, logged.carried, logged.bound⟩,
          ⟨stored.put, stored.present, stored.taken, stored.once⟩,
          ⟨coded.built, coded.listed, coded.verifiers, ?_, coded.granted⟩⟩
        intro other issued
        rcases List.mem_cons.mp issued with rfl | earlier
        · obtain ⟨authorized, isListed, same⟩ := List.mem_map.mp allowed.2
          exact ⟨authorized.1, by rw [← same]; exact isListed⟩
        · exact coded.codes _ earlier
      · cases stepped
  | expireTransaction state =>
      cases stepped
      refine ⟨⟨logged.made, logged.listed, logged.nodup, logged.login,
        logged.oneLogin, logged.carried, logged.bound⟩,
        ⟨?_, ?_, stored.taken, stored.once⟩,
        ⟨coded.built, coded.listed, coded.verifiers, coded.codes,
          coded.granted⟩⟩
      · intro other tx present
        exact stored.put _ _ (dropTxn_eq_some present).2
      · intro other tx present
        exact stored.present _ _ (dropTxn_eq_some present).2
  | expireSession sid =>
      cases stepped
      exact ⟨⟨logged.made, logged.listed, logged.nodup, logged.login,
        logged.oneLogin, logged.carried, logged.bound⟩,
        ⟨stored.put, stored.present, stored.taken, stored.once⟩,
        ⟨coded.built, coded.listed, coded.verifiers, coded.codes,
          coded.granted⟩⟩

end Invariants

section Binding

variable {runtime : LoginRuntime} {codeOf : String → Option String}
  {world : World Principal} {rt : AuthRuntime} {request : Request}
  {answers : CallbackAnswers Principal}

theorem callback_of_call {handling : Handling Principal} {place : Nat}
    {call : HandlerCall Principal} (own : isOfCallback call)
    (isCall : (handling.calls runtime)[place]? = some (.handler call)) :
    ∃ request answers, handling = .callback request answers ∧
      (handleCallback runtime.toAuthRuntime request answers).calls[place]? =
        some call := by
  cases handling with
  | login request answers =>
      rw [Handling.calls, List.getElem?_map] at isCall
      obtain ⟨_, _, same⟩ := Option.map_eq_some_iff.mp isCall
      cases same
  | callback request answers =>
      rw [Handling.calls, List.getElem?_map] at isCall
      obtain ⟨made, found, same⟩ := Option.map_eq_some_iff.mp isCall
      cases same
      exact ⟨request, answers, rfl, found⟩
  | logout request answers =>
      rw [Handling.calls, List.getElem?_map] at isCall
      obtain ⟨made, found, same⟩ := Option.map_eq_some_iff.mp isCall
      cases same
      exact absurd own (logout_calls (List.mem_of_getElem? found))

theorem Matches.take {state : String} {tx : LoginTransaction}
    (isMatch : Matches rt request answers state tx) :
    (handleCallback rt request answers).calls[0]? =
      some (.takeTransaction state (.ok (some tx))) := by
  obtain ⟨isState, isTaken, secret, isSecret, _⟩ := isMatch
  unfold handleCallback
  simp only [isState, isSecret, isTaken, record_bind_calls,
    List.getElem?_cons_zero]

/-- What a callback calls after it took its transaction. -/
theorem Matches.grant {state : String} {tx : LoginTransaction}
    (isMatch : Matches rt request answers state tx) {place : Nat}
    {call : HandlerCall Principal}
    (isCall : (handleCallback rt request answers).calls[place]? = some call)
    (late : 1 ≤ place) :
    (handleCallback rt request answers).calls[1]? =
      some (.authorizationCodeGrant rt.redirectUri request.query
        tx.codeVerifier state tx.nonce answers.grant) := by
  have long := (List.getElem?_eq_some_iff.mp isCall).1
  obtain ⟨grant, second⟩ : ∃ grant,
      (handleCallback rt request answers).calls[1]? = some grant :=
    ⟨_, List.getElem?_eq_getElem (by omega)⟩
  rcases callback_call second with ⟨first, _⟩ |
    ⟨owner, otherTx, isOther, ⟨_, same⟩ | ⟨_, later, _⟩⟩
  · cases first
  · have isState := isMatch.isState
    have isTaken := isMatch.isTaken
    rw [isOther.isState] at isState
    rw [isOther.isTaken] at isTaken
    cases isState
    cases isTaken
    rw [second, same]
  · omega

/-- A call of a callback that was made, and those before it. -/
theorem Logged.earlier (logged : Logged runtime world) {id : Nat}
    {run : Running Principal} (isRunning : world.running id = some run)
    (isCallback : run.handling = .callback request answers)
    {place : Nat} (made : place < run.made) {call : HandlerCall Principal}
    (isCall : (handleCallback runtime.toAuthRuntime request
      answers).calls[place]? = some call) :
    (id, place, .handler call) ∈ world.log := by
  apply logged.listed _ _ _ _ isRunning made
  rw [isCallback, Handling.calls, List.getElem?_map, isCall]
  rfl

/-- A transaction that was taken is that of a login, which has built its
request. -/
theorem Sound.origin (sound : Sound runtime world) {id place : Nat}
    {state : String} {tx : LoginTransaction}
    (isTaken : (id, place, .handler
      (.takeTransaction state (.ok (some tx)))) ∈ world.log) :
    ∃ secret authorization,
      (state, secret) ∈ world.logins ∧
        tx.secretHash = runtime.hashSecret secret ∧
        tx.codeVerifier = authorization.codeVerifier ∧
          (state, authorization) ∈ world.authorizations := by
  obtain ⟨login, putPlace, _, _, isPut⟩ := sound.stored.taken _ _ _ _ isTaken
  obtain ⟨run, isRunning, isCall, made⟩ := sound.logged.made _ _ _ isPut
  obtain ⟨loginRequest, loginAnswers, authorization, isLogin, rfl, rfl, built,
    rfl⟩ := put_call isCall
  refine ⟨loginAnswers.secret, authorization,
    sound.logged.login _ _ _ _ isRunning isLogin, rfl, rfl, ?_⟩
  have first : ∃ call, (run.handling.calls runtime)[0]? = some call := by
    have short := (List.getElem?_eq_some_iff.mp isCall).1
    exact ⟨_, List.getElem?_eq_getElem (by omega)⟩
  obtain ⟨call, isFirst⟩ := first
  have isLogged := sound.logged.listed _ _ _ _ isRunning (by omega) isFirst
  rw [isLogin, Handling.calls, List.getElem?_map] at isFirst
  obtain ⟨loginCall, found, rfl⟩ := Option.map_eq_some_iff.mp isFirst
  rcases login_call found with ⟨_, rfl⟩ | ⟨place, _⟩ | ⟨_, place, _⟩
  · rw [built] at isLogged
    exact sound.coded.listed _ _ _ _ _ isLogged
  · cases place
  · cases place

/-- An exchange of a code with the state. -/
def IsExchange (state : String) (event : Nat × Nat × PortCall Principal) :
    Prop :=
  ∃ redirectUri query verifier nonce reply,
    event.2.2 = .handler (.authorizationCodeGrant redirectUri query verifier
      state nonce reply)

theorem Sound.exchange (sound : Sound runtime world) {state : String}
    {event : Nat × Nat × PortCall Principal} (isLogged : event ∈ world.log)
    (exchange : IsExchange state event) :
    event.2.1 = 1 ∧ ∃ run request answers tx,
      world.running event.1 = some run ∧
        run.handling = .callback request answers ∧
        (run.handling.calls runtime)[1]? = some event.2.2 ∧
        Matches runtime.toAuthRuntime request answers state tx ∧
        (event.1, 0, .handler (.takeTransaction state (.ok (some tx)))) ∈
          world.log := by
  obtain ⟨id, place, call⟩ := event
  obtain ⟨redirectUri, query, verifier, nonce, reply, same⟩ := exchange
  dsimp only at same ⊢
  subst same
  obtain ⟨run, isRunning, isCall, made⟩ := sound.logged.made _ _ _ isLogged
  obtain ⟨request, answers, isCallback, found⟩ :=
    callback_of_call (by trivial) isCall
  rcases callback_call found with ⟨_, _, _, other⟩ |
    ⟨_, tx, isMatch, ⟨rfl, same⟩ | ⟨_, _, _, after⟩⟩
  · cases other
  · cases same
    exact ⟨rfl, run, request, answers, tx, isRunning, isCallback, isCall,
      isMatch, sound.logged.earlier isRunning isCallback (by omega)
        isMatch.take⟩
  · cases after

/-- What a login gives its browser. -/
structure Bound (runtime : LoginRuntime) (world : World Principal) :
    Prop where
  /-- Only the browser that received the login response gets a session. -/
  browser : ∀ id run request answers response sid,
    world.running id = some run →
      run.handling = .callback request answers →
        run.made = (run.handling.calls runtime).length →
          (handleCallback runtime.toAuthRuntime request answers).outcome =
              .ok response →
            ("Set-Cookie", serializeCookie sessionCookie sid none) ∈
                response.headers →
              ∃ state, request.state = some state ∧
                (run.browser, state) ∈ world.received
  /-- The stored tokens are those of a code of the transaction's request. -/
  tokens : ∀ id place sid session principal ttlMs reply,
    (id, place, .handler (.set sid session principal ttlMs reply)) ∈
        world.log →
      ∃ run request answers state tokens code,
        world.running id = some run ∧
          run.handling = .callback request answers ∧
          request.state = some state ∧ session.Holds tokens ∧
          (id, code) ∈ world.redeemed ∧
          (∃ login place redirectUri,
            (login, place, .login (.buildAuthorizationUrl redirectUri state
              (.built code.authorization))) ∈ world.log) ∧
          ∃ redirectUri query,
            (id, 1, .handler (.authorizationCodeGrant redirectUri query
              code.authorization.codeVerifier state code.authorization.nonce
              (.tokens tokens))) ∈ world.log
  /-- A transaction leads to one exchange at most; no call is noted twice. -/
  exchanges : world.log.Nodup ∧ ∀ state, ∀ event ∈ world.log,
    ∀ other ∈ world.log, IsExchange state event → IsExchange state other →
      event = other
  /-- Without an exchange that succeeded, nothing but the transaction is
  taken. -/
  unexchanged : ∀ id run request answers, world.running id = some run →
    run.handling = .callback request answers →
      (∀ place redirectUri query verifier state nonce tokens,
        (id, place, .handler (.authorizationCodeGrant redirectUri query
          verifier state nonce (.tokens tokens))) ∉ world.log) →
      (∀ place call, (id, place, call) ∈ world.log →
        (∃ state reply, call = .handler (.takeTransaction state reply)) ∨
          ∃ state, IsExchange state (id, place, call)) ∧
      (run.made = (run.handling.calls runtime).length →
        ∀ response, (handleCallback runtime.toAuthRuntime request
            answers).outcome = .ok response →
          ∀ value, ("Set-Cookie", value) ∉ response.headers)

theorem Sound.browser (sound : Sound runtime world)
    (injective : Function.Injective fun secret =>
      runtime.base64urlBytes (runtime.hashSecret secret))
    {id : Nat} {run : Running Principal} {response : Response} {sid : String}
    (isRunning : world.running id = some run)
    (isCallback : run.handling = .callback request answers)
    (finished : run.made = (run.handling.calls runtime).length)
    (answered : (handleCallback runtime.toAuthRuntime request
      answers).outcome = .ok response)
    (cookie : ("Set-Cookie", serializeCookie sessionCookie sid none) ∈
      response.headers) :
    ∃ state, request.state = some state ∧
      (run.browser, state) ∈ world.received := by
  obtain ⟨state, tx, tokens, isMatch, _⟩ :=
    exchanged_of_setCookie answered cookie
  refine ⟨state, isMatch.isState, ?_⟩
  have some_made : 0 < run.made := by
    have short := (List.getElem?_eq_some_iff.mp isMatch.take).1
    rw [finished, isCallback, Handling.calls, List.length_map]
    exact short
  have isTaken := sound.logged.earlier isRunning isCallback some_made
    isMatch.take
  obtain ⟨secret, _, isLogin, isHash, _⟩ := sound.origin isTaken
  obtain ⟨carried, isCarried, matched⟩ := isMatch.matched
  have same : carried = secret := by
    apply injective
    dsimp only
    rw [← isHash]
    exact (runtime.matches_iff _ _).mp matched
  subst same
  apply sound.logged.bound _ _ isRunning _ isLogin
  rw [isCallback]
  obtain ⟨before, after, split, _⟩ := List.lookup_eq_some_iff.mp isCarried
  apply List.mem_map.mpr ⟨(txnCookieName state, carried), ?_, rfl⟩
  change _ ∈ request.cookies
  rw [split]
  exact List.mem_append_right _ List.mem_cons_self

theorem Sound.tokens (sound : Sound runtime world) {id place : Nat}
    {sid : String} {session : SessionRecord} {principal : Principal}
    {ttlMs : Int} {reply : StoreStep Bool}
    (isLogged : (id, place, .handler
      (.set sid session principal ttlMs reply)) ∈ world.log) :
    ∃ run request answers state tokens code,
      world.running id = some run ∧
        run.handling = .callback request answers ∧
        request.state = some state ∧ session.Holds tokens ∧
        (id, code) ∈ world.redeemed ∧
        (∃ login place redirectUri,
          (login, place, .login (.buildAuthorizationUrl redirectUri state
            (.built code.authorization))) ∈ world.log) ∧
        ∃ redirectUri query,
          (id, 1, .handler (.authorizationCodeGrant redirectUri query
            code.authorization.codeVerifier state code.authorization.nonce
            (.tokens tokens))) ∈ world.log := by
  obtain ⟨run, isRunning, isCall, made⟩ := sound.logged.made _ _ _ isLogged
  obtain ⟨request, answers, isCallback, found⟩ :=
    callback_of_call (by trivial) isCall
  rcases callback_call found with ⟨_, _, _, other⟩ |
    ⟨state, tx, isMatch, ⟨_, other⟩ | ⟨tokens, late, granted, after⟩⟩
  · cases other
  · cases other
  · have isGrant := isMatch.grant found (by omega)
    rw [granted] at isGrant
    have isExchange := sound.logged.earlier isRunning isCallback (by omega)
      isGrant
    have isTaken := sound.logged.earlier isRunning isCallback (by omega)
      isMatch.take
    obtain ⟨secret, authorization, _, _, isVerifier, isBuilt⟩ :=
      sound.origin isTaken
    obtain ⟨code, redeemed, sameVerifier, sameNonce, owner, isOwned⟩ :=
      sound.coded.granted _ _ _ _ _ _ _ _ isExchange
    have same := sound.coded.verifiers _ isOwned _ isBuilt
      (sameVerifier.trans isVerifier)
    have isOwn : (state, code.authorization) ∈ world.authorizations := by
      cases same
      exact isOwned
    obtain ⟨login, loginPlace, redirectUri, isLogin⟩ :=
      sound.coded.built _ isOwn
    rw [← sameVerifier, ← sameNonce] at isExchange
    cases after with
    | set =>
        exact ⟨run, request, answers, state, tokens, code, isRunning,
          isCallback, isMatch.isState, ⟨rfl, rfl, rfl, rfl⟩, redeemed,
          ⟨login, loginPlace, redirectUri, isLogin⟩, _, _, isExchange⟩

theorem Sound.exchanges (sound : Sound runtime world) {state : String}
    {event other : Nat × Nat × PortCall Principal}
    (isLogged : event ∈ world.log) (isOther : other ∈ world.log)
    (exchange : IsExchange state event)
    (otherExchange : IsExchange state other) : event = other := by
  obtain ⟨place, run, _, _, tx, isRunning, _, isCall, _, isTaken⟩ :=
    sound.exchange isLogged exchange
  obtain ⟨otherPlace, otherRun, _, _, otherTx, otherRunning, _, otherCall, _,
    otherTaken⟩ := sound.exchange isOther otherExchange
  have same := sound.stored.once _ _ _ _ _ _ _ isTaken otherTaken
  obtain ⟨id, first, call⟩ := event
  obtain ⟨otherId, second, madeCall⟩ := other
  dsimp only at place otherPlace same isRunning otherRunning isCall otherCall
  subst place otherPlace same
  rw [isRunning] at otherRunning
  cases otherRunning
  rw [isCall] at otherCall
  cases otherCall
  rfl

theorem Sound.unexchanged (sound : Sound runtime world) {id : Nat}
    {run : Running Principal} (isRunning : world.running id = some run)
    (isCallback : run.handling = .callback request answers)
    (failed : ∀ place redirectUri query verifier state nonce tokens,
      (id, place, .handler (.authorizationCodeGrant redirectUri query
        verifier state nonce (.tokens tokens))) ∉ world.log) :
    (∀ place call, (id, place, call) ∈ world.log →
      (∃ state reply, call = .handler (.takeTransaction state reply)) ∨
        ∃ state, IsExchange state (id, place, call)) ∧
    (run.made = (run.handling.calls runtime).length →
      ∀ response, (handleCallback runtime.toAuthRuntime request
          answers).outcome = .ok response →
        ∀ value, ("Set-Cookie", value) ∉ response.headers) := by
  constructor
  · intro place call isLogged
    obtain ⟨own, ownRunning, isCall, made⟩ := sound.logged.made _ _ _ isLogged
    rw [isRunning] at ownRunning
    cases ownRunning
    rw [isCallback, Handling.calls, List.getElem?_map] at isCall
    obtain ⟨handlerCall, found, rfl⟩ := Option.map_eq_some_iff.mp isCall
    rcases callback_call found with ⟨_, state, _, same⟩ |
      ⟨state, tx, isMatch, ⟨_, same⟩ | ⟨tokens, late, granted, after⟩⟩
    · exact .inl ⟨state, _, by rw [same]⟩
    · exact .inr ⟨state, _, _, _, _, _, by rw [same]⟩
    · have isGrant := isMatch.grant found (by omega)
      rw [granted] at isGrant
      exact absurd (sound.logged.earlier isRunning isCallback (by omega)
        isGrant) (failed _ _ _ _ _ _ _)
  · intro finished response answered value cookie
    obtain ⟨state, tx, tokens, _, isGrant⟩ :=
      exchanged_of_setCookie answered cookie
    have made : 1 < run.made := by
      rw [finished, isCallback, Handling.calls, List.length_map]
      exact (List.getElem?_eq_some_iff.mp isGrant).1
    exact failed _ _ _ _ _ _ _
      (sound.logged.earlier isRunning isCallback made isGrant)

/-- A login binds the session to the browser that started it. -/
theorem login_binds_browser (runtime : LoginRuntime)
    (codeOf : String → Option String)
    (injective : Function.Injective fun secret =>
      runtime.base64urlBytes (runtime.hashSecret secret))
    {world : World Principal}
    (reachable : Reachable (World.step runtime codeOf) World.initial world) :
    Bound runtime world := by
  have sound : Sound runtime world :=
    Reachable.invariant (fun _ _ _ holds stepped => Sound.step holds stepped)
      Sound.initial reachable
  refine ⟨?_, ?_, ⟨sound.logged.nodup, ?_⟩, ?_⟩
  · intro id run request answers response sid isRunning isCallback finished
      answered cookie
    exact sound.browser injective isRunning isCallback finished answered
      cookie
  · intro id place sid session principal ttlMs reply isLogged
    exact sound.tokens isLogged
  · intro state event isLogged other isOther exchange otherExchange
    exact sound.exchanges isLogged isOther exchange otherExchange
  · intro id run request answers isRunning isCallback failed
    exact sound.unexchanged isRunning isCallback failed

/-- The sample runtime, whose hash is the secret itself. -/
def sampleLogins : LoginRuntime where
  toAuthRuntime := sampleRuntime
  hashSecret := id
  base64urlBytes := String.toByteArray
  resolvedPath := id
  matches_iff secret expected := by
    rw [String.toByteArray_inj]
    exact decide_eq_true_iff

def sampleLogin : Handling Unit :=
  .login ⟨[], none, "/iam/"⟩
    ⟨"s", "secret", .built ⟨"https://idp", "verifier", "nonce"⟩, .ok (), .ok (),
      0⟩

def sampleCode : Code := ⟨"c", "https://idp", "verifier", "nonce"⟩

/-- A login whose response is received, and the callback of its browser. -/
def signingIn : List (Action Unit) :=
  [ .start 0 1 sampleLogin, .call 0 true none, .call 0 true none, .respond 0,
    .issue sampleCode,
    .start 1 1 (.callback sampleCallback (sampleAnswers "/iam/")),
    .call 1 true none, .call 1 true (some sampleCode), .call 1 true none,
    .call 1 true none ]

theorem login_binds_signedIn : ∃ world,
    runFrom (World.step sampleLogins fun _ => some "c") World.initial signingIn =
      some world ∧ Bound sampleLogins world := by
  have signsIn : (runFrom (World.step sampleLogins fun _ => some "c")
      World.initial signingIn).isSome = true := by decide +kernel
  obtain ⟨world, isRun⟩ := Option.isSome_iff_exists.mp signsIn
  exact ⟨world, isRun, login_binds_browser sampleLogins _
    (fun _ _ same => String.toByteArray_inj.mp same) ⟨_, isRun⟩⟩

end Binding

end System

end Binding

end Paigasus.Auth
