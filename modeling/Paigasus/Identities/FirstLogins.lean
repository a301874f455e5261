import Paigasus.Identities.Provisioning
import Mathlib.Data.Fintype.EquivFin

/-!
# First logins of one identity

While no identity is linked or unlinked and no email changes, an identity that
has a holder keeps it.  A login that loses the race for it therefore finds the
winner's principal, and all logins of the identity end with the same one.
-/

namespace Paigasus.Identities

open Foundation Core Tables

/-- The login may provision, and its email is one of the given ones. -/
structure Login.Ready (emails : List String) (login : Login) : Prop where
  provisioning : login.provisioning = true
  allowed : login.jitAllowed = true
  email : ∃ email ∈ emails, login.email = some email

/-- The moves of a run of first logins: no link, no unlink, no change of an
email, and no failure of the store.  Logins of other identities and new users
are not excluded. -/
def LoginsOnly (issuer subject : String) (emails : List String) :
    Move Call CallInput UserChange → Prop
  | .spawn _ (.login login) =>
      login.issuer = issuer ∧ login.subject = subject → login.Ready emails
  | .spawn _ _ => False
  | .run _ .fails => False
  | .run _ (.goOn _ _) => True
  | .outside (.createUser _ _) => True
  | .outside (.changeEmail _ _) => False

/-- At every moment only the holder of the identity has one of the emails. -/
def Exclusive (issuer subject : String) (emails : List String)
    (database : Database) : Prop :=
  ∀ moment ∈ database.moments, ∀ user ∈ moment.tables.users,
    user.email ∈ emails → Holds moment.tables issuer subject user.principal

/-- Every holder of the identity is an active principal. -/
def HoldersActive (issuer subject : String) (tables : Tables) : Prop :=
  ∀ principal, Holds tables issuer subject principal →
    tables.findPrincipal principal = some ⟨principal, .active⟩

/-- An upper bound on the steps a login has left. -/
def LoginPhase.remaining : LoginPhase → Nat
  | .entering => 6
  | .finding => 5
  | .provisioning _ => 4
  | .rereading _ => 3
  | .reading _ => 2
  | .checking _ => 1
  | .finished _ => 0

variable {issuer subject : String} {emails : List String}
  {database after : Database} {tables changed : Tables}

/-- The tables after a transaction that creates one active principal, and gives
identities to no other one. -/
structure Created (before after : Tables) (principal : Nat) : Prop where
  unknown : ∀ row ∈ before.principals, row.id ≠ principal
  principals : after.principals = before.principals ++ [⟨principal, .active⟩]
  kept : ∀ row ∈ before.identities, row ∈ after.identities
  attached : ∀ row ∈ after.identities,
    row ∈ before.identities ∨ row.principal = principal

theorem created_of_provisioned {principal : Nat}
    (provisioned : Provisioned issuer subject tables changed principal) :
    Created tables changed principal := by
  obtain ⟨email, identity, rfl⟩ := provisioned.together
  refine ⟨provisioned.created, rfl, ?_, ?_⟩
  · intro row member
    exact List.mem_append_left _ member
  · intro row member
    rcases List.mem_append.mp member with old | new
    · exact .inl old
    · rw [List.mem_singleton] at new
      subst new
      exact .inr rfl

theorem created_of_createUser {principal : Nat} {email : String}
    (applied : (UserChange.createUser principal email).apply tables =
      some changed) : Created tables changed principal := by
  unfold UserChange.apply at applied
  dsimp only at applied
  split at applied
  case h_1 inserted =>
    cases applied
    obtain ⟨withPrincipal, first, second⟩ := ok_of_bind inserted
    obtain ⟨unknown, rfl⟩ := insertPrincipal_ok first
    cases insertUser_ok second
    exact ⟨unknown, rfl, fun _ member => member, fun _ member => .inl member⟩
  case h_2 => cases applied

theorem Created.holds {principal holder : Nat}
    (created : Created tables changed principal)
    (holds : Holds tables issuer subject holder) :
    Holds changed issuer subject holder := by
  obtain ⟨row, member, isPair, isHolder⟩ := holds
  exact ⟨row, created.kept row member, isPair, isHolder⟩

theorem Created.holdersActive {principal : Nat}
    (created : Created tables changed principal)
    (active : HoldersActive issuer subject tables) :
    HoldersActive issuer subject changed := by
  rintro holder ⟨row, member, isPair, rfl⟩
  unfold findPrincipal
  rw [created.principals, List.find?_append]
  rcases created.attached row member with old | new
  · have before := active row.principal ⟨row, old, isPair, rfl⟩
    rw [findPrincipal] at before
    rw [before]
    rfl
  · have absent : tables.principals.find? (fun held => held.id = row.principal) =
        none := by
      apply List.find?_eq_none.mpr
      intro held isHeld
      rw [new]
      simpa using created.unknown held isHeld
    rw [absent, new]
    simp

namespace Login

variable {id : Nat} {login next : Login} {input : CallInput}

/-- A step changes nothing, or commits one provisioning. -/
theorem step_created (recorded : Recorded database)
    (stepped : login.step id database input = some (after, next)) :
    after = database ∨ ∃ tables principal,
      after = database.commit (some id) tables ∧
      Created database.tables tables principal := by
  unfold Login.step at stepped
  repeat' split at stepped
  all_goals first | contradiction | skip
  case h_4.isTrue =>
    unfold provisionStep at stepped
    split at stepped
    case h_1 tables provisioned =>
      cases stepped
      obtain ⟨_, whole⟩ := provision_ok provisioned recorded.tables_consistent
      exact .inr ⟨tables, _, rfl, created_of_provisioned whole⟩
    all_goals
      cases stepped
      exact .inl rfl
  all_goals
    cases stepped
    exact .inl rfl

/-- A step keeps the claims and the settings of the login. -/
theorem step_claims
    (stepped : login.step id database input = some (after, next)) :
    next.issuer = login.issuer ∧ next.subject = login.subject ∧
      next.email = login.email ∧ next.provisioning = login.provisioning ∧
      next.jitAllowed = login.jitAllowed := by
  unfold Login.step at stepped
  repeat' split at stepped
  all_goals first | contradiction | skip
  case h_4.isTrue =>
    unfold provisionStep at stepped
    split at stepped
    all_goals
      cases stepped
      exact ⟨rfl, rfl, rfl, rfl, rfl⟩
  all_goals
    cases stepped
    exact ⟨rfl, rfl, rfl, rfl, rfl⟩

/-- What the tables say about a login of an identity that is only provisioned:
where it goes on with a principal, that is the holder. -/
def Agrees (tables : Tables) (login : Login) : Prop :=
  match login.phase with
  | .entering => True
  | .finding => True
  | .provisioning email => login.email = some email
  | .rereading _ => ∃ holder, Holds tables login.issuer login.subject holder
  | .reading principal => Holds tables login.issuer login.subject principal
  | .checking principal => Holds tables login.issuer login.subject principal
  | .finished result => ∃ principal, result = .ok principal ∧
      Holds tables login.issuer login.subject principal

theorem Agrees.grow (agrees : Agrees tables login)
    (grows : ∀ holder, Holds tables login.issuer login.subject holder →
      Holds changed login.issuer login.subject holder) :
    Agrees changed login := by
  unfold Agrees at agrees ⊢
  split
  case h_1 => trivial
  case h_2 => trivial
  case h_3 phase =>
    rw [phase] at agrees
    exact agrees
  case h_4 phase =>
    rw [phase] at agrees
    obtain ⟨holder, holds⟩ := agrees
    exact ⟨holder, grows holder holds⟩
  case h_5 phase =>
    rw [phase] at agrees
    exact grows _ agrees
  case h_6 phase =>
    rw [phase] at agrees
    exact grows _ agrees
  case h_7 phase =>
    rw [phase] at agrees
    obtain ⟨holder, isResult, holds⟩ := agrees
    exact ⟨holder, isResult, grows holder holds⟩

/-- With unused ids the transaction fails for a taken email or a taken identity
only. -/
theorem provision_error {principal identity : Nat} {email : String}
    {error : RepositoryError}
    (fresh : tables.unused principal identity = true)
    (failed : tables.provision ⟨principal, .active⟩ ⟨principal, email⟩
      ⟨identity, principal, issuer, subject⟩ = .error error) :
    (error = .conflict .emailTaken ∧
        ∃ user ∈ tables.users, user.email = email) ∨
      (error = .conflict .externalIdentityExists ∧
        ∃ holder, Holds tables issuer subject holder) := by
  have free : (tables.principals.any fun row => row.id = principal) = false := by
    simp only [unused, Bool.and_eq_true, Bool.not_eq_true'] at fresh
    exact fresh.1
  unfold Tables.provision insertPrincipal at failed
  rw [free] at failed
  simp only [Bool.false_eq_true, ↓reduceIte, Except.bind, insertUser] at failed
  by_cases taken : tables.users.any (fun held => held.email = email) = true
  · rw [if_pos taken] at failed
    cases failed
    exact .inl ⟨rfl, by simpa using taken⟩
  · rw [if_neg taken] at failed
    dsimp only [insertIdentity] at failed
    split at failed
    case isTrue held =>
      cases failed
      obtain ⟨row, member, isPair⟩ := List.any_eq_true.mp held
      exact .inr ⟨rfl, row.principal, row, member, isPair, rfl⟩
    case isFalse =>
      simp at failed

/-- The transaction of a login whose email nobody else has. -/
theorem provisionStep_agrees {email : String} {principal identity : Nat}
    (recorded : Recorded database)
    (exclusive : Exclusive login.issuer login.subject emails database)
    (expected : email ∈ emails)
    (fresh : database.tables.unused principal identity = true)
    (stepped : login.provisionStep id database email principal identity =
      (after, next)) : Agrees after.tables next := by
  unfold provisionStep at stepped
  split at stepped
  case h_1 provisioned =>
    cases stepped
    exact (provision_ok provisioned recorded.tables_consistent).2.holds
  case h_2 failed =>
    cases stepped
    rcases provision_error fresh failed with ⟨impossible, _⟩ | ⟨_, held⟩
    · cases impossible
    · exact held
  case h_3 failed =>
    cases stepped
    rcases provision_error fresh failed with ⟨_, taken⟩ | ⟨impossible, _⟩
    · obtain ⟨user, member, rfl⟩ := taken
      obtain ⟨author, isLast⟩ := recorded.current
      exact ⟨user.principal, exclusive _ (List.mem_of_getLast? isLast) user
        member expected⟩
    · cases impossible
  case h_4 unexpectedExists unexpectedTaken failed =>
    rcases provision_error fresh failed with ⟨rfl, _⟩ | ⟨rfl, _⟩
    · exact absurd rfl unexpectedTaken
    · exact absurd rfl unexpectedExists

/-- What one step of a login keeps while the identity is only provisioned. -/
theorem Agrees.step {principal identity : Nat} (recorded : Recorded database)
    (exclusive : Exclusive login.issuer login.subject emails database)
    (active : HoldersActive login.issuer login.subject database.tables)
    (ready : login.Ready emails) (agrees : Agrees database.tables login)
    (stepped : login.step id database (.goOn principal identity) =
      some (after, next)) : Agrees after.tables next := by
  unfold Login.step at stepped
  dsimp only at stepped
  split at stepped
  case h_1 =>
    cases stepped
    trivial
  case h_2 =>
    cases stepped
    cases found :
      database.tables.findByIssuerSubject login.issuer login.subject with
    | some row => exact holds_of_find found
    | none =>
        obtain ⟨email, _, hasEmail⟩ := ready.email
        simp [Agrees, at_, afterFind, ready.provisioning, ready.allowed,
          hasEmail]
  case h_3 found phase =>
    simp only [Agrees, phase] at agrees
    rw [active found agrees] at stepped
    cases stepped
    exact agrees
  case h_4 email phase =>
    simp only [Agrees, phase] at agrees
    obtain ⟨expected, member, hasEmail⟩ := ready.email
    rw [agrees] at hasEmail
    cases hasEmail
    split at stepped
    case isTrue fresh =>
      exact provisionStep_agrees recorded exclusive member fresh
        (Option.some.inj stepped)
    case isFalse => cases stepped
  case h_5 kind phase =>
    simp only [Agrees, phase] at agrees
    cases stepped
    obtain ⟨holder, holds⟩ := agrees
    obtain ⟨row, found⟩ := find_of_holds holds
    rw [found]
    exact holds_of_find found
  case h_6 found phase =>
    simp only [Agrees, phase] at agrees
    cases stepped
    rw [active found agrees]
    exact ⟨found, rfl, agrees⟩
  case h_7 => cases stepped

/-- Every step of a login brings it closer to its end. -/
theorem step_lowers {principal identity : Nat}
    (stepped : login.step id database (.goOn principal identity) =
      some (after, next)) :
    next.phase.remaining < login.phase.remaining := by
  cases phase : login.phase with
  | entering =>
      simp only [Login.step, phase] at stepped
      cases stepped
      simp [at_, LoginPhase.remaining]
  | finding =>
      simp only [Login.step, phase] at stepped
      cases stepped
      unfold afterFind
      repeat' split
      all_goals simp [at_, LoginPhase.remaining]
  | reading found =>
      simp only [Login.step, phase] at stepped
      split at stepped
      all_goals
        cases stepped
        simp [at_, LoginPhase.remaining]
  | provisioning email =>
      simp only [Login.step, phase] at stepped
      split at stepped
      case isTrue =>
        unfold provisionStep at stepped
        split at stepped
        all_goals
          cases stepped
          simp [at_, LoginPhase.remaining]
      case isFalse => cases stepped
  | rereading kind =>
      simp only [Login.step, phase] at stepped
      cases stepped
      unfold afterReread
      repeat' split
      all_goals simp [at_, LoginPhase.remaining]
  | checking found =>
      simp only [Login.step, phase] at stepped
      cases stepped
      simp [at_, LoginPhase.remaining]
  | finished result =>
      simp only [Login.step, phase] at stepped
      cases stepped

/-- With unused ids a login that is not finished can go on. -/
theorem step_enabled (id : Nat) {principal identity : Nat}
    (unfinished : ∀ result, login.phase ≠ .finished result)
    (fresh : database.tables.unused principal identity = true) :
    ∃ after next,
      login.step id database (.goOn principal identity) =
        some (after, next) := by
  cases phase : login.phase with
  | entering => exact ⟨_, _, by simp only [Login.step, phase]; rfl⟩
  | finding => exact ⟨_, _, by simp only [Login.step, phase]; rfl⟩
  | reading found =>
      cases isRow : database.tables.findPrincipal found with
      | none => exact ⟨_, _, by simp only [Login.step, phase, isRow]; rfl⟩
      | some row => exact ⟨_, _, by simp only [Login.step, phase, isRow]; rfl⟩
  | provisioning email =>
      exact ⟨_, _, by simp only [Login.step, phase, fresh]; rfl⟩
  | rereading kind => exact ⟨_, _, by simp only [Login.step, phase]; rfl⟩
  | checking found => exact ⟨_, _, by simp only [Login.step, phase]; rfl⟩
  | finished result => exact absurd phase (unfinished result)

end Login

theorem Exclusive.before {author : Option Nat}
    (exclusive : Exclusive issuer subject emails
      (database.commit author tables)) :
    Exclusive issuer subject emails database := by
  intro moment member
  exact exclusive moment (List.mem_append_left _ member)

/-- What holds of a call in a run of logins. -/
def LoginAgrees (issuer subject : String) (emails : List String)
    (database : Database) (call : Call) : Prop :=
  ∃ login, call = .login login ∧
    (login.issuer = issuer ∧ login.subject = subject →
      login.Ready emails ∧
        (Exclusive issuer subject emails database →
          login.Agrees database.tables))

/-- The invariant of a run of logins. -/
structure Agreed (issuer subject : String) (emails : List String)
    (configuration : Configuration Database Call) : Prop where
  reached : Reached configuration
  active : HoldersActive issuer subject configuration.shared.tables
  logins : ∀ id call, configuration.process id = some call →
    LoginAgrees issuer subject emails configuration.shared call

/-- The transactions of the others create principals only. -/
theorem LoginAgrees.created {call : Call} {principal : Nat}
    {author : Option Nat}
    (agrees : LoginAgrees issuer subject emails database call)
    (created : Created database.tables tables principal) :
    LoginAgrees issuer subject emails (database.commit author tables) call := by
  obtain ⟨login, rfl, ofPair⟩ := agrees
  refine ⟨login, rfl, ?_⟩
  intro isPair
  obtain ⟨ready, agrees⟩ := ofPair isPair
  refine ⟨ready, ?_⟩
  intro exclusive
  apply (agrees exclusive.before).grow
  intro holder holds
  exact created.holds holds

/-- What one step of a login keeps in a run of logins. -/
theorem LoginAgrees.step {id principal identity : Nat} {call next : Call}
    (recorded : Recorded database)
    (active : HoldersActive issuer subject database.tables)
    (agrees : LoginAgrees issuer subject emails database call)
    (stepped : call.step id database (.goOn principal identity) =
      some (after, next)) :
    LoginAgrees issuer subject emails after next ∧
      (after = database ∨ ∃ tables created,
        after = database.commit (some id) tables ∧
        Created database.tables tables created) := by
  obtain ⟨login, rfl, ofPair⟩ := agrees
  unfold Call.step at stepped
  dsimp only at stepped
  split at stepped
  case h_1 changed later loginStepped =>
    cases stepped
    have created := Login.step_created recorded loginStepped
    refine ⟨⟨later, rfl, ?_⟩, created⟩
    obtain ⟨sameIssuer, sameSubject, sameEmail, sameProvisioning, sameAllowed⟩ :=
      Login.step_claims loginStepped
    rw [sameIssuer, sameSubject]
    rintro ⟨rfl, rfl⟩
    obtain ⟨ready, agrees⟩ := ofPair ⟨rfl, rfl⟩
    refine ⟨⟨?_, ?_, ?_⟩, ?_⟩
    · rw [sameProvisioning]
      exact ready.provisioning
    · rw [sameAllowed]
      exact ready.allowed
    · rw [sameEmail]
      exact ready.email
    · intro exclusive
      have before :
          Exclusive login.issuer login.subject emails database := by
        rcases created with rfl | ⟨tables, _, rfl, _⟩
        · exact exclusive
        · exact exclusive.before
      exact (agrees before).step recorded before active ready loginStepped
  case h_2 => cases stepped

theorem Agreed.move {configuration next : Configuration Database Call}
    {action : Move Call CallInput UserChange}
    (agreed : Agreed issuer subject emails configuration)
    (allowed : LoginsOnly issuer subject emails action)
    (moved : calls.move configuration action = some next) :
    Agreed issuer subject emails next := by
  have reached := agreed.reached.move moved
  have recorded := agreed.reached.holds.shared
  cases Program.move_cases moved with
  | @spawn id initial unused starts =>
      refine ⟨reached, agreed.active, ?_⟩
      intro other call running
      by_cases same : other = id
      · subst same
        rw [Configuration.set_process_self] at running
        cases running
        cases initial with
        | login login =>
            refine ⟨login, rfl, fun isPair => ⟨allowed isPair, fun _ => ?_⟩⟩
            have entering : login.phase = .entering := by
              have isStart : Call.starts (.login login) = true := starts
              simp only [Call.starts, Bool.and_eq_true,
                decide_eq_true_eq] at isStart
              exact isStart.1
            simp only [Login.Agrees, entering]
        | link => exact allowed.elim
        | unlink => exact allowed.elim
      · rw [Configuration.set_process_of_ne _ same] at running
        exact agreed.logins other call running
  | @run id state later input shared running stepped =>
      cases input with
      | fails => exact allowed.elim
      | goOn principal identity =>
          obtain ⟨own, change⟩ := (agreed.logins id state running).step recorded
            agreed.active stepped
          have others (other : Nat) (call : Call)
              (isCall : configuration.process other = some call) :
              LoginAgrees issuer subject emails shared call := by
            rcases change with rfl | ⟨tables, created, rfl, isCreated⟩
            · exact agreed.logins other call isCall
            · exact (agreed.logins other call isCall).created isCreated
          refine ⟨reached, ?_, ?_⟩
          · rw [Configuration.set_shared]
            rcases change with rfl | ⟨tables, created, rfl, isCreated⟩
            · exact agreed.active
            · exact isCreated.holdersActive agreed.active
          · intro other call isCall
            by_cases same : other = id
            · subst same
              rw [Configuration.set_process_self] at isCall
              cases isCall
              exact own
            · rw [Configuration.set_process_of_ne _ same] at isCall
              exact others other call isCall
  | @outside event shared changed =>
      cases event with
      | changeEmail principal email => exact allowed.elim
      | createUser principal email =>
          obtain ⟨tables, applied, rfl⟩ := Option.map_eq_some_iff.mp changed
          have created := created_of_createUser applied
          refine ⟨reached, created.holdersActive agreed.active, ?_⟩
          intro id call running
          exact (agreed.logins id call running).created created

/-- Some ids are unused. -/
theorem exists_unused (tables : Tables) :
    ∃ principal identity, tables.unused principal identity = true := by
  obtain ⟨principal, principalFree⟩ :=
    Infinite.exists_notMem_finset (tables.principals.map PrincipalRow.id).toFinset
  obtain ⟨identity, identityFree⟩ :=
    Infinite.exists_notMem_finset (tables.identities.map IdentityRow.id).toFinset
  refine ⟨principal, identity, ?_⟩
  simp only [List.mem_toFinset, List.mem_map, not_exists, not_and]
    at principalFree identityFree
  simp only [unused, Bool.and_eq_true, Bool.not_eq_true', List.any_eq_false,
    decide_eq_true_eq]
  exact ⟨principalFree, identityFree⟩

/-- A call of a login that is not finished can go on, and whenever it does it
comes closer to its end. -/
structure GoesOn (configuration : Configuration Database Call) (id : Nat)
    (login : Login) : Prop where
  enabled : ∃ principal identity next,
    calls.move configuration (.run id (.goOn principal identity)) = some next
  lowers : ∀ principal identity next,
    calls.move configuration (.run id (.goOn principal identity)) = some next →
      ∃ later, next.process id = some (.login later) ∧
        later.phase.remaining < login.phase.remaining

theorem goesOn {configuration : Configuration Database Call} {id : Nat}
    {login : Login} (running : configuration.process id = some (.login login))
    (unfinished : ∀ result, login.phase ≠ .finished result) :
    GoesOn configuration id login where
  enabled := by
    obtain ⟨principal, identity, fresh⟩ :=
      exists_unused configuration.shared.tables
    obtain ⟨after, next, stepped⟩ :=
      Login.step_enabled id unfinished fresh
    refine ⟨principal, identity, configuration.set id after (.login next), ?_⟩
    simp [Program.move, running, calls, Call.step, stepped]
  lowers principal identity next moved := by
    cases Program.move_cases moved with
    | run found stepped =>
        rw [running] at found
        cases found
        have callStepped : Call.step id configuration.shared (.login login)
            (.goOn principal identity) = some (_, _) := stepped
        unfold Call.step at callStepped
        dsimp only at callStepped
        split at callStepped
        case h_1 later loginStepped =>
          cases callStepped
          refine ⟨later, Configuration.set_process_self _ _ _ _, ?_⟩
          exact Login.step_lowers loginStepped
        case h_2 => cases callStepped

/-- What a login has done to the tables: it committed at most once, and then the
principal, the user and the identity together, but nothing if it lost. -/
structure LoginCommits (id : Nat) (login : Login) (moments : List Moment) :
    Prop where
  once : (commitsOf id moments).length ≤ 1
  whole : ∀ moment ∈ commitsOf id moments, ∃ index before principal,
    moments[index]? = some before ∧ moments[index + 1]? = some moment ∧
    Provisioned login.issuer login.subject before.tables moment.tables principal
  lost : login.lost = true → commitsOf id moments = []

theorem Login.Sound.commits {id : Nat} {login : Login}
    (recorded : Recorded database) (sound : login.Sound id database) :
    LoginCommits id login database.moments := by
  refine ⟨sound.once, ?_, fun lost => sound.silent (.inr lost)⟩
  intro moment member
  obtain ⟨isMoment, authored⟩ := List.mem_filter.mp member
  rw [decide_eq_true_eq] at authored
  obtain ⟨index, isAt⟩ := List.mem_iff_getElem?.mp isMoment
  cases index with
  | zero =>
      obtain ⟨tables, isFirst⟩ := recorded.first
      rw [List.head?_eq_getElem?, isAt] at isFirst
      cases isFirst
      cases authored
  | succ index =>
      have inside : index < database.moments.length := by
        have beyond := (List.getElem?_eq_some_iff.mp isAt).1
        omega
      have isBefore := List.getElem?_eq_getElem inside
      obtain ⟨principal, provisioned⟩ :=
        sound.whole index _ moment isBefore isAt authored
      exact ⟨index, _, principal, isBefore, isAt, provisioned⟩

/-- In a run of logins all that are finished return the holder. -/
theorem Agreed.same_principal {configuration : Configuration Database Call}
    (agreed : Agreed issuer subject emails configuration)
    (exclusive : Exclusive issuer subject emails configuration.shared) :
    ∃ principal, ∀ id login, configuration.process id = some (.login login) →
      login.issuer = issuer ∧ login.subject = subject →
      ∀ result, login.phase = .finished result → result = .ok principal := by
  have takes (id : Nat) (login : Login) (result : Except LoginError Nat)
      (running : configuration.process id = some (.login login))
      (isPair : login.issuer = issuer ∧ login.subject = subject)
      (finished : login.phase = .finished result) :
      ∃ principal, result = .ok principal ∧
        Holds configuration.shared.tables issuer subject principal := by
    obtain ⟨found, isLogin, ofPair⟩ := agreed.logins id _ running
    cases isLogin
    have agrees := (ofPair isPair).2 exclusive
    simp only [Login.Agrees, finished, isPair.1, isPair.2] at agrees
    exact agrees
  by_cases held : ∃ principal,
      Holds configuration.shared.tables issuer subject principal
  · obtain ⟨principal, holds⟩ := held
    refine ⟨principal, ?_⟩
    intro id login running isPair result finished
    obtain ⟨other, rfl, otherHolds⟩ :=
      takes id login result running isPair finished
    have consistent := agreed.reached.holds.shared.tables_consistent
    rw [consistent.holder_unique otherHolds holds]
  · refine ⟨0, ?_⟩
    intro id login running isPair result finished
    obtain ⟨other, _, otherHolds⟩ :=
      takes id login result running isPair finished
    exact absurd ⟨other, otherHolds⟩ held

/-- In every run over consistent tables an identity has one holder at a time.  A
login commits its principal, its user and its identity together or nothing, and
nothing if it lost; the principal it returns held the identity during the call.
Where first logins of one identity run without links, unlinks and changes of
emails, and only the holder has their emails, they all return one principal,
and each can go on until it is finished. -/
theorem provisioning_agrees {tables : Tables} (consistent : Consistent tables)
    {schedule : List (Move Call CallInput UserChange)}
    {final : Configuration Database Call}
    (run : runFrom calls.move (.start (.start tables)) schedule = some final) :
    (∀ moment ∈ final.shared.moments, ∀ issuer subject first second,
      Holds moment.tables issuer subject first →
      Holds moment.tables issuer subject second → first = second) ∧
    (∀ id login, final.process id = some (.login login) →
      LoginCommits id login final.shared.moments ∧
      ∀ principal, login.phase = .finished (.ok principal) →
        login.HeldDuring final.shared principal) ∧
    (∀ issuer subject emails,
      (∀ action ∈ schedule, LoginsOnly issuer subject emails action) →
      (∀ principal, ¬ Holds tables issuer subject principal) →
      Exclusive issuer subject emails final.shared →
      (∃ principal, ∀ id login, final.process id = some (.login login) →
        login.issuer = issuer ∧ login.subject = subject →
        ∀ result, login.phase = .finished result → result = .ok principal) ∧
      ∀ id login, final.process id = some (.login login) →
        (∀ result, login.phase ≠ .finished result) →
        GoesOn final id login) := by
  have reached : Reached final :=
    runFrom_invariant (fun _ _ _ reached moved => reached.move moved)
      (.start consistent) run
  have recorded := reached.holds.shared
  refine ⟨?_, ?_, ?_⟩
  · intro moment member issuer subject first second left right
    exact (recorded.consistent moment member).holder_unique left right
  · intro id login running
    have sound : login.Sound id final.shared :=
      reached.holds.process id _ running
    refine ⟨sound.commits recorded, ?_⟩
    intro principal finished
    apply sound.held
    rw [finished]
    rfl
  · intro issuer subject emails allowed unheld exclusive
    have initially : Agreed issuer subject emails
        (.start (.start tables)) := by
      refine ⟨.start consistent, ?_, nofun⟩
      intro principal holds
      exact absurd holds (unheld principal)
    have agreed : Agreed issuer subject emails final := by
      refine runFrom_invariant_of_everyStep ?_ initially
        (everyStep_of_mem (fun action member _ => allowed action member) _) run
      intro configuration action next agreed quiet moved
      exact agreed.move quiet moved
    refine ⟨agreed.same_principal exclusive, ?_⟩
    intro id login running unfinished
    exact goesOn running unfinished

/-- A login that has just been made. -/
def Login.first (issuer subject email : String) : Login :=
  ⟨issuer, subject, some email, true, true, .entering, 0, 0, false⟩

/-- Two logins that both find nothing; the second one loses the race. -/
def sampleRace : List (Move Call CallInput UserChange) :=
  [.spawn 0 (.login (.first "issuer" "subject" "email")),
    .spawn 1 (.login (.first "issuer" "subject" "email")),
    .run 0 (.goOn 0 0), .run 1 (.goOn 0 0), .run 0 (.goOn 0 0),
    .run 1 (.goOn 0 0), .run 0 (.goOn 7 8), .run 1 (.goOn 9 10),
    .run 1 (.goOn 0 0), .run 1 (.goOn 0 0), .run 1 (.goOn 0 0),
    .run 0 (.goOn 0 0)]

/-- The tables after the race. -/
def sampleTables : Tables :=
  ⟨[⟨7, .active⟩], [⟨7, "email"⟩], [⟨8, 7, "issuer", "subject"⟩]⟩

theorem provisioning_agrees_sample : ∃ final first second principal,
    runFrom calls.move (.start (.start ⟨[], [], []⟩)) sampleRace = some final ∧
    final.process 0 = some (.login first) ∧
    final.process 1 = some (.login second) ∧ second.lost = true ∧
    commitsOf 1 final.shared.moments = [] ∧
    second.HeldDuring final.shared 7 ∧
    first.phase = .finished (.ok principal) ∧
    second.phase = .finished (.ok principal) := by
  have consistent : Consistent ⟨[], [], []⟩ :=
    ⟨.nil, .nil, fun _ member => absurd member List.not_mem_nil⟩
  have unheld (principal : Nat) :
      ¬ Holds ⟨[], [], []⟩ "issuer" "subject" principal := by
    rintro ⟨row, member, _⟩
    exact absurd member List.not_mem_nil
  have run : runFrom calls.move (.start (.start ⟨[], [], []⟩)) sampleRace =
      some _ := rfl
  have ready : Login.Ready ["email"] (.first "issuer" "subject" "email") :=
    ⟨rfl, rfl, "email", by simp, rfl⟩
  have allowed : ∀ action ∈ sampleRace,
      LoginsOnly "issuer" "subject" ["email"] action := by
    simp [sampleRace, LoginsOnly, ready]
  have exclusive : Exclusive "issuer" "subject" ["email"] ⟨sampleTables,
      [⟨none, ⟨[], [], []⟩⟩, ⟨some 0, sampleTables⟩]⟩ := by
    simp [Exclusive, Holds, sampleTables, IdentityRow.isPair]
  have agrees := provisioning_agrees consistent run
  obtain ⟨commits, held⟩ := agrees.2.1 1 _ rfl
  obtain ⟨⟨principal, same⟩, _⟩ :=
    agrees.2.2 "issuer" "subject" ["email"] allowed unheld exclusive
  exact ⟨_, _, _, principal, run, rfl, rfl, rfl, commits.lost rfl, held 7 rfl,
    congrArg _ (same 0 _ rfl ⟨rfl, rfl⟩ _ rfl),
    congrArg _ (same 1 _ rfl ⟨rfl, rfl⟩ _ rfl)⟩

end Paigasus.Identities
