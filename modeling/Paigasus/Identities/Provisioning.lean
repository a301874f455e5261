import Paigasus.Identities.Model
import Mathlib.Data.List.Nodup

/-!
# Identity provisioning agrees

Every committed state satisfies the constraints.  A login that wins commits its
principal, its user and its identity in one transaction; a login that loses
commits nothing and takes the holder it reads.
-/

namespace Paigasus.Identities

open Foundation Core

namespace Tables

/-- The constraints that every committed state satisfies. -/
structure Consistent (tables : Tables) : Prop where
  pairs : (tables.identities.map fun row => (row.issuer, row.subject)).Nodup
  ids : (tables.principals.map PrincipalRow.id).Nodup
  owners : ∀ row ∈ tables.identities, ∃ owner ∈ tables.principals,
    owner.id = row.principal

/-- The principal holds the identity. -/
def Holds (tables : Tables) (issuer subject : String) (principal : Nat) : Prop :=
  ∃ row ∈ tables.identities, row.isPair issuer subject = true ∧
    row.principal = principal

/-- The tables after a provisioning transaction of the given identity. -/
structure Provisioned (issuer subject : String) (before after : Tables)
    (principal : Nat) : Prop where
  created : ∀ row ∈ before.principals, row.id ≠ principal
  together : ∃ email identity, after =
    ⟨before.principals ++ [⟨principal, .active⟩],
      before.users ++ [⟨principal, email⟩],
      before.identities ++ [⟨identity, principal, issuer, subject⟩]⟩

variable {tables after : Tables} {issuer subject : String}

theorem isPair_iff {row : IdentityRow} :
    row.isPair issuer subject = true ↔
      row.issuer = issuer ∧ row.subject = subject := by
  simp [IdentityRow.isPair]

/-- The unique constraint on the pair. -/
theorem Consistent.holder_unique (consistent : Consistent tables)
    {first second : Nat} (left : Holds tables issuer subject first)
    (right : Holds tables issuer subject second) : first = second := by
  obtain ⟨row, member, isPair, rfl⟩ := left
  obtain ⟨other, otherMember, otherPair, rfl⟩ := right
  obtain ⟨rfl, rfl⟩ := isPair_iff.mp isPair
  obtain ⟨sameIssuer, sameSubject⟩ := isPair_iff.mp otherPair
  have samePair : (row.issuer, row.subject) = (other.issuer, other.subject) := by
    rw [sameIssuer, sameSubject]
  rw [List.inj_on_of_nodup_map consistent.pairs member otherMember samePair]

theorem holds_of_find {row : IdentityRow}
    (found : tables.findByIssuerSubject issuer subject = some row) :
    Holds tables issuer subject row.principal :=
  ⟨row, List.mem_of_find?_eq_some found, List.find?_some found, rfl⟩

theorem find_of_holds {principal : Nat}
    (holds : Holds tables issuer subject principal) :
    ∃ row, tables.findByIssuerSubject issuer subject = some row := by
  obtain ⟨row, member, isPair, _⟩ := holds
  apply Option.isSome_iff_exists.mp
  exact List.find?_isSome.mpr ⟨row, member, isPair⟩

theorem insertPrincipal_ok {row : PrincipalRow}
    (inserted : tables.insertPrincipal row = .ok after) :
    (∀ held ∈ tables.principals, held.id ≠ row.id) ∧
      after = { tables with principals := tables.principals ++ [row] } := by
  unfold insertPrincipal at inserted
  split at inserted
  case isTrue => cases inserted
  case isFalse free =>
    cases inserted
    exact ⟨by simpa using free, rfl⟩

theorem insertUser_ok {row : UserRow}
    (inserted : tables.insertUser row = .ok after) :
    after = { tables with users := tables.users ++ [row] } := by
  unfold insertUser at inserted
  split at inserted
  case isTrue => cases inserted
  case isFalse => cases inserted; rfl

theorem insertIdentity_ok {row : IdentityRow}
    (inserted : tables.insertIdentity row = .ok after) :
    (∀ held ∈ tables.identities, held.isPair row.issuer row.subject = false) ∧
      (∃ owner ∈ tables.principals, owner.id = row.principal) ∧
      after = { tables with identities := tables.identities ++ [row] } := by
  unfold insertIdentity at inserted
  split at inserted
  case isTrue => cases inserted
  case isFalse free =>
    split at inserted
    case isTrue owned =>
      cases inserted
      exact ⟨by simpa using free, by simpa using owned, rfl⟩
    case isFalse => cases inserted

theorem consistent_insertPrincipal {row : PrincipalRow}
    (consistent : Consistent tables)
    (inserted : tables.insertPrincipal row = .ok after) :
    Consistent after := by
  obtain ⟨free, rfl⟩ := insertPrincipal_ok inserted
  refine ⟨consistent.pairs, ?_, ?_⟩
  · rw [List.map_append]
    apply List.nodup_append.mpr
    refine ⟨consistent.ids, List.nodup_singleton _, ?_⟩
    intro id member new isNew
    obtain ⟨held, isHeld, rfl⟩ := List.mem_map.mp member
    cases List.mem_singleton.mp isNew
    exact free held isHeld
  · intro identity member
    obtain ⟨owner, isOwner, same⟩ := consistent.owners identity member
    exact ⟨owner, List.mem_append_left _ isOwner, same⟩

theorem consistent_insertUser {row : UserRow}
    (consistent : Consistent tables)
    (inserted : tables.insertUser row = .ok after) : Consistent after := by
  cases insertUser_ok inserted
  exact ⟨consistent.pairs, consistent.ids, consistent.owners⟩

theorem consistent_insertIdentity {row : IdentityRow}
    (consistent : Consistent tables)
    (inserted : tables.insertIdentity row = .ok after) :
    Consistent after := by
  obtain ⟨free, owned, rfl⟩ := insertIdentity_ok inserted
  refine ⟨?_, consistent.ids, ?_⟩
  · rw [List.map_append]
    apply List.nodup_append.mpr
    refine ⟨consistent.pairs, List.nodup_singleton _, ?_⟩
    intro pair member new isNew
    obtain ⟨held, isHeld, rfl⟩ := List.mem_map.mp member
    cases List.mem_singleton.mp isNew
    intro same
    have notPair := free held isHeld
    rw [← Bool.not_eq_true, isPair_iff] at notPair
    exact notPair (Prod.mk.inj same)
  · intro identity member
    rcases List.mem_append.mp member with old | new
    · exact consistent.owners identity old
    · rw [List.mem_singleton] at new
      subst new
      exact owned

/-- What the provisioning transaction did where it committed. -/
theorem provision_ok {principal identity : Nat} {email : String}
    (provisioned : tables.provision ⟨principal, .active⟩ ⟨principal, email⟩
      ⟨identity, principal, issuer, subject⟩ = .ok after)
    (consistent : Consistent tables) :
    Consistent after ∧ Provisioned issuer subject tables after principal := by
  obtain ⟨withPrincipal, first, rest⟩ := ok_of_bind provisioned
  obtain ⟨withUser, second, third⟩ := ok_of_bind rest
  refine ⟨?_, ?_⟩
  · apply consistent_insertIdentity _ third
    apply consistent_insertUser _ second
    exact consistent_insertPrincipal consistent first
  · obtain ⟨created, rfl⟩ := insertPrincipal_ok first
    cases insertUser_ok second
    obtain ⟨_, _, rfl⟩ := insertIdentity_ok third
    exact ⟨created, email, identity, rfl⟩

theorem Provisioned.holds {before : Tables} {principal : Nat}
    (provisioned : Provisioned issuer subject before after principal) :
    Holds after issuer subject principal := by
  obtain ⟨email, identity, rfl⟩ := provisioned.together
  refine ⟨⟨identity, principal, issuer, subject⟩, ?_, ?_, rfl⟩
  · simp
  · simp [IdentityRow.isPair]

theorem consistent_remove (unlink : Unlink) (consistent : Consistent tables) :
    Consistent (unlink.remove tables) := by
  refine ⟨?_, consistent.ids, ?_⟩
  · exact consistent.pairs.sublist (List.filter_sublist.map _)
  intro row member
  exact consistent.owners row (List.mem_of_mem_filter member)

theorem consistent_apply {change : UserChange} (consistent : Consistent tables)
    (applied : change.apply tables = some after) : Consistent after := by
  unfold UserChange.apply at applied
  split at applied
  case h_1 =>
    split at applied
    case h_1 changed inserted =>
      cases applied
      obtain ⟨withPrincipal, first, second⟩ := ok_of_bind inserted
      apply consistent_insertUser _ second
      exact consistent_insertPrincipal consistent first
    case h_2 => cases applied
  case h_2 =>
    split at applied
    case isTrue => cases applied
    case isFalse =>
      cases applied
      exact ⟨consistent.pairs, consistent.ids, consistent.owners⟩

end Tables

open Tables

/-- The history begins with a state of no call and ends with the current one,
and every state in it satisfies the constraints. -/
structure Recorded (database : Database) : Prop where
  first : ∃ tables, database.moments.head? = some ⟨none, tables⟩
  current : ∃ author,
    database.moments.getLast? = some ⟨author, database.tables⟩
  consistent : ∀ moment ∈ database.moments, Consistent moment.tables

/-- Nothing happened, or one transaction of the author committed. -/
def Follows (author : Option Nat) (before after : Database) : Prop :=
  after = before ∨
    ∃ tables, Consistent tables ∧ after = before.commit author tables

/-- The commits of a call. -/
def commitsOf (id : Nat) (moments : List Moment) : List Moment :=
  moments.filter fun moment => moment.author = some id

namespace Recorded

variable {database after : Database} {author : Option Nat}

theorem start {tables : Tables} (consistent : Consistent tables) :
    Recorded (.start tables) where
  first := ⟨tables, rfl⟩
  current := ⟨none, rfl⟩
  consistent moment member := by
    cases List.mem_singleton.mp member
    exact consistent

theorem tables_consistent (recorded : Recorded database) :
    Consistent database.tables := by
  obtain ⟨author, isLast⟩ := recorded.current
  exact recorded.consistent _ (List.mem_of_getLast? isLast)

theorem current_get (recorded : Recorded database) :
    ∃ author, database.moments[database.moments.length - 1]? =
      some ⟨author, database.tables⟩ := by
  obtain ⟨author, isLast⟩ := recorded.current
  rw [List.getLast?_eq_getElem?] at isLast
  exact ⟨author, isLast⟩

theorem follows (recorded : Recorded database)
    (follows : Follows author database after) : Recorded after := by
  rcases follows with rfl | ⟨tables, consistent, rfl⟩
  · exact recorded
  · obtain ⟨tables₀, isFirst⟩ := recorded.first
    refine ⟨⟨tables₀, ?_⟩, ⟨author, ?_⟩, ?_⟩
    · simp [Database.commit, List.head?_append, isFirst]
    · simp [Database.commit]
    · intro moment member
      rcases List.mem_append.mp member with old | new
      · exact recorded.consistent moment old
      · cases List.mem_singleton.mp new
        exact consistent

end Recorded

/-- The phases before a commit. -/
def LoginPhase.uncommitted : LoginPhase → Bool
  | .checking _ => false
  | .finished _ => false
  | _ => true

/-- The phases before the transaction. -/
def LoginPhase.early : LoginPhase → Bool
  | .entering => true
  | .finding => true
  | .provisioning _ => true
  | _ => false

/-- The principal the login goes on with, or has returned. -/
def LoginPhase.principal? : LoginPhase → Option Nat
  | .reading principal => some principal
  | .checking principal => some principal
  | .finished (.ok principal) => some principal
  | _ => none

namespace Login

/-- At some moment of the call the principal held the identity of the login. -/
def HeldSince (database : Database) (login : Login) (principal : Nat) : Prop :=
  ∃ index moment, login.since ≤ index ∧
    database.moments[index]? = some moment ∧
    Holds moment.tables login.issuer login.subject principal

/-- At some moment between its first step and its last one. -/
def HeldDuring (database : Database) (login : Login) (principal : Nat) : Prop :=
  ∃ index moment, login.since ≤ index ∧ index ≤ login.latest ∧
    database.moments[index]? = some moment ∧
    Holds moment.tables login.issuer login.subject principal

/-- What holds of a login between its steps. -/
structure Sound (id : Nat) (database : Database) (login : Login) : Prop where
  began : login.phase ≠ .entering → login.since < database.moments.length
  held : ∀ principal, login.phase.principal? = some principal →
    HeldDuring database login principal
  silent : login.phase.uncommitted = true ∨ login.lost = true →
    commitsOf id database.moments = []
  unlost : login.phase.early = true → login.lost = false
  once : (commitsOf id database.moments).length ≤ 1
  whole : ∀ index before after, database.moments[index]? = some before →
    database.moments[index + 1]? = some after → after.author = some id →
    ∃ principal, Provisioned login.issuer login.subject before.tables
      after.tables principal

variable {id : Nat} {database after : Database} {login : Login}
  {author : Option Nat}

theorem heldSince_current (recorded : Recorded database)
    (began : login.since < database.moments.length) {principal : Nat}
    (holds : Holds database.tables login.issuer login.subject principal) :
    HeldSince database login principal := by
  obtain ⟨author, isCurrent⟩ := recorded.current_get
  exact ⟨_, _, Nat.le_sub_one_of_lt began, isCurrent, holds⟩

theorem HeldDuring.heldSince {principal : Nat}
    (held : HeldDuring database login principal) :
    HeldSince database login principal := by
  obtain ⟨index, moment, since, _, isMoment, holds⟩ := held
  exact ⟨index, moment, since, isMoment, holds⟩

/-- A step that has just been taken is the last one. -/
theorem HeldSince.heldDuring {principal : Nat} {phase : LoginPhase}
    (held : HeldSince database login principal) :
    HeldDuring database (login.at_ database phase) principal := by
  obtain ⟨index, moment, since, isMoment, holds⟩ := held
  have inside : index < database.moments.length :=
    (List.getElem?_eq_some_iff.mp isMoment).1
  exact ⟨index, moment, since, Nat.le_sub_one_of_lt inside, isMoment, holds⟩

theorem HeldDuring.commit {principal : Nat} {tables : Tables}
    (held : HeldDuring database login principal) :
    HeldDuring (database.commit author tables) login principal := by
  obtain ⟨index, moment, since, latest, isMoment, holds⟩ := held
  refine ⟨index, moment, since, latest, ?_, holds⟩
  have inside : index < database.moments.length :=
    (List.getElem?_eq_some_iff.mp isMoment).1
  rw [Database.commit, List.getElem?_append_left inside]
  exact isMoment

theorem commitsOf_commit {tables : Tables} (other : author ≠ some id) :
    commitsOf id (database.commit author tables).moments =
      commitsOf id database.moments := by
  unfold commitsOf Database.commit
  rw [List.filter_append]
  simp [other]

/-- The steps of the others leave a login sound. -/
theorem Sound.follows (sound : Sound id database login)
    (follows : Follows author database after) (other : author ≠ some id) :
    Sound id after login := by
  rcases follows with rfl | ⟨tables, _, rfl⟩
  · exact sound
  · refine ⟨?_, ?_, ?_, sound.unlost, ?_, ?_⟩
    · intro began
      have before := sound.began began
      simp only [Database.commit, List.length_append, List.length_singleton]
      omega
    · intro principal takes
      exact (sound.held principal takes).commit
    · intro silent
      rw [commitsOf_commit other]
      exact sound.silent silent
    · rw [commitsOf_commit other]
      exact sound.once
    · intro index before next isBefore isNext authored
      have isOld : index + 1 < database.moments.length := by
        by_contra beyond
        have inside := (List.getElem?_eq_some_iff.mp isNext).1
        simp only [Database.commit, List.length_append,
          List.length_singleton] at inside
        have last : index + 1 = database.moments.length := by omega
        rw [Database.commit, last, List.getElem?_concat_length] at isNext
        cases isNext
        exact other authored
      rw [Database.commit, List.getElem?_append_left isOld] at isNext
      rw [Database.commit,
        List.getElem?_append_left (Nat.lt_of_succ_lt isOld)] at isBefore
      exact sound.whole index before next isBefore isNext authored

/-- A step that reads only, and goes on with a holder it has seen, if any. -/
theorem Sound.goOn {phase : LoginPhase} (sound : Sound id database login)
    (started : login.phase ≠ .entering)
    (quiet : phase.uncommitted = true → login.phase.uncommitted = true)
    (unlost : phase.early = true → login.phase.early = true)
    (held : ∀ principal, phase.principal? = some principal →
      HeldSince database login principal) :
    Sound id database (login.at_ database phase) where
  began _ := sound.began started
  held principal takes := (held principal takes).heldDuring
  silent early := by
    apply sound.silent
    rcases early with uncommitted | lost
    · exact .inl (quiet uncommitted)
    · exact .inr lost
  unlost early := sound.unlost (unlost early)
  once := sound.once
  whole := sound.whole

theorem Sound.fail (sound : Sound id database login) (error : LoginError)
    (started : login.phase ≠ .entering) :
    Sound id database (login.at_ database (.finished (.error error))) :=
  sound.goOn started nofun nofun nofun

/-- The provisioning transaction: all three rows, or none. -/
theorem Sound.provision {email : String} (recorded : Recorded database)
    (sound : Sound id database login)
    (phase : login.phase = .provisioning email) (principal identity : Nat) :
    Follows (some id) database
        (login.provisionStep id database email principal identity).1 ∧
      Sound id (login.provisionStep id database email principal identity).1
        (login.provisionStep id database email principal identity).2 := by
  have started : login.phase ≠ .entering := by
    rw [phase]
    exact nofun
  have unlost : login.lost = false := sound.unlost (by rw [phase]; rfl)
  have none : commitsOf id database.moments = [] :=
    sound.silent (.inl (by rw [phase]; rfl))
  have lose (kind : ConflictKind) :
      Sound id database
        { login.at_ database (.rereading kind) with lost := true } :=
    ⟨fun _ => sound.began started, nofun, fun _ => none, nofun, sound.once,
      sound.whole⟩
  unfold provisionStep
  split
  case h_1 tables provisioned =>
    obtain ⟨consistent, whole⟩ :=
      provision_ok provisioned recorded.tables_consistent
    refine ⟨.inr ⟨tables, consistent, rfl⟩, ?_⟩
    refine ⟨?_, ?_, ?_, nofun, ?_, ?_⟩
    · intro _
      have began := sound.began started
      simp only [Database.commit, at_, List.length_append,
        List.length_singleton]
      omega
    · rintro taken ⟨⟩
      apply HeldSince.heldDuring
      refine ⟨database.moments.length, ⟨some id, tables⟩, ?_, ?_, whole.holds⟩
      · exact (sound.began started).le
      · exact List.getElem?_concat_length
    · rintro (impossible | lost)
      · cases impossible
      · have impossible : login.lost = true := lost
        rw [unlost] at impossible
        cases impossible
    · unfold commitsOf at none ⊢
      rw [Database.commit, List.filter_append, none]
      simp
    · intro index before next isBefore isNext authored
      by_cases isOld : index + 1 < database.moments.length
      · rw [Database.commit, List.getElem?_append_left isOld] at isNext
        rw [Database.commit,
          List.getElem?_append_left (Nat.lt_of_succ_lt isOld)] at isBefore
        exact sound.whole index before next isBefore isNext authored
      · have inside := (List.getElem?_eq_some_iff.mp isNext).1
        simp only [Database.commit, List.length_append,
          List.length_singleton] at inside
        have last : index + 1 = database.moments.length := by omega
        rw [Database.commit, last, List.getElem?_concat_length] at isNext
        obtain ⟨author, isCurrent⟩ := recorded.current_get
        rw [Database.commit, List.getElem?_append_left (by omega),
          show index = database.moments.length - 1 by omega, isCurrent]
          at isBefore
        cases isBefore
        cases isNext
        exact ⟨principal, whole⟩
  case h_2 => exact ⟨.inl rfl, lose _⟩
  case h_3 => exact ⟨.inl rfl, lose _⟩
  case h_4 => exact ⟨.inl rfl, sound.fail .backend started⟩

/-- What follows the first lookup names the holder that was found. -/
theorem afterFind_holds {principal : Nat}
    (takes : (login.afterFind (database.tables.findByIssuerSubject login.issuer
      login.subject)).principal? = some principal) :
    Holds database.tables login.issuer login.subject principal := by
  cases found : database.tables.findByIssuerSubject login.issuer login.subject
    with
  | some row =>
      rw [found] at takes
      cases takes
      exact holds_of_find found
  | none =>
      rw [found] at takes
      unfold afterFind at takes
      dsimp only at takes
      repeat' split at takes
      all_goals cases takes

/-- What follows the second lookup names the holder that was found. -/
theorem afterReread_holds {kind : ConflictKind} {principal : Nat}
    (takes : (afterReread kind (database.tables.findByIssuerSubject login.issuer
      login.subject)).principal? = some principal) :
    Holds database.tables login.issuer login.subject principal := by
  cases found : database.tables.findByIssuerSubject login.issuer login.subject
    with
  | some row =>
      rw [found] at takes
      cases takes
      exact holds_of_find found
  | none =>
      rw [found] at takes
      unfold afterReread at takes
      dsimp only at takes
      split at takes
      all_goals cases takes

theorem afterReread_early {kind : ConflictKind} {found : Option IdentityRow} :
    (afterReread kind found).early = false := by
  unfold afterReread
  split
  · rfl
  · split
    all_goals rfl

/-- The status check returns the principal that was asked for. -/
theorem afterCheck_ok {tables : Tables} {found principal : Nat}
    (checked : afterCheck (tables.findPrincipal found) = .ok principal) :
    principal = found := by
  cases isRow : tables.findPrincipal found with
  | none =>
      rw [isRow] at checked
      cases checked
  | some row =>
      rw [isRow] at checked
      unfold afterCheck at checked
      dsimp only at checked
      split at checked
      case isTrue =>
        cases checked
        have same := List.find?_some isRow
        simpa using same
      case isFalse => cases checked

/-- What one step of a login keeps. -/
theorem Sound.step {input : CallInput} {next : Login}
    (recorded : Recorded database) (sound : Sound id database login)
    (stepped : login.step id database input = some (after, next)) :
    Follows (some id) database after ∧ Sound id after next := by
  cases input with
  | fails =>
      unfold Login.step at stepped
      dsimp only at stepped
      split at stepped
      case h_1 => cases stepped
      case h_2 => cases stepped
      case h_3 started _ =>
        cases stepped
        exact ⟨.inl rfl, sound.fail .backend started⟩
  | goOn principal identity =>
      unfold Login.step at stepped
      dsimp only at stepped
      split at stepped
      case h_1 phase =>
        cases stepped
        have none := sound.silent (.inl (by rw [phase]; rfl))
        refine ⟨.inl rfl, ?_, nofun, fun _ => none, ?_, sound.once,
          sound.whole⟩
        · intro _
          obtain ⟨author, isCurrent⟩ := recorded.current_get
          exact (List.getElem?_eq_some_iff.mp isCurrent).1
        · intro _
          exact sound.unlost (by rw [phase]; rfl)
      case h_2 phase =>
        cases stepped
        have started : login.phase ≠ .entering := by
          rw [phase]
          exact nofun
        refine ⟨.inl rfl, sound.goOn started ?_ ?_ ?_⟩
        · intro _
          rw [phase]
          rfl
        · intro _
          rw [phase]
          rfl
        · intro taken takes
          apply heldSince_current recorded (sound.began started)
          exact afterFind_holds takes
      case h_3 found phase =>
        have started : login.phase ≠ .entering := by
          rw [phase]
          exact nofun
        split at stepped
        case h_1 =>
          cases stepped
          exact ⟨.inl rfl, sound.fail .backend started⟩
        case h_2 row isRow =>
          cases stepped
          refine ⟨.inl rfl, sound.goOn started nofun nofun ?_⟩
          rintro taken ⟨⟩
          have same : row.id = found := by simpa using List.find?_some isRow
          apply (sound.held _ _).heldSince
          rw [phase, same]
          rfl
      case h_4 email phase =>
        split at stepped
        case isTrue =>
          have kept := sound.provision recorded phase principal identity
          rw [Option.some.inj stepped] at kept
          exact kept
        case isFalse => cases stepped
      case h_5 kind phase =>
        cases stepped
        have started : login.phase ≠ .entering := by
          rw [phase]
          exact nofun
        refine ⟨.inl rfl, sound.goOn started ?_ ?_ ?_⟩
        · intro _
          rw [phase]
          rfl
        · intro early
          rw [afterReread_early] at early
          cases early
        · intro taken takes
          apply heldSince_current recorded (sound.began started)
          exact afterReread_holds takes
      case h_6 found phase =>
        cases stepped
        have started : login.phase ≠ .entering := by
          rw [phase]
          exact nofun
        refine ⟨.inl rfl, sound.goOn started nofun nofun ?_⟩
        intro taken takes
        cases checked : afterCheck (database.tables.findPrincipal found) with
        | error error =>
            rw [checked] at takes
            cases takes
        | ok holder =>
            rw [checked] at takes
            cases takes
            apply (sound.held _ _).heldSince
            rw [phase, afterCheck_ok checked]
            rfl
      case h_7 => cases stepped

end Login

section Run

variable {id : Nat} {database after : Database}

theorem Link.step_follows {link next : Link} {input : CallInput}
    (recorded : Recorded database)
    (stepped : link.step id database input = some (after, next)) :
    Follows (some id) database after := by
  unfold Link.step at stepped
  repeat' split at stepped
  all_goals first | contradiction | skip
  case h_3.isTrue =>
    unfold Link.linkStep at stepped
    split at stepped
    case h_1 tables inserted =>
      cases stepped
      refine .inr ⟨tables, ?_, rfl⟩
      exact consistent_insertIdentity recorded.tables_consistent inserted
    all_goals
      cases stepped
      exact .inl rfl
  all_goals
    cases stepped
    exact .inl rfl

theorem Unlink.step_follows {unlink next : Unlink} {input : CallInput}
    (recorded : Recorded database)
    (stepped : unlink.step id database input = some (after, next)) :
    Follows (some id) database after := by
  unfold Unlink.step at stepped
  repeat' split at stepped
  all_goals first | contradiction | skip
  case h_3.isTrue =>
    cases stepped
    refine .inr ⟨_, ?_, rfl⟩
    exact consistent_remove unlink recorded.tables_consistent
  all_goals
    cases stepped
    exact .inl rfl

/-- The assertion about a call between its steps. -/
def Asserts (id : Nat) (database : Database) : Call → Prop
  | .login login => login.Sound id database
  | _ => True

theorem Asserts.follows {author : Option Nat} {call : Call}
    (asserted : Asserts id database call)
    (follows : Follows author database after) (other : author ≠ some id) :
    Asserts id after call := by
  cases call with
  | login login => exact Login.Sound.follows asserted follows other
  | link => trivial
  | unlink => trivial

/-- What one step of a call keeps. -/
theorem Asserts.step {call next : Call} {input : CallInput}
    (recorded : Recorded database) (asserted : Asserts id database call)
    (stepped : call.step id database input = some (after, next)) :
    Follows (some id) database after ∧ Asserts id after next := by
  unfold Call.step at stepped
  split at stepped
  case h_1 login =>
    split at stepped
    case h_1 loginStepped =>
      cases stepped
      exact Login.Sound.step recorded asserted loginStepped
    case h_2 => cases stepped
  case h_2 link =>
    split at stepped
    case h_1 linkStepped =>
      cases stepped
      exact ⟨link.step_follows recorded linkStepped, trivial⟩
    case h_2 => cases stepped
  case h_3 unlink =>
    split at stepped
    case h_1 unlinkStepped =>
      cases stepped
      exact ⟨unlink.step_follows recorded unlinkStepped, trivial⟩
    case h_2 => cases stepped

/-- A login that has not begun is sound if it has committed nothing. -/
theorem Asserts.spawned {call : Call} (starts : call.starts = true)
    (unstarted : commitsOf id database.moments = []) :
    Asserts id database call := by
  cases call with
  | login login =>
      simp only [Call.starts, Bool.and_eq_true, decide_eq_true_eq,
        Bool.not_eq_true'] at starts
      obtain ⟨phase, unlost⟩ := starts
      refine ⟨?_, ?_, fun _ => unstarted, fun _ => unlost, ?_, ?_⟩
      · intro begun
        exact absurd phase begun
      · rw [phase]
        exact nofun
      · rw [unstarted]
        exact Nat.zero_le 1
      · intro index before next _ isNext authored
        have member : next ∈ commitsOf id database.moments := by
          apply List.mem_filter.mpr
          exact ⟨List.mem_of_getElem? isNext, by simpa using authored⟩
        rw [unstarted] at member
        cases member
  | link => trivial
  | unlink => trivial

theorem commitsOf_follows {author : Option Nat}
    (follows : Follows author database after) (other : author ≠ some id) :
    commitsOf id after.moments = commitsOf id database.moments := by
  rcases follows with rfl | ⟨tables, _, rfl⟩
  · rfl
  · exact Login.commitsOf_commit other

theorem outside_follows {change : UserChange} (recorded : Recorded database)
    (changed : calls.outside database change = some after) :
    Follows none database after := by
  obtain ⟨tables, applied, rfl⟩ := Option.map_eq_some_iff.mp changed
  exact .inr ⟨tables, consistent_apply recorded.tables_consistent applied, rfl⟩

/-- The invariant of every run: the calls are sound, and a call that was not
made has committed nothing. -/
structure Reached (configuration : Configuration Database Call) : Prop where
  holds : Program.Holds Recorded Asserts configuration
  unstarted : ∀ id, configuration.process id = none →
    commitsOf id configuration.shared.moments = []

theorem Reached.move {configuration next : Configuration Database Call}
    {action : Move Call CallInput UserChange} (reached : Reached configuration)
    (moved : calls.move configuration action = some next) : Reached next := by
  have recorded := reached.holds.shared
  cases Program.move_cases moved with
  | @spawn id initial unused starts =>
      refine ⟨.set recorded ?_ ?_, ?_⟩
      · exact Asserts.spawned starts (reached.unstarted id unused)
      · intro other held _ running
        exact reached.holds.process other held running
      · intro other unstarted
        by_cases same : other = id
        · rw [same, Configuration.set_process_self] at unstarted
          cases unstarted
        · rw [Configuration.set_process_of_ne _ same] at unstarted
          exact reached.unstarted other unstarted
  | @run id state next input shared running stepped =>
      obtain ⟨follows, own⟩ :=
        Asserts.step recorded (reached.holds.process id state running) stepped
      have others (other : Nat) (distinct : other ≠ id) :
          some id ≠ some other := by
        rintro ⟨⟩
        exact distinct rfl
      refine ⟨.set (recorded.follows follows) own ?_, ?_⟩
      · intro other held distinct otherRunning
        have asserted := reached.holds.process other held otherRunning
        exact asserted.follows follows (others other distinct)
      · intro other unstarted
        by_cases same : other = id
        · rw [same, Configuration.set_process_self] at unstarted
          cases unstarted
        · rw [Configuration.set_process_of_ne _ same] at unstarted
          rw [Configuration.set_shared,
            commitsOf_follows follows (others other same)]
          exact reached.unstarted other unstarted
  | outside changed =>
      have follows := outside_follows recorded changed
      refine ⟨⟨recorded.follows follows, ?_⟩, ?_⟩
      · intro id state running
        exact (reached.holds.process id state running).follows follows nofun
      · intro id unstarted
        dsimp only
        rw [commitsOf_follows follows nofun]
        exact reached.unstarted id unstarted

theorem Reached.start {tables : Tables} (consistent : Consistent tables) :
    Reached (.start (.start tables)) where
  holds := .start (.start consistent)
  unstarted _ _ := rfl

end Run

end Paigasus.Identities
