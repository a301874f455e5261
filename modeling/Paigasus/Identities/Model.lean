import Paigasus.Core.Authn
import Paigasus.Foundation.Processes

/-!
# External identities

The tables of principals, users and external identities with their unique
constraints, and the calls that read and change them: a login with just-in-time
provisioning, the link and the unlink of an identity.  A transaction takes
effect in one step, at its commit or at the constraint it violates; every query
outside of one is a step of its own.
-/

namespace Paigasus.Identities

open Foundation Core

structure PrincipalRow where
  id : Nat
  status : PrincipalStatus
deriving DecidableEq

structure UserRow where
  principal : Nat
  email : String
deriving DecidableEq

structure IdentityRow where
  id : Nat
  principal : Nat
  issuer : String
  subject : String
deriving DecidableEq

/-- The row is the one of the given issuer and subject. -/
def IdentityRow.isPair (issuer subject : String) (row : IdentityRow) : Bool :=
  row.issuer = issuer && row.subject = subject

structure Tables where
  principals : List PrincipalRow
  users : List UserRow
  identities : List IdentityRow
deriving DecidableEq

inductive ConflictKind where
  | emailTaken
  | externalIdentityExists
  | other
deriving DecidableEq

inductive RepositoryError where
  | conflict (kind : ConflictKind)
  | notFound
  | backend
deriving DecidableEq

namespace Tables

def findPrincipal (tables : Tables) (id : Nat) : Option PrincipalRow :=
  tables.principals.find? fun row => row.id = id

def findByIssuerSubject (tables : Tables) (issuer subject : String) :
    Option IdentityRow :=
  tables.identities.find? (IdentityRow.isPair issuer subject)

def insertPrincipal (tables : Tables) (row : PrincipalRow) :
    Except RepositoryError Tables :=
  if tables.principals.any fun held => held.id = row.id then
    .error (.conflict .other)
  else
    .ok { tables with principals := tables.principals ++ [row] }

def insertUser (tables : Tables) (row : UserRow) :
    Except RepositoryError Tables :=
  if tables.users.any fun held => held.email = row.email then
    .error (.conflict .emailTaken)
  else
    .ok { tables with users := tables.users ++ [row] }

/-- The unique constraint comes first, then the reference to the principal. -/
def insertIdentity (tables : Tables) (row : IdentityRow) :
    Except RepositoryError Tables :=
  if tables.identities.any (IdentityRow.isPair row.issuer row.subject) then
    .error (.conflict .externalIdentityExists)
  else if tables.principals.any fun held => held.id = row.principal then
    .ok { tables with identities := tables.identities ++ [row] }
  else
    .error .notFound

/-- The three inserts of one transaction. -/
def provision (tables : Tables) (principal : PrincipalRow) (user : UserRow)
    (identity : IdentityRow) : Except RepositoryError Tables :=
  (tables.insertPrincipal principal).bind fun withPrincipal =>
    (withPrincipal.insertUser user).bind fun withUser =>
      withUser.insertIdentity identity

/-- The ids were never used. -/
def unused (tables : Tables) (principal identity : Nat) : Bool :=
  !(tables.principals.any fun row => row.id = principal) &&
    !(tables.identities.any fun row => row.id = identity)

end Tables

/-- A committed state, with the call whose transaction led to it. -/
structure Moment where
  author : Option Nat
  tables : Tables
deriving DecidableEq

/-- The current tables and all committed states, the first one included. -/
structure Database where
  tables : Tables
  moments : List Moment
deriving DecidableEq

namespace Database

def start (tables : Tables) : Database := ⟨tables, [⟨none, tables⟩]⟩

def commit (database : Database) (author : Option Nat) (tables : Tables) :
    Database :=
  ⟨tables, database.moments ++ [⟨author, tables⟩]⟩

end Database

/-- What a call does not decide itself: new ids, and failures of the store. -/
inductive CallInput where
  | goOn (principal identity : Nat)
  | fails
deriving DecidableEq

inductive LoginError where
  | identityNotProvisioned
  | jitDisabled
  | missingEmail
  | emailConflict
  | principalInactive
  | backend
deriving DecidableEq

/-- The next query of a login. -/
inductive LoginPhase where
  | entering
  | finding
  | reading (principal : Nat)
  | provisioning (email : String)
  | rereading (kind : ConflictKind)
  | checking (principal : Nat)
  | finished (result : Except LoginError Nat)
deriving DecidableEq

/-- A login with verified claims.  `since` is the moment it began, `latest` the
moment of its last step, and `lost` says that its transaction hit a
constraint. -/
structure Login where
  issuer : String
  subject : String
  email : Option String
  provisioning : Bool
  jitAllowed : Bool
  phase : LoginPhase
  since : Nat
  latest : Nat
  lost : Bool
deriving DecidableEq

namespace Login

/-- The login after a step that left the given database. -/
def at_ (login : Login) (database : Database) (phase : LoginPhase) : Login :=
  { login with phase, latest := database.moments.length - 1 }

/-- What follows the first lookup of the identity. -/
def afterFind (login : Login) : Option IdentityRow → LoginPhase
  | some row => .reading row.principal
  | none =>
      if !login.provisioning then .finished (.error .identityNotProvisioned)
      else if !login.jitAllowed then .finished (.error .jitDisabled)
      else
        match login.email with
        | none => .finished (.error .missingEmail)
        | some email => .provisioning email

/-- What follows the lookup after a lost race. -/
def afterReread (kind : ConflictKind) : Option IdentityRow → LoginPhase
  | some row => .reading row.principal
  | none =>
      if kind = .emailTaken then .finished (.error .emailConflict)
      else .finished (.error .backend)

def afterCheck : Option PrincipalRow → Except LoginError Nat
  | none => .error .backend
  | some row => if row.status = .active then .ok row.id
      else .error .principalInactive

variable (id : Nat) (database : Database) (login : Login)

/-- The provisioning transaction and its outcome. -/
def provisionStep (email : String) (principal identity : Nat) :
    Database × Login :=
  match database.tables.provision ⟨principal, .active⟩ ⟨principal, email⟩
      ⟨identity, principal, login.issuer, login.subject⟩ with
  | .ok tables =>
      let committed := database.commit (some id) tables
      (committed, login.at_ committed (.checking principal))
  | .error (.conflict .externalIdentityExists) =>
      (database, { login.at_ database (.rereading .externalIdentityExists) with
        lost := true })
  | .error (.conflict .emailTaken) =>
      (database, { login.at_ database (.rereading .emailTaken) with
        lost := true })
  | .error _ => (database, login.at_ database (.finished (.error .backend)))

def step : CallInput → Option (Database × Login)
  | .fails =>
      match login.phase with
      | .entering => none
      | .finished _ => none
      | _ => some (database, login.at_ database (.finished (.error .backend)))
  | .goOn principal identity =>
      match login.phase with
      | .entering =>
          some (database, { login.at_ database .finding with
            since := database.moments.length - 1 })
      | .finding =>
          some (database, login.at_ database (login.afterFind
            (database.tables.findByIssuerSubject login.issuer login.subject)))
      | .reading found =>
          match database.tables.findPrincipal found with
          | none =>
              some (database, login.at_ database (.finished (.error .backend)))
          | some row => some (database, login.at_ database (.checking row.id))
      | .provisioning email =>
          if database.tables.unused principal identity then
            some (login.provisionStep id database email principal identity)
          else
            none
      | .rereading kind =>
          some (database, login.at_ database (afterReread kind
            (database.tables.findByIssuerSubject login.issuer login.subject)))
      | .checking found =>
          some (database, login.at_ database (.finished (afterCheck
            (database.tables.findPrincipal found))))
      | .finished _ => none

end Login

inductive LinkResult where
  | linked
  | unchanged
  | conflict
  | notFound
  | backend
deriving DecidableEq

inductive LinkPhase where
  | locking
  | finding
  | linking
  | rereading
  | finished (result : LinkResult)
deriving DecidableEq

structure Link where
  user : Nat
  issuer : String
  subject : String
  phase : LinkPhase
deriving DecidableEq

namespace Link

def at_ (link : Link) (phase : LinkPhase) : Link := { link with phase }

/-- A pair that is held already: a retry by the same user changes nothing. -/
def heldBy (link : Link) (row : IdentityRow) : LinkResult :=
  if row.principal = link.user then .unchanged else .conflict

variable (id : Nat) (database : Database) (link : Link)

def linkStep (identity : Nat) : Database × Link :=
  match database.tables.insertIdentity
      ⟨identity, link.user, link.issuer, link.subject⟩ with
  | .ok tables =>
      (database.commit (some id) tables, link.at_ (.finished .linked))
  | .error (.conflict .externalIdentityExists) =>
      (database, link.at_ .rereading)
  | .error _ => (database, link.at_ (.finished .backend))

def step : CallInput → Option (Database × Link)
  | .fails =>
      match link.phase with
      | .finished _ => none
      | _ => some (database, link.at_ (.finished .backend))
  | .goOn principal identity =>
      match link.phase with
      | .locking =>
          if database.tables.users.any fun row => row.principal = link.user then
            some (database, link.at_ .finding)
          else
            some (database, link.at_ (.finished .notFound))
      | .finding =>
          match database.tables.findByIssuerSubject link.issuer link.subject
          with
          | some row => some (database, link.at_ (.finished (link.heldBy row)))
          | none => some (database, link.at_ .linking)
      | .linking =>
          if database.tables.unused principal identity then
            some (link.linkStep id database identity)
          else
            none
      | .rereading =>
          match database.tables.findByIssuerSubject link.issuer link.subject
          with
          | some row => some (database, link.at_ (.finished (link.heldBy row)))
          | none => some (database, link.at_ (.finished .conflict))
      | .finished _ => none

end Link

inductive UnlinkResult where
  | removed
  | notFound
  | cannotUnlinkOwnIdentity
  | backend
deriving DecidableEq

inductive UnlinkPhase where
  | locking
  | guarding
  | removing
  | finished (result : UnlinkResult)
deriving DecidableEq

/-- An unlink; `caller` is the pair of the credential that asks for it. -/
structure Unlink where
  caller : Option (String × String)
  user : Nat
  identity : Nat
  phase : UnlinkPhase
deriving DecidableEq

namespace Unlink

def at_ (unlink : Unlink) (phase : UnlinkPhase) : Unlink :=
  { unlink with phase }

/-- The identity is the one the caller has signed in with. -/
def isOwn (unlink : Unlink) (tables : Tables) : Bool :=
  match unlink.caller with
  | none => false
  | some (issuer, subject) =>
      match tables.findByIssuerSubject issuer subject with
      | none => false
      | some own => own.id = unlink.identity && own.principal = unlink.user

def remove (unlink : Unlink) (tables : Tables) : Tables :=
  { tables with
    identities := tables.identities.filter fun row => row.id ≠ unlink.identity }

variable (id : Nat) (database : Database) (unlink : Unlink)

def step : CallInput → Option (Database × Unlink)
  | .fails =>
      match unlink.phase with
      | .finished _ => none
      | _ => some (database, unlink.at_ (.finished .backend))
  | .goOn _ _ =>
      match unlink.phase with
      | .locking =>
          if database.tables.users.any fun row => row.principal = unlink.user
          then
            some (database, unlink.at_ .guarding)
          else
            some (database, unlink.at_ (.finished .notFound))
      | .guarding =>
          if unlink.isOwn database.tables then
            some (database, unlink.at_ (.finished .cannotUnlinkOwnIdentity))
          else
            some (database, unlink.at_ .removing)
      | .removing =>
          if database.tables.identities.any fun row =>
              row.id = unlink.identity && row.principal = unlink.user then
            some (database.commit (some id) (unlink.remove database.tables),
              unlink.at_ (.finished .removed))
          else
            some (database, unlink.at_ (.finished .notFound))
      | .finished _ => none

end Unlink

inductive Call where
  | login (login : Login)
  | link (link : Link)
  | unlink (unlink : Unlink)
deriving DecidableEq

def Call.starts : Call → Bool
  | .login state => state.phase = .entering && !state.lost
  | .link state => state.phase = .locking
  | .unlink state => state.phase = .locking

/-- One query or transaction of a call. -/
def Call.step (id : Nat) (database : Database) (call : Call)
    (input : CallInput) : Option (Database × Call) :=
  match call with
  | .login state =>
      match state.step id database input with
      | some (after, next) => some (after, .login next)
      | none => none
  | .link state =>
      match state.step id database input with
      | some (after, next) => some (after, .link next)
      | none => none
  | .unlink state =>
      match state.step id database input with
      | some (after, next) => some (after, .unlink next)
      | none => none

/-- The transactions of other calls that change users. -/
inductive UserChange where
  | createUser (principal : Nat) (email : String)
  | changeEmail (principal : Nat) (email : String)
deriving DecidableEq

/-- A change that violates a constraint is rolled back. -/
def UserChange.apply (tables : Tables) : UserChange → Option Tables
  | .createUser principal email =>
      match (tables.insertPrincipal ⟨principal, .active⟩).bind
          (Tables.insertUser · ⟨principal, email⟩) with
      | .ok changed => some changed
      | .error _ => none
  | .changeEmail principal email =>
      if tables.users.any fun row => row.email = email then
        none
      else
        some { tables with
          users := tables.users.map fun row =>
            if row.principal = principal then { row with email } else row }

def calls : Program Database Call CallInput UserChange where
  starts := Call.starts
  step := Call.step
  outside database change :=
    (change.apply database.tables).map (database.commit none ·)

end Paigasus.Identities
