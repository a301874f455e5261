import Paigasus.Authorization.EntitySlice

/-!
# Grants, revokes and API keys under authorization

The role service and the issue of API keys over the tenancy transactions.  Every
call asks for a decision first.  A decision may come from a cache, and it may be
computed from an old policy snapshot and from cached entities, so the states it
rests on are any states committed since the start of the run; the actions choose
them.  The checks of the other tenancy calls only restrict who makes them, and
are left open here: any actor may make these calls.
-/

namespace Paigasus.Delegation

open Foundation Kernel Core Roles Tenancy Policies Authorization

/-- A configured service: the policy language, the instant of the seeded starter
policies, and whether tenancy routes ask for a decision
(`authz.enforce_tenancy`). -/
structure Deployment (Condition : Type) where
  language : Authorization.Language Condition
  seededAt : Timestamp
  enforceTenancy : Bool

/-- The committed states that a decision rests on. -/
structure Evidence where
  snapshot : Db
  reads : Reads

namespace Deployment

variable {Condition : Type}

/-- A snapshot that does not compile is never published. -/
def isAuthorized (deployment : Deployment Condition) (evidence : Evidence)
    (request : AccessRequest) : Except SliceError Decision :=
  match compile deployment.language.frontend
      (starterPolicies deployment.seededAt) evidence.snapshot.grants with
  | .error _ => .error .backend
  | .ok set =>
      match load evidence.reads request.resource request.principal with
      | .ok slice =>
          .ok (Authorization.decide deployment.language set slice request)
      | .error .resourceNotFound => .ok ⟨.deny, [resourceNotFoundMarker]⟩
      | .error .backend => .error .backend

/-- `Authorize::check` for an authenticated principal. -/
def check (deployment : Deployment Condition) (evidence : Evidence)
    (actor : Uuid) (action : Core.Action) (resource : Prn) : Bool :=
  match deployment.isAuthorized evidence
      ⟨(PrincipalId.fromUuid actor).prn, action, resource, .empty⟩ with
  | .ok decision => decision.effect = .allow
  | .error _ => false

end Deployment

inductive TenancyError where
  | invalidPrn (detail : String)
deriving DecidableEq

/-- Checks the syntax, the service and the type, and nothing else. -/
def parsePrincipalPrn (raw : String) : Except TenancyError PrincipalId :=
  match Prn.parse raw with
  | .error refusal => .error (.invalidPrn refusal.kind)
  | .ok prn =>
      if prn.service ≠ "iam" ∨ prn.resourceType ≠ "principal" then
        .error (.invalidPrn prn.canonical)
      else
        .ok ⟨prn⟩

/-- The text of the root, or the name of a tenancy node. -/
def parseGrantScope (raw : String) : Except TenancyError GrantScope :=
  if raw = rootPrn.canonical then
    .ok .root
  else
    match Prn.parse raw with
    | .error refusal => .error (.invalidPrn refusal.kind)
    | .ok prn =>
        match TenancyNodeRef.fromPrn prn with
        | none => .error (.invalidPrn prn.canonical)
        | some node => .ok (.node node)

def scopeResourcePrn : GrantScope → Prn
  | .root => rootPrn
  | .node node => node.prn

/-- A grant call with the strings of the caller. -/
structure GrantInput where
  principalPrn : String
  roleKey : String
  scopePrn : String

structure ServiceAccount where
  id : Uuid
  owner : TenancyNodeRef

structure IssueRequest where
  actor : Uuid
  account : PrincipalId
  scope : TenancyNodeRef

inductive IssuePhase where
  /-- Allowed at the owner of the account; its grants are read next. -/
  | listing (request : IssueRequest)
  | checking (request : IssueRequest) (held todo : List RoleGrant)
  | issued (request : IssueRequest) (held : List RoleGrant)
  | refused

/-- The positions, in the history of the run, of the states that a decision
rests on. -/
structure Sources where
  snapshot : Nat
  reads : Nat → Nat
  kind : String
  status : String

structure World where
  base : Tenancy.World
  /-- The committed states since the start, the current one included. -/
  past : List Db
  callers : Nat → Option Uuid
  /-- What the run has committed, with the callers of its own calls. -/
  made : List (Option Uuid × Changes)
  accounts : List ServiceAccount
  issues : Nat → Option IssuePhase

inductive Action where
  | proceed (action : Tenancy.Action)
  | tenancy (txn : Nat) (request : Tenancy.Request) (sources : Sources)
  | grant (txn : Nat) (input : GrantInput) (id : Uuid) (stamp : Stamp)
      (sources : Sources)
  | revoke (txn : Nat) (id : Uuid) (stamp : Stamp) (sources : Sources)
  | createAccount (account : ServiceAccount)
  | issue (call : Nat) (request : IssueRequest) (sources : Sources)
  | advanceIssue (call : Nat) (sources : Sources)

namespace World

def start (base : Tenancy.World) (accounts : List ServiceAccount) : World :=
  ⟨base, [base.db], fun _ => none, [], accounts, fun _ => none⟩

def stateAt (world : World) (index : Nat) : Db :=
  (world.past[index]?).getD world.base.db

def evidence (world : World) (sources : Sources) : Evidence where
  snapshot := world.stateAt sources.snapshot
  reads :=
    { state := fun index => world.stateAt (sources.reads index)
      kind := sources.kind
      status := sources.status }

def withBase (world : World) (base : Tenancy.World) : World :=
  { world with
    base
    past := world.past ++ [base.db]
    made := world.made ++
      (base.commits.drop world.base.commits.length).map fun commit =>
        (world.callers commit.1, commit.2) }

def moveIssue (world : World) (call : Nat) (phase : IssuePhase) : World :=
  { world with issues := Function.update world.issues call (some phase) }

/-- Opens the transaction of a call. -/
def startCall (world : World) (txn : Nat) (request : Tenancy.Request)
    (caller : Option Uuid) : Option World :=
  (world.base.step (.start txn request)).map fun base =>
    { world.withBase base with
      callers := Function.update world.callers txn caller }

def grantsOf (db : Db) (principal : PrincipalId) : List RoleGrant :=
  db.grants.filter fun grant => grant.principal.uuid = principal.uuid

section Step

variable {Condition : Type}

/-- A grant call up to its transaction.  The role, the kind of the scope and
the stored names are checked as the transaction opens. -/
def startGrant (deployment : Deployment Condition) (world : World)
    (txn : Nat) (input : GrantInput) (id : Uuid) (stamp : Stamp)
    (sources : Sources) : Option World :=
  match parsePrincipalPrn input.principalPrn,
      parseGrantScope input.scopePrn with
  | .ok principal, .ok scope =>
      if deployment.check (world.evidence sources) stamp.actor .grantRole
          (scopeResourcePrn scope) then
        world.startCall txn ⟨.grant ⟨principal, input.roleKey, scope⟩ id, stamp⟩
          (some stamp.actor)
      else
        some world
  | _, _ => some world

def startRevoke (deployment : Deployment Condition) (world : World)
    (txn : Nat) (id : Uuid) (stamp : Stamp) (sources : Sources) :
    Option World :=
  match world.base.db.grants.find? fun grant => grant.id = id with
  | none => some world
  | some grant =>
      if deployment.check (world.evidence sources) stamp.actor .revokeRole
          (scopeResourcePrn grant.scope) then
        world.startCall txn ⟨.revoke id, stamp⟩ (some stamp.actor)
      else
        some world

/-- The other calls.  The create route of organizations asks for a decision at
the root, and the configured administrator is seeded by nobody's call. -/
def startTenancy (deployment : Deployment Condition) (world : World)
    (txn : Nat) (request : Tenancy.Request) (sources : Sources) :
    Option World :=
  match request.call with
  | .grant _ _ => none
  | .revoke _ => none
  | .seedAdmin _ _ _ => world.startCall txn request none
  | .createOrganization _ _ _ _ _ =>
      if deployment.enforceTenancy &&
          !deployment.check (world.evidence sources) request.stamp.actor
            .createOrganization rootPrn then
        some world
      else
        world.startCall txn request (some request.stamp.actor)
  | _ => world.startCall txn request (some request.stamp.actor)

def startIssue (deployment : Deployment Condition) (world : World)
    (call : Nat) (request : IssueRequest) (sources : Sources) : World :=
  match world.accounts.find? fun account =>
      account.id = request.account.uuid with
  | none => world.moveIssue call .refused
  | some account =>
      if deployment.check (world.evidence sources) request.actor .issueApiKey
          account.owner.prn then
        world.moveIssue call (.listing request)
      else
        world.moveIssue call .refused

/-- The next statement of an issue call: the read of the account's grants, the
check at the scope of one of them, and at last the check of the key's scope. -/
def advanceIssue (deployment : Deployment Condition) (world : World)
    (call : Nat) (sources : Sources) : IssuePhase → Option World
  | .listing request =>
      let held := grantsOf world.base.db request.account
      some (world.moveIssue call (.checking request held held))
  | .checking request held (grant :: rest) =>
      if deployment.check (world.evidence sources) request.actor .grantRole
          (scopeResourcePrn grant.scope) then
        some (world.moveIssue call (.checking request held rest))
      else
        some (world.moveIssue call .refused)
  | .checking request held [] =>
      match world.base.db.find (nodeKeyOf request.scope) with
      | none => some (world.moveIssue call .refused)
      | some row =>
          if deployment.check (world.evidence sources) request.actor
              .issueApiKey (row.place.ref row.id).prn &&
              request.scope.canonical = row.prn then
            some (world.moveIssue call (.issued request held))
          else
            some (world.moveIssue call .refused)
  | _ => none

def step (deployment : Deployment Condition) (world : World) :
    Action → Option World
  | .proceed (.start _ _) => none
  | .proceed action => (world.base.step action).map world.withBase
  | .tenancy txn request sources =>
      startTenancy deployment world txn request sources
  | .grant txn input id stamp sources =>
      startGrant deployment world txn input id stamp sources
  | .revoke txn id stamp sources =>
      startRevoke deployment world txn id stamp sources
  | .createAccount account =>
      (world.base.step (.register account.id)).map fun base =>
        { world.withBase base with accounts := world.accounts ++ [account] }
  | .issue call request sources =>
      match world.issues call with
      | none => some (startIssue deployment world call request sources)
      | some _ => none
  | .advanceIssue call sources =>
      match world.issues call with
      | none => none
      | some phase => advanceIssue deployment world call sources phase

end Step

end World

end Paigasus.Delegation
