import Mathlib.Logic.Function.Basic
import Paigasus.Core.Authz
import Paigasus.Foundation.Transition

/-!
# Publication of role grants

Concurrent `grant` calls, split at their port calls: the lookup of an existing
grant, the insert, the commit, the bump of the policy generation, and the
return.  A call that finds an existing row returns it without a bump of its
own, so the row is published only once the call that inserted it has bumped.
The history lists, newest first, the steps that publication is about.
-/

namespace Paigasus.Roles

open Foundation Core

/-- The checked arguments of a grant call: a stored principal and scope and a
known role. -/
structure GrantTarget where
  principal : PrincipalId
  roleKey : String
  scope : GrantScope
deriving DecidableEq

/-- The columns of the unique constraint on (principal, role, scope). -/
def GrantTarget.key (target : GrantTarget) : Uuid × String × String :=
  (target.principal.uuid, target.roleKey, target.scope.canonicalPrn)

def targetOf (grant : RoleGrant) : GrantTarget :=
  ⟨grant.principal, grant.roleKey, grant.scope⟩

def newGrant (target : GrantTarget) (id : Uuid) (now : Timestamp) : RoleGrant :=
  { id
    principal := target.principal
    roleKey := target.roleKey
    scope := target.scope
    linkedPolicyId := grantPolicyId id
    createdAt := now }

inductive Phase where
  | lookup (target : GrantTarget)
  | insert (target : GrantTarget)
  | relookup (target : GrantTarget)
  | commit (grant : RoleGrant)
  | bump (grant : RoleGrant)
  | returning (grant : RoleGrant)

inductive Event where
  | committed (id : Uuid)
  | bumped
  | returned (call : Nat) (grant : RoleGrant)
deriving DecidableEq

inductive Action where
  | start (call : Nat) (target : GrantTarget)
  | lookup (call : Nat)
  | insert (call : Nat) (id : Uuid) (now : Timestamp)
  | relookup (call : Nat)
  | commit (call : Nat)
  | bump (call : Nat)
  | return (call : Nat)
  | fail (call : Nat)

structure World where
  table : List RoleGrant
  /-- Inserted rows of transactions that have not ended. -/
  inFlight : List (Nat × RoleGrant)
  calls : Nat → Option Phase
  history : List Event

namespace World

/-- A table of grants whose generation bump lies before the run. -/
def initial (table : List RoleGrant) : World :=
  { table
    inFlight := []
    calls := fun _ => none
    history := .bumped :: table.map fun grant => .committed grant.id }

def moveTo (world : World) (call : Nat) (phase : Option Phase) : World :=
  { world with calls := Function.update world.calls call phase }

def existingGrant (world : World) (target : GrantTarget) : Option RoleGrant :=
  world.table.find? fun row => (targetOf row).key = target.key

/-- Ends the transaction of a call without its row. -/
def rollback (world : World) (call : Nat) : World :=
  { world with inFlight := world.inFlight.filter (·.1 ≠ call) }

def step (world : World) : Action → Option World
  | .start call target =>
      match world.calls call with
      | none => some (world.moveTo call (some (.lookup target)))
      | some _ => none
  | .lookup call =>
      match world.calls call with
      | some (.lookup target) =>
          match world.existingGrant target with
          | some row => some (world.moveTo call (some (.returning row)))
          | none => some (world.moveTo call (some (.insert target)))
      | _ => none
  | .insert call id now =>
      match world.calls call with
      | some (.insert target) =>
          -- An insert waits for an open transaction on the same unique key.
          if world.inFlight.any fun row =>
              (targetOf row.2).key = target.key || row.2.id = id then
            none
          else if (world.existingGrant target).isSome then
            some (world.moveTo call (some (.relookup target)))
          else if world.table.any fun row => row.id = id then
            some (world.moveTo call none)
          else
            let grant := newGrant target id now
            some ({ world with inFlight := (call, grant) :: world.inFlight }.moveTo
              call (some (.commit grant)))
      | _ => none
  | .relookup call =>
      match world.calls call with
      | some (.relookup target) =>
          match world.existingGrant target with
          | some row => some (world.moveTo call (some (.returning row)))
          | none => some (world.moveTo call none)
      | _ => none
  | .commit call =>
      match world.calls call with
      | some (.commit grant) =>
          some ({ (world.rollback call) with
            table := world.table ++ [grant]
            history := .committed grant.id :: world.history }.moveTo
              call (some (.bump grant)))
      | _ => none
  | .bump call =>
      match world.calls call with
      | some (.bump grant) =>
          some ({ world with history := .bumped :: world.history }.moveTo
            call (some (.returning grant)))
      | _ => none
  | .return call =>
      match world.calls call with
      | some (.returning grant) =>
          some ({ world with
            history := .returned call grant :: world.history }.moveTo call none)
      | _ => none
  | .fail call =>
      match world.calls call with
      | some (.lookup _) | some (.insert _) | some (.relookup _)
      | some (.commit _) => some ((world.rollback call).moveTo call none)
      | _ => none

/-- Some bump completed after the commit of the row. -/
def Published (history : List Event) (id : Uuid) : Prop :=
  ∃ later earlier, history = later ++ earlier ∧ .bumped ∈ later ∧
    .committed id ∈ earlier

/-- Every returned grant was published before its return. -/
def ReturnsPublished (history : List Event) : Prop :=
  ∀ later call grant earlier,
    history = later ++ Event.returned call grant :: earlier →
    Published earlier grant.id

/-- A return is settled when no call is between the commit and the bump of the
row it returns. -/
def SettledReturn (world : World) : Action → Prop
  | .return call =>
      ∀ grant, world.calls call = some (.returning grant) →
        ∀ other, world.calls other ≠ some (.bump grant)
  | _ => True

/-- Each row is published or about to be bumped by the call that inserted it. -/
def Accounted (world : World) (grant : RoleGrant) : Prop :=
  .committed grant.id ∈ world.history ∧
    (Published world.history grant.id ∨
      ∃ other, world.calls other = some (.bump grant))

structure Sound (world : World) : Prop where
  rows : ∀ grant ∈ world.table, world.Accounted grant
  bumping : ∀ call grant, world.calls call = some (.bump grant) →
    .committed grant.id ∈ world.history
  returning : ∀ call grant, world.calls call = some (.returning grant) →
    world.Accounted grant
  returned : ReturnsPublished world.history

theorem Published.cons {history : List Event} {id : Uuid} (event : Event)
    (published : Published history id) : Published (event :: history) id := by
  obtain ⟨later, earlier, split, bumped, committed⟩ := published
  exact ⟨event :: later, earlier, by rw [split]; rfl,
    List.mem_cons_of_mem event bumped, committed⟩

theorem published_of_bump {history : List Event} {id : Uuid}
    (committed : .committed id ∈ history) :
    Published (.bumped :: history) id :=
  ⟨[.bumped], history, rfl, List.mem_singleton.mpr rfl, committed⟩

theorem ReturnsPublished.cons {history : List Event} {event : Event}
    (returns : ReturnsPublished history)
    (settled : ∀ call grant, event = .returned call grant →
      Published history grant.id) :
    ReturnsPublished (event :: history) := by
  intro later call grant earlier split
  cases later with
  | nil =>
      obtain ⟨same, rfl⟩ := List.cons.inj split
      exact settled call grant same
  | cons first rest =>
      obtain ⟨rfl, tailSplit⟩ := List.cons.inj split
      exact returns rest call grant earlier tailSplit

theorem sound_initial (table : List RoleGrant) : (initial table).Sound where
  rows := by
    intro grant member
    have committed : .committed grant.id ∈
        table.map fun row => Event.committed row.id :=
      List.mem_map.mpr ⟨grant, member, rfl⟩
    exact ⟨List.mem_cons_of_mem _ committed, .inl (published_of_bump committed)⟩
  bumping := by simp [initial]
  returning := by simp [initial]
  returned := by
    apply ReturnsPublished.cons
    · intro later call grant earlier split
      have member : Event.returned call grant ∈
          table.map fun row => Event.committed row.id := by
        rw [show (table.map fun row => Event.committed row.id) = _ from split]
        simp
      simp at member
    · simp

variable {world next : World} {action : Action}

theorem mem_of_existingGrant {target : GrantTarget} {row : RoleGrant}
    (found : world.existingGrant target = some row) : row ∈ world.table :=
  List.mem_of_find?_eq_some found

/-- A step that changes neither the rows nor the history: only one call moves,
it neither leaves nor enters its bump, and what it is about to return is a
stored row. -/
structure Quiet (world next : World) : Prop where
  table : next.table = world.table
  history : next.history = world.history
  moved : ∃ call phase, next.calls = Function.update world.calls call phase ∧
    (∀ grant, world.calls call ≠ some (.bump grant)) ∧
    (∀ grant, phase ≠ some (.bump grant)) ∧
    ∀ grant, phase = some (.returning grant) → grant ∈ world.table

/-- What a step can do. -/
theorem step_cases (stepped : world.step action = some next) :
    Quiet world next ∨
      (∃ call grant, action = .commit call ∧
        world.calls call = some (.commit grant) ∧
        next.table = world.table ++ [grant] ∧
        next.history = .committed grant.id :: world.history ∧
        next.calls = Function.update world.calls call (some (.bump grant))) ∨
      (∃ call grant, action = .bump call ∧
        world.calls call = some (.bump grant) ∧
        next.table = world.table ∧ next.history = .bumped :: world.history ∧
        next.calls =
          Function.update world.calls call (some (.returning grant))) ∨
      ∃ call grant, action = .return call ∧
        world.calls call = some (.returning grant) ∧
        next.table = world.table ∧
        next.history = .returned call grant :: world.history ∧
        next.calls = Function.update world.calls call none := by
  cases action with
  | start call target =>
      simp only [step] at stepped
      split at stepped
      · rename_i idle
        cases stepped
        exact .inl ⟨rfl, rfl, call, _, rfl, by simp [idle], by simp, by simp⟩
      · cases stepped
  | lookup call =>
      simp only [step] at stepped
      split at stepped
      · rename_i target phase
        split at stepped
        · rename_i row found
          cases stepped
          exact .inl ⟨rfl, rfl, call, _, rfl, by simp [phase], by simp, by
            simpa using mem_of_existingGrant found⟩
        · cases stepped
          exact .inl ⟨rfl, rfl, call, _, rfl, by simp [phase], by simp, by simp⟩
      · cases stepped
  | insert call id now =>
      simp only [step] at stepped
      split at stepped
      · rename_i target phase
        split at stepped
        · cases stepped
        · split at stepped
          · cases stepped
            exact .inl ⟨rfl, rfl, call, _, rfl, by simp [phase], by simp, by simp⟩
          · split at stepped
            · cases stepped
              exact .inl ⟨rfl, rfl, call, _, rfl, by simp [phase], by simp,
                by simp⟩
            · cases stepped
              exact .inl ⟨rfl, rfl, call, _, rfl, by simp [phase], by simp,
                by simp⟩
      · cases stepped
  | relookup call =>
      simp only [step] at stepped
      split at stepped
      · rename_i target phase
        split at stepped
        · rename_i row found
          cases stepped
          exact .inl ⟨rfl, rfl, call, _, rfl, by simp [phase], by simp, by
            simpa using mem_of_existingGrant found⟩
        · cases stepped
          exact .inl ⟨rfl, rfl, call, _, rfl, by simp [phase], by simp, by simp⟩
      · cases stepped
  | commit call =>
      simp only [step] at stepped
      split at stepped
      · rename_i grant phase
        cases stepped
        exact .inr (.inl ⟨call, grant, rfl, phase, rfl, rfl, rfl⟩)
      · cases stepped
  | bump call =>
      simp only [step] at stepped
      split at stepped
      · rename_i grant phase
        cases stepped
        exact .inr (.inr (.inl ⟨call, grant, rfl, phase, rfl, rfl, rfl⟩))
      · cases stepped
  | «return» call =>
      simp only [step] at stepped
      split at stepped
      · rename_i grant phase
        cases stepped
        exact .inr (.inr (.inr ⟨call, grant, rfl, phase, rfl, rfl, rfl⟩))
      · cases stepped
  | fail call =>
      simp only [step] at stepped
      split at stepped
      all_goals
        first
        | cases stepped
          exact .inl ⟨rfl, rfl, call, _, rfl, by simp [*], by simp, by simp⟩
        | cases stepped

/-- A row stays accounted for while no call leaves its bump. -/
theorem Accounted.move {grant : RoleGrant} {call : Nat} {phase : Option Phase}
    (accounted : world.Accounted grant)
    (moved : next.calls = Function.update world.calls call phase)
    (notBumping : world.calls call ≠ some (.bump grant))
    (extended : ∃ recent, next.history = recent ++ world.history) :
    next.Accounted grant := by
  obtain ⟨recent, grown⟩ := extended
  obtain ⟨committed, published | ⟨other, bumping⟩⟩ := accounted
  · refine ⟨by rw [grown]; exact List.mem_append_right recent committed, .inl ?_⟩
    rw [grown]
    clear grown
    induction recent with
    | nil => exact published
    | cons event rest ih => exact ih.cons event
  · refine ⟨by rw [grown]; exact List.mem_append_right recent committed,
      .inr ⟨other, ?_⟩⟩
    have different : other ≠ call := by
      intro same
      rw [same] at bumping
      exact notBumping bumping
    rw [moved, Function.update_of_ne different]
    exact bumping

/-- A bump publishes every committed row. -/
theorem accounted_of_bump {grant : RoleGrant}
    (bumped : next.history = .bumped :: world.history)
    (committed : .committed grant.id ∈ world.history) :
    next.Accounted grant := by
  rw [Accounted, bumped]
  exact ⟨List.mem_cons_of_mem _ committed, .inl (published_of_bump committed)⟩

theorem Sound.quiet (sound : world.Sound) (quiet : Quiet world next) :
    next.Sound := by
  obtain ⟨call, phase, moved, notBumping, notBump, storedReturn⟩ := quiet.moved
  have kept : ∀ grant, world.Accounted grant → next.Accounted grant := by
    intro grant accounted
    exact accounted.move moved (notBumping grant) ⟨[], quiet.history⟩
  constructor
  · intro grant member
    rw [quiet.table] at member
    exact kept grant (sound.rows grant member)
  · intro other grant bumping
    rw [quiet.history]
    by_cases same : other = call
    · rw [moved, same, Function.update_self] at bumping
      exact absurd bumping (notBump grant)
    · rw [moved, Function.update_of_ne same] at bumping
      exact sound.bumping other grant bumping
  · intro other grant returning
    apply kept
    by_cases same : other = call
    · rw [moved, same, Function.update_self] at returning
      exact sound.rows grant (storedReturn grant returning)
    · rw [moved, Function.update_of_ne same] at returning
      exact sound.returning other grant returning
  · rw [quiet.history]
    exact sound.returned

theorem Sound.commit {call : Nat} {grant : RoleGrant} (sound : world.Sound)
    (phase : world.calls call = some (.commit grant))
    (rows : next.table = world.table ++ [grant])
    (committed : next.history = .committed grant.id :: world.history)
    (moved : next.calls =
      Function.update world.calls call (some (.bump grant))) :
    next.Sound := by
  have kept : ∀ other, world.Accounted other → next.Accounted other := by
    intro other accounted
    exact accounted.move moved (by simp [phase]) ⟨[.committed grant.id], committed⟩
  have own : next.Accounted grant := by
    refine ⟨by simp [committed], .inr ⟨call, ?_⟩⟩
    rw [moved, Function.update_self]
  constructor
  · intro row member
    rw [rows] at member
    rcases List.mem_append.mp member with old | new
    · exact kept row (sound.rows row old)
    · rw [List.mem_singleton.mp new]
      exact own
  · intro other row bumping
    by_cases same : other = call
    · rw [moved, same, Function.update_self] at bumping
      cases bumping
      exact own.1
    · rw [moved, Function.update_of_ne same] at bumping
      rw [committed]
      exact List.mem_cons_of_mem _ (sound.bumping other row bumping)
  · intro other row returning
    by_cases same : other = call
    · rw [moved, same, Function.update_self] at returning
      cases returning
    · rw [moved, Function.update_of_ne same] at returning
      exact kept row (sound.returning other row returning)
  · rw [committed]
    exact sound.returned.cons (by simp)

theorem Sound.bump {call : Nat} {grant : RoleGrant} (sound : world.Sound)
    (phase : world.calls call = some (.bump grant))
    (rows : next.table = world.table)
    (bumped : next.history = .bumped :: world.history)
    (moved : next.calls =
      Function.update world.calls call (some (.returning grant))) :
    next.Sound := by
  constructor
  · intro row member
    rw [rows] at member
    exact accounted_of_bump bumped (sound.rows row member).1
  · intro other row bumping
    by_cases same : other = call
    · rw [moved, same, Function.update_self] at bumping
      cases bumping
    · rw [moved, Function.update_of_ne same] at bumping
      rw [bumped]
      exact List.mem_cons_of_mem _ (sound.bumping other row bumping)
  · intro other row returning
    apply accounted_of_bump bumped
    by_cases same : other = call
    · rw [moved, same, Function.update_self] at returning
      cases returning
      exact sound.bumping call grant phase
    · rw [moved, Function.update_of_ne same] at returning
      exact (sound.returning other row returning).1
  · rw [bumped]
    exact sound.returned.cons (by simp)

theorem Sound.return {call : Nat} {grant : RoleGrant} (sound : world.Sound)
    (settled : ∀ other, world.calls other ≠ some (.bump grant))
    (phase : world.calls call = some (.returning grant))
    (rows : next.table = world.table)
    (returned : next.history = .returned call grant :: world.history)
    (moved : next.calls = Function.update world.calls call none) :
    next.Sound := by
  have kept : ∀ other, world.Accounted other → next.Accounted other := by
    intro other accounted
    exact accounted.move moved (by simp [phase])
      ⟨[.returned call grant], returned⟩
  have published : Published world.history grant.id := by
    rcases (sound.returning call grant phase).2 with published | ⟨other, bumping⟩
    · exact published
    · exact absurd bumping (settled other)
  constructor
  · intro row member
    rw [rows] at member
    exact kept row (sound.rows row member)
  · intro other row bumping
    by_cases same : other = call
    · rw [moved, same, Function.update_self] at bumping
      cases bumping
    · rw [moved, Function.update_of_ne same] at bumping
      rw [returned]
      exact List.mem_cons_of_mem _ (sound.bumping other row bumping)
  · intro other row returning
    by_cases same : other = call
    · rw [moved, same, Function.update_self] at returning
      cases returning
    · rw [moved, Function.update_of_ne same] at returning
      exact kept row (sound.returning other row returning)
  · rw [returned]
    apply sound.returned.cons
    intro returnedCall returnedGrant same
    cases same
    exact published

theorem Sound.step (sound : world.Sound) (settled : world.SettledReturn action)
    (stepped : world.step action = some next) : next.Sound := by
  rcases step_cases stepped with quiet |
    ⟨call, grant, _, phase, rows, committed, moved⟩ |
    ⟨call, grant, _, phase, rows, bumped, moved⟩ |
    ⟨call, grant, isReturn, phase, rows, returned, moved⟩
  · exact sound.quiet quiet
  · exact sound.commit phase rows committed moved
  · exact sound.bump phase rows bumped moved
  · subst isReturn
    exact sound.return (settled grant phase) phase rows returned moved

/-- In a run whose returns are all settled, a bump completed between the commit
of every returned grant and its return. -/
theorem returns_published_of_settled {table : List RoleGrant}
    {actions : List Action} {final : World}
    (settled : EveryStep World.step SettledReturn (initial table) actions)
    (run : runFrom World.step (initial table) actions = some final) :
    ReturnsPublished final.history := by
  have sound : final.Sound :=
    runFrom_invariant_of_everyStep
      (fun _ _ _ sound settled stepped => sound.step settled stepped)
      (sound_initial table) settled run
  exact sound.returned

section UnsettledReturn

def adminTarget : GrantTarget :=
  ⟨PrincipalId.fromUuid 7, "platform_admin", .root⟩

/-- The second call finds the first call's row between its commit and its
bump. -/
def unsettledRun : List Action :=
  [.start 0 adminTarget, .lookup 0, .insert 0 1 0, .commit 0,
    .start 1 adminTarget, .lookup 1, .return 1]

theorem unsettledRun_returns_unpublished :
    ¬ ∀ (table : List RoleGrant) (actions : List Action) (final : World),
      runFrom World.step (initial table) actions = some final →
      ReturnsPublished final.history := by
  intro allPublished
  have histories :
      (runFrom World.step (initial []) unsettledRun).map World.history =
        some [.returned 1 (newGrant adminTarget 1 0), .committed 1, .bumped] := by
    decide
  obtain ⟨final, run, history⟩ := Option.map_eq_some_iff.mp histories
  have returns := allPublished [] unsettledRun final run
  obtain ⟨later, earlier, split, bumped, committed⟩ :=
    returns [] 1 (newGrant adminTarget 1 0) [.committed 1, .bumped] history
  -- The only bump is older than the commit.
  rcases later with _ | ⟨first, _ | ⟨second, rest⟩⟩
  · simp at bumped
  · obtain ⟨rfl, _⟩ := List.cons.inj split
    simp at bumped
  · have none : earlier = [] := by
      have lengths := congrArg List.length split
      simp only [List.length_cons, List.length_nil, List.length_append] at lengths
      exact List.length_eq_zero_iff.mp (by omega)
    rw [none] at committed
    simp at committed

def settledRun : List Action :=
  [.start 0 adminTarget, .lookup 0, .insert 0 1 0, .commit 0, .bump 0,
    .start 1 adminTarget, .lookup 1, .return 1, .return 0]

theorem settledRun_returns_published :
    ∃ final, EveryStep World.step SettledReturn (initial []) settledRun ∧
      runFrom World.step (initial []) settledRun = some final ∧
      (final.history.filter fun event =>
        event ≠ .bumped ∧ event ≠ .committed 1).length = 2 ∧
      ReturnsPublished final.history := by
  have settled :
      EveryStep World.step SettledReturn (initial []) settledRun := by
    iterate 7
      refine ⟨trivial, fun next stepped => ?_⟩
      cases stepped
    -- Both calls are past their bump when they return.
    refine ⟨?_, fun next stepped => ?_⟩
    · intro grant _ other
      simp only [moveTo, rollback, initial, Function.update_apply]
      split_ifs <;> simp
    cases stepped
    refine ⟨?_, fun _ _ => trivial⟩
    intro grant _ other
    simp only [moveTo, rollback, initial, Function.update_apply]
    split_ifs <;> simp
  have returned :
      (runFrom World.step (initial []) settledRun).map (fun world =>
        (world.history.filter fun event =>
          event ≠ .bumped ∧ event ≠ .committed 1).length) = some 2 := by
    decide
  obtain ⟨final, run, two⟩ := Option.map_eq_some_iff.mp returned
  exact ⟨final, settled, run, two, returns_published_of_settled settled run⟩

end UnsettledReturn

end World

end Paigasus.Roles
