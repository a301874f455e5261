import Paigasus.Foundation.Transition
import Mathlib.Logic.Function.Basic

/-!
# Processes over a shared state

Any number of processes run one program, each with its own local state; the
steps of the processes and of the world outside interleave.  A property of
every run is given by an invariant of the shared state and an assertion about
each process that its own steps keep and the steps of the others do not
disturb.
-/

namespace Foundation

/-- The code of a process: the local states it may start in, its next step
under an input that stands for everything it does not decide itself, and the
steps of the world outside. -/
structure Program (Shared Local Input Outside : Type*) where
  starts : Local → Bool
  step : Nat → Shared → Local → Input → Option (Shared × Local)
  outside : Shared → Outside → Option Shared

/-- The shared state, and the local state of each process that was started. -/
structure Configuration (Shared Local : Type*) where
  shared : Shared
  process : Nat → Option Local

inductive Move (Local Input Outside : Type*) where
  | spawn (id : Nat) (initial : Local)
  | run (id : Nat) (input : Input)
  | outside (event : Outside)

variable {Shared Local Input Outside : Type*}

namespace Configuration

def start (shared : Shared) : Configuration Shared Local :=
  ⟨shared, fun _ => none⟩

def set (configuration : Configuration Shared Local) (id : Nat)
    (shared : Shared) (state : Local) : Configuration Shared Local :=
  ⟨shared, Function.update configuration.process id (some state)⟩

@[simp]
theorem set_shared (configuration : Configuration Shared Local) (id : Nat)
    (shared : Shared) (state : Local) :
    (configuration.set id shared state).shared = shared := rfl

@[simp]
theorem set_process_self (configuration : Configuration Shared Local) (id : Nat)
    (shared : Shared) (state : Local) :
    (configuration.set id shared state).process id = some state := by
  simp [set]

theorem set_process_of_ne (configuration : Configuration Shared Local)
    {id other : Nat} (distinct : other ≠ id) (shared : Shared) (state : Local) :
    (configuration.set id shared state).process other =
      configuration.process other := by
  simp [set, distinct]

end Configuration

namespace Program

variable (program : Program Shared Local Input Outside)

/-- One move of the schedule; `none` when it is not possible. -/
def move (configuration : Configuration Shared Local) :
    Move Local Input Outside → Option (Configuration Shared Local)
  | .spawn id initial =>
      match configuration.process id with
      | some _ => none
      | none =>
          if program.starts initial then
            some (configuration.set id configuration.shared initial)
          else
            none
  | .run id input =>
      match configuration.process id with
      | none => none
      | some state =>
          match program.step id configuration.shared state input with
          | none => none
          | some (shared, next) => some (configuration.set id shared next)
  | .outside event =>
      match program.outside configuration.shared event with
      | none => none
      | some shared => some { configuration with shared }

/-- What one move can do. -/
inductive Moved (configuration : Configuration Shared Local) :
    Move Local Input Outside → Configuration Shared Local → Prop where
  | spawn {id : Nat} {initial : Local}
      (unused : configuration.process id = none)
      (starts : program.starts initial = true) :
      Moved configuration (.spawn id initial)
        (configuration.set id configuration.shared initial)
  | run {id : Nat} {state next : Local} {input : Input} {shared : Shared}
      (running : configuration.process id = some state)
      (stepped : program.step id configuration.shared state input =
        some (shared, next)) :
      Moved configuration (.run id input) (configuration.set id shared next)
  | outside {event : Outside} {shared : Shared}
      (changed : program.outside configuration.shared event = some shared) :
      Moved configuration (.outside event) { configuration with shared }

variable {program}

theorem move_cases {configuration next : Configuration Shared Local}
    {action : Move Local Input Outside}
    (moved : program.move configuration action = some next) :
    Moved program configuration action next := by
  cases action with
  | spawn id initial =>
      unfold move at moved
      dsimp only at moved
      split at moved
      case h_1 => cases moved
      case h_2 unused =>
        split at moved
        case isTrue starts =>
          cases moved
          exact .spawn unused starts
        case isFalse => cases moved
  | run id input =>
      unfold move at moved
      dsimp only at moved
      split at moved
      case h_1 => cases moved
      case h_2 state running =>
        split at moved
        case h_1 => cases moved
        case h_2 stepped =>
          cases moved
          exact .run running stepped
  | outside event =>
      unfold move at moved
      dsimp only at moved
      split at moved
      case h_1 => cases moved
      case h_2 changed =>
        cases moved
        exact .outside changed

theorem Moved.move {configuration next : Configuration Shared Local}
    {action : Move Local Input Outside}
    (moved : Moved program configuration action next) :
    program.move configuration action = some next := by
  cases moved with
  | spawn unused starts => simp [Program.move, unused, starts]
  | run running stepped => simp [Program.move, running, stepped]
  | outside changed => simp [Program.move, changed]

/-- The proof outline of a program: the invariant and the assertion of a
process hold after its own step, and the assertion of every other process
survives it. -/
structure Outline (program : Program Shared Local Input Outside)
    (Invariant : Shared → Prop) (Asserts : Nat → Shared → Local → Prop) :
    Prop where
  spawned : ∀ id shared initial, Invariant shared →
    program.starts initial = true → Asserts id shared initial
  own : ∀ id shared state input shared' state', Invariant shared →
    Asserts id shared state →
    program.step id shared state input = some (shared', state') →
    Invariant shared' ∧ Asserts id shared' state'
  others : ∀ id shared state input shared' state' other held,
    Invariant shared → Asserts id shared state →
    program.step id shared state input = some (shared', state') →
    other ≠ id → Asserts other shared held → Asserts other shared' held
  outside : ∀ shared event shared', Invariant shared →
    program.outside shared event = some shared' →
    Invariant shared' ∧
      ∀ id state, Asserts id shared state → Asserts id shared' state

/-- The invariant and the assertions of all processes hold together. -/
structure Holds (Invariant : Shared → Prop)
    (Asserts : Nat → Shared → Local → Prop)
    (configuration : Configuration Shared Local) : Prop where
  shared : Invariant configuration.shared
  process : ∀ id state, configuration.process id = some state →
    Asserts id configuration.shared state

variable {Invariant : Shared → Prop} {Asserts : Nat → Shared → Local → Prop}
  {configuration next : Configuration Shared Local}

theorem Holds.start {shared : Shared} (holds : Invariant shared) :
    Holds Invariant Asserts (Configuration.start shared) where
  shared := holds
  process _ _ running := by cases running

theorem Holds.set {id : Nat} {shared : Shared} {state : Local}
    (invariant : Invariant shared) (own : Asserts id shared state)
    (others : ∀ other held, other ≠ id →
      configuration.process other = some held → Asserts other shared held) :
    Holds Invariant Asserts (configuration.set id shared state) where
  shared := invariant
  process other held running := by
    by_cases same : other = id
    · subst same
      rw [Configuration.set_process_self] at running
      cases running
      exact own
    · rw [Configuration.set_process_of_ne _ same] at running
      exact others other held same running

theorem Outline.move (outline : Outline program Invariant Asserts)
    {action : Move Local Input Outside}
    (holds : Holds Invariant Asserts configuration)
    (moved : program.move configuration action = some next) :
    Holds Invariant Asserts next := by
  cases move_cases moved with
  | spawn unused starts =>
      refine .set holds.shared ?_ ?_
      · exact outline.spawned _ _ _ holds.shared starts
      · intro other held _ running
        exact holds.process other held running
  | run running stepped =>
      have asserted := holds.process _ _ running
      obtain ⟨invariant, own⟩ :=
        outline.own _ _ _ _ _ _ holds.shared asserted stepped
      refine .set invariant own ?_
      intro other held distinct otherRunning
      exact outline.others _ _ _ _ _ _ other held holds.shared asserted stepped
        distinct (holds.process other held otherRunning)
  | outside changed =>
      obtain ⟨invariant, stable⟩ :=
        outline.outside _ _ _ holds.shared changed
      exact ⟨invariant, fun id state running =>
        stable id state (holds.process id state running)⟩

/-- What an outline asserts holds in every reachable configuration. -/
theorem Outline.run (outline : Outline program Invariant Asserts)
    {schedule : List (Move Local Input Outside)}
    (holds : Holds Invariant Asserts configuration)
    (run : runFrom program.move configuration schedule = some next) :
    Holds Invariant Asserts next := by
  induction schedule generalizing configuration with
  | nil =>
      cases run
      exact holds
  | cons action rest ih =>
      obtain ⟨middle, moved, remaining⟩ := runFrom_cons.mp run
      exact ih (outline.move holds moved) remaining

/-- The same program, where a process takes a step only under an input that is
allowed for it. -/
def restrict (program : Program Shared Local Input Outside)
    (allowed : Local → Input → Bool) : Program Shared Local Input Outside :=
  { program with
    step id shared state input :=
      if allowed state input then program.step id shared state input
      else none }

/-- The input of the move is allowed for the process it runs. -/
def Allows (allowed : Local → Input → Bool)
    (configuration : Configuration Shared Local) :
    Move Local Input Outside → Bool
  | .run id input => (configuration.process id).all (allowed · input)
  | _ => true

theorem restrict_step {allowed : Local → Input → Bool} {id : Nat}
    {shared shared' : Shared} {state state' : Local} {input : Input}
    (stepped : (program.restrict allowed).step id shared state input =
      some (shared', state')) :
    allowed state input = true ∧
      program.step id shared state input = some (shared', state') := by
  unfold restrict at stepped
  dsimp only at stepped
  split at stepped
  case isTrue isAllowed => exact ⟨isAllowed, stepped⟩
  case isFalse => cases stepped

/-- An allowed move is a move of the restricted program. -/
theorem move_restrict {allowed : Local → Input → Bool}
    {action : Move Local Input Outside}
    (moved : program.move configuration action = some next)
    (allows : Allows allowed configuration action = true) :
    (program.restrict allowed).move configuration action = some next := by
  cases action with
  | spawn id initial => exact moved
  | outside event => exact moved
  | run id input =>
      cases running : configuration.process id with
      | none =>
          simp only [move, running] at moved
          cases moved
      | some state =>
          have isAllowed : allowed state input = true := by
            simpa [Allows, running] using allows
          simp only [move, running] at moved ⊢
          simp only [restrict, isAllowed, ↓reduceIte]
          exact moved

/-- The process that a move starts. -/
def spawned : Move Local Input Outside → Option Nat
  | .spawn id _ => some id
  | _ => none

/-- A process that no move starts stays unstarted. -/
theorem process_of_not_spawned {id : Nat}
    {schedule : List (Move Local Input Outside)}
    (unspawned : ∀ action ∈ schedule, spawned action ≠ some id)
    (unused : configuration.process id = none)
    (run : runFrom program.move configuration schedule = some next) :
    next.process id = none := by
  induction schedule generalizing configuration with
  | nil =>
      cases run
      exact unused
  | cons action rest ih =>
      obtain ⟨middle, moved, remaining⟩ := runFrom_cons.mp run
      refine ih (fun later member =>
        unspawned later (List.mem_cons_of_mem _ member)) ?_ remaining
      have other := unspawned action List.mem_cons_self
      cases move_cases moved with
      | @spawn started initial =>
          have distinct : id ≠ started := by
            rintro rfl
            exact other rfl
          rw [Configuration.set_process_of_ne _ distinct]
          exact unused
      | @run runner state _ _ _ running =>
          have distinct : id ≠ runner := by
            rintro rfl
            rw [unused] at running
            cases running
          rw [Configuration.set_process_of_ne _ distinct]
          exact unused
      | outside => exact unused

end Program

end Foundation
