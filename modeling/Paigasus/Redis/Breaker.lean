import Paigasus.Foundation.Transition
import Mathlib.Data.List.Count
import Mathlib.Tactic.Linarith

/-!
# The circuit breaker of a Redis connection

Permits outlive the state that issued them.  Every transition moves the epoch,
and a permit is heard only in the epoch it was issued in; so an open breaker
hears nobody, and a half-open one only its probe.
-/

namespace Paigasus.Redis

open Foundation

def failureThreshold : Nat := 3

/-- The largest count of consecutive failures. -/
def maxFailures : Nat := 2 ^ 32 - 1

inductive BreakerState where
  | closed
  | halfOpen
  | opened
deriving DecidableEq

/-- What is kept under the lock; instants are nanoseconds. -/
structure Inner where
  state : BreakerState
  consecutiveFailures : Nat
  changedAt : Nat
  epoch : Nat
deriving DecidableEq

inductive RetryMethod where
  | reconnect
  | reconnectFromInitialConnections
  | other
deriving DecidableEq

structure RedisError where
  isIoError : Bool
  retryMethod : RetryMethod
deriving DecidableEq

def countsAsFailure (error : RedisError) : Bool :=
  error.isIoError || error.retryMethod = .reconnect ||
    error.retryMethod = .reconnectFromInitialConnections

/-- What becomes of a permit: the result of its command, or none at all. -/
inductive Outcome where
  | recorded (result : Except RedisError Unit)
  | dropped
deriving DecidableEq

namespace Inner

def new (now : Nat) : Inner := ⟨.closed, 0, now, 0⟩

def elapsed (inner : Inner) (now : Nat) : Nat := now - inner.changedAt

/-- The single place where the epoch changes. -/
def transition (inner : Inner) (next : BreakerState) (now : Nat) : Inner where
  state := next
  changedAt := now
  epoch := (inner.epoch + 1) % 2 ^ 64
  consecutiveFailures := if next = .closed then 0 else inner.consecutiveFailures

def onSuccess (inner : Inner) (epoch now : Nat) : Inner :=
  if inner.epoch ≠ epoch then
    inner
  else
    let healthy := { inner with consecutiveFailures := 0 }
    if healthy.state ≠ .closed then healthy.transition .closed now else healthy

def onFailure (inner : Inner) (epoch now : Nat) : Inner :=
  if inner.epoch ≠ epoch then
    inner
  else
    match inner.state with
    | .closed =>
        let counted :=
          { inner with
            consecutiveFailures := min (inner.consecutiveFailures + 1)
              maxFailures }
        if failureThreshold ≤ counted.consecutiveFailures then
          counted.transition .opened now
        else
          counted
    | .halfOpen => inner.transition .opened now
    | .opened => inner

def onProbeAbandoned (inner : Inner) (epoch now : Nat) : Inner :=
  if inner.epoch ≠ epoch then
    inner
  else if inner.state = .halfOpen then
    inner.transition .opened now
  else
    inner

/-- The end of a permit of the given epoch. -/
def settle (inner : Inner) (epoch now : Nat) : Outcome → Inner
  | .recorded (.ok _) => inner.onSuccess epoch now
  | .recorded (.error error) =>
      if countsAsFailure error then inner.onFailure epoch now
      else inner.onSuccess epoch now
  | .dropped => inner.onProbeAbandoned epoch now

end Inner

structure Breaker where
  openDuration : Nat
  halfOpenDeadline : Nat

/-- The lock's content after an admission, and the epoch of the permit it
issued.  The clock is read for the elapsed time and again by a transition. -/
def Breaker.admission (breaker : Breaker) (inner : Inner)
    (checked changed : Nat) : Inner × Option Nat :=
  match inner.state with
  | .closed => (inner, some inner.epoch)
  | .opened =>
      if inner.elapsed checked < breaker.openDuration then
        (inner, none)
      else
        let probing := inner.transition .halfOpen changed
        (probing, some probing.epoch)
  | .halfOpen =>
      if inner.elapsed checked < breaker.halfOpenDeadline then
        (inner, none)
      else
        let probing := inner.transition .halfOpen changed
        (probing, some probing.epoch)

/-- The breaker, the permits that are out and the clock. -/
structure Circuit where
  inner : Inner
  permits : List Nat
  clock : Nat
deriving DecidableEq

inductive CircuitAction where
  | admission (checked changed : Nat)
  | settle (index : Nat) (outcome : Outcome) (now : Nat)
deriving DecidableEq

/-- The instant at which an operation is done. -/
def CircuitAction.instant : CircuitAction → Nat
  | .admission _ changed => changed
  | .settle _ _ now => now

namespace Circuit

def new (now : Nat) : Circuit := ⟨.new now, [], now⟩

/-- One operation under the lock; the clock does not run backwards. -/
def step (breaker : Breaker) (circuit : Circuit) :
    CircuitAction → Option Circuit
  | .admission checked changed =>
      if circuit.clock ≤ checked ∧ checked ≤ changed then
        let (inner, permit) := breaker.admission circuit.inner checked changed
        some ⟨inner, circuit.permits ++ permit.toList, changed⟩
      else
        none
  | .settle index outcome now =>
      if circuit.clock ≤ now then
        match circuit.permits[index]? with
        | none => none
        | some epoch =>
            some ⟨circuit.inner.settle epoch now outcome,
              circuit.permits.eraseIdx index, now⟩
      else
        none

end Circuit

namespace Inner

/-- Two contents of the lock that differ at most in the count of failures. -/
structure Similar (before after : Inner) : Prop where
  state : after.state = before.state
  changedAt : after.changedAt = before.changedAt
  epoch : after.epoch = before.epoch

/-- A transition out of a half-open or closed state, other than by a probe. -/
structure Moves (before : Inner) (now : Nat) (after : Inner) : Prop where
  state : after.state ≠ .halfOpen
  changedAt : after.changedAt = now
  epoch : after.epoch = (before.epoch + 1) % 2 ^ 64

variable {inner : Inner}

theorem Similar.refl (inner : Inner) : Similar inner inner := ⟨rfl, rfl, rfl⟩

/-- A permit of another epoch is not heard. -/
theorem settle_stale {epoch : Nat} (stale : inner.epoch ≠ epoch) (now : Nat)
    (outcome : Outcome) : inner.settle epoch now outcome = inner := by
  cases outcome with
  | dropped => exact if_pos stale
  | recorded result =>
      cases result with
      | ok value => exact if_pos stale
      | error error =>
          unfold settle
          dsimp only
          split
          · exact if_pos stale
          · exact if_pos stale

theorem onSuccess_cases (epoch now : Nat) :
    Similar inner (inner.onSuccess epoch now) ∨
      Moves inner now (inner.onSuccess epoch now) := by
  unfold onSuccess
  split
  · exact .inl (.refl inner)
  · dsimp only
    split
    · exact .inr ⟨nofun, rfl, rfl⟩
    · exact .inl ⟨rfl, rfl, rfl⟩

theorem onFailure_cases (epoch now : Nat) :
    Similar inner (inner.onFailure epoch now) ∨
      Moves inner now (inner.onFailure epoch now) := by
  unfold onFailure
  split
  · exact .inl (.refl inner)
  · split
    · dsimp only
      split
      · exact .inr ⟨nofun, rfl, rfl⟩
      · exact .inl ⟨rfl, rfl, rfl⟩
    · exact .inr ⟨nofun, rfl, rfl⟩
    · exact .inl (.refl inner)

theorem onProbeAbandoned_cases (epoch now : Nat) :
    Similar inner (inner.onProbeAbandoned epoch now) ∨
      Moves inner now (inner.onProbeAbandoned epoch now) := by
  unfold onProbeAbandoned
  split
  · exact .inl (.refl inner)
  · split
    · exact .inr ⟨nofun, rfl, rfl⟩
    · exact .inl (.refl inner)

theorem settle_cases (epoch now : Nat) (outcome : Outcome) :
    Similar inner (inner.settle epoch now outcome) ∨
      Moves inner now (inner.settle epoch now outcome) := by
  cases outcome with
  | dropped => exact onProbeAbandoned_cases epoch now
  | recorded result =>
      cases result with
      | ok value => exact onSuccess_cases epoch now
      | error error =>
          unfold settle
          dsimp only
          split
          · exact onFailure_cases epoch now
          · exact onSuccess_cases epoch now

end Inner

namespace Breaker

variable {breaker : Breaker} {inner : Inner} {checked changed : Nat}

/-- The time a breaker holds calls back in its state. -/
def hold (breaker : Breaker) : BreakerState → Nat
  | .closed => 0
  | .halfOpen => breaker.halfOpenDeadline
  | .opened => breaker.openDuration

/-- The three answers to a call: it is held back, it passes a closed breaker,
or it becomes the probe of a new epoch. -/
theorem admission_cases (breaker : Breaker) (inner : Inner)
    (checked changed : Nat) :
    (inner.state ≠ .closed ∧
        breaker.admission inner checked changed = (inner, none)) ∨
      (inner.state = .closed ∧
        breaker.admission inner checked changed = (inner, some inner.epoch)) ∨
      (inner.state ≠ .closed ∧
        breaker.hold inner.state ≤ inner.elapsed checked ∧
        breaker.admission inner checked changed =
          (inner.transition .halfOpen changed,
            some ((inner.epoch + 1) % 2 ^ 64))) := by
  unfold admission
  cases phase : inner.state with
  | closed => exact .inr (.inl ⟨rfl, rfl⟩)
  | opened =>
      dsimp only
      split
      case isTrue => exact .inl ⟨nofun, rfl⟩
      case isFalse passed => exact .inr (.inr ⟨nofun, not_lt.mp passed, rfl⟩)
  | halfOpen =>
      dsimp only
      split
      case isTrue => exact .inl ⟨nofun, rfl⟩
      case isFalse passed => exact .inr (.inr ⟨nofun, not_lt.mp passed, rfl⟩)

/-- A call that a breaker lets pass came after its hold. -/
theorem passes_after_hold
    (passes : (breaker.admission inner checked changed).2.isSome = true)
    (began : inner.changedAt ≤ checked) :
    inner.changedAt + breaker.hold inner.state ≤ checked := by
  rcases breaker.admission_cases inner checked changed with
    ⟨_, answer⟩ | ⟨closed, _⟩ | ⟨_, waited, _⟩
  · rw [answer] at passes
    cases passes
  · rw [closed]
    exact began
  · unfold Inner.elapsed at waited
    omega

end Breaker

namespace Circuit

/-- No permit is from the future, none of an open breaker is heard, and a
half-open one hears at most its probe. -/
structure Sound (circuit : Circuit) : Prop where
  issued : ∀ permit ∈ circuit.permits, permit ≤ circuit.inner.epoch
  deaf : circuit.inner.state = .opened →
    circuit.inner.epoch ∉ circuit.permits
  probe : circuit.inner.state = .halfOpen →
    circuit.permits.count circuit.inner.epoch ≤ 1
  began : circuit.inner.changedAt ≤ circuit.clock

/-- The epoch can still be moved. -/
def Unwrapped (circuit : Circuit) (_ : CircuitAction) : Prop :=
  circuit.inner.epoch + 1 < 2 ^ 64

instance (circuit : Circuit) (action : CircuitAction) :
    Decidable (Unwrapped circuit action) :=
  inferInstanceAs (Decidable (circuit.inner.epoch + 1 < 2 ^ 64))

theorem new_sound (now : Nat) : Sound (new now) where
  issued _ member := by cases member
  deaf := nofun
  probe := nofun
  began := le_refl now

variable {breaker : Breaker} {circuit next : Circuit} {action : CircuitAction}

/-- A new epoch makes every permit that is out an old one. -/
theorem fresh_epoch (sound : Sound circuit)
    (unwrapped : circuit.inner.epoch + 1 < 2 ^ 64) :
    ∀ permit ∈ circuit.permits,
      permit < (circuit.inner.epoch + 1) % 2 ^ 64 := by
  intro permit member
  rw [Nat.mod_eq_of_lt unwrapped]
  exact Nat.lt_succ_of_le (sound.issued permit member)

theorem admission_sound {checked changed : Nat} (sound : Sound circuit)
    (unwrapped : circuit.inner.epoch + 1 < 2 ^ 64)
    (later : circuit.clock ≤ changed) :
    Sound ⟨(breaker.admission circuit.inner checked changed).1,
      circuit.permits ++
        (breaker.admission circuit.inner checked changed).2.toList,
      changed⟩ := by
  rcases breaker.admission_cases circuit.inner checked changed with
    ⟨_, answer⟩ | ⟨closed, answer⟩ | ⟨_, _, answer⟩
  · rw [answer, Option.toList_none, List.append_nil]
    exact ⟨sound.issued, sound.deaf, sound.probe, sound.began.trans later⟩
  · rw [answer, Option.toList_some]
    refine ⟨?_, ?_, ?_, sound.began.trans later⟩
    · intro permit member
      rcases List.mem_append.mp member with old | new
      · exact sound.issued permit old
      · exact (List.mem_singleton.mp new).le
    · intro opened
      exact absurd (closed.symm.trans opened) nofun
    · intro halfOpen
      exact absurd (closed.symm.trans halfOpen) nofun
  · rw [answer, Option.toList_some]
    have fresh := fresh_epoch sound unwrapped
    refine ⟨?_, nofun, ?_, le_refl changed⟩
    · intro permit member
      rcases List.mem_append.mp member with old | new
      · exact (fresh permit old).le
      · exact (List.mem_singleton.mp new).le
    · intro _
      have unused : circuit.permits.count ((circuit.inner.epoch + 1) % 2 ^ 64) =
          0 := by
        apply List.count_eq_zero_of_not_mem
        intro member
        exact lt_irrefl _ (fresh _ member)
      change List.count _ (circuit.permits ++ [_]) ≤ 1
      rw [List.count_append, Inner.transition, unused, List.count_singleton_self]

theorem settle_sound {index epoch now : Nat} {outcome : Outcome}
    (sound : Sound circuit)
    (unwrapped : circuit.inner.epoch + 1 < 2 ^ 64)
    (later : circuit.clock ≤ now) :
    Sound ⟨circuit.inner.settle epoch now outcome,
      circuit.permits.eraseIdx index, now⟩ := by
  have remaining : (circuit.permits.eraseIdx index).Sublist circuit.permits :=
    List.eraseIdx_sublist circuit.permits index
  rcases Inner.settle_cases epoch now outcome with similar | moves
  · refine ⟨?_, ?_, ?_, ?_⟩
    · intro permit member
      rw [similar.epoch]
      exact sound.issued permit (remaining.subset member)
    · intro opened member
      rw [similar.epoch] at member
      exact sound.deaf (similar.state.symm.trans opened)
        (remaining.subset member)
    · intro halfOpen
      rw [similar.epoch]
      exact (remaining.count_le _).trans
        (sound.probe (similar.state.symm.trans halfOpen))
    · rw [similar.changedAt]
      exact sound.began.trans later
  · have fresh := fresh_epoch sound unwrapped
    refine ⟨?_, ?_, ?_, ?_⟩
    · intro permit member
      rw [moves.epoch]
      exact (fresh permit (remaining.subset member)).le
    · intro _ member
      rw [moves.epoch] at member
      exact lt_irrefl _ (fresh _ (remaining.subset member))
    · intro halfOpen
      exact absurd halfOpen moves.state
    · rw [moves.changedAt]

/-- What one operation can do to the circuit. -/
inductive Stepped (breaker : Breaker) (circuit : Circuit) :
    CircuitAction → Circuit → Prop where
  | admission (checked changed : Nat) (later : circuit.clock ≤ checked)
      (order : checked ≤ changed) :
      Stepped breaker circuit (.admission checked changed)
        ⟨(breaker.admission circuit.inner checked changed).1,
          circuit.permits ++
            (breaker.admission circuit.inner checked changed).2.toList,
          changed⟩
  | settle {index epoch : Nat} (outcome : Outcome) (now : Nat)
      (later : circuit.clock ≤ now)
      (held : circuit.permits[index]? = some epoch) :
      Stepped breaker circuit (.settle index outcome now)
        ⟨circuit.inner.settle epoch now outcome,
          circuit.permits.eraseIdx index, now⟩

theorem step_cases (stepped : step breaker circuit action = some next) :
    Stepped breaker circuit action next := by
  cases action with
  | admission checked changed =>
      unfold step at stepped
      dsimp only at stepped
      split at stepped
      case isTrue order =>
        cases stepped
        exact .admission checked changed order.1 order.2
      case isFalse => cases stepped
  | settle index outcome now =>
      unfold step at stepped
      dsimp only at stepped
      split at stepped
      case isTrue later =>
        split at stepped
        case h_1 => cases stepped
        case h_2 epoch held =>
          cases stepped
          exact .settle outcome now later held
      case isFalse => cases stepped

theorem step_sound (sound : Sound circuit) (unwrapped : Unwrapped circuit action)
    (stepped : step breaker circuit action = some next) : Sound next := by
  cases step_cases stepped with
  | admission checked changed later order =>
      exact admission_sound sound unwrapped (later.trans order)
  | settle outcome now later held => exact settle_sound sound unwrapped later

/-- The last change only moves forward, and so does the clock. -/
theorem step_forward (sound : Sound circuit)
    (stepped : step breaker circuit action = some next) :
    circuit.inner.changedAt ≤ next.inner.changedAt ∧
      circuit.clock ≤ next.clock := by
  have began := sound.began
  cases step_cases stepped with
  | admission checked changed later order =>
      refine ⟨?_, later.trans order⟩
      rcases breaker.admission_cases circuit.inner checked changed with
        ⟨_, answer⟩ | ⟨_, answer⟩ | ⟨_, _, answer⟩
      · rw [answer]
      · rw [answer]
      · rw [answer]
        exact began.trans (later.trans order)
  | @settle index epoch outcome now later held =>
      refine ⟨?_, later⟩
      rcases Inner.settle_cases epoch now outcome with similar | moves
      · exact similar.changedAt.ge
      · rw [moves.changedAt]
        exact began.trans later

/-- Since the breaker opened it has stayed open, or its open time is over. -/
def StillOpen (breaker : Breaker) (openedAt : Nat) (circuit : Circuit) : Prop :=
  (circuit.inner.state = .opened ∧ circuit.inner.changedAt = openedAt) ∨
    openedAt + breaker.openDuration ≤ circuit.clock

theorem step_stillOpen {openedAt : Nat} (sound : Sound circuit)
    (still : StillOpen breaker openedAt circuit)
    (stepped : step breaker circuit action = some next) :
    StillOpen breaker openedAt next := by
  rcases still with ⟨opened, since⟩ | beyond
  · cases step_cases stepped with
    | admission checked changed later order =>
        rcases breaker.admission_cases circuit.inner checked changed with
          ⟨_, answer⟩ | ⟨closed, _⟩ | ⟨_, waited, _⟩
        · left
          rw [answer]
          exact ⟨opened, since⟩
        · exact absurd (closed.symm.trans opened) nofun
        · right
          rw [opened, Inner.elapsed, since, Breaker.hold] at waited
          have began := sound.began
          change openedAt + breaker.openDuration ≤ changed
          omega
    | @settle index epoch outcome now later held =>
        left
        have stale : circuit.inner.epoch ≠ epoch := by
          intro current
          apply sound.deaf opened
          rw [current]
          exact List.mem_of_getElem? held
        rw [Inner.settle_stale stale]
        exact ⟨opened, since⟩
  · exact .inr (beyond.trans (step_forward sound stepped).2)

section Run

variable {actions : List CircuitAction}

theorem run_sound (sound : Sound circuit)
    (unwrapped : EveryStep (step breaker) Unwrapped circuit actions)
    (run : runFrom (step breaker) circuit actions = some next) : Sound next :=
  runFrom_invariant_of_everyStep
    (fun _ _ _ holds room stepped => step_sound holds room stepped)
    sound unwrapped run

theorem run_forward (sound : Sound circuit)
    (unwrapped : EveryStep (step breaker) Unwrapped circuit actions)
    (run : runFrom (step breaker) circuit actions = some next) :
    circuit.inner.changedAt ≤ next.inner.changedAt := by
  induction actions generalizing circuit with
  | nil =>
      cases run
      exact le_refl _
  | cons action rest ih =>
      obtain ⟨middle, stepped, remaining⟩ := runFrom_cons.mp run
      obtain ⟨room, later⟩ := unwrapped
      exact (step_forward sound stepped).1.trans
        (ih (step_sound sound room stepped) (later middle stepped) remaining)

theorem run_stillOpen {openedAt : Nat} (sound : Sound circuit)
    (still : StillOpen breaker openedAt circuit)
    (unwrapped : EveryStep (step breaker) Unwrapped circuit actions)
    (run : runFrom (step breaker) circuit actions = some next) :
    StillOpen breaker openedAt next := by
  induction actions generalizing circuit with
  | nil =>
      cases run
      exact still
  | cons action rest ih =>
      obtain ⟨middle, stepped, remaining⟩ := runFrom_cons.mp run
      obtain ⟨room, later⟩ := unwrapped
      exact ih (step_sound sound room stepped)
        (step_stillOpen sound still stepped) (later middle stepped) remaining

end Run

/-- A call at the given instant gets a permit. -/
def Passes (breaker : Breaker) (circuit : Circuit) (checked changed : Nat) :
    Prop :=
  circuit.clock ≤ checked ∧ checked ≤ changed ∧
    (breaker.admission circuit.inner checked changed).2.isSome = true

/-- A breaker that enters its open state notes the instant of this step. -/
theorem opening_stamped
    (unopened : circuit.inner.state ≠ .opened)
    (opened : next.inner.state = .opened)
    (stepped : step breaker circuit action = some next) :
    next.inner.changedAt = action.instant := by
  cases step_cases stepped with
  | admission checked changed later order =>
      rcases breaker.admission_cases circuit.inner checked changed with
        ⟨_, answer⟩ | ⟨_, answer⟩ | ⟨_, _, answer⟩
      · rw [answer] at opened
        exact absurd opened unopened
      · rw [answer] at opened
        exact absurd opened unopened
      · rw [answer] at opened
        cases opened
  | settle outcome now later held =>
      rcases Inner.settle_cases _ now outcome with
        similar | moves
      · exact absurd (similar.state.symm.trans opened) unopened
      · exact moves.changedAt

theorem probe_armed {checked changed : Nat}
    (waiting : circuit.inner.state ≠ .closed)
    (passes : Passes breaker circuit checked changed)
    (stepped : step breaker circuit (.admission checked changed) =
      some next) :
    next.inner.changedAt = changed := by
  cases step_cases stepped with
  | admission _ _ later order =>
      rcases breaker.admission_cases circuit.inner checked changed with
        ⟨_, answer⟩ | ⟨closed, _⟩ | ⟨_, _, answer⟩
      · have permit := passes.2.2
        rw [answer] at permit
        cases permit
      · exact absurd closed waiting
      · rw [answer]
        rfl

/-- In every run whose epochs do not wrap: no call passes before the open time
is over that begins with the step into the open state, whatever happens in
between; a half-open breaker has at most one permit out that it hears, and the
next call that passes it comes at least the deadline after its probe; and a
permit of an older epoch changes nothing, whatever its outcome. -/
theorem breaker_exclusion (breaker : Breaker) (start : Nat)
    (before after : List CircuitAction) (earlier circuit : Circuit)
    (reached : runFrom (step breaker) (new start) before = some earlier)
    (run : runFrom (step breaker) earlier after = some circuit)
    (unwrapped : EveryStep (step breaker) Unwrapped (new start) before)
    (stillUnwrapped : EveryStep (step breaker) Unwrapped earlier after) :
    (∀ prior unopened entering checked changed, before = prior ++ [entering] →
        runFrom (step breaker) (new start) prior = some unopened →
        unopened.inner.state ≠ .opened → earlier.inner.state = .opened →
        Passes breaker circuit checked changed →
        entering.instant + breaker.openDuration ≤ checked) ∧
      (circuit.inner.state = .halfOpen →
        circuit.permits.count circuit.inner.epoch ≤ 1) ∧
      (∀ first armed rest checked changed,
        after = .admission first armed :: rest →
        earlier.inner.state ≠ .closed → Passes breaker earlier first armed →
        circuit.inner.state = .halfOpen →
        Passes breaker circuit checked changed →
        armed + breaker.halfOpenDeadline ≤ checked) ∧
      (∀ permit ∈ circuit.permits, permit < circuit.inner.epoch →
        ∀ outcome now, circuit.inner.settle permit now outcome =
          circuit.inner) := by
  have earlierSound := run_sound (new_sound start) unwrapped reached
  have sound := run_sound earlierSound stillUnwrapped run
  have holds {checked changed : Nat}
      (passes : Passes breaker circuit checked changed) :
      circuit.inner.changedAt + breaker.hold circuit.inner.state ≤ checked :=
    Breaker.passes_after_hold passes.2.2 (sound.began.trans passes.1)
  refine ⟨?_, sound.probe, ?_, ?_⟩
  · intro prior unopened entering checked changed isBefore isPrior notOpen opened
      passes
    subst isBefore
    obtain ⟨middle, isMiddle, last⟩ := runFrom_append.mp reached
    obtain ⟨next, stepped, ended⟩ := runFrom_cons.mp last
    cases ended
    cases isPrior.symm.trans isMiddle
    rw [← opening_stamped notOpen opened stepped]
    have still : StillOpen breaker earlier.inner.changedAt circuit :=
      run_stillOpen earlierSound (.inl ⟨opened, rfl⟩) stillUnwrapped run
    rcases still with ⟨stillOpen, since⟩ | beyond
    · have waited := holds passes
      rw [stillOpen, since] at waited
      exact waited
    · exact beyond.trans passes.1
  · intro first armed rest checked changed isFirst waiting probes halfOpen passes
    subst isFirst
    obtain ⟨probing, stepped, remaining⟩ := runFrom_cons.mp run
    obtain ⟨room, later⟩ := stillUnwrapped
    have forward := run_forward (step_sound earlierSound room stepped)
      (later probing stepped) remaining
    rw [probe_armed waiting probes stepped] at forward
    have waited := holds passes
    rw [halfOpen, Breaker.hold] at waited
    omega
  · intro permit _ older outcome now
    exact Inner.settle_stale older.ne' now outcome

/-- A breaker opened by three failures, and the probe after its open time. -/
def sampleBreaker : Breaker := ⟨50, 200⟩

def sampleFailures : List CircuitAction :=
  (List.range 3).flatMap fun instant =>
    [.admission instant instant,
      .settle 0 (.recorded (.error ⟨true, .other⟩)) instant]

theorem breaker_exclusion_sample : ∃ earlier circuit,
    runFrom (step sampleBreaker) (new 0) sampleFailures = some earlier ∧
      runFrom (step sampleBreaker) earlier [.admission 60 60] = some circuit ∧
      earlier.inner.state = .opened ∧ circuit.inner.state = .halfOpen ∧
      (∀ checked changed, Passes sampleBreaker earlier checked changed →
        2 + 50 ≤ checked) ∧
      circuit.permits.count circuit.inner.epoch ≤ 1 := by
  refine ⟨⟨⟨.opened, 3, 2, 1⟩, [], 2⟩, ⟨⟨.halfOpen, 3, 60, 2⟩, [2], 60⟩, ?_, ?_,
    rfl, rfl, ?_, ?_⟩
  · decide
  · decide
  · intro checked changed passes
    exact (breaker_exclusion sampleBreaker 0 sampleFailures []
      ⟨⟨.opened, 3, 2, 1⟩, [], 2⟩ ⟨⟨.opened, 3, 2, 1⟩, [], 2⟩ (by decide) rfl
      (by decide) (by decide)).1 (sampleFailures.take 5)
        ⟨⟨.closed, 2, 0, 0⟩, [0], 2⟩
        (.settle 0 (.recorded (.error ⟨true, .other⟩)) 2) checked changed
        (by decide) (by decide) (by decide) rfl passes
  · exact (breaker_exclusion sampleBreaker 0 sampleFailures [.admission 60 60]
      ⟨⟨.opened, 3, 2, 1⟩, [], 2⟩ ⟨⟨.halfOpen, 3, 60, 2⟩, [2], 60⟩ (by decide)
      (by decide) (by decide) (by decide)).2.1 rfl

end Circuit

end Paigasus.Redis
