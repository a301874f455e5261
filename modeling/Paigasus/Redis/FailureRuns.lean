import Mathlib.Data.List.Induction
import Paigasus.Redis.Breaker

/-!
# What opens a closed breaker

The count of consecutive failures is the length of a run of failures that the
breaker heard since it was last closed, with no success among them.  Only
permits of its own epoch are heard, and a dropped one is no evidence.
-/

namespace Paigasus.Redis

open Foundation

/-- What an outcome tells of the backend. -/
inductive Evidence where
  | success
  | failure
deriving DecidableEq

/-- A dropped permit tells nothing. -/
def Outcome.evidence : Outcome → List Evidence
  | .recorded (.ok _) => [.success]
  | .recorded (.error error) =>
      if countsAsFailure error then [.failure] else [.success]
  | .dropped => []

namespace Circuit

/-- What the breaker hears in one operation: the outcome of a permit of its
own epoch. -/
def heard (circuit : Circuit) : CircuitAction → List Evidence
  | .admission _ _ => []
  | .settle index outcome _ =>
      if circuit.permits[index]? = some circuit.inner.epoch then
        outcome.evidence
      else
        []

/-- All it hears in a run, in order. -/
def hearings (breaker : Breaker) : Circuit → List CircuitAction → List Evidence
  | _, [] => []
  | circuit, action :: rest =>
      circuit.heard action ++
        match step breaker circuit action with
        | none => []
        | some next => hearings breaker next rest

variable {breaker : Breaker} {circuit next : Circuit} {action : CircuitAction}

theorem hearings_append {state middle : Circuit}
    {first second : List CircuitAction}
    (run : runFrom (step breaker) state first = some middle) :
    hearings breaker state (first ++ second) =
      hearings breaker state first ++ hearings breaker middle second := by
  induction first generalizing state with
  | nil =>
      cases run
      rfl
  | cons action rest ih =>
      obtain ⟨next, stepped, remaining⟩ := runFrom_cons.mp run
      simp only [List.cons_append, hearings, stepped, ih remaining,
        List.append_assoc]

theorem hearings_single (breaker : Breaker) (circuit : Circuit)
    (action : CircuitAction) :
    hearings breaker circuit [action] = circuit.heard action := by
  rw [hearings]
  split
  · exact List.append_nil _
  · exact List.append_nil _

/-- The four ways a closed breaker takes a step. -/
inductive ClosedStep (before : Inner) : List Evidence → Inner → Prop where
  | unchanged : ClosedStep before [] before
  | healthy : ClosedStep before [.success]
      { before with consecutiveFailures := 0 }
  | counted (below : before.consecutiveFailures + 1 < failureThreshold) :
      ClosedStep before [.failure]
        { before with
          consecutiveFailures := before.consecutiveFailures + 1 }
  | opened {after : Inner}
      (full : before.consecutiveFailures + 1 = failureThreshold)
      (left : after.state = .opened) : ClosedStep before [.failure] after

theorem settle_closed {inner : Inner} (closed : inner.state = .closed)
    (below : inner.consecutiveFailures < failureThreshold) (now : Nat)
    (outcome : Outcome) :
    ClosedStep inner outcome.evidence
      (inner.settle inner.epoch now outcome) := by
  have success : inner.onSuccess inner.epoch now =
      { inner with consecutiveFailures := 0 } := by
    simp [Inner.onSuccess, closed]
  have failure : ClosedStep inner [.failure]
      (inner.onFailure inner.epoch now) := by
    have small : min (inner.consecutiveFailures + 1) maxFailures =
        inner.consecutiveFailures + 1 := by
      unfold failureThreshold at below
      unfold maxFailures
      omega
    rw [Inner.onFailure, if_neg (not_not.mpr rfl), closed]
    simp only [small]
    split
    case isTrue full =>
      exact .opened (Nat.le_antisymm below full) rfl
    case isFalse room =>
      have counted : ClosedStep inner [.failure]
          { inner with
            consecutiveFailures := inner.consecutiveFailures + 1 } :=
        .counted (not_le.mp room)
      rw [closed] at counted
      exact counted
  cases outcome with
  | dropped =>
      have kept : inner.settle inner.epoch now .dropped = inner := by
        simp [Inner.settle, Inner.onProbeAbandoned, closed]
      rw [kept]
      exact .unchanged
  | recorded result =>
      cases result with
      | ok value =>
          simp only [Inner.settle, Outcome.evidence, success]
          exact .healthy
      | error error =>
          simp only [Inner.settle, Outcome.evidence]
          split
          case isTrue => exact failure
          case isFalse =>
            rw [success]
            exact .healthy

theorem step_closed (closed : circuit.inner.state = .closed)
    (below : circuit.inner.consecutiveFailures < failureThreshold)
    (stepped : step breaker circuit action = some next) :
    ClosedStep circuit.inner (circuit.heard action) next.inner := by
  cases step_cases stepped with
  | admission checked changed later order =>
      rcases breaker.admission_cases circuit.inner checked changed with
        ⟨waiting, _⟩ | ⟨_, answer⟩ | ⟨waiting, _, _⟩
      · exact absurd closed waiting
      · rw [answer]
        exact .unchanged
      · exact absurd closed waiting
  | @settle index epoch outcome now later held =>
      simp only [heard, held, Option.some.injEq]
      by_cases current : epoch = circuit.inner.epoch
      · rw [if_pos current, current]
        exact settle_closed closed below now outcome
      · rw [if_neg current, Inner.settle_stale (Ne.symm current)]
        exact .unchanged

/-- A breaker that closes starts a new epoch without failures. -/
structure Closes (before after : Circuit) : Prop where
  failures : after.inner.consecutiveFailures = 0
  epoch : after.inner.epoch = (before.inner.epoch + 1) % 2 ^ 64
  permits : after.permits ⊆ before.permits

theorem step_closes (waiting : circuit.inner.state ≠ .closed)
    (stepped : step breaker circuit action = some next)
    (closed : next.inner.state = .closed) : Closes circuit next := by
  have success : ∀ epoch now,
      (circuit.inner.onSuccess epoch now).state = .closed →
        (circuit.inner.onSuccess epoch now).consecutiveFailures = 0 ∧
          (circuit.inner.onSuccess epoch now).epoch =
            (circuit.inner.epoch + 1) % 2 ^ 64 := by
    intro epoch now
    unfold Inner.onSuccess
    split
    case isTrue => exact fun isClosed => absurd isClosed waiting
    case isFalse =>
      dsimp only
      rw [if_pos waiting]
      exact fun _ => ⟨rfl, rfl⟩
  have failure : ∀ epoch now,
      (circuit.inner.onFailure epoch now).state ≠ .closed := by
    intro epoch now
    unfold Inner.onFailure
    split
    · exact waiting
    · cases phase : circuit.inner.state with
      | closed => exact absurd phase waiting
      | halfOpen => exact nofun
      | opened =>
          dsimp only
          rw [phase]
          exact nofun
  have abandoned : ∀ epoch now,
      (circuit.inner.onProbeAbandoned epoch now).state ≠ .closed := by
    intro epoch now
    unfold Inner.onProbeAbandoned
    split
    · exact waiting
    · split
      · exact nofun
      · exact waiting
  cases step_cases stepped with
  | admission checked changed later order =>
      rcases breaker.admission_cases circuit.inner checked changed with
        ⟨_, answer⟩ | ⟨isClosed, _⟩ | ⟨_, _, answer⟩
      · rw [answer] at closed
        exact absurd closed waiting
      · exact absurd isClosed waiting
      · rw [answer] at closed
        cases closed
  | @settle index epoch outcome now later held =>
      have remaining := (List.eraseIdx_sublist circuit.permits index).subset
      cases outcome with
      | dropped => exact absurd closed (abandoned epoch now)
      | recorded result =>
          cases result with
          | ok value =>
              obtain ⟨failures, isEpoch⟩ := success epoch now closed
              exact ⟨failures, isEpoch, remaining⟩
          | error error =>
              simp only [Inner.settle] at closed ⊢
              split at closed
              case isTrue => exact absurd closed (failure epoch now)
              case isFalse counts =>
                obtain ⟨failures, isEpoch⟩ := success epoch now closed
                refine ⟨?_, ?_, remaining⟩
                · simp only [counts]
                  exact failures
                · simp only [counts]
                  exact isEpoch

/-- A run up to a closed breaker: the breaker entered its epoch closed, it has
heard a success or nothing yet when the failures it counts begin, and it has
stayed closed since it entered. -/
structure FailureRun (breaker : Breaker) (start : Nat)
    (earlier settled counting : List CircuitAction)
    (entry middle circuit : Circuit) : Prop where
  entered : runFrom (step breaker) (new start) earlier = some entry
  cleared : runFrom (step breaker) entry settled = some middle
  reached : runFrom (step breaker) middle counting = some circuit
  stays : EveryStep (step breaker)
    (fun state _ => state.inner.state = .closed ∧
      state.inner.epoch = circuit.inner.epoch) entry (settled ++ counting)
  fresh : EveryStep (step breaker) Unwrapped (new start) earlier →
    circuit.inner.epoch ∉ entry.permits
  counted : hearings breaker middle counting =
    List.replicate circuit.inner.consecutiveFailures .failure

/-- What is known of a closed breaker after a run. -/
structure ClosedHistory (breaker : Breaker) (start : Nat)
    (actions : List CircuitAction) (circuit : Circuit) : Prop where
  below : circuit.inner.consecutiveFailures < failureThreshold
  history : ∃ earlier settled counting entry middle,
    actions = earlier ++ (settled ++ counting) ∧
      FailureRun breaker start earlier settled counting entry middle circuit

theorem runFrom_snoc {state : Circuit} {actions : List CircuitAction}
    (run : runFrom (step breaker) state actions = some circuit)
    (stepped : step breaker circuit action = some next) :
    runFrom (step breaker) state (actions ++ [action]) = some next :=
  runFrom_append.mpr ⟨circuit, run, runFrom_cons.mpr ⟨next, stepped, rfl⟩⟩

section History

variable {start : Nat} {actions : List CircuitAction}

theorem FailureRun.run {earlier settled counting : List CircuitAction}
    {entry middle : Circuit}
    (history : FailureRun breaker start earlier settled counting entry middle
      circuit) :
    runFrom (step breaker) entry (settled ++ counting) = some circuit :=
  runFrom_append.mpr ⟨middle, history.cleared, history.reached⟩

/-- While the breaker stays closed in one epoch, so does its history. -/
theorem FailureRun.stays_snoc {earlier settled counting : List CircuitAction}
    {entry middle : Circuit}
    (history : FailureRun breaker start earlier settled counting entry middle
      circuit) (closed : circuit.inner.state = .closed)
    (action : CircuitAction) :
    EveryStep (step breaker)
      (fun state _ => state.inner.state = .closed ∧
        state.inner.epoch = circuit.inner.epoch) entry
      (settled ++ counting ++ [action]) := by
  apply (everyStep_append history.run).mpr
  exact ⟨history.stays, ⟨closed, rfl⟩, fun _ _ => trivial⟩

theorem hearings_snoc {middle : Circuit} {counting : List CircuitAction}
    (run : runFrom (step breaker) middle counting = some circuit)
    (action : CircuitAction) :
    hearings breaker middle (counting ++ [action]) =
      hearings breaker middle counting ++ circuit.heard action := by
  rw [hearings_append run, hearings_single]

/-- A step of a closed breaker that leaves it closed. -/
theorem ClosedHistory.stay
    (history : ClosedHistory breaker start actions circuit)
    (closed : circuit.inner.state = .closed)
    (stepped : step breaker circuit action = some next)
    (stillClosed : next.inner.state = .closed) :
    ClosedHistory breaker start (actions ++ [action]) next := by
  obtain ⟨earlier, settled, counting, entry, middle, rfl, run⟩ :=
    history.history
  have stays := run.stays_snoc closed action
  have cameHere := runFrom_snoc run.reached stepped
  have heardAll := hearings_snoc run.reached action
  rw [run.counted] at heardAll
  have answer := step_closed closed history.below stepped
  generalize circuit.heard action = evidence at answer heardAll
  generalize isInner : next.inner = inner at answer
  -- a success starts a new count, anything else goes on with the old one
  cases answer with
  | unchanged =>
      refine ⟨by rw [isInner]; exact history.below, earlier, settled,
        counting ++ [action], entry, middle, by simp, ?_⟩
      refine ⟨run.entered, run.cleared, cameHere, ?_, ?_, ?_⟩
      · rw [isInner, ← List.append_assoc]
        exact stays
      · rw [isInner]
        exact run.fresh
      · rw [heardAll, isInner, List.append_nil]
  | healthy =>
      refine ⟨by rw [isInner]; exact Nat.zero_lt_succ _, earlier,
        settled ++ counting ++ [action], [], entry, next, by simp, ?_⟩
      refine ⟨run.entered, runFrom_snoc run.run stepped, rfl, ?_, ?_, ?_⟩
      · rw [isInner, List.append_nil]
        exact stays
      · rw [isInner]
        exact run.fresh
      · rw [isInner]
        rfl
  | counted room =>
      refine ⟨by rw [isInner]; exact room, earlier, settled,
        counting ++ [action], entry, middle, by simp, ?_⟩
      refine ⟨run.entered, run.cleared, cameHere, ?_, ?_, ?_⟩
      · rw [isInner, ← List.append_assoc]
        exact stays
      · rw [isInner]
        exact run.fresh
      · rw [heardAll, isInner, ← List.replicate_succ']
  | opened full left =>
      rw [isInner, left] at stillClosed
      cases stillClosed

/-- A step that closes the breaker. -/
theorem closedHistory_entry
    (reached : runFrom (step breaker) (new start) actions = some circuit)
    (waiting : circuit.inner.state ≠ .closed)
    (stepped : step breaker circuit action = some next)
    (closed : next.inner.state = .closed) :
    ClosedHistory breaker start (actions ++ [action]) next := by
  have closes := step_closes waiting stepped closed
  refine ⟨by rw [closes.failures]; exact Nat.zero_lt_succ _,
    actions ++ [action], [], [], next, next, by simp, ?_⟩
  refine ⟨runFrom_snoc reached stepped, rfl, rfl, trivial, ?_, ?_⟩
  · intro unwrapped member
    obtain ⟨before, room, _⟩ := (everyStep_append reached).mp unwrapped
    have fresh := fresh_epoch (run_sound (new_sound start) before reached) room
    rw [closes.epoch] at member
    exact lt_irrefl _ (fresh _ (closes.permits member))
  · rw [closes.failures]
    rfl

theorem closedHistory
    (reached : runFrom (step breaker) (new start) actions = some circuit)
    (closed : circuit.inner.state = .closed) :
    ClosedHistory breaker start actions circuit := by
  induction actions using List.reverseRecOn generalizing circuit with
  | nil =>
      cases reached
      refine ⟨Nat.zero_lt_succ _, [], [], [], _, _, rfl, rfl, rfl, rfl, trivial,
        ?_, rfl⟩
      exact fun _ => List.not_mem_nil
  | append_singleton actions action ih =>
      obtain ⟨before, earlier, last⟩ := runFrom_append.mp reached
      obtain ⟨after, stepped, finished⟩ := runFrom_cons.mp last
      cases finished
      by_cases wasClosed : before.inner.state = .closed
      · exact (ih earlier wasClosed).stay wasClosed stepped closed
      · exact closedHistory_entry earlier wasClosed stepped closed

end History

/-- In every run: a closed breaker counts fewer failures than the threshold; a
dropped permit does nothing to it; and when a step takes it out of the closed
state, then in its closed epoch the last things it heard were as many failures
as the threshold, of permits that carry its epoch, and none of these permits
were out when it entered the epoch, as long as epochs had not wrapped. -/
theorem closed_left_on_failures (breaker : Breaker) (start : Nat)
    (actions : List CircuitAction) (circuit : Circuit)
    (reached : runFrom (step breaker) (new start) actions = some circuit)
    (closed : circuit.inner.state = .closed) :
    circuit.inner.consecutiveFailures < failureThreshold ∧
      (∀ epoch now, circuit.inner.settle epoch now .dropped =
        circuit.inner) ∧
      (∀ action next, step breaker circuit action = some next →
        next.inner.state ≠ .closed →
        next.inner.state = .opened ∧
        ∃ earlier settled counting entry middle,
          actions = earlier ++ (settled ++ counting) ∧
          runFrom (step breaker) (new start) earlier = some entry ∧
          runFrom (step breaker) entry settled = some middle ∧
          EveryStep (step breaker)
            (fun state _ => state.inner.state = .closed ∧
              state.inner.epoch = circuit.inner.epoch) entry
            (settled ++ counting ++ [action]) ∧
          (EveryStep (step breaker) Unwrapped (new start) earlier →
            circuit.inner.epoch ∉ entry.permits) ∧
          hearings breaker middle (counting ++ [action]) =
            List.replicate failureThreshold .failure) := by
  have history := closedHistory reached closed
  refine ⟨history.below, ?_, ?_⟩
  · intro epoch now
    simp [Inner.settle, Inner.onProbeAbandoned, closed]
  · intro action next stepped leaves
    obtain ⟨earlier, settled, counting, entry, middle, isActions, run⟩ :=
      history.history
    have heardAll := hearings_snoc run.reached action
    rw [run.counted] at heardAll
    have answer := step_closed closed history.below stepped
    generalize circuit.heard action = evidence at answer heardAll
    generalize isInner : next.inner = inner at answer leaves
    cases answer with
    | unchanged => exact absurd closed leaves
    | healthy => exact absurd closed leaves
    | counted room => exact absurd closed leaves
    | opened full left =>
        refine ⟨left, earlier, settled, counting, entry, middle, isActions,
          run.entered, run.cleared, run.stays_snoc closed action, run.fresh, ?_⟩
        rw [heardAll, ← full, List.replicate_succ']

/-- The third failure opens the breaker; a failure before a success does not
count. -/
theorem closed_left_on_failures_sample :
    ∃ actions circuit action next,
      runFrom (step sampleBreaker) (new 0) actions = some circuit ∧
        step sampleBreaker circuit action = some next ∧
          next.inner.state = .opened := by
  let failed : CircuitAction :=
    .settle 0 (.recorded (.error ⟨true, .other⟩)) 0
  let actions : List CircuitAction :=
    [.admission 0 0, .admission 0 0, .admission 0 0, .admission 0 0,
      .admission 0 0, failed, .settle 0 (.recorded (.ok ())) 0, failed, failed]
  have reached : runFrom (step sampleBreaker) (new 0) actions =
      some ⟨⟨.closed, 2, 0, 0⟩, [0], 0⟩ := by
    decide
  have stepped : step sampleBreaker ⟨⟨.closed, 2, 0, 0⟩, [0], 0⟩ failed =
      some ⟨⟨.opened, 3, 0, 1⟩, [], 0⟩ := by
    decide
  have left := (closed_left_on_failures sampleBreaker 0 actions
    ⟨⟨.closed, 2, 0, 0⟩, [0], 0⟩ reached rfl).2.2 failed _ stepped (by decide)
  exact ⟨actions, _, failed, _, reached, stepped, left.1⟩

end Circuit

end Paigasus.Redis
