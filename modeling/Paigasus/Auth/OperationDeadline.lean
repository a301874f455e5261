import Paigasus.Foundation.EventLog
import Paigasus.Foundation.Processes
import Mathlib.Data.List.Count

/-!
# The end-to-end bound on a store operation

Every operation has a deadline, and the first expiry opens a circuit that
refuses every call until the client is ready again or a cooldown has passed.
That silence is what lets the connection recover.  Timers that were set before
an opening fire during it or after it, and a late call closes the circuit while
they are still pending; so the order of events is kept as a history, and the
circuit is compared with what the history says.
-/

namespace Paigasus.Auth

open Foundation

/-- How many timeouts one operation may take, end to end. -/
def deadlineFactor : Nat := 4

/-- How many timeouts the circuit stays open after an expiry. -/
def cooldownFactor : Nat := 4

inductive TimeoutPhase where
  | circuitOpen
  | deadline
deriving DecidableEq

structure OperationTimeout (Operation : Type) where
  operation : Operation
  deadlineMs : Nat
  phase : TimeoutPhase
deriving DecidableEq

/-- What a bounded operation rejects with: the error of its inner operation, or
the timeout that this closure throws itself. -/
inductive Failure (Operation Error : Type) where
  | inner (error : Error)
  | timeout (error : OperationTimeout Operation)
deriving DecidableEq

/-- What became of a bounded operation. -/
abbrev Settlement (Operation Value Error : Type) :=
  Except (Failure Operation Error) Value

/-- What happened, in order; a call is known by its number.  Instants and
durations are counted in one unit. -/
inductive DeadlineEvent (Operation Value Error : Type) where
  | ready
  | started (call : Nat) (operation : Operation) (time : Nat)
  | finished (call : Nat) (outcome : Except Error Value)
  | expired (call : Nat) (time : Nat)
  | opened (call : Nat) (time : Nat)
  | logged (name : String) (operation : Operation) (deadlineMs : Nat)
  | settled (call : Nat) (result : Settlement Operation Value Error)

/-- The decorator's closure: `openedAt` is its only variable, and the clock and
the history are what an observer sees. -/
structure StoreCircuit (Operation Value Error : Type) where
  clock : Nat
  openedAt : Option Nat
  history : List (DeadlineEvent Operation Value Error)

/-- Where a call stands.  The race is decided by whichever settles first, and
the rest of the call runs at a later step. -/
inductive BoundedCall (Operation Value Error : Type) where
  | called (operation : Operation)
  | racing (operation : Operation) (due : Nat)
  | decided (operation : Operation)
      (result : Settlement Operation Value Error)
  | settled (result : Settlement Operation Value Error)

inductive CallInput (Value Error : Type) where
  /-- The body of the call; the inner operation may throw at once. -/
  | enter (thrown : Option Error)
  | finish (outcome : Except Error Value)
  | fire
  | resume

inductive ClientEvent where
  | ready
  | tick (now : Nat)

/-- What distinguishes one decorator from the other: its timeout, and the name
of the event that it logs. -/
structure OperationDeadline where
  timeoutMs : Nat
  event : String

section Closure

variable {Operation Value Error : Type}

def StoreCircuit.note (circuit : StoreCircuit Operation Value Error)
    (event : DeadlineEvent Operation Value Error) :
    StoreCircuit Operation Value Error :=
  { circuit with history := circuit.history ++ [event] }

def Failure.isDeadline : Failure Operation Error → Bool
  | .timeout error => error.phase = .deadline
  | .inner _ => false

/-- The outcome of the inner operation, as the call passes it on. -/
def ownOutcome : Except Error Value → Settlement Operation Value Error
  | .ok value => .ok value
  | .error error => .error (.inner error)

namespace OperationDeadline

variable (bound : OperationDeadline)

def deadlineMs : Nat := bound.timeoutMs * deadlineFactor

def cooldownMs : Nat := bound.timeoutMs * cooldownFactor

def settle (id : Nat) (circuit : StoreCircuit Operation Value Error)
    (result : Settlement Operation Value Error) :
    StoreCircuit Operation Value Error × BoundedCall Operation Value Error :=
  (circuit.note (.settled id result), .settled result)

/-- Starts the inner operation and then the timer.  An operation that throws at
once leaves the closure before the timer is set. -/
def launch (id : Nat) (circuit : StoreCircuit Operation Value Error)
    (operation : Operation) : Option Error →
    StoreCircuit Operation Value Error × BoundedCall Operation Value Error
  | none =>
      (circuit.note (.started id operation circuit.clock),
        .racing operation (circuit.clock + bound.deadlineMs))
  | some error =>
      settle id
        ((circuit.note (.started id operation circuit.clock)).note
          (.finished id (.error error)))
        (.error (.inner error))

/-- The body of a call up to the race. -/
def enter (id : Nat) (circuit : StoreCircuit Operation Value Error)
    (operation : Operation) (thrown : Option Error) :
    StoreCircuit Operation Value Error × BoundedCall Operation Value Error :=
  match circuit.openedAt with
  | some since =>
      if circuit.clock - since < bound.cooldownMs then
        settle id circuit
          (.error (.timeout ⟨operation, bound.deadlineMs, .circuitOpen⟩))
      else
        bound.launch id { circuit with openedAt := none } operation thrown
  | none => bound.launch id circuit operation thrown

/-- Only the first of the operations that expire together opens the circuit. -/
def openCircuit (id : Nat) (circuit : StoreCircuit Operation Value Error)
    (operation : Operation) : StoreCircuit Operation Value Error :=
  match circuit.openedAt with
  | none =>
      ({ circuit with openedAt := some circuit.clock }.note
        (.opened id circuit.clock)).note
        (.logged bound.event operation bound.deadlineMs)
  | some _ => circuit

/-- The rest of a call after its race. -/
def resume (id : Nat) (circuit : StoreCircuit Operation Value Error)
    (operation : Operation) (result : Settlement Operation Value Error) :
    StoreCircuit Operation Value Error × BoundedCall Operation Value Error :=
  match result with
  | .ok value => settle id circuit (.ok value)
  | .error failure =>
      settle id
        (if failure.isDeadline then bound.openCircuit id circuit operation
          else circuit)
        (.error failure)

def step (id : Nat) (circuit : StoreCircuit Operation Value Error) :
    BoundedCall Operation Value Error → CallInput Value Error →
    Option (StoreCircuit Operation Value Error ×
      BoundedCall Operation Value Error)
  | .called operation, .enter thrown =>
      some (bound.enter id circuit operation thrown)
  | .racing operation _, .finish outcome =>
      some (circuit.note (.finished id outcome),
        .decided operation (ownOutcome outcome))
  | .racing operation due, .fire =>
      if due ≤ circuit.clock then
        some (circuit.note (.expired id circuit.clock),
          .decided operation
            (.error (.timeout ⟨operation, bound.deadlineMs, .deadline⟩)))
      else
        none
  | .decided operation result, .resume =>
      some (bound.resume id circuit operation result)
  -- The race is decided, so what settles later changes nothing.
  | .decided operation result, .finish _ =>
      some (circuit, .decided operation result)
  | .decided operation result, .fire =>
      some (circuit, .decided operation result)
  | .settled result, .finish _ => some (circuit, .settled result)
  | _, _ => none

/-- The client's events and the clock, which never goes back. -/
def outside (circuit : StoreCircuit Operation Value Error) :
    ClientEvent → Option (StoreCircuit Operation Value Error)
  | .ready => some ({ circuit with openedAt := none }.note .ready)
  | .tick now =>
      if circuit.clock ≤ now then some { circuit with clock := now } else none

def isCalled : BoundedCall Operation Value Error → Bool
  | .called _ => true
  | _ => false

/-- Any number of calls of one decorated store. -/
def bounded : Program (StoreCircuit Operation Value Error)
    (BoundedCall Operation Value Error) (CallInput Value Error) ClientEvent where
  starts := isCalled
  step := bound.step
  outside := outside

end OperationDeadline

end Closure

/-- The operations of a session store that are bounded; `close` is not, since an
open circuit must never refuse it. -/
inductive SessionStoreOperation where
  | get
  | set
  | delete
  | tryAcquireLock
  | releaseLock
  | putTransaction
  | takeTransaction
deriving DecidableEq

/-- The decorator of the session store. -/
def withOperationDeadline (timeoutMs : Nat) : OperationDeadline :=
  ⟨timeoutMs, "store.operation_timeout"⟩

end Paigasus.Auth

namespace Paigasus.ConsoleCore

/-- The operations of a descriptor cache that are bounded. -/
inductive DescriptorCacheOperation where
  | get
  | set
  | delete
  | tryAcquireLock
  | releaseLock
deriving DecidableEq

/-- The decorator of the descriptor cache, whose clock is the wall clock. -/
def withOperationDeadline (timeoutMs : Nat) : Auth.OperationDeadline :=
  ⟨timeoutMs, "discovery.redis_operation_timeout"⟩

end Paigasus.ConsoleCore

namespace Paigasus.Auth

open Foundation

section Silence

variable {Operation Value Error : Type}

/-- Each opening among these events was followed by a `ready`, or is a cooldown
old by now. -/
def Quiet (cooldownMs : Nat)
    (history : List (DeadlineEvent Operation Value Error)) (now : Nat) : Prop :=
  ∀ earlier call time later,
    history = earlier ++ DeadlineEvent.opened call time :: later →
      .ready ∈ later ∨ time + cooldownMs ≤ now

/-- The call that an event is about. -/
def DeadlineEvent.call? : DeadlineEvent Operation Value Error → Option Nat
  | .started call _ _ | .finished call _ | .expired call _ | .opened call _
  | .settled call _ => some call
  | .ready | .logged _ _ _ => none

def DeadlineEvent.isOpened : DeadlineEvent Operation Value Error → Bool
  | .opened _ _ => true
  | _ => false

def DeadlineEvent.isLogged : DeadlineEvent Operation Value Error → Bool
  | .logged _ _ _ => true
  | _ => false

/-- Events that neither open nor close the circuit. -/
def DeadlineEvent.isPlain : DeadlineEvent Operation Value Error → Bool
  | .started _ _ _ | .finished _ _ | .expired _ _ | .settled _ _ => true
  | .ready | .opened _ _ | .logged _ _ _ => false

namespace OperationDeadline

variable (bound : OperationDeadline)

/-- The answer of a call that the open circuit refuses. -/
def refusal (operation : Operation) : Settlement Operation Value Error :=
  .error (.timeout ⟨operation, bound.deadlineMs, .circuitOpen⟩)

/-- The answer of a call whose timer won the race. -/
def expiry (operation : Operation) : Settlement Operation Value Error :=
  .error (.timeout ⟨operation, bound.deadlineMs, .deadline⟩)

/-- A result that a race decided: the inner operation's own outcome or, once the
timer has fired, the deadline error. -/
def Earned (history : List (DeadlineEvent Operation Value Error)) (call : Nat)
    (result : Settlement Operation Value Error) : Prop :=
  (∃ outcome, .finished call outcome ∈ history ∧ result = ownOutcome outcome) ∨
    ∃ operation time, .expired call time ∈ history ∧
      result = bound.expiry operation

/-- What each event needs to have happened before it. -/
def Rule (before : List (DeadlineEvent Operation Value Error)) :
    DeadlineEvent Operation Value Error → Prop
  | .ready => True
  | .started call _ time =>
      Quiet bound.cooldownMs before time ∧
        ∀ event ∈ before, event.call? ≠ some call
  | .finished call _ => ∃ operation time, .started call operation time ∈ before
  | .expired call time =>
      ∃ operation began, .started call operation began ∈ before ∧
        began + bound.deadlineMs ≤ time
  | .opened call time =>
      Quiet bound.cooldownMs before time ∧
        ∃ expired, .expired call expired ∈ before ∧ expired ≤ time
  | .logged name operation deadlineMs =>
      name = bound.event ∧ deadlineMs = bound.deadlineMs ∧
        ∃ earlier call time began,
          before = earlier ++ [DeadlineEvent.opened call time] ∧
          .started call operation began ∈ earlier
  | .settled call result =>
      (∀ other, .settled call other ∉ before) ∧
        (((∃ operation, result = bound.refusal operation) ∧
            ∀ operation time, .started call operation time ∉ before) ∨
          bound.Earned before call result)

/-- The circuit is what its history says. -/
structure Sound (circuit : StoreCircuit Operation Value Error) : Prop where
  justified : Justified bound.Rule circuit.history
  held : ∀ earlier call time later,
    circuit.history = earlier ++ DeadlineEvent.opened call time :: later →
      .ready ∈ later ∨ circuit.openedAt = some time ∨
        time + bound.cooldownMs ≤ circuit.clock
  since : ∀ time, circuit.openedAt = some time →
    time ≤ circuit.clock ∧ ∃ earlier call later,
      circuit.history = earlier ++ DeadlineEvent.opened call time :: later ∧
        .ready ∉ later
  counted : circuit.history.countP DeadlineEvent.isLogged =
    circuit.history.countP DeadlineEvent.isOpened
  past : ∀ call time, .expired call time ∈ circuit.history →
    time ≤ circuit.clock
  refused : ∀ call operation began refusedOperation,
    .started call operation began ∈ circuit.history →
      .settled call (bound.refusal refusedOperation) ∉ circuit.history

/-- What the history tells of a call where it stands. -/
def Position (history : List (DeadlineEvent Operation Value Error)) (id : Nat) :
    BoundedCall Operation Value Error → Prop
  | .called _ => ∀ event ∈ history, event.call? ≠ some id
  | .racing operation due =>
      (∃ began, .started id operation began ∈ history ∧
          began + bound.deadlineMs = due) ∧
        ∀ result, .settled id result ∉ history
  | .decided operation result =>
      (∃ began, .started id operation began ∈ history) ∧
        bound.Earned history id result ∧
        ∀ result, .settled id result ∉ history
  | .settled result => .settled id result ∈ history

end OperationDeadline

section Histories

variable {bound : OperationDeadline}
  {circuit : StoreCircuit Operation Value Error}
  {history later : List (DeadlineEvent Operation Value Error)}
  {event : DeadlineEvent Operation Value Error} {id : Nat}
  {result : Settlement Operation Value Error}

theorem OperationDeadline.Earned.mono
    (earned : bound.Earned history id result) (grown : history ⊆ later) :
    bound.Earned later id result := by
  rcases earned with ⟨outcome, finished, same⟩ |
    ⟨operation, time, expired, same⟩
  · exact .inl ⟨outcome, grown finished, same⟩
  · exact .inr ⟨operation, time, grown expired, same⟩

theorem OperationDeadline.Earned.not_refusal
    (earned : bound.Earned history id result) (operation : Operation) :
    result ≠ bound.refusal operation := by
  intro same
  rcases earned with ⟨outcome, _, own⟩ | ⟨_, _, _, late⟩
  · rw [own] at same
    cases outcome with
    | ok value => cases same
    | error error => cases same
  · rw [late] at same
    cases same

/-- The events that a step of one call adds leave the other calls where they
stand. -/
theorem OperationDeadline.Position.frame
    {call : BoundedCall Operation Value Error}
    (position : bound.Position history id call)
    {added : List (DeadlineEvent Operation Value Error)}
    (others : ∀ event ∈ added, event.call? ≠ some id) :
    bound.Position (history ++ added) id call := by
  have grown : history ⊆ history ++ added := List.subset_append_left _ _
  have unsettled (pending : ∀ result, .settled id result ∉ history)
      (result : Settlement Operation Value Error) :
      DeadlineEvent.settled id result ∉ history ++ added := by
    intro member
    rcases List.mem_append.mp member with old | new
    · exact pending result old
    · exact others _ new rfl
  cases call with
  | called operation =>
      intro event member
      rcases List.mem_append.mp member with old | new
      · exact position event old
      · exact others event new
  | racing operation due =>
      obtain ⟨⟨began, started, isDue⟩, pending⟩ := position
      exact ⟨⟨began, grown started, isDue⟩, unsettled pending⟩
  | decided operation result =>
      obtain ⟨⟨began, started⟩, earned, pending⟩ := position
      exact ⟨⟨began, grown started⟩, earned.mono grown, unsettled pending⟩
  | settled result => exact grown position

namespace OperationDeadline.Sound

/-- While the circuit is closed, every opening is answered by now. -/
theorem quiet (sound : bound.Sound circuit)
    (closed : circuit.openedAt = none) :
    Quiet bound.cooldownMs circuit.history circuit.clock := by
  intro earlier call time later split
  rcases sound.held earlier call time later split with ready | held | old
  · exact .inl ready
  · rw [closed] at held
    cases held
  · exact .inr old

theorem initial (clock : Nat) :
    bound.Sound (⟨clock, none, []⟩ : StoreCircuit Operation Value Error) where
  justified := justified_nil
  held earlier call time later split := by
    cases earlier with
    | nil => cases split
    | cons head tail => cases split
  since time held := by cases held
  counted := rfl
  past call time member := by cases member
  refused call operation began refusedOperation member := by cases member

theorem tick (sound : bound.Sound circuit) {now : Nat}
    (passed : circuit.clock ≤ now) :
    bound.Sound { circuit with clock := now } where
  justified := sound.justified
  held earlier call time later split := by
    rcases sound.held earlier call time later split with ready | held | old
    · exact .inl ready
    · exact .inr (.inl held)
    · exact .inr (.inr (Nat.le_trans old passed))
  since time held := by
    obtain ⟨before, recorded⟩ := sound.since time held
    exact ⟨Nat.le_trans before passed, recorded⟩
  counted := sound.counted
  past call time member := Nat.le_trans (sound.past call time member) passed
  refused := sound.refused

theorem ready (sound : bound.Sound circuit) :
    bound.Sound ({ circuit with openedAt := none }.note .ready) where
  justified := sound.justified.append trivial
  held earlier call time later split := by
    rcases split_last split with ⟨rest, _, rfl⟩ | ⟨_, clash, _⟩
    · exact .inl (by simp)
    · cases clash
  since time held := by cases held
  counted := by
    simpa [StoreCircuit.note, DeadlineEvent.isLogged, DeadlineEvent.isOpened]
      using sound.counted
  past call time member := by
    apply sound.past call time
    simpa [StoreCircuit.note] using member
  refused call operation began refusedOperation started settled := by
    apply sound.refused call operation began refusedOperation
    · simpa [StoreCircuit.note] using started
    · simpa [StoreCircuit.note] using settled

/-- A circuit whose cooldown has passed may be closed by a call. -/
theorem closed (sound : bound.Sound circuit)
    (passed : ∀ time, circuit.openedAt = some time →
      bound.cooldownMs ≤ circuit.clock - time) :
    bound.Sound { circuit with openedAt := none } where
  justified := sound.justified
  held earlier call time later split := by
    rcases sound.held earlier call time later split with ready | held | old
    · exact .inl ready
    · have before := (sound.since time held).1
      have cool := passed time held
      refine .inr (.inr ?_)
      dsimp only
      omega
    · exact .inr (.inr old)
  since time held := by cases held
  counted := sound.counted
  past := sound.past
  refused := sound.refused

/-- An event that leaves the circuit as it is keeps the account. -/
theorem note (sound : bound.Sound circuit) (plain : event.isPlain = true)
    (rule : bound.Rule circuit.history event)
    (present : ∀ call time, event = .expired call time →
      time ≤ circuit.clock) :
    bound.Sound (circuit.note event) where
  justified := sound.justified.append rule
  held earlier call time later split := by
    rcases split_last split with ⟨rest, before, rfl⟩ | ⟨_, rfl, _⟩
    · rcases sound.held earlier call time rest before with ready | other
      · exact .inl (List.mem_append_left _ ready)
      · exact .inr other
    · cases plain
  since time held := by
    obtain ⟨before, earlier, call, later, split, unready⟩ :=
      sound.since time held
    refine ⟨before, earlier, call, later ++ [event], ?_, ?_⟩
    · simp [StoreCircuit.note, split]
    · intro member
      rcases List.mem_append.mp member with old | new
      · exact unready old
      · rw [← List.mem_singleton.mp new] at plain
        cases plain
  counted := by
    have neither : event.isLogged = false ∧ event.isOpened = false := by
      cases event <;> simp [DeadlineEvent.isPlain, DeadlineEvent.isLogged,
        DeadlineEvent.isOpened] at plain ⊢
    simpa [StoreCircuit.note, List.countP_append, neither] using sound.counted
  past call time member := by
    rcases List.mem_append.mp member with old | new
    · exact sound.past call time old
    · exact present call time (List.mem_singleton.mp new).symm
  refused call operation began refusedOperation started settled := by
    rcases List.mem_append.mp started with oldStart | newStart
    · rcases List.mem_append.mp settled with oldSettled | newSettled
      · exact sound.refused _ _ _ _ oldStart oldSettled
      · -- The event that settles the call says how its result was earned.
        rw [← List.mem_singleton.mp newSettled] at rule
        rcases rule.2 with ⟨_, unstarted⟩ | earned
        · exact unstarted _ _ oldStart
        · exact earned.not_refusal _ rfl
    · rw [← List.mem_singleton.mp newStart] at rule
      rcases List.mem_append.mp settled with oldSettled | newSettled
      · exact rule.2 _ oldSettled rfl
      · rw [← List.mem_singleton.mp newStart] at newSettled
        cases List.mem_singleton.mp newSettled

/-- The expiry of a call opens the circuit at most once, and logs once. -/
theorem openCircuit (sound : bound.Sound circuit) {operation : Operation}
    {began time : Nat}
    (started : .started id operation began ∈ circuit.history)
    (expired : .expired id time ∈ circuit.history) :
    bound.Sound (bound.openCircuit id circuit operation) := by
  unfold OperationDeadline.openCircuit
  split
  case h_2 => exact sound
  case h_1 closed =>
    have quiet := sound.quiet closed
    have opened : bound.Rule circuit.history (.opened id circuit.clock) :=
      ⟨quiet, time, expired, sound.past id time expired⟩
    have logged : bound.Rule
        (circuit.history ++ [DeadlineEvent.opened id circuit.clock])
        (.logged bound.event operation bound.deadlineMs) :=
      ⟨rfl, rfl, circuit.history, id, circuit.clock, began, rfl, started⟩
    refine ⟨(sound.justified.append opened).append logged, ?_, ?_, ?_, ?_, ?_⟩
    · intro earlier call since later split
      rcases split_last split with ⟨rest, before, rfl⟩ | ⟨_, clash, _⟩
      · rcases split_last before with ⟨older, oldest, rfl⟩ | ⟨_, same, rfl⟩
        · rcases quiet earlier call since older oldest with ready | old
          · exact .inl (by simp [ready])
          · exact .inr (.inr old)
        · cases same
          exact .inr (.inl rfl)
      · cases clash
    · intro since held
      cases held
      refine ⟨Nat.le_refl _, circuit.history, id,
        [.logged bound.event operation bound.deadlineMs], ?_, ?_⟩
      · simp [StoreCircuit.note]
      · simp
    · simp [StoreCircuit.note, List.countP_append, List.countP_cons,
        DeadlineEvent.isLogged, DeadlineEvent.isOpened, sound.counted]
    · intro call since member
      apply sound.past call since
      simpa [StoreCircuit.note] using member
    · intro call other start refusedOperation isStarted settled
      apply sound.refused call other start refusedOperation
      · simpa [StoreCircuit.note] using isStarted
      · simpa [StoreCircuit.note] using settled

end OperationDeadline.Sound

/-- Only events of this call were added. -/
def Adds (id : Nat) (before after : StoreCircuit Operation Value Error) :
    Prop :=
  ∃ added, after.history = before.history ++ added ∧
    ∀ event ∈ added, ∀ other, other ≠ id → event.call? ≠ some other

theorem Adds.refl (id : Nat) (circuit : StoreCircuit Operation Value Error) :
    Adds id circuit circuit :=
  ⟨[], by simp, by simp⟩

theorem Adds.note {before : StoreCircuit Operation Value Error}
    (adds : Adds id before circuit)
    (about : event.call? = some id ∨ event.call? = none) :
    Adds id before (circuit.note event) := by
  obtain ⟨added, grown, own⟩ := adds
  refine ⟨added ++ [event], ?_, ?_⟩
  · simp [StoreCircuit.note, grown]
  · intro next member other distinct
    rcases List.mem_append.mp member with old | new
    · exact own next old other distinct
    · rw [List.mem_singleton.mp new]
      rcases about with this | nobody
      · rw [this]
        intro same
        exact distinct (Option.some.inj same).symm
      · rw [nobody]
        exact nofun

theorem Adds.of_history {before after : StoreCircuit Operation Value Error}
    (adds : Adds id before circuit) (same : after.history = circuit.history) :
    Adds id before after := by
  obtain ⟨added, grown, own⟩ := adds
  exact ⟨added, same.trans grown, own⟩

namespace OperationDeadline

/-- What a step of one call achieves. -/
structure Advances (bound : OperationDeadline) (id : Nat)
    (before : StoreCircuit Operation Value Error)
    (reached : StoreCircuit Operation Value Error ×
      BoundedCall Operation Value Error) : Prop where
  sound : bound.Sound reached.1
  position : bound.Position reached.1.history id reached.2
  adds : Adds id before reached.1

theorem settle_advances {before : StoreCircuit Operation Value Error}
    (sound : bound.Sound circuit) (adds : Adds id before circuit)
    (rule : bound.Rule circuit.history (.settled id result)) :
    bound.Advances id before (settle id circuit result) where
  sound := sound.note rfl rule (by intro call time clash; cases clash)
  position := by simp [settle, Position, StoreCircuit.note]
  adds := adds.note (.inl rfl)

theorem launch_advances {before : StoreCircuit Operation Value Error}
    {operation : Operation} {thrown : Option Error}
    (sound : bound.Sound circuit) (adds : Adds id before circuit)
    (closed : circuit.openedAt = none)
    (fresh : ∀ event ∈ circuit.history, event.call? ≠ some id) :
    bound.Advances id before (bound.launch id circuit operation thrown) := by
  have unsettled (result : Settlement Operation Value Error) :
      .settled id result ∉ circuit.history :=
    fun member => fresh _ member rfl
  have started : bound.Sound
      (circuit.note (.started id operation circuit.clock)) :=
    sound.note rfl ⟨sound.quiet closed, fresh⟩
      (by intro call time clash; cases clash)
  cases thrown with
  | none =>
      refine ⟨started, ⟨⟨circuit.clock, ?_, rfl⟩, ?_⟩, adds.note (.inl rfl)⟩
      · simp [launch, StoreCircuit.note]
      · intro result member
        apply unsettled result
        simpa [launch, StoreCircuit.note] using member
  | some error =>
      have finished : bound.Sound
          ((circuit.note (.started id operation circuit.clock)).note
            (.finished id (.error error))) := by
        apply started.note rfl
        · exact ⟨operation, circuit.clock, by simp [StoreCircuit.note]⟩
        · intro call time clash
          cases clash
      apply settle_advances finished
        ((adds.note (.inl rfl)).note (.inl rfl))
      refine ⟨?_, .inr (.inl ⟨.error error, ?_, rfl⟩)⟩
      · intro result member
        apply unsettled result
        simpa [StoreCircuit.note] using member
      · simp [StoreCircuit.note]

theorem enter_advances {operation : Operation} {thrown : Option Error}
    (sound : bound.Sound circuit)
    (fresh : ∀ event ∈ circuit.history, event.call? ≠ some id) :
    bound.Advances id circuit (bound.enter id circuit operation thrown) := by
  unfold enter
  split
  case h_1 since held =>
    split
    case isTrue early =>
      apply settle_advances sound (.refl id circuit)
      refine ⟨fun result member => fresh _ member rfl, .inl ⟨?_, ?_⟩⟩
      · exact ⟨operation, rfl⟩
      · intro other time member
        exact fresh _ member rfl
    case isFalse late =>
      refine launch_advances (sound.closed ?_) ((Adds.refl id circuit).of_history
        rfl) rfl fresh
      intro time isOpen
      rw [held] at isOpen
      cases isOpen
      omega
  case h_2 closed =>
    exact launch_advances sound (.refl id circuit) closed fresh

theorem openCircuit_adds (operation : Operation) :
    Adds id circuit (bound.openCircuit id circuit operation) := by
  unfold openCircuit
  split
  case h_1 =>
    have same : Adds id circuit
        { circuit with openedAt := some circuit.clock } :=
      (Adds.refl id circuit).of_history rfl
    exact (same.note (.inl rfl)).note (.inr rfl)
  case h_2 => exact .refl id circuit

theorem settled_of_openCircuit {operation : Operation} {call : Nat}
    (member : .settled call result ∈
      (bound.openCircuit id circuit operation).history) :
    .settled call result ∈ circuit.history := by
  unfold openCircuit at member
  split at member
  case h_1 => simpa [StoreCircuit.note] using member
  case h_2 => exact member

theorem resume_advances {operation : Operation}
    (sound : bound.Sound circuit)
    (position : bound.Position circuit.history id
      (.decided operation result)) :
    bound.Advances id circuit (bound.resume id circuit operation result) := by
  obtain ⟨⟨began, started⟩, earned, unsettled⟩ := position
  have rule : bound.Rule circuit.history (.settled id result) :=
    ⟨unsettled, .inr earned⟩
  cases result with
  | ok value => exact settle_advances sound (.refl id circuit) rule
  | error failure =>
      unfold resume
      dsimp only
      split
      case isFalse => exact settle_advances sound (.refl id circuit) rule
      case isTrue isDeadline =>
        -- Only an expiry makes the deadline error.
        obtain ⟨time, expired⟩ :
            ∃ time, .expired id time ∈ circuit.history := by
          rcases earned with ⟨outcome, _, own⟩ | ⟨_, time, expired, _⟩
          · cases outcome with
            | ok value => cases own
            | error error =>
                cases own
                cases isDeadline
          · exact ⟨time, expired⟩
        obtain ⟨added, grown, own⟩ :=
          (openCircuit_adds operation :
            Adds id circuit (bound.openCircuit id circuit operation))
        apply settle_advances (sound.openCircuit started expired)
          ⟨added, grown, own⟩
        refine ⟨fun other member => ?_, .inr (earned.mono ?_)⟩
        · exact unsettled other (settled_of_openCircuit member)
        · rw [grown]
          exact List.subset_append_left _ _

theorem step_advances {call next : BoundedCall Operation Value Error}
    {input : CallInput Value Error}
    {after : StoreCircuit Operation Value Error}
    (sound : bound.Sound circuit)
    (position : bound.Position circuit.history id call)
    (stepped : bound.step id circuit call input = some (after, next)) :
    bound.Advances id circuit (after, next) := by
  unfold step at stepped
  split at stepped
  case h_1 operation thrown =>
    rw [← Option.some.inj stepped]
    exact enter_advances sound position
  case h_2 operation due outcome =>
    cases stepped
    obtain ⟨⟨began, started, _⟩, unsettled⟩ := position
    refine ⟨sound.note rfl ⟨operation, began, started⟩ nofun, ?_,
      (Adds.refl id circuit).note (.inl rfl)⟩
    refine ⟨⟨began, ?_⟩, .inl ⟨outcome, ?_, rfl⟩, ?_⟩
    · exact List.mem_append_left _ started
    · simp [StoreCircuit.note]
    · intro result member
      apply unsettled result
      simpa [StoreCircuit.note] using member
  case h_3 operation due =>
    split at stepped
    case isFalse => cases stepped
    case isTrue isDue =>
      cases stepped
      obtain ⟨⟨began, started, rfl⟩, unsettled⟩ := position
      refine ⟨sound.note rfl ⟨operation, began, started, isDue⟩ ?_, ?_,
        (Adds.refl id circuit).note (.inl rfl)⟩
      · intro call time same
        cases same
        exact Nat.le_refl _
      · refine ⟨⟨began, ?_⟩, .inr ⟨operation, circuit.clock, ?_, rfl⟩, ?_⟩
        · exact List.mem_append_left _ started
        · simp [StoreCircuit.note]
        · intro result member
          apply unsettled result
          simpa [StoreCircuit.note] using member
  case h_4 operation result =>
    rw [← Option.some.inj stepped]
    exact resume_advances sound position
  case h_5 operation result outcome =>
    cases stepped
    exact ⟨sound, position, .refl id circuit⟩
  case h_6 operation result =>
    cases stepped
    exact ⟨sound, position, .refl id circuit⟩
  case h_7 result outcome =>
    cases stepped
    exact ⟨sound, position, .refl id circuit⟩
  case h_8 => cases stepped

end OperationDeadline

end Histories

/-- The circuit is accounted for, and so is every call; a call that was not made
has no events. -/
structure OperationDeadline.Accounted (bound : OperationDeadline)
    (configuration : Configuration (StoreCircuit Operation Value Error)
      (BoundedCall Operation Value Error)) : Prop where
  sound : bound.Sound configuration.shared
  calls : ∀ id call, configuration.process id = some call →
    bound.Position configuration.shared.history id call
  unknown : ∀ id, configuration.process id = none →
    ∀ event ∈ configuration.shared.history, event.call? ≠ some id

section Runs

variable {bound : OperationDeadline}
  {configuration next final : Configuration
    (StoreCircuit Operation Value Error) (BoundedCall Operation Value Error)}

namespace OperationDeadline

theorem Accounted.initial (bound : OperationDeadline) (clock : Nat) :
    bound.Accounted
      (.start (⟨clock, none, []⟩ : StoreCircuit Operation Value Error)) where
  sound := .initial clock
  calls id call running := by cases running
  unknown id _ event member := by cases member

theorem Accounted.spawn (accounted : bound.Accounted configuration) {id : Nat}
    {call : BoundedCall Operation Value Error}
    (unused : configuration.process id = none) (isNew : isCalled call = true) :
    bound.Accounted (configuration.set id configuration.shared call) where
  sound := accounted.sound
  calls other held running := by
    by_cases same : other = id
    · subst same
      rw [Configuration.set_process_self] at running
      cases running
      cases call with
      | called operation => exact accounted.unknown other unused
      | racing operation due => cases isNew
      | decided operation result => cases isNew
      | settled result => cases isNew
    · rw [Configuration.set_process_of_ne _ same] at running
      exact accounted.calls other held running
  unknown other absent := by
    by_cases same : other = id
    · subst same
      exact accounted.unknown other unused
    · rw [Configuration.set_process_of_ne _ same] at absent
      exact accounted.unknown other absent

theorem Accounted.run (accounted : bound.Accounted configuration) {id : Nat}
    {call : BoundedCall Operation Value Error}
    {reached : StoreCircuit Operation Value Error ×
      BoundedCall Operation Value Error}
    (running : configuration.process id = some call)
    (advances : bound.Advances id configuration.shared reached) :
    bound.Accounted (configuration.set id reached.1 reached.2) := by
  obtain ⟨added, grown, own⟩ := advances.adds
  refine ⟨advances.sound, ?_, ?_⟩
  · intro other held isHeld
    by_cases same : other = id
    · subst same
      rw [Configuration.set_process_self] at isHeld
      cases isHeld
      exact advances.position
    · rw [Configuration.set_process_of_ne _ same] at isHeld
      rw [Configuration.set_shared, grown]
      exact (accounted.calls other held isHeld).frame
        (fun event member => own event member other same)
  · intro other absent event member
    by_cases same : other = id
    · subst same
      rw [Configuration.set_process_self] at absent
      cases absent
    · rw [Configuration.set_process_of_ne _ same] at absent
      rw [Configuration.set_shared, grown] at member
      rcases List.mem_append.mp member with old | new
      · exact accounted.unknown other absent event old
      · exact own event new other same

theorem Accounted.outside (accounted : bound.Accounted configuration)
    {event : ClientEvent} {shared : StoreCircuit Operation Value Error}
    (changed : OperationDeadline.outside configuration.shared event =
      some shared) :
    bound.Accounted { configuration with shared } := by
  cases event with
  | ready =>
      cases changed
      refine ⟨accounted.sound.ready, ?_, ?_⟩
      · intro id call running
        exact (accounted.calls id call running).frame (by
          intro event member
          rw [List.mem_singleton.mp member]
          exact nofun)
      · intro id absent event member
        rcases List.mem_append.mp member with old | new
        · exact accounted.unknown id absent event old
        · rw [List.mem_singleton.mp new]
          exact nofun
  | tick now =>
      unfold OperationDeadline.outside at changed
      dsimp only at changed
      split at changed
      case isFalse => cases changed
      case isTrue passed =>
        cases changed
        exact ⟨accounted.sound.tick passed, accounted.calls, accounted.unknown⟩

theorem Accounted.move (accounted : bound.Accounted configuration)
    {action : Move (BoundedCall Operation Value Error) (CallInput Value Error)
      ClientEvent}
    (moved : bound.bounded.move configuration action = some next) :
    bound.Accounted next := by
  cases Program.move_cases moved with
  | spawn unused starts => exact accounted.spawn unused starts
  | run running stepped =>
      exact accounted.run running
        (step_advances accounted.sound (accounted.calls _ _ running) stepped)
  | outside changed => exact accounted.outside changed

end OperationDeadline

/-- What a store circuit owes to the reconnect and to its callers. -/
structure OperationDeadline.KeepsSilence (bound : OperationDeadline)
    (configuration : Configuration (StoreCircuit Operation Value Error)
      (BoundedCall Operation Value Error)) : Prop where
  /-- A circuit that is open was opened by an event of the history. -/
  opened_by : ∀ time, configuration.shared.openedAt = some time →
    ∃ before call after, configuration.shared.history =
      before ++ DeadlineEvent.opened call time :: after ∧ .ready ∉ after
  opens_at_expiry : ∀ before call time after,
    configuration.shared.history =
        before ++ DeadlineEvent.opened call time :: after →
      ∃ operation began expired,
        .started call operation began ∈ before ∧
          .expired call expired ∈ before ∧
          began + bound.deadlineMs ≤ expired ∧ expired ≤ time
  logs_each_opening :
    configuration.shared.history.countP DeadlineEvent.isLogged =
      configuration.shared.history.countP DeadlineEvent.isOpened
  logs_at_opening : ∀ before name operation deadlineMs after,
    configuration.shared.history =
        before ++ DeadlineEvent.logged name operation deadlineMs :: after →
      name = bound.event ∧ deadlineMs = bound.deadlineMs ∧
        ∃ earlier call time began,
          before = earlier ++ [DeadlineEvent.opened call time] ∧
          .started call operation began ∈ earlier
  /-- No inner operation is started before the cooldown or a `ready` ends. -/
  starts_in_quiet : ∀ before call operation time after,
    configuration.shared.history =
        before ++ DeadlineEvent.started call operation time :: after →
      Quiet bound.cooldownMs before time
  opens_apart : ∀ before call time after,
    configuration.shared.history =
        before ++ DeadlineEvent.opened call time :: after →
      Quiet bound.cooldownMs before time
  refused_unstarted : ∀ call operation,
    .settled call (bound.refusal operation) ∈ configuration.shared.history →
      ∀ other began,
        .started call other began ∉ configuration.shared.history
  settles_as_decided : ∀ before call result after,
    configuration.shared.history =
        before ++ DeadlineEvent.settled call result :: after →
      (∃ operation, result = bound.refusal operation) ∨
        bound.Earned before call result
  settles_once : ∀ before call result after,
    configuration.shared.history =
        before ++ DeadlineEvent.settled call result :: after →
      ∀ other, .settled call other ∉ before
  /-- A call is not kept waiting: its timer may fire when it is due, and a call
  whose race is decided may settle with that result. -/
  expires_when_due : ∀ call operation due,
    configuration.process call = some (.racing operation due) →
      due ≤ configuration.shared.clock →
      ∃ next, bound.bounded.move configuration (.run call .fire) = some next ∧
        next.process call = some (.decided operation (bound.expiry operation))
  settles_when_decided : ∀ call operation result,
    configuration.process call = some (.decided operation result) →
      ∃ next, bound.bounded.move configuration (.run call .resume) =
          some next ∧
        .settled call result ∈ next.shared.history

theorem OperationDeadline.settled_mem_resume (bound : OperationDeadline)
    (id : Nat) (circuit : StoreCircuit Operation Value Error)
    (operation : Operation) (result : Settlement Operation Value Error) :
    .settled id result ∈
      (bound.resume id circuit operation result).1.history := by
  cases result with
  | ok value => simp [resume, settle, StoreCircuit.note]
  | error failure => simp [resume, settle, StoreCircuit.note]

theorem OperationDeadline.Accounted.keepsSilence
    (accounted : bound.Accounted configuration) :
    bound.KeepsSilence configuration where
  opened_by time isOpen := (accounted.sound.since time isOpen).2
  opens_at_expiry before call time after split := by
    obtain ⟨_, expired, isExpired, notLater⟩ :=
      accounted.sound.justified _ _ _ split
    obtain ⟨first, second, parts⟩ := List.append_of_mem isExpired
    obtain ⟨operation, began, started, late⟩ :=
      accounted.sound.justified first (.expired call expired)
        (second ++ DeadlineEvent.opened call time :: after)
        (by simp [split, parts])
    refine ⟨operation, began, expired, ?_, isExpired, late, notLater⟩
    rw [parts]
    exact List.mem_append_left _ started
  logs_each_opening := accounted.sound.counted
  logs_at_opening before name operation deadlineMs after split :=
    accounted.sound.justified _ _ _ split
  starts_in_quiet before call operation time after split :=
    (accounted.sound.justified _ _ _ split).1
  opens_apart before call time after split :=
    (accounted.sound.justified _ _ _ split).1
  refused_unstarted call operation settled other began started :=
    accounted.sound.refused call other began operation started settled
  settles_as_decided before call result after split := by
    rcases (accounted.sound.justified _ _ _ split).2 with
      ⟨refused, _⟩ | earned
    · exact .inl refused
    · exact .inr earned
  settles_once before call result after split :=
    (accounted.sound.justified _ _ _ split).1
  expires_when_due call operation due racing isDue := by
    have stepped : bound.step call configuration.shared (.racing operation due)
        .fire = some (configuration.shared.note
          (.expired call configuration.shared.clock),
          .decided operation (bound.expiry operation)) := by
      simp [step, isDue, expiry]
    exact ⟨_, Program.Moved.move (.run racing stepped),
      Configuration.set_process_self _ _ _ _⟩
  settles_when_decided call operation result decided := by
    have stepped : bound.step call configuration.shared
        (.decided operation result) .resume =
          some (bound.resume call configuration.shared operation result) := rfl
    exact ⟨_, Program.Moved.move (.run decided stepped),
      settled_mem_resume bound call configuration.shared operation result⟩

/-- In every interleaving of calls, inner settlements, timers and `ready` events
the circuit keeps its silence. -/
theorem bounded_keeps_silence (bound : OperationDeadline) (clock : Nat)
    {schedule : List (Move (BoundedCall Operation Value Error)
      (CallInput Value Error) ClientEvent)}
    (run : runFrom bound.bounded.move (.start ⟨clock, none, []⟩) schedule =
      some final) :
    bound.KeepsSilence final :=
  (runFrom_invariant
    (fun _ _ _ accounted moved => accounted.move moved)
    (OperationDeadline.Accounted.initial bound clock) run).keepsSilence

/-- Two operations expire together and one opens the circuit; a third is refused,
and a fourth runs after the cooldown. -/
def expiringSchedule : List (Move
    (BoundedCall SessionStoreOperation String String)
    (CallInput String String) ClientEvent) :=
  [.spawn 0 (.called .get), .run 0 (.enter none),
    .spawn 1 (.called .set), .run 1 (.enter none),
    .outside (.tick 2000), .run 0 .fire, .run 1 .fire,
    .run 1 .resume, .run 0 .resume,
    .spawn 2 (.called .get), .run 2 (.enter none),
    .outside (.tick 4000), .spawn 3 (.called .get), .run 3 (.enter none),
    .run 3 (.finish (.ok "record")), .run 3 .resume]

theorem bounded_keeps_silence_sample :
    ∃ final, runFrom (withOperationDeadline 500).bounded.move
        (.start ⟨0, none, []⟩) expiringSchedule = some final ∧
      (withOperationDeadline 500).KeepsSilence final ∧
      final.shared.openedAt = none := by
  obtain ⟨final, run, closed⟩ : ∃ final,
      runFrom (withOperationDeadline 500).bounded.move
        (.start ⟨0, none, []⟩) expiringSchedule = some final ∧
      final.shared.openedAt = none := ⟨_, rfl, rfl⟩
  exact ⟨final, run,
    bounded_keeps_silence (withOperationDeadline 500) 0 run, closed⟩

end Runs

end Silence

end Paigasus.Auth
