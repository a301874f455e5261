import Mathlib.Data.Fin.VecNotation
import Mathlib.Logic.Function.Basic
import Paigasus.Foundation.EventLog
import Paigasus.Foundation.FixedWidth
import Paigasus.Foundation.Transition

/-!
# The generation counter and its rewind guard

A counter is shared by the replicas and each replica keeps the largest value
that it has recorded.  A value below that mark is a rewind and is repaired by
one relative increment, which one task of a replica makes at a time.  The steps
of any number of tasks interleave with each other and with a backend that loses
the counter or restores an older value.
-/

namespace Paigasus.Authorization.Generations

open Foundation

def rewindJump : Nat := 1000000

/-- The largest signed 64-bit integer, the bound of a stored counter. -/
def i64Max : Nat := 2 ^ 63 - 1

def repairDeltaCeiling : Nat := i64Max / 2

inductive GuardOutcome where
  | steady
  | repair (delta : Nat)
  | ceiling
deriving DecidableEq

def guard (observed highWater : Nat) : GuardOutcome :=
  if highWater ≤ observed then
    .steady
  else
    match U64.checkedAdd highWater rewindJump with
    | some delta => if delta ≤ repairDeltaCeiling then .repair delta else .ceiling
    | none => .ceiling

/-- The value of a key that holds an integer. -/
abbrev Counter : Type := {value : Nat // value ≤ i64Max}

/-- A missing key reads as zero. -/
def observe (stored : Option Counter) : Nat :=
  match stored with
  | some counter => counter.val
  | none => 0

/-- The increment fails where the sum would overflow. -/
def incrBy (stored : Option Counter) (delta : Nat) : Option Counter :=
  if inRange : observe stored + delta ≤ i64Max then
    some ⟨observe stored + delta, inRange⟩
  else
    none

/-- What becomes of a command: it may be refused, and it may be executed and
its reply lost. -/
inductive Reply where
  | ok
  | refused
  | lost
deriving DecidableEq

/-- Where a `read` or a `bump` stands. -/
inductive Phase where
  | get
  | incr
  | settle (observed : Nat)
  | raise (observed : Nat)
  | tryLock (delta : Nat)
  | recheck (delta : Nat)
  | incrBy (delta : Nat)
  | answer (value : Nat)
  | done
deriving DecidableEq

variable {Replica : Type}

inductive Event (Replica : Type) where
  /-- The task loads the mark of its replica to judge what it observed. -/
  | loaded (replica : Replica) (task observed mark : Nat)
  /-- The replica records an observed value in its mark. -/
  | raised (replica : Replica) (value : Nat)
  /-- The repair of the task was executed and left the counter at the value. -/
  | repaired (task value : Nat)
  | returned (task value : Nat)
  /-- The counter was rewound when the marks were as given. -/
  | rewound (marks : Replica → Nat)

structure World (Replica : Type) where
  stored : Option Counter
  marks : Replica → Nat
  gates : Replica → Option Nat
  tasks : Nat → Option (Replica × Phase)
  log : List (Event Replica)

inductive Action (Replica : Type) where
  | read (task : Nat) (replica : Replica)
  | bump (task : Nat) (replica : Replica)
  | advance (task : Nat) (reply : Reply)
  /-- The future of a task is dropped, and its lock with it. -/
  | cancel (task : Nat)
  | rewind (restored : Option Counter)

namespace World

def initial (stored : Option Counter) : World Replica where
  stored := stored
  marks := fun _ => 0
  gates := fun _ => none
  tasks := fun _ => none
  log := []

def moveTo (world : World Replica) (task : Nat) (replica : Replica)
    (phase : Phase) : World Replica :=
  { world with
    tasks := Function.update world.tasks task (some (replica, phase)) }

def record (world : World Replica) (event : Event Replica) : World Replica :=
  { world with log := world.log ++ [event] }

variable [DecidableEq Replica]

/-- `fetch_max` on the mark. -/
def fetchMax (world : World Replica) (replica : Replica) (value : Nat) :
    World Replica :=
  { world with
    marks := Function.update world.marks replica
      (max (world.marks replica) value) }.record (.raised replica value)

/-- The lock is released when its holder returns. -/
def release (world : World Replica) (task : Nat) (replica : Replica) :
    World Replica :=
  if world.gates replica = some task then
    { world with gates := Function.update world.gates replica none }
  else
    world

def settle (world : World Replica) (task : Nat) (replica : Replica)
    (observed : Nat) : World Replica :=
  let highWater := world.marks replica
  let loaded := world.record (.loaded replica task observed highWater)
  match guard observed highWater with
  | .steady => loaded.moveTo task replica (.raise observed)
  | .repair delta => loaded.moveTo task replica (.tryLock delta)
  | .ceiling =>
      loaded.moveTo task replica
        (.answer (U64.saturatingAdd highWater rewindJump))

/-- The relative increment of a repair.  Where it fails the mark stays as it is
and the task returns its delta. -/
def increment (world : World Replica) (task : Nat) (replica : Replica)
    (delta : Nat) (reply : Reply) : World Replica :=
  match incrBy world.stored delta with
  | none => world.moveTo task replica (.answer delta)
  | some counter =>
      let executed := { world with stored := some counter }.record
        (.repaired task counter.val)
      match reply with
      | .ok => executed.moveTo task replica (.raise counter.val)
      | .refused => world.moveTo task replica (.answer delta)
      | .lost => executed.moveTo task replica (.answer delta)

def advancePhase (world : World Replica) (task : Nat) (replica : Replica)
    (reply : Reply) : Phase → Option (World Replica)
  | .get =>
      if reply = .ok then
        some (world.moveTo task replica (.settle (observe world.stored)))
      else
        some (world.moveTo task replica .done)
  | .incr =>
      match incrBy world.stored 1 with
      | none => some (world.moveTo task replica .done)
      | some counter =>
          let executed := { world with stored := some counter }
          match reply with
          | .ok => some (executed.moveTo task replica (.settle counter.val))
          | .refused => some (world.moveTo task replica .done)
          | .lost => some (executed.moveTo task replica .done)
  | .settle observed => some (world.settle task replica observed)
  | .raise observed =>
      some ((world.fetchMax replica observed).moveTo task replica
        (.answer observed))
  | .tryLock delta =>
      match world.gates replica with
      | some _ => some (world.moveTo task replica (.answer delta))
      | none =>
          let held := { world with
            gates := Function.update world.gates replica (some task) }
          some (held.moveTo task replica (.recheck delta))
  | .recheck delta =>
      let highWater := world.marks replica
      if delta ≤ highWater then
        some (world.moveTo task replica (.answer highWater))
      else
        some (world.moveTo task replica (.incrBy delta))
  | .incrBy delta => some (world.increment task replica delta reply)
  | .answer value =>
      some (((world.record (.returned task value)).release task
        replica).moveTo task replica .done)
  | .done => none

def start (world : World Replica) (task : Nat) (replica : Replica)
    (phase : Phase) : Option (World Replica) :=
  match world.tasks task with
  | some _ => none
  | none => some (world.moveTo task replica phase)

def step (world : World Replica) : Action Replica → Option (World Replica)
  | .read task replica => world.start task replica .get
  | .bump task replica => world.start task replica .incr
  | .advance task reply =>
      match world.tasks task with
      | none => none
      | some (replica, phase) => world.advancePhase task replica reply phase
  | .cancel task =>
      match world.tasks task with
      | none => none
      | some (replica, _) =>
          some ((world.release task replica).moveTo task replica .done)
  | .rewind restored =>
      if observe restored ≤ observe world.stored then
        some ({ world with stored := restored }.record
          (.rewound world.marks))
      else
        none

end World

section Guard

theorem guard_steady {observed highWater : Nat}
    (steady : guard observed highWater = .steady) : highWater ≤ observed := by
  unfold guard at steady
  split at steady
  · assumption
  · split at steady
    · split at steady <;> cases steady
    · cases steady

theorem guard_repair {observed highWater delta : Nat}
    (repair : guard observed highWater = .repair delta) :
    delta = highWater + rewindJump ∧ delta ≤ repairDeltaCeiling := by
  unfold guard at repair
  split at repair
  · cases repair
  · split at repair
    case h_1 sum added =>
      split at repair
      · cases repair
        simp only [U64.checkedAdd, Option.ite_none_right_eq_some,
          Option.some.injEq] at added
        exact ⟨added.2.symm, by assumption⟩
      · cases repair
    case h_2 => cases repair

theorem observe_le (stored : Option Counter) : observe stored ≤ i64Max := by
  cases stored with
  | none => exact Nat.zero_le _
  | some counter => exact counter.property

theorem incrBy_val {stored : Option Counter} {delta : Nat} {counter : Counter}
    (added : incrBy stored delta = some counter) :
    counter.val = observe stored + delta := by
  unfold incrBy at added
  split at added
  · cases added
    rfl
  · cases added

/-- A repair of a counter in the lower half of its range is executed. -/
theorem incrBy_of_repair {observed highWater delta : Nat}
    (repair : guard observed highWater = .repair delta)
    {stored : Option Counter} (low : observe stored ≤ i64Max / 2) :
    ∃ counter, incrBy stored delta = some counter ∧
      counter.val = observe stored + delta := by
  have bounded := (guard_repair repair).2
  have inRange : observe stored + delta ≤ i64Max := by
    unfold repairDeltaCeiling at bounded
    omega
  exact ⟨⟨_, inRange⟩, dif_pos inRange, rfl⟩

end Guard

section Invariant

def Event.task? : Event Replica → Option Nat
  | .loaded _ task _ _ => some task
  | .raised _ _ => none
  | .repaired task _ => some task
  | .returned task _ => some task
  | .rewound _ => none

def Quiet (log : List (Event Replica)) (task : Nat) : Prop :=
  ∀ event ∈ log, event.task? ≠ some task

/-- The bound is a jump beyond the mark that the task loaded. -/
def Cleared (log : List (Event Replica)) (task bound : Nat) : Prop :=
  ∀ replica observed mark, .loaded replica task observed mark ∈ log →
    mark + rewindJump ≤ bound

/-- The same, if the task observed a rewind. -/
def Due (log : List (Event Replica)) (task bound : Nat) : Prop :=
  ∀ replica observed mark, .loaded replica task observed mark ∈ log →
    observed < mark → mark + rewindJump ≤ bound

def Known (log : List (Event Replica)) (task : Nat) : Phase → Prop
  | .get => Quiet log task
  | .incr => Quiet log task
  | .settle observed => Quiet log task ∧ observed ≤ i64Max
  | .raise observed => observed ≤ i64Max ∧ Due log task observed
  | .tryLock delta => Cleared log task delta
  | .recheck delta => Cleared log task delta
  | .incrBy delta => Cleared log task delta
  | .answer value => Due log task value
  | .done => True

/-- A loaded mark covers what its replica had recorded and held before. -/
def Covers (log : List (Event Replica)) (moment : Nat) (replica : Replica)
    (mark : Nat) : Prop :=
  (∀ (earlier : Nat) value, log[earlier]? = some (.raised replica value) →
      earlier < moment → value ≤ mark) ∧
    ∀ (earlier : Nat) marks, log[earlier]? = some (.rewound marks) →
      earlier < moment → marks replica ≤ mark

structure Sound (world : World Replica) : Prop where
  bounded : ∀ replica, world.marks replica ≤ i64Max
  raised : ∀ replica value, .raised replica value ∈ world.log →
    value ≤ world.marks replica
  rewound : ∀ marks, .rewound marks ∈ world.log →
    ∀ replica, marks replica ≤ world.marks replica
  loads : ∀ (moment : Nat) replica task observed mark,
    world.log[moment]? = some (.loaded replica task observed mark) →
    Covers world.log moment replica mark
  unused : ∀ task, world.tasks task = none → Quiet world.log task
  known : ∀ task replica phase, world.tasks task = some (replica, phase) →
    Known world.log task phase
  repaired : ∀ task value, .repaired task value ∈ world.log →
    Cleared world.log task value
  returned : ∀ task value, .returned task value ∈ world.log →
    Due world.log task value

variable {log : List (Event Replica)} {task : Nat}

theorem Quiet.append {event : Event Replica} (quiet : Quiet log task)
    (other : event.task? ≠ some task) : Quiet (log ++ [event]) task := by
  intro found member
  rcases List.mem_append.mp member with old | isNew
  · exact quiet found old
  · rw [List.mem_singleton.mp isNew]
    exact other

theorem Cleared.due {bound : Nat} (cleared : Cleared log task bound) :
    Due log task bound := by
  intro replica observed mark member _
  exact cleared replica observed mark member

theorem Cleared.mono {bound higher : Nat} (cleared : Cleared log task bound)
    (below : bound ≤ higher) : Cleared log task higher := by
  intro replica observed mark member
  exact (cleared replica observed mark member).trans below

theorem Cleared.append {bound : Nat} {event : Event Replica}
    (cleared : Cleared log task bound)
    (notLoad : ∀ replica observed mark,
      event ≠ .loaded replica task observed mark) :
    Cleared (log ++ [event]) task bound := by
  intro replica observed mark member
  rcases List.mem_append.mp member with old | isNew
  · exact cleared replica observed mark old
  · exact absurd (List.mem_singleton.mp isNew).symm
      (notLoad replica observed mark)

theorem Due.append {bound : Nat} {event : Event Replica}
    (due : Due log task bound)
    (notLoad : ∀ replica observed mark,
      event ≠ .loaded replica task observed mark) :
    Due (log ++ [event]) task bound := by
  intro replica observed mark member rewind
  rcases List.mem_append.mp member with old | isNew
  · exact due replica observed mark old rewind
  · exact absurd (List.mem_singleton.mp isNew).symm
      (notLoad replica observed mark)

theorem Known.append {phase : Phase} {event : Event Replica}
    (known : Known log task phase) (other : event.task? ≠ some task) :
    Known (log ++ [event]) task phase := by
  have notLoad : ∀ replica observed mark,
      event ≠ .loaded replica task observed mark := by
    rintro replica observed mark rfl
    exact other rfl
  cases phase with
  | get => exact Quiet.append known other
  | incr => exact Quiet.append known other
  | settle observed => exact ⟨known.1.append other, known.2⟩
  | raise observed => exact ⟨known.1, known.2.append notLoad⟩
  | tryLock delta => exact Cleared.append known notLoad
  | recheck delta => exact Cleared.append known notLoad
  | incrBy delta => exact Cleared.append known notLoad
  | answer value => exact Due.append known notLoad
  | done => trivial

theorem Covers.append {moment : Nat} {replica : Replica} {mark : Nat}
    {event : Event Replica} (covers : Covers log moment replica mark)
    (inLog : moment ≤ log.length) :
    Covers (log ++ [event]) moment replica mark := by
  constructor
  · intro earlier value found before
    rcases at_append.mp found with old | ⟨isLast, _⟩
    · exact covers.1 earlier value old before
    · omega
  · intro earlier marks found before
    rcases at_append.mp found with old | ⟨isLast, _⟩
    · exact covers.2 earlier marks old before
    · omega

namespace Sound

variable {world : World Replica}

theorem initial (stored : Option Counter) :
    Sound (World.initial stored : World Replica) where
  bounded := by simp [World.initial]
  raised := by simp [World.initial]
  rewound := by simp [World.initial]
  loads := by simp [World.initial]
  unused := by simp [World.initial, Quiet]
  known := by simp [World.initial]
  repaired := by simp [World.initial]
  returned := by simp [World.initial]

theorem moveTo (sound : Sound world) {replica : Replica} {phase : Phase}
    (known : Known world.log task phase) :
    Sound (world.moveTo task replica phase) := by
  refine { sound with unused := ?_, known := ?_ }
  · intro other isUnused
    by_cases same : other = task
    · subst same
      simp [World.moveTo] at isUnused
    · simp only [World.moveTo, Function.update_of_ne same] at isUnused
      exact sound.unused other isUnused
  · intro other otherReplica otherPhase found
    by_cases same : other = task
    · subst same
      simp only [World.moveTo, Function.update_self, Option.some.injEq,
        Prod.mk.injEq] at found
      obtain ⟨_, rfl⟩ := found
      exact known
    · simp only [World.moveTo, Function.update_of_ne same] at found
      exact sound.known other otherReplica otherPhase found

/-- The current mark covers everything so far. -/
theorem covers_now (sound : Sound world) (replica : Replica) :
    Covers world.log world.log.length replica (world.marks replica) := by
  constructor
  · intro earlier value found _
    exact sound.raised replica value (List.mem_of_getElem? found)
  · intro earlier marks found _
    exact sound.rewound marks (List.mem_of_getElem? found) replica

/-- An event of a finished task, or of none. -/
theorem record (sound : Sound world) (event : Event Replica)
    (parked : ∀ task, event.task? = some task →
      ∃ replica, world.tasks task = some (replica, .done))
    (raised : ∀ replica value, event = .raised replica value →
      value ≤ world.marks replica)
    (rewound : ∀ marks, event = .rewound marks →
      ∀ replica, marks replica ≤ world.marks replica)
    (loads : ∀ replica task observed mark,
      event = .loaded replica task observed mark →
      mark = world.marks replica ∧ Quiet world.log task)
    (repaired : ∀ task value, event = .repaired task value →
      Cleared world.log task value)
    (returned : ∀ task value, event = .returned task value →
      Due world.log task value) :
    Sound (world.record event) := by
  -- Only a task without events loads its mark.
  have notLoad : ∀ {task : Nat} {old : Event Replica}, old ∈ world.log →
      old.task? = some task → ∀ replica observed mark,
        event ≠ .loaded replica task observed mark := by
    intro task old member own replica observed mark isLoad
    exact (loads replica task observed mark isLoad).2 old member own
  have split : ∀ {found : Event Replica}, found ∈ world.log ++ [event] →
      found ∈ world.log ∨ event = found := by
    intro found member
    rcases List.mem_append.mp member with old | isNew
    · exact .inl old
    · exact .inr (List.mem_singleton.mp isNew).symm
  constructor
  · exact sound.bounded
  · intro replica value member
    rcases split member with old | isNew
    · exact sound.raised replica value old
    · exact raised replica value isNew
  · intro marks member
    rcases split member with old | isNew
    · exact sound.rewound marks old
    · exact rewound marks isNew
  · intro moment replica task observed mark found
    rcases at_append.mp found with old | ⟨isLast, isNew⟩
    · exact (sound.loads moment replica task observed mark old).append
        (at_lt old).le
    · rw [(loads replica task observed mark isNew).1, isLast]
      exact (sound.covers_now replica).append le_rfl
  · intro task isUnused
    apply (sound.unused task isUnused).append
    intro own
    obtain ⟨replica, finished⟩ := parked task own
    change world.tasks task = none at isUnused
    rw [isUnused] at finished
    cases finished
  · intro task replica phase found
    by_cases own : event.task? = some task
    · obtain ⟨other, finished⟩ := parked task own
      change world.tasks task = some (replica, phase) at found
      rw [found] at finished
      cases finished
      trivial
    · exact (sound.known task replica phase found).append own
  · intro task value member
    rcases split member with old | isNew
    · exact (sound.repaired task value old).append (notLoad old rfl)
    · apply (repaired task value isNew).append
      rintro replica observed mark rfl
      cases isNew
  · intro task value member
    rcases split member with old | isNew
    · exact (sound.returned task value old).append (notLoad old rfl)
    · apply (returned task value isNew).append
      rintro replica observed mark rfl
      cases isNew

/-- A task records an event of its own and moves to its next phase. -/
theorem recordOwn (sound : Sound world) {replica : Replica} {phase : Phase}
    (event : Event Replica)
    (own : ∀ other, event.task? = some other → other = task)
    (raised : ∀ replica value, event ≠ .raised replica value)
    (rewound : ∀ marks, event ≠ .rewound marks)
    (loads : ∀ replica other observed mark,
      event = .loaded replica other observed mark →
      mark = world.marks replica ∧ Quiet world.log other)
    (repaired : ∀ other value, event = .repaired other value →
      Cleared world.log other value)
    (returned : ∀ other value, event = .returned other value →
      Due world.log other value)
    (known : Known (world.log ++ [event]) task phase) :
    Sound ((world.record event).moveTo task replica phase) := by
  have finished : Sound (world.moveTo task replica .done) :=
    sound.moveTo trivial
  have recorded :
      Sound ((world.moveTo task replica .done).record event) := by
    apply finished.record event
    · intro other isOwn
      rw [own other isOwn]
      exact ⟨replica, Function.update_self ..⟩
    · intro other value isRaise
      exact absurd isRaise (raised other value)
    · intro marks isRewind
      exact absurd isRewind (rewound marks)
    · exact loads
    · exact repaired
    · exact returned
  have moved : Sound (((world.moveTo task replica .done).record event).moveTo
      task replica phase) := recorded.moveTo known
  simpa only [World.moveTo, World.record, Function.update_idem] using moved

theorem restore (sound : Sound world) (stored : Option Counter) :
    Sound { world with stored } :=
  { sound with }

theorem hold (sound : Sound world) (gates : Replica → Option Nat) :
    Sound { world with gates } :=
  { sound with }

theorem settle (sound : Sound world) {replica : Replica} {observed : Nat}
    (quiet : Quiet world.log task) (bounded : observed ≤ i64Max) :
    Sound (world.settle task replica observed) := by
  have settled : ∀ phase, Known (world.log ++
        [.loaded replica task observed (world.marks replica)]) task phase →
      Sound ((world.record (.loaded replica task observed
        (world.marks replica))).moveTo task replica phase) := by
    intro phase known
    apply sound.recordOwn (.loaded replica task observed (world.marks replica))
    · intro other own
      exact (Option.some.inj own).symm
    · intro other value isRaise
      cases isRaise
    · intro marks isRewind
      cases isRewind
    · intro other loader seen mark isLoad
      cases isLoad
      exact ⟨rfl, quiet⟩
    · intro other value isRepair
      cases isRepair
    · intro other value isReturn
      cases isReturn
    · exact known
  -- The load that was just recorded is the only one of this task.
  have only : ∀ other seen mark,
      .loaded other task seen mark ∈ world.log ++
        [.loaded replica task observed (world.marks replica)] →
      seen = observed ∧ mark = world.marks replica := by
    intro other seen mark member
    rcases List.mem_append.mp member with old | isNew
    · exact absurd rfl (quiet _ old)
    · cases List.mem_singleton.mp isNew
      exact ⟨rfl, rfl⟩
  simp only [World.settle]
  split
  case h_1 outcome =>
    apply settled (.raise observed)
    refine ⟨bounded, ?_⟩
    intro other seen mark member rewind
    obtain ⟨rfl, rfl⟩ := only other seen mark member
    have notBelow := guard_steady outcome
    omega
  case h_2 delta outcome =>
    apply settled (.tryLock delta)
    intro other seen mark member
    obtain ⟨_, rfl⟩ := only other seen mark member
    rw [(guard_repair outcome).1]
  case h_3 =>
    apply settled (.answer _)
    intro other seen mark member _
    obtain ⟨_, rfl⟩ := only other seen mark member
    have inRange := sound.bounded replica
    unfold U64.saturatingAdd U64.maxValue rewindJump
    unfold i64Max at inRange
    omega

theorem increment (sound : Sound world) {replica : Replica} {delta : Nat}
    (cleared : Cleared world.log task delta) (reply : Reply) :
    Sound (world.increment task replica delta reply) := by
  unfold World.increment
  split
  · exact sound.moveTo cleared.due
  case h_2 counter added =>
    have beyond : delta ≤ counter.val := by
      rw [incrBy_val added]
      exact Nat.le_add_left _ _
    have notLoad : ∀ replica observed mark,
        (.repaired task counter.val : Event Replica) ≠
          .loaded replica task observed mark := by
      intro replica observed mark isLoad
      cases isLoad
    have executed : ∀ phase, Known (world.log ++
          [.repaired task counter.val]) task phase →
        Sound (({ world with stored := some counter }.record
          (.repaired task counter.val)).moveTo task replica phase) := by
      intro phase known
      apply (sound.restore (some counter)).recordOwn
        (.repaired task counter.val)
      · intro other own
        exact (Option.some.inj own).symm
      · intro other value isRaise
        cases isRaise
      · intro marks isRewind
        cases isRewind
      · intro other loader seen mark isLoad
        cases isLoad
      · intro other value isRepair
        cases isRepair
        exact cleared.mono beyond
      · intro other value isReturn
        cases isReturn
      · exact known
    cases reply with
    | ok =>
        apply executed (.raise counter.val)
        exact ⟨counter.property, (cleared.mono beyond).due.append notLoad⟩
    | refused => exact sound.moveTo cleared.due
    | lost =>
        apply executed (.answer delta)
        exact cleared.due.append notLoad

theorem startTask (sound : Sound world) {replica : Replica} {phase : Phase}
    {next : World Replica} (stepped : world.start task replica phase = some next)
    (known : Quiet world.log task → Known world.log task phase) :
    Sound next := by
  simp only [World.start] at stepped
  split at stepped
  · cases stepped
  case h_2 isUnused =>
    cases stepped
    exact sound.moveTo (known (sound.unused task isUnused))

variable [DecidableEq Replica]

theorem release (sound : Sound world) (task : Nat) (replica : Replica) :
    Sound (world.release task replica) := by
  unfold World.release
  split
  · exact sound.hold _
  · exact sound

theorem le_fetchMax (replica other : Replica) (value : Nat) :
    world.marks other ≤ (world.fetchMax replica value).marks other := by
  by_cases same : other = replica
  · subst same
    simp [World.fetchMax, World.record]
  · simp [World.fetchMax, World.record, Function.update_of_ne same]

theorem fetchMax (sound : Sound world) (replica : Replica) {value : Nat}
    (bounded : value ≤ i64Max) : Sound (world.fetchMax replica value) := by
  let raised : World Replica := { world with
    marks := Function.update world.marks replica
      (max (world.marks replica) value) }
  have grown : ∀ other, world.marks other ≤ raised.marks other :=
    fun other => le_fetchMax replica other value
  have sound' : Sound raised := by
    refine { sound with bounded := ?_, raised := ?_, rewound := ?_ }
    · intro other
      by_cases same : other = replica
      · subst same
        simp only [raised, Function.update_self]
        exact max_le (sound.bounded other) bounded
      · simp only [raised, Function.update_of_ne same]
        exact sound.bounded other
    · intro other recorded member
      exact (sound.raised other recorded member).trans (grown other)
    · intro marks member other
      exact (sound.rewound marks member other).trans (grown other)
  apply sound'.record (.raised replica value)
  · intro task own
    cases own
  · intro other recorded isRaise
    cases isRaise
    simp [raised]
  · intro marks isRewind
    cases isRewind
  · intro other task observed mark isLoad
    cases isLoad
  · intro task recorded isRepair
    cases isRepair
  · intro task recorded isReturn
    cases isReturn

theorem answer (sound : Sound world) {replica : Replica} {value : Nat}
    (due : Due world.log task value) :
    Sound (((world.record (.returned task value)).release task replica).moveTo
      task replica .done) := by
  have recorded : Sound ((world.record (.returned task value)).moveTo task
      replica .done) := by
    apply sound.recordOwn (.returned task value)
    · intro other own
      exact (Option.some.inj own).symm
    · intro other recorded isRaise
      cases isRaise
    · intro marks isRewind
      cases isRewind
    · intro other loader seen mark isLoad
      cases isLoad
    · intro other recorded isRepair
      cases isRepair
    · intro other recorded isReturn
      cases isReturn
      exact due
    · trivial
  unfold World.release
  split
  · exact recorded.hold _
  · exact recorded

theorem advancePhase (sound : Sound world) {replica : Replica} {reply : Reply}
    {phase : Phase} {next : World Replica}
    (known : Known world.log task phase)
    (stepped : world.advancePhase task replica reply phase = some next) :
    Sound next := by
  cases phase with
  | get =>
      simp only [World.advancePhase] at stepped
      split at stepped
      · cases stepped
        apply sound.moveTo
        exact ⟨known, observe_le world.stored⟩
      · cases stepped
        exact sound.moveTo trivial
  | incr =>
      simp only [World.advancePhase] at stepped
      split at stepped
      · cases stepped
        exact sound.moveTo trivial
      case h_2 counter added =>
        cases reply with
        | ok =>
            cases stepped
            apply (sound.restore (some counter)).moveTo
            exact ⟨known, counter.property⟩
        | refused =>
            cases stepped
            exact sound.moveTo trivial
        | lost =>
            cases stepped
            exact (sound.restore (some counter)).moveTo trivial
  | settle observed =>
      cases stepped
      exact sound.settle known.1 known.2
  | raise observed =>
      cases stepped
      apply (sound.fetchMax replica known.1).moveTo
      apply known.2.append
      intro other seen mark isLoad
      cases isLoad
  | tryLock delta =>
      simp only [World.advancePhase] at stepped
      split at stepped
      · cases stepped
        exact sound.moveTo known.due
      · cases stepped
        exact (sound.hold _).moveTo known
  | recheck delta =>
      simp only [World.advancePhase] at stepped
      split at stepped
      case isTrue reached =>
        cases stepped
        apply sound.moveTo
        exact (Cleared.mono known reached).due
      case isFalse =>
        cases stepped
        exact sound.moveTo known
  | incrBy delta =>
      cases stepped
      exact sound.increment known reply
  | answer value =>
      cases stepped
      exact sound.answer known
  | done => cases stepped

theorem step (sound : Sound world) {action : Action Replica}
    {next : World Replica} (stepped : world.step action = some next) :
    Sound next := by
  cases action with
  | read task replica => exact sound.startTask stepped (fun quiet => quiet)
  | bump task replica => exact sound.startTask stepped (fun quiet => quiet)
  | advance task reply =>
      simp only [World.step] at stepped
      split at stepped
      · cases stepped
      case h_2 replica phase found =>
        exact sound.advancePhase (sound.known task replica phase found) stepped
  | cancel task =>
      simp only [World.step] at stepped
      split at stepped
      · cases stepped
      case h_2 replica phase found =>
        cases stepped
        exact (sound.release task replica).moveTo trivial
  | rewind restored =>
      simp only [World.step] at stepped
      split at stepped
      · cases stepped
        apply (sound.restore restored).record (.rewound world.marks)
        · intro task own
          cases own
        · intro replica value isRaise
          cases isRaise
        · intro marks isRewind replica
          cases isRewind
          exact le_rfl
        · intro replica task observed mark isLoad
          cases isLoad
        · intro task value isRepair
          cases isRepair
        · intro task value isReturn
          cases isReturn
      · cases stepped

end Sound

theorem marks_le_advancePhase [DecidableEq Replica]
    {world next : World Replica} {replica : Replica} {reply : Reply}
    {phase : Phase}
    (stepped : world.advancePhase task replica reply phase = some next)
    (other : Replica) : world.marks other ≤ next.marks other := by
  cases phase with
  | get =>
      simp only [World.advancePhase] at stepped
      split at stepped <;> cases stepped <;> exact le_rfl
  | incr =>
      simp only [World.advancePhase] at stepped
      split at stepped
      · cases stepped
        exact le_rfl
      · cases reply <;> cases stepped <;> exact le_rfl
  | settle observed =>
      cases stepped
      simp only [World.settle]
      split <;> exact le_rfl
  | raise observed =>
      cases stepped
      exact Sound.le_fetchMax replica other observed
  | tryLock delta =>
      simp only [World.advancePhase] at stepped
      split at stepped <;> cases stepped <;> exact le_rfl
  | recheck delta =>
      simp only [World.advancePhase] at stepped
      split at stepped <;> cases stepped <;> exact le_rfl
  | incrBy delta =>
      cases stepped
      simp only [World.increment]
      split
      · exact le_rfl
      · cases reply <;> exact le_rfl
  | answer value =>
      cases stepped
      simp only [World.release]
      split <;> exact le_rfl
  | done => cases stepped

theorem marks_le_step [DecidableEq Replica] {world next : World Replica}
    {action : Action Replica} (stepped : world.step action = some next)
    (replica : Replica) : world.marks replica ≤ next.marks replica := by
  have started : ∀ {task : Nat} {other : Replica} {phase : Phase},
      world.start task other phase = some next →
      world.marks replica ≤ next.marks replica := by
    intro task other phase isStart
    simp only [World.start] at isStart
    split at isStart <;> cases isStart
    exact le_rfl
  cases action with
  | read task other => exact started stepped
  | bump task other => exact started stepped
  | advance task reply =>
      simp only [World.step] at stepped
      split at stepped
      · cases stepped
      · exact marks_le_advancePhase stepped replica
  | cancel task =>
      simp only [World.step] at stepped
      split at stepped
      · cases stepped
      · cases stepped
        simp only [World.release]
        split <;> exact le_rfl
  | rewind restored =>
      simp only [World.step] at stepped
      split at stepped <;> cases stepped
      exact le_rfl

end Invariant

section Rewinds

/-- A task that observed a rewind returns a value beyond every value that its
replica had recorded when the task loaded the mark. -/
def ReturnsBeyond (log : List (Event Replica)) : Prop :=
  ∀ (load : Nat) replica task observed mark value,
    log[load]? = some (.loaded replica task observed mark) →
    observed < mark → .returned task value ∈ log →
    ∀ (earlier : Nat) recorded,
      log[earlier]? = some (.raised replica recorded) → earlier < load →
      recorded < value

/-- A repair by a task that loaded its mark after a rewind leaves the counter
above the marks at the rewind of every fleet whose marks were close. -/
def RepairsBeyond (log : List (Event Replica)) : Prop :=
  ∀ (rewind load : Nat) marks replica task observed mark value,
    log[rewind]? = some (.rewound marks) →
    log[load]? = some (.loaded replica task observed mark) →
    rewind < load → .repaired task value ∈ log →
    ∀ fleet : Set Replica, replica ∈ fleet →
      (∀ left ∈ fleet, ∀ right ∈ fleet,
        marks left < marks right + rewindJump) →
      ∀ other ∈ fleet, marks other < value

theorem Sound.returnsBeyond {world : World Replica} (sound : Sound world) :
    ReturnsBeyond world.log := by
  intro load replica task observed mark value loaded rewind returned earlier
    recorded raised before
  have covered := (sound.loads load replica task observed mark loaded).1
    earlier recorded raised before
  have due := sound.returned task value returned replica observed mark
    (List.mem_of_getElem? loaded) rewind
  unfold rewindJump at due
  omega

theorem Sound.repairsBeyond {world : World Replica} (sound : Sound world) :
    RepairsBeyond world.log := by
  intro rewind load marks replica task observed mark value rewound loaded
    before repaired fleet inFleet close other isOther
  have covered := (sound.loads load replica task observed mark loaded).2
    rewind marks rewound before
  have cleared := sound.repaired task value repaired replica observed mark
    (List.mem_of_getElem? loaded)
  have near := close other isOther replica inFleet
  omega

/-- In every interleaving of reads, bumps, repairs and rewinds the marks only
rise, a rewound counter is answered beyond the loaded mark, a repair clears
the marks at the rewind, and no repair of a counter in the lower half of its
range overflows. -/
theorem rewinds_are_guarded [DecidableEq Replica] (stored : Option Counter)
    (before after : List (Action Replica)) (middle world : World Replica)
    (begun : runFrom World.step (World.initial stored) before = some middle)
    (continued : runFrom World.step middle after = some world) :
    (∀ replica, middle.marks replica ≤ world.marks replica) ∧
      ReturnsBeyond world.log ∧ RepairsBeyond world.log ∧
      ∀ observed highWater delta, guard observed highWater = .repair delta →
        ∀ current, observe current ≤ i64Max / 2 →
          ∃ counter, incrBy current delta = some counter ∧
            counter.val = observe current + delta := by
  have sound : Sound world := by
    have started : Sound middle := by
      apply runFrom_invariant _ (Sound.initial stored) begun
      intro state action next holds stepped
      exact holds.step stepped
    apply runFrom_invariant _ started continued
    intro state action next holds stepped
    exact holds.step stepped
  refine ⟨?_, sound.returnsBeyond, sound.repairsBeyond, ?_⟩
  · intro replica
    apply @runFrom_invariant _ _ _
      (fun state => middle.marks replica ≤ state.marks replica) _ _ _ _ le_rfl
      continued
    intro state action next risen stepped
    exact risen.trans (marks_le_step stepped replica)
  · intro observed highWater delta repair current low
    exact incrBy_of_repair repair low

section SampleRuns

def atTen : Option Counter := some ⟨10, by decide⟩

/-- The steps of one task, all of them answered by the backend. -/
def steps (task count : Nat) : List (Action (Fin 2)) :=
  List.replicate count (.advance task .ok)

/-- A task records the value 10, the counter is lost, and two tasks of the same
replica find it missing.  The first of them repairs it and the second returns
what the first recorded. -/
def sharedRepair : List (Action (Fin 2)) :=
  Action.read 0 0 :: steps 0 4 ++
    [Action.rewind none, .read 1 0, .read 2 0] ++ steps 1 2 ++ steps 2 2 ++
    steps 1 5 ++ steps 2 3

/-- A repair is in flight while the other replica repairs the counter, the
fleet records the result and the counter is lost once more. -/
def staleRepair : List (Action (Fin 2)) :=
  Action.read 0 0 :: steps 0 4 ++ Action.read 1 1 :: steps 1 4 ++
    [Action.rewind none, .read 2 0] ++ steps 2 4 ++ Action.read 3 1 :: steps 3 7 ++
    Action.read 4 0 :: steps 4 4 ++ Action.rewind none :: steps 2 1

/-- A detected rewind is answered beyond all that the replica recorded before
the answer. -/
def ReturnsBeyondRecorded (log : List (Event Replica)) : Prop :=
  ∀ (load answer : Nat) replica task observed mark value,
    log[load]? = some (.loaded replica task observed mark) →
    observed < mark → log[answer]? = some (.returned task value) →
    ∀ (earlier : Nat) recorded,
      log[earlier]? = some (.raised replica recorded) → earlier < answer →
      recorded < value

/-- Every repair after a rewind of close marks clears these marks. -/
def EveryRepairBeyond (log : List (Event Replica)) : Prop :=
  ∀ (rewind repair : Nat) marks task value,
    log[rewind]? = some (.rewound marks) →
    log[repair]? = some (.repaired task value) → rewind < repair →
    (∀ left right, marks left < marks right + rewindJump) →
    ∀ replica, marks replica < value

/-- The kind of an event and its numbers. -/
def Event.fields : Event (Fin 2) → List Nat
  | .loaded replica task observed mark => [0, replica, task, observed, mark]
  | .raised replica value => [1, replica, value]
  | .repaired task value => [2, task, value]
  | .returned task value => [3, task, value]
  | .rewound marks => [4, marks 0, marks 1]

theorem Event.fields_injective : Function.Injective Event.fields := by
  intro event other same
  cases event <;> cases other <;>
    simp_all [Event.fields, Fin.ext_iff, funext_iff, Fin.forall_fin_two]

instance : DecidableEq (Event (Fin 2)) := Event.fields_injective.decidableEq

theorem sharedRepair_log :
    (runFrom World.step (World.initial atTen) sharedRepair).map World.log =
      some [.loaded 0 0 10 0, .raised 0 10, .returned 0 10,
        .rewound ![10, 0], .loaded 0 1 0 10, .loaded 0 2 0 10,
        .repaired 1 1000010, .raised 0 1000010, .returned 1 1000010,
        .returned 2 1000010] := by
  decide

theorem staleRepair_log :
    (runFrom World.step (World.initial atTen) staleRepair).map World.log =
      some [.loaded 0 0 10 0, .raised 0 10, .returned 0 10, .loaded 1 1 10 0,
        .raised 1 10, .returned 1 10, .rewound ![10, 10], .loaded 0 2 0 10,
        .loaded 1 3 0 10, .repaired 3 1000010, .raised 1 1000010,
        .returned 3 1000010, .loaded 0 4 1000010 10, .raised 0 1000010,
        .returned 4 1000010, .rewound ![1000010, 1000010],
        .repaired 2 1000010] := by
  decide

/-- A repaired value is returned by a second task too, and a repair that was in
flight at a rewind may land on the marks. -/
theorem repaired_values_recur :
    (∃ world, Reachable World.step (World.initial atTen) world ∧
        ¬ ReturnsBeyondRecorded (world : World (Fin 2)).log) ∧
      ∃ world, Reachable World.step (World.initial atTen) world ∧
        ¬ EveryRepairBeyond (world : World (Fin 2)).log := by
  constructor
  · obtain ⟨world, run, log⟩ := Option.map_eq_some_iff.mp sharedRepair_log
    refine ⟨world, ⟨sharedRepair, run⟩, ?_⟩
    rw [log]
    intro beyond
    have above := beyond 5 9 0 2 0 10 1000010 rfl (by decide) rfl 7 1000010 rfl
      (by decide)
    omega
  · obtain ⟨world, run, log⟩ := Option.map_eq_some_iff.mp staleRepair_log
    refine ⟨world, ⟨staleRepair, run⟩, ?_⟩
    rw [log]
    intro beyond
    have above := beyond 15 16 ![1000010, 1000010] 2 1000010 rfl rfl
      (by decide) (by decide) 0
    exact absurd above (by decide)

/-- The run of the shared repair, cut where the counter is lost. -/
theorem sharedRepair_guarded :
    ∃ (middle world : World (Fin 2)),
      middle.marks 0 = 10 ∧ world.marks 0 = 1000010 ∧
      .returned 2 1000010 ∈ world.log ∧ .repaired 1 1000010 ∈ world.log ∧
      (∀ replica, middle.marks replica ≤ world.marks replica) ∧
      ReturnsBeyond world.log ∧ RepairsBeyond world.log ∧
      ∀ observed highWater delta, guard observed highWater = .repair delta →
        ∀ current, observe current ≤ i64Max / 2 →
          ∃ counter, incrBy current delta = some counter ∧
            counter.val = observe current + delta := by
  have halves : (runFrom World.step (World.initial atTen)
        (sharedRepair.take 5)).map (fun world => world.marks 0) = some 10 := by
    decide
  have whole : (runFrom World.step (World.initial atTen) sharedRepair).map
      (fun world => (world.marks 0,
        decide (.returned 2 1000010 ∈ world.log ∧
          .repaired 1 1000010 ∈ world.log))) = some (1000010, true) := by
    decide
  obtain ⟨middle, begun, low⟩ := Option.map_eq_some_iff.mp halves
  obtain ⟨world, run, ends⟩ := Option.map_eq_some_iff.mp whole
  obtain ⟨high, events⟩ := Prod.mk.inj ends
  rw [← List.take_append_drop 5 sharedRepair] at run
  obtain ⟨other, first, continued⟩ := runFrom_append.mp run
  cases begun.symm.trans first
  have members := of_decide_eq_true events
  exact ⟨middle, world, low, high, members.1, members.2,
    rewinds_are_guarded atTen (sharedRepair.take 5) (sharedRepair.drop 5)
      middle world begun continued⟩

end SampleRuns

end Rewinds

end Paigasus.Authorization.Generations
