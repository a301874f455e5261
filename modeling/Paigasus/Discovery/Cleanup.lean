import Paigasus.Discovery.ResolveService

/-!
# Removing unusable records

A reader removes what it cannot use.  The adapter deletes a value that does not
parse only where the key still holds it; the core deletes a record that cannot
be without looking at the key again.  Builds of other versions may store any
value between any two steps.
-/

namespace Paigasus.Discovery

open Foundation

/-- A call of `resolveService`, with what its last `cache.get` returned. -/
structure Reading where
  call : Call
  read : Option Value
deriving DecidableEq

namespace Reading

def start (service : String) : Reading := ⟨.start service, none⟩

/-- What the call has read after its next step. -/
def readNext (cache : Cache) (reading : Reading) : Option Value :=
  match reading.call.phase with
  | .reading _ => cache.stored.map Stored.value
  | _ => reading.read

def step (timings : Timings) (cache : Cache) (reading : Reading)
    (input : StepInput) (id : Nat) : Option (Cache × Reading) :=
  (reading.call.step timings cache input id).map fun (after, next) =>
    (after, ⟨next, reading.readNext cache⟩)

end Reading

/-- What happens to the key besides the calls. -/
inductive Interference where
  | expires (expiry : Expiry)
  | stores (value : Value)
deriving DecidableEq

def readersAndWriters (timings : Timings) :
    Program Cache Reading StepInput Interference where
  starts reading := reading = .start reading.call.service
  step id cache reading input := reading.step timings cache input id
  outside cache interference :=
    match interference with
    | .expires expiry => (resolveService timings).outside cache expiry
    | .stores value => some { cache with stored := some ⟨value, none⟩ }

/-- A value from which no state can be served. -/
def Unusable (service : String) (value : Value) : Prop :=
  ∀ record, value.parseRecord = some record → toState service record = none

/-- The move empties the key only where the record expires, or where the call
has read this record and found it unusable. -/
def SparesOthers (timings : Timings)
    (configuration : Configuration Cache Reading)
    (move : Move Reading StepInput Interference) : Prop :=
  ∀ next stored,
    (readersAndWriters timings).move configuration move = some next →
    configuration.shared.stored = some stored → next.shared.stored = none →
    move = .outside (.expires .record) ∨
      ∃ id input reading, move = .run id input ∧
        configuration.process id = some reading ∧
        reading.read = some stored.value ∧
        Unusable reading.call.service stored.value

/-- Where the core deletes a record that cannot be, the key is empty or holds
what the call has read. -/
def DeletesAsRead (configuration : Configuration Cache Reading) :
    Move Reading StepInput Interference → Prop
  | .run id input => ∀ reading reader stored,
      configuration.process id = some reading →
      reading.call.phase = .deleting reader → input.fails = false →
      configuration.shared.stored = some stored →
      reading.read = some stored.value
  | _ => True

namespace Call

/-- The step leaves the record, and the call does not go on to remove it. -/
structure LeavesRecord (cache : Cache) (call : Call) (result : Cache × Call) :
    Prop where
  stored : result.1.stored = cache.stored
  service : result.2.service = call.service
  discards : ∀ reader value, result.2.phase ≠ .discarding reader value
  deletes : ∀ reader, result.2.phase ≠ .deleting reader

@[simp]
theorem at_service (call : Call) (phase : Phase) :
    (call.at_ phase).service = call.service := rfl

@[simp]
theorem at_phase (call : Call) (phase : Phase) :
    (call.at_ phase).phase = phase := rfl

@[simp]
theorem answers_service (call : Call) (state : ServiceState) :
    (call.answers state).service = call.service := rfl

@[simp]
theorem answersUnavailable_service (call : Call) :
    call.answersUnavailable.service = call.service := rfl

@[simp]
theorem answersStale_service (call : Call) :
    call.answersStale.service = call.service := by
  unfold answersStale
  split
  · rfl
  · rfl

variable {timings : Timings} {cache : Cache} {call : Call}
  {input : StepInput} {id : Nat} {result : Cache × Call}

/-- A phase whose next step removes the record. -/
def removes : Phase → Bool
  | .discarding _ _ => true
  | .deleting _ => true
  | _ => false

theorem leaves_of_not_removes (stored : result.1.stored = cache.stored)
    (service : result.2.service = call.service)
    (spares : removes result.2.phase = false) :
    LeavesRecord cache call result := by
  refine ⟨stored, service, ?_, ?_⟩
  · intro reader value phase
    rw [phase] at spares
    cases spares
  · intro reader phase
    rw [phase] at spares
    cases spares

theorem beginProbe_leaves (snapshot : Option CacheRecord) :
    LeavesRecord cache call (call.beginProbe cache input snapshot) := by
  unfold beginProbe
  split
  · exact leaves_of_not_removes rfl (by simp) rfl
  · exact leaves_of_not_removes rfl (by simp) rfl

theorem afterRead_leaves (reader : Reader) (record : Option CacheRecord) :
    LeavesRecord cache call
      (call.afterRead timings cache input reader record) := by
  cases reader with
  | first =>
      unfold afterRead
      dsimp only
      split
      · exact leaves_of_not_removes rfl rfl rfl
      · exact leaves_of_not_removes rfl rfl rfl
      · exact leaves_of_not_removes rfl rfl rfl
  | recheck =>
      unfold afterRead
      dsimp only
      split
      · exact leaves_of_not_removes rfl rfl rfl
      · exact beginProbe_leaves record
  | winner => exact leaves_of_not_removes rfl rfl rfl
  | last => exact leaves_of_not_removes rfl rfl rfl
  | reread =>
      unfold afterRead
      dsimp only
      split
      · exact leaves_of_not_removes rfl rfl rfl
      · exact leaves_of_not_removes rfl rfl rfl

theorem readFails_leaves (reader : Reader) :
    LeavesRecord cache call (call.readFails timings cache input reader) := by
  cases reader with
  | first => exact leaves_of_not_removes rfl rfl rfl
  | recheck =>
      unfold readFails
      dsimp only
      split
      · exact beginProbe_leaves none
      · exact leaves_of_not_removes rfl rfl rfl
  | winner => exact leaves_of_not_removes rfl rfl rfl
  | last =>
      unfold readFails
      exact afterRead_leaves .last none
  | reread =>
      unfold readFails
      exact afterRead_leaves .reread none

theorem lockStep_leaves :
    LeavesRecord cache call (call.lockStep cache input id) := by
  unfold lockStep Cache.tryAcquireLock
  cases cache.lock with
  | none => exact leaves_of_not_removes rfl rfl rfl
  | some holder =>
      dsimp only
      split
      · exact leaves_of_not_removes rfl (by simp) rfl
      · split
        · exact leaves_of_not_removes rfl rfl rfl
        · exact leaves_of_not_removes rfl rfl rfl

theorem delete_stored (cache : Cache) : cache.delete.stored = none := by
  unfold Cache.delete
  split
  case h_1 absent => exact absent
  case h_2 => rfl

/-- What a step does to the record that the key holds. -/
inductive RecordStep (cache : Cache) (call : Call) (input : StepInput)
    (result : Cache × Call) : Prop where
  | leaves (leaves : LeavesRecord cache call result)
  | finds {reader : Reader} {stored : Stored}
      (reading : call.phase = .reading reader)
      (isStored : cache.stored = some stored)
      (unusable : Unusable call.service stored.value)
      (goesOn : result = (cache, call.at_ (.discarding reader stored.value)) ∨
        result = (cache, call.at_ (.deleting reader)))
  | discards {reader : Reader} {value : Value}
      (discarding : call.phase = .discarding reader value)
      (leaves : LeavesRecord (cache.deleteIfUnchanged value) call result)
  | deletes {reader : Reader} (deleting : call.phase = .deleting reader)
      (acts : input.fails = false)
      (leaves : LeavesRecord cache.delete call result)
  | writes (written : result.1.stored.isSome = true)
      (releases : result.2.phase = .releasing)

theorem readStep_record (reader : Reader)
    (reading : call.phase = .reading reader) :
    RecordStep cache call input (call.readStep timings cache input reader) := by
  unfold readStep
  split
  case h_1 => exact .leaves (afterRead_leaves reader none)
  case h_2 stored isStored =>
    split
    case h_1 unparsed =>
      refine .finds reading isStored ?_ (.inl rfl)
      intro record parsed
      rw [unparsed] at parsed
      cases parsed
    case h_2 record parsed =>
      split
      case isTrue impossible =>
        refine .finds reading isStored ?_ (.inr rfl)
        intro found isFound
        rw [parsed] at isFound
        cases isFound
        simpa using impossible
      case isFalse => exact .leaves (afterRead_leaves reader (some record))

theorem step_record
    (stepped : call.step timings cache input id = some result) :
    RecordStep cache call input result := by
  cases phase : call.phase with
  | reading reader =>
      simp only [Call.step, phase] at stepped
      split at stepped
      case isTrue =>
        cases stepped
        exact .leaves (readFails_leaves reader)
      case isFalse =>
        cases stepped
        exact readStep_record reader phase
  | discarding reader value =>
      simp only [Call.step, phase] at stepped
      split at stepped
      case isTrue =>
        cases stepped
        exact .leaves (readFails_leaves reader)
      case isFalse =>
        cases stepped
        exact .discards phase (afterRead_leaves reader none)
  | deleting reader =>
      simp only [Call.step, phase] at stepped
      split at stepped
      case isTrue =>
        cases stepped
        exact .leaves (readFails_leaves reader)
      case isFalse acts =>
        cases stepped
        refine .deletes phase ?_ (afterRead_leaves reader none)
        simpa using acts
  | locking =>
      simp only [Call.step, phase] at stepped
      split at stepped
      case isTrue =>
        cases stepped
        exact .leaves (leaves_of_not_removes rfl (by simp) rfl)
      case isFalse =>
        cases stepped
        exact .leaves lockStep_leaves
  | sleeping =>
      simp only [Call.step, phase] at stepped
      cases stepped
      exact .leaves (leaves_of_not_removes rfl rfl rfl)
  | probing probe =>
      simp only [Call.step, phase] at stepped
      cases stepped
      unfold probeStep
      split
      · exact .leaves (leaves_of_not_removes rfl rfl rfl)
      · exact .leaves (leaves_of_not_removes rfl rfl rfl)
  | writing probe outcome record =>
      simp only [Call.step, phase] at stepped
      split at stepped
      case isTrue =>
        cases stepped
        exact .leaves (leaves_of_not_removes rfl rfl rfl)
      case isFalse =>
        cases stepped
        unfold writeStep
        split
        · exact .writes rfl rfl
        · exact .leaves (leaves_of_not_removes rfl rfl rfl)
  | releasing =>
      simp only [Call.step, phase] at stepped
      split at stepped
      case isTrue =>
        cases stepped
        exact .leaves (leaves_of_not_removes rfl rfl rfl)
      case isFalse =>
        cases stepped
        refine .leaves (leaves_of_not_removes ?_ rfl rfl)
        dsimp only
        unfold Cache.releaseLock
        split
        · rfl
        · rfl
  | finished =>
      simp only [Call.step, phase] at stepped
      cases stepped

end Call

namespace Reading

/-- A call that is about to remove a value has read it, and cannot use it. -/
structure Remembers (reading : Reading) : Prop where
  discards : ∀ reader value, reading.call.phase = .discarding reader value →
    reading.read = some value ∧ Unusable reading.call.service value
  deletes : ∀ reader, reading.call.phase = .deleting reader →
    ∃ value, reading.read = some value ∧ Unusable reading.call.service value

theorem remembers_start (service : String) : (start service).Remembers := by
  constructor
  · intro reader value phase
    cases phase
  · intro reader phase
    cases phase

variable {timings : Timings} {cache after : Cache} {reading next : Reading}
  {input : StepInput} {id : Nat}

theorem step_cases
    (stepped : reading.step timings cache input id = some (after, next)) :
    Call.RecordStep cache reading.call input (after, next.call) ∧
      next.read = reading.readNext cache := by
  obtain ⟨⟨middle, call⟩, moved, same⟩ := Option.map_eq_some_iff.mp stepped
  cases same
  exact ⟨Call.step_record moved, rfl⟩

theorem remembers_of_settled
    (discards : ∀ reader value, next.call.phase ≠ .discarding reader value)
    (deletes : ∀ reader, next.call.phase ≠ .deleting reader) :
    next.Remembers := by
  constructor
  · intro reader value discarding
    exact absurd discarding (discards reader value)
  · intro reader deleting
    exact absurd deleting (deletes reader)

theorem remembers_step
    (stepped : reading.step timings cache input id = some (after, next)) :
    next.Remembers := by
  obtain ⟨record, read⟩ := step_cases stepped
  cases record with
  | leaves leaves => exact remembers_of_settled leaves.discards leaves.deletes
  | @finds reader stored isReading isStored unusable goesOn =>
      have isRead : next.read = some stored.value := by
        rw [read, readNext, isReading]
        simp [isStored]
      rcases goesOn with goesOn | goesOn
      · have isCall : next.call = _ := congrArg Prod.snd goesOn
        constructor
        · intro other value discarding
          rw [isCall] at discarding
          cases discarding
          rw [isCall]
          exact ⟨isRead, unusable⟩
        · intro other deleting
          rw [isCall] at deleting
          cases deleting
      · have isCall : next.call = _ := congrArg Prod.snd goesOn
        constructor
        · intro other value discarding
          rw [isCall] at discarding
          cases discarding
        · intro other _
          rw [isCall]
          exact ⟨stored.value, isRead, unusable⟩
  | discards _ leaves =>
      exact remembers_of_settled leaves.discards leaves.deletes
  | deletes _ _ leaves =>
      exact remembers_of_settled leaves.discards leaves.deletes
  | writes _ releases =>
      apply remembers_of_settled
      · intro reader value discarding
        rw [releases] at discarding
        cases discarding
      · intro reader deleting
        rw [releases] at deleting
        cases deleting

/-- A step that empties the key removes the value of the phase it is in. -/
theorem removes_cases {stored : Stored} (remembers : reading.Remembers)
    (stepped : reading.step timings cache input id = some (after, next))
    (isStored : cache.stored = some stored) (emptied : after.stored = none) :
    (reading.read = some stored.value ∧
        Unusable reading.call.service stored.value) ∨
      input.fails = false ∧
        ∃ reader, reading.call.phase = .deleting reader := by
  obtain ⟨record, _⟩ := step_cases stepped
  cases record with
  | leaves leaves =>
      have kept := leaves.stored
      rw [isStored, emptied] at kept
      cases kept
  | finds _ _ _ goesOn =>
      have same : after = cache := by
        rcases goesOn with goesOn | goesOn
        · exact congrArg Prod.fst goesOn
        · exact congrArg Prod.fst goesOn
      rw [same, isStored] at emptied
      cases emptied
  | @discards reader value discarding leaves =>
      have found : stored.value = value := by
        by_contra differs
        have kept := leaves.stored
        rw [Cache.deleteIfUnchanged, if_neg (by simpa [isStored] using differs),
          isStored, emptied] at kept
        cases kept
      left
      rw [found]
      exact remembers.discards reader value discarding
  | @deletes reader deleting acts _ => exact .inr ⟨acts, reader, deleting⟩
  | writes written _ =>
      rw [emptied] at written
      cases written

/-- The delete of the core takes effect whatever the key holds. -/
theorem delete_empties {reader : Reader}
    (deleting : reading.call.phase = .deleting reader)
    (acts : input.fails = false) : ∃ after next,
      reading.step timings cache input id = some (after, next) ∧
        after.stored = none := by
  have stepped : reading.call.step timings cache input id =
      some (reading.call.afterRead timings cache.delete input reader none) := by
    simp [Call.step, deleting, acts]
  refine ⟨_, _, congrArg (Option.map _) stepped, ?_⟩
  rw [← Call.delete_stored cache]
  exact (Call.afterRead_leaves reader none).stored

end Reading

/-- Every call remembers what it is about to remove. -/
def Remembered (configuration : Configuration Cache Reading) : Prop :=
  ∀ id reading, configuration.process id = some reading → reading.Remembers

variable {timings : Timings} {configuration next : Configuration Cache Reading}
  {action : Move Reading StepInput Interference}

theorem remembered_move (remembered : Remembered configuration)
    (moved : (readersAndWriters timings).move configuration action =
      some next) :
    Remembered next := by
  cases Program.move_cases moved with
  | @spawn id initial unused starts =>
      intro other reading running
      by_cases same : other = id
      · subst same
        rw [Configuration.set_process_self] at running
        cases running
        have isStart : initial = .start initial.call.service := by
          simpa [readersAndWriters] using starts
        rw [isStart]
        exact Reading.remembers_start _
      · rw [Configuration.set_process_of_ne _ same] at running
        exact remembered other reading running
  | @run id reading after input shared running stepped =>
      intro other held isRunning
      by_cases same : other = id
      · subst same
        rw [Configuration.set_process_self] at isRunning
        cases isRunning
        exact Reading.remembers_step stepped
      · rw [Configuration.set_process_of_ne _ same] at isRunning
        exact remembered other held isRunning
  | outside => exact remembered

theorem sparesOthers_iff (remembered : Remembered configuration) :
    SparesOthers timings configuration action ↔
      DeletesAsRead configuration action := by
  constructor
  · intro spares
    cases action with
    | spawn id initial => trivial
    | outside interference => trivial
    | run id input =>
        intro reading reader stored running deleting acts isStored
        obtain ⟨after, held, stepped, emptied⟩ : ∃ after held,
            (readersAndWriters timings).step id configuration.shared reading
              input = some (after, held) ∧ after.stored = none :=
          Reading.delete_empties deleting acts
        have moved := Program.Moved.move (.run running stepped)
        rcases spares _ stored moved isStored emptied with expired | reads
        · cases expired
        · obtain ⟨_, _, found, ⟨⟩, isFound, isRead, _⟩ := reads
          rw [running] at isFound
          cases isFound
          exact isRead
  · intro asRead after stored moved isStored emptied
    cases Program.move_cases moved with
    | spawn =>
        rw [Configuration.set_shared, isStored] at emptied
        cases emptied
    | @run id reading held input shared running stepped =>
        right
        have remembers := remembered id reading running
        refine ⟨id, input, reading, rfl, running, ?_⟩
        rcases Reading.removes_cases remembers stepped isStored emptied with
          reads | ⟨acts, reader, deleting⟩
        · exact reads
        · have isRead := asRead reading reader stored running deleting acts
            isStored
          obtain ⟨value, isValue, unusable⟩ := remembers.deletes reader deleting
          rw [isRead] at isValue
          cases isValue
          exact ⟨isRead, unusable⟩
    | @outside interference shared changed =>
        cases interference with
        | expires expiry =>
            cases expiry with
            | record => exact .inl rfl
            | lock =>
                cases changed
                rw [isStored] at emptied
                cases emptied
        | stores value =>
            cases changed
            cases emptied

/-- In every run the readers remove nothing but what they have read and found
unusable, if and only if every delete of a record that cannot be finds the key
empty or as it was read. -/
theorem cleanup_spares_others_iff (timings : Timings) (value : Option Value)
    (schedule : List (Move Reading StepInput Interference)) :
    EveryStep (readersAndWriters timings).move (SparesOthers timings)
        (.start (.initial value)) schedule ↔
      EveryStep (readersAndWriters timings).move DeletesAsRead
        (.start (.initial value)) schedule := by
  have preserved : ∀ configuration action next, Remembered configuration →
      (readersAndWriters timings).move configuration action = some next →
      Remembered next := fun _ _ _ => remembered_move
  apply everyStep_congr_of_invariant preserved
  · intro configuration action remembered
    exact sparesOthers_iff remembered
  · intro id reading running
    cases running

/-- A success without a descriptor, as another build may have stored it. -/
def sampleImpossible : Value := .record ⟨1, none, 0, .ok, 0, none⟩

/-- Both calls read the record that cannot be; the second removes it, probes and
writes before the first comes to its delete. -/
def sampleLateDelete : List (Move Reading StepInput Interference) :=
  [.spawn 0 (.start "iam"), .spawn 1 (.start "iam"),
    .run 0 ⟨0, false, false, .fail .timeout⟩,
    .run 1 ⟨0, false, false, .fail .timeout⟩,
    .run 1 ⟨0, false, false, .fail .timeout⟩,
    .run 1 ⟨0, false, false, .fail .timeout⟩,
    .run 1 ⟨0, false, false, .fail .timeout⟩,
    .run 1 ⟨0, false, false, .ok ⟨"iam", "1", []⟩⟩,
    .run 1 ⟨0, false, false, .fail .timeout⟩]

theorem late_delete_removes : ¬ ∀ (timings : Timings) (value : Option Value)
    (schedule : List (Move Reading StepInput Interference)),
    EveryStep (readersAndWriters timings).move (SparesOthers timings)
      (.start (.initial value)) schedule := by
  intro always
  have run : runFrom (readersAndWriters ⟨10000, 60000, 2500⟩).move
      (.start (.initial (some sampleImpossible))) sampleLateDelete =
        some _ := rfl
  have spares := always ⟨10000, 60000, 2500⟩ (some sampleImpossible)
    (sampleLateDelete ++ [Move.run 0 ⟨0, false, false, .fail .timeout⟩])
  obtain ⟨here, _⟩ := ((everyStep_append run).mp spares).2
  rcases here _ _ rfl rfl rfl with expired | reads
  · cases expired
  · obtain ⟨_, _, reading, ⟨⟩, running, isRead, _⟩ := reads
    cases running
    exact absurd isRead (by decide)

end Paigasus.Discovery
