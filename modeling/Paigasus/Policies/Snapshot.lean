import Mathlib.Logic.Function.Basic
import Paigasus.Foundation.EventLog
import Paigasus.Foundation.Transition
import Paigasus.Policies.Engine

/-!
# The compiled policy snapshot

Writers commit a change of the stored policies or grants and then bump the
policy generation.  A load reads the generation, claims a sequence number,
lists the two tables, compiles them and installs the result; every reload
holds the reload gate from before its generation read until after its install.
The steps of any number of calls and writers interleave, and the log keeps the
moments at which they read, committed, bumped and installed.
-/

namespace Paigasus.Policies.Snapshot

open Foundation Core Cedar

variable {Condition : Type}

/-- The two stored tables that a load lists. -/
structure Tables where
  docs : List PolicyDocument
  grants : List RoleGrant
deriving DecidableEq

/-- The generation of a compiled set; it is not trusted when it was carried
over because the counter could not be read. -/
structure Stamp where
  gen : Nat
  trusted : Bool
deriving DecidableEq

structure SnapshotState (Condition : Type) where
  compiled : PolicySet Condition
  stamp : Stamp
  installedSeq : Nat

inductive Caller where
  | new
  | reloadIfStale
  | reloadNow
deriving DecidableEq

/-- Where a call of the snapshot stands. -/
inductive Phase (Condition : Type) where
  | readState
  | readStoreGen (currentGen : Nat)
  | tryLock (storeGen : Nat)
  | recheck (storeGen : Nat)
  | lock
  | readFallback
  | readGen (fallbackGen : Nat)
  | claim (stamp : Stamp)
  | listDocs (stamp : Stamp) (seq : Nat)
  | listGrants (stamp : Stamp) (seq : Nat) (docs : List PolicyDocument)
  | compile (stamp : Stamp) (seq : Nat) (docs : List PolicyDocument)
      (grants : List RoleGrant)
  | install (stamp : Stamp) (seq : Nat) (compiled : PolicySet Condition)
  | done

inductive WriterPhase where
  | committed
  | bumped
deriving DecidableEq

inductive Event (Condition : Type) where
  | committed (writer : Nat) (tables : Tables)
  | bumped (writer : Nat)
  | generationRead (call : Nat) (gen : Option Nat)
  | claimed (call seq : Nat)
  | docsRead (call : Nat) (docs : List PolicyDocument)
  | grantsRead (call : Nat) (grants : List RoleGrant)
  | installed (call : Nat) (state : SnapshotState Condition)
  | rejected (call : Nat)
  | failed (call : Nat)

structure World (Condition : Type) where
  tables : Tables
  generation : Nat
  writers : Nat → Option WriterPhase
  snapshot : Option (SnapshotState Condition)
  loadSeq : Nat
  /-- The call that holds the reload gate.  The constructing call counts as
  its holder: no other call can reach the object yet. -/
  gate : Option Nat
  calls : Nat → Option (Phase Condition)
  log : List (Event Condition)

inductive Action where
  | commit (writer : Nat) (tables : Tables)
  | bump (writer : Nat)
  /-- The counter is raised by a repair, without a writer. -/
  | raise (delta : Nat)
  | start (call : Nat) (caller : Caller)
  /-- The next step of a call; `fails` is the answer of its store. -/
  | advance (call : Nat) (fails : Bool)
  /-- The future of a call is dropped. -/
  | cancel (call : Nat)
deriving DecidableEq

namespace World

def initial (tables : Tables) (generation : Nat) : World Condition where
  tables := tables
  generation := generation
  writers := fun _ => none
  snapshot := none
  loadSeq := 0
  gate := none
  calls := fun _ => none
  log := []

def moveTo (world : World Condition) (call : Nat) (phase : Phase Condition) :
    World Condition :=
  { world with calls := Function.update world.calls call (some phase) }

def record (world : World Condition) (event : Event Condition) :
    World Condition :=
  { world with log := world.log ++ [event] }

/-- The call returns and its gate guard, if it holds one, is dropped. -/
def finish (world : World Condition) (call : Nat) : World Condition :=
  { world with
    calls := Function.update world.calls call (some .done)
    gate := if world.gate = some call then none else world.gate }

def fail (world : World Condition) (call : Nat) : World Condition :=
  (world.record (.failed call)).finish call

def installIfFresher (world : World Condition) (call : Nat)
    (state : SnapshotState Condition) : World Condition :=
  if ∀ installed ∈ world.snapshot,
      installed.installedSeq < state.installedSeq then
    ({ world with snapshot := some state }.record
      (.installed call state)).finish call
  else
    (world.record (.rejected call)).finish call

def commit (world : World Condition) (writer : Nat) (tables : Tables) :
    World Condition :=
  { world with
    tables
    writers := Function.update world.writers writer
      (some .committed) }.record (.committed writer tables)

def bump (world : World Condition) (writer : Nat) : World Condition :=
  { world with
    generation := world.generation + 1
    writers := Function.update world.writers writer (some .bumped) }.record
      (.bumped writer)

def start (world : World Condition) (call : Nat) :
    Caller → Option (World Condition)
  | .new =>
      match world.calls call, world.snapshot, world.gate with
      | none, none, none =>
          some ({ world with gate := some call, loadSeq := 0 }.moveTo call
            (.readGen 0))
      | _, _, _ => none
  | .reloadIfStale =>
      match world.calls call, world.snapshot with
      | none, some _ => some (world.moveTo call .readState)
      | _, _ => none
  | .reloadNow =>
      match world.calls call, world.snapshot with
      | none, some _ => some (world.moveTo call .lock)
      | _, _ => none

/-- The steps of `reload_if_stale` and `reload_now` around the load. -/
def advanceCaller (world : World Condition) (call : Nat) (fails : Bool) :
    Phase Condition → Option (World Condition)
  | .readState =>
      world.snapshot.map fun state =>
        if state.stamp.trusted then
          world.moveTo call (.readStoreGen state.stamp.gen)
        else
          world.finish call
  | .readStoreGen currentGen =>
      if fails then
        some (world.fail call)
      else if world.generation = currentGen then
        some (world.finish call)
      else
        some (world.moveTo call (.tryLock world.generation))
  | .tryLock storeGen =>
      if world.gate.isSome then
        some (world.finish call)
      else
        some ({ world with gate := some call }.moveTo call
          (.recheck storeGen))
  | .recheck storeGen =>
      world.snapshot.map fun state =>
        if state.stamp.trusted = false ∨ storeGen = state.stamp.gen then
          world.finish call
        else
          world.moveTo call (.readGen state.stamp.gen)
  | .lock =>
      if world.gate.isSome then
        none
      else
        some ({ world with gate := some call }.moveTo call .readFallback)
  | .readFallback =>
      world.snapshot.map fun state =>
        world.moveTo call (.readGen state.stamp.gen)
  | _ => none

/-- The steps of `load_and_compile` and the install that follows it. -/
def advanceLoad (frontend : Frontend Condition) (world : World Condition)
    (call : Nat) (fails : Bool) : Phase Condition → Option (World Condition)
  | .readGen fallbackGen =>
      if fails then
        some ((world.record (.generationRead call none)).moveTo call
          (.claim ⟨fallbackGen, false⟩))
      else
        some ((world.record
          (.generationRead call (some world.generation))).moveTo call
            (.claim ⟨world.generation, true⟩))
  | .claim stamp =>
      let seq := world.loadSeq + 1
      some (({ world with loadSeq := seq }.record (.claimed call seq)).moveTo
        call (.listDocs stamp seq))
  | .listDocs stamp seq =>
      if fails then
        some (world.fail call)
      else
        let docs := world.tables.docs
        some ((world.record (.docsRead call docs)).moveTo call
          (.listGrants stamp seq docs))
  | .listGrants stamp seq docs =>
      if fails then
        some (world.fail call)
      else
        let grants := world.tables.grants
        some ((world.record (.grantsRead call grants)).moveTo call
          (.compile stamp seq docs grants))
  | .compile stamp seq docs grants =>
      match compile frontend docs grants with
      | .error _ => some (world.fail call)
      | .ok compiled => some (world.moveTo call (.install stamp seq compiled))
  | .install stamp seq compiled =>
      some (world.installIfFresher call ⟨compiled, stamp, seq⟩)
  | _ => none

def advance (frontend : Frontend Condition) (world : World Condition)
    (call : Nat) (fails : Bool) : Option (World Condition) :=
  match world.calls call with
  | none => none
  | some phase =>
      (world.advanceCaller call fails phase).or
        (world.advanceLoad frontend call fails phase)

def step (frontend : Frontend Condition) (world : World Condition) :
    Action → Option (World Condition)
  | .commit writer tables =>
      match world.writers writer with
      | some _ => none
      | none => some (world.commit writer tables)
  | .bump writer =>
      match world.writers writer with
      | some .committed => some (world.bump writer)
      | _ => none
  | .raise delta => some { world with generation := world.generation + delta }
  | .start call caller => world.start call caller
  | .advance call fails => world.advance frontend call fails
  | .cancel call =>
      match world.calls call with
      | none | some .done => none
      | some _ => some (world.finish call)

end World

namespace Event

/-- The call whose step the event is. -/
def call? : Event Condition → Option Nat
  | .committed _ _ => none
  | .bumped _ => none
  | .generationRead call _ => some call
  | .claimed call _ => some call
  | .docsRead call _ => some call
  | .grantsRead call _ => some call
  | .installed call _ => some call
  | .rejected call => some call
  | .failed call => some call

/-- The event is a read of a load: of the generation or of a table. -/
def IsReadOf (event : Event Condition) (call : Nat) : Prop :=
  (∃ gen, event = .generationRead call gen) ∨
    (∃ docs, event = .docsRead call docs) ∨
    ∃ grants, event = .grantsRead call grants

def installed? : Event Condition → Option (SnapshotState Condition)
  | .installed _ state => some state
  | _ => none

end Event

/-- The committed tables at a moment of the log. -/
def tablesAt (initial : Tables) (log : List (Event Condition))
    (moment : Nat) : Tables :=
  (log.take moment).foldl
    (fun tables event =>
      match event with
      | .committed _ committed => committed
      | _ => tables) initial

/-- The snapshot of the last install of the log. -/
def lastInstalled (log : List (Event Condition)) :
    Option (SnapshotState Condition) :=
  (log.filterMap Event.installed?).getLast?

section Evidence

variable {start : Tables} {log next : List (Event Condition)}
  {gen nextGen : Nat}

/-- The stamp was read before `limit`; as long as it equals the counter, every
bump of the log was before that read. -/
def Observed (log : List (Event Condition)) (gen call : Nat) (stamp : Stamp)
    (limit : Nat) : Prop :=
  stamp.trusted = true →
    ∃ moment, moment < limit ∧
      log[moment]? = some (.generationRead call (some stamp.gen)) ∧
      stamp.gen ≤ gen ∧
      (stamp.gen = gen → ∀ bump writer,
        log[bump]? = some (.bumped writer) → bump < moment)

/-- The documents are the stored ones at a moment after the stamp was read. -/
def ListedDocs (start : Tables) (log : List (Event Condition))
    (gen call : Nat) (stamp : Stamp) (docs : List PolicyDocument)
    (docsAt : Nat) : Prop :=
  log[docsAt]? = some (.docsRead call docs) ∧
    docs = (tablesAt start log docsAt).docs ∧
    Observed log gen call stamp docsAt

def ListedGrants (start : Tables) (log : List (Event Condition))
    (call : Nat) (grants : List RoleGrant) (grantsAt : Nat) : Prop :=
  log[grantsAt]? = some (.grantsRead call grants) ∧
    grants = (tablesAt start log grantsAt).grants

/-- Both tables were listed, the grants after the documents. -/
def Listed (start : Tables) (log : List (Event Condition)) (gen call : Nat)
    (stamp : Stamp) (docs : List PolicyDocument) (grants : List RoleGrant) :
    Prop :=
  ∃ docsAt grantsAt, docsAt < grantsAt ∧
    ListedDocs start log gen call stamp docs docsAt ∧
    ListedGrants start log call grants grantsAt

/-- The set was compiled from two lists of the named call. -/
def CompiledFrom (frontend : Frontend Condition) (start : Tables)
    (log : List (Event Condition)) (gen call : Nat) (stamp : Stamp)
    (compiled : PolicySet Condition) : Prop :=
  ∃ docs grants, compile frontend docs grants = .ok compiled ∧
    Listed start log gen call stamp docs grants

/-- What one step can do to the log and to the counter: a step that leaves the
counter as it is records no bump. -/
structure Grows (log next : List (Event Condition)) (gen nextGen : Nat) :
    Prop where
  appended : ∃ events, next = log ++ events ∧
    (nextGen = gen → ∀ writer, .bumped writer ∉ events)
  monotone : gen ≤ nextGen

theorem Grows.at (grows : Grows log next gen nextGen) {moment : Nat}
    {event : Event Condition} (found : log[moment]? = some event) :
    next[moment]? = some event := by
  obtain ⟨events, rfl, _⟩ := grows.appended
  rw [List.getElem?_append_left (at_lt found)]
  exact found

theorem Grows.tablesAt (grows : Grows log next gen nextGen) {moment : Nat}
    {event : Event Condition} (found : log[moment]? = some event) :
    Snapshot.tablesAt start next moment =
      Snapshot.tablesAt start log moment := by
  obtain ⟨events, rfl, _⟩ := grows.appended
  have inLog := at_lt found
  rw [Snapshot.tablesAt, List.take_append_of_le_length (by omega)]
  rfl

theorem Observed.grow {call limit : Nat} {stamp : Stamp}
    (observed : Observed log gen call stamp limit)
    (grows : Grows log next gen nextGen) :
    Observed next nextGen call stamp limit := by
  intro trusted
  obtain ⟨moment, before, read, atMost, bumps⟩ := observed trusted
  have monotone := grows.monotone
  refine ⟨moment, before, grows.at read, by omega, ?_⟩
  intro current bump writer bumped
  have sameGen : nextGen = gen := by omega
  obtain ⟨events, rfl, noBump⟩ := grows.appended
  by_cases inLog : bump < log.length
  · rw [List.getElem?_append_left inLog] at bumped
    exact bumps (current.trans sameGen) bump writer bumped
  · rw [List.getElem?_append_right (by omega)] at bumped
    exact absurd (List.mem_of_getElem? bumped) (noBump sameGen writer)

theorem ListedDocs.grow {call docsAt : Nat} {stamp : Stamp}
    {docs : List PolicyDocument}
    (listed : ListedDocs start log gen call stamp docs docsAt)
    (grows : Grows log next gen nextGen) :
    ListedDocs start next nextGen call stamp docs docsAt := by
  obtain ⟨read, stored, observed⟩ := listed
  refine ⟨grows.at read, ?_, observed.grow grows⟩
  rw [grows.tablesAt read]
  exact stored

theorem ListedGrants.grow {call grantsAt : Nat} {grants : List RoleGrant}
    (listed : ListedGrants start log call grants grantsAt)
    (grows : Grows log next gen nextGen) :
    ListedGrants start next call grants grantsAt := by
  obtain ⟨read, stored⟩ := listed
  refine ⟨grows.at read, ?_⟩
  rw [grows.tablesAt read]
  exact stored

theorem Listed.grow {call : Nat} {stamp : Stamp}
    {docs : List PolicyDocument} {grants : List RoleGrant}
    (listed : Listed start log gen call stamp docs grants)
    (grows : Grows log next gen nextGen) :
    Listed start next nextGen call stamp docs grants := by
  obtain ⟨docsAt, grantsAt, ordered, docsListed, grantsListed⟩ := listed
  exact ⟨docsAt, grantsAt, ordered, docsListed.grow grows,
    grantsListed.grow grows⟩

theorem CompiledFrom.grow {frontend : Frontend Condition} {call : Nat}
    {stamp : Stamp} {compiled : PolicySet Condition}
    (compiledFrom : CompiledFrom frontend start log gen call stamp compiled)
    (grows : Grows log next gen nextGen) :
    CompiledFrom frontend start next nextGen call stamp compiled := by
  obtain ⟨docs, grants, compiles, listed⟩ := compiledFrom
  exact ⟨docs, grants, compiles, listed.grow grows⟩

/-- What a call of a load has gathered so far. -/
def Gathered (frontend : Frontend Condition) (start : Tables)
    (log : List (Event Condition)) (gen call : Nat) :
    Phase Condition → Prop
  | .claim stamp => Observed log gen call stamp log.length
  | .listDocs stamp _ => Observed log gen call stamp log.length
  | .listGrants stamp _ docs =>
      ∃ docsAt, ListedDocs start log gen call stamp docs docsAt
  | .compile stamp _ docs grants =>
      Listed start log gen call stamp docs grants
  | .install stamp _ compiled =>
      CompiledFrom frontend start log gen call stamp compiled
  | _ => True

theorem Observed.later {call limit later : Nat} {stamp : Stamp}
    (observed : Observed log gen call stamp limit) (after : limit ≤ later) :
    Observed log gen call stamp later := by
  intro trusted
  obtain ⟨moment, before, rest⟩ := observed trusted
  exact ⟨moment, by omega, rest⟩

theorem Gathered.grow {frontend : Frontend Condition} {call : Nat}
    {phase : Phase Condition}
    (gathered : Gathered frontend start log gen call phase)
    (grows : Grows log next gen nextGen) :
    Gathered frontend start next nextGen call phase := by
  have longer : log.length ≤ next.length := by
    obtain ⟨events, rfl, _⟩ := grows.appended
    simp
  cases phase with
  | claim stamp => exact (Observed.grow gathered grows).later longer
  | listDocs stamp seq => exact (Observed.grow gathered grows).later longer
  | listGrants stamp seq docs =>
      obtain ⟨docsAt, listed⟩ := gathered
      exact ⟨docsAt, listed.grow grows⟩
  | compile stamp seq docs grants => exact Listed.grow gathered grows
  | install stamp seq compiled => exact CompiledFrom.grow gathered grows
  | _ => trivial

end Evidence

namespace Phase

/-- The call has not reached the gate yet. -/
def isWaiting : Phase Condition → Bool
  | .readState => true
  | .readStoreGen _ => true
  | .tryLock _ => true
  | .lock => true
  | _ => false

/-- The call holds the gate. -/
def isHolding : Phase Condition → Bool
  | .done => false
  | phase => !phase.isWaiting

theorem not_waiting_of_holding {phase : Phase Condition}
    (isHolding : phase.isHolding = true) : phase.isWaiting = false := by
  cases phase <;> first | rfl | cases isHolding

end Phase

/-- The log has no event of the call. -/
def Quiet (log : List (Event Condition)) (call : Nat) : Prop :=
  ∀ event ∈ log, event.call? ≠ some call

/-- Every event of the call comes after every install, and none of them is a
failure. -/
structure Leads (log : List (Event Condition)) (call : Nat) : Prop where
  afterInstalls : ∀ (moment : Nat) event, log[moment]? = some event →
    event.call? = some call → ∀ (earlier : Nat) other state,
      log[earlier]? = some (.installed other state) → earlier < moment
  notFailed : .failed call ∉ log

theorem Quiet.leads {log : List (Event Condition)} {call : Nat}
    (quiet : Quiet log call) : Leads log call where
  afterInstalls := by
    intro moment event found own
    exact absurd own (quiet event (List.mem_of_getElem? found))
  notFailed := by
    intro failed
    exact quiet _ failed rfl

theorem Leads.notInstalled {log : List (Event Condition)} {call : Nat}
    (leads : Leads log call) (state : SnapshotState Condition) :
    .installed call state ∉ log := by
  intro member
  obtain ⟨moment, found⟩ := List.getElem?_of_mem member
  have before := leads.afterInstalls moment _ found rfl moment call state found
  omega

structure Sound (frontend : Frontend Condition) (start : Tables)
    (world : World Condition) : Prop where
  tables : world.tables = tablesAt start world.log world.log.length
  writers : ∀ writer, world.writers writer = some .committed →
    ∃ tables, .committed writer tables ∈ world.log
  bumps : ∀ (bump : Nat) writer, world.log[bump]? = some (.bumped writer) →
    ∃ commit tables, commit < bump ∧
      world.log[commit]? = some (.committed writer tables)
  waiting : ∀ call phase, world.calls call = some phase →
    phase.isWaiting = true → Quiet world.log call
  unused : ∀ call, world.calls call = none → Quiet world.log call
  holding : ∀ call phase, world.calls call = some phase →
    phase.isHolding = true → world.gate = some call ∧ Leads world.log call
  gathered : ∀ call phase, world.calls call = some phase →
    Gathered frontend start world.log world.generation call phase
  ordered : ∀ (earlier later : Nat) left right leftState rightState,
    world.log[earlier]? = some (.installed left leftState) →
    world.log[later]? = some (.installed right rightState) →
    earlier < later → ∀ (moment : Nat) event,
      world.log[moment]? = some event → event.IsReadOf right →
      earlier < moment
  snapshot : world.snapshot = lastInstalled world.log
  current : ∀ state, world.snapshot = some state → ∃ call,
    CompiledFrom frontend start world.log world.generation call state.stamp
      state.compiled
  failures : ∀ call, .failed call ∈ world.log → ∀ state,
    .installed call state ∉ world.log

theorem tablesAt_append {start : Tables} {log : List (Event Condition)}
    (event : Event Condition) :
    tablesAt start (log ++ [event]) (log ++ [event]).length =
      match event with
      | .committed _ committed => committed
      | _ => tablesAt start log log.length := by
  simp only [tablesAt, List.take_length, List.foldl_append, List.foldl_cons,
    List.foldl_nil]

theorem tablesAt_now {start : Tables} {log : List (Event Condition)}
    (event : Event Condition) :
    tablesAt start (log ++ [event]) log.length =
      tablesAt start log log.length := by
  simp [tablesAt]

theorem lastInstalled_append {log : List (Event Condition)}
    (event : Event Condition) :
    lastInstalled (log ++ [event]) =
      match event with
      | .installed _ state => some state
      | _ => lastInstalled log := by
  cases event <;>
    simp [lastInstalled, List.filterMap_append, Event.installed?]

theorem grows_of_ne {log : List (Event Condition)} {gen : Nat}
    {event : Event Condition} (notBump : ∀ writer, event ≠ .bumped writer) :
    Grows log (log ++ [event]) gen gen where
  appended := by
    refine ⟨[event], rfl, ?_⟩
    intro _ writer member
    exact notBump writer (List.mem_singleton.mp member).symm
  monotone := le_rfl

theorem Quiet.append {log : List (Event Condition)} {call : Nat}
    {event : Event Condition} (quiet : Quiet log call)
    (other : event.call? ≠ some call) : Quiet (log ++ [event]) call := by
  intro found member
  rcases List.mem_append.mp member with old | isNew
  · exact quiet found old
  · rw [List.mem_singleton.mp isNew]
    exact other

theorem Leads.append {log : List (Event Condition)} {call : Nat}
    {event : Event Condition} (leads : Leads log call)
    (notInstall : ∀ other state, event ≠ .installed other state)
    (notFailure : event ≠ .failed call) : Leads (log ++ [event]) call where
  afterInstalls := by
    intro moment found foundAt own earlier other state installed
    rcases at_append.mp installed with old | ⟨_, isNew⟩
    · rcases at_append.mp foundAt with oldFound | ⟨isLast, _⟩
      · exact leads.afterInstalls moment found oldFound own earlier other
          state old
      · rw [isLast]
        exact at_lt old
    · exact absurd isNew (notInstall other state)
  notFailed := by
    intro member
    rcases List.mem_append.mp member with old | isNew
    · exact leads.notFailed old
    · exact notFailure (List.mem_singleton.mp isNew).symm

namespace Sound

variable {frontend : Frontend Condition} {start : Tables}
  {world : World Condition}

theorem initial (frontend : Frontend Condition) (start : Tables)
    (generation : Nat) :
    Sound frontend start (World.initial start generation) where
  tables := rfl
  writers := by simp [World.initial]
  bumps := by simp [World.initial]
  waiting := by simp [World.initial]
  unused := by simp [World.initial, Quiet]
  holding := by simp [World.initial]
  gathered := by simp [World.initial]
  ordered := by simp [World.initial]
  snapshot := rfl
  current := by simp [World.initial]
  failures := by simp [World.initial]

theorem moveTo {call : Nat} {phase : Phase Condition}
    (sound : Sound frontend start world)
    (waiting : phase.isWaiting = true → Quiet world.log call)
    (holding : phase.isHolding = true →
      world.gate = some call ∧ Leads world.log call)
    (gathered : Gathered frontend start world.log world.generation call
      phase) :
    Sound frontend start (world.moveTo call phase) := by
  have moved : ∀ other otherPhase,
      (world.moveTo call phase).calls other = some otherPhase →
      (other = call ∧ otherPhase = phase) ∨
        world.calls other = some otherPhase := by
    intro other otherPhase found
    by_cases same : other = call
    · subst same
      simp only [World.moveTo, Function.update_self, Option.some.injEq]
        at found
      exact .inl ⟨rfl, found.symm⟩
    · simp only [World.moveTo, Function.update_of_ne same] at found
      exact .inr found
  refine { sound with waiting := ?_, unused := ?_, holding := ?_, gathered := ?_ }
  · intro other otherPhase found
    rcases moved other otherPhase found with ⟨rfl, rfl⟩ | old
    · exact waiting
    · exact sound.waiting other otherPhase old
  · intro other found
    by_cases same : other = call
    · subst same
      simp [World.moveTo] at found
    · simp only [World.moveTo, Function.update_of_ne same] at found
      exact sound.unused other found
  · intro other otherPhase found
    rcases moved other otherPhase found with ⟨rfl, rfl⟩ | old
    · exact holding
    · exact sound.holding other otherPhase old
  · intro other otherPhase found
    rcases moved other otherPhase found with ⟨rfl, rfl⟩ | old
    · exact gathered
    · exact sound.gathered other otherPhase old

theorem finish (sound : Sound frontend start world) (call : Nat) :
    Sound frontend start (world.finish call) := by
  have moved : Sound frontend start (world.moveTo call .done) := by
    apply sound.moveTo
    · intro isWaiting
      cases isWaiting
    · intro isHolding
      cases isHolding
    · trivial
  refine { moved with holding := ?_ }
  intro other phase found isHolding
  obtain ⟨held, leads⟩ := moved.holding other phase found isHolding
  refine ⟨?_, leads⟩
  by_cases same : other = call
  · subst same
    simp only [World.finish, Function.update_self, Option.some.injEq] at found
    rw [← found] at isHolding
    cases isHolding
  · have held : world.gate = some other := held
    simp [World.finish, held, same]

/-- The gate is taken by a call that has not recorded anything. -/
theorem acquire (sound : Sound frontend start world)
    (free : world.gate = none) (gate : Option Nat) :
    Sound frontend start { world with gate } := by
  refine { sound with holding := ?_ }
  intro other phase found isHolding
  have held := (sound.holding other phase found isHolding).1
  rw [free] at held
  cases held

/-- A step that appends one event, other than an install, and leaves the calls
and the snapshot as they are. -/
theorem extend (sound : Sound frontend start world)
    (event : Event Condition) (next : World Condition)
    (appended : next.log = world.log ++ [event])
    (sameCalls : next.calls = world.calls)
    (sameGate : next.gate = world.gate)
    (sameSnapshot : next.snapshot = world.snapshot)
    (grows : Grows world.log next.log world.generation next.generation)
    (tables : next.tables = tablesAt start next.log next.log.length)
    (writers : ∀ writer, next.writers writer = some .committed →
      ∃ tables, .committed writer tables ∈ next.log)
    (bumps : ∀ (bump : Nat) writer,
      next.log[bump]? = some (.bumped writer) →
      ∃ commit tables, commit < bump ∧
        next.log[commit]? = some (.committed writer tables))
    (notInstall : ∀ call state, event ≠ .installed call state)
    (own : ∀ call, event.call? = some call →
      ∃ phase, world.calls call = some phase ∧ phase.isWaiting = false)
    (failing : ∀ call, event = .failed call →
      world.calls call = some .done ∧
        ∀ state, .installed call state ∉ world.log) :
    Sound frontend start next where
  tables := tables
  writers := writers
  bumps := bumps
  waiting := by
    intro call phase found isWaiting
    rw [sameCalls] at found
    rw [appended]
    apply (sound.waiting call phase found isWaiting).append
    intro isOwn
    obtain ⟨other, otherFound, notWaiting⟩ := own call isOwn
    rw [found] at otherFound
    cases otherFound
    rw [notWaiting] at isWaiting
    cases isWaiting
  unused := by
    intro call unused
    rw [sameCalls] at unused
    rw [appended]
    apply (sound.unused call unused).append
    intro isOwn
    obtain ⟨other, otherFound, _⟩ := own call isOwn
    rw [unused] at otherFound
    cases otherFound
  holding := by
    intro call phase found isHolding
    rw [sameCalls] at found
    rw [appended, sameGate]
    obtain ⟨held, leads⟩ := sound.holding call phase found isHolding
    refine ⟨held, leads.append notInstall ?_⟩
    intro isFailure
    have isDone := (failing call isFailure).1
    rw [found] at isDone
    cases isDone
    cases isHolding
  gathered := by
    intro call phase found
    rw [sameCalls] at found
    exact (sound.gathered call phase found).grow grows
  ordered := by
    intro earlier later left right leftState rightState leftAt rightAt before
      moment found foundAt isRead
    rw [appended] at leftAt rightAt foundAt
    rcases at_append.mp leftAt with leftOld | ⟨_, isNew⟩
    · rcases at_append.mp rightAt with rightOld | ⟨_, isNew⟩
      · rcases at_append.mp foundAt with old | ⟨isLast, _⟩
        · exact sound.ordered earlier later left right leftState rightState
            leftOld rightOld before moment found old isRead
        · rw [isLast]
          exact at_lt leftOld
      · exact absurd isNew (notInstall right rightState)
    · exact absurd isNew (notInstall left leftState)
  snapshot := by
    rw [sameSnapshot, appended, lastInstalled_append, sound.snapshot]
    cases event with
    | installed call state => exact absurd rfl (notInstall call state)
    | _ => rfl
  current := by
    intro state installed
    rw [sameSnapshot] at installed
    obtain ⟨call, compiledFrom⟩ := sound.current state installed
    exact ⟨call, compiledFrom.grow grows⟩
  failures := by
    intro call failed state installed
    rw [appended] at failed installed
    have oldInstall : .installed call state ∈ world.log := by
      rcases List.mem_append.mp installed with old | isNew
      · exact old
      · exact absurd (List.mem_singleton.mp isNew).symm
          (notInstall call state)
    rcases List.mem_append.mp failed with old | isNew
    · exact sound.failures call old state oldInstall
    · exact (failing call (List.mem_singleton.mp isNew).symm).2 state
        oldInstall

theorem bumps_append {event : Event Condition}
    (sound : Sound frontend start world)
    (notBump : ∀ writer, event ≠ .bumped writer) :
    ∀ (bump : Nat) writer,
      (world.log ++ [event])[bump]? = some (.bumped writer) →
      ∃ commit tables, commit < bump ∧
        (world.log ++ [event])[commit]? =
          some (.committed writer tables) := by
  intro bump writer bumped
  rcases at_append.mp bumped with old | ⟨_, isNew⟩
  · obtain ⟨commit, tables, before, committed⟩ := sound.bumps bump writer old
    exact ⟨commit, tables, before, at_append_of_at committed⟩
  · exact absurd isNew (notBump writer)

/-- An event of a call that has reached the gate, other than an install. -/
theorem record {event : Event Condition} {call : Nat}
    (sound : Sound frontend start world) (own : event.call? = some call)
    (reached : ∃ phase, world.calls call = some phase ∧
      phase.isWaiting = false)
    (notInstall : ∀ call state, event ≠ .installed call state)
    (failing : ∀ call, event = .failed call →
      world.calls call = some .done ∧
        ∀ state, .installed call state ∉ world.log) :
    Sound frontend start (world.record event) := by
  have notBump : ∀ writer, event ≠ .bumped writer := by
    rintro writer rfl
    cases own
  apply sound.extend event (world.record event) rfl rfl rfl rfl
    (grows_of_ne notBump) _ _ (sound.bumps_append notBump) notInstall _
    failing
  · change world.tables = tablesAt start (world.log ++ [event])
      (world.log ++ [event]).length
    rw [tablesAt_append, sound.tables]
    cases event with
    | committed writer tables => cases own
    | _ => rfl
  · intro writer committed
    obtain ⟨tables, member⟩ := sound.writers writer committed
    exact ⟨tables, List.mem_append_left _ member⟩
  · intro other otherOwn
    rw [own] at otherOwn
    cases otherOwn
    exact reached

theorem fail {call : Nat} (sound : Sound frontend start world)
    (notInstalled : ∀ state, .installed call state ∉ world.log) :
    Sound frontend start (world.fail call) := by
  change Sound frontend start ((world.finish call).record (.failed call))
  have isDone : (world.finish call).calls call = some .done := by
    simp [World.finish]
  apply (sound.finish call).record rfl ⟨.done, isDone, rfl⟩
  · intro other state isInstall
    cases isInstall
  · intro other isFailure
    cases isFailure
    exact ⟨isDone, notInstalled⟩

/-- The install of a load by the holder of the gate. -/
theorem install {call : Nat} {state : SnapshotState Condition}
    (sound : Sound frontend start world)
    (held : world.gate = some call) (leads : Leads world.log call)
    (compiledFrom : CompiledFrom frontend start world.log world.generation
      call state.stamp state.compiled) :
    Sound frontend start
      (({ world with snapshot := some state }.record
        (.installed call state)).finish call) := by
  have finished := sound.finish call
  have grows : Grows world.log (world.log ++ [Event.installed call state])
      world.generation world.generation := by
    apply grows_of_ne
    intro writer isBump
    cases isBump
  have noHolder : ∀ other phase, (world.finish call).calls other = some phase →
      phase.isHolding = false := by
    intro other phase found
    by_contra isHolding
    have isHolding : phase.isHolding = true := by simpa using isHolding
    have gate := (finished.holding other phase found isHolding).1
    simp [World.finish, held] at gate
  constructor
  · change world.tables = tablesAt start
      (world.log ++ [Event.installed call state])
      (world.log ++ [Event.installed call state]).length
    rw [tablesAt_append, sound.tables]
  · intro writer committed
    obtain ⟨tables, member⟩ := sound.writers writer committed
    exact ⟨tables, List.mem_append_left _ member⟩
  · apply sound.bumps_append
    intro writer isBump
    cases isBump
  · intro other phase found isWaiting
    apply (finished.waiting other phase found isWaiting).append
    intro isOwn
    cases isOwn
    have isDone : (world.finish call).calls call = some .done := by
      simp [World.finish]
    have found : (world.finish call).calls call = some phase := found
    rw [isDone] at found
    cases found
    cases isWaiting
  · intro other unused
    apply (finished.unused other unused).append
    intro isOwn
    cases isOwn
    simp [World.finish] at unused
  · intro other phase found isHolding
    rw [noHolder other phase found] at isHolding
    cases isHolding
  · intro other phase found
    exact (finished.gathered other phase found).grow grows
  · intro earlier later left right leftState rightState leftAt rightAt before
      moment found foundAt isRead
    have leftOld : world.log[earlier]? = some (.installed left leftState) := by
      rcases at_append.mp leftAt with old | ⟨isLast, _⟩
      · exact old
      · have inLog : later <
            (world.log ++ [Event.installed call state]).length :=
          at_lt rightAt
        have isLast : earlier = world.log.length := isLast
        simp only [List.length_append, List.length_singleton] at inLog
        omega
    rcases at_append.mp foundAt with old | ⟨isLast, _⟩
    · rcases at_append.mp rightAt with rightOld | ⟨_, isNew⟩
      · exact sound.ordered earlier later left right leftState rightState
          leftOld rightOld before moment found old isRead
      · cases isNew
        apply leads.afterInstalls moment found old _ earlier left leftState
          leftOld
        rcases isRead with ⟨gen, rfl⟩ | ⟨docs, rfl⟩ | ⟨grants, rfl⟩ <;> rfl
    · rw [isLast]
      exact at_lt leftOld
  · change some state =
      lastInstalled (world.log ++ [Event.installed call state])
    rw [lastInstalled_append]
  · intro other installed
    cases installed
    exact ⟨call, compiledFrom.grow grows⟩
  · intro other failed otherState installed
    rcases List.mem_append.mp failed with oldFailure | isNew
    · rcases List.mem_append.mp installed with old | isNew
      · exact sound.failures other oldFailure otherState old
      · cases List.mem_singleton.mp isNew
        exact leads.notFailed oldFailure
    · cases List.mem_singleton.mp isNew

theorem installIfFresher {call : Nat} {state : SnapshotState Condition}
    (sound : Sound frontend start world)
    (held : world.gate = some call) (leads : Leads world.log call)
    (compiledFrom : CompiledFrom frontend start world.log world.generation
      call state.stamp state.compiled) :
    Sound frontend start (world.installIfFresher call state) := by
  unfold World.installIfFresher
  split
  · exact sound.install held leads compiledFrom
  · change Sound frontend start ((world.finish call).record (.rejected call))
    apply (sound.finish call).record rfl
      ⟨.done, by simp [World.finish], rfl⟩
    · intro other otherState isInstall
      cases isInstall
    · intro other isFailure
      cases isFailure

/-- A read or a claim of the holder of the gate. -/
theorem recordOwn {call : Nat} {phase : Phase Condition}
    (sound : Sound frontend start world) (event : Event Condition)
    (found : world.calls call = some phase)
    (isHolding : phase.isHolding = true) (own : event.call? = some call)
    (notInstall : ∀ other state, event ≠ .installed other state)
    (notFailure : ∀ other, event ≠ .failed other) :
    Sound frontend start (world.record event) ∧
      (world.record event).gate = some call ∧
      Leads (world.record event).log call := by
  obtain ⟨held, leads⟩ := sound.holding call phase found isHolding
  refine ⟨?_, held, leads.append notInstall (notFailure call)⟩
  apply sound.record own
    ⟨phase, found, Phase.not_waiting_of_holding isHolding⟩ notInstall
  intro other isFailure
  exact absurd isFailure (notFailure other)

theorem advanceCaller {call : Nat} {fails : Bool} {phase : Phase Condition}
    {next : World Condition} (sound : Sound frontend start world)
    (found : world.calls call = some phase)
    (advanced : world.advanceCaller call fails phase = some next) :
    Sound frontend start next := by
  cases phase with
  | readState =>
      have quiet := sound.waiting call _ found rfl
      simp only [World.advanceCaller, Option.map_eq_some_iff] at advanced
      obtain ⟨state, _, rfl⟩ := advanced
      split
      · apply sound.moveTo (fun _ => quiet)
        · intro isHolding
          cases isHolding
        · trivial
      · exact sound.finish call
  | readStoreGen currentGen =>
      have quiet := sound.waiting call _ found rfl
      simp only [World.advanceCaller] at advanced
      split at advanced
      · cases advanced
        exact sound.fail quiet.leads.notInstalled
      · split at advanced
        · cases advanced
          exact sound.finish call
        · cases advanced
          apply sound.moveTo (fun _ => quiet)
          · intro isHolding
            cases isHolding
          · trivial
  | tryLock storeGen =>
      have quiet := sound.waiting call _ found rfl
      simp only [World.advanceCaller] at advanced
      split at advanced
      · cases advanced
        exact sound.finish call
      · rename_i free
        cases advanced
        apply (sound.acquire (by simpa using free) (some call)).moveTo
        · intro isWaiting
          cases isWaiting
        · exact fun _ => ⟨rfl, quiet.leads⟩
        · trivial
  | recheck storeGen =>
      simp only [World.advanceCaller, Option.map_eq_some_iff] at advanced
      obtain ⟨state, _, rfl⟩ := advanced
      split
      · exact sound.finish call
      · apply sound.moveTo
        · intro isWaiting
          cases isWaiting
        · exact fun _ => sound.holding call _ found rfl
        · trivial
  | lock =>
      have quiet := sound.waiting call _ found rfl
      simp only [World.advanceCaller] at advanced
      split at advanced
      · cases advanced
      · rename_i free
        cases advanced
        apply (sound.acquire (by simpa using free) (some call)).moveTo
        · intro isWaiting
          cases isWaiting
        · exact fun _ => ⟨rfl, quiet.leads⟩
        · trivial
  | readFallback =>
      simp only [World.advanceCaller, Option.map_eq_some_iff] at advanced
      obtain ⟨state, _, rfl⟩ := advanced
      apply sound.moveTo
      · intro isWaiting
        cases isWaiting
      · exact fun _ => sound.holding call _ found rfl
      · trivial
  | _ => cases advanced

/-- The holder of the gate moves on with what it has gathered. -/
theorem moveHolder {call : Nat} {phase : Phase Condition}
    (sound : Sound frontend start world)
    (holds : world.gate = some call ∧ Leads world.log call)
    (isHolding : phase.isHolding = true)
    (gathered : Gathered frontend start world.log world.generation call
      phase) :
    Sound frontend start (world.moveTo call phase) := by
  apply sound.moveTo _ (fun _ => holds) gathered
  intro isWaiting
  rw [Phase.not_waiting_of_holding isHolding] at isWaiting
  cases isWaiting

theorem advanceLoad {call : Nat} {fails : Bool} {phase : Phase Condition}
    {next : World Condition} (sound : Sound frontend start world)
    (found : world.calls call = some phase)
    (advanced : world.advanceLoad frontend call fails phase = some next) :
    Sound frontend start next := by
  have gathered := sound.gathered call phase found
  cases phase with
  | readGen fallbackGen =>
      simp only [World.advanceLoad] at advanced
      split at advanced
      · cases advanced
        obtain ⟨recorded, holds⟩ :=
          sound.recordOwn (.generationRead call none) found rfl rfl (by simp)
            (by simp)
        apply recorded.moveHolder holds rfl
        intro trusted
        cases trusted
      · cases advanced
        obtain ⟨recorded, holds⟩ :=
          sound.recordOwn (.generationRead call (some world.generation)) found
            rfl rfl (by simp) (by simp)
        apply recorded.moveHolder holds rfl
        intro trusted
        refine ⟨world.log.length, by simp [World.record], at_last _ _, le_rfl,
          ?_⟩
        intro _ bump writer bumped
        rcases at_append.mp bumped with old | ⟨_, isNew⟩
        · exact at_lt old
        · cases isNew
  | claim stamp =>
      cases advanced
      have claimed : Sound frontend start
          { world with loadSeq := world.loadSeq + 1 } := { sound with }
      obtain ⟨recorded, holds⟩ :=
        claimed.recordOwn (.claimed call (world.loadSeq + 1)) found rfl rfl
          (by simp) (by simp)
      apply recorded.moveHolder holds rfl
      exact recorded.gathered call (.claim stamp) found
  | listDocs stamp seq =>
      simp only [World.advanceLoad] at advanced
      split at advanced
      · cases advanced
        exact sound.fail (sound.holding call _ found rfl).2.notInstalled
      · cases advanced
        obtain ⟨recorded, holds⟩ :=
          sound.recordOwn (.docsRead call world.tables.docs) found rfl rfl
            (by simp) (by simp)
        apply recorded.moveHolder holds rfl
        refine ⟨world.log.length, at_last _ _, ?_, ?_⟩
        · rw [World.record, tablesAt_now, ← sound.tables]
        · exact Observed.grow gathered (grows_of_ne (by simp))
  | listGrants stamp seq docs =>
      simp only [World.advanceLoad] at advanced
      split at advanced
      · cases advanced
        exact sound.fail (sound.holding call _ found rfl).2.notInstalled
      · cases advanced
        obtain ⟨recorded, holds⟩ :=
          sound.recordOwn (.grantsRead call world.tables.grants) found rfl rfl
            (by simp) (by simp)
        apply recorded.moveHolder holds rfl
        obtain ⟨docsAt, listed⟩ := gathered
        refine ⟨docsAt, world.log.length, at_lt listed.1,
          listed.grow (grows_of_ne (by simp)), at_last _ _, ?_⟩
        rw [World.record, tablesAt_now, ← sound.tables]
  | compile stamp seq docs grants =>
      simp only [World.advanceLoad] at advanced
      split at advanced
      · cases advanced
        exact sound.fail (sound.holding call _ found rfl).2.notInstalled
      · rename_i compiled compiles
        cases advanced
        apply sound.moveHolder (sound.holding call _ found rfl) rfl
        exact ⟨docs, grants, compiles, gathered⟩
  | install stamp seq compiled =>
      cases advanced
      obtain ⟨held, leads⟩ := sound.holding call _ found rfl
      exact sound.installIfFresher held leads gathered
  | _ => cases advanced

theorem advance {call : Nat} {fails : Bool} {next : World Condition}
    (sound : Sound frontend start world)
    (advanced : world.advance frontend call fails = some next) :
    Sound frontend start next := by
  unfold World.advance at advanced
  split at advanced
  · cases advanced
  · rename_i phase found
    rw [Option.or_eq_some_iff] at advanced
    rcases advanced with caller | ⟨_, load⟩
    · exact sound.advanceCaller found caller
    · exact sound.advanceLoad found load

theorem startCall {call : Nat} {caller : Caller} {next : World Condition}
    (sound : Sound frontend start world)
    (started : world.start call caller = some next) :
    Sound frontend start next := by
  cases caller with
  | new =>
      simp only [World.start] at started
      split at started
      · rename_i unused _ free
        cases started
        have acquired : Sound frontend start
            { world with gate := some call, loadSeq := 0 } :=
          { sound.acquire free (some call) with }
        exact acquired.moveHolder
          ⟨rfl, (sound.unused call unused).leads⟩ rfl trivial
      · cases started
  | reloadIfStale =>
      simp only [World.start] at started
      split at started
      · rename_i state unused _
        cases started
        apply sound.moveTo (fun _ => sound.unused call unused)
        · intro isHolding
          cases isHolding
        · trivial
      · cases started
  | reloadNow =>
      simp only [World.start] at started
      split at started
      · rename_i state unused _
        cases started
        apply sound.moveTo (fun _ => sound.unused call unused)
        · intro isHolding
          cases isHolding
        · trivial
      · cases started

theorem commit {writer : Nat} (sound : Sound frontend start world)
    (tables : Tables) :
    Sound frontend start (world.commit writer tables) := by
  have notBump : ∀ other,
      (.committed writer tables : Event Condition) ≠ .bumped other := by
    simp
  apply sound.extend (.committed writer tables) (world.commit writer tables)
    rfl rfl rfl rfl (grows_of_ne notBump) _ _ (sound.bumps_append notBump)
  · simp
  · simp [Event.call?]
  · simp
  · exact (tablesAt_append (.committed writer tables)).symm
  · intro other committed
    by_cases same : other = writer
    · subst same
      exact ⟨tables, List.mem_append_right _ (by simp)⟩
    · simp only [World.commit, World.record,
        Function.update_of_ne same] at committed
      obtain ⟨old, member⟩ := sound.writers other committed
      exact ⟨old, List.mem_append_left _ member⟩

theorem bump {writer : Nat} (sound : Sound frontend start world)
    (committed : world.writers writer = some .committed) :
    Sound frontend start (world.bump writer) := by
  have grows : Grows world.log (world.log ++ [Event.bumped writer])
      world.generation (world.generation + 1) := by
    refine ⟨⟨[.bumped writer], rfl, ?_⟩, by omega⟩
    intro same
    omega
  apply sound.extend (.bumped writer) (world.bump writer) rfl rfl rfl rfl
    grows
  · change world.tables = tablesAt start (world.log ++ [Event.bumped writer])
      (world.log ++ [Event.bumped writer]).length
    rw [tablesAt_append, sound.tables]
  · intro other otherCommitted
    by_cases same : other = writer
    · subst same
      simp [World.bump, World.record] at otherCommitted
    · simp only [World.bump, World.record,
        Function.update_of_ne same] at otherCommitted
      obtain ⟨old, member⟩ := sound.writers other otherCommitted
      exact ⟨old, List.mem_append_left _ member⟩
  · intro moment other bumped
    rcases at_append.mp bumped with old | ⟨isLast, isNew⟩
    · obtain ⟨commit, tables, before, found⟩ := sound.bumps moment other old
      exact ⟨commit, tables, before, at_append_of_at found⟩
    · cases isNew
      obtain ⟨tables, member⟩ := sound.writers writer committed
      obtain ⟨commit, found⟩ := List.getElem?_of_mem member
      refine ⟨commit, tables, ?_, at_append_of_at found⟩
      rw [isLast]
      exact at_lt found
  · simp
  · simp [Event.call?]
  · simp

theorem raise (sound : Sound frontend start world) (delta : Nat) :
    Sound frontend start
      { world with generation := world.generation + delta } := by
  have grows : Grows world.log world.log world.generation
      (world.generation + delta) :=
    ⟨⟨[], by simp, by simp⟩, by omega⟩
  refine { sound with gathered := ?_, current := ?_ }
  · intro call phase found
    exact (sound.gathered call phase found).grow grows
  · intro state installed
    obtain ⟨call, compiledFrom⟩ := sound.current state installed
    exact ⟨call, compiledFrom.grow grows⟩

theorem step {action : Action} {next : World Condition}
    (sound : Sound frontend start world)
    (stepped : world.step frontend action = some next) :
    Sound frontend start next := by
  cases action with
  | commit writer tables =>
      simp only [World.step] at stepped
      split at stepped
      · cases stepped
      · cases stepped
        exact sound.commit tables
  | bump writer =>
      simp only [World.step] at stepped
      split at stepped
      · rename_i committed
        cases stepped
        exact sound.bump committed
      · cases stepped
  | raise delta =>
      cases stepped
      exact sound.raise delta
  | start call caller => exact sound.startCall stepped
  | advance call fails => exact sound.advance stepped
  | cancel call =>
      simp only [World.step] at stepped
      split at stepped
      · cases stepped
      · cases stepped
      · cases stepped
        exact sound.finish call

end Sound

/-- The set was compiled from tables that were listed after the commit of
every mutation whose bump is in the log. -/
def Reflects (frontend : Frontend Condition) (start : Tables)
    (log : List (Event Condition)) (compiled : PolicySet Condition) : Prop :=
  ∃ (call docsAt grantsAt : Nat) (docs : List PolicyDocument)
    (grants : List RoleGrant),
    compile frontend docs grants = .ok compiled ∧
      log[docsAt]? = some (.docsRead call docs) ∧
      docs = (tablesAt start log docsAt).docs ∧
      log[grantsAt]? = some (.grantsRead call grants) ∧
      grants = (tablesAt start log grantsAt).grants ∧
      ∀ (bump : Nat) writer, log[bump]? = some (.bumped writer) →
        ∃ (commit : Nat) (tables : Tables),
          log[commit]? = some (.committed writer tables) ∧
            commit < docsAt ∧ commit < grantsAt

/-- Of two installed loads the later one made all its reads after the earlier
one was installed. -/
def NeverRegresses (log : List (Event Condition)) : Prop :=
  ∀ (earlier later : Nat) left right leftState rightState,
    log[earlier]? = some (.installed left leftState) →
    log[later]? = some (.installed right rightState) →
    earlier < later → ∀ (moment : Nat) event, log[moment]? = some event →
      event.IsReadOf right → earlier < moment

theorem Sound.reflects {frontend : Frontend Condition} {start : Tables}
    {world : World Condition} (sound : Sound frontend start world)
    {state : SnapshotState Condition}
    (installed : world.snapshot = some state)
    (trusted : state.stamp.trusted = true)
    (current : state.stamp.gen = world.generation) :
    Reflects frontend start world.log state.compiled := by
  obtain ⟨call, docs, grants, compiles, docsAt, grantsAt, ordered,
    ⟨docsRead, docsStored, observed⟩, grantsRead, grantsStored⟩ :=
    sound.current state installed
  refine ⟨call, docsAt, grantsAt, docs, grants, compiles, docsRead,
    docsStored, grantsRead, grantsStored, ?_⟩
  intro bump writer bumped
  obtain ⟨moment, before, _, _, bumps⟩ := observed trusted
  have earlier := bumps current bump writer bumped
  obtain ⟨commit, tables, committedBefore, committed⟩ :=
    sound.bumps bump writer bumped
  exact ⟨commit, tables, committed, by omega, by omega⟩

/-- In every interleaving a trusted stamp that equals the counter vouches for
every bumped mutation, installs follow the order of their reads, and the
snapshot is the last installed one, which a failed load never is. -/
theorem snapshot_keeps_updates (frontend : Frontend Condition)
    (start : Tables) (generation : Nat) (world : World Condition)
    (reachable : Reachable (World.step frontend)
      (World.initial start generation) world) :
    (∀ state, world.snapshot = some state → state.stamp.trusted = true →
        state.stamp.gen = world.generation →
        Reflects frontend start world.log state.compiled) ∧
      NeverRegresses world.log ∧
      world.snapshot = lastInstalled world.log ∧
      ∀ call, .failed call ∈ world.log → ∀ state,
        .installed call state ∉ world.log := by
  have sound : Sound frontend start world := by
    apply reachable.invariant
    · intro before action next sound stepped
      exact sound.step stepped
    · exact Sound.initial frontend start generation
  refine ⟨?_, sound.ordered, sound.snapshot, sound.failures⟩
  intro state installed trusted current
  exact sound.reflects installed trusted current

section StaleReload

/-- A frontend that reads one unconditional permit. -/
def permitAllFrontend : Frontend String where
  fromStr source :=
    if source = "permit(principal, action, resource);" then
      some [⟨.permit, .any, .any, .any, []⟩]
    else
      none
  validates _ := true
  isTypeName _ := true

def permitAll : PolicyDocument where
  policyId := "permit-all"
  kind := .static
  source := "permit(principal, action, resource);"
  description := ""
  system := false
  createdAt := 0
  updatedAt := 0

/-- The first load, a committed and bumped document, and a request that finds
the snapshot stale and reloads it. -/
def staleReload : List Action :=
  (.start 0 .new :: List.replicate 6 (.advance 0 false) : List Action) ++
    ([.commit 0 ⟨[permitAll], []⟩, .bump 0, .start 1 .reloadIfStale] :
      List Action) ++
    (List.replicate 10 (.advance 1 false) : List Action)

theorem staleReload_keeps_updates :
    ∃ world, Reachable (World.step permitAllFrontend)
        (World.initial ⟨[], []⟩ 0) world ∧
      world.snapshot.map (fun state =>
        (state.stamp, state.compiled.policies.map Prod.fst)) =
        some (⟨world.generation, true⟩, ["permit-all"]) ∧
      (∀ state, world.snapshot = some state → state.stamp.trusted = true →
        state.stamp.gen = world.generation →
        Reflects permitAllFrontend ⟨[], []⟩ world.log state.compiled) ∧
      NeverRegresses world.log ∧
      world.snapshot = lastInstalled world.log ∧
      ∀ call, .failed call ∈ world.log → ∀ state,
        .installed call state ∉ world.log := by
  have installed : (runFrom (World.step permitAllFrontend)
      (World.initial ⟨[], []⟩ 0) staleReload).map (fun world =>
        decide (world.snapshot.map (fun state =>
          (state.stamp, state.compiled.policies.map Prod.fst)) =
          some (⟨world.generation, true⟩, ["permit-all"]))) = some true := by
    decide
  obtain ⟨world, run, stamped⟩ := Option.map_eq_some_iff.mp installed
  have reachable : Reachable (World.step permitAllFrontend)
      (World.initial ⟨[], []⟩ 0) world := ⟨staleReload, run⟩
  exact ⟨world, reachable, of_decide_eq_true stamped,
    snapshot_keeps_updates permitAllFrontend ⟨[], []⟩ 0 world reachable⟩

end StaleReload

end Paigasus.Policies.Snapshot
