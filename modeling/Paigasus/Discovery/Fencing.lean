import Paigasus.Discovery.ResolveService

/-!
# The fence of the descriptor cache

While the key is not emptied, the `rev` of its record only grows, so a write that
finds the `rev` of its snapshot replaces the snapshot.  A key that was emptied
counts from one again: the same `rev` may then stand on a record of a later
probe.
-/

namespace Paigasus.Discovery

open Foundation

/-- The record a write replaced is from no later probe, and a failed probe kept
its descriptor. -/
structure Write.InTime (write : Write) : Prop where
  earlier : ∀ stored origin, write.replaced = some stored →
    stored.origin = some origin → origin < write.probe.started
  descriptor : ∀ stored record reason, write.replaced = some stored →
    stored.value = .record record → write.outcome = .fail reason →
    write.written.descriptor = record.descriptor

/-- Every record is from a probe that was started. -/
def Cache.Dated (cache : Cache) : Prop :=
  ∀ stored origin, cache.stored = some stored → stored.origin = some origin →
    origin < cache.probes

/-- What a probe knows about the key: as long as it was not emptied, it holds the
snapshot or a later `rev`. -/
structure Probe.Watches (cache : Cache) (probe : Probe) : Prop where
  started : probe.started < cache.probes
  past : probe.removals ≤ cache.removals
  fence : ∀ snapshot, probe.snapshot = some snapshot →
    probe.removals = cache.removals → ∃ stored, cache.stored = some stored ∧
      ((stored.value = .record snapshot ∧
          ∀ origin, stored.origin = some origin → origin < probe.started) ∨
        ∃ rev, stored.value.rev = some rev ∧ snapshot.rev < rev)

/-- The record is the one `recordFor` makes of the outcome. -/
structure Probe.Leaves (probe : Probe) (outcome : ProbeOutcome)
    (next : CacheRecord) : Prop where
  rev : next.rev = (probe.snapshot.map CacheRecord.rev).getD 0 + 1
  descriptor : ∀ reason, outcome = .fail reason →
    next.descriptor = probe.snapshot.bind CacheRecord.descriptor

/-- What one step does to the cache, where it may write from the given probes. -/
inductive Effect (writer : Probe → Prop) (before : Cache) : Cache → Prop where
  | quiet (lock : Option Nat) : Effect writer before { before with lock }
  | begins : Effect writer before { before with probes := before.probes + 1 }
  | removes : Effect writer before
      { before with stored := none, removals := before.removals + 1 }
  | removesAndBegins : Effect writer before
      { before with
        stored := none
        removals := before.removals + 1
        probes := before.probes + 1 }
  | writes (probe : Probe) (outcome : ProbeOutcome) (next : CacheRecord)
      (isWriter : writer probe)
      (fenced : before.matches_ (probe.snapshot.map CacheRecord.rev) = true)
      (watches : probe.Watches before) (leaves : probe.Leaves outcome next) :
      Effect writer before (before.write probe outcome next)

theorem recordFor_leaves (probe : Probe) (outcome : ProbeOutcome) (now : Int) :
    probe.Leaves outcome (recordFor outcome probe.snapshot now) := by
  cases outcome with
  | ok descriptor => exact ⟨rfl, nofun⟩
  | fail reason => exact ⟨rfl, fun _ _ => rfl⟩

variable {writer : Probe → Prop} {before after : Cache}

theorem Effect.dated (effect : Effect writer before after) (dated : before.Dated) :
    after.Dated := by
  cases effect with
  | quiet lock => exact dated
  | begins =>
      intro stored origin isStored isOrigin
      exact Nat.lt_succ_of_lt (dated stored origin isStored isOrigin)
  | removes =>
      intro stored origin isStored
      cases isStored
  | removesAndBegins =>
      intro stored origin isStored
      cases isStored
  | writes probe outcome next _ fenced watches leaves =>
      rintro stored origin ⟨⟩ ⟨⟩
      exact watches.started

/-- What a probe knows about the key survives the steps of the others. -/
theorem Probe.Watches.effect {probe : Probe} (effect : Effect writer before after)
    (watches : probe.Watches before) : probe.Watches after := by
  cases effect with
  | quiet lock => exact ⟨watches.started, watches.past, watches.fence⟩
  | begins =>
      exact ⟨Nat.lt_succ_of_lt watches.started, watches.past, watches.fence⟩
  | removes =>
      refine ⟨watches.started, Nat.le_succ_of_le watches.past, ?_⟩
      intro snapshot _ same
      have past := watches.past
      dsimp only at same
      omega
  | removesAndBegins =>
      refine ⟨Nat.lt_succ_of_lt watches.started,
        Nat.le_succ_of_le watches.past, ?_⟩
      intro snapshot _ same
      have past := watches.past
      dsimp only at same
      omega
  | writes other outcome next _ fenced _ leaves =>
      refine ⟨watches.started, watches.past, ?_⟩
      intro snapshot isSnapshot same
      obtain ⟨stored, isStored, known⟩ := watches.fence snapshot isSnapshot same
      refine ⟨⟨.record next, some other.started⟩, rfl, .inr ⟨next.rev, rfl, ?_⟩⟩
      -- the other write has found a `rev` that is not below the snapshot's
      cases expected : other.snapshot.map CacheRecord.rev with
      | none => simp [Cache.matches_, expected, isStored] at fenced
      | some rev =>
          simp only [Cache.matches_, expected, isStored,
            decide_eq_true_eq] at fenced
          have grown : snapshot.rev ≤ rev := by
            rcases known with ⟨isRecord, _⟩ | ⟨found, isRev, above⟩
            · rw [isRecord] at fenced
              cases fenced
              exact Nat.le_refl _
            · rw [isRev] at fenced
              cases fenced
              exact Nat.le_of_lt above
          rw [leaves.rev, expected]
          exact Nat.lt_succ_of_le grown

namespace Call

/-- What holds of a call between its steps. -/
def Asserts (cache : Cache) (call : Call) : Prop :=
  match call.phase with
  | .probing probe => probe.Watches cache
  | .writing probe outcome next =>
      probe.Watches cache ∧ probe.Leaves outcome next
  | _ => True

theorem Asserts.effect {call : Call} (effect : Effect writer before after)
    (asserted : call.Asserts before) : call.Asserts after := by
  unfold Asserts at asserted ⊢
  split
  case h_1 probe phase =>
    rw [phase] at asserted
    exact asserted.effect effect
  case h_2 probe outcome next phase =>
    rw [phase] at asserted
    exact ⟨asserted.1.effect effect, asserted.2⟩
  case h_3 => trivial

/-- The probe whose outcome the step may write. -/
def Writes (call : Call) (input : StepInput) (probe : Probe) : Prop :=
  input.fails = false ∧
    ∃ outcome next, call.phase = .writing probe outcome next

/-- The record was read from the key. -/
def ReadFrom (cache : Cache) (record : Option CacheRecord) : Prop :=
  ∀ found, record = some found → ∃ stored, cache.stored = some stored ∧
    stored.value = .record found

theorem readFrom_none (cache : Cache) : ReadFrom cache none := nofun

variable {timings : Timings} {cache : Cache} {call : Call}
  {input : StepInput} {record : Option CacheRecord}

/-- A step of the call itself that reads the key, or starts a probe. -/
def Reads (before : Cache) (result : Cache × Call) : Prop :=
  (result.1 = before ∨
      result.1 = { before with probes := before.probes + 1 }) ∧
    result.2.Asserts result.1

theorem beginProbe_reads (dated : cache.Dated) (read : ReadFrom cache record) :
    Reads cache (call.beginProbe cache input record) := by
  unfold beginProbe
  split
  case isTrue => exact ⟨.inl rfl, trivial⟩
  case isFalse =>
    refine ⟨.inr rfl, Nat.lt_succ_self _, Nat.le_refl _, ?_⟩
    intro snapshot isSnapshot _
    obtain ⟨stored, isStored, isRecord⟩ := read snapshot isSnapshot
    refine ⟨stored, isStored, .inl ⟨isRecord, ?_⟩⟩
    intro origin isOrigin
    exact dated stored origin isStored isOrigin

theorem afterRead_reads (reader : Reader) (dated : cache.Dated)
    (read : ReadFrom cache record) :
    Reads cache (call.afterRead timings cache input reader record) := by
  cases reader with
  | first =>
      unfold afterRead
      dsimp only
      split
      all_goals exact ⟨.inl rfl, trivial⟩
  | recheck =>
      unfold afterRead
      dsimp only
      split
      case h_1 => exact ⟨.inl rfl, trivial⟩
      case h_2 => exact beginProbe_reads dated read
  | winner => exact ⟨.inl rfl, trivial⟩
  | last => exact ⟨.inl rfl, trivial⟩
  | reread =>
      unfold afterRead
      dsimp only
      split
      all_goals exact ⟨.inl rfl, trivial⟩

theorem readFails_reads (reader : Reader) (dated : cache.Dated) :
    Reads cache (call.readFails timings cache input reader) := by
  cases reader with
  | first => exact ⟨.inl rfl, trivial⟩
  | recheck =>
      unfold readFails
      dsimp only
      split
      case h_1 => exact beginProbe_reads dated nofun
      case h_2 => exact ⟨.inl rfl, trivial⟩
  | winner => exact ⟨.inl rfl, trivial⟩
  | last => exact afterRead_reads .last dated nofun
  | reread => exact afterRead_reads .reread dated nofun

theorem parseRecord_eq {value : Value} {found : CacheRecord}
    (parsed : value.parseRecord = some found) : value = .record found := by
  cases value with
  | foreign raw rev => cases parsed
  | record stored =>
      unfold Value.parseRecord at parsed
      dsimp only at parsed
      split at parsed
      case isTrue => rw [Option.some.inj parsed]
      case isFalse => cases parsed

theorem readStep_reads (reader : Reader) (dated : cache.Dated) :
    Reads cache (call.readStep timings cache input reader) := by
  unfold readStep
  split
  case h_1 => exact afterRead_reads reader dated nofun
  case h_2 stored isStored =>
    split
    case h_1 => exact ⟨.inl rfl, trivial⟩
    case h_2 found parsed =>
      split
      case isTrue => exact ⟨.inl rfl, trivial⟩
      case isFalse =>
        apply afterRead_reads reader dated
        rintro record ⟨⟩
        exact ⟨stored, isStored, parseRecord_eq parsed⟩

theorem delete_cases (cache : Cache) :
    cache.delete = cache ∨ cache.delete =
      { cache with stored := none, removals := cache.removals + 1 } := by
  unfold Cache.delete
  split
  · exact .inl rfl
  · exact .inr rfl

theorem effect_delete (writer : Probe → Prop) (cache : Cache) :
    Effect writer cache cache.delete := by
  rcases delete_cases cache with same | removed
  · rw [same]
    exact .quiet cache.lock
  · rw [removed]
    exact .removes

/-- A read, after the key may have been emptied by the call itself. -/
theorem Reads.effect {result : Cache × Call}
    (deleted : after = cache ∨ after = cache.delete)
    (reads : Reads after result) :
    Effect writer cache result.1 ∧ result.2.Asserts result.1 := by
  refine ⟨?_, reads.2⟩
  have emptied : after = cache ∨ after =
      { cache with stored := none, removals := cache.removals + 1 } := by
    rcases deleted with same | removed
    · exact .inl same
    · rw [removed]
      exact delete_cases cache
  rcases emptied with rfl | rfl
  · rcases reads.1 with same | begun
    · rw [same]
      exact .quiet after.lock
    · rw [begun]
      exact .begins
  · rcases reads.1 with same | begun
    · rw [same]
      exact .removes
    · rw [begun]
      exact .removesAndBegins

theorem lockStep_effect {id : Nat} :
    Effect writer cache (call.lockStep cache input id).1 ∧
      (call.lockStep cache input id).2.Asserts
        (call.lockStep cache input id).1 := by
  unfold lockStep Cache.tryAcquireLock
  split
  case h_1 held acquired =>
    split at acquired
    case h_1 => cases acquired
    case h_2 =>
      cases acquired
      exact ⟨.quiet (some id), trivial⟩
  case h_2 =>
    repeat' split
    all_goals exact ⟨.quiet cache.lock, trivial⟩

/-- What one step of a call does to the cache, and what holds of it then. -/
theorem Asserts.step {id : Nat} {next : Call} (dated : cache.Dated)
    (asserted : call.Asserts cache)
    (stepped : call.step timings cache input id = some (after, next)) :
    Effect (call.Writes input) cache after ∧ next.Asserts after := by
  suffices result : Effect (call.Writes input) cache (after, next).1 ∧
      (after, next).2.Asserts (after, next).1 from result
  have same : Effect (call.Writes input) cache cache := .quiet cache.lock
  cases phase : call.phase with
  | reading reader =>
      simp only [Call.step, phase] at stepped
      split at stepped
      case isTrue =>
        rw [← Option.some.inj stepped]
        exact (readFails_reads reader dated).effect (.inl rfl)
      case isFalse =>
        rw [← Option.some.inj stepped]
        exact (readStep_reads reader dated).effect (.inl rfl)
  | discarding reader value =>
      simp only [Call.step, phase] at stepped
      split at stepped
      case isTrue =>
        rw [← Option.some.inj stepped]
        exact (readFails_reads reader dated).effect (.inl rfl)
      case isFalse =>
        rw [← Option.some.inj stepped]
        have deleted : cache.deleteIfUnchanged value = cache ∨
            cache.deleteIfUnchanged value = cache.delete := by
          unfold Cache.deleteIfUnchanged
          split
          · exact .inr rfl
          · exact .inl rfl
        apply Reads.effect deleted
        apply afterRead_reads reader _ (readFrom_none _)
        rcases deleted with kept | removed
        · rw [kept]
          exact dated
        · rw [removed]
          exact (effect_delete (fun _ => False) cache).dated dated
  | deleting reader =>
      simp only [Call.step, phase] at stepped
      split at stepped
      case isTrue =>
        rw [← Option.some.inj stepped]
        exact (readFails_reads reader dated).effect (.inl rfl)
      case isFalse =>
        rw [← Option.some.inj stepped]
        apply Reads.effect (.inr rfl)
        apply afterRead_reads reader _ (readFrom_none _)
        exact (effect_delete (fun _ => False) cache).dated dated
  | locking =>
      simp only [Call.step, phase] at stepped
      split at stepped
      case isTrue =>
        cases stepped
        exact ⟨same, trivial⟩
      case isFalse =>
        rw [← Option.some.inj stepped]
        exact lockStep_effect
  | sleeping =>
      simp only [Call.step, phase] at stepped
      cases stepped
      exact ⟨same, trivial⟩
  | probing probe =>
      simp only [Call.step, phase] at stepped
      simp only [Asserts, phase] at asserted
      cases stepped
      refine ⟨same, ?_⟩
      unfold probeStep
      split
      case h_1 => trivial
      case h_2 => exact ⟨asserted, recordFor_leaves probe _ input.now⟩
  | writing probe outcome record =>
      simp only [Call.step, phase] at stepped
      simp only [Asserts, phase] at asserted
      split at stepped
      case isTrue =>
        cases stepped
        exact ⟨same, trivial⟩
      case isFalse acts =>
        unfold writeStep at stepped
        split at stepped
        case isTrue fenced =>
          cases stepped
          refine ⟨?_, trivial⟩
          apply Effect.writes probe outcome record _ fenced
          · exact asserted.1
          · exact asserted.2
          · exact ⟨by simpa using acts, outcome, record, phase⟩
        case isFalse =>
          cases stepped
          exact ⟨same, trivial⟩
  | releasing =>
      simp only [Call.step, phase] at stepped
      split at stepped
      case isTrue =>
        cases stepped
        exact ⟨same, trivial⟩
      case isFalse =>
        cases stepped
        unfold Cache.releaseLock
        split
        case isTrue => exact ⟨.quiet none, trivial⟩
        case isFalse => exact ⟨same, trivial⟩
  | finished =>
      simp only [Call.step, phase] at stepped
      cases stepped

end Call

/-- What holds of the cache at all times. -/
theorem outline (timings : Timings) :
    Program.Outline (resolveService timings) Cache.Dated
      (fun _ cache call => call.Asserts cache) where
  spawned _ cache call _ starts := by
    have isStart : call = .start call.service := by
      simpa [resolveService] using starts
    rw [isStart]
    trivial
  own _ cache call input after next dated asserted stepped := by
    obtain ⟨effect, kept⟩ := Call.Asserts.step dated asserted stepped
    exact ⟨effect.dated dated, kept⟩
  others _ cache call input after next _ _ dated asserted stepped _ held := by
    obtain ⟨effect, _⟩ := Call.Asserts.step dated asserted stepped
    exact held.effect effect
  outside cache expiry after dated expired := by
    have effect : Effect (fun _ => False) cache after := by
      cases expiry with
      | record =>
          cases expired
          exact Call.effect_delete _ cache
      | lock =>
          cases expired
          exact .quiet none
    exact ⟨effect.dated dated, fun _ _ asserted => asserted.effect effect⟩

/-- A write that finds the `rev` of its snapshot finds it on a key that was not
emptied since. -/
def Call.fenceStands (cache : Cache) (call : Call) (input : StepInput) : Bool :=
  match call.phase with
  | .writing probe _ _ =>
      match probe.snapshot with
      | none => true
      | some snapshot =>
          input.fails || !cache.matches_ (some snapshot.rev) ||
            probe.removals = cache.removals
  | _ => true

def FenceStands (configuration : Configuration Cache Call)
    (action : Move Call StepInput Expiry) : Prop :=
  match action with
  | .run id input =>
      (configuration.process id).all
        (Call.fenceStands configuration.shared · input) = true
  | _ => True

instance (configuration : Configuration Cache Call)
    (action : Move Call StepInput Expiry) :
    Decidable (FenceStands configuration action) :=
  match action with
  | .run id input => inferInstanceAs (Decidable
      ((configuration.process id).all
        (Call.fenceStands configuration.shared · input) = true))
  | .spawn _ _ => inferInstanceAs (Decidable True)
  | .outside _ => inferInstanceAs (Decidable True)

theorem Call.current_of_fenceStands {cache : Cache} {call : Call} {input : StepInput}
    {probe : Probe} {snapshot : CacheRecord} (writes : call.Writes input probe)
    (isSnapshot : probe.snapshot = some snapshot)
    (stands : call.fenceStands cache input = true)
    (matched : cache.matches_ (some snapshot.rev) = true) :
    probe.removals = cache.removals := by
  obtain ⟨acts, outcome, next, phase⟩ := writes
  simpa [fenceStands, phase, isSnapshot, acts, matched] using stands

/-- Where the fence stands, it lets a write replace its own snapshot only. -/
theorem Effect.inTime (effect : Effect writer before after)
    (stands : ∀ probe snapshot, writer probe → probe.snapshot = some snapshot →
      before.matches_ (some snapshot.rev) = true →
      probe.removals = before.removals)
    (inTime : ∀ write ∈ before.writes, write.InTime) :
    ∀ write ∈ after.writes, write.InTime := by
  cases effect with
  | quiet lock => exact inTime
  | begins => exact inTime
  | removes => exact inTime
  | removesAndBegins => exact inTime
  | writes probe outcome next isWriter fenced watches leaves =>
      intro write member
      rcases List.mem_append.mp member with old | new
      · exact inTime write old
      · rw [List.mem_singleton] at new
        subst new
        cases isSnapshot : probe.snapshot with
        | none =>
            have absent : before.stored = none := by
              simpa [isSnapshot, Cache.matches_] using fenced
            constructor
            · intro stored _ replaced
              rw [absent] at replaced
              cases replaced
            · intro stored _ _ replaced
              rw [absent] at replaced
              cases replaced
        | some snapshot =>
            rw [isSnapshot] at fenced
            have current := stands probe snapshot isWriter isSnapshot fenced
            obtain ⟨stored, isStored, known⟩ :=
              watches.fence snapshot isSnapshot current
            have sameRev : stored.value.rev = some snapshot.rev := by
              simpa [Cache.matches_, isStored] using fenced
            rcases known with ⟨isRecord, earlier⟩ | ⟨rev, isRev, above⟩
            · constructor
              · intro found origin replaced isOrigin
                rw [isStored] at replaced
                cases replaced
                exact earlier origin isOrigin
              · intro found record reason replaced isFound failed
                rw [isStored] at replaced
                cases replaced
                rw [isRecord] at isFound
                cases isFound
                rw [leaves.descriptor reason failed, isSnapshot]
                rfl
            · rw [isRev] at sameRev
              cases sameRev
              exact absurd above (Nat.lt_irrefl _)

/-- The invariant of a run in which the fence stands. -/
structure Fenced (configuration : Configuration Cache Call) : Prop where
  holds : Program.Holds Cache.Dated (fun _ cache call => call.Asserts cache)
    configuration
  inTime : ∀ write ∈ configuration.shared.writes, write.InTime

theorem Fenced.start (value : Option Value) :
    Fenced (.start (.initial value)) where
  holds := by
    apply Program.Holds.start
    intro stored origin isStored isOrigin
    obtain ⟨found, _, rfl⟩ := Option.map_eq_some_iff.mp isStored
    cases isOrigin
  inTime write member := by cases member

theorem Fenced.move {timings : Timings}
    {configuration next : Configuration Cache Call}
    {action : Move Call StepInput Expiry} (fenced : Fenced configuration)
    (stands : FenceStands configuration action)
    (moved : (resolveService timings).move configuration action = some next) :
    Fenced next := by
  refine ⟨(outline timings).move fenced.holds moved, ?_⟩
  cases Program.move_cases moved with
  | spawn => exact fenced.inTime
  | run running stepped =>
      obtain ⟨effect, _⟩ := Call.Asserts.step fenced.holds.shared
        (fenced.holds.process _ _ running) stepped
      apply effect.inTime _ fenced.inTime
      intro probe snapshot isWriter isSnapshot matched
      apply Call.current_of_fenceStands isWriter isSnapshot _ matched
      simpa [FenceStands, running] using stands
  | @outside expiry after expired =>
      cases expiry with
      | record =>
          cases expired
          apply (Call.effect_delete (fun _ => False) _).inTime _ fenced.inTime
          intro _ _ impossible
          exact impossible.elim
      | lock =>
          cases expired
          exact fenced.inTime

/-- In every run in which no write finds its `rev` on a key that was emptied
since its snapshot, no outcome of a probe replaces the record of a later probe,
and a failed probe keeps the descriptor of the record it replaces. -/
theorem writes_in_time (timings : Timings) (value : Option Value)
    (schedule : List (Move Call StepInput Expiry))
    (final : Configuration Cache Call)
    (run : runFrom (resolveService timings).move (.start (.initial value))
      schedule = some final)
    (stands : EveryStep (resolveService timings).move FenceStands
      (.start (.initial value)) schedule) :
    ∀ write ∈ final.shared.writes, write.InTime := by
  have fenced : Fenced final := by
    refine runFrom_invariant_of_everyStep ?_ (Fenced.start value) stands run
    intro configuration action next fenced here moved
    exact fenced.move here moved
  exact fenced.inTime

/-- A step at the given instant. -/
def sampleStep (now : Int) : StepInput :=
  ⟨now, false, false, .fail .timeout⟩

/-- The moves of one call whose probe ends with the outcome. -/
def sampleCall (id : Nat) (now : Int) (outcome : ProbeOutcome) :
    List (Move Call StepInput Expiry) :=
  [.spawn id (.start "iam"), .run id (sampleStep now), .run id (sampleStep now),
    .run id (sampleStep now), .run id ⟨now, false, false, outcome⟩,
    .run id (sampleStep now)]

def sampleDescriptor (version : String) : ServiceDescriptor :=
  ⟨"iam", version, []⟩

def sampleTimings : Timings := ⟨10000, 60000, 2500⟩

/-- A stale record is replaced by a failure, which keeps its descriptor. -/
theorem writes_in_time_sample : ∃ final write,
    runFrom (resolveService sampleTimings).move (.start (.initial none))
      (sampleCall 0 0 (.ok (sampleDescriptor "1")) ++
        [Move.run 0 (sampleStep 0)] ++
        sampleCall 1 60000 (.fail .network)) = some final ∧
    write ∈ final.shared.writes ∧ write.replaced.isSome = true ∧
    write.InTime := by
  have run : runFrom (resolveService sampleTimings).move
      (.start (.initial none)) (sampleCall 0 0 (.ok (sampleDescriptor "1")) ++
        [Move.run 0 (sampleStep 0)] ++
        sampleCall 1 60000 (.fail .network)) = some _ := rfl
  have stands := writes_in_time sampleTimings none _ _ run (by decide)
  exact ⟨_, _, run, List.mem_cons_of_mem _ List.mem_cons_self, rfl,
    stands _ (List.mem_cons_of_mem _ List.mem_cons_self)⟩

/-- The second call finds the record stale and probes; the record and the lock
expire; the third call probes and writes the first record of a new count; then
the second call writes. -/
def sampleLateWrite : List (Move Call StepInput Expiry) :=
  sampleCall 0 0 (.ok (sampleDescriptor "1")) ++
    ([.run 0 (sampleStep 0)] : List (Move Call StepInput Expiry)) ++
    ([.spawn 1 (.start "iam"), .run 1 (sampleStep 599000),
      .run 1 (sampleStep 599000), .run 1 (sampleStep 599000),
      .outside .record, .outside .lock] : List (Move Call StepInput Expiry)) ++
    sampleCall 2 605000 (.ok (sampleDescriptor "2")) ++
    ([.run 1 (sampleStep 606000), .run 1 (sampleStep 606000)] :
      List (Move Call StepInput Expiry))

theorem late_write_replaces : ¬ ∀ (timings : Timings) (value : Option Value)
    (schedule : List (Move Call StepInput Expiry))
    (final : Configuration Cache Call),
    runFrom (resolveService timings).move (.start (.initial value)) schedule =
        some final →
      ∀ write ∈ final.shared.writes, write.InTime := by
  intro always
  have run : runFrom (resolveService sampleTimings).move
      (.start (.initial none)) sampleLateWrite = some _ := rfl
  have inTime := always sampleTimings none _ _ run _
    (List.mem_cons_of_mem _ (List.mem_cons_of_mem _ List.mem_cons_self))
  have earlier := inTime.earlier _ 2 rfl rfl
  exact absurd earlier (by decide)

end Paigasus.Discovery
