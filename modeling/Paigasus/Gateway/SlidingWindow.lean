import Mathlib.Data.List.Count
import Mathlib.Data.List.Induction
import Mathlib.Tactic.Ring
import Paigasus.Foundation.FixedWidth

/-!
# The sliding rate window

A key keeps the counts of the last minute that admitted a request and of the
minute before it.  The count of the earlier minute weighs in proportion to the
part of the current minute that is still to come.  Over a whole run of checks
and commits no minute admits more than the limit, and no interval of one minute
reaches twice the limit.
-/

namespace Paigasus.Gateway

open Foundation

/-- Nanoseconds since the epoch; a clock may be set before it. -/
abbrev SystemTime : Type := Int

def rateWindowMs : Nat := 60000

def maxRequestsPerMinute : Nat := 1000000000

/-- Milliseconds since the epoch; zero before it. -/
def unixMs (now : SystemTime) : Nat :=
  min (now.toNat / 1000000) U64.maxValue

structure WindowIndex where
  index : Nat
  elapsedMs : Nat
deriving DecidableEq

def WindowIndex.atInstant (now : SystemTime) : WindowIndex where
  index := unixMs now / rateWindowMs
  elapsedMs := unixMs now % rateWindowMs

def admits (previous current elapsedMs limit : Nat) : Bool :=
  let elapsed := min elapsedMs (rateWindowMs - 1)
  let weighted :=
    U64.saturatingAdd
      (U64.saturatingAdd (U64.saturatingMul previous (rateWindowMs - elapsed))
        (U64.saturatingMul current rateWindowMs))
      rateWindowMs
  weighted ≤ U64.saturatingMul limit rateWindowMs

/-- Milliseconds until `admits` holds if no other request arrives. -/
def retryAfterMs (previous current elapsedMs limit : Nat) : Nat :=
  let elapsed := min elapsedMs (rateWindowMs - 1)
  let budget := U64.saturatingMul (limit - current - 1) rateWindowMs
  let needed := rateWindowMs - budget / previous
  let toNext := rateWindowMs - elapsed
  if admits previous current elapsed limit then
    0
  else if 0 < previous ∧ current < limit ∧ needed < rateWindowMs then
    -- Within the window: the weight of the previous count falls.
    needed - elapsed
  else if current = 0 then
    toNext
  else
    -- In the next window `current` is the previous count.
    U64.saturatingAdd toNext (rateWindowMs -
      U64.saturatingMul (limit - 1) rateWindowMs / current)

/-- The wait in whole seconds, at least one. -/
def retryAfter (previous current elapsedMs limit : Nat) : Nat :=
  let ms := retryAfterMs previous current elapsedMs limit
  min (max ((ms + 999) / 1000) 1) (2 ^ 32 - 1)

/-- The counts one rate check saw. -/
structure RateCounts where
  previous : Nat
  current : Nat
  elapsedMs : Nat
  limit : Nat
deriving DecidableEq

def RateCounts.admits (counts : RateCounts) : Bool :=
  Gateway.admits counts.previous counts.current counts.elapsedMs counts.limit

def RateCounts.retryAfterSecs (counts : RateCounts) : Nat :=
  retryAfter counts.previous counts.current counts.elapsedMs counts.limit

/-- The counts of the last window that saw a request and of the one before. -/
structure SlidingWindow where
  window : Nat
  previous : Nat
  current : Nat
deriving DecidableEq

namespace SlidingWindow

def default : SlidingWindow := ⟨0, 0, 0⟩

/-- The counts as seen at `now`.  A clock before the stored window reads that
window at its start. -/
def counts (state : SlidingWindow) (now : SystemTime) (limit : NonZeroU64) :
    RateCounts :=
  let here := WindowIndex.atInstant now
  if here.index = state.window then
    ⟨state.previous, state.current, here.elapsedMs, limit.val⟩
  else if here.index = U64.saturatingAdd state.window 1 then
    ⟨state.current, 0, here.elapsedMs, limit.val⟩
  else if state.window < here.index then
    ⟨0, 0, here.elapsedMs, limit.val⟩
  else
    ⟨state.previous, state.current, 0, limit.val⟩

def check (state : SlidingWindow) (now : SystemTime) (limit : NonZeroU64) :
    Except RateCounts Unit :=
  if (state.counts now limit).admits then .ok ()
  else .error (state.counts now limit)

/-- Counts one admitted request; the window never moves backward. -/
def commit (state : SlidingWindow) (now : SystemTime) : SlidingWindow :=
  let here := WindowIndex.atInstant now
  let moved : SlidingWindow :=
    if state.window < here.index then
      { window := here.index
        previous :=
          if here.index = U64.saturatingAdd state.window 1 then state.current
          else 0
        current := 0 }
    else
      state
  { moved with current := U64.saturatingAdd moved.current 1 }

end SlidingWindow

/-- A window together with the instants it admitted. -/
structure Meter where
  state : SlidingWindow
  admitted : List SystemTime
deriving DecidableEq

namespace Meter

/-- One check, and the commit when it passes. -/
def step (limit : NonZeroU64) (meter : Meter) (now : SystemTime) : Meter :=
  match meter.state.check now limit with
  | .ok _ => ⟨meter.state.commit now, meter.admitted ++ [now]⟩
  | .error _ => meter

def run (limit : NonZeroU64) (clock : List SystemTime) : Meter :=
  clock.foldl (step limit) ⟨.default, []⟩

def countAt (meter : Meter) (index : Nat) : Nat :=
  meter.admitted.countP fun instant =>
    (WindowIndex.atInstant instant).index = index

end Meter

/-- A minute in nanoseconds. -/
def minuteNs : Nat := 60000000000

/-- Where the limit side does not saturate, the test is exact. -/
theorem admits_iff {previous current elapsed limit : Nat}
    (inWindow : elapsed < rateWindowMs)
    (fits : limit * rateWindowMs ≤ U64.maxValue) :
    admits previous current elapsed limit = true ↔
      previous * (rateWindowMs - elapsed) + current * rateWindowMs +
        rateWindowMs ≤ limit * rateWindowMs := by
  have clamped : min elapsed (rateWindowMs - 1) = elapsed := by
    unfold rateWindowMs at inWindow ⊢
    omega
  simp only [admits, clamped, U64.saturatingAdd, U64.saturatingMul,
    decide_eq_true_eq]
  generalize previous * (rateWindowMs - elapsed) = weight
  unfold rateWindowMs U64.maxValue at *
  omega

theorem limit_fits {limit : NonZeroU64}
    (within : limit.val ≤ maxRequestsPerMinute) :
    limit.val * rateWindowMs ≤ U64.maxValue := by
  unfold maxRequestsPerMinute at within
  unfold rateWindowMs U64.maxValue
  omega

theorem room_of_admits {previous current elapsed limit : Nat}
    (inWindow : elapsed < rateWindowMs)
    (fits : limit * rateWindowMs ≤ U64.maxValue)
    (admitted : admits previous current elapsed limit = true) :
    current + 1 ≤ limit := by
  have bound := (admits_iff inWindow fits).mp admitted
  unfold rateWindowMs at bound
  omega

/-- The previous count never weighs nothing, so it takes part of the limit. -/
theorem strict_of_admits {previous current elapsed limit : Nat}
    (inWindow : elapsed < rateWindowMs)
    (fits : limit * rateWindowMs ≤ U64.maxValue)
    (admitted : admits previous current elapsed limit = true)
    (counted : 0 < previous) : current + 1 < limit := by
  have bound := (admits_iff inWindow fits).mp admitted
  have weight : 0 < previous * (rateWindowMs - elapsed) := by
    apply Nat.mul_pos counted
    omega
  unfold rateWindowMs at bound weight
  omega

namespace WindowIndex

theorem atInstant_elapsedMs_lt (now : SystemTime) :
    (atInstant now).elapsedMs < rateWindowMs :=
  Nat.mod_lt _ (by decide)

theorem atInstant_index (now : SystemTime) :
    (atInstant now).index =
      min (now.toNat / minuteNs) (U64.maxValue / rateWindowMs) := by
  unfold atInstant unixMs minuteNs U64.maxValue rateWindowMs
  dsimp only
  omega

theorem atInstant_index_mono {earlier later : SystemTime}
    (ordered : earlier ≤ later) :
    (atInstant earlier).index ≤ (atInstant later).index := by
  rw [atInstant_index, atInstant_index]
  have nats : earlier.toNat ≤ later.toNat := Int.toNat_le_toNat ordered
  have minutes : earlier.toNat / minuteNs ≤ later.toNat / minuteNs :=
    Nat.div_le_div_right nats
  omega

/-- One minute later is at most one window later. -/
theorem atInstant_index_le_succ {start instant : Int}
    (before : instant < start + minuteNs) :
    (atInstant instant).index ≤ (atInstant start).index + 1 := by
  rw [atInstant_index, atInstant_index]
  unfold minuteNs U64.maxValue rateWindowMs at *
  omega

theorem atInstant_index_of_minute {instant minute : Int}
    (inMinute : instant / minuteNs = minute) :
    (atInstant instant).index = (atInstant (minute * minuteNs)).index := by
  rw [atInstant_index, atInstant_index]
  unfold minuteNs U64.maxValue rateWindowMs at *
  omega

/-- The index is far below the largest counter value. -/
theorem atInstant_index_lt (now : SystemTime) :
    (atInstant now).index < U64.maxValue := by
  rw [atInstant_index]
  unfold U64.maxValue rateWindowMs
  omega

end WindowIndex

namespace SlidingWindow

variable {state : SlidingWindow} {now : SystemTime} {limit : NonZeroU64}

theorem check_ok : state.check now limit = .ok () ↔
    (state.counts now limit).admits = true := by
  unfold check
  split
  case isTrue admitted => simp [admitted]
  case isFalse refused => simp [refused]

theorem counts_elapsedMs_lt (state : SlidingWindow) (now : SystemTime)
    (limit : NonZeroU64) :
    (state.counts now limit).elapsedMs < rateWindowMs := by
  have inWindow := WindowIndex.atInstant_elapsedMs_lt now
  have positive : 0 < rateWindowMs := by decide
  unfold counts
  dsimp only
  split
  · exact inWindow
  · split
    · exact inWindow
    · split
      · exact inWindow
      · exact positive

theorem counts_limit (state : SlidingWindow) (now : SystemTime)
    (limit : NonZeroU64) : (state.counts now limit).limit = limit.val := by
  unfold counts
  dsimp only
  split
  · rfl
  · split
    · rfl
    · split <;> rfl

theorem commit_current (state : SlidingWindow) (now : SystemTime)
    (limit : NonZeroU64) :
    (state.commit now).current =
      U64.saturatingAdd (state.counts now limit).current 1 := by
  unfold commit counts
  dsimp only
  by_cases later : state.window < (WindowIndex.atInstant now).index
  · have different : (WindowIndex.atInstant now).index ≠ state.window := by
      omega
    simp only [later, different, if_true, if_false]
    split <;> rfl
  · simp only [later, if_false]
    split
    · rfl
    · split
      case isTrue isNext =>
        -- The index is far from saturation, so it is no successor here.
        have bound := WindowIndex.atInstant_index_lt now
        unfold U64.saturatingAdd at isNext
        omega
      case isFalse => rfl

/-- A passed check leaves room for the commit. -/
theorem commit_current_le (within : limit.val ≤ maxRequestsPerMinute)
    (passed : state.check now limit = .ok ()) :
    (state.commit now).current ≤ limit.val := by
  have admitted : admits (state.counts now limit).previous
      (state.counts now limit).current (state.counts now limit).elapsedMs
      limit.val = true := by
    have checked := check_ok.mp passed
    unfold RateCounts.admits at checked
    rwa [counts_limit] at checked
  have room := room_of_admits (counts_elapsedMs_lt state now limit)
    (limit_fits within) admitted
  rw [commit_current state now limit]
  unfold U64.saturatingAdd
  omega

/-- What a passed check at an instant that is not before the window says about
the counts after the commit. -/
inductive Advance (state : SlidingWindow) (now : SystemTime) (limit : Nat) :
    SlidingWindow → Prop
  | stays (same : (WindowIndex.atInstant now).index = state.window)
      (room : state.current + 1 ≤ limit)
      (strict : 0 < state.previous → state.current + 1 < limit) :
      Advance state now limit
        ⟨state.window, state.previous, state.current + 1⟩
  | next (same : (WindowIndex.atInstant now).index = state.window + 1)
      (strict : 0 < state.current → 1 < limit) :
      Advance state now limit ⟨state.window + 1, state.current, 1⟩
  | jumps (index : Nat)
      (same : (WindowIndex.atInstant now).index = index)
      (far : state.window + 1 < index) :
      Advance state now limit ⟨index, 0, 1⟩

theorem commit_advances (within : limit.val ≤ maxRequestsPerMinute)
    (reached : state.window ≤ (WindowIndex.atInstant now).index)
    (passed : state.check now limit = .ok ()) :
    Advance state now limit.val (state.commit now) := by
  have inWindow := WindowIndex.atInstant_elapsedMs_lt now
  have small := WindowIndex.atInstant_index_lt now
  have fits := limit_fits within
  have large : limit.val < U64.maxValue := by
    unfold maxRequestsPerMinute at within
    unfold U64.maxValue
    omega
  have successor : U64.saturatingAdd state.window 1 = state.window + 1 :=
    Nat.min_eq_left (Nat.succ_le_of_lt (reached.trans_lt small))
  have admitted := check_ok.mp passed
  unfold RateCounts.admits counts at admitted
  unfold commit
  dsimp only at admitted ⊢
  rw [successor] at admitted ⊢
  by_cases same : (WindowIndex.atInstant now).index = state.window
  · simp only [same, if_true] at admitted
    have room := room_of_admits inWindow fits admitted
    have counted : U64.saturatingAdd state.current 1 = state.current + 1 :=
      Nat.min_eq_left (room.trans large.le)
    simp only [same, lt_self_iff_false, if_false, counted]
    exact .stays same room (strict_of_admits inWindow fits admitted)
  · have later : state.window < (WindowIndex.atInstant now).index := by omega
    have first : U64.saturatingAdd 0 1 = 1 := by decide
    simp only [same, if_false] at admitted
    simp only [later, if_true, first]
    by_cases isNext : (WindowIndex.atInstant now).index = state.window + 1
    · simp only [isNext, if_true] at admitted ⊢
      apply Advance.next isNext
      intro counted
      exact strict_of_admits inWindow fits admitted counted
    · simp only [isNext, if_false]
      exact .jumps _ rfl (by omega)

end SlidingWindow

namespace Meter

variable {limit : NonZeroU64} {meter : Meter} {now : SystemTime}

theorem run_append (limit : NonZeroU64) (clock : List SystemTime)
    (now : SystemTime) :
    run limit (clock ++ [now]) = (run limit clock).step limit now := by
  unfold run
  rw [List.foldl_append, List.foldl_cons, List.foldl_nil]

theorem step_cases (limit : NonZeroU64) (meter : Meter) (now : SystemTime) :
    meter.step limit now = meter ∨
      (meter.state.check now limit = .ok () ∧
        meter.step limit now =
          ⟨meter.state.commit now, meter.admitted ++ [now]⟩) := by
  -- The function is unfolded before it is applied, so that the arithmetic of
  -- the check is not evaluated.
  generalize isStep : step = stepped
  delta step at isStep
  rw [← isStep]
  dsimp only
  generalize isAnswer : meter.state.check now limit = answer
  cases answer with
  | ok passed => exact .inr ⟨rfl, rfl⟩
  | error refused => exact .inl rfl

theorem run_admitted_mem (limit : NonZeroU64) (clock : List SystemTime) :
    ∀ instant ∈ (run limit clock).admitted, instant ∈ clock := by
  induction clock using List.reverseRecOn with
  | nil => simp [run]
  | append_singleton clock now ih =>
      intro instant member
      rw [run_append] at member
      rcases step_cases limit (run limit clock) now with
        refused | ⟨_, admitted⟩
      · rw [refused] at member
        exact List.mem_append_left _ (ih instant member)
      · rw [admitted] at member
        rcases List.mem_append.mp member with old | new
        · exact List.mem_append_left _ (ih instant old)
        · exact List.mem_append_right _ new

theorem run_current_le (within : limit.val ≤ maxRequestsPerMinute)
    (clock : List SystemTime) :
    (run limit clock).state.current ≤ limit.val := by
  induction clock using List.reverseRecOn with
  | nil => exact Nat.zero_le _
  | append_singleton clock now ih =>
      rw [run_append]
      rcases step_cases limit (run limit clock) now with
        refused | ⟨passed, admitted⟩
      · rw [refused]
        exact ih
      · rw [admitted]
        exact SlidingWindow.commit_current_le within passed

/-- No window is over the limit, and no window after an occupied one is
full. -/
structure Spaced (limit : Nat) (count : Nat → Nat) : Prop where
  bounded : ∀ index, count index ≤ limit
  spaced : ∀ index, 0 < count index → count (index + 1) < limit

theorem Spaced.increment {bound top : Nat} {count : Nat → Nat}
    (before : Spaced bound count) (room : count top + 1 ≤ bound)
    (strict : ∀ index, index + 1 = top → 0 < count index →
      count top + 1 < bound)
    (above : ∀ index, top < index → count index = 0) :
    Spaced bound fun index => count index + if top = index then 1 else 0 := by
  constructor
  · intro index
    split
    case isTrue here =>
      rw [← here]
      exact room
    case isFalse => exact before.bounded index
  · intro index occupied
    by_cases isNext : top = index + 1
    · have other : top ≠ index := by omega
      rw [if_neg other] at occupied
      rw [if_pos isNext, ← isNext]
      exact strict index isNext.symm occupied
    · rw [if_neg isNext]
      by_cases here : top = index
      · have empty := above (index + 1) (by omega)
        omega
      · rw [if_neg here] at occupied
        exact before.spaced index occupied

/-- The stored counts are the numbers of admitted requests of the last two
windows. -/
structure Tracks (limit : Nat) (meter : Meter) : Prop where
  current : meter.state.current = meter.countAt meter.state.window
  previous : ∀ index, index + 1 = meter.state.window →
    meter.state.previous = meter.countAt index
  later : ∀ index, meter.state.window < index → meter.countAt index = 0
  reached : meter.state.window = 0 ∨ ∃ instant ∈ meter.admitted,
    (WindowIndex.atInstant instant).index = meter.state.window
  spaced : Spaced limit meter.countAt

theorem countAt_append (meter : Meter) (next : SlidingWindow)
    (now : SystemTime) :
    countAt ⟨next, meter.admitted ++ [now]⟩ = fun index =>
      meter.countAt index +
        if (WindowIndex.atInstant now).index = index then 1 else 0 := by
  funext index
  simp [countAt, List.countP_append, List.countP_cons]

/-- A commit at the top window counts its request there. -/
theorem Tracks.extend (tracks : Tracks limit.val meter)
    {next : SlidingWindow}
    (moved : (WindowIndex.atInstant now).index = next.window)
    (notBack : meter.state.window ≤ next.window)
    (current : next.current = meter.countAt next.window + 1)
    (previous : ∀ index, index + 1 = next.window →
      next.previous = meter.countAt index)
    (room : next.current ≤ limit.val)
    (strict : 0 < next.previous → next.current < limit.val) :
    Tracks limit.val ⟨next, meter.admitted ++ [now]⟩ := by
  have above : ∀ index, next.window < index → meter.countAt index = 0 := by
    intro index beyond
    exact tracks.later index (by omega)
  have roomy : meter.countAt next.window + 1 ≤ limit.val := by
    rw [← current]
    exact room
  have strictly : ∀ index, index + 1 = next.window →
      0 < meter.countAt index → meter.countAt next.window + 1 < limit.val := by
    intro index isPrevious occupied
    rw [← previous index isPrevious] at occupied
    rw [← current]
    exact strict occupied
  constructor
  case current => simp [countAt_append, moved, current]
  case previous =>
    intro index isPrevious
    have below : index + 1 = next.window := isPrevious
    have other : next.window ≠ index := by omega
    simp [countAt_append, moved, other, previous index below]
  case later =>
    intro index beyond
    have higher : next.window < index := beyond
    have other : next.window ≠ index := by omega
    simp [countAt_append, moved, other, above index higher]
  case reached => exact .inr ⟨now, by simp, moved⟩
  case spaced =>
    rw [countAt_append, moved]
    exact tracks.spaced.increment roomy strictly above

theorem Tracks.commit (tracks : Tracks limit.val meter)
    (within : limit.val ≤ maxRequestsPerMinute)
    (notBefore : meter.state.window ≤ (WindowIndex.atInstant now).index)
    (passed : meter.state.check now limit = .ok ()) :
    Tracks limit.val ⟨meter.state.commit now, meter.admitted ++ [now]⟩ := by
  have positive : 0 < limit.val := limit.property.1
  have advance := SlidingWindow.commit_advances within notBefore passed
  generalize meter.state.commit now = committed at advance
  cases advance with
  | stays same room strict =>
      apply tracks.extend
      · exact same
      · exact le_rfl
      · exact congrArg (· + 1) tracks.current
      · exact tracks.previous
      · exact room
      · exact strict
  | next same strict =>
      have fresh : meter.countAt (meter.state.window + 1) = 0 :=
        tracks.later _ (Nat.lt_succ_self _)
      apply tracks.extend same (Nat.le_succ _)
      · exact (congrArg (· + 1) fresh).symm
      · intro index isPrevious
        have isWindow : index = meter.state.window := by
          simpa using isPrevious
        rw [isWindow]
        exact tracks.current
      · exact positive
      · exact strict
  | jumps index same far =>
      have fresh : ∀ other, meter.state.window < other →
          meter.countAt other = 0 := tracks.later
      apply tracks.extend same
      · exact Nat.le_of_lt (Nat.lt_of_succ_lt far)
      · exact (congrArg (· + 1) (fresh index (Nat.lt_of_succ_lt far))).symm
      · intro other isPrevious
        have below : other + 1 = index := isPrevious
        rw [fresh other (by omega)]
      · exact positive
      · intro counted
        cases counted

theorem tracks_start (limit : NonZeroU64) :
    Tracks limit.val ⟨.default, []⟩ where
  current := rfl
  previous := by
    intro index isPrevious
    cases isPrevious
  later _ _ := rfl
  reached := .inl rfl
  spaced := ⟨fun _ => Nat.zero_le _, fun _ occupied => by cases occupied⟩

/-- Under a clock that never steps back the stored counts are exact. -/
theorem run_tracks (within : limit.val ≤ maxRequestsPerMinute)
    {clock : List SystemTime} (forward : clock.Pairwise (· ≤ ·)) :
    Tracks limit.val (run limit clock) := by
  induction clock using List.reverseRecOn with
  | nil => exact tracks_start limit
  | append_singleton clock now ih =>
      obtain ⟨before, _, atLast⟩ := List.pairwise_append.mp forward
      have tracks := ih before
      rw [run_append]
      rcases step_cases limit (run limit clock) now with
        refused | ⟨passed, admitted⟩
      · rw [refused]
        exact tracks
      · rw [admitted]
        apply tracks.commit within _ passed
        rcases tracks.reached with start | ⟨instant, member, isWindow⟩
        · rw [start]
          exact Nat.zero_le _
        · rw [← isWindow]
          apply WindowIndex.atInstant_index_mono
          exact atLast instant (run_admitted_mem limit clock instant member)
            now List.mem_cons_self

theorem countP_le_of_covered {admitted : List SystemTime}
    {covered first second : SystemTime → Bool}
    (split : ∀ instant, covered instant = true →
      first instant = true ∨ second instant = true) :
    admitted.countP covered ≤
      admitted.countP first + admitted.countP second := by
  induction admitted with
  | nil => simp
  | cons instant rest ih =>
      have here := split instant
      simp only [List.countP_cons]
      split_ifs <;> grind

/-- The bounds of a run.  The first holds for every clock; the others count the
admitted requests of an aligned minute and of any interval of one minute. -/
theorem window_bounds (within : limit.val ≤ maxRequestsPerMinute)
    (clock : List SystemTime) :
    (run limit clock).state.current ≤ limit.val ∧
      (clock.Pairwise (· ≤ ·) →
        (∀ minute : Int, (run limit clock).admitted.countP
          (fun instant => instant / minuteNs = minute) ≤ limit.val) ∧
        ∀ start : Int, (run limit clock).admitted.countP
          (fun instant => start ≤ instant ∧ instant < start + minuteNs) <
            2 * limit.val) := by
  refine ⟨run_current_le within clock, fun forward => ?_⟩
  have tracks := run_tracks within forward
  constructor
  · intro minute
    apply le_trans _ (tracks.spaced.bounded
      (WindowIndex.atInstant (minute * minuteNs)).index)
    apply List.countP_mono_left
    intro instant _ inMinute
    simp only [decide_eq_true_eq] at inMinute ⊢
    exact WindowIndex.atInstant_index_of_minute inMinute
  · intro start
    have positive : 0 < limit.val := limit.property.1
    let index := (WindowIndex.atInstant start).index
    have covered : (run limit clock).admitted.countP
        (fun instant => start ≤ instant ∧ instant < start + minuteNs) ≤
          (run limit clock).countAt index +
            (run limit clock).countAt (index + 1) := by
      apply countP_le_of_covered
      intro instant inside
      simp only [decide_eq_true_eq] at inside ⊢
      have low := WindowIndex.atInstant_index_mono inside.1
      have high := WindowIndex.atInstant_index_le_succ inside.2
      omega
    have first := tracks.spaced.bounded index
    have second := tracks.spaced.bounded (index + 1)
    have spaced := tracks.spaced.spaced index
    omega

def twoPerMinute : NonZeroU64 := ⟨2, by decide⟩

/-- Two requests fill the second minute; half a minute into the third there is
room for one more. -/
def sampleClock : List SystemTime :=
  [60000000000, 60000000001, 90000000000, 150000000000]

theorem window_bounds_sample :
    (run twoPerMinute sampleClock).admitted =
        [60000000000, 60000000001, 150000000000] ∧
      (run twoPerMinute sampleClock).state.current ≤ 2 ∧
      (run twoPerMinute sampleClock).admitted.countP
        (fun instant : Int => 60000000001 ≤ instant ∧
          instant < 60000000001 + minuteNs) < 2 * 2 := by
  have within : twoPerMinute.val ≤ maxRequestsPerMinute := by decide
  have forward : sampleClock.Pairwise (· ≤ ·) := by decide
  obtain ⟨stored, intervals⟩ := window_bounds within sampleClock
  refine ⟨by decide, stored, ?_⟩
  exact (intervals forward).2 60000000001

end Meter

end Paigasus.Gateway
