import Paigasus.Gateway.RedisStore
import Paigasus.Gateway.Sweep

/-!
# A sliding window in the shared store

Every window of a rate has a key of its own there, which holds the count of the
window and expires after the next one has ended.  A sliding window keeps two of
these counts; the script reads the same two.
-/

namespace Paigasus.Gateway

open Foundation

/-- An instant lies in its window. -/
theorem WindowIndex.unixMs_bounds (now : SystemTime) :
    (atInstant now).index * rateWindowMs ≤ unixMs now ∧
      unixMs now < ((atInstant now).index + 1) * rateWindowMs := by
  have parts := Nat.div_add_mod' (unixMs now) rateWindowMs
  have rest := Nat.mod_lt (unixMs now) (show 0 < rateWindowMs by decide)
  have isIndex : (atInstant now).index = unixMs now / rateWindowMs := rfl
  rw [isIndex, Nat.add_mul, Nat.one_mul]
  omega

namespace SlidingWindow

/-- The count of one window; it is known from the previous window on. -/
def countAt (state : SlidingWindow) (index : Nat) : Nat :=
  if index = state.window then state.current
  else if index + 1 = state.window then state.previous
  else 0

variable {state : SlidingWindow} {now : SystemTime}

theorem counts_eq_countAt
    (notAhead : state.window ≤ (WindowIndex.atInstant now).index)
    (begun : 1 ≤ (WindowIndex.atInstant now).index) (limit : NonZeroU64) :
    state.counts now limit =
      ⟨state.countAt ((WindowIndex.atInstant now).index - 1),
        state.countAt (WindowIndex.atInstant now).index,
        (WindowIndex.atInstant now).elapsedMs, limit.val⟩ := by
  obtain ⟨gap, reached⟩ := Nat.exists_eq_add_of_le notAhead
  rw [counts_eq_shifted limit reached]
  rw [reached] at begun ⊢
  unfold countAt
  match gap with
  | 0 =>
      rw [if_neg (by omega), if_pos (by omega), if_pos (by omega)]
      rfl
  | 1 =>
      rw [if_pos (by omega), if_neg (by omega), if_neg (by omega)]
      rfl
  | more + 2 =>
      rw [if_neg (by omega), if_neg (by omega), if_neg (by omega),
        if_neg (by omega)]
      rfl

/-- A commit counts one request in the current window. -/
theorem countAt_commit
    (notAhead : state.window ≤ (WindowIndex.atInstant now).index)
    (small : state.countAt (WindowIndex.atInstant now).index < U64.maxValue)
    {index : Nat} (recent : (WindowIndex.atInstant now).index ≤ index + 1) :
    (state.commit now).countAt index =
      if index = (WindowIndex.atInstant now).index then
        state.countAt (WindowIndex.atInstant now).index + 1
      else state.countAt index := by
  have inRange := WindowIndex.atInstant_index_lt now
  unfold commit
  dsimp only
  generalize (WindowIndex.atInstant now).index = here at *
  have successor : U64.saturatingAdd state.window 1 = state.window + 1 :=
    Nat.min_eq_left (by omega)
  have next {value : Nat} (below : value < U64.maxValue) :
      U64.saturatingAdd value 1 = value + 1 := Nat.min_eq_left (by omega)
  have positive : 0 < U64.maxValue := by omega
  rw [successor]
  rcases Nat.lt_or_eq_of_le notAhead with later | same
  · rw [if_pos later, next positive]
    unfold countAt
    grind
  · rw [if_neg (by omega)]
    unfold countAt at small ⊢
    rw [if_pos same.symm] at small
    rw [next small]
    grind

end SlidingWindow

/-- The end of the window after the given one, in milliseconds. -/
def keptUntil (index : Nat) : Int := (index + 2) * rateWindowMs

/-- The counts of a sliding window stand under the keys of its windows. -/
structure MirrorsWindow (now : SystemTime) (state : SlidingWindow)
    (database : Redis) (key : Nat → String) : Prop where
  notAhead : state.window ≤ (WindowIndex.atInstant now).index
  small : ∀ index, state.countAt index ≤ maxRequestsPerMinute
  kept : ∀ index, state.window ≤ index + 1 →
    database.Keeps (key index) (keptUntil index) (state.countAt index)

namespace MirrorsWindow

variable {now later : SystemTime} {state : SlidingWindow}
  {database after : Redis} {key : Nat → String}

theorem advance (mirrors : MirrorsWindow now state database key)
    (forward : now ≤ later) : MirrorsWindow later state database key where
  notAhead := mirrors.notAhead.trans (WindowIndex.atInstant_index_mono forward)
  small := mirrors.small
  kept := mirrors.kept

theorem frame (mirrors : MirrorsWindow now state database key)
    (same : ∀ index, after.lookup (key index) = database.lookup (key index)) :
    MirrorsWindow now state after key where
  notAhead := mirrors.notAhead
  small := mirrors.small
  kept index recent :=
    (Redis.Keeps.congr (same index)).mpr (mirrors.kept index recent)

/-- The keys that a check reads hold the counts of the window. -/
theorem counts (mirrors : MirrorsWindow now state database key)
    (begun : 1 ≤ (WindowIndex.atInstant now).index) (limit : NonZeroU64) :
    database.Counts (unixMs now) (key (WindowIndex.atInstant now).index)
        (state.counts now limit).current ∧
      database.Counts (unixMs now) (key ((WindowIndex.atInstant now).index - 1))
        (state.counts now limit).previous := by
  obtain ⟨_, below⟩ := WindowIndex.unixMs_bounds now
  have notAhead := mirrors.notAhead
  rw [SlidingWindow.counts_eq_countAt notAhead begun]
  constructor
  · apply (mirrors.kept _ (by omega)).counts
    unfold keptUntil rateWindowMs at *
    omega
  · apply (mirrors.kept _ (by omega)).counts
    unfold keptUntil rateWindowMs at *
    omega

/-- What a check reads is small, and its place in the window is the clock's. -/
theorem counts_small (mirrors : MirrorsWindow now state database key)
    (begun : 1 ≤ (WindowIndex.atInstant now).index) (limit : NonZeroU64) :
    (state.counts now limit).current ≤ maxRequestsPerMinute ∧
      (state.counts now limit).previous ≤ maxRequestsPerMinute ∧
      (state.counts now limit).elapsedMs =
        (WindowIndex.atInstant now).elapsedMs := by
  rw [SlidingWindow.counts_eq_countAt mirrors.notAhead begun]
  exact ⟨mirrors.small _, mirrors.small _, rfl⟩

/-- The script's check of the window's rate. -/
theorem rate (mirrors : MirrorsWindow now state database key)
    (begun : 1 ≤ (WindowIndex.atInstant now).index)
    (limit : Option NonZeroU64)
    (within : ∀ bound ∈ limit, bound.val ≤ maxRequestsPerMinute) :
    AdmissionScript.rate database (unixMs now)
        (AdmissionScript.clamp (.ofInt (WindowIndex.atInstant now).elapsedMs))
        (key (WindowIndex.atInstant now).index)
        (key ((WindowIndex.atInstant now).index - 1))
        (RedisLimitStore.limitArg limit) =
      .ok (AdmissionScript.rateOf limit (state.counts now)) := by
  apply AdmissionScript.rate_of_counts limit
    (WindowIndex.atInstant_elapsedMs_lt now) within
  · exact fun bound => (mirrors.counts begun bound).1
  · exact fun bound => (mirrors.counts begun bound).2
  · exact fun bound => (mirrors.counts_small begun bound).1
  · exact fun bound => (mirrors.counts_small begun bound).2.1
  · exact fun bound => ⟨(mirrors.counts_small begun bound).2.2,
      SlidingWindow.counts_limit state now bound⟩

/-- A failed rate is read from the reply as the store reports it. -/
theorem rateFailure (mirrors : MirrorsWindow now state database key)
    (begun : 1 ≤ (WindowIndex.atInstant now).index)
    (limit : Option NonZeroU64) (report : RateCounts → FailedCheck) :
    RedisLimitStore.rateFailure
        (AdmissionScript.flag
          (AdmissionScript.rateOf limit (state.counts now)).ok) limit
        (AdmissionScript.wireInteger
          (AdmissionScript.rateOf limit (state.counts now)).previous)
        (AdmissionScript.wireInteger
          (AdmissionScript.rateOf limit (state.counts now)).current)
        (WindowIndex.atInstant now) report =
      .ok (MemoryLimitStore.failedRate state limit now report) :=
  RedisLimitStore.rateFailure_rateOf limit report
    (fun bound => (mirrors.counts_small begun bound).1)
    (fun bound => (mirrors.counts_small begun bound).2.1)
    (fun bound => (mirrors.counts_small begun bound).2.2)

/-- A request is counted under the key of the current window. -/
theorem commit (mirrors : MirrorsWindow now state database key)
    (room : state.countAt (WindowIndex.atInstant now).index + 1 ≤
      maxRequestsPerMinute)
    (counted : after.lookup (key (WindowIndex.atInstant now).index) =
      some ⟨toString (state.countAt (WindowIndex.atInstant now).index + 1),
        some (unixMs now + 180000)⟩)
    (others : ∀ index, index ≠ (WindowIndex.atInstant now).index →
      after.lookup (key index) = database.lookup (key index)) :
    MirrorsWindow now (state.commit now) after key := by
  have notAhead := mirrors.notAhead
  have small : state.countAt (WindowIndex.atInstant now).index <
      U64.maxValue := by
    unfold maxRequestsPerMinute at room
    unfold U64.maxValue
    omega
  have isWindow := SlidingWindow.commit_window_le state now notAhead
  constructor
  · rw [isWindow]
  · intro index
    by_cases recent : (WindowIndex.atInstant now).index ≤ index + 1
    · rw [SlidingWindow.countAt_commit notAhead small recent]
      split
      case isTrue => exact room
      case isFalse => exact mirrors.small index
    · unfold SlidingWindow.countAt
      rw [isWindow, if_neg (by omega), if_neg (by omega)]
      exact Nat.zero_le _
  · intro index recent
    rw [isWindow] at recent
    rw [SlidingWindow.countAt_commit notAhead small recent]
    split
    case isTrue same =>
      subst same
      apply Redis.keeps_of_lookup _ counted
      obtain ⟨reached, _⟩ := WindowIndex.unixMs_bounds now
      unfold keptUntil rateWindowMs at *
      omega
    case isFalse other =>
      apply (Redis.Keeps.congr (others index other)).mpr
      exact mirrors.kept index (by omega)

/-- Room for one more request, where the check passes. -/
theorem room_of_passed {limit : NonZeroU64}
    (within : limit.val ≤ maxRequestsPerMinute)
    (passed : (state.counts now limit).admits = true) :
    (state.counts now limit).current + 1 ≤ maxRequestsPerMinute := by
  have reached := SlidingWindow.commit_current_le within
    (SlidingWindow.check_ok.mpr passed)
  rw [SlidingWindow.commit_current _ _ limit] at reached
  unfold U64.saturatingAdd U64.maxValue maxRequestsPerMinute at *
  omega

/-- The script's count of a request that passed. -/
theorem count (mirrors : MirrorsWindow now state database key)
    (dated : IsDated now) (begun : 1 ≤ (WindowIndex.atInstant now).index)
    {limit : NonZeroU64} (within : limit.val ≤ maxRequestsPerMinute)
    (passed : (state.counts now limit).admits = true)
    (injective : ∀ index other, key index = key other → index = other) :
    ∃ after writes,
      AdmissionScript.countLimited (unixMs now)
          (Lua.tonumber (toString rateKeyTtlSecs))
          (RedisLimitStore.limitArg (some limit))
          (key (WindowIndex.atInstant now).index) database =
        (after, writes, none) ∧
      MirrorsWindow now (state.commit now) after key ∧
      ∀ other, other ≠ key (WindowIndex.atInstant now).index →
        after.lookup other = database.lookup other := by
  obtain ⟨current, _⟩ := mirrors.counts begun limit
  have room := room_of_passed within passed
  rw [SlidingWindow.counts_eq_countAt mirrors.notAhead begun]
    at current room
  dsimp only at current room
  have small : state.countAt (WindowIndex.atInstant now).index + 1 <
      2 ^ 63 := by
    unfold maxRequestsPerMinute at room
    omega
  have early : (unixMs now : Int) < 2 ^ 62 := by
    exact_mod_cast (MemoryLimitStore.nowSecs_bounds dated).2.2
  obtain ⟨after, writes, accepted, counted, others⟩ :=
    AdmissionScript.countLimited_of_counts limit early small current
  refine ⟨after, writes, accepted, mirrors.commit room counted ?_, others⟩
  intro index distinct
  exact others _ fun same => distinct (injective _ _ same)

end MirrorsWindow

theorem mirrorsWindow_empty (now : SystemTime) (key : Nat → String) :
    MirrorsWindow now .default ∅ key := by
  have noCount (index : Nat) : SlidingWindow.default.countAt index = 0 := by
    unfold SlidingWindow.countAt SlidingWindow.default
    grind
  constructor
  · exact Nat.zero_le _
  · intro index
    rw [noCount]
    exact Nat.zero_le _
  · intro index _
    rw [noCount]
    exact .inl ⟨AList.lookup_empty _, rfl⟩

end Paigasus.Gateway
