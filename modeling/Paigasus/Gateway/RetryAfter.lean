import Paigasus.Gateway.Limits

/-!
# The wait after a refused rate check

`retryAfterMs` inverts the weighted test: as long as no other request arrives,
the test fails before the wait is over and passes from then on.
-/

namespace Paigasus.Gateway

open Foundation

/-- Admission a while after the counts were read, if no other request arrives:
the counts shift by one window a minute. -/
def admittedAfter (previous current elapsedMs limit waitMs : Nat) : Bool :=
  let reached := elapsedMs + waitMs
  if reached < rateWindowMs then
    admits previous current reached limit
  else if reached < 2 * rateWindowMs then
    admits current 0 (reached - rateWindowMs) limit
  else
    admits 0 0 (reached % rateWindowMs) limit

/-- A limit that saturates admits everything. -/
theorem fits_of_refused {previous current elapsed limit : Nat}
    (refused : admits previous current elapsed limit = false) :
    limit * rateWindowMs ≤ U64.maxValue := by
  by_contra saturated
  have everything : admits previous current elapsed limit = true := by
    unfold admits U64.saturatingAdd U64.saturatingMul
    apply decide_eq_true
    omega
  rw [everything] at refused
  cases refused

section Exact

variable {previous current elapsed limit wait : Nat}

theorem admits_fresh (positive : 0 < limit)
    (fits : limit * rateWindowMs ≤ U64.maxValue)
    (inWindow : elapsed < rateWindowMs) : admits 0 0 elapsed limit = true := by
  apply (admits_iff inWindow fits).mpr
  have oneWindow : 1 * rateWindowMs ≤ limit * rateWindowMs :=
    Nat.mul_le_mul_right _ positive
  omega

/-- With room for one request beside `current`, the test passes once the
weight of the previous count is down to the rest of the limit. -/
theorem admits_iff_needed (fits : limit * rateWindowMs ≤ U64.maxValue)
    (inWindow : elapsed < rateWindowMs) (counted : 0 < previous)
    (room : current < limit) :
    admits previous current elapsed limit = true ↔
      rateWindowMs - (limit - current - 1) * rateWindowMs / previous ≤
        elapsed := by
  rw [admits_iff inWindow fits]
  have rest : limit * rateWindowMs = (limit - current - 1) * rateWindowMs +
      current * rateWindowMs + rateWindowMs := by
    have parts : limit = (limit - current - 1) + current + 1 := by omega
    calc limit * rateWindowMs
        = ((limit - current - 1) + current + 1) * rateWindowMs := by
          rw [← parts]
      _ = _ := by ring
  have divided : previous * (rateWindowMs - elapsed) ≤
      (limit - current - 1) * rateWindowMs ↔
        rateWindowMs - elapsed ≤
          (limit - current - 1) * rateWindowMs / previous := by
    rw [Nat.le_div_iff_mul_le counted, Nat.mul_comm]
  rw [rest]
  constructor
  · intro bound
    have weight := divided.mp (by omega)
    omega
  · intro bound
    have weight := divided.mpr (by omega)
    omega

/-- Without such room the whole window refuses. -/
theorem refused_of_no_room (fits : limit * rateWindowMs ≤ U64.maxValue)
    (inWindow : elapsed < rateWindowMs) (full : limit ≤ current) :
    admits previous current elapsed limit = false := by
  rw [← Bool.not_eq_true, admits_iff inWindow fits]
  have beyond := Nat.mul_le_mul_right rateWindowMs full
  have positive : 0 < rateWindowMs := by decide
  omega

theorem saturatingMul_rest (fits : limit * rateWindowMs ≤ U64.maxValue)
    (taken : Nat) :
    U64.saturatingMul (limit - taken) rateWindowMs =
      (limit - taken) * rateWindowMs :=
  Nat.min_eq_left
    ((Nat.mul_le_mul_right _ (Nat.sub_le limit taken)).trans fits)

/-- A row that passes keeps passing. -/
theorem admittedAfter_of_admits (positive : 0 < limit)
    (fits : limit * rateWindowMs ≤ U64.maxValue)
    (inWindow : elapsed < rateWindowMs)
    (admitted : admits previous current elapsed limit = true) (wait : Nat) :
    admittedAfter previous current elapsed limit wait = true := by
  have bound := (admits_iff inWindow fits).mp admitted
  unfold admittedAfter
  dsimp only
  split
  case isTrue same =>
    apply (admits_iff same fits).mpr
    have lighter : previous * (rateWindowMs - (elapsed + wait)) ≤
        previous * (rateWindowMs - elapsed) :=
      Nat.mul_le_mul_left _ (by omega)
    omega
  case isFalse =>
    split
    case isTrue next =>
      apply (admits_iff (by omega) fits).mpr
      have lighter : current *
          (rateWindowMs - (elapsed + wait - rateWindowMs)) ≤
            current * rateWindowMs :=
        Nat.mul_le_mul_left _ (Nat.sub_le _ _)
      omega
    case isFalse =>
      exact admits_fresh positive fits (Nat.mod_lt _ (by decide))

/-- The wait of a refused row that still passes within its window. -/
theorem admittedAfter_iff_needed (positive : 0 < limit)
    (fits : limit * rateWindowMs ≤ U64.maxValue) (counted : 0 < previous)
    (room : current < limit)
    (within : rateWindowMs - (limit - current - 1) * rateWindowMs / previous <
      rateWindowMs) (wait : Nat) :
    admittedAfter previous current elapsed limit wait = true ↔
      rateWindowMs - (limit - current - 1) * rateWindowMs / previous -
        elapsed ≤ wait := by
  unfold admittedAfter
  dsimp only
  split
  case isTrue same =>
    rw [admits_iff_needed fits same counted room]
    omega
  case isFalse later =>
    have waited : rateWindowMs -
        (limit - current - 1) * rateWindowMs / previous - elapsed ≤ wait := by
      omega
    refine ⟨fun _ => waited, fun _ => ?_⟩
    split
    case isTrue next =>
      apply (admits_iff (by omega) fits).mpr
      have lighter : current *
          (rateWindowMs - (elapsed + wait - rateWindowMs)) ≤
            current * rateWindowMs :=
        Nat.mul_le_mul_left _ (Nat.sub_le _ _)
      have roomy : (current + 1) * rateWindowMs ≤ limit * rateWindowMs :=
        Nat.mul_le_mul_right _ room
      rw [Nat.add_mul] at roomy
      omega
    case isFalse =>
      exact admits_fresh positive fits (Nat.mod_lt _ (by decide))

/-- The wait of a row whose own window refuses to its end. -/
theorem admittedAfter_iff_next (positive : 0 < limit)
    (fits : limit * rateWindowMs ≤ U64.maxValue)
    (inWindow : elapsed < rateWindowMs)
    (closed : ∀ later, later < rateWindowMs →
      admits previous current later limit = false) (wait : Nat) :
    admittedAfter previous current elapsed limit wait = true ↔
      (if current = 0 then rateWindowMs - elapsed
        else rateWindowMs - elapsed +
          (rateWindowMs - (limit - 1) * rateWindowMs / current)) ≤ wait := by
  unfold admittedAfter
  dsimp only
  split
  case isTrue same =>
    rw [closed _ same]
    constructor
    · intro impossible
      cases impossible
    · intro waited
      split at waited <;> omega
  case isFalse later =>
    by_cases idle : current = 0
    · subst idle
      rw [if_pos rfl]
      refine ⟨fun _ => by omega, fun _ => ?_⟩
      split
      case isTrue next => exact admits_fresh positive fits (by omega)
      case isFalse => exact admits_fresh positive fits (Nat.mod_lt _ (by decide))
    · rw [if_neg idle]
      split
      case isTrue next =>
        have counted : 0 < current := by omega
        rw [admits_iff_needed fits (by omega) counted positive, Nat.sub_zero]
        omega
      case isFalse afterNext =>
        have admitted : admits 0 0 ((elapsed + wait) % rateWindowMs) limit =
            true := admits_fresh positive fits (Nat.mod_lt _ (by decide))
        have offset : rateWindowMs - (limit - 1) * rateWindowMs / current ≤
            rateWindowMs := Nat.sub_le _ _
        generalize rateWindowMs - (limit - 1) * rateWindowMs / current = rest
          at offset
        exact ⟨fun _ => by omega, fun _ => admitted⟩

/-- The wait is exact to the millisecond. -/
theorem admittedAfter_iff (positive : 0 < limit)
    (fits : limit * rateWindowMs ≤ U64.maxValue)
    (inWindow : elapsed < rateWindowMs) (wait : Nat) :
    admittedAfter previous current elapsed limit wait = true ↔
      retryAfterMs previous current elapsed limit ≤ wait := by
  have clamped : min elapsed (rateWindowMs - 1) = elapsed := by omega
  unfold retryAfterMs
  dsimp only
  rw [clamped, Nat.sub_sub, saturatingMul_rest fits, saturatingMul_rest fits,
    ← Nat.sub_sub]
  split
  case isTrue admitted =>
    exact ⟨fun _ => Nat.zero_le _, fun _ => admittedAfter_of_admits positive
      fits inWindow admitted wait⟩
  case isFalse refused =>
    split
    case isTrue inside =>
      obtain ⟨counted, room, within⟩ := inside
      exact admittedAfter_iff_needed positive fits counted room within wait
    case isFalse outside =>
      have closed : ∀ later, later < rateWindowMs →
          admits previous current later limit = false := by
        intro later laterInWindow
        by_cases room : current < limit
        · by_cases counted : 0 < previous
          · rw [← Bool.not_eq_true,
              admits_iff_needed fits laterInWindow counted room]
            have never : rateWindowMs ≤ rateWindowMs -
                (limit - current - 1) * rateWindowMs / previous := by
              by_contra less
              exact outside ⟨counted, room, Nat.lt_of_not_le less⟩
            omega
          · exfalso
            apply refused
            have none : previous = 0 := by omega
            apply (admits_iff inWindow fits).mpr
            have roomy : (current + 1) * rateWindowMs ≤
                limit * rateWindowMs := Nat.mul_le_mul_right _ room
            rw [Nat.add_mul] at roomy
            rw [none, Nat.zero_mul]
            omega
        · exact refused_of_no_room fits laterInWindow (by omega)
      rw [admittedAfter_iff_next positive fits inWindow closed wait]
      have unsaturated : U64.saturatingAdd (rateWindowMs - elapsed)
          (rateWindowMs - (limit - 1) * rateWindowMs / current) =
            rateWindowMs - elapsed +
              (rateWindowMs - (limit - 1) * rateWindowMs / current) := by
        apply Nat.min_eq_left
        have first : rateWindowMs - elapsed ≤ rateWindowMs := Nat.sub_le _ _
        have second : rateWindowMs - (limit - 1) * rateWindowMs / current ≤
            rateWindowMs := Nat.sub_le _ _
        exact (Nat.add_le_add first second).trans (by decide)
      rw [unsaturated]

theorem retryAfterMs_le (positive : 0 < limit)
    (fits : limit * rateWindowMs ≤ U64.maxValue)
    (inWindow : elapsed < rateWindowMs) :
    retryAfterMs previous current elapsed limit ≤ 2 * rateWindowMs := by
  apply (admittedAfter_iff positive fits inWindow _).mp
  unfold admittedAfter
  dsimp only
  rw [if_neg (by omega), if_neg (by omega)]
  exact admits_fresh positive fits (Nat.mod_lt _ (by decide))

/-- A refused row passes from the reported second on, and not before. -/
theorem admittedAfter_secs_iff (positive : 0 < limit)
    (inWindow : elapsed < rateWindowMs)
    (refused : admits previous current elapsed limit = false) (secs : Nat) :
    admittedAfter previous current elapsed limit (1000 * secs) = true ↔
      retryAfter previous current elapsed limit ≤ secs := by
  have fits := fits_of_refused refused
  have bound : retryAfterMs previous current elapsed limit ≤
      2 * rateWindowMs := retryAfterMs_le positive fits inWindow
  have waits : 0 < retryAfterMs previous current elapsed limit := by
    rw [Nat.pos_iff_ne_zero]
    intro none
    have atOnce := (admittedAfter_iff positive fits inWindow 0).mpr none.le
    unfold admittedAfter at atOnce
    dsimp only at atOnce
    rw [Nat.add_zero, if_pos inWindow, refused] at atOnce
    cases atOnce
  rw [admittedAfter_iff positive fits inWindow]
  unfold retryAfter
  dsimp only
  unfold rateWindowMs at bound
  omega

/-- A row that passes keeps passing, whatever the limit. -/
theorem admittedAfter_of_passed (positive : 0 < limit)
    (inWindow : elapsed < rateWindowMs)
    (admitted : admits previous current elapsed limit = true) (wait : Nat) :
    admittedAfter previous current elapsed limit wait = true := by
  by_cases fits : limit * rateWindowMs ≤ U64.maxValue
  · exact admittedAfter_of_admits positive fits inWindow admitted wait
  · by_contra refused
    apply fits
    rw [Bool.not_eq_true] at refused
    unfold admittedAfter at refused
    dsimp only at refused
    split at refused
    · exact fits_of_refused refused
    · split at refused
      · exact fits_of_refused refused
      · exact fits_of_refused refused

end Exact

theorem one_le_retryAfterSecs (counts : RateCounts) :
    1 ≤ counts.retryAfterSecs := by
  unfold RateCounts.retryAfterSecs retryAfter
  dsimp only
  omega

/-- Milliseconds later, while the clock is representable. -/
theorem unixMs_add {now : Int} {wait : Nat} (afterEpoch : 0 ≤ now)
    (represented : (now + wait * 1000000).toNat / 1000000 ≤ U64.maxValue) :
    unixMs (now + wait * 1000000) = unixMs now + wait := by
  unfold unixMs
  omega

namespace SlidingWindow

/-- The two counts as they are read some windows after the stored one. -/
def shifted (state : SlidingWindow) : Nat → Nat × Nat
  | 0 => (state.previous, state.current)
  | 1 => (state.current, 0)
  | _ => (0, 0)

theorem counts_eq_shifted {state : SlidingWindow} {now : SystemTime}
    {gap : Nat} (limit : NonZeroU64)
    (reached : (WindowIndex.atInstant now).index = state.window + gap) :
    state.counts now limit = ⟨(state.shifted gap).1, (state.shifted gap).2,
      (WindowIndex.atInstant now).elapsedMs, limit.val⟩ := by
  have small := WindowIndex.atInstant_index_lt now
  have successor : U64.saturatingAdd state.window 1 = state.window + 1 :=
    Nat.min_eq_left (by omega)
  unfold counts
  dsimp only
  rw [successor]
  match gap with
  | 0 =>
      rw [if_pos (by omega)]
      rfl
  | 1 =>
      rw [if_neg (by omega), if_pos (by omega)]
      rfl
  | gap + 2 =>
      rw [if_neg (by omega), if_neg (by omega), if_pos (by omega)]
      rfl

theorem shifted_succ (state : SlidingWindow) (gap : Nat) :
    state.shifted (gap + 1) = ((state.shifted gap).2, 0) := by
  match gap with
  | 0 => rfl
  | 1 => rfl
  | _ + 2 => rfl

theorem shifted_far (state : SlidingWindow) {gap : Nat} (far : 2 ≤ gap) :
    state.shifted gap = (0, 0) := by
  match gap with
  | gap + 2 => rfl

/-- The counts read later are the counts of now, shifted. -/
theorem admits_later (state : SlidingWindow) {now : Int}
    (limit : NonZeroU64) {wait : Nat} (afterEpoch : 0 ≤ now)
    (represented : (now + wait * 1000000).toNat / 1000000 ≤ U64.maxValue)
    (notAhead : state.window ≤ (WindowIndex.atInstant now).index) :
    (state.counts (now + wait * 1000000) limit).admits =
      admittedAfter (state.counts now limit).previous
        (state.counts now limit).current (state.counts now limit).elapsedMs
        limit.val wait := by
  have moved := unixMs_add afterEpoch represented
  obtain ⟨gap, reached⟩ := Nat.exists_eq_add_of_le notAhead
  have here : (WindowIndex.atInstant now).elapsedMs =
      unixMs now % rateWindowMs := rfl
  have there : (WindowIndex.atInstant (now + wait * 1000000)).elapsedMs =
      (unixMs now + wait) % rateWindowMs := by
    rw [← moved]
    rfl
  have later : (WindowIndex.atInstant (now + wait * 1000000)).index =
      state.window +
        (gap + (unixMs now % rateWindowMs + wait) / rateWindowMs) := by
    have indexNow : unixMs now / rateWindowMs = state.window + gap := reached
    have indexLater :
        (WindowIndex.atInstant (now + wait * 1000000)).index =
          (unixMs now + wait) / rateWindowMs := by
      rw [← moved]
      rfl
    rw [indexLater]
    unfold rateWindowMs at indexNow ⊢
    omega
  rw [counts_eq_shifted limit reached, counts_eq_shifted limit later, here,
    there]
  unfold RateCounts.admits admittedAfter
  dsimp only
  split
  case isTrue same =>
    have offset : (unixMs now + wait) % rateWindowMs =
        unixMs now % rateWindowMs + wait := by
      unfold rateWindowMs at same ⊢
      omega
    rw [Nat.div_eq_of_lt same, Nat.add_zero, offset]
  case isFalse beyond =>
    split
    case isTrue next =>
      have oneWindow :
          (unixMs now % rateWindowMs + wait) / rateWindowMs = 1 := by
        unfold rateWindowMs at beyond next ⊢
        omega
      have offset : (unixMs now + wait) % rateWindowMs =
          unixMs now % rateWindowMs + wait - rateWindowMs := by
        unfold rateWindowMs at beyond next ⊢
        omega
      rw [oneWindow, shifted_succ, offset]
    case isFalse afterNext =>
      have windows :
          2 ≤ gap + (unixMs now % rateWindowMs + wait) / rateWindowMs := by
        unfold rateWindowMs at afterNext ⊢
        omega
      have offset : (unixMs now + wait) % rateWindowMs =
          (unixMs now % rateWindowMs + wait) % rateWindowMs := by
        unfold rateWindowMs
        omega
      rw [shifted_far state windows, offset]

/-- Seconds later a check passes if it passes now or its wait is over. -/
theorem admits_secs_later (state : SlidingWindow) {now : Int}
    (limit : NonZeroU64) {secs : Nat} (afterEpoch : 0 ≤ now)
    (represented :
      (now + secs * 1000000000).toNat / 1000000 ≤ U64.maxValue)
    (notAhead : state.window ≤ (WindowIndex.atInstant now).index) :
    (state.counts (now + secs * 1000000000) limit).admits = true ↔
      (state.counts now limit).admits = true ∨
        (state.counts now limit).retryAfterSecs ≤ secs := by
  have positive : 0 < limit.val := limit.property.1
  have inWindow := counts_elapsedMs_lt state now limit
  have sameInstant : now + (secs : Int) * 1000000000 =
      now + ((1000 * secs : Nat) : Int) * 1000000 := by
    omega
  rw [sameInstant] at represented ⊢
  rw [admits_later state limit afterEpoch represented notAhead]
  unfold RateCounts.retryAfterSecs RateCounts.admits
  rw [counts_limit]
  cases passed : admits (state.counts now limit).previous
      (state.counts now limit).current (state.counts now limit).elapsedMs
      limit.val with
  | true =>
      simp [admittedAfter_of_passed positive inWindow passed]
  | false =>
      rw [admittedAfter_secs_iff positive inWindow passed]
      simp

end SlidingWindow

/-- A rate refusal reports the longest wait of the failed rate checks. -/
theorem chooseRefusal_rateLimited {failed : List FailedCheck} {secs : Nat}
    {reason : RefusalReason}
    (chosen : chooseRefusal failed = some (.rateLimited secs reason)) :
    (∃ check ∈ failed, check.waitSecs? = some secs) ∧
      (∀ check ∈ failed, ∀ wait, check.waitSecs? = some wait →
        wait ≤ secs) := by
  unfold chooseRefusal at chosen
  split at chosen
  case h_1 period resetsAtUnix exhausted => cases chosen
  case h_2 within =>
    split at chosen
    case h_1 none => cases chosen
    case h_2 longest isLongest =>
      obtain ⟨member, bound⟩ := List.max?_eq_some_iff.mp isLongest
      obtain ⟨check, failing, waits⟩ := List.mem_filterMap.mp member
      have positive : 1 ≤ longest := by
        cases check with
        | principalRate counts =>
            cases waits
            exact one_le_retryAfterSecs counts
        | orgRate counts =>
            cases waits
            exact one_le_retryAfterSecs counts
        | budget period resetsAtUnix => cases waits
      simp only [Option.some.injEq, LimitRefusal.rateLimited.injEq] at chosen
      have same : longest = secs := by omega
      subst same
      refine ⟨⟨check, failing, waits⟩, ?_⟩
      intro other otherFailing wait otherWaits
      exact bound wait (List.mem_filterMap.mpr ⟨other, otherFailing, otherWaits⟩)

end Paigasus.Gateway
