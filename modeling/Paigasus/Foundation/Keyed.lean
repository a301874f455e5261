import Mathlib.Data.List.Basic
import Mathlib.Logic.Function.Basic

/-!
# Machines of independent slots

Every call names the one slot that it reads and writes.  The replies for one
slot are those of a run of its own calls, and a store whose steps keep a
relation to the slots gives the same replies as the slots.
-/

namespace Foundation

structure KeyedMachine (Key Slot Call Reply : Type*) where
  key : Call → Key
  step : Slot → Call → Slot × Reply

/-- The replies of a machine that answers one call after another. -/
def replies {State Call Reply : Type*} (step : State → Call → State × Reply) :
    State → List Call → List Reply
  | _, [] => []
  | state, call :: calls =>
      (step state call).2 :: replies step (step state call).1 calls

/-- The replies to the calls that meet the condition. -/
def repliesTo {Call Reply : Type*} (chosen : Call → Bool) (calls : List Call)
    (answers : List Reply) : List Reply :=
  ((calls.zip answers).filter fun entry => chosen entry.1).map Prod.snd

namespace KeyedMachine

variable {Key Slot Call Reply : Type*} [DecidableEq Key]
  (machine : KeyedMachine Key Slot Call Reply)

/-- One call on all the slots. -/
def stepAll (slots : Key → Slot) (call : Call) : (Key → Slot) × Reply :=
  let answer := machine.step (slots (machine.key call)) call
  (Function.update slots (machine.key call) answer.1, answer.2)

variable {machine}

/-- The replies depend on the slots that the calls name, and on no other. -/
theorem replies_congr {calls : List Call} {left right : Key → Slot}
    (same : ∀ call ∈ calls, left (machine.key call) = right (machine.key call)) :
    replies machine.stepAll left calls = replies machine.stepAll right calls := by
  induction calls generalizing left right with
  | nil => rfl
  | cons call calls ih =>
      have here := same call List.mem_cons_self
      have reply : (machine.stepAll left call).2 =
          (machine.stepAll right call).2 := by
        simp only [stepAll, here]
      have rest : replies machine.stepAll (machine.stepAll left call).1 calls =
          replies machine.stepAll (machine.stepAll right call).1 calls := by
        apply ih
        intro other member
        simp only [stepAll, here, Function.update_apply]
        split
        case isTrue => rfl
        case isFalse => exact same other (List.mem_cons_of_mem _ member)
      simp only [replies, reply, rest]

/-- The replies for one slot are those of a run of its calls alone. -/
theorem repliesTo_key (key : Key) (slots : Key → Slot) (calls : List Call) :
    repliesTo (fun call => machine.key call = key) calls
        (replies machine.stepAll slots calls) =
      replies machine.stepAll slots
        (calls.filter fun call => machine.key call = key) := by
  induction calls generalizing slots with
  | nil => rfl
  | cons call calls ih =>
      by_cases isKey : machine.key call = key
      · have rest := ih (machine.stepAll slots call).1
        simp only [repliesTo] at rest
        simp only [repliesTo, replies, List.zip_cons_cons, List.filter_cons,
          isKey, decide_true, ↓reduceIte, List.map_cons, rest]
      · have untouched : replies machine.stepAll
            (machine.stepAll slots call).1
            (calls.filter fun call => machine.key call = key) =
          replies machine.stepAll slots
            (calls.filter fun call => machine.key call = key) := by
          apply replies_congr
          intro other member
          have isOther : machine.key other = key := by
            simpa using (List.mem_filter.mp member).2
          have distinct : machine.key other ≠ machine.key call := by
            rw [isOther]
            exact Ne.symm isKey
          simp only [stepAll, Function.update_of_ne distinct]
        have rest := ih (machine.stepAll slots call).1
        simp only [repliesTo] at rest
        simp only [repliesTo, replies, List.zip_cons_cons, List.filter_cons,
          isKey, decide_false, Bool.false_eq_true, ↓reduceIte, rest, untouched]

/-- A store that keeps a relation to the slots, which time does not disturb,
gives the replies of the slots. -/
theorem replies_eq {State : Type*} {step : State → Call → State × Reply}
    {instant : Call → Int} {Related : Int → State → (Key → Slot) → Prop}
    (later : ∀ earlier now state slots, earlier ≤ now →
      Related earlier state slots → Related now state slots)
    (simulates : ∀ state slots call, Related (instant call) state slots →
      (step state call).2 = (machine.stepAll slots call).2 ∧
        Related (instant call) (step state call).1
          (machine.stepAll slots call).1)
    {start : Int} {state : State} {slots : Key → Slot}
    (related : Related start state slots) {calls : List Call}
    (ordered : (start :: calls.map instant).Pairwise (· ≤ ·)) :
    replies step state calls = replies machine.stepAll slots calls := by
  induction calls generalizing start state slots with
  | nil => rfl
  | cons call calls ih =>
      rw [List.map_cons, List.pairwise_cons] at ordered
      have now : start ≤ instant call :=
        ordered.1 _ List.mem_cons_self
      obtain ⟨reply, next⟩ :=
        simulates state slots call (later _ _ _ _ now related)
      rw [replies, replies, reply, ih next ordered.2]

end KeyedMachine

end Foundation
