import Mathlib.Data.List.Basic
import Mathlib.Data.List.Induction

/-!
# Executable transition systems

A system is a partial step function on states.  Actions carry every choice of
the environment (which call moves next, what the clock shows, whether a port
call fails), so one list of actions is one interleaving and a run is a fold.
An invariant is established once per step and transferred to whole runs by the
rules of this file.
-/

namespace Foundation

section Transition

variable {State : Type*} {Action : Type*}

/-- Executes the actions in order; `none` as soon as one of them is not enabled. -/
def runFrom (step : State → Action → Option State) :
    State → List Action → Option State
  | state, [] => some state
  | state, action :: rest => (step state action).bind (runFrom step · rest)

/-- Every executed step of the run meets the given condition on the state
before it. -/
def EveryStep (step : State → Action → Option State)
    (condition : State → Action → Prop) : State → List Action → Prop
  | _, [] => True
  | state, action :: rest =>
      condition state action ∧
        ∀ next, step state action = some next →
          EveryStep step condition next rest

instance decidableEveryStep {step : State → Action → Option State}
    {condition : State → Action → Prop}
    [∀ state action, Decidable (condition state action)] :
    ∀ state actions, Decidable (EveryStep step condition state actions)
  | _, [] => inferInstanceAs (Decidable True)
  | state, action :: rest =>
      have (next : State) : Decidable (EveryStep step condition next rest) :=
        decidableEveryStep next rest
      inferInstanceAs (Decidable (condition state action ∧
        ∀ next ∈ step state action, EveryStep step condition next rest))

def Reachable (step : State → Action → Option State)
    (initial state : State) : Prop :=
  ∃ actions, runFrom step initial actions = some state

variable {step : State → Action → Option State}

@[simp]
theorem runFrom_nil (state : State) : runFrom step state [] = some state := rfl

theorem runFrom_cons {state final : State} {action : Action}
    {rest : List Action} :
    runFrom step state (action :: rest) = some final ↔
      ∃ next, step state action = some next ∧
        runFrom step next rest = some final := by
  simp [runFrom, Option.bind_eq_some_iff]

theorem runFrom_append {state final : State} {first second : List Action} :
    runFrom step state (first ++ second) = some final ↔
      ∃ middle, runFrom step state first = some middle ∧
        runFrom step middle second = some final := by
  induction first generalizing state with
  | nil => simp
  | cons action rest ih =>
      simp only [List.cons_append, runFrom_cons, ih]
      constructor
      · rintro ⟨next, stepped, middle, left, right⟩
        exact ⟨middle, ⟨next, stepped, left⟩, right⟩
      · rintro ⟨middle, ⟨next, stepped, left⟩, right⟩
        exact ⟨next, stepped, middle, left, right⟩

/-- The invariant rule for runs whose steps all meet a side condition. -/
theorem runFrom_invariant_of_everyStep
    {condition : State → Action → Prop} {Invariant : State → Prop}
    (preserved : ∀ state action next, Invariant state →
      condition state action → step state action = some next → Invariant next)
    {state final : State} {actions : List Action}
    (initially : Invariant state)
    (conditions : EveryStep step condition state actions)
    (run : runFrom step state actions = some final) :
    Invariant final := by
  induction actions generalizing state with
  | nil =>
      cases run
      exact initially
  | cons action rest ih =>
      obtain ⟨next, stepped, remaining⟩ := runFrom_cons.mp run
      obtain ⟨here, later⟩ := conditions
      exact ih (preserved state action next initially here stepped)
        (later next stepped) remaining

/-- An invariant that a side condition keeps turns it into another one. -/
theorem everyStep_of_invariant
    {condition other : State → Action → Prop} {Invariant : State → Prop}
    (preserved : ∀ state action next, Invariant state →
      condition state action → step state action = some next → Invariant next)
    (implies : ∀ state action next, Invariant state →
      condition state action → step state action = some next →
      other state action)
    {state final : State} {actions : List Action}
    (initially : Invariant state)
    (conditions : EveryStep step condition state actions)
    (run : runFrom step state actions = some final) :
    EveryStep step other state actions := by
  induction actions generalizing state with
  | nil => trivial
  | cons action rest ih =>
      obtain ⟨next, stepped, remaining⟩ := runFrom_cons.mp run
      obtain ⟨here, later⟩ := conditions
      refine ⟨implies state action next initially here stepped, ?_⟩
      intro found isFound
      obtain rfl := Option.some.inj (stepped.symm.trans isFound)
      exact ih (preserved state action next initially here stepped)
        (later next stepped) remaining

theorem everyStep_trivial (state : State) (actions : List Action) :
    EveryStep step (fun _ _ => True) state actions := by
  induction actions generalizing state with
  | nil => trivial
  | cons action rest ih => exact ⟨trivial, fun next _ => ih next⟩

theorem everyStep_append {condition : State → Action → Prop}
    {state middle : State} {first second : List Action}
    (run : runFrom step state first = some middle) :
    EveryStep step condition state (first ++ second) ↔
      EveryStep step condition state first ∧
        EveryStep step condition middle second := by
  induction first generalizing state with
  | nil =>
      cases run
      simp [EveryStep]
  | cons action rest ih =>
      obtain ⟨next, stepped, remaining⟩ := runFrom_cons.mp run
      have only : ∀ other, step state action = some other → other = next :=
        fun other isNext => Option.some.inj (isNext.symm.trans stepped)
      constructor
      · rintro ⟨here, later⟩
        have both := (ih remaining).mp (later next stepped)
        refine ⟨⟨here, ?_⟩, both.2⟩
        intro other isNext
        rw [only other isNext]
        exact both.1
      · rintro ⟨⟨here, later⟩, after⟩
        refine ⟨here, ?_⟩
        intro other isNext
        rw [only other isNext]
        exact (ih remaining).mpr ⟨later next stepped, after⟩

theorem everyStep_of_mem {condition : State → Action → Prop}
    {actions : List Action}
    (holds : ∀ action ∈ actions, ∀ state, condition state action)
    (state : State) : EveryStep step condition state actions := by
  induction actions generalizing state with
  | nil => trivial
  | cons action rest ih =>
      refine ⟨holds action List.mem_cons_self state, fun next _ => ?_⟩
      apply ih
      intro later member
      exact holds later (List.mem_cons_of_mem _ member)

/-- Conditions that agree wherever the invariant holds agree along every run
from such a state. -/
theorem everyStep_congr_of_invariant
    {first second : State → Action → Prop} {Invariant : State → Prop}
    (preserved : ∀ state action next, Invariant state →
      step state action = some next → Invariant next)
    (agree : ∀ state action, Invariant state →
      (first state action ↔ second state action))
    {state : State} (initially : Invariant state) (actions : List Action) :
    EveryStep step first state actions ↔
      EveryStep step second state actions := by
  induction actions generalizing state with
  | nil => exact Iff.rfl
  | cons action rest ih =>
      apply and_congr (agree state action initially)
      apply forall_congr'
      intro next
      apply imp_congr_right
      intro stepped
      exact ih (preserved state action next initially stepped)

/-- The invariant rule without a side condition. -/
theorem runFrom_invariant {Invariant : State → Prop}
    (preserved : ∀ state action next, Invariant state →
      step state action = some next → Invariant next)
    {state final : State} {actions : List Action}
    (initially : Invariant state)
    (run : runFrom step state actions = some final) :
    Invariant final :=
  runFrom_invariant_of_everyStep
    (fun state action next holds _ => preserved state action next holds)
    initially (everyStep_trivial state actions) run

/-- The invariant rule for statements about the actions so far. -/
theorem runFrom_history {first final : State} {actions : List Action}
    {Invariant : List Action → State → Prop}
    (preserved : ∀ earlier state action next,
      runFrom step first earlier = some state → Invariant earlier state →
        step state action = some next → Invariant (earlier ++ [action]) next)
    (initially : Invariant [] first)
    (run : runFrom step first actions = some final) :
    Invariant actions final := by
  induction actions using List.reverseRecOn generalizing final with
  | nil =>
      cases run
      exact initially
  | append_singleton earlier action ih =>
      obtain ⟨state, before, last⟩ := runFrom_append.mp run
      obtain ⟨next, stepped, ended⟩ := runFrom_cons.mp last
      cases ended
      exact preserved earlier state action _ before (ih before) stepped

/-- The simulation rule: where each step is matched by a step of another system,
so is each run. -/
theorem runFrom_simulation {Abstract : Type*} {Event : Type*}
    {abstractStep : Abstract → Event → Option Abstract}
    {Related : State → Abstract → Prop}
    (matched : ∀ state action next abstract, Related state abstract →
      step state action = some next →
      ∃ event abstractNext, abstractStep abstract event = some abstractNext ∧
        Related next abstractNext)
    {state final : State} {abstract : Abstract} {actions : List Action}
    (initially : Related state abstract)
    (run : runFrom step state actions = some final) :
    ∃ events abstractFinal,
      runFrom abstractStep abstract events = some abstractFinal ∧
        Related final abstractFinal := by
  induction actions generalizing state abstract with
  | nil =>
      cases run
      exact ⟨[], abstract, rfl, initially⟩
  | cons action rest ih =>
      obtain ⟨next, stepped, remaining⟩ := runFrom_cons.mp run
      obtain ⟨event, abstractNext, matchedStep, related⟩ :=
        matched state action next abstract initially stepped
      obtain ⟨events, abstractFinal, matchedRun, holds⟩ :=
        ih related remaining
      exact ⟨event :: events, abstractFinal,
        runFrom_cons.mpr ⟨abstractNext, matchedStep, matchedRun⟩, holds⟩

theorem Reachable.invariant {Invariant : State → Prop}
    (preserved : ∀ state action next, Invariant state →
      step state action = some next → Invariant next)
    {initial state : State} (initially : Invariant initial)
    (reachable : Reachable step initial state) : Invariant state := by
  obtain ⟨actions, run⟩ := reachable
  exact runFrom_invariant preserved initially run

end Transition

theorem ok_of_bind {Error Value Result : Type*} {value : Except Error Value}
    {rest : Value → Except Error Result} {result : Result}
    (computed : value.bind rest = .ok result) :
    ∃ found, value = .ok found ∧ rest found = .ok result := by
  cases value with
  | error refusal => cases computed
  | ok found => exact ⟨found, rfl, computed⟩

/-- The invariant rule for a fallible fold: what every successful step keeps
holds of the result. -/
theorem foldlM_ok_invariant {State Item Error : Type*}
    {step : State → Item → Except Error State} {items : List Item}
    {Invariant : State → Prop}
    (preserved : ∀ state, ∀ item ∈ items, ∀ next, Invariant state →
      step state item = .ok next → Invariant next)
    {state final : State} (initially : Invariant state)
    (folded : items.foldlM step state = .ok final) : Invariant final := by
  induction items generalizing state with
  | nil =>
      cases folded
      exact initially
  | cons item rest ih =>
      rw [List.foldlM_cons] at folded
      obtain ⟨next, stepped, remaining⟩ := ok_of_bind folded
      apply ih _ (preserved state item List.mem_cons_self next initially
        stepped) remaining
      intro state later member
      exact preserved state later (List.mem_cons_of_mem _ member)

end Foundation
