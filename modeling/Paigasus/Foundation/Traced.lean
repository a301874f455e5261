import Mathlib.Data.List.Basic

/-!
# Computations that record their calls

A computation that asks its environment and may fail returns the calls that it
made, with their answers, beside its result.  A step that fails ends the
computation, and the calls made until then stay recorded.
-/

namespace Foundation

structure Traced (Call Error Value : Type) where
  calls : List Call
  outcome : Except Error Value

namespace Traced

variable {Call Error Value Next : Type}

instance : Monad (Traced Call Error) where
  pure value := ⟨[], .ok value⟩
  bind first next :=
    match first.outcome with
    | .error error => ⟨first.calls, .error error⟩
    | .ok value =>
        ⟨first.calls ++ (next value).calls, (next value).outcome⟩

/-- One call was made. -/
def record (call : Call) : Traced Call Error Unit := ⟨[call], .ok ()⟩

def refuse (error : Error) : Traced Call Error Value := ⟨[], .error error⟩

@[simp]
theorem pure_calls (value : Value) :
    (pure value : Traced Call Error Value).calls = [] := rfl

@[simp]
theorem pure_outcome (value : Value) :
    (pure value : Traced Call Error Value).outcome = .ok value := rfl

@[simp]
theorem refuse_calls (error : Error) :
    (refuse error : Traced Call Error Value).calls = [] := rfl

@[simp]
theorem refuse_outcome (error : Error) :
    (refuse error : Traced Call Error Value).outcome = .error error := rfl

@[simp]
theorem record_bind_calls (call : Call)
    (next : Unit → Traced Call Error Next) :
    (record call >>= next).calls = call :: (next ()).calls := rfl

@[simp]
theorem record_bind_outcome (call : Call)
    (next : Unit → Traced Call Error Next) :
    (record call >>= next).outcome = (next ()).outcome := rfl

@[simp]
theorem pure_then (value : Value) (next : Value → Traced Call Error Next) :
    (pure value >>= next) = next value := rfl

variable {first : Traced Call Error Value}
  {next : Value → Traced Call Error Next}

theorem bind_of_ok {value : Value} (returned : first.outcome = .ok value) :
    first >>= next =
      ⟨first.calls ++ (next value).calls, (next value).outcome⟩ := by
  obtain ⟨calls, outcome⟩ := first
  subst returned
  rfl

theorem bind_of_error {error : Error}
    (failed : first.outcome = .error error) :
    first >>= next = ⟨first.calls, .error error⟩ := by
  obtain ⟨calls, outcome⟩ := first
  subst failed
  rfl

theorem bind_outcome_ok {result : Next} :
    (first >>= next).outcome = .ok result ↔
      ∃ value, first.outcome = .ok value ∧
        (next value).outcome = .ok result := by
  cases returned : first.outcome with
  | error error =>
      rw [bind_of_error returned]
      simp
  | ok value =>
      rw [bind_of_ok returned]
      simp

theorem bind_outcome_error {error : Error} :
    (first >>= next).outcome = .error error ↔
      first.outcome = .error error ∨
        ∃ value, first.outcome = .ok value ∧
          (next value).outcome = .error error := by
  cases returned : first.outcome with
  | error other =>
      rw [bind_of_error returned]
      simp
  | ok value =>
      rw [bind_of_ok returned]
      simp

theorem mem_bind_calls {call : Call} :
    call ∈ (first >>= next).calls ↔
      call ∈ first.calls ∨
        ∃ value, first.outcome = .ok value ∧ call ∈ (next value).calls := by
  cases returned : first.outcome with
  | error error =>
      rw [bind_of_error returned]
      simp
  | ok value =>
      rw [bind_of_ok returned]
      simp

end Traced

end Foundation
