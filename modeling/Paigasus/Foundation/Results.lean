/-!
# Results of calls that can fail
-/

namespace Foundation

variable {Error First Value : Type}

/-- `Option::ok_or`. -/
def okOr (error : Error) : Option Value → Except Error Value
  | some value => .ok value
  | none => .error error

theorem okOr_ok {error : Error} {found : Option Value} {value : Value} :
    okOr error found = .ok value ↔ found = some value := by
  cases found with
  | none => simp [okOr]
  | some _ => simp [okOr]

theorem bind_ok {first : Except Error First} {next : First → Except Error Value}
    {value : Value} :
    (first >>= next) = .ok value ↔
      ∃ middle, first = .ok middle ∧ next middle = .ok value := by
  cases first with
  | error error => simp [bind, Except.bind]
  | ok middle => simp [bind, Except.bind]

theorem mapError_ok {Other : Type} {change : Error → Other}
    {first : Except Error Value} {value : Value} :
    first.mapError change = .ok value ↔ first = .ok value := by
  cases first with
  | error error =>
      change Except.error (change error) = Except.ok value ↔
        Except.error error = Except.ok value
      simp
  | ok middle =>
      change (Except.ok middle : Except Other Value) = Except.ok value ↔
        Except.ok middle = Except.ok value
      simp

/-- An early return with an error. -/
def ensure (condition : Bool) (error : Error) : Except Error Unit :=
  if condition then .ok () else .error error

theorem ensure_ok {condition : Bool} {error : Error} {done : Unit} :
    ensure condition error = .ok done ↔ condition = true := by
  cases condition with
  | true => simp [ensure]
  | false => simp [ensure]

end Foundation
