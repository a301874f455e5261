import Mathlib.Data.List.Basic

/-!
# Event logs

A log is a list of events that grows at its end, so the position of an event
is the moment at which it happened and never changes.  A rule that every entry
meets against the entries before it is kept by checking each new entry once.
-/

namespace Foundation

section EventLog

variable {Event : Type*} {log : List Event} {event : Event} {position : Nat}

theorem at_append {extra : Event} :
    (log ++ [extra])[position]? = some event ↔
      log[position]? = some event ∨
        (position = log.length ∧ extra = event) := by
  by_cases inside : position < log.length
  · rw [List.getElem?_append_left inside]
    constructor
    · exact .inl
    · rintro (old | ⟨isLast, _⟩)
      · exact old
      · omega
  · have absent : log[position]? = none :=
      List.getElem?_eq_none (Nat.le_of_not_lt inside)
    by_cases isLast : position = log.length
    · subst isLast
      simp
    · have beyond : (log ++ [extra])[position]? = none := by
        apply List.getElem?_eq_none
        simp only [List.length_append, List.length_singleton]
        omega
      simp [absent, beyond, isLast]

theorem at_lt (found : log[position]? = some event) : position < log.length :=
  (List.getElem?_eq_some_iff.mp found).1

theorem at_append_of_at {extra : Event}
    (found : log[position]? = some event) :
    (log ++ [extra])[position]? = some event :=
  at_append.mpr (.inl found)

/-- The last position of the log is after every earlier event. -/
theorem at_last (log : List Event) (extra : Event) :
    (log ++ [extra])[log.length]? = some extra :=
  at_append.mpr (.inr ⟨rfl, rfl⟩)

/-- Every entry of the log meets the rule against the entries before it. -/
def Justified (rule : List Event → Event → Prop) (log : List Event) : Prop :=
  ∀ before entry after, log = before ++ entry :: after → rule before entry

/-- An entry of a log that grew is an earlier one or the new one. -/
theorem split_last {entry extra : Event} {before after : List Event}
    (split : log ++ [extra] = before ++ entry :: after) :
    (∃ rest, log = before ++ entry :: rest ∧ after = rest ++ [extra]) ∨
      (log = before ∧ extra = entry ∧ after = []) := by
  rcases List.eq_nil_or_concat after with rfl | ⟨rest, last, rfl⟩
  · obtain ⟨same, entries⟩ := List.append_inj' split rfl
    cases entries
    exact .inr ⟨same, rfl, rfl⟩
  · rw [List.concat_eq_append, ← List.cons_append, ← List.append_assoc]
      at split
    obtain ⟨same, lasts⟩ := List.append_inj' split rfl
    cases lasts
    exact .inl ⟨rest, same, List.concat_eq_append⟩

variable {rule : List Event → Event → Prop}

theorem justified_nil : Justified rule [] := by
  intro before entry after split
  cases before with
  | nil => cases split
  | cons head tail => cases split

theorem Justified.append {extra : Event} (justified : Justified rule log)
    (next : rule log extra) : Justified rule (log ++ [extra]) := by
  intro before entry after split
  rcases split_last split with ⟨rest, earlier, _⟩ | ⟨rfl, rfl, _⟩
  · exact justified before entry rest earlier
  · exact next

end EventLog

end Foundation
