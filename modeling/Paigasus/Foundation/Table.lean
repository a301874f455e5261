import Mathlib.Data.List.AList

/-!
# Finite tables

A table has at most one value for a key.  `filterMap` is the `retain` of a hash
map: it visits every entry, may change its value and may drop it.
-/

namespace Foundation

/-- A finite map with distinct keys. -/
abbrev Table (Key Value : Type) : Type := AList fun _ : Key => Value

namespace Table

variable {Key Value Result : Type}

/-- The fate of one entry. -/
def keep (change : Key → Value → Option Result)
    (entry : Sigma fun _ : Key => Value) :
    Option (Sigma fun _ : Key => Result) :=
  (change entry.1 entry.2).map (Sigma.mk entry.1)

theorem keys_keep_sublist (change : Key → Value → Option Result)
    (entries : List (Sigma fun _ : Key => Value)) :
    (entries.filterMap (keep change)).keys.Sublist entries.keys := by
  induction entries with
  | nil => exact .slnil
  | cons entry rest ih =>
      cases kept : change entry.1 entry.2 with
      | none =>
          have dropped : keep change entry = none := by simp [keep, kept]
          rw [List.filterMap_cons_none dropped]
          exact ih.cons entry.1
      | some value =>
          have stays : keep change entry = some ⟨entry.1, value⟩ := by
            simp [keep, kept]
          rw [List.filterMap_cons_some stays]
          exact ih.cons_cons entry.1

/-- Visits every entry; an entry without a result is dropped. -/
def filterMap (change : Key → Value → Option Result)
    (table : Table Key Value) : Table Key Result where
  entries := table.entries.filterMap (keep change)
  nodupKeys := by
    have distinct : table.entries.keys.Nodup := table.nodupKeys
    exact distinct.sublist (keys_keep_sublist change table.entries)

variable [DecidableEq Key]

theorem lookup_filterMap (change : Key → Value → Option Result)
    (table : Table Key Value) (key : Key) :
    (table.filterMap change).lookup key =
      (table.lookup key).bind (change key) := by
  apply Option.ext
  intro result
  rw [← Option.mem_def, AList.mem_lookup_iff]
  simp only [filterMap, List.mem_filterMap, Option.bind_eq_some_iff]
  constructor
  · rintro ⟨entry, member, kept⟩
    obtain ⟨value, changed, same⟩ := Option.map_eq_some_iff.mp kept
    obtain ⟨sameKey, sameValue⟩ := Sigma.mk.inj same
    subst sameKey
    cases sameValue
    exact ⟨entry.2, AList.mem_lookup_iff.mpr member, changed⟩
  · rintro ⟨value, found, changed⟩
    refine ⟨⟨key, value⟩, AList.mem_lookup_iff.mp found, ?_⟩
    simp [keep, changed]

def isEmpty (table : Table Key Value) : Bool := table.entries.isEmpty

theorem lookup_of_isEmpty {table : Table Key Value}
    (empty : table.isEmpty = true) (key : Key) : table.lookup key = none := by
  have noEntries : table.entries = [] := List.isEmpty_iff.mp empty
  rw [AList.lookup, noEntries]
  rfl

end Table

end Foundation
