import Mathlib.Data.List.Sort
import Mathlib.Data.Multiset.Basic

/-!
# Ordered maps and min-heaps

An ordered map is an association list with strictly ascending keys and a
min-heap is an ascending list.  Both carry their order as a field, so the
first entry of the map is the one with the least key and the head of the heap
is a least element.
-/

namespace Foundation

/-- A map that is iterated in ascending key order. -/
structure OrderedMap (Key Value : Type*) [LinearOrder Key] where
  entries : List (Key × Value)
  ascending : entries.Pairwise (fun left right => left.1 < right.1)

namespace OrderedMap

variable {Key Value : Type*} [LinearOrder Key]

instance [DecidableEq Value] : DecidableEq (OrderedMap Key Value) :=
  fun left right =>
    decidable_of_iff (left.entries = right.entries) <| by
      cases left
      cases right
      simp

def empty : OrderedMap Key Value := ⟨[], .nil⟩

/-- Updates the value of a key in an ascending list, starting from `fresh`
when the key is absent. -/
def upsertEntries (key : Key) (fresh : Value) (update : Value → Value) :
    List (Key × Value) → List (Key × Value)
  | [] => [(key, update fresh)]
  | (other, value) :: rest =>
      if key < other then
        (key, update fresh) :: (other, value) :: rest
      else if key = other then
        (other, update value) :: rest
      else
        (other, value) :: upsertEntries key fresh update rest

theorem fst_of_mem_upsertEntries {key : Key} {fresh : Value}
    {update : Value → Value} {entries : List (Key × Value)}
    {entry : Key × Value}
    (member : entry ∈ upsertEntries key fresh update entries) :
    entry.1 = key ∨ ∃ old ∈ entries, old.1 = entry.1 := by
  induction entries with
  | nil =>
      simp only [upsertEntries, List.mem_singleton] at member
      exact .inl (by rw [member])
  | cons head rest ih =>
      obtain ⟨other, value⟩ := head
      unfold upsertEntries at member
      split at member
      · rcases List.mem_cons.mp member with rfl | member
        · exact .inl rfl
        · exact .inr ⟨entry, member, rfl⟩
      · split at member
        · rcases List.mem_cons.mp member with rfl | member
          · exact .inr ⟨(other, value), by simp, rfl⟩
          · exact .inr ⟨entry, by simp [member], rfl⟩
        · rcases List.mem_cons.mp member with rfl | member
          · exact .inr ⟨(other, value), by simp, rfl⟩
          · rcases ih member with same | ⟨old, found, same⟩
            · exact .inl same
            · exact .inr ⟨old, by simp [found], same⟩

theorem upsertEntries_ascending (key : Key) (fresh : Value)
    (update : Value → Value) {entries : List (Key × Value)}
    (ascending : entries.Pairwise (fun left right => left.1 < right.1)) :
    (upsertEntries key fresh update entries).Pairwise
      (fun left right => left.1 < right.1) := by
  induction entries with
  | nil => simp [upsertEntries]
  | cons head rest ih =>
      obtain ⟨other, value⟩ := head
      obtain ⟨above, restAscending⟩ := List.pairwise_cons.mp ascending
      unfold upsertEntries
      split
      · rename_i before
        refine List.pairwise_cons.mpr ⟨?_, ascending⟩
        intro entry member
        rcases List.mem_cons.mp member with rfl | member
        · exact before
        · exact before.trans (above entry member)
      · rename_i notBefore
        split
        · exact List.pairwise_cons.mpr ⟨above, restAscending⟩
        · rename_i different
          refine List.pairwise_cons.mpr ⟨?_, ih restAscending⟩
          intro entry member
          rcases fst_of_mem_upsertEntries member with same | ⟨old, found, same⟩
          · rw [same]
            exact lt_of_le_of_ne (not_lt.mp notBefore) (Ne.symm different)
          · rw [← same]
            exact above old found

def getEntries? (key : Key) : List (Key × Value) → Option Value
  | [] => none
  | (other, value) :: rest =>
      if key = other then some value else getEntries? key rest

theorem getEntries?_of_below {key : Key} {entries : List (Key × Value)}
    (below : ∀ entry ∈ entries, key < entry.1) :
    getEntries? key entries = none := by
  induction entries with
  | nil => rfl
  | cons head rest ih =>
      obtain ⟨other, value⟩ := head
      have different : key ≠ other := (below (other, value) (by simp)).ne
      rw [getEntries?, if_neg different]
      exact ih (fun entry member => below entry (by simp [member]))

theorem getEntries?_eq_some {key : Key} {value : Value}
    {entries : List (Key × Value)}
    (ascending : entries.Pairwise (fun left right => left.1 < right.1)) :
    getEntries? key entries = some value ↔ (key, value) ∈ entries := by
  induction entries with
  | nil => simp [getEntries?]
  | cons head rest ih =>
      obtain ⟨other, otherValue⟩ := head
      obtain ⟨above, restAscending⟩ := List.pairwise_cons.mp ascending
      by_cases same : key = other
      · subst same
        have absent : (key, value) ∉ rest := by
          intro member
          exact lt_irrefl key (above (key, value) member)
        simp [getEntries?, absent, eq_comm]
      · simp [getEntries?, same, ih restAscending]

theorem getEntries?_upsertEntries {key other : Key} {fresh : Value}
    {update : Value → Value} {entries : List (Key × Value)}
    (ascending : entries.Pairwise (fun left right => left.1 < right.1)) :
    getEntries? other (upsertEntries key fresh update entries) =
      if other = key then
        some (update ((getEntries? key entries).getD fresh))
      else getEntries? other entries := by
  induction entries with
  | nil => simp [upsertEntries, getEntries?]
  | cons head rest ih =>
      obtain ⟨first, value⟩ := head
      obtain ⟨above, restAscending⟩ := List.pairwise_cons.mp ascending
      unfold upsertEntries
      split
      · rename_i before
        have absent : getEntries? key ((first, value) :: rest) = none := by
          apply getEntries?_of_below
          intro entry member
          rcases List.mem_cons.mp member with rfl | inRest
          · exact before
          · exact before.trans (above entry inRest)
        rw [absent]
        rfl
      · split
        · rename_i same
          subst same
          by_cases equal : other = key <;> simp [getEntries?, equal]
        · rename_i different
          rw [getEntries?, ih restAscending]
          by_cases isFirst : other = first
          · simp [getEntries?, isFirst, Ne.symm different]
          · simp [getEntries?, isFirst, different]

def get? (map : OrderedMap Key Value) (key : Key) : Option Value :=
  getEntries? key map.entries

theorem mem_entries_iff {map : OrderedMap Key Value} {key : Key}
    {value : Value} : (key, value) ∈ map.entries ↔ map.get? key = some value :=
  (getEntries?_eq_some map.ascending).symm

def upsert (map : OrderedMap Key Value) (key : Key) (fresh : Value)
    (update : Value → Value) : OrderedMap Key Value :=
  ⟨upsertEntries key fresh update map.entries,
    upsertEntries_ascending key fresh update map.ascending⟩

theorem get?_upsert (map : OrderedMap Key Value) (key other : Key)
    (fresh : Value) (update : Value → Value) :
    (map.upsert key fresh update).get? other =
      if other = key then some (update ((map.get? key).getD fresh))
      else map.get? other :=
  getEntries?_upsertEntries map.ascending

end OrderedMap

/-- A min-heap, observed through the ascending list of its elements. -/
structure MinHeap (Element : Type*) [LinearOrder Element] where
  elements : List Element
  ascending : elements.Pairwise (· ≤ ·)

namespace MinHeap

variable {Element : Type*} [LinearOrder Element]

instance : DecidableEq (MinHeap Element) :=
  fun left right =>
    decidable_of_iff (left.elements = right.elements) <| by
      cases left
      cases right
      simp

def empty : MinHeap Element := ⟨[], .nil⟩

def push (heap : MinHeap Element) (element : Element) : MinHeap Element :=
  ⟨heap.elements.orderedInsert (· ≤ ·) element,
    heap.ascending.orderedInsert element heap.elements⟩

def peek (heap : MinHeap Element) : Option Element := heap.elements.head?

def pop (heap : MinHeap Element) : Option Element × MinHeap Element :=
  (heap.elements.head?, ⟨heap.elements.tail, heap.ascending.tail⟩)

def size (heap : MinHeap Element) : Nat := heap.elements.length

end MinHeap

end Foundation
