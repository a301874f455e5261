import Mathlib.Data.List.Nodup

/-!
# Paging by offset

A reader takes one page after the other from a listing that may change between
two pages.  It keeps no place in the listing but a count, so what it ends with
depends on how the rows have moved across that count.
-/

namespace Foundation

/-- A reader between two pages. -/
structure Paging (Row : Type*) where
  offset : Nat
  all : List Row
  finished : Bool
deriving DecidableEq

namespace Paging

variable {Row Key : Type*}

def start : Paging Row := ⟨0, [], false⟩

def page (pageSize : Nat) (listing : List Row) (paging : Paging Row) :
    List Row :=
  (listing.drop paging.offset).take pageSize

/-- Reads the next page; a short page is the last one. -/
def next (pageSize : Nat) (listing : List Row) (paging : Paging Row) :
    Paging Row :=
  let page := paging.page pageSize listing
  if page.length < pageSize then
    { paging with all := paging.all ++ page, finished := true }
  else
    { offset := paging.offset + pageSize, all := paging.all ++ page,
      finished := false }

/-- No row that was read stands from the offset on, and every row of interest
before the offset was read. -/
structure Aligned (key : Row → Key) (interest : Key → Prop)
    (listing : List Row) (paging : Paging Row) : Prop where
  ahead : ∀ row ∈ listing.drop paging.offset, key row ∉ paging.all.map key
  behind : ∀ row ∈ listing.take paging.offset, interest (key row) →
    key row ∈ paging.all.map key

variable {key : Row → Key} {interest : Key → Prop} {pageSize : Nat}
  {listing : List Row} {paging : Paging Row}

theorem next_all : (paging.next pageSize listing).all =
    paging.all ++ paging.page pageSize listing := by
  unfold next
  dsimp only
  split
  · rfl
  · rfl

theorem length_page_of_finished
    (finished : (paging.next pageSize listing).finished = true) :
    (paging.page pageSize listing).length < pageSize := by
  unfold next at finished
  dsimp only at finished
  split at finished
  case isTrue short => exact short
  case isFalse => cases finished

theorem page_of_short
    (short : (paging.page pageSize listing).length < pageSize) :
    paging.page pageSize listing = listing.drop paging.offset := by
  apply List.take_of_length_le
  rw [page, List.length_take] at short
  omega

/-- What was read is the listing up to the offset, so no row has moved across
it. -/
theorem aligned_of_prefix (unique : (listing.map key).Nodup)
    (same : paging.all.map key = (listing.take paging.offset).map key) :
    Aligned key interest listing paging where
  ahead := by
    intro row member wasRead
    rw [same, List.map_take] at wasRead
    have later : key row ∈ (listing.map key).drop paging.offset := by
      rw [← List.map_drop]
      exact List.mem_map_of_mem member
    exact List.disjoint_take_drop unique (Nat.le_refl _) wasRead later
  behind := by
    intro row member _
    rw [same]
    exact List.mem_map_of_mem member

/-- The next page repeats nothing. -/
theorem next_nodup (aligned : Aligned key interest listing paging)
    (unique : (listing.map key).Nodup)
    (nodup : (paging.all.map key).Nodup) :
    ((paging.next pageSize listing).all.map key).Nodup := by
  rw [next_all, List.map_append]
  apply List.nodup_append'.mpr
  refine ⟨nodup, ?_, ?_⟩
  · refine List.Nodup.sublist ?_ unique
    apply List.Sublist.map
    exact (List.take_sublist _ _).trans (List.drop_sublist _ _)
  · intro found wasRead inPage
    obtain ⟨row, member, rfl⟩ := List.mem_map.mp inPage
    exact aligned.ahead row (List.mem_of_mem_take member) wasRead

/-- After the last page every row of interest that stands has been read. -/
theorem next_complete (aligned : Aligned key interest listing paging)
    (finished : (paging.next pageSize listing).finished = true) {found : Key}
    (stands : found ∈ listing.map key) (isInteresting : interest found) :
    found ∈ (paging.next pageSize listing).all.map key := by
  rw [next_all, page_of_short (length_page_of_finished finished),
    List.map_append]
  apply List.mem_append.mpr
  obtain ⟨row, member, rfl⟩ := List.mem_map.mp stands
  rw [← List.take_append_drop paging.offset listing] at member
  rcases List.mem_append.mp member with before | later
  · exact .inl (aligned.behind row before isInteresting)
  · exact .inr (List.mem_map_of_mem later)

end Paging

end Foundation
