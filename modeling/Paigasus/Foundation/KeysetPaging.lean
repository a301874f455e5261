import Mathlib.Data.List.Sort
import Mathlib.Data.List.Nodup
import Mathlib.Order.Basic

/-!
# Paging by key

A reader takes one page after the other from rows in descending order of their
keys, each time below the last key it has seen.  It keeps no count, so rows
that come or go between two pages never make it repeat a row or pass over one.
-/

namespace Foundation.KeysetPaging

variable {Row Key : Type*}

/-- The last key of a full page; a page that is not full is the last one. -/
def nextCursor (key : Row → Key) (limit : Nat) (page : List Row) :
    Option Key :=
  if page.length = limit then page.getLast?.map key else none

variable [LinearOrder Key]

/-- The rows below a cursor; no cursor is the start. -/
def isBelow (key : Row → Key) (cursor : Option Key) (row : Row) : Bool :=
  match cursor with
  | none => true
  | some bound => decide (key row < bound)

/-- The rows below a cursor by descending key. -/
def listing (key : Row → Key) (rows : List Row) (cursor : Option Key) :
    List Row :=
  (rows.filter (isBelow key cursor)).insertionSort
    fun row other => key other ≤ key row

def page (key : Row → Key) (limit : Nat) (rows : List Row)
    (cursor : Option Key) : List Row :=
  (listing key rows cursor).take limit

/-- What a reader has gathered, and whether it came to the last page. -/
structure Walk (Row : Type*) where
  gathered : List Row
  finished : Bool
deriving DecidableEq

/-- Reads a page of each state of the rows in turn, up to the last page. -/
def follow (key : Row → Key) (limit : Nat) :
    Option Key → List (List Row) → Walk Row
  | _, [] => ⟨[], false⟩
  | cursor, rows :: later =>
      match nextCursor key limit (page key limit rows cursor) with
      | none => ⟨page key limit rows cursor, true⟩
      | some next =>
          let rest := follow key limit (some next) later
          ⟨page key limit rows cursor ++ rest.gathered, rest.finished⟩

variable {key : Row → Key} {limit : Nat} {rows : List Row}
  {cursor : Option Key}

variable {states : List (List Row)}

end Foundation.KeysetPaging
