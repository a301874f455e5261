import Paigasus.Core.DateTime
import Paigasus.Foundation.IntegerText

/-!
# The monthly partitions of the audit log

Each outcome of the audit log has one leaf for each month.  A tick creates the
leaves of the coming months and drops those that are older than the retention
of their outcome.  The age of a leaf is read from its name, and the cutoff is
computed in 32-bit arithmetic, which casts the number of months.
-/

namespace Paigasus.Audit

open Foundation Core

/-- A year and a month, as `Datelike` gives them. -/
structure YearMonth where
  year : I32
  month : Nat
deriving DecidableEq

namespace YearMonth

/-- The order of tuples. -/
def isBefore (left right : YearMonth) : Bool :=
  left.year.val < right.year.val ||
    (left.year = right.year && left.month < right.month)

def index (date : YearMonth) : Int :=
  Calendar.monthIndex date.year.val date.month

/-- The first instant of the month. -/
def start (date : YearMonth) : Int :=
  startOfDay (Calendar.monthDay date.year.val date.month)

/-- `now.year()` and `now.month()`. -/
def ofDateTime (now : DateTime) : YearMonth := ⟨I32.wrap now.year, now.month⟩

end YearMonth

def addOneMonth (date : YearMonth) : YearMonth :=
  if date.month = 12 then ⟨I32.wrap (date.year.val + 1), 1⟩
  else ⟨date.year, date.month + 1⟩

/-- The date shifted back.  Both casts to `i32` wrap around. -/
def subtractMonths (date : YearMonth) (months : Nat) : YearMonth :=
  let ordinal := I32.wrap ((I32.wrap date.month).val - 1)
  let counted := I32.wrap ((I32.wrap (date.year.val * 12)).val + ordinal.val)
  let total := I32.wrap (counted.val - (I32.wrap months).val)
  ⟨I32.wrap (total.val / 12), (total.val % 12 + 1).toNat⟩

/-- The exact values of the casts and of the arithmetic of `subtractMonths`. -/
def subtractMonthsValues (date : YearMonth) (months : Nat) : List Int :=
  [date.year.val * 12, date.month, date.month - 1,
    date.year.val * 12 + (date.month - 1), months,
    date.year.val * 12 + (date.month - 1) - months]

/-- No cast and no operation leaves the range of its type. -/
def NoOverflow (values : List Int) : Prop :=
  ∀ value ∈ values, -(2 ^ 31) ≤ value ∧ value < 2 ^ 31

/-- The outcome subtrees, in the order in which they are pruned. -/
inductive Subtree where
  | denied
  | committed
deriving DecidableEq

def Subtree.name : Subtree → List Char
  | .denied => "denied".toList
  | .committed => "committed".toList

def dateText (separator : Char) (date : YearMonth) : List Char :=
  paddedInt 4 date.year.val ++ separator :: zeroPadded 2 date.month

def leafPrefix (sub : Subtree) : List Char :=
  "audit_log_".toList ++ sub.name ++ ['_']

/-- A leaf partition: its name, and the months at whose starts its range begins
and ends. -/
structure Leaf where
  name : List Char
  parent : Subtree
  lower : YearMonth
  upper : YearMonth
deriving DecidableEq

namespace Leaf

/-- The instants whose rows are in the leaf. -/
def Covers (leaf : Leaf) (instant : Int) : Prop :=
  leaf.lower.start ≤ instant ∧ instant < leaf.upper.start

instance (leaf : Leaf) (instant : Int) : Decidable (leaf.Covers instant) :=
  inferInstanceAs (Decidable (_ ∧ _))

end Leaf

/-- The leaf that the statement of `month_leaf_ddl` creates. -/
def monthLeafDdl (sub : Subtree) (date : YearMonth) : Leaf where
  name := leafPrefix sub ++ dateText '_' date
  parent := sub
  lower := date
  upper := addOneMonth date

def parseLeafMonth (name : List Char) (sub : Subtree) : Option YearMonth := do
  let suffix ← (leafPrefix sub).isPrefixOf? name
  let (year, month) ← splitFirst '_' suffix
  return ⟨← I32.read year, ← readUnsigned (2 ^ 32) month⟩

/-- The months of the leaves that are created ahead, `more` after the first. -/
def monthsAhead (date : YearMonth) : Nat → List YearMonth
  | 0 => [date]
  | more + 1 => date :: monthsAhead (addOneMonth date) more

/-- The existence check and the creation hold one lock.  Returns whether this
call created the leaf. -/
def ensureLeaf (leaves : List Leaf) (sub : Subtree) (date : YearMonth) :
    List Leaf × Bool :=
  let leaf := monthLeafDdl sub date
  if leaves.any (·.name = leaf.name) then (leaves, false)
  else (leaves ++ [leaf], true)

/-- The leaves after the creation and how many were created. -/
def ensurePartitionsAhead (leaves : List Leaf) (now : DateTime)
    (aheadMonths : Nat) : List Leaf × Nat :=
  ((monthsAhead (.ofDateTime now) aheadMonths).flatMap fun date =>
      [(Subtree.committed, date), (.denied, date)]).foldl
    (fun (leaves, created) (sub, date) =>
      let (after, isNew) := ensureLeaf leaves sub date
      (after, if isNew then created + 1 else created))
    (leaves, 0)

structure RetentionPolicy where
  aheadMonths : Nat
  deniedMonths : Nat
  committedMonths : Nat

def RetentionPolicy.months (policy : RetentionPolicy) : Subtree → Nat
  | .denied => policy.deniedMonths
  | .committed => policy.committedMonths

/-- Whether a child is dropped.  Zero months keep every leaf of the outcome, and
a name that is not a month is kept. -/
def isDropped (now : DateTime) (policy : RetentionPolicy) (sub : Subtree)
    (name : List Char) : Bool :=
  policy.months sub ≠ 0 &&
    (parseLeafMonth name sub).any fun date =>
      date.isBefore (subtractMonths (.ofDateTime now) (policy.months sub))

/-- Drops the leaves one after the other until a statement fails, the first
that `runDdl` does not execute. -/
def dropEach (runDdl : Leaf → Bool) : List Leaf → List Leaf × Bool
  | [] => ([], true)
  | leaf :: rest =>
      if runDdl leaf then
        let (dropped, finished) := dropEach runDdl rest
        (leaf :: dropped, finished)
      else
        ([], false)

/-- The leaves that a tick drops. -/
def prune (now : DateTime) (policy : RetentionPolicy)
    (childLeaves : Subtree → List Leaf) (runDdl : Leaf → Bool) : List Leaf :=
  let aged sub := (childLeaves sub).filter fun leaf =>
    isDropped now policy sub leaf.name
  let (denied, finished) := dropEach runDdl (aged .denied)
  if finished then denied ++ (dropEach runDdl (aged .committed)).1 else denied

section Months

variable {date left right : YearMonth}

theorem YearMonth.isBefore_iff (leftMonth : 1 ≤ left.month ∧ left.month ≤ 12)
    (rightMonth : 1 ≤ right.month ∧ right.month ≤ 12) :
    left.isBefore right = true ↔ left.index < right.index := by
  simp only [YearMonth.isBefore, YearMonth.index, Calendar.monthIndex,
    Bool.or_eq_true, Bool.and_eq_true, decide_eq_true_eq, Subtype.ext_iff]
  omega

theorem YearMonth.start_eq (isMonth : 1 ≤ date.month ∧ date.month ≤ 12) :
    date.start = startOfDay (Calendar.firstDay date.index) := by
  rw [YearMonth.start, YearMonth.index,
    Calendar.firstDay_monthIndex isMonth.1 isMonth.2]

theorem addOneMonth_month (isMonth : 1 ≤ date.month ∧ date.month ≤ 12) :
    1 ≤ (addOneMonth date).month ∧ (addOneMonth date).month ≤ 12 := by
  unfold addOneMonth
  split
  · exact ⟨Nat.le_refl 1, Nat.le_of_ble_eq_true rfl⟩
  · dsimp only
    omega

/-- The next month, or the first month of all after the last. -/
theorem addOneMonth_index_le (isMonth : 1 ≤ date.month ∧ date.month ≤ 12) :
    (addOneMonth date).index ≤ date.index + 1 := by
  have range := date.year.property
  unfold addOneMonth
  split
  · simp only [YearMonth.index, Calendar.monthIndex, I32.wrap_val]
    omega
  · simp only [YearMonth.index, Calendar.monthIndex]
    omega

theorem addOneMonth_index (isMonth : 1 ≤ date.month ∧ date.month ≤ 12)
    (inRange : date.index + 1 < 12 * 2 ^ 31) :
    (addOneMonth date).index = date.index + 1 := by
  have range := date.year.property
  unfold YearMonth.index Calendar.monthIndex at inRange
  unfold addOneMonth
  split
  · simp only [YearMonth.index, Calendar.monthIndex, I32.wrap_val]
    omega
  · simp only [YearMonth.index, Calendar.monthIndex]
    omega

/-- Without an overflow the cutoff is the month that lies that many months
back. -/
theorem subtractMonths_index {months : Nat}
    (isMonth : 1 ≤ date.month ∧ date.month ≤ 12)
    (exact : NoOverflow (subtractMonthsValues date months)) :
    (1 ≤ (subtractMonths date months).month ∧
        (subtractMonths date months).month ≤ 12) ∧
      (subtractMonths date months).index = date.index - months := by
  simp only [NoOverflow, subtractMonthsValues, List.forall_mem_cons] at exact
  obtain ⟨years, ordinal, _, counted, shifted, total, _⟩ := exact
  have isTotal : (I32.wrap ((I32.wrap ((I32.wrap (date.year.val * 12)).val +
      (I32.wrap ((I32.wrap date.month).val - 1)).val)).val -
        (I32.wrap months).val)).val =
          date.year.val * 12 + (date.month - 1) - months := by
    simp only [I32.wrap_val]
    omega
  simp only [subtractMonths, YearMonth.index, Calendar.monthIndex, I32.wrap_val]
  omega

theorem YearMonth.ofDateTime_index (now : DateTime) :
    (YearMonth.ofDateTime now).index =
      Calendar.monthIndex now.year now.month := by
  have years := now.year_spec
  have fits : (I32.wrap now.year).val = now.year :=
    I32.wrap_val_of_fits (by omega)
  simp only [YearMonth.index, YearMonth.ofDateTime, fits]

/-- The instants of a leaf are before the next month. -/
theorem covers_lt {sub : Subtree} {instant : Int}
    (isMonth : 1 ≤ date.month ∧ date.month ≤ 12)
    (covers : (monthLeafDdl sub date).Covers instant) :
    instant < startOfDay (Calendar.firstDay (date.index + 1)) := by
  have before : instant < (addOneMonth date).start := covers.2
  rw [YearMonth.start_eq (addOneMonth_month isMonth)] at before
  have ordered := startOfDay_le
    (Calendar.firstDay_le (addOneMonth_index_le isMonth))
  exact Int.lt_of_lt_of_le before ordered

theorem parseLeafMonth_monthLeafDdl (sub : Subtree)
    (isMonth : date.month < 2 ^ 32) :
    parseLeafMonth (monthLeafDdl sub date).name sub = some date := by
  have suffix : (leafPrefix sub).isPrefixOf?
      (monthLeafDdl sub date).name = some (dateText '_' date) := by
    rw [List.isPrefixOf?_eq_some_iff_append_eq]
    rfl
  have parts : splitFirst '_' (dateText '_' date) =
      some (paddedInt 4 date.year.val, zeroPadded 2 date.month) :=
    splitFirst_append (not_mem_paddedInt (by decide) (by decide) _ _) _
  have month : readUnsigned (2 ^ 32) (zeroPadded 2 date.month) =
      some date.month := readUnsigned_zeroPadded isMonth
  simp only [parseLeafMonth, suffix, parts, I32.read_paddedInt, month,
    Option.bind_eq_bind, Option.bind_some, Option.pure_def]

/-- The months that are created ahead follow one another. -/
theorem monthsAhead_getElem? {more : Nat}
    (isMonth : 1 ≤ date.month ∧ date.month ≤ 12)
    (inRange : date.index + more + 1 < 12 * 2 ^ 31) {position : Nat} :
    position ≤ more → ∃ ahead, (monthsAhead date more)[position]? = some ahead ∧
      (1 ≤ ahead.month ∧ ahead.month ≤ 12) ∧
      ahead.index = date.index + position := by
  induction more generalizing date position with
  | zero =>
      intro within
      obtain rfl : position = 0 := by omega
      exact ⟨date, rfl, isMonth, by omega⟩
  | succ more ih =>
      intro within
      cases position with
      | zero => exact ⟨date, rfl, isMonth, by omega⟩
      | succ earlier =>
          have next := addOneMonth_index isMonth (by omega)
          obtain ⟨ahead, found, months, index⟩ :=
            @ih (addOneMonth date) (addOneMonth_month isMonth) (by omega)
              earlier (by omega)
          exact ⟨ahead, found, months, by omega⟩

theorem length_monthsAhead (date : YearMonth) (more : Nat) :
    (monthsAhead date more).length = more + 1 := by
  induction more generalizing date with
  | zero => rfl
  | succ more ih => simp [monthsAhead, ih]

/-- A leaf of a month in range holds the instants of that month. -/
theorem covers_iff {sub : Subtree} {instant : Int}
    (isMonth : 1 ≤ date.month ∧ date.month ≤ 12)
    (inRange : date.index + 1 < 12 * 2 ^ 31) :
    (monthLeafDdl sub date).Covers instant ↔
      startOfDay (Calendar.firstDay date.index) ≤ instant ∧
        instant < startOfDay (Calendar.firstDay (date.index + 1)) := by
  rw [← addOneMonth_index isMonth inRange,
    ← YearMonth.start_eq isMonth,
    ← YearMonth.start_eq (addOneMonth_month isMonth)]
  exact Iff.rfl

end Months

section Ticks

variable {now : DateTime} {policy : RetentionPolicy} {sub : Subtree}

theorem mem_dropEach {runDdl : Leaf → Bool} {leaves : List Leaf} {leaf : Leaf}
    (member : leaf ∈ (dropEach runDdl leaves).1) : leaf ∈ leaves := by
  induction leaves with
  | nil => exact member
  | cons first rest ih =>
      unfold dropEach at member
      split at member
      case isTrue =>
        rcases List.mem_cons.mp member with rfl | later
        · exact List.mem_cons_self
        · exact List.mem_cons_of_mem _ (ih later)
      case isFalse => cases member

theorem mem_prune {childLeaves : Subtree → List Leaf} {runDdl : Leaf → Bool}
    {leaf : Leaf} (dropped : leaf ∈ prune now policy childLeaves runDdl) :
    ∃ sub, leaf ∈ childLeaves sub ∧
      isDropped now policy sub leaf.name = true := by
  have aged : (leaf ∈ (childLeaves .denied).filter fun leaf =>
        isDropped now policy .denied leaf.name) ∨
      leaf ∈ (childLeaves .committed).filter fun leaf =>
        isDropped now policy .committed leaf.name := by
    unfold prune at dropped
    dsimp only at dropped
    split at dropped
    case isTrue =>
      rcases List.mem_append.mp dropped with denied | committed
      · exact .inl (mem_dropEach denied)
      · exact .inr (mem_dropEach committed)
    case isFalse => exact .inl (mem_dropEach dropped)
  rcases aged with denied | committed
  · exact ⟨.denied, List.mem_filter.mp denied⟩
  · exact ⟨.committed, List.mem_filter.mp committed⟩

/-- Every child was created by `month_leaf_ddl` for its outcome. -/
def Created (childLeaves : Subtree → List Leaf) : Prop :=
  ∀ sub, ∀ leaf ∈ childLeaves sub, ∃ date : YearMonth,
    1 ≤ date.month ∧ date.month ≤ 12 ∧ leaf = monthLeafDdl sub date

/-- The leaf was created by `month_leaf_ddl`. -/
def Leaf.IsCreated (leaf : Leaf) : Prop :=
  ∃ date : YearMonth, 1 ≤ date.month ∧ date.month ≤ 12 ∧
    leaf = monthLeafDdl leaf.parent date

theorem parent_of_name {date other : YearMonth} {parent : Subtree}
    (same : (monthLeafDdl parent other).name = (monthLeafDdl sub date).name) :
    parent = sub := by
  have letter (which : Subtree) (month : YearMonth) :
      (monthLeafDdl which month).name[10]? = (leafPrefix which)[10]? := by
    have inside : 10 < (leafPrefix which).length := by
      cases which with
      | denied => decide
      | committed => decide
    exact List.getElem?_append_left inside
  have letters : (monthLeafDdl parent other).name[10]? =
      (monthLeafDdl sub date).name[10]? := by
    rw [same]
  rw [letter, letter] at letters
  revert letters
  cases parent with
  | denied => cases sub <;> decide
  | committed => cases sub <;> decide

/-- A created leaf is determined by its name. -/
theorem Leaf.IsCreated.eq_of_name {leaf : Leaf} (created : leaf.IsCreated)
    {date : YearMonth} (isMonth : 1 ≤ date.month ∧ date.month ≤ 12)
    (same : leaf.name = (monthLeafDdl sub date).name) :
    leaf = monthLeafDdl sub date := by
  obtain ⟨other, least, most, isLeaf⟩ := created
  rw [isLeaf] at same
  have parents := parent_of_name same
  have read := @parseLeafMonth_monthLeafDdl other sub (by omega)
  rw [parents] at same isLeaf
  rw [same, parseLeafMonth_monthLeafDdl sub (by omega)] at read
  cases read
  exact isLeaf

/-- The creation of some leaves: those that are missing are added, each of them
once, and counted. -/
theorem foldl_ensureLeaf (targets : List (Subtree × YearMonth))
    (leaves : List Leaf) (count : Nat) :
    ∃ new, targets.foldl (fun (leaves, created) (sub, date) =>
        let (after, isNew) := ensureLeaf leaves sub date
        (after, if isNew then created + 1 else created)) (leaves, count) =
          (leaves ++ new, count + new.length) ∧
      (∀ leaf ∈ new, ∃ target ∈ targets,
        leaf = monthLeafDdl target.1 target.2) ∧
      ∀ target ∈ targets, ∃ leaf ∈ leaves ++ new,
        leaf.name = (monthLeafDdl target.1 target.2).name := by
  induction targets generalizing leaves count with
  | nil => exact ⟨[], by simp, by simp, by simp⟩
  | cons target rest ih =>
      obtain ⟨sub, date⟩ := target
      rw [List.foldl_cons]
      unfold ensureLeaf
      by_cases exists' : leaves.any (·.name = (monthLeafDdl sub date).name)
      · obtain ⟨new, isResult, fromRest, allRest⟩ := ih leaves count
        refine ⟨new, ?_, ?_, ?_⟩
        · simp only [exists', if_true]
          exact isResult
        · intro leaf member
          obtain ⟨target, listed, isLeaf⟩ := fromRest leaf member
          exact ⟨target, List.mem_cons_of_mem _ listed, isLeaf⟩
        · intro target listed
          rcases List.mem_cons.mp listed with rfl | later
          · obtain ⟨leaf, member, same⟩ := List.any_eq_true.mp exists'
            exact ⟨leaf, List.mem_append_left _ member, of_decide_eq_true same⟩
          · exact allRest target later
      · obtain ⟨new, isResult, fromRest, allRest⟩ :=
          ih (leaves ++ [monthLeafDdl sub date]) (count + 1)
        refine ⟨monthLeafDdl sub date :: new, ?_, ?_, ?_⟩
        · simp only [exists', if_false, if_true, Bool.false_eq_true]
          refine isResult.trans ?_
          rw [List.append_assoc, List.singleton_append, List.length_cons]
          congr 1
          omega
        · intro leaf member
          rcases List.mem_cons.mp member with rfl | later
          · exact ⟨_, List.mem_cons_self, rfl⟩
          · obtain ⟨target, listed, isLeaf⟩ := fromRest leaf later
            exact ⟨target, List.mem_cons_of_mem _ listed, isLeaf⟩
        · intro target listed
          rcases List.mem_cons.mp listed with rfl | later
          · exact ⟨_, List.mem_append_right _ List.mem_cons_self, rfl⟩
          · obtain ⟨leaf, member, same⟩ := allRest target later
            rw [List.append_assoc, List.singleton_append] at member
            exact ⟨leaf, member, same⟩

/-- The cutoff is computed exactly, and what is dropped lies before it. -/
def DropsOnlyOld (now : DateTime) (policy : RetentionPolicy) (sub : Subtree) :
    Prop :=
  NoOverflow (subtractMonthsValues (.ofDateTime now) (policy.months sub)) ∧
    ∀ childLeaves runDdl, Created childLeaves →
      ∀ leaf ∈ prune now policy childLeaves runDdl, leaf.parent = sub →
        ∀ instant, leaf.Covers instant →
          instant < startOfDay (Calendar.firstDay
            (Calendar.monthIndex now.year now.month - policy.months sub))

/-- The leaf holds the month that lies so many months after the current one, and
the month is recovered from its name. -/
structure HoldsMonth (now : DateTime) (sub : Subtree) (position : Nat)
    (leaf : Leaf) : Prop where
  parent : leaf.parent = sub
  recovered : parseLeafMonth leaf.name sub = some leaf.lower
  covers : ∀ instant, leaf.Covers instant ↔
    startOfDay (Calendar.firstDay
        (Calendar.monthIndex now.year now.month + position)) ≤ instant ∧
      instant < startOfDay (Calendar.firstDay
        (Calendar.monthIndex now.year now.month + position + 1))

/-- Whatever leaves there are, afterwards there is one for the current month and
for each of the coming months, which shares no instant with another leaf of its
outcome; and no leaf was created for any other month. -/
def CreatesConsecutive (now : DateTime) (policy : RetentionPolicy)
    (sub : Subtree) : Prop :=
  ∀ leaves : List Leaf, (∀ leaf ∈ leaves, leaf.IsCreated) →
    ∃ new, ensurePartitionsAhead leaves now policy.aheadMonths =
        (leaves ++ new, new.length) ∧
      (∀ leaf ∈ new, leaf.parent = sub →
        ∃ position ≤ policy.aheadMonths, HoldsMonth now sub position leaf) ∧
      ∀ position ≤ policy.aheadMonths, ∃ leaf ∈ leaves ++ new,
        HoldsMonth now sub position leaf ∧
        ∀ other ∈ leaves ++ new, other.parent = sub →
          ∀ instant, leaf.Covers instant → other.Covers instant → other = leaf

/-- Created leaves of one outcome that share an instant are the same. -/
theorem eq_of_covers {date other : YearMonth}
    (isMonth : 1 ≤ date.month ∧ date.month ≤ 12)
    (otherMonth : 1 ≤ other.month ∧ other.month ≤ 12) {instant : Int}
    (covers : (monthLeafDdl sub date).Covers instant)
    (otherCovers : (monthLeafDdl sub other).Covers instant) : other = date := by
  have notLater {left right : YearMonth}
      (leftMonth : 1 ≤ left.month ∧ left.month ≤ 12)
      (rightMonth : 1 ≤ right.month ∧ right.month ≤ 12)
      (leftCovers : (monthLeafDdl sub left).Covers instant)
      (rightCovers : (monthLeafDdl sub right).Covers instant) :
      left.index ≤ right.index := by
    by_contra later
    have ends := covers_lt rightMonth rightCovers
    have starts : left.start ≤ instant := leftCovers.1
    rw [YearMonth.start_eq leftMonth] at starts
    have ordered := startOfDay_le
      (Calendar.firstDay_le (show right.index + 1 ≤ left.index by omega))
    omega
  have ordered := notLater isMonth otherMonth covers otherCovers
  have reverse := notLater otherMonth isMonth otherCovers covers
  unfold YearMonth.index Calendar.monthIndex at ordered reverse
  obtain ⟨⟨year, inRange⟩, month⟩ := date
  obtain ⟨⟨otherYear, otherRange⟩, otherNumber⟩ := other
  dsimp only at *
  obtain rfl : otherYear = year := by omega
  obtain rfl : otherNumber = month := by omega
  rfl

/-- The months that are created ahead, with what their leaves hold. -/
theorem holdsMonth_of_ahead (isU32 : policy.aheadMonths < 2 ^ 32)
    {position : Nat} (within : position ≤ policy.aheadMonths) :
    ∃ ahead, (monthsAhead (.ofDateTime now) policy.aheadMonths)[position]? =
        some ahead ∧ (1 ≤ ahead.month ∧ ahead.month ≤ 12) ∧
      HoldsMonth now sub position (monthLeafDdl sub ahead) := by
  have isMonth := now.month_spec
  have years := now.year_spec
  have index := YearMonth.ofDateTime_index now
  have inRange : (YearMonth.ofDateTime now).index + policy.aheadMonths + 1 <
      12 * 2 ^ 31 := by
    rw [index]
    unfold Calendar.monthIndex
    omega
  obtain ⟨ahead, found, months, aheadIndex⟩ :=
    @monthsAhead_getElem? (.ofDateTime now) policy.aheadMonths isMonth inRange
      position within
  refine ⟨ahead, found, months, rfl,
    parseLeafMonth_monthLeafDdl sub (by omega), ?_⟩
  intro instant
  rw [covers_iff months (by omega), aheadIndex, index]

theorem creates_consecutive (now : DateTime) (sub : Subtree)
    (isU32 : policy.aheadMonths < 2 ^ 32) :
    CreatesConsecutive now policy sub := by
  intro leaves created
  obtain ⟨new, isResult, fromTargets, allTargets⟩ := foldl_ensureLeaf
    ((monthsAhead (.ofDateTime now) policy.aheadMonths).flatMap fun date =>
      [(Subtree.committed, date), (.denied, date)]) leaves 0
  rw [Nat.zero_add] at isResult
  have target {which : Subtree} {date : YearMonth}
      (listed : (which, date) ∈ (monthsAhead (.ofDateTime now)
        policy.aheadMonths).flatMap fun date =>
          [(Subtree.committed, date), (.denied, date)]) :
      ∃ position ≤ policy.aheadMonths, (1 ≤ date.month ∧ date.month ≤ 12) ∧
        HoldsMonth now which position (monthLeafDdl which date) := by
    obtain ⟨month, isAhead, isPair⟩ := List.mem_flatMap.mp listed
    have sameMonth : date = month := by
      simp only [List.mem_cons, Prod.mk.injEq, List.not_mem_nil,
        or_false] at isPair
      rcases isPair with ⟨_, same⟩ | ⟨_, same⟩
      · exact same
      · exact same
    subst sameMonth
    obtain ⟨position, found⟩ := List.getElem?_of_mem isAhead
    have within : position ≤ policy.aheadMonths := by
      have short := (List.getElem?_eq_some_iff.mp found).1
      rw [length_monthsAhead] at short
      omega
    obtain ⟨ahead, isFound, months, holds⟩ :=
      @holdsMonth_of_ahead now policy which isU32 position within
    rw [found] at isFound
    cases isFound
    exact ⟨position, within, months, holds⟩
  have allCreated : ∀ leaf ∈ leaves ++ new, leaf.IsCreated := by
    intro leaf member
    rcases List.mem_append.mp member with old | isNew
    · exact created leaf old
    · obtain ⟨⟨which, date⟩, listed, rfl⟩ := fromTargets leaf isNew
      obtain ⟨_, _, months, _⟩ := target listed
      exact ⟨date, months.1, months.2, rfl⟩
  refine ⟨new, isResult, ?_, ?_⟩
  · intro leaf member isParent
    obtain ⟨⟨which, date⟩, listed, rfl⟩ := fromTargets leaf member
    obtain rfl : which = sub := isParent
    obtain ⟨position, within, _, holds⟩ := target listed
    exact ⟨position, within, holds⟩
  · intro position within
    obtain ⟨ahead, found, months, holds⟩ :=
      @holdsMonth_of_ahead now policy sub isU32 position within
    have listed : (sub, ahead) ∈ (monthsAhead (.ofDateTime now)
        policy.aheadMonths).flatMap fun date =>
          [(Subtree.committed, date), (.denied, date)] := by
      refine List.mem_flatMap.mpr ⟨ahead, List.mem_of_getElem? found, ?_⟩
      cases sub with
      | committed => exact List.mem_cons_self
      | denied => exact List.mem_cons_of_mem _ List.mem_cons_self
    obtain ⟨leaf, member, sameName⟩ := allTargets _ listed
    obtain rfl := (allCreated leaf member).eq_of_name months sameName
    refine ⟨_, member, holds, ?_⟩
    intro other isOther isParent instant covers otherCovers
    obtain ⟨date, least, most, isLeaf⟩ := allCreated other isOther
    rw [isParent] at isLeaf
    rw [isLeaf] at otherCovers ⊢
    rw [eq_of_covers months ⟨least, most⟩ covers otherCovers]

theorem drops_only_old (exact : NoOverflow
      (subtractMonthsValues (.ofDateTime now) (policy.months sub))) :
    DropsOnlyOld now policy sub := by
  refine ⟨exact, ?_⟩
  intro childLeaves runDdl created leaf dropped isParent instant covers
  obtain ⟨other, member, aged⟩ := mem_prune dropped
  obtain ⟨date, least, most, rfl⟩ := created other leaf member
  obtain rfl : other = sub := isParent
  have isMonth : 1 ≤ date.month ∧ date.month ≤ 12 := ⟨least, most⟩
  obtain ⟨cutoffMonth, cutoff⟩ := subtractMonths_index now.month_spec exact
  have before : date.index <
      Calendar.monthIndex now.year now.month - policy.months other := by
    unfold isDropped at aged
    rw [parseLeafMonth_monthLeafDdl other (by omega)] at aged
    have isBefore := (Bool.and_eq_true_iff.mp aged).2
    rw [Option.any_some, YearMonth.isBefore_iff isMonth cutoffMonth, cutoff,
      YearMonth.ofDateTime_index] at isBefore
    exact isBefore
  have ordered := startOfDay_le
    (Calendar.firstDay_le (Int.add_one_le_iff.mpr before))
  exact Int.lt_of_lt_of_le (covers_lt isMonth covers) ordered

theorem noOverflow_iff (now : DateTime) (months : Nat) :
    NoOverflow (subtractMonthsValues (.ofDateTime now) months) ↔
      months < 2 ^ 31 ∧
        -(2 ^ 31) ≤ Calendar.monthIndex now.year now.month - months := by
  have isMonth := now.month_spec
  have years := now.year_spec
  have sameYear : (I32.wrap now.year).val = now.year :=
    I32.wrap_val_of_fits (by omega)
  simp only [NoOverflow, subtractMonthsValues, List.forall_mem_cons,
    YearMonth.ofDateTime, sameYear, Calendar.monthIndex]
  constructor
  · rintro ⟨_, _, _, _, shifted, total, _⟩
    omega
  · rintro ⟨small, far⟩
    refine ⟨by omega, by omega, by omega, by omega, by omega, by omega, nofun⟩

/-- Retention keeps what is young exactly when the number of months is an `i32`
and does not lead out of the months that an `i32` counts. -/
theorem retention_keeps_young_iff (now : DateTime) (policy : RetentionPolicy)
    (sub : Subtree) (isU32 : policy.aheadMonths < 2 ^ 32) :
    (DropsOnlyOld now policy sub ∧ CreatesConsecutive now policy sub) ↔
      policy.months sub < 2 ^ 31 ∧
        -(2 ^ 31) ≤
          Calendar.monthIndex now.year now.month - policy.months sub := by
  rw [← noOverflow_iff]
  constructor
  · intro keeps
    exact keeps.1.1
  · intro exact
    exact ⟨drops_only_old exact, creates_consecutive now sub isU32⟩

/-- The start of the fifteenth of July 2026. -/
def sampleNow : DateTime := ⟨63919670400000000000, by decide⟩

theorem retention_keeps_young_sample :
    DropsOnlyOld sampleNow ⟨1, 3, 0⟩ .denied ∧
      CreatesConsecutive sampleNow ⟨1, 3, 0⟩ .denied :=
  (retention_keeps_young_iff sampleNow ⟨1, 3, 0⟩ .denied (by decide)).mpr
    (by decide)

/-- With the largest number of months the cast makes the cutoff the next month,
and the leaf of the current month is dropped. -/
theorem retention_drops_current :
    monthLeafDdl .denied ⟨⟨2026, by decide⟩, 7⟩ ∈
        prune sampleNow ⟨1, 4294967295, 0⟩
          (fun sub => [monthLeafDdl sub ⟨⟨2026, by decide⟩, 7⟩])
          (fun _ => true) ∧
      (monthLeafDdl .denied ⟨⟨2026, by decide⟩, 7⟩).Covers sampleNow.nanos ∧
      ¬ DropsOnlyOld sampleNow ⟨1, 4294967295, 0⟩ .denied := by
  have dropped : monthLeafDdl .denied ⟨⟨2026, by decide⟩, 7⟩ ∈
      prune sampleNow ⟨1, 4294967295, 0⟩
        (fun sub => [monthLeafDdl sub ⟨⟨2026, by decide⟩, 7⟩])
        (fun _ => true) := by
    decide
  have covers : (monthLeafDdl .denied ⟨⟨2026, by decide⟩, 7⟩).Covers
      sampleNow.nanos := by
    decide
  refine ⟨dropped, covers, ?_⟩
  rintro ⟨_, old⟩
  have early := old _ _ (fun sub leaf member => ⟨⟨⟨2026, by decide⟩, 7⟩,
    by decide, by decide, List.mem_singleton.mp member⟩) _ dropped rfl _ covers
  revert early
  decide

end Ticks

end Paigasus.Audit
