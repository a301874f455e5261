import Paigasus.Foundation.IntegerText
import Paigasus.Foundation.Table

/-!
# A Redis database

Strings under string keys, each with an instant at which it expires.  A key
whose instant has come reads as absent; whether it is still in the table makes
no difference to any command.
-/

namespace Foundation

namespace Redis

structure Entry where
  value : String
  expiresAt : Option Int
deriving DecidableEq

def Entry.live (now : Int) (entry : Entry) : Bool :=
  entry.expiresAt.all (now < ·)

end Redis

abbrev Redis : Type := Table String Redis.Entry

namespace Redis

/-- The entry that a command finds. -/
def find (database : Redis) (now : Int) (key : String) : Option Entry :=
  (database.lookup key).filter (Entry.live now)

/-- `GET`. -/
def get (database : Redis) (now : Int) (key : String) : Option String :=
  (database.find now key).map Entry.value

/-- `SET key value PX`, with the instant at which the key expires. -/
def setPx (database : Redis) (key value : String) (expiresAt : Int) : Redis :=
  database.insert key ⟨value, some expiresAt⟩

/-- `DEL`. -/
def del (database : Redis) (key : String) : Redis := database.erase key

/-- `SET key value NX PX`. -/
def setNxPx (database : Redis) (now : Int) (key value : String)
    (expiresAt : Int) : Redis × Bool :=
  match database.get now key with
  | some _ => (database, false)
  | none => (database.setPx key value expiresAt, true)

/-- Decimal digits without a zero in front. -/
def canonicalNat? (digits : List Char) : Option Nat :=
  if digits.head? = some '0' then none else readNat digits

/-- The integers of the server: 64 bits, and the one text of each. -/
def integer? (text : String) : Option I64 :=
  match text.toList with
  | ['0'] => some 0
  | '-' :: digits =>
      (canonicalNat? digits).bind fun value => I64.ofInt? (-value)
  | digits => (canonicalNat? digits).bind fun value => I64.ofInt? value

/-- `INCR`: an absent key counts as zero, and a text that is not an integer, or
is the largest one, is an error.  The expiry stays as it is. -/
def incr (database : Redis) (now : Int) (key : String) : Option Redis :=
  match database.find now key with
  | none => some (database.insert key ⟨"1", none⟩)
  | some entry =>
      match integer? entry.value with
      | none => none
      | some value =>
          (I64.ofInt? (value.val + 1)).map fun next =>
            database.insert key { entry with value := toString next.val }

/-- `INCRBY`, of an amount that is not negative. -/
def incrBy (database : Redis) (now : Int) (key : String) (amount : Nat) :
    Option Redis :=
  match database.find now key with
  | none => (I64.ofInt? amount).map fun value =>
      database.insert key ⟨toString value.val, none⟩
  | some entry =>
      match integer? entry.value with
      | none => none
      | some value =>
          (I64.ofInt? (value.val + amount)).map fun next =>
            database.insert key { entry with value := toString next.val }

/-- `EXPIRE`, with a number of seconds; a key that is to expire at once is
deleted. -/
def expire (database : Redis) (now : Int) (key : String) (seconds : Int) :
    Redis :=
  match database.find now key with
  | none => database
  | some entry =>
      if seconds ≤ 0 then database.del key
      else database.insert key
        { entry with expiresAt := some (now + 1000 * seconds) }

/-- `MULTI`, `INCRBY`, `EXPIRE`, `EXEC`: a command that fails does not keep the
next one from running. -/
def incrByExpire (database : Redis) (now : Int) (key : String) (amount : Nat)
    (seconds : Int) : Redis :=
  ((database.incrBy now key amount).getD database).expire now key seconds

variable {database : Redis} {now : Int} {key other : String}

theorem find_setPx (value : String) (expiresAt : Int) :
    (database.setPx key value expiresAt).find now key =
      (some ⟨value, some expiresAt⟩).filter (Entry.live now) := by
  simp [find, setPx]

theorem find_setPx_of_ne (distinct : other ≠ key) (value : String)
    (expiresAt : Int) :
    (database.setPx key value expiresAt).find now other =
      database.find now other := by
  simp [find, setPx, AList.lookup_insert_ne distinct]

theorem find_del : (database.del key).find now key = none := by
  simp [find, del, AList.lookup_erase]

theorem find_del_of_ne (distinct : other ≠ key) :
    (database.del key).find now other = database.find now other := by
  simp [find, del, AList.lookup_erase_ne distinct]

theorem find_insert_of_ne (distinct : other ≠ key) (entry : Entry) :
    find (database.insert key entry) now other = database.find now other := by
  simp [find, AList.lookup_insert_ne distinct]

/-- `INCR` takes what the key holds: nothing, or an integer that is not the
largest one. -/
def Countable (database : Redis) (now : Int) (key : String) : Prop :=
  ∀ text, database.get now key = some text →
    ∃ value, integer? text = some value ∧ value.val < 2 ^ 63 - 1

theorem incr_isSome :
    (database.incr now key).isSome = true ↔ database.Countable now key := by
  unfold incr Countable get
  cases database.find now key with
  | none => simp
  | some entry =>
      cases read : integer? entry.value with
      | none => simp [read]
      | some value =>
          have inRange := value.property
          have fits : (I64.ofInt? (value.val + 1)).isSome = true ↔
              value.val < 2 ^ 63 - 1 := by
            unfold I64.ofInt?
            split
            case isTrue next => simp only [Option.isSome_some, true_iff]; omega
            case isFalse next =>
              simp only [Option.isSome_none, Bool.false_eq_true, false_iff]
              omega
          simp only [Option.isSome_map, fits, Option.map_some,
            Option.some.injEq, forall_eq', read, exists_eq_left']

/-- Whether a key is countable depends on its own entry only. -/
theorem Countable.congr {after : Redis}
    (same : after.find now key = database.find now key) :
    after.Countable now key ↔ database.Countable now key := by
  unfold Countable get
  rw [same]

theorem find_incr_of_ne {counted : Redis} (distinct : other ≠ key)
    (accepted : database.incr now key = some counted) :
    counted.find now other = database.find now other := by
  unfold incr at accepted
  split at accepted
  case h_1 =>
    cases accepted
    exact find_insert_of_ne distinct _
  case h_2 entry found =>
    split at accepted
    case h_1 => cases accepted
    case h_2 value isValue =>
      obtain ⟨next, _, same⟩ := Option.map_eq_some_iff.mp accepted
      cases same
      exact find_insert_of_ne distinct _

theorem find_expire_of_ne (distinct : other ≠ key) (seconds : Int) :
    (database.expire now key seconds).find now other =
      database.find now other := by
  unfold expire
  split
  case h_1 => rfl
  case h_2 entry found =>
    split
    case isTrue => exact find_del_of_ne distinct
    case isFalse => exact find_insert_of_ne distinct _

/-- A key that has expired stays absent. -/
theorem find_later {later : Int} (order : now ≤ later) :
    database.find later key =
      (database.find now key).filter (Entry.live later) := by
  have stays (entry : Entry) (live : entry.live later = true) :
      entry.live now = true := by
    unfold Entry.live at live ⊢
    cases expires : entry.expiresAt with
    | none => rfl
    | some expiresAt =>
        rw [expires] at live
        have ahead : later < expiresAt := by simpa using live
        simpa using Int.lt_of_le_of_lt order ahead
  unfold find
  cases database.lookup key with
  | none => rfl
  | some entry =>
      cases live : entry.live later with
      | true => simp [Option.filter_some, live, stays entry live]
      | false =>
          cases earlier : entry.live now with
          | true => simp [Option.filter_some, live, earlier]
          | false => simp [Option.filter_some, live, earlier]

/-! ## Counters -/

theorem incr_eq_incrBy : database.incr now key = database.incrBy now key 1 := by
  unfold incr incrBy
  cases database.find now key with
  | none => rfl
  | some entry => rfl

theorem lookup_incrBy_of_ne {counted : Redis} {amount : Nat}
    (distinct : other ≠ key)
    (accepted : database.incrBy now key amount = some counted) :
    counted.lookup other = database.lookup other := by
  have kept (entry : Entry) :
      (database.insert key entry).lookup other = database.lookup other :=
    AList.lookup_insert_ne distinct
  unfold incrBy at accepted
  split at accepted
  case h_1 =>
    obtain ⟨value, _, rfl⟩ := Option.map_eq_some_iff.mp accepted
    exact kept _
  case h_2 entry found =>
    split at accepted
    case h_1 => cases accepted
    case h_2 value isValue =>
      obtain ⟨next, _, rfl⟩ := Option.map_eq_some_iff.mp accepted
      exact kept _

theorem lookup_expire_of_ne (distinct : other ≠ key) (seconds : Int) :
    (database.expire now key seconds).lookup other = database.lookup other := by
  unfold expire
  split
  case h_1 => rfl
  case h_2 entry found =>
    split
    case isTrue => exact AList.lookup_erase_ne distinct
    case isFalse => exact AList.lookup_insert_ne distinct

theorem lookup_incrByExpire_of_ne (distinct : other ≠ key) (amount : Nat)
    (seconds : Int) :
    (database.incrByExpire now key amount seconds).lookup other =
      database.lookup other := by
  unfold incrByExpire
  rw [lookup_expire_of_ne distinct]
  cases counted : database.incrBy now key amount with
  | none => rfl
  | some after => exact lookup_incrBy_of_ne distinct counted

/-- The key counts: absent at zero, else the decimal text. -/
def Counts (database : Redis) (now : Int) (key : String) (count : Nat) :
    Prop :=
  database.get now key = some (toString count) ∨
    database.get now key = none ∧ count = 0

/-- The key counts at every instant before the given one. -/
def Keeps (database : Redis) (key : String) (deadline : Int) (count : Nat) :
    Prop :=
  database.lookup key = none ∧ count = 0 ∨
    ∃ entry, database.lookup key = some entry ∧
      entry.value = toString count ∧
        ∀ instant ∈ entry.expiresAt, deadline ≤ instant

variable {count : Nat}

theorem Keeps.counts {deadline : Int} (keeps : database.Keeps key deadline count)
    (early : now < deadline) : database.Counts now key count := by
  unfold Counts get find
  rcases keeps with ⟨missing, isZero⟩ | ⟨entry, found, text, lasts⟩
  · rw [missing]
    exact .inr ⟨rfl, isZero⟩
  · have live : entry.live now = true := by
      unfold Entry.live
      cases expires : entry.expiresAt with
      | none => rfl
      | some instant =>
          have later := lasts instant expires
          simpa using Int.lt_of_lt_of_le early later
    rw [found, Option.filter_some, if_pos live, Option.map_some, text]
    exact .inl rfl

theorem Keeps.congr {after : Redis} {deadline : Int}
    (same : after.lookup key = database.lookup key) :
    after.Keeps key deadline count ↔ database.Keeps key deadline count := by
  unfold Keeps
  rw [same]

theorem keeps_of_lookup {deadline instant : Int} (later : deadline ≤ instant)
    (found : database.lookup key = some ⟨toString count, some instant⟩) :
    database.Keeps key deadline count := by
  refine .inr ⟨_, found, rfl, ?_⟩
  intro other isOther
  cases isOther
  exact later

theorem canonicalNat?_toDigits {value : Nat} (positive : 0 < value) :
    canonicalNat? (Nat.toDigits 10 value) = some value := by
  unfold canonicalNat? readNat
  rw [if_neg (head_toDigits positive), if_pos ⟨Nat.toDigits_ne_nil,
    List.all_eq_true.mpr (areDigits_toDigits value)⟩,
    Nat.ofDigitChars_ten_toDigits]

theorem integer?_toString {value : Nat} (small : value < 2 ^ 63) :
    integer? (toString value) = some ⟨value, by omega⟩ := by
  have inRange : I64.ofInt? value = some ⟨value, by omega⟩ :=
    I64.ofInt?_eq_some.mpr rfl
  unfold integer?
  rw [toString_toList]
  rcases Nat.eq_zero_or_pos value with rfl | positive
  · rfl
  · have notZero : Nat.toDigits 10 value ≠ ['0'] := by
      intro same
      apply head_toDigits positive
      rw [same]
      rfl
    split
    case h_1 same => exact absurd same notZero
    case h_2 digits same =>
      have isDigit := areDigits_toDigits value '-' (by simp [same])
      cases isDigit
    case h_3 => rw [canonicalNat?_toDigits positive, Option.bind_some, inRange]

theorem lookup_expire {entry : Entry} {seconds : Int} (positive : 0 < seconds)
    (found : database.find now key = some entry) :
    (database.expire now key seconds).lookup key =
      some { entry with expiresAt := some (now + 1000 * seconds) } := by
  unfold expire
  rw [found]
  dsimp only
  rw [if_neg (by omega)]
  exact AList.lookup_insert _

/-- `INCRBY` counts the amount, as far as the integers of the server reach. -/
theorem Counts.incrBy (counts : database.Counts now key count) {amount : Nat}
    (fits : count + amount < 2 ^ 63) :
    ∃ counted expiresAt, database.incrBy now key amount = some counted ∧
      counted.find now key = some ⟨toString (count + amount), expiresAt⟩ := by
  have next : I64.ofInt? ((count : Int) + amount) =
      some ⟨count + amount, by omega⟩ := I64.ofInt?_eq_some.mpr rfl
  unfold Redis.incrBy
  rcases counts with found | ⟨missing, rfl⟩
  · obtain ⟨entry, isEntry, text⟩ := Option.map_eq_some_iff.mp found
    have live := (Option.filter_eq_some_iff.mp isEntry).2
    rw [isEntry]
    dsimp only
    rw [text, integer?_toString (by omega)]
    dsimp only
    rw [next]
    refine ⟨_, entry.expiresAt, rfl, ?_⟩
    unfold find
    rw [AList.lookup_insert, Option.filter_some]
    exact if_pos live
  · have first : I64.ofInt? (amount : Int) = some ⟨amount, by omega⟩ :=
      I64.ofInt?_eq_some.mpr rfl
    rw [Option.map_eq_none_iff.mp missing]
    dsimp only
    rw [first, Nat.zero_add]
    refine ⟨_, none, rfl, ?_⟩
    unfold find
    rw [AList.lookup_insert]
    rfl

/-- Beyond the integers of the server `INCRBY` fails and the count stays. -/
theorem Counts.incrByExpire (counts : database.Counts now key count)
    {amount : Nat} {seconds : Int} (inRange : count < 2 ^ 63)
    (small : amount < 2 ^ 63) (positive : 0 < seconds) :
    ∃ next, (next = count + amount ∨
        next = count ∧ 2 ^ 63 ≤ count + amount) ∧ next < 2 ^ 63 ∧
      (database.incrByExpire now key amount seconds).lookup key =
        some ⟨toString next, some (now + 1000 * seconds)⟩ := by
  unfold Redis.incrByExpire
  by_cases fits : count + amount < 2 ^ 63
  · obtain ⟨counted, expiresAt, accepted, found⟩ := counts.incrBy fits
    refine ⟨count + amount, .inl rfl, fits, ?_⟩
    rw [accepted]
    exact lookup_expire positive found
  · have large := Nat.le_of_not_lt fits
    refine ⟨count, .inr ⟨rfl, large⟩, inRange, ?_⟩
    rcases counts with found | ⟨_, rfl⟩
    · obtain ⟨entry, isEntry, text⟩ := Option.map_eq_some_iff.mp found
      have refused : I64.ofInt? ((count : Int) + amount) = none :=
        dif_neg (by omega)
      have rejected : database.incrBy now key amount = none := by
        unfold Redis.incrBy
        rw [isEntry]
        dsimp only
        rw [text, integer?_toString inRange]
        dsimp only
        rw [refused]
        rfl
      rw [rejected, ← text]
      exact lookup_expire positive isEntry
    · omega

end Redis

end Foundation
