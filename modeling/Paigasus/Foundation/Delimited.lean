import Mathlib.Data.List.Basic

/-!
# Delimited texts

Texts whose fields are separated by a character that no field contains have one
reading only.
-/

namespace Foundation

section Delimited

variable {Symbol : Type*} {separator : Symbol}

/-- The first field ends at the first separator. -/
theorem field_eq_of_append_eq {first second rest remaining : List Symbol}
    (firstFree : separator ∉ first) (secondFree : separator ∉ second)
    (same : first ++ separator :: rest = second ++ separator :: remaining) :
    first = second ∧ rest = remaining := by
  induction first generalizing second with
  | nil =>
      cases second with
      | nil => exact ⟨rfl, (List.cons.inj same).2⟩
      | cons symbol tail =>
          have isSeparator := (List.cons.inj same).1
          rw [isSeparator] at secondFree
          exact absurd List.mem_cons_self secondFree
  | cons symbol tail ih =>
      cases second with
      | nil =>
          have isSeparator := (List.cons.inj same).1
          rw [isSeparator] at firstFree
          exact absurd List.mem_cons_self firstFree
      | cons other more =>
          obtain ⟨sameSymbol, sameRest⟩ := List.cons.inj same
          obtain ⟨sameTail, sameRemaining⟩ :=
            ih (fun member => firstFree (List.mem_cons_of_mem _ member))
              (fun member => secondFree (List.mem_cons_of_mem _ member))
              sameRest
          exact ⟨by rw [sameSymbol, sameTail], sameRemaining⟩

/-- The last field starts after the last separator. -/
theorem last_field_eq_of_append_eq {first second rest remaining : List Symbol}
    (restFree : separator ∉ rest) (remainingFree : separator ∉ remaining)
    (same : first ++ separator :: rest = second ++ separator :: remaining) :
    first = second ∧ rest = remaining := by
  have reversed := congrArg List.reverse same
  simp only [List.reverse_append, List.reverse_cons, List.append_assoc,
    List.singleton_append] at reversed
  obtain ⟨rests, firsts⟩ := field_eq_of_append_eq
    (mt List.mem_reverse.mp restFree) (mt List.mem_reverse.mp remainingFree)
    reversed
  exact ⟨List.reverse_injective firsts, List.reverse_injective rests⟩

/-- What begins a delimited text without the separator begins its first field. -/
theorem prefix_field {text field rest : List Symbol}
    (free : separator ∉ text) (begins : text <+: field ++ separator :: rest) :
    text <+: field := by
  have fieldBegins : field <+: field ++ separator :: rest :=
    List.prefix_append _ _
  by_cases short : text.length ≤ field.length
  · exact List.prefix_of_prefix_length_le begins fieldBegins short
  · obtain ⟨more, isText⟩ := List.prefix_of_prefix_length_le fieldBegins begins
      (by omega)
    subst isText
    rw [List.prefix_append_right_inj] at begins
    cases more with
    | nil => simp at short
    | cons symbol tail =>
        have isSeparator := (List.cons_prefix_cons.mp begins).1
        exact absurd (by simp [isSeparator]) free

/-- What begins a delimited text with the separator has its first field. -/
theorem prefix_fields {first second field rest : List Symbol}
    (firstFree : separator ∉ first) (fieldFree : separator ∉ field)
    (begins : first ++ separator :: second <+: field ++ separator :: rest) :
    first = field ∧ second <+: rest := by
  obtain ⟨more, same⟩ := begins
  rw [List.append_assoc, List.cons_append] at same
  obtain ⟨sameField, sameRest⟩ :=
    field_eq_of_append_eq firstFree fieldFree same
  exact ⟨sameField, more, sameRest⟩

/-- A field of one kind of symbols ends where another kind begins. -/
theorem run_eq_of_append_eq {kind : Symbol → Bool}
    {first second rest remaining : List Symbol}
    (firstRun : ∀ symbol ∈ first, kind symbol = true)
    (secondRun : ∀ symbol ∈ second, kind symbol = true)
    (restStops : ∀ symbol ∈ rest.head?, kind symbol = false)
    (remainingStops : ∀ symbol ∈ remaining.head?, kind symbol = false)
    (same : first ++ rest = second ++ remaining) :
    first = second ∧ rest = remaining := by
  induction first generalizing second with
  | nil =>
      cases second with
      | nil => exact ⟨rfl, same⟩
      | cons symbol tail =>
          rw [List.nil_append] at same
          have stops := restStops symbol (by rw [same]; rfl)
          rw [secondRun symbol List.mem_cons_self] at stops
          cases stops
  | cons symbol tail ih =>
      cases second with
      | nil =>
          rw [List.nil_append] at same
          have stops := remainingStops symbol (by rw [← same]; rfl)
          rw [firstRun symbol List.mem_cons_self] at stops
          cases stops
      | cons other more =>
          obtain ⟨sameSymbol, sameRest⟩ := List.cons.inj same
          obtain ⟨sameTail, sameRemaining⟩ :=
            ih (fun later member => firstRun later (List.mem_cons_of_mem _ member))
              (fun later member => secondRun later (List.mem_cons_of_mem _ member))
              sameRest
          exact ⟨by rw [sameSymbol, sameTail], sameRemaining⟩

theorem mem_intersperse {Item : Type*} {separator item : Item}
    {items : List Item} (member : item ∈ items.intersperse separator) :
    item = separator ∨ item ∈ items := by
  fun_induction List.intersperse with
  | case1 => cases member
  | case2 single => exact .inr member
  | case3 first second rest ih =>
      rcases List.mem_cons.mp member with rfl | later
      · exact .inr List.mem_cons_self
      · rcases List.mem_cons.mp later with rfl | later
        · exact .inl rfl
        · rcases ih later with isSeparator | inRest
          · exact .inl isSeparator
          · exact .inr (List.mem_cons_of_mem _ inRest)

/-- Every other symbol of a text lies in one of its fields. -/
theorem mem_field_of_mem [BEq Symbol] [LawfulBEq Symbol] {symbol : Symbol}
    {text : List Symbol} (member : symbol ∈ text)
    (notSeparator : symbol ≠ separator) :
    ∃ field ∈ text.splitOn separator, symbol ∈ field := by
  have whole : [separator].intercalate (text.splitOn separator) = text :=
    List.intercalate_splitOn separator
  rw [← whole, List.intercalate, List.mem_flatten] at member
  obtain ⟨part, partMember, inPart⟩ := member
  rcases mem_intersperse partMember with rfl | isField
  · exact absurd (List.mem_singleton.mp inPart) notSeparator
  · exact ⟨part, isField, inPart⟩

/-- One or more parts of a kind, with a separator between any two. -/
inductive Joined (separator : Symbol) (part : List Symbol → Prop) :
    List Symbol → Prop
  | single {field : List Symbol} (isPart : part field) :
      Joined separator part field
  | more {field rest : List Symbol} (isPart : part field)
      (others : Joined separator part rest) :
      Joined separator part (field ++ separator :: rest)

/-- A map that only fixes the separator keeps the fields apart. -/
theorem splitOn_map [BEq Symbol] [LawfulBEq Symbol] {change : Symbol → Symbol}
    (fixes : ∀ symbol, change symbol = separator ↔ symbol = separator)
    (text : List Symbol) :
    (text.map change).splitOn separator =
      (text.splitOn separator).map (List.map change) := by
  induction text with
  | nil => rfl
  | cons symbol tail ih =>
      have same : (change symbol == separator) = (symbol == separator) := by
        rw [Bool.eq_iff_iff, beq_iff_eq, beq_iff_eq, fixes]
      rw [List.map_cons, List.splitOn_cons_eq_if_modifyHead,
        List.splitOn_cons_eq_if_modifyHead, ih, same]
      split
      case isTrue => rfl
      case isFalse =>
        obtain ⟨first, others, fields⟩ :=
          List.exists_cons_of_ne_nil (List.splitOn_ne_nil separator tail)
        rw [fields]
        rfl

/-- A text is joined from parts when each field of it is a part. -/
theorem joined_iff_splitOn [BEq Symbol] [LawfulBEq Symbol]
    {part : List Symbol → Prop}
    (free : ∀ field, part field → separator ∉ field) {text : List Symbol} :
    Joined separator part text ↔
      ∀ field ∈ text.splitOn separator, part field := by
  constructor
  · intro joined
    induction joined with
    | single isPart =>
        rw [List.splitOn_eq_singleton (free _ isPart)]
        simpa using isPart
    | more isPart others ih =>
        rw [List.splitOn_append_cons_self_of_not_mem (free _ isPart)]
        simpa using ⟨isPart, ih⟩
  · intro parts
    have whole : [separator].intercalate (text.splitOn separator) = text :=
      List.intercalate_splitOn separator
    rw [← whole]
    have nonempty := List.splitOn_ne_nil separator text
    generalize text.splitOn separator = fields at parts nonempty
    clear whole
    induction fields with
    | nil => exact absurd rfl nonempty
    | cons field others ih =>
        have isPart := parts field List.mem_cons_self
        cases others with
        | nil =>
            rw [List.intercalate_singleton]
            exact .single isPart
        | cons other others =>
            rw [List.intercalate_cons_cons, List.append_assoc]
            exact .more isPart
              (ih (fun later member => parts later (List.mem_cons_of_mem _ member))
                (List.cons_ne_nil _ _))

end Delimited

/-- A text field ends at the first colon. -/
theorem texts_eq_of_append_eq {first second rest remaining : String}
    (firstFree : ':' ∉ first.toList) (secondFree : ':' ∉ second.toList)
    (same : first ++ (":" ++ rest) = second ++ (":" ++ remaining)) :
    first = second ∧ rest = remaining := by
  have symbols := congrArg String.toList same
  simp only [String.toList_append] at symbols
  obtain ⟨sameField, sameRest⟩ :=
    field_eq_of_append_eq firstFree secondFree symbols
  exact ⟨String.toList_inj.mp sameField, String.toList_inj.mp sameRest⟩

/-- The text before the first separator and the text after it. -/
def splitFirst (separator : Char) :
    List Char → Option (List Char × List Char)
  | [] => none
  | symbol :: rest =>
      if symbol = separator then some ([], rest)
      else (splitFirst separator rest).map fun (field, after) =>
        (symbol :: field, after)

theorem splitFirst_append {separator : Char} {field : List Char}
    (free : separator ∉ field) (rest : List Char) :
    splitFirst separator (field ++ separator :: rest) = some (field, rest) := by
  induction field with
  | nil => simp [splitFirst]
  | cons symbol tail ih =>
      obtain ⟨other, tailFree⟩ : separator ≠ symbol ∧ separator ∉ tail := by
        simpa using free
      simp [splitFirst, Ne.symm other, ih tailFree]

theorem splitFirst_none {separator : Char} {text : List Char}
    (unsplit : splitFirst separator text = none) : separator ∉ text := by
  induction text with
  | nil => simp
  | cons symbol rest ih =>
      rw [splitFirst] at unsplit
      split at unsplit
      case isTrue => cases unsplit
      case isFalse other =>
        rw [Option.map_eq_none_iff] at unsplit
        simp [Ne.symm other, ih unsplit]

theorem splitFirst_some {separator : Char} {text field after : List Char}
    (split_ : splitFirst separator text = some (field, after)) :
    text = field ++ separator :: after ∧ separator ∉ field := by
  induction text generalizing field with
  | nil => cases split_
  | cons symbol rest ih =>
      rw [splitFirst] at split_
      split at split_
      case isTrue same =>
        cases split_
        simp [same]
      case isFalse other =>
        obtain ⟨⟨tail, behind⟩, tailSplit, same⟩ :=
          Option.map_eq_some_iff.mp split_
        cases same
        obtain ⟨isRest, free⟩ := ih tailSplit
        simp [isRest, free, Ne.symm other]

/-- The decimal text of a number determines it. -/
theorem toDigits_injective {left right : Nat}
    (same : Nat.toDigits 10 left = Nat.toDigits 10 right) : left = right := by
  have values := congrArg (fun digits => Nat.ofDigitChars 10 digits 0) same
  simpa [Nat.ofDigitChars_toDigits] using values

theorem areDigits_toDigits (number : Nat) :
    ∀ digit ∈ Nat.toDigits 10 number, digit.isDigit = true :=
  fun _ member => Nat.isDigit_of_mem_toDigits (by decide) (by decide) member

/-- A positive number does not start with a zero. -/
theorem head_toDigits {number : Nat} (positive : 0 < number) :
    (Nat.toDigits 10 number).head? ≠ some '0' := by
  induction number using Nat.strongRecOn with
  | ind number ih =>
      by_cases small : number < 10
      · rw [Nat.toDigits_of_lt_base small]
        have table : ∀ digit < 10, 0 < digit →
            [Nat.digitChar digit].head? ≠ some '0' := by decide
        exact table number small positive
      · have notFirst := ih (number / 10) (by omega) (by omega)
        rw [Nat.toDigits_of_base_le (by decide) (by omega), List.head?_append]
        cases first : (Nat.toDigits 10 (number / 10)).head? with
        | none =>
            exact absurd (List.head?_eq_none_iff.mp first) Nat.toDigits_ne_nil
        | some digit =>
            rw [first] at notFirst
            exact notFirst

theorem not_mem_toDigits {separator : Char}
    (notDigit : separator.isDigit = false) (value : Nat) :
    separator ∉ Nat.toDigits 10 value := by
  intro member
  rw [Nat.isDigit_of_mem_toDigits (by decide) (by decide) member] at notDigit
  cases notDigit

/-- Decimal digits with zeros in front, up to a width. -/
def zeroPadded (width value : Nat) : List Char :=
  List.replicate (width - (Nat.toDigits 10 value).length) '0' ++
    Nat.toDigits 10 value

theorem zeroPadded_isDigit {width value : Nat} :
    ∀ digit ∈ zeroPadded width value, digit.isDigit = true := by
  intro digit member
  rcases List.mem_append.mp member with isZero | inDigits
  · rw [(List.mem_replicate.mp isZero).2]
    rfl
  · exact Nat.isDigit_of_mem_toDigits (by decide) (by decide) inDigits

theorem zeroPadded_injective {width otherWidth left right : Nat}
    (same : zeroPadded width left = zeroPadded otherWidth right) :
    left = right := by
  have values := congrArg (fun digits => Nat.ofDigitChars 10 digits 0) same
  simpa [zeroPadded, Nat.ofDigitChars_append, Nat.ofDigitChars_replicate_zero,
    Nat.ofDigitChars_toDigits] using values

theorem not_mem_zeroPadded {separator : Char}
    (notDigit : separator.isDigit = false) (width value : Nat) :
    separator ∉ zeroPadded width value := by
  intro member
  rcases List.mem_append.mp member with isZero | inDigits
  · rw [(List.mem_replicate.mp isZero).2] at notDigit
    cases notDigit
  · exact not_mem_toDigits notDigit value inDigits

theorem toString_toList (value : Nat) :
    (toString value).toList = Nat.toDigits 10 value := by
  change (Nat.repr value).toList = _
  simp

theorem not_mem_toString {separator : Char}
    (notDigit : separator.isDigit = false) (value : Nat) :
    separator ∉ (toString value).toList := by
  rw [toString_toList]
  exact not_mem_toDigits notDigit value

theorem toString_inj {left right : Nat}
    (same : toString left = toString right) : left = right := by
  have digits := congrArg String.toList same
  rw [toString_toList, toString_toList] at digits
  exact toDigits_injective digits

end Foundation
