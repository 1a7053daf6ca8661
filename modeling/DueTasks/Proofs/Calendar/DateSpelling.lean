import DueTasks.Proofs.Calendar.DateClamping
import DueTasks.Proofs.Calendar.DateText

/-! Dates as they are spelled.
A date in text is a year of four digits, and behind it a month and a day of two digits each, or a
month alone, or neither. What is missing is the first of its kind; a month or a day out of range is
brought into the calendar.
-/

namespace DueTasks

open Text

-----------------------------------------------------------------------------------------
-- Numbers of a given length
-----------------------------------------------------------------------------------------

namespace Text

/-- A number in a given count of digits. -/
structure HasDigits (count : Nat) (digits : List Char) : Prop where
  length : digits.length = count
  all : ∀ c ∈ digits, c.isDigit = true

/-- A number is less than the power of ten with as many zeros as it has digits, by induction over
the digits from the left.
-/
theorem HasDigits.value_lt {count : Nat} {digits : List Char} (h : HasDigits count digits)
    : digitsValue digits < 10 ^ count := by
  have go (value : Nat) (digits : List Char) (all : ∀ c ∈ digits, c.isDigit = true)
      : digits.foldl (fun value c => value * 10 + digitValue c) value
        < (value + 1) * 10 ^ digits.length := by
    induction digits generalizing value with
    | nil => simp
    | cons c digits ih =>
        obtain ⟨digit, all⟩ := List.forall_mem_cons.mp all
        have small : digitValue c ≤ 9 := by
          simp only [Char.isDigit, Bool.and_eq_true, decide_eq_true_eq, ge_iff_le,
            UInt32.le_iff_toNat_le] at digit
          have upper : c.toNat ≤ 57 := digit.2
          simp only [digitValue, Char.reduceToNat]
          omega
        calc digits.foldl (fun value c => value * 10 + digitValue c) (value * 10 + digitValue c)
          _ < (value * 10 + digitValue c + 1) * 10 ^ digits.length := ih _ all
          _ ≤ ((value + 1) * 10) * 10 ^ digits.length := Nat.mul_le_mul_right _ (by omega)
          _ = (value + 1) * 10 ^ (digits.length + 1) := by rw [Nat.pow_succ', Nat.mul_assoc]
  have bound := go 0 digits h.all
  rwa [h.length, Nat.zero_add, Nat.one_mul] at bound

namespace Cursor

open Parsed

/-- A number of as many digits as are asked for is read. -/
theorem digits?_append {count : Nat} {digits : List Char} (h : HasDigits count digits)
    (offset : Nat) (rest : List Char)
    : result? (digits? count ⟨offset, digits ++ rest⟩)
      = some (digitsValue digits, ⟨offset + byteLength digits, rest⟩) := by
  rw [result?_digits?, List.take_left' h.length, List.drop_left' h.length,
    if_pos ⟨h.length, List.all_eq_true.mpr h.all⟩]

theorem of_digits? {count value : Nat} {c next : Cursor}
    (h : result? (c.digits? count) = some (value, next))
    : ∃ digits,
        HasDigits count digits ∧ c.rest = digits ++ next.rest ∧ value = digitsValue digits := by
  rw [result?_digits?] at h
  split at h
  · rename_i found
    cases h
    exact ⟨_, ⟨found.1, List.all_eq_true.mp found.2⟩, (List.take_append_drop _ _).symm, rfl⟩
  · cases h

theorem digitsAfter?_append {count : Nat} {digits : List Char} (h : HasDigits count digits)
    (mark : Char) (offset : Nat) (rest : List Char)
    : ∃ stop,
        result? (digitsAfter? mark count ⟨offset, mark :: (digits ++ rest)⟩)
          = some (digitsValue digits, ⟨stop, rest⟩) := by
  rw [result?_digitsAfter?, char?_cons_self, Option.bind_some, digits?_append h]
  exact ⟨_, rfl⟩

theorem of_digitsAfter? {mark : Char} {count value : Nat} {c next : Cursor}
    (h : result? (c.digitsAfter? mark count) = some (value, next))
    : ∃ digits,
        HasDigits count digits
        ∧ c.rest = mark :: (digits ++ next.rest)
        ∧ value = digitsValue digits := by
  rw [result?_digitsAfter?] at h
  obtain ⟨⟨⟨⟩, marked⟩, sees, number⟩ := Option.bind_eq_some_iff.mp h
  obtain ⟨digits, has, rest, value⟩ := of_digits? number
  exact ⟨digits, has, (of_char? sees).1.trans (congrArg _ rest), value⟩

end Cursor

end Text

-----------------------------------------------------------------------------------------
-- Spelled dates
-----------------------------------------------------------------------------------------

namespace Date

open Parsed

/-- A text spells a date with the given year, month and day, which need not exist. -/
inductive Spells : List Char → Nat → Nat → Nat → Prop where
  | year {year : List Char} (hy : HasDigits 4 year) : Spells year (digitsValue year) 1 1
  | month {year month : List Char} (hy : HasDigits 4 year) (hm : HasDigits 2 month)
    : Spells (year ++ '-' :: month) (digitsValue year) (digitsValue month) 1
  | day {year month day : List Char} (hy : HasDigits 4 year) (hm : HasDigits 2 month)
      (hd : HasDigits 2 day)
    : Spells (year ++ '-' :: (month ++ '-' :: day)) (digitsValue year) (digitsValue month)
        (digitsValue day)

theorem Spells.year_lt {chars : List Char} {year month day : Nat} (h : Spells chars year month day)
    : year < 10000 := by
  cases h with
  | year hy | month hy | day hy => exact hy.value_lt

theorem Spells.ne_nil {chars : List Char} {year month day : Nat} (h : Spells chars year month day)
    : chars ≠ [] := by
  cases h with
  | year hy =>
      rintro rfl
      cases hy.length
  | month | day => simp

/-- No number stands at the end of a text. -/
theorem digitsAfter?_end (mark : Char) (count offset : Nat)
    : result? (Cursor.digitsAfter? mark count ⟨offset, []⟩) = none :=
  rfl

/-- A spelled date is read whole. -/
theorem Spells.read? {chars : List Char} {year month day : Nat} (h : Spells chars year month day)
    (offset : Nat)
    : ∃ stop, result? (read? ⟨offset, chars⟩) = some (ofParts year month day, ⟨stop, []⟩) := by
  cases h with
  | year hy =>
      have first := Cursor.digits?_append hy offset []
      rw [List.append_nil] at first
      simp only [result?_read?, first, Option.map_some, readMonth, digitsAfter?_end]
      exact ⟨_, rfl⟩
  | @month year month hy hm =>
      obtain ⟨stop, second⟩ :=
        Cursor.digitsAfter?_append hm '-' (offset + byteLength year) []
      rw [List.append_nil] at second
      simp only [result?_read?, Cursor.digits?_append hy, Option.map_some, readMonth, second,
        readDay, digitsAfter?_end]
      exact ⟨_, rfl⟩
  | @day year month day hy hm hd =>
      obtain ⟨stop, second⟩ :=
        Cursor.digitsAfter?_append hm '-' (offset + byteLength year) ('-' :: day)
      obtain ⟨stop', third⟩ := Cursor.digitsAfter?_append hd '-' stop []
      rw [List.append_nil] at third
      simp only [result?_read?, Cursor.digits?_append hy, Option.map_some, readMonth, second,
        readDay, third]
      exact ⟨_, rfl⟩

/-- What is read whole is a spelled date. -/
theorem exists_spells {c next : Cursor} {date : Date}
    (h : result? (read? c) = some (date, next)) (whole : next.rest = [])
    : ∃ year month day : Nat, Spells c.rest year month day ∧ date = ofParts year month day := by
  rw [result?_read?] at h
  obtain ⟨⟨_, afterYear⟩, found, behind⟩ := Option.map_eq_some_iff.mp h
  obtain ⟨year, hy, text, rfl⟩ := Cursor.of_digits? found
  rw [text]
  simp only [readMonth] at behind
  split at behind
  · cases behind
    rw [whole, List.append_nil]
    exact ⟨_, _, _, .year hy, rfl⟩
  · rename_i afterMonth found
    obtain ⟨month, hm, text, same⟩ := Cursor.of_digitsAfter? found
    rw [text]
    simp only [readDay] at behind
    split at behind
    · cases behind
      rw [whole, List.append_nil]
      exact ⟨_, _, _, .month hy hm, same ▸ rfl⟩
    · rename_i afterDay found
      obtain ⟨day, hd, text, same'⟩ := Cursor.of_digitsAfter? found
      cases behind
      rw [text, whole, List.append_nil]
      exact ⟨_, _, _, .day hy hm hd, same ▸ same' ▸ rfl⟩

-----------------------------------------------------------------------------------------
-- Texts that spell dates
-----------------------------------------------------------------------------------------

/-- A text is a date exactly if it spells one between white space, and then the nearest day of the
calendar.
-/
theorem ofText?_eq_some {chars : List Char} {date : Date}
    : ofText? (String.ofList chars) = some date
      ↔ ∃ year month day : Nat,
          Spells (trim chars) year month day ∧ date.toCivil = .clamped year month day := by
  have clamps {year month day : Nat} (spells : Spells (trim chars) year month day)
      : (ofParts year month day).toCivil = .clamped year month day := by
    refine toCivil_ofParts ?_ month day
    have bound := spells.year_lt
    omega
  rw [ofText?_eq, Option.bind_eq_some_iff]
  constructor
  · rintro ⟨⟨found, next⟩, read, whole⟩
    split at whole
    · rename_i empty
      cases whole
      obtain ⟨year, month, day, spells, rfl⟩ := exists_spells read (List.isEmpty_iff.mp empty)
      exact ⟨year, month, day, spells, clamps spells⟩
    · cases whole
  · rintro ⟨year, month, day, spells, civil⟩
    obtain ⟨stop, read⟩ := spells.read? 0
    refine ⟨_, read, ?_⟩
    have same : ofParts year month day = date := by
      have civils := (clamps spells).trans civil.symm
      rcases hp : ofParts year month day with ⟨parts, _⟩
      rcases date with ⟨days, _⟩
      rw [hp] at civils
      congr
    simp [same]

end Date

end DueTasks
