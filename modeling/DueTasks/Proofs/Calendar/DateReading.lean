import DueTasks.Calendar.DateReader
import DueTasks.Proofs.Text.Border
import DueTasks.Proofs.Text.Decimal
import DueTasks.Proofs.Text.Passage

/-! Reading dates.
A date in full is read back as it was written. In two texts that agree up to a border the same date
is found before the border, unless the second text goes on with a hyphen or a digit.
-/

namespace DueTasks

open Text

namespace Date

open Parsed

/-- Reads what may follow a month, and gives the date. -/
def readDay (year month : Nat) (c : Cursor) : Date × Cursor :=
  match result? (c.digitsAfter? '-' 2) with
  | none => (ofParts year month 1, c)
  | some day => (ofParts year month day.1, day.2)

/-- Reads what may follow a year, and gives the date. -/
def readMonth (year : Nat) (c : Cursor) : Date × Cursor :=
  match result? (c.digitsAfter? '-' 2) with
  | none => (ofParts year 1 1, c)
  | some month => readDay year month.1 month.2

/-- A date is read from its year and what follows. -/
theorem result?_read? (c : Cursor)
    : result? (read? c)
      = (result? (c.digits? 4)).map fun year => readMonth year.1 year.2 := by
  simp only [read?, readMonth, readDay]
  cases c.digits? 4 with
  | none => rfl
  | some year =>
      simp only [Option.bind_eq_bind, Option.bind_some, result?_some, result, Option.map_some]
      cases year.next.digitsAfter? '-' 2 with
      | none => rfl
      | some month =>
          simp only [result?_some, result]
          cases month.next.digitsAfter? '-' 2 <;> rfl

/-- Whether a date can hold a character. -/
def isPart (c : Char) : Bool :=
  c.isDigit || c == '-'

theorem isPart_of_isDigit {c : Char} (h : c.isDigit = true) : isPart c = true := by
  simp [isPart, h]

theorem within_readDay (year month : Nat) (c : Cursor)
    : Within isPart c (readDay year month c).2 := by
  unfold readDay
  split
  · exact .refl c
  · rename_i h
    exact Cursor.within_of_digitsAfter? h rfl fun _ => isPart_of_isDigit

theorem within_readMonth (year : Nat) (c : Cursor) : Within isPart c (readMonth year c).2 := by
  unfold readMonth
  split
  · exact .refl c
  · rename_i h
    exact (Cursor.within_of_digitsAfter? h rfl fun _ => isPart_of_isDigit).trans
      (within_readDay ..)

theorem within_of_read? {c next : Cursor} {date : Date}
    (h : result? (read? c) = some (date, next))
    : Within isPart c next := by
  rw [result?_read?] at h
  obtain ⟨year, hy, he⟩ := Option.map_eq_some_iff.mp h
  have later := within_readMonth year.1 year.2
  rw [he] at later
  exact ((Cursor.within_of_digits? hy).mono fun _ => isPart_of_isDigit).trans later

/-- A date begins with a digit. -/
theorem head_isDigit {c next : Cursor} {date : Date} (h : result? (read? c) = some (date, next))
    : c.rest.head?.any Char.isDigit = true := by
  rw [result?_read?] at h
  obtain ⟨year, hy, -⟩ := Option.map_eq_some_iff.mp h
  rw [Cursor.result?_digits?] at hy
  split at hy
  · rename_i digits
    obtain ⟨offset, _ | ⟨found, rest⟩⟩ := c
    · exact absurd digits.1 (by simp)
    · have := digits.2
      simp only [List.take_succ_cons, List.all_cons, Bool.and_eq_true] at this
      simpa using this.1
  · cases hy

/-- A date made of the parts of a date is that date. -/
theorem ofParts_self (d : Date) : ofParts d.year d.month d.day = d := by
  have month := d.month_mem
  have day := d.day_mem
  have most := (daysInMonth_mem d.year d.month).2
  obtain ⟨before, hb⟩ : ∃ before, d.day = before + 1 := ⟨d.day - 1, by omega⟩
  have parts : ofParts? d.year d.month d.day = some d := by
    rw [ofParts?, dif_pos ⟨month, day⟩, ofCivil?, dif_pos d.year_mem]
  rw [ofParts, show max 1 (min d.month 12) = d.month by omega,
    show max 1 (min d.day 31) = d.day by omega, hb, latestUpTo?, ← hb, parts]
  rfl

theorem chars_eq {d : Date} (year : 0 ≤ d.year ∧ d.year ≤ 9999)
    : d.chars
      = paddedDecimal 4 d.year.natAbs
        ++ (('-' :: paddedDecimal 2 d.month) ++ ('-' :: paddedDecimal 2 d.day)) := by
  rw [chars, yearText, if_neg (by omega), if_neg (by omega), List.append_assoc]

/-- A date in full is read back, if its year has four digits. -/
theorem result?_read?_chars (offset : Nat) {d : Date} (year : 0 ≤ d.year ∧ d.year ≤ 9999)
    (rest : List Char)
    : result? (read? ⟨offset, d.chars ++ rest⟩)
      = some (d, ⟨offset + byteLength d.chars, rest⟩) := by
  have month := d.month_mem
  have day := d.day_mem
  have most := (daysInMonth_mem d.year d.month).2
  have absolute : (d.year.natAbs : Int) = d.year := by omega
  rw [chars_eq year, List.append_assoc, List.append_assoc, result?_read?,
    Cursor.digits?_paddedDecimal _ _ (by omega) (by decide), Option.map_some, readMonth,
    Cursor.digitsAfter?_paddedDecimal _ _ _ (by omega) (by decide)]
  simp only [readDay]
  rw [Cursor.digitsAfter?_paddedDecimal _ _ _ (by omega) (by decide)]
  simp only [absolute, ofParts_self, byteLength_append, Nat.add_assoc]

end Date

namespace Text.Border

open Parsed Date

variable {b : Border} {c c' : Cursor}

theorem Beside.readDay (h : b.Beside c c') (year month : Nat)
    (hyphen : b.tail'.head? ≠ some '-') (digit : stops Char.isDigit b.tail' = true)
    : b.Stays Eq (Date.readDay year month c) (Date.readDay year month c') := by
  have day := h.digitsAfter? 2 hyphen digit
  simp only [Date.readDay]
  generalize result? (c.digitsAfter? '-' 2) = left at day
  generalize result? (c'.digitsAfter? '-' 2) = right at day
  cases day with
  | passed passed => exact .inl passed
  | absent => exact .inr ⟨rfl, h⟩
  | found value places => exact .inr ⟨congrArg (ofParts year month) value, places⟩

/-- The month and the day of a year are found before the border in both texts or in none. -/
theorem Beside.readMonth (h : b.Beside c c') (year : Nat)
    (hyphen : b.tail'.head? ≠ some '-') (digit : stops Char.isDigit b.tail' = true)
    : b.Stays Eq (Date.readMonth year c) (Date.readMonth year c') := by
  have month := h.digitsAfter? 2 hyphen digit
  simp only [Date.readMonth]
  generalize result? (c.digitsAfter? '-' 2) = left at month
  generalize result? (c'.digitsAfter? '-' 2) = right at month
  cases month with
  | passed passed => exact .inl (Nat.lt_of_le_of_lt (within_readDay _ _ _).remaining_le passed)
  | absent => exact .inr ⟨rfl, h⟩
  | found value places =>
      subst value
      exact places.readDay year _ hyphen digit

/-- A date is found before the border in both texts or in none. -/
theorem Beside.readDate? (h : b.Beside c c') (hyphen : b.tail'.head? ≠ some '-')
    (digit : stops Char.isDigit b.tail' = true)
    : b.Keeps Eq (result? (Date.read? c)) (result? (Date.read? c')) := by
  have year := h.digits? 4 digit
  rw [result?_read?, result?_read?]
  generalize result? (c.digits? 4) = left at year
  generalize result? (c'.digits? 4) = right at year
  cases year with
  | passed passed => exact .passed (Nat.lt_of_le_of_lt (within_readMonth _ _).remaining_le passed)
  | absent => exact .absent
  | found value places =>
      subst value
      exact (places.readMonth _ hyphen digit).keeps

end Text.Border

namespace Date

open Parsed

/-- A date is read at any place and in front of every text that no date goes on with. -/
theorem read?_elsewhere {offset : Nat} {token rest rest' : List Char} {date : Date}
    (dated
      : result? (read? ⟨offset, token ++ rest⟩)
        = some (date, ⟨offset + byteLength token, rest⟩))
    (hyphen : rest'.head? ≠ some '-') (digit : stops Char.isDigit rest' = true) (offset' : Nat)
    : result? (read? ⟨offset', token ++ rest'⟩)
      = some (date, ⟨offset' + byteLength token, rest'⟩) := by
  let b : Border := ⟨offset, offset', rest, rest'⟩
  have beside : b.Beside ⟨offset, token ++ rest⟩ ⟨offset', token ++ rest'⟩ := .intro 0 token
  have keeps := beside.readDate? hyphen digit
  rw [dated] at keeps
  generalize result? (read? ⟨offset', token ++ rest'⟩) = right at keeps
  cases keeps with
  | passed passed => exact absurd passed (Nat.lt_irrefl _)
  | found same places =>
      rw [same, places.eq (.intro (byteLength token) [])]
      rfl

end Date

end DueTasks
