import DueTasks.Proofs.Calendar.DateReading
import DueTasks.Proofs.Text.Trimming

/-! Dates as texts of their own.
Every date can be written, but only the years 0 to 9999 are written with four digits and nothing in
front of them. Exactly those dates are read back.
-/

namespace DueTasks.Date

open Text Parsed

theorem isBlank_of_mem_yearText {year : Int} : ∀ c ∈ yearText year, isBlank c = false := by
  have digits : ∀ c ∈ paddedDecimal 4 year.natAbs, isBlank c = false :=
    fun c member => isBlank_of_isDigit (isDigit_of_mem_paddedDecimal c member)
  rw [yearText]
  split
  · exact List.forall_mem_cons.mpr ⟨by decide, digits⟩
  · split
    · exact List.forall_mem_cons.mpr ⟨by decide, digits⟩
    · exact digits

theorem isBlank_of_mem_chars {d : Date} : ∀ c ∈ d.chars, isBlank c = false := by
  have number (n : Nat) : ∀ c ∈ '-' :: paddedDecimal 2 n, isBlank c = false :=
    List.forall_mem_cons.mpr
      ⟨by decide, fun c member => isBlank_of_isDigit (isDigit_of_mem_paddedDecimal c member)⟩
  rw [chars]
  exact List.forall_mem_append.mpr
    ⟨List.forall_mem_append.mpr ⟨isBlank_of_mem_yearText, number _⟩, number _⟩

/-- A text is a date if a date ends where the text does, white space around it apart. -/
theorem ofText?_eq (chars : List Char)
    : ofText? (String.ofList chars)
      = (result? (read? ⟨0, trim chars⟩)).bind fun found =>
          if found.2.rest.isEmpty then some found.1 else none := by
  rw [ofText?, String.toList_ofList, Cursor.start]
  cases read? ⟨0, trim chars⟩ <;> rfl

/-- A text that is a date is read as the date in front of everything that no date goes on with. -/
theorem read?_of_ofText? {chars rest : List Char} {date : Date}
    (text : ofText? (String.ofList chars) = some date) (hyphen : rest.head? ≠ some '-')
    (digit : stops Char.isDigit rest = true) (offset : Nat)
    : result? (read? ⟨offset, trim chars ++ rest⟩)
      = some (date, ⟨offset + byteLength (trim chars), rest⟩) := by
  rw [ofText?_eq] at text
  obtain ⟨⟨found, stop, left⟩, read, whole⟩ := Option.bind_eq_some_iff.mp text
  simp only at whole
  split at whole
  · rename_i empty
    obtain rfl := Option.some.inj whole
    obtain rfl := List.isEmpty_iff.mp empty
    obtain ⟨token, before, -⟩ := within_of_read? read
    have taken : trim chars = token := by simpa using before.rest_eq
    rw [show stop = 0 + byteLength (trim chars) from taken ▸ before.offset_eq,
      show (⟨0, trim chars⟩ : Cursor) = ⟨0, trim chars ++ []⟩ by rw [List.append_nil]] at read
    exact read?_elsewhere read hyphen digit offset
  · cases whole

/-- A year outside of 0 to 9999 begins with a sign. -/
theorem read?_chars_eq_none (offset : Nat) {d : Date} (year : ¬ (0 ≤ d.year ∧ d.year ≤ 9999))
    : read? ⟨offset, d.chars⟩ = none := by
  have signed : d.chars.head?.any Char.isDigit = false := by
    rw [chars, yearText]
    by_cases before : d.year < 0
    · rw [if_pos before]
      rfl
    · rw [if_neg before, if_pos (by omega)]
      rfl
  rw [← result?_eq_none, Option.eq_none_iff_forall_ne_some]
  rintro ⟨date, next⟩ found
  exact absurd (head_isDigit found) (by rw [signed]; exact Bool.false_ne_true)

/-- The text of a date is that date again exactly if its year is written without a sign. -/
theorem ofText?_text (d : Date)
    : ofText? d.text = if 0 ≤ d.year ∧ d.year ≤ 9999 then some d else none := by
  rw [text, ofText?_eq, trim_of_not_mem isBlank_of_mem_chars]
  by_cases year : 0 ≤ d.year ∧ d.year ≤ 9999
  · have read := result?_read?_chars 0 year []
    rw [List.append_nil] at read
    rw [read, if_pos year]
    rfl
  · rw [read?_chars_eq_none 0 year, if_neg year]
    rfl

end DueTasks.Date
