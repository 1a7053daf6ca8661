import DueTasks.Proofs.Calendar.PeriodSpelling
import DueTasks.Proofs.Text.Decimal

/-! Periods in text, and their reading.
A period whose parts share one sign is written with that sign and with its parts that are not zero.
It is read back in front of everything but a digit.
-/

namespace DueTasks

open Text Parsed

namespace Period

/-- Numbers with their units in text. -/
def partsChars (parts : List (Nat × PeriodUnit)) : List Char :=
  parts.flatMap fun part => decimal part.1 ++ [part.2.letter]

/-- The sign of a period in text. A plus sign may be left out, and is. -/
def signChars (negative : Bool) : List Char :=
  if negative then ['-'] else []

/-- The numbers with units that a period is made of, signs apart. -/
def parts (p : Period) : List (Nat × PeriodUnit) :=
  [(p.years.natAbs, .year), (p.months.natAbs, .month), (p.days.natAbs, .day)].filter
    fun part => part.1 != 0

/-- Whether a part of a period is negative. -/
def isNegative (p : Period) : Bool :=
  decide (p.years < 0) || decide (p.months < 0) || decide (p.days < 0)

/-- A period in text, which is empty for the empty period. -/
def chars (p : Period) : List Char :=
  signChars p.isNegative ++ partsChars p.parts

/-- A period in text, with a part also for the empty period. -/
def fullChars (p : Period) : List Char :=
  if p.isZero then partsChars [(0, .day)] else p.chars

/-- The parts of a period share one sign, and their magnitudes fit in 32 bits with a sign. -/
structure IsWritable (p : Period) : Prop where
  sign : (0 ≤ p.years ∧ 0 ≤ p.months ∧ 0 ≤ p.days) ∨ (p.years ≤ 0 ∧ p.months ≤ 0 ∧ p.days ≤ 0)
  years : p.years.natAbs ≤ 2147483647
  months : p.months.natAbs ≤ 2147483647
  days : p.days.natAbs ≤ 2147483647

-----------------------------------------------------------------------------------------
-- Numbers with units are read back
-----------------------------------------------------------------------------------------

/-- The parts of a period as they are spelled. -/
def spelledParts (parts : List (Nat × PeriodUnit)) : List (List Char × PeriodUnit) :=
  parts.map fun part => (decimal part.1, part.2)

theorem partsChars_eq (parts : List (Nat × PeriodUnit))
    : partsChars parts = spelledChars (spelledParts parts) := by
  simp only [partsChars, spelledChars, spelledParts, List.flatMap_map]

theorem isNumber_of_mem {parts : List (Nat × PeriodUnit)}
    : ∀ part ∈ spelledParts parts, IsNumber part.1 := by
  intro part member
  obtain ⟨part, -, rfl⟩ := List.mem_map.mp member
  exact ⟨decimal_ne_nil part.1, isDigit_of_mem_decimal⟩

/-- Numbers that fit are read back. -/
theorem readNumbers_spelledParts {parts : List (Nat × PeriodUnit)}
    (fit : ∀ part ∈ parts, part.1 ≤ greatestCount)
    : readNumbers (spelledParts parts) = parts := by
  rw [readNumbers, spelledParts, List.map_map]
  refine (List.map_congr_left fun part member => ?_).trans (List.map_id parts)
  have number : cappedValue greatestCount (decimal part.1) = part.1 := by
    rw [cappedValue_eq, digitsValue_decimal, Nat.min_eq_left (fit part member)]
  exact Prod.ext number rfl

/-- A sign with one or more numbers with units is read back. -/
theorem result?_read?_append (offset : Nat) (negative : Bool) {parts : List (Nat × PeriodUnit)}
    (some : parts ≠ []) (fit : ∀ part ∈ parts, part.1 ≤ greatestCount) {rest : List Char}
    (stop : stops Char.isDigit rest = true)
    : result? (read? ⟨offset, signChars negative ++ partsChars parts ++ rest⟩)
      = .some (ofSigned negative parts,
          ⟨offset + byteLength (signChars negative ++ partsChars parts), rest⟩) := by
  let spelling : Spelling := {
    sign := if negative then .some '-' else none
    parts := spelledParts parts
    sign_mem := by cases negative <;> decide
    nonempty := by simpa [spelledParts] using some
    numbers := isNumber_of_mem }
  have text : spelling.chars = signChars negative ++ partsChars parts := by
    rw [partsChars_eq]
    cases negative <;> rfl
  have sign : spelling.isNegative = negative := by
    cases negative <;> rfl
  have read := result?_read?_spelled spelling offset rest
  have more := result_readParts ⟨offset + byteLength spelling.chars, rest⟩
  rw [readPart?_eq_none _ stop] at more
  simp only [result] at read more
  rw [(Prod.mk.inj more).1, (Prod.mk.inj more).2, sign, readNumbers_spelledParts fit,
    List.append_nil, text] at read
  exact read

-----------------------------------------------------------------------------------------
-- The numbers make up the period
-----------------------------------------------------------------------------------------

/-- A number that fits is the nearest one that fits. -/
theorem saturate_eq {n : Int} (least : -2147483648 ≤ n) (greatest : n ≤ 2147483647)
    : saturate n = n := by
  simp only [saturate, leastPart, greatestPart]
  omega

/-- Counts that fit, added up unless they are zero, make up the parts one after the other. -/
theorem add_ofUnit {years months days : Nat} (fits : years ≤ 2147483647)
    (fits' : months ≤ 2147483647) (fits'' : days ≤ 2147483647)
    : (if years != 0 then zero + ofUnit years .year else zero) = ⟨years, 0, 0⟩
      ∧ (if months != 0 then ⟨years, 0, 0⟩ + ofUnit months .month else ⟨years, 0, 0⟩)
        = (⟨years, months, 0⟩ : Period)
      ∧ (if days != 0 then ⟨years, months, 0⟩ + ofUnit days .day else ⟨years, months, 0⟩)
        = (⟨years, months, days⟩ : Period) := by
  have fit {n : Nat} (h : n ≤ 2147483647) : min (n : Int) greatestPart = n := by
    simp only [greatestPart]
    omega
  have whole {n : Nat} (h : n ≤ 2147483647) : saturate (n : Int) = n :=
    saturate_eq (by omega) (by omega)
  have none : saturate 0 = 0 := rfl
  have add_eq (a b : Period) : a + b = add a b := rfl
  refine ⟨?_, ?_, ?_⟩
  · split
    · simp [add_eq, add, zero, ofUnit, fit fits, whole fits, none]
    · simp_all [zero]
  · split
    · simp [add_eq, add, ofUnit, fit fits', whole fits, whole fits', none]
    · simp_all
  · split
    · simp [add_eq, add, ofUnit, fit fits'', whole fits, whole fits', whole fits'']
    · simp_all

/-- The numbers with units of a period that can be written make up its magnitudes. -/
theorem ofUnits_parts {p : Period} (h : p.IsWritable)
    : ofUnits p.parts = ⟨p.years.natAbs, p.months.natAbs, p.days.natAbs⟩ := by
  obtain ⟨years, months, days⟩ := add_ofUnit h.years h.months h.days
  rw [ofUnits, parts, List.foldl_filter]
  simp only [List.foldl_cons, List.foldl_nil]
  rw [years, months, days]

/-- With the sign they make up the period. -/
theorem ofSigned_parts {p : Period} (h : p.IsWritable) : ofSigned p.isNegative p.parts = p := by
  rw [ofSigned, ofUnits_parts h]
  obtain ⟨sign, years, months, days⟩ := h
  obtain ⟨y, m, d⟩ := p
  simp only at sign years months days
  split
  · rename_i negative
    simp only [isNegative, Bool.or_eq_true, decide_eq_true_eq] at negative
    show neg _ = _
    simp only [neg]
    rw [saturate_eq (by omega) (by omega), saturate_eq (by omega) (by omega),
      saturate_eq (by omega) (by omega)]
    simp only [Period.mk.injEq]
    omega
  · rename_i positive
    simp only [isNegative, Bool.or_eq_true, decide_eq_true_eq] at positive
    simp only [Period.mk.injEq]
    omega

/-- A period that is not empty has parts. -/
theorem parts_ne_nil {p : Period} (h : p.isZero = false) : p.parts ≠ [] := by
  intro none
  obtain ⟨y, m, d⟩ := p
  simp only [parts, List.filter_eq_nil_iff, List.mem_cons, List.not_mem_nil, or_false,
    forall_eq_or_imp, forall_eq, bne_iff_ne, ne_eq, Decidable.not_not, Int.natAbs_eq_zero] at none
  obtain ⟨rfl, rfl, rfl⟩ := none
  cases h

/-- The numbers of a period that can be written are read in full. -/
theorem parts_le {p : Period} (h : p.IsWritable) : ∀ part ∈ p.parts, part.1 ≤ greatestCount := by
  intro part member
  have listed := (List.mem_filter.mp member).1
  simp only [List.mem_cons, List.not_mem_nil, or_false] at listed
  have := h.years
  have := h.months
  have := h.days
  rcases listed with rfl | rfl | rfl <;> simp only [greatestCount] <;> omega

/-- A period that is not empty is read back in front of everything but a digit. -/
theorem result?_read?_chars (offset : Nat) {p : Period} (h : p.IsWritable)
    (some : p.isZero = false) {rest : List Char} (stop : stops Char.isDigit rest = true)
    : result? (read? ⟨offset, p.chars ++ rest⟩)
      = .some (p, ⟨offset + byteLength p.chars, rest⟩) := by
  rw [chars, result?_read?_append _ _ (parts_ne_nil some) (parts_le h) stop, ofSigned_parts h]

/-- A period is written with the characters that periods can hold, as it is read back from them. -/
theorem isPart_of_mem_chars {p : Period} (h : p.IsWritable)
    : ∀ c ∈ p.chars, isPart c = true := by
  cases zero : p.isZero with
  | true =>
      have empty : p = Period.zero := by simpa [isZero] using zero
      rw [empty]
      exact List.forall_mem_nil _
  | false =>
      obtain ⟨read, passage, all⟩ := within_of_read? (result?_read?_chars 0 h zero (stops_nil _))
      have text : p.chars = read := by simpa using passage.rest_eq
      rw [text]
      exact all

theorem result?_read?_fullChars (offset : Nat) {p : Period} (h : p.IsWritable) {rest : List Char}
    (stop : stops Char.isDigit rest = true)
    : result? (read? ⟨offset, p.fullChars ++ rest⟩)
      = .some (p, ⟨offset + byteLength p.fullChars, rest⟩) := by
  rw [fullChars]
  cases zero : p.isZero with
  | false => exact result?_read?_chars offset h zero stop
  | true =>
      have empty : p = Period.zero := by simpa [isZero] using zero
      have fit : ∀ part ∈ [(0, PeriodUnit.day)], part.1 ≤ greatestCount :=
        List.forall_mem_singleton.mpr (Nat.zero_le _)
      have read := result?_read?_append offset false (List.cons_ne_nil _ _) fit stop
      rw [empty]
      exact read

end Period

end DueTasks
