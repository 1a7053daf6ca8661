import DueTasks.Proofs.Calendar.PeriodReading

/-! Periods as they are spelled.
A period is spelled by a sign or none and by numbers in digits that carry units, in any order and as
often as they occur. Every reading is the reading of a spelling, and every spelling is read with all
of its numbers.
-/

namespace DueTasks

open Text Parsed

/-- The letter that stands for a unit. -/
def PeriodUnit.letter : PeriodUnit → Char
  | .year => 'Y'
  | .month => 'M'
  | .week => 'W'
  | .day => 'D'

theorem PeriodUnit.ofLetter?_letter (unit : PeriodUnit) : ofLetter? unit.letter = some unit := by
  cases unit <;> rfl

theorem PeriodUnit.eq_letter {letter : Char} {unit : PeriodUnit} (h : ofLetter? letter = some unit)
    : letter = unit.letter := by
  unfold ofLetter? at h
  split at h <;> cases h <;> rfl

theorem PeriodUnit.isDigit_letter (unit : PeriodUnit) : unit.letter.isDigit = false := by
  cases unit <;> rfl

namespace Period

/-- A number in digits. -/
def IsNumber (digits : List Char) : Prop :=
  digits ≠ [] ∧ ∀ c ∈ digits, c.isDigit = true

/-- Numbers in digits with their units. -/
def spelledChars (parts : List (List Char × PeriodUnit)) : List Char :=
  parts.flatMap fun part => part.1 ++ [part.2.letter]

/-- The numbers that are read from digits with units. -/
def readNumbers (parts : List (List Char × PeriodUnit)) : List (Nat × PeriodUnit) :=
  parts.map fun part => (cappedValue greatestCount part.1, part.2)

theorem spelledChars_cons (digits : List Char) (unit : PeriodUnit)
    (parts : List (List Char × PeriodUnit)) (rest : List Char)
    : spelledChars ((digits, unit) :: parts) ++ rest
      = digits ++ unit.letter :: (spelledChars parts ++ rest) := by
  simp [spelledChars]

/-- A period as it is spelled. -/
structure Spelling where
  sign : Option Char
  parts : List (List Char × PeriodUnit)
  sign_mem : sign ∈ [none, some '+', some '-']
  nonempty : parts ≠ []
  numbers : ∀ part ∈ parts, IsNumber part.1

namespace Spelling

/-- The text of a spelled period. -/
def chars (s : Spelling) : List Char :=
  s.sign.toList ++ spelledChars s.parts

/-- Whether the sign is a minus. -/
def isNegative (s : Spelling) : Bool :=
  s.sign == some '-'

end Spelling

-----------------------------------------------------------------------------------------
-- Spelled numbers are read
-----------------------------------------------------------------------------------------

theorem stops_letter (unit : PeriodUnit) (rest : List Char)
    : stops Char.isDigit (unit.letter :: rest) = true := by
  rw [stops_cons, unit.isDigit_letter]
  rfl

theorem result?_readPart?_digits (offset : Nat) {digits : List Char} (number : IsNumber digits)
    (unit : PeriodUnit) (rest : List Char)
    : result? (readPart? ⟨offset, digits ++ unit.letter :: rest⟩)
      = some ((cappedValue greatestCount digits, unit),
          ⟨offset + byteLength digits + unit.letter.utf8Size, rest⟩) := by
  have stop := stops_letter unit rest
  rw [result?_readPart?, Cursor.result?_run?, Cursor.run_append _ _ number.2 stop,
    if_neg number.1, Cursor.skip_append _ _ number.2 stop, Option.bind_some, result?_readUnit?,
    Cursor.result?_any?_cons, Option.bind_some, unit.ofLetter?_letter]
  rfl

/-- Spelled numbers are read one after the other, and then those that follow them. By induction on
how many are spelled.
-/
theorem result_readParts_spelled (offset : Nat) {parts : List (List Char × PeriodUnit)}
    (numbers : ∀ part ∈ parts, IsNumber part.1) (rest : List Char)
    : let more := readParts ⟨offset + byteLength (spelledChars parts), rest⟩
      (readParts ⟨offset, spelledChars parts ++ rest⟩).result
        = (readNumbers parts ++ more.value, more.next) := by
  induction parts generalizing offset with
  | nil => rfl
  | cons part parts ih =>
      obtain ⟨digits, unit⟩ := part
      obtain ⟨number, numbers⟩ := List.forall_mem_cons.mp numbers
      have later : offset + byteLength digits + unit.letter.utf8Size
            + byteLength (spelledChars parts)
          = offset + byteLength (spelledChars ((digits, unit) :: parts)) := by
        simp [spelledChars, Nat.add_assoc]
      have more := ih (offset + byteLength digits + unit.letter.utf8Size) numbers
      rw [later] at more
      simp only [result] at more ⊢
      have first := result_readParts ⟨offset, spelledChars ((digits, unit) :: parts) ++ rest⟩
      rw [spelledChars_cons, result?_readPart?_digits _ number] at first
      rw [spelledChars_cons]
      simp only [result] at first
      rw [(Prod.mk.inj first).1, (Prod.mk.inj first).2, (Prod.mk.inj more).1, (Prod.mk.inj more).2]
      rfl

theorem IsNumber.exists_cons {digits : List Char} (number : IsNumber digits)
    : ∃ digit more, digits = digit :: more ∧ digit ≠ '-' ∧ digit ≠ '+' := by
  obtain ⟨some, all⟩ := number
  obtain ⟨digit, more, rfl⟩ := List.exists_cons_of_ne_nil some
  have isDigit := all digit List.mem_cons_self
  refine ⟨digit, more, rfl, ?_, ?_⟩
  · rintro rfl
    cases isDigit
  · rintro rfl
    cases isDigit

/-- A sign or none is read in front of a number. -/
theorem result_readSign_spelled (offset : Nat) {sign : Option Char}
    (sign_mem : sign ∈ [none, some '+', some '-']) {digits : List Char}
    (number : IsNumber digits) (rest : List Char)
    : (readSign ⟨offset, sign.toList ++ (digits ++ rest)⟩).result
      = (sign == some '-', ⟨offset + byteLength sign.toList, digits ++ rest⟩) := by
  simp only [List.mem_cons, List.not_mem_nil, or_false] at sign_mem
  rcases sign_mem with rfl | rfl | rfl
  · -- a number begins with a digit, which is neither sign
    obtain ⟨digit, more, rfl, minus, plus⟩ := number.exists_cons
    have sign := result_readSign_cons offset digit (more ++ rest)
    rw [if_neg (not_or.mpr ⟨minus, plus⟩), beq_false_of_ne minus] at sign
    exact sign
  · exact result_readSign_cons offset '+' _
  · exact result_readSign_cons offset '-' _

/-- A spelled period is read with all of its numbers and with those that follow them. -/
theorem result?_read?_spelled (s : Spelling) (offset : Nat) (rest : List Char)
    : let more := readParts ⟨offset + byteLength s.chars, rest⟩
      result? (read? ⟨offset, s.chars ++ rest⟩)
        = some (ofSigned s.isNegative (readNumbers s.parts ++ more.value), more.next) := by
  obtain ⟨sign, parts, sign_mem, nonempty, numbers⟩ := s
  obtain ⟨⟨digits, unit⟩, parts, rfl⟩ := List.exists_cons_of_ne_nil nonempty
  obtain ⟨number, numbers⟩ := List.forall_mem_cons.mp numbers
  have signed := result_readSign_spelled offset sign_mem number
    (unit.letter :: (spelledChars parts ++ rest))
  have more := result_readParts_spelled
    (offset + byteLength sign.toList + byteLength digits + unit.letter.utf8Size) numbers rest
  have later : offset + byteLength sign.toList + byteLength digits + unit.letter.utf8Size
        + byteLength (spelledChars parts)
      = offset + byteLength (sign.toList ++ spelledChars ((digits, unit) :: parts)) := by
    simp [spelledChars, Nat.add_assoc]
  rw [later] at more
  simp only [result] at signed more
  simp only [Spelling.chars, Spelling.isNegative]
  rw [List.append_assoc, spelledChars_cons, result?_read?, (Prod.mk.inj signed).1,
    (Prod.mk.inj signed).2, result?_readPart?_digits _ number, Option.map_some,
    (Prod.mk.inj more).1, (Prod.mk.inj more).2]
  rfl

-----------------------------------------------------------------------------------------
-- What is read is spelled
-----------------------------------------------------------------------------------------

/-- A number with a unit that was read is spelled by digits and the letter. -/
theorem spelled_of_readPart? {c next : Cursor} {part : Nat × PeriodUnit}
    (h : result? (readPart? c) = some (part, next))
    : ∃ digits, ∃ unit : PeriodUnit,
        IsNumber digits ∧ c.rest = digits ++ unit.letter :: next.rest := by
  rw [result?_readPart?] at h
  obtain ⟨⟨digits, behind⟩, hd, h⟩ := Option.bind_eq_some_iff.mp h
  obtain ⟨⟨unit, after⟩, hu, he⟩ := Option.map_eq_some_iff.mp h
  cases he
  obtain ⟨passage, all, some⟩ := Cursor.passage_of_run? hd
  rw [result?_readUnit?] at hu
  obtain ⟨offset, _ | ⟨letter, rest⟩⟩ := behind
  · cases hu
  · rw [Cursor.result?_any?_cons, Option.bind_some] at hu
    obtain ⟨found, hl, he⟩ := Option.map_eq_some_iff.mp hu
    cases he
    refine ⟨digits, unit, ⟨some, all⟩, ?_⟩
    rw [passage.rest_eq, ← PeriodUnit.eq_letter hl]

/-- Numbers with units that were read are spelled, by induction on what is left to read. -/
theorem spelled_readParts (c : Cursor)
    : ∃ parts,
        (∀ part ∈ parts, IsNumber part.1)
        ∧ c.rest = spelledChars parts ++ (readParts c).next.rest := by
  have more := congrArg Prod.snd (result_readParts c)
  simp only [result] at more
  rw [more]
  cases hp : result? (readPart? c) with
  | none => exact ⟨[], List.forall_mem_nil _, rfl⟩
  | some part =>
      have shorter := remaining_lt hp
      obtain ⟨digits, unit, number, text⟩ := spelled_of_readPart? hp
      obtain ⟨parts, numbers, behind⟩ := spelled_readParts part.2
      refine ⟨(digits, unit) :: parts, List.forall_mem_cons.mpr ⟨number, numbers⟩, ?_⟩
      rw [spelledChars_cons, text, behind]
termination_by c.remaining

theorem spelled_readSign (c : Cursor)
    : ∃ sign ∈ [none, some '+', some '-'],
        c.rest = Option.toList sign ++ (readSign c).next.rest := by
  obtain ⟨offset, _ | ⟨found, rest⟩⟩ := c
  · exact ⟨none, by decide, rfl⟩
  · have sign := congrArg Prod.snd (result_readSign_cons offset found rest)
    simp only [result] at sign
    rw [sign]
    split
    · rename_i signs
      rcases signs with rfl | rfl
      · exact ⟨some '-', by decide, rfl⟩
      · exact ⟨some '+', by decide, rfl⟩
    · exact ⟨none, by decide, rfl⟩

/-- A period that was read is spelled by the text up to where it ends. -/
theorem spelled_of_read? {c next : Cursor} {period : Period}
    (h : result? (read? c) = some (period, next))
    : ∃ s : Spelling, c.rest = s.chars ++ next.rest := by
  rw [result?_read?] at h
  obtain ⟨part, hp, he⟩ := Option.map_eq_some_iff.mp h
  cases he
  obtain ⟨sign, sign_mem, signed⟩ := spelled_readSign c
  obtain ⟨digits, unit, number, text⟩ := spelled_of_readPart? hp
  obtain ⟨parts, numbers, behind⟩ := spelled_readParts part.2
  refine ⟨⟨sign, (digits, unit) :: parts, sign_mem, List.cons_ne_nil _ _,
    List.forall_mem_cons.mpr ⟨number, numbers⟩⟩, ?_⟩
  rw [Spelling.chars, List.append_assoc, spelledChars_cons, signed, text, behind]

/-- What a period that was read is spelled with makes up the period. -/
theorem eq_ofSigned_of_read? {c next : Cursor} {period : Period}
    (h : result? (read? c) = some (period, next)) {s : Spelling}
    (text : c.rest = s.chars ++ next.rest)
    : period = ofSigned s.isNegative (readNumbers s.parts) := by
  obtain ⟨offset, rest⟩ := c
  simp only at text
  rw [text, result?_read?_spelled] at h
  obtain ⟨values, stays⟩ := Prod.mk.inj (Option.some.inj h)
  -- nothing is read behind the spelling, as the reading ends there
  have more := result_readParts ⟨offset + byteLength s.chars, next.rest⟩
  cases hp : result? (readPart? ⟨offset + byteLength s.chars, next.rest⟩) with
  | none =>
      rw [hp] at more
      rw [← values, (Prod.mk.inj more).1, List.append_nil]
  | some part =>
      have shorter := remaining_lt hp
      rw [hp] at more
      have behind := (readParts part.2).within
      rw [← (Prod.mk.inj more).2, stays] at behind
      simp only [Cursor.remaining] at shorter behind
      omega

end Period

end DueTasks
