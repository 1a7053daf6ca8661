import DueTasks.Calendar.PeriodReader
import DueTasks.Proofs.Text.Border
import DueTasks.Proofs.Text.Passage

/-! Reading periods in two texts that agree up to a border.
A period that ends before the border is found in both texts, and so is its absence, unless the
second text goes on with a letter or a digit.
-/

namespace DueTasks

open Text

namespace Period

open Parsed

-----------------------------------------------------------------------------------------
-- Each reader has one equation
-----------------------------------------------------------------------------------------

/-- A unit is read from the letter that comes next. -/
theorem result?_readUnit? (c : Cursor)
    : result? (readUnit? c)
      = (result? c.any?).bind fun letter =>
          (PeriodUnit.ofLetter? letter.1).map fun unit => (unit, letter.2) := by
  simp only [readUnit?]
  cases c.any? with
  | none => rfl
  | some letter =>
      simp only [Option.bind_eq_bind, Option.bind_some, result?_some, result]
      cases PeriodUnit.ofLetter? letter.value <;> rfl

theorem result?_readPart? (c : Cursor)
    : result? (readPart? c)
      = (result? (c.run? Char.isDigit)).bind fun digits =>
          (result? (readUnit? digits.2)).map fun unit =>
            ((cappedValue greatestCount digits.1, unit.1), unit.2) := by
  simp only [readPart?]
  cases c.run? Char.isDigit with
  | none => rfl
  | some digits =>
      simp only [Option.bind_eq_bind, Option.bind_some, result?_some, result]
      cases readUnit? digits.next <;> rfl

theorem result_readParts (c : Cursor)
    : (readParts c).result
      = match result? (readPart? c) with
        | none => ([], c)
        | some part => (part.1 :: (readParts part.2).value, (readParts part.2).next) := by
  rw [readParts]
  cases readPart? c <;> rfl

/-- A sign is read if it comes next. -/
theorem result_readSign_cons (offset : Nat) (found : Char) (rest : List Char)
    : (readSign ⟨offset, found :: rest⟩).result
      = (found == '-',
          if found = '-' ∨ found = '+' then ⟨offset + found.utf8Size, rest⟩
          else ⟨offset, found :: rest⟩) := by
  simp only [readSign, Cursor.char?, Cursor.any?, Option.bind_eq_bind, Option.bind_some]
  by_cases minus : found = '-'
  · subst found
    rfl
  · by_cases plus : found = '+'
    · subst found
      rfl
    · simp [minus, plus, Cursor.give, result]

/-- The period that numbers with units make up behind a sign. -/
def ofSigned (negative : Bool) (parts : List (Nat × PeriodUnit)) : Period :=
  if negative then -ofUnits parts else ofUnits parts

theorem result?_read? (c : Cursor)
    : result? (read? c)
      = (result? (readPart? (readSign c).next)).map fun part =>
          (ofSigned (readSign c).value (part.1 :: (readParts part.2).value),
            (readParts part.2).next) := by
  simp only [read?]
  cases readPart? (readSign c).next <;> rfl

-----------------------------------------------------------------------------------------
-- Periods are made of few characters
-----------------------------------------------------------------------------------------

/-- Whether a period can hold a character. -/
def isPart (c : Char) : Bool :=
  c.isAlphanum || ['-', '+'].contains c

theorem isPart_of_isDigit {c : Char} (h : c.isDigit = true) : isPart c = true := by
  simp [isPart, Char.isAlphanum, h]

/-- A unit that was read is a letter. -/
theorem within_of_readUnit? {c next : Cursor} {unit : PeriodUnit}
    (h : result? (readUnit? c) = some (unit, next))
    : Within isPart c next := by
  rw [result?_readUnit?] at h
  obtain ⟨offset, _ | ⟨letter, rest⟩⟩ := c
  · cases h
  · rw [Cursor.result?_any?_cons, Option.bind_some] at h
    obtain ⟨found, hu, he⟩ := Option.map_eq_some_iff.mp h
    cases he
    refine ⟨[letter], .of_eq rfl (by simp), List.forall_mem_singleton.mpr ?_⟩
    simp only at hu
    unfold PeriodUnit.ofLetter? at hu
    split at hu <;> first | rfl | cases hu

theorem within_of_readPart? {c next : Cursor} {part : Nat × PeriodUnit}
    (h : result? (readPart? c) = some (part, next))
    : Within isPart c next := by
  rw [result?_readPart?] at h
  obtain ⟨digits, hd, behind⟩ := Option.bind_eq_some_iff.mp h
  obtain ⟨unit, hu, he⟩ := Option.map_eq_some_iff.mp behind
  cases he
  exact ((Cursor.within_of_run? hd).mono fun _ => isPart_of_isDigit).trans (within_of_readUnit? hu)

/-- Numbers with units are made of digits and letters, by induction on what is left to read. -/
theorem within_readParts (c : Cursor) : Within isPart c (readParts c).next := by
  have parts := congrArg Prod.snd (result_readParts c)
  simp only [result] at parts
  rw [parts]
  cases hp : result? (readPart? c) with
  | none => exact .refl c
  | some part =>
      have shorter := remaining_lt hp
      exact (within_of_readPart? hp).trans (within_readParts part.2)
termination_by c.remaining

theorem within_readSign (c : Cursor) : Within isPart c (readSign c).next := by
  obtain ⟨offset, _ | ⟨found, rest⟩⟩ := c
  · exact .refl _
  · have sign := congrArg Prod.snd (result_readSign_cons offset found rest)
    simp only [result] at sign
    rw [sign]
    split
    · rename_i signs
      refine ⟨[found], .of_eq rfl (by simp), List.forall_mem_singleton.mpr ?_⟩
      rcases signs with rfl | rfl <;> rfl
    · exact .refl _

theorem within_of_read? {c next : Cursor} {period : Period}
    (h : result? (read? c) = some (period, next))
    : Within isPart c next := by
  rw [result?_read?] at h
  obtain ⟨part, hp, he⟩ := Option.map_eq_some_iff.mp h
  cases he
  exact ((within_readSign c).trans (within_of_readPart? hp)).trans (within_readParts part.2)

-----------------------------------------------------------------------------------------
-- Where there is no period
-----------------------------------------------------------------------------------------

/-- There is no unit where neither a letter nor a digit comes next. -/
theorem readUnit?_eq_none (offset : Nat) {rest : List Char}
    (stop : stops Char.isAlphanum rest = true)
    : readUnit? ⟨offset, rest⟩ = none := by
  rw [← result?_eq_none, result?_readUnit?]
  rcases rest with _ | ⟨letter, rest⟩
  · rfl
  · have other : PeriodUnit.ofLetter? letter = none := by
      unfold PeriodUnit.ofLetter?
      split <;> first | rfl | cases stop
    rw [Cursor.result?_any?_cons, Option.bind_some, other]
    rfl

theorem readPart?_eq_none (offset : Nat) {rest : List Char} (stop : stops Char.isDigit rest = true)
    : readPart? ⟨offset, rest⟩ = none := by
  rw [← result?_eq_none, result?_readPart?, Cursor.result?_run?, Cursor.run_of_stops _ _ stop]
  rfl

theorem read?_sign_eq_none {sign : Char} (offset : Nat) {rest : List Char}
    (signs : sign = '-' ∨ sign = '+') (stop : stops Char.isDigit rest = true)
    : read? ⟨offset, sign :: rest⟩ = none := by
  have behind := congrArg Prod.snd (result_readSign_cons offset sign rest)
  rw [if_pos signs] at behind
  simp only [result] at behind
  rw [← result?_eq_none, result?_read?, behind, result?_readPart?, Cursor.result?_run?,
    Cursor.run_of_stops _ _ stop]
  rfl

/-- Whether a number of a period can go on with a character: a digit, or the letter of a unit. -/
def isCountPart (c : Char) : Bool :=
  c.isDigit || (PeriodUnit.ofLetter? c).isSome

/-- There is no period at a number without a unit. -/
theorem read?_plus_digits (offset : Nat) {digits rest : List Char}
    (all : ∀ c ∈ digits, c.isDigit = true) (stop : stops isCountPart rest = true)
    : read? ⟨offset, '+' :: (digits ++ rest)⟩ = none := by
  have behind := congrArg Prod.snd (result_readSign_cons offset '+' (digits ++ rest))
  rw [if_pos (.inr rfl)] at behind
  simp only [result] at behind
  have unitless (offset : Nat) : readUnit? ⟨offset, rest⟩ = none := by
    rw [← result?_eq_none, result?_readUnit?]
    obtain _ | ⟨letter, rest⟩ := rest
    · rfl
    · simp only [stops_cons, isCountPart, Bool.not_or, Bool.and_eq_true, Bool.not_eq_true',
        Option.isSome_eq_false_iff, Option.isNone_iff_eq_none] at stop
      rw [Cursor.result?_any?_cons, Option.bind_some, stop.2]
      rfl
  have digitless : stops Char.isDigit rest = true :=
    stops_mono (fun c digit => by simp [isCountPart, digit]) stop
  rw [← result?_eq_none, result?_read?, behind, result?_readPart?, Cursor.result?_run?,
    Cursor.run_append _ _ all digitless, Cursor.skip_append _ _ all digitless]
  split
  · rfl
  · rw [Option.bind_some, unitless]
    rfl

/-- There is no period where neither a digit nor a sign comes next. -/
theorem read?_eq_none (offset : Nat) {rest : List Char}
    (stop : stops (fun c => c.isDigit || c == '-' || c == '+') rest = true)
    : read? ⟨offset, rest⟩ = none := by
  obtain _ | ⟨found, rest⟩ := rest
  · rfl
  · simp only [stops_cons, Bool.not_eq_true', Bool.or_eq_false_iff, beq_eq_false_iff_ne] at stop
    obtain ⟨⟨digit, minus⟩, plus⟩ := stop
    have behind := congrArg Prod.snd (result_readSign_cons offset found rest)
    rw [if_neg (not_or.mpr ⟨minus, plus⟩)] at behind
    simp only [result] at behind
    rw [← result?_eq_none, result?_read?, behind, result?_readPart?, Cursor.result?_run?,
      Cursor.run_of_stops _ _ (by simpa using digit)]
    rfl

end Period

-----------------------------------------------------------------------------------------
-- Periods before a border are found in both texts
-----------------------------------------------------------------------------------------

namespace Text.Border

open Parsed Period

variable {b : Border} {c c' : Cursor}

theorem Beside.readUnit? (h : b.Beside c c') (stop : stops Char.isAlphanum b.tail' = true)
    : b.Tracks Eq (result? (Period.readUnit? c)) (result? (Period.readUnit? c')) := by
  obtain ⟨count, _ | ⟨letter, chars⟩⟩ := h
  · rw [List.nil_append, List.nil_append, readUnit?_eq_none _ stop]
    exact .of_border _ (Nat.le_refl _)
  · simp only [List.cons_append, result?_readUnit?, Cursor.result?_any?_cons, Option.bind_some,
      Nat.add_assoc]
    cases PeriodUnit.ofLetter? letter with
    | none => exact .absent
    | some unit => exact .found rfl (.intro _ chars)

/-- A number with its unit is found before the border in both texts or in none. -/
theorem Beside.readPart? (h : b.Beside c c') (stop : stops Char.isAlphanum b.tail' = true)
    : b.Tracks Eq (result? (Period.readPart? c)) (result? (Period.readPart? c')) := by
  have digit : stops Char.isDigit b.tail' = true :=
    stops_mono (fun c digit => by simp [Char.isAlphanum, digit]) stop
  obtain ⟨count, chars⟩ := h
  rcases Cursor.run_or_split Char.isDigit chars with all | ⟨run, letter, more, rfl, all, other⟩
  · -- with digits up to the border, the second text has no unit for them
    have right : result? (Period.readPart? ⟨b.base' + count, chars ++ b.tail'⟩) = none := by
      rw [result?_readPart?, Cursor.result?_run?, Cursor.skip_append _ _ all digit]
      split
      · rfl
      · rw [Option.bind_some, readUnit?_eq_none _ stop]
        rfl
    rw [right]
    cases hl : result? (Period.readPart? ⟨b.base + count, chars ++ b.tail⟩) with
    | none => exact .absent
    | some found =>
        refine .passed ?_
        rw [result?_readPart?, Cursor.result?_run?] at hl
        split at hl
        · cases hl
        · obtain ⟨unit, hu, rfl⟩ := Option.map_eq_some_iff.mp hl
          have before := remaining_lt hu
          simp only [Cursor.skip, List.dropWhile_append_of_pos all, Cursor.remaining_mk] at before
          exact Nat.lt_of_lt_of_le before (List.dropWhile_suffix _).length_le
  · have before (tail : List Char) : stops Char.isDigit (letter :: (more ++ tail)) = true := by
      simpa using other
    simp only [result?_readPart?, Cursor.result?_run?, List.append_assoc, List.cons_append,
      Cursor.run_append _ _ all (before _), Cursor.skip_append _ _ all (before _), Nat.add_assoc]
    split
    · exact .absent
    · have places : b.Beside _ _ := .intro (count + byteLength run) (letter :: more)
      exact (places.readUnit? stop).map fun _ _ h => congrArg _ h

/-- As many numbers with units are found before the border in both texts, by induction on what is
left to read.
-/
theorem Beside.readParts {c c' : Cursor} (h : b.Beside c c')
    (stop : stops Char.isAlphanum b.tail' = true)
    : b.Stays Eq (Period.readParts c).result (Period.readParts c').result := by
  have first := h.readPart? stop
  rw [result_readParts c, result_readParts c']
  cases hl : result? (Period.readPart? c) with
  | none =>
      rw [hl] at first
      generalize result? (Period.readPart? c') = right at first
      cases first with
      | absent => exact .inr ⟨rfl, h⟩
  | some part =>
      have shorter := remaining_lt hl
      rw [hl] at first
      generalize result? (Period.readPart? c') = right at first
      cases first with
      | passed h => exact .inl (Nat.lt_of_le_of_lt (Nat.le_of_lt_succ (Parsed.within _)) h)
      | found value places =>
          rcases Beside.readParts places stop with passed | ⟨values, places⟩
          · exact .inl passed
          · exact .inr ⟨List.cons_eq_cons.mpr ⟨value, values⟩, places⟩
termination_by c.remaining

/-- A sign is found before the border in both texts or in none, where the texts have not reached the
border.
-/
theorem Beside.readSign (h : b.Beside c c') (before : c.remaining ≠ b.tail.length)
    : (Period.readSign c).value = (Period.readSign c').value
      ∧ b.Beside (Period.readSign c).next (Period.readSign c').next := by
  obtain ⟨count, _ | ⟨found, chars⟩⟩ := h
  · exact absurd rfl before
  · have left := result_readSign_cons (b.base + count) found (chars ++ b.tail)
    have right := result_readSign_cons (b.base' + count) found (chars ++ b.tail')
    refine ⟨(congrArg Prod.fst left).trans (congrArg Prod.fst right).symm, ?_⟩
    have left := congrArg Prod.snd left
    have right := congrArg Prod.snd right
    simp only [result] at left right
    rw [List.cons_append, List.cons_append, left, right]
    split
    · rw [Nat.add_assoc, Nat.add_assoc]
      exact .intro _ chars
    · exact .intro count (found :: chars)

/-- A period is found before the border in both texts or in none, if the border itself does not make
a difference.
-/
theorem Beside.readPeriod? (h : b.Beside c c') (stop : stops Char.isAlphanum b.tail' = true)
    (at_border
      : ∀ offset offset', Period.read? ⟨offset, b.tail⟩ = none
        → Period.read? ⟨offset', b.tail'⟩ = none)
    : b.Keeps Eq (result? (Period.read? c)) (result? (Period.read? c')) := by
  by_cases reached : c.remaining = b.tail.length
  · obtain ⟨count, chars⟩ := h
    obtain rfl : chars = [] := by simpa using reached
    cases hl : Period.read? ⟨b.base + count, b.tail⟩ with
    | none =>
        simp only [List.nil_append, hl, at_border _ (b.base' + count) hl]
        exact .absent
    | some found =>
        simp only [List.nil_append, hl]
        exact .passed found.within
  · obtain ⟨signs, places⟩ := h.readSign reached
    have first := places.readPart? stop
    rw [result?_read?, result?_read?, signs]
    generalize result? (Period.readPart? (Period.readSign c).next) = left at first
    generalize result? (Period.readPart? (Period.readSign c').next) = right at first
    cases first with
    | absent => exact .absent
    | passed h => exact .passed (Nat.lt_of_le_of_lt (Nat.le_of_lt_succ (Parsed.within _)) h)
    | found value places =>
        rcases places.readParts stop with passed | ⟨values, places⟩
        · exact .passed passed
        · have parts := List.cons_eq_cons.mpr ⟨value, values⟩
          exact .found (congrArg (ofSigned _) parts) places

end Text.Border

end DueTasks
