import DueTasks.Proofs.Calendar.PeriodPrinting
import DueTasks.Proofs.Trigger.SuffixReading

/-! Annotations in text, and their reading.
Each annotation that there is stands behind its mark. They are read back in front of everything that
no annotation goes on with.
-/

namespace DueTasks

open Text Parsed

/-- A text behind its mark, if there is anything to write. -/
def marked {α : Type} (mark : Char) (text : α → List Char) : Option α → List Char
  | none => []
  | some value => mark :: text value

/-- The text of a repeat behind its mark. -/
def Repeat.chars (repetition : Repeat) : List Char :=
  (if repetition.forced then ['!'] else []) ++ repetition.period.chars

namespace Suffix

/-- The text of all annotations. -/
def chars (suffix : Suffix) : List Char :=
  marked 'T' ClockTime.minuteChars suffix.time
    ++ (marked 'E' Period.fullChars suffix.effective
      ++ (marked '#' (fun priority : UInt32 => decimal priority.toNat) suffix.priority
        ++ marked 'P' Repeat.chars suffix.repetition))

/-- The periods of the annotations can be written. -/
structure IsWritable (suffix : Suffix) : Prop where
  effective : ∀ period ∈ suffix.effective, period.IsWritable
  repetition : ∀ repetition ∈ suffix.repetition, repetition.period.IsWritable

end Suffix

-----------------------------------------------------------------------------------------
-- Where an annotation ends
-----------------------------------------------------------------------------------------

/-- Neither a digit nor a given character comes first. -/
def Clears (mark : Char) (rest : List Char) : Prop :=
  stops (fun c => c == mark || c.isDigit) rest = true

namespace Clears

variable {mark : Char} {rest : List Char}

/-- The character does not come first. -/
theorem head?_ne (h : Clears mark rest) : rest.head? ≠ some mark :=
  head?_ne_of_stops h (by simp)

theorem isDigit (h : Clears mark rest) : stops Char.isDigit rest = true :=
  stops_mono (fun c digit => by simp [digit]) h

/-- No digit and no other mark comes first when an annotation that may be missing is put before. -/
theorem marked {α : Type} (h : Clears mark rest) (other : Char) (text : α → List Char)
    (distinct : (other == mark || other.isDigit) = false) (value : Option α)
    : Clears mark (DueTasks.marked other text value ++ rest) := by
  cases value with
  | none => exact h
  | some value =>
      rw [Clears, DueTasks.marked, List.cons_append, stops_cons, distinct]
      rfl

theorem of_stops (h : stops Trigger.isSuffixPart rest = true)
    (part : Trigger.isSuffixPart mark = true)
    : Clears mark rest := by
  refine stops_mono (fun c member => ?_) h
  simp only [Bool.or_eq_true, beq_iff_eq] at member
  rcases member with rfl | digit
  · exact part
  · simp [Trigger.isSuffixPart, Char.isAlphanum, digit]

end Clears

namespace Trigger

/-- No annotation goes on with a text, and no period begins there. -/
structure EndsSuffix (rest : List Char) : Prop where
  stop : stops isSuffixPart rest = true
  period : ∀ offset, Period.read? ⟨offset, rest⟩ = none

-----------------------------------------------------------------------------------------
-- Annotations are read back
-----------------------------------------------------------------------------------------

/-- A time of day is read back. -/
theorem result_readTime_append (offset : Nat) (time : Option ClockTime) {rest : List Char}
    (clear : Clears 'T' rest)
    : (readTime ⟨offset, marked 'T' ClockTime.minuteChars time ++ rest⟩).result
      = .ok (time, ⟨offset + byteLength (marked 'T' ClockTime.minuteChars time), rest⟩) := by
  cases time with
  | none =>
      rw [marked, List.nil_append, result_readTime, Cursor.char?_eq_none clear.head?_ne]
      rfl
  | some time =>
      have hour : (time.hour : Nat) < 10 ^ 2 := by omega
      have minute : (time.minute : Nat) < 10 ^ 2 := by omega
      have text : marked 'T' ClockTime.minuteChars (some time) ++ rest
          = 'T' :: (paddedDecimal 2 time.hour
            ++ (':' :: paddedDecimal 2 time.minute ++ rest)) := by
        simp [marked, ClockTime.minuteChars]
      have clock : readClock? ⟨offset + 'T'.utf8Size,
            paddedDecimal 2 time.hour ++ (':' :: paddedDecimal 2 time.minute ++ rest)⟩
          = some (((time.hour : Nat), (time.minute : Nat)),
              ⟨offset + byteLength (marked 'T' ClockTime.minuteChars (some time)), rest⟩) := by
        rw [readClock?, Cursor.digits?_paddedDecimal _ _ hour (by decide), Option.bind_some,
          Cursor.digitsAfter?_paddedDecimal _ _ _ minute (by decide)]
        simp [marked, ClockTime.minuteChars, Nat.add_assoc]
      have valid : ClockTime.ofParts? time.hour time.minute = some time :=
        dif_pos ⟨time.hour.isLt, time.minute.isLt⟩
      rw [text, result_readTime, Cursor.char?_cons_self]
      simp only [stops_paddedDecimal hour (by decide), Bool.false_eq_true, if_false]
      rw [readTimeBehind, clock]
      simp only [valid]

theorem result_readEffective_append (offset : Nat) (effective : Option Period) {rest : List Char}
    (clear : Clears 'E' rest) (writable : ∀ period ∈ effective, period.IsWritable)
    : (readEffective ⟨offset, marked 'E' Period.fullChars effective ++ rest⟩).result
      = (effective, ⟨offset + byteLength (marked 'E' Period.fullChars effective), rest⟩) := by
  cases effective with
  | none =>
      rw [marked, List.nil_append, result_readEffective, Cursor.char?_eq_none clear.head?_ne]
      rfl
  | some period =>
      rw [marked, List.cons_append, result_readEffective, Cursor.char?_cons_self, Option.bind_some,
        Period.result?_read?_fullChars _ (writable period rfl) clear.isDigit, byteLength_cons,
        Nat.add_assoc]

/-- A priority is read back. -/
theorem result_readPriority_append (offset : Nat) (priority : Option UInt32) {rest : List Char}
    (clear : Clears '#' rest)
    : (readPriority ⟨offset,
          marked '#' (fun priority : UInt32 => decimal priority.toNat) priority ++ rest⟩).result
      = .ok (priority,
          ⟨offset
            + byteLength (marked '#' (fun priority : UInt32 => decimal priority.toNat) priority),
            rest⟩) := by
  cases priority with
  | none =>
      rw [marked, List.nil_append, result_readPriority, Cursor.char?_eq_none clear.head?_ne]
      rfl
  | some priority =>
      rw [marked, List.cons_append, result_readPriority, Cursor.char?_cons_self]
      simp only [Cursor.run?_decimal _ _ clear.isDigit]
      rw [priorityOf, digitsValue_decimal, if_pos priority.toNat_lt, UInt32.ofNat_toNat,
        byteLength_cons, Nat.add_assoc]

theorem result_readForced_append (offset : Nat) (forced : Bool) {rest : List Char}
    (unforced : rest.head? ≠ some '!')
    : (readForced ⟨offset, (if forced then ['!'] else []) ++ rest⟩).result
      = (forced, ⟨offset + byteLength (if forced then ['!'] else []), rest⟩) := by
  cases forced with
  | true => exact result_readForced _
  | false =>
      rw [if_neg Bool.false_ne_true, List.nil_append, result_readForced,
        Cursor.char?_eq_none unforced]
      rfl

/-- A period that may be missing is read back. -/
theorem result_readOptionalPeriod_append (offset : Nat) {period : Period} {rest : List Char}
    (writable : period.IsWritable) (ends : EndsSuffix rest)
    : (readOptionalPeriod ⟨offset, period.chars ++ rest⟩).result
      = (period, ⟨offset + byteLength period.chars, rest⟩) := by
  have digit : stops Char.isDigit rest = true :=
    Clears.isDigit (.of_stops ends.stop (rfl : isSuffixPart 'P' = true))
  rw [result_readOptionalPeriod]
  cases zero : period.isZero with
  | false =>
      rw [Period.result?_read?_chars offset writable zero digit]
      rfl
  | true =>
      have empty : period = .zero := by simpa [Period.isZero] using zero
      have none := ends.period offset
      rw [empty, show Period.zero.chars = [] from rfl, List.nil_append, none]
      rfl

/-- A repeat is read back. -/
theorem result_readRepeat_append (offset : Nat) (repetition : Option Repeat) {rest : List Char}
    (ends : EndsSuffix rest)
    (writable : ∀ found ∈ repetition, found.period.IsWritable)
    : (readRepeat ⟨offset, marked 'P' Repeat.chars repetition ++ rest⟩).result
      = (repetition, ⟨offset + byteLength (marked 'P' Repeat.chars repetition), rest⟩) := by
  cases repetition with
  | none =>
      have clear : Clears 'P' rest := .of_stops ends.stop rfl
      rw [marked, List.nil_append, result_readRepeat, Cursor.char?_eq_none clear.head?_ne]
      rfl
  | some repetition =>
      have text : marked 'P' Repeat.chars (some repetition) ++ rest
          = 'P' :: ((if repetition.forced then ['!'] else [])
            ++ (repetition.period.chars ++ rest)) := by
        simp [marked, Repeat.chars]
      -- an exclamation mark that follows would make the repeat a forced one
      have unforced : (repetition.period.chars ++ rest).head? ≠ some '!' := by
        cases hp : repetition.period.chars with
        | nil =>
            have clear : Clears '!' rest := .of_stops ends.stop rfl
            exact clear.head?_ne
        | cons c more =>
            rintro ⟨rfl⟩
            have part := Period.isPart_of_mem_chars (writable repetition rfl) '!' (by simp [hp])
            cases part
      have forced := result_readForced_append (offset + 'P'.utf8Size) repetition.forced unforced
      have period := result_readOptionalPeriod_append
        (offset + 'P'.utf8Size + byteLength (if repetition.forced then ['!'] else []))
        (writable repetition rfl) ends
      simp only [result] at forced period
      rw [text, result_readRepeat, Cursor.char?_cons_self]
      simp only [readRepeatBehind]
      rw [(Prod.mk.inj forced).1, (Prod.mk.inj forced).2, (Prod.mk.inj period).1,
        (Prod.mk.inj period).2]
      simp [marked, Repeat.chars, Nat.add_assoc]

/-- Annotations are read back, in front of everything that no annotation goes on with. -/
theorem result_readSuffix_append (offset : Nat) {suffix : Suffix} (writable : suffix.IsWritable)
    {rest : List Char} (ends : EndsSuffix rest)
    : (readSuffix ⟨offset, suffix.chars ++ rest⟩).result
      = .ok ({ suffix with span := ⟨offset, offset + byteLength suffix.chars⟩ },
          ⟨offset + byteLength suffix.chars, rest⟩) := by
  let repetition := marked 'P' Repeat.chars suffix.repetition
  let priority := marked '#' (fun priority : UInt32 => decimal priority.toNat) suffix.priority
  let effective := marked 'E' Period.fullChars suffix.effective
  let time := marked 'T' ClockTime.minuteChars suffix.time
  -- each annotation is followed by marks other than its own, and by no digit
  have clear {mark : Char} (h : isSuffixPart mark = true) : Clears mark rest :=
    .of_stops ends.stop h
  have behindPriority : Clears '#' (repetition ++ rest) := (clear rfl).marked 'P' _ rfl _
  have behindEffective : Clears 'E' (priority ++ (repetition ++ rest)) :=
    ((clear rfl).marked 'P' _ rfl _).marked '#' _ rfl _
  have behindTime : Clears 'T' (effective ++ (priority ++ (repetition ++ rest))) :=
    (((clear rfl).marked 'P' _ rfl _).marked '#' _ rfl _).marked 'E' _ rfl _
  have text : suffix.chars ++ rest = time ++ (effective ++ (priority ++ (repetition ++ rest))) := by
    simp [Suffix.chars, time, effective, priority, repetition]
  have readsEffective
      : (readEffective ⟨offset + byteLength time,
            effective ++ (priority ++ (repetition ++ rest))⟩).result
        = (suffix.effective, ⟨offset + byteLength time + byteLength effective,
            priority ++ (repetition ++ rest)⟩) :=
    result_readEffective_append _ suffix.effective behindEffective writable.effective
  have readsRepeat
      : (readRepeat ⟨offset + byteLength time + byteLength effective + byteLength priority,
            repetition ++ rest⟩).result
        = (suffix.repetition, ⟨offset + byteLength time + byteLength effective
            + byteLength priority + byteLength repetition, rest⟩) :=
    result_readRepeat_append _ suffix.repetition ends writable.repetition
  simp only [result] at readsEffective readsRepeat
  rw [text, result_readSuffix, result_readTime_append _ _ behindTime, Reply.ok_bind,
    readSuffixBehind, (Prod.mk.inj readsEffective).1, (Prod.mk.inj readsEffective).2,
    result_readPriority_append _ _ behindPriority, Reply.ok_bind]
  simp only
  rw [(Prod.mk.inj readsRepeat).1, (Prod.mk.inj readsRepeat).2]
  simp [Suffix.chars, Cursor.spanTo, time, effective, priority, repetition, Nat.add_assoc]

end Trigger

end DueTasks
