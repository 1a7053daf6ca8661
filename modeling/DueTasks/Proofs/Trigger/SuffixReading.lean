import DueTasks.Proofs.Calendar.DateReading
import DueTasks.Proofs.Calendar.PeriodReading
import DueTasks.Proofs.Trigger.Reply
import DueTasks.Proofs.Trigger.Spans

/-! Reading annotations in two texts that agree up to a border.
Annotations that end before the border are found in both texts, unless the second text goes on with
a character that could belong to them.
-/

namespace DueTasks

open Text Parsed

namespace Trigger

-----------------------------------------------------------------------------------------
-- Each reader has one equation
-----------------------------------------------------------------------------------------

/-- Reads hours and minutes. -/
def readClock? (c : Cursor) : Option ((Nat × Nat) × Cursor) :=
  (result? (c.digits? 2)).bind fun hour =>
    (result? (hour.2.digitsAfter? ':' 2)).map fun minute => ((hour.1, minute.1), minute.2)

/-- Reads the time of day behind its mark. -/
def readTimeBehind (mark : Cursor) : Except Fault (Option ClockTime × Cursor) :=
  match readClock? mark with
  | none => .error ⟨mark.offset, .timeOfDay, true⟩
  | some found =>
      match ClockTime.ofParts? found.1.1 found.1.2 with
      | none => .error ⟨mark.offset, .validTimeOfDay, true⟩
      | some time => .ok (some time, found.2)

/-- A time of day is read behind its mark if a digit follows. -/
theorem result_readTime (c : Cursor)
    : (readTime c).result
      = match result? (c.char? 'T') with
        | none => .ok (none, c)
        | some mark =>
            if stops Char.isDigit mark.2.rest then .ok (none, c) else readTimeBehind mark.2 := by
  rw [readTime]
  cases c.char? 'T' with
  | none => rfl
  | some mark =>
      have head : (!mark.next.rest.head?.any Char.isDigit) = stops Char.isDigit mark.next.rest := by
        cases mark.next.rest <;> rfl
      simp only [head, result?_some, result]
      split
      · rfl
      · simp only [readTimeBehind, readClock?]
        cases mark.next.digits? 2 with
        | none => rfl
        | some hour =>
            simp only [Option.bind_eq_bind, Option.bind_some, result?_some, result]
            cases hour.next.digitsAfter? ':' 2 with
            | none => rfl
            | some minute =>
                simp only [Option.pure_def, Option.bind_some, result?_some, Option.map_some, result]
                show
                  Reply.result
                      (match ClockTime.ofParts? hour.value minute.value with
                      | none => _
                      | some time => _)
                    = _
                cases ClockTime.ofParts? hour.value minute.value <;> rfl

/-- An offset is read behind its mark if there is one. -/
theorem result_readEffective (c : Cursor)
    : (readEffective c).result
      = match (result? (c.char? 'E')).bind fun mark => result? (Period.read? mark.2) with
        | none => (none, c)
        | some period => (some period.1, period.2) := by
  rw [readEffective]
  cases c.char? 'E' with
  | none => rfl
  | some mark =>
      simp only [Option.bind_eq_bind, Option.bind_some, result?_some, result]
      cases Period.read? mark.next <;> rfl

/-- Reads the priority from its digits. -/
def priorityOf (mark : Cursor) (digits : List Char × Cursor)
    : Except Fault (Option UInt32 × Cursor) :=
  if digitsValue digits.1 < UInt32.size then
    .ok (some (UInt32.ofNat (digitsValue digits.1)), digits.2)
  else .error ⟨mark.offset, .priorityInRange, true⟩

/-- A priority is read behind its mark if digits follow. -/
theorem result_readPriority (c : Cursor)
    : (readPriority c).result
      = match result? (c.char? '#') with
        | none => .ok (none, c)
        | some mark =>
            match result? (mark.2.run? Char.isDigit) with
            | none => .ok (none, c)
            | some digits => priorityOf mark.2 digits := by
  rw [readPriority]
  cases c.char? '#' with
  | none => rfl
  | some mark =>
      simp only [result?_some, result]
      cases mark.next.run? Char.isDigit with
      | none => rfl
      | some digits =>
          simp only [result?_some, result, priorityOf]
          split <;> rfl

/-- An exclamation mark is read if it comes next. -/
theorem result_readForced (c : Cursor)
    : (readForced c).result
      = match result? (c.char? '!') with
        | none => (false, c)
        | some mark => (true, mark.2) := by
  rw [readForced]
  cases c.char? '!' <;> rfl

/-- A period that is missing is read as the empty period. -/
theorem result_readOptionalPeriod (c : Cursor)
    : (readOptionalPeriod c).result = (result? (Period.read? c)).getD (.zero, c) := by
  rw [readOptionalPeriod]
  cases Period.read? c <;> rfl

/-- Reads a repeat behind its mark. -/
def readRepeatBehind (mark : Cursor) : Option Repeat × Cursor :=
  let period := readOptionalPeriod (readForced mark).next
  (some ⟨(readForced mark).value, period.value⟩, period.next)

theorem result_readRepeat (c : Cursor)
    : (readRepeat c).result
      = match result? (c.char? 'P') with
        | none => (none, c)
        | some mark => readRepeatBehind mark.2 := by
  rw [readRepeat]
  cases c.char? 'P' <;> rfl

/-- Reads the annotations behind the time of day, for annotations that begin at `start`. -/
def readSuffixBehind (start : Cursor) (time : Option ClockTime) (c : Cursor)
    : Except Fault (Suffix × Cursor) :=
  (readPriority (readEffective c).next).result >>= fun priority =>
    .ok
      ({ time
         effective := (readEffective c).value
         priority := priority.1
         repetition := (readRepeat priority.2).value
         span := start.spanTo (readRepeat priority.2).next },
        (readRepeat priority.2).next)

theorem result_readSuffix (c : Cursor)
    : (readSuffix c).result
      = (readTime c).result >>= fun time => readSuffixBehind c time.1 time.2 := by
  rw [readSuffix]
  exact Reply.result_bind fun time => Reply.result_bind fun priority => rfl

/-- The characters with which annotations begin. -/
def suffixMarks : List Char :=
  ['T', 'E', '#', 'P']

/-- Where none of the marks comes next, there are no annotations. -/
theorem result_readSuffix_of_unmarked {c : Cursor}
    (unmarked : ∀ mark ∈ suffixMarks, c.rest.head? ≠ some mark)
    : (readSuffix c).result = .ok (⟨none, none, none, none, c.spanTo c⟩, c) := by
  have absent (mark : Char) (member : mark ∈ suffixMarks) : c.char? mark = none :=
    Cursor.char?_eq_none (unmarked mark member)
  have effective := result_readEffective c
  have repetition := result_readRepeat c
  rw [absent 'E' (by decide)] at effective
  rw [absent 'P' (by decide)] at repetition
  obtain ⟨noEffective, here⟩ : (readEffective c).value = none ∧ (readEffective c).next = c :=
    Prod.mk.inj effective
  obtain ⟨noRepeat, here'⟩ : (readRepeat c).value = none ∧ (readRepeat c).next = c :=
    Prod.mk.inj repetition
  rw [result_readSuffix, result_readTime, absent 'T' (by decide)]
  show readSuffixBehind c none c = _
  rw [readSuffixBehind, here, noEffective, result_readPriority, absent '#' (by decide)]
  show Except.ok _ = _
  simp only [noRepeat, here']

/-- Unless there are no annotations, the mark of one of them comes next. -/
theorem exists_mark_of_ne {c : Cursor}
    (some : (readSuffix c).result ≠ .ok (⟨none, none, none, none, c.spanTo c⟩, c))
    : ∃ mark ∈ suffixMarks, c.rest.head? = .some mark := by
  refine Classical.byContradiction fun unmarked => some ?_
  exact result_readSuffix_of_unmarked fun mark member head => unmarked ⟨mark, member, head⟩

/-- Annotations with a repeat begin with the mark of one of them. -/
theorem exists_mark {c d : Cursor} {suffix : Suffix}
    (annotated : (readSuffix c).result = .ok (suffix, d))
    (repeats : suffix.repetition.isSome = true)
    : ∃ mark ∈ suffixMarks, c.rest.head? = some mark := by
  refine exists_mark_of_ne fun empty => ?_
  cases annotated.symm.trans empty
  cases repeats

-----------------------------------------------------------------------------------------
-- Faults in annotations are final
-----------------------------------------------------------------------------------------

theorem final_readTimeBehind (mark : Cursor) : Reply.Final (readTimeBehind mark) := by
  intro fault h
  unfold readTimeBehind at h
  split at h
  · cases h
    rfl
  · split at h
    · cases h
      rfl
    · cases h

/-- A time of day lies behind its mark. -/
theorem readTimeBehind_remaining {mark later : Cursor} {time : Option ClockTime}
    (h : readTimeBehind mark = .ok (time, later))
    : later.remaining < mark.remaining := by
  unfold readTimeBehind at h
  split at h
  · cases h
  · rename_i found hf
    split at h
    · cases h
    · cases h
      obtain ⟨hour, hh, hm⟩ := Option.bind_eq_some_iff.mp hf
      obtain ⟨minute, later, rfl⟩ := Option.map_eq_some_iff.mp hm
      have := remaining_lt hh
      have := remaining_lt later
      simp only
      omega

theorem final_readTime (c : Cursor) : Reply.Final (readTime c).result := by
  intro fault h
  rw [result_readTime] at h
  split at h
  · cases h
  · split at h
    · cases h
    · exact final_readTimeBehind _ fault h

theorem final_priorityOf (mark : Cursor) (digits : List Char × Cursor)
    : Reply.Final (priorityOf mark digits) := by
  intro fault h
  unfold priorityOf at h
  split at h
  · cases h
  · cases h
    rfl

theorem priorityOf_next {mark later : Cursor} {digits : List Char × Cursor}
    {priority : Option UInt32}
    (h : priorityOf mark digits = .ok (priority, later))
    : later = digits.2 := by
  unfold priorityOf at h
  split at h
  · cases h
    rfl
  · cases h

theorem final_readPriority (c : Cursor) : Reply.Final (readPriority c).result := by
  intro fault h
  rw [result_readPriority] at h
  split at h
  · cases h
  · split at h
    · cases h
    · exact final_priorityOf _ _ fault h

theorem final_readSuffixBehind (start : Cursor) (time : Option ClockTime) (c : Cursor)
    : Reply.Final (readSuffixBehind start time c) :=
  (final_readPriority _).bind fun _ _ => Reply.final_ok _

/-- Annotations do not end before their offset does. -/
theorem readSuffixBehind_remaining {start c later : Cursor} {time : Option ClockTime}
    {suffix : Suffix} (h : readSuffixBehind start time c = .ok (suffix, later))
    : later.remaining ≤ (readEffective c).next.remaining := by
  unfold readSuffixBehind at h
  cases hp : (readPriority (readEffective c).next).result with
  | error fault =>
      rw [hp] at h
      cases h
  | ok priority =>
      rw [hp] at h
      cases h
      have := Reply.remaining_lt hp
      have := (readRepeat priority.2).within
      omega

theorem final_readSuffix (c : Cursor) : Reply.Final (readSuffix c).result := by
  rw [result_readSuffix]
  exact (final_readTime c).bind fun time _ => final_readSuffixBehind _ _ _

-----------------------------------------------------------------------------------------
-- Annotations are made of few characters
-----------------------------------------------------------------------------------------

/-- Whether a date or annotations can go on with a character. -/
def isSuffixPart (c : Char) : Bool :=
  c.isAlphanum || ['#', '!', '-', ':'].contains c

/-- Whether a date or annotations can hold a character. -/
def isUnitPart (c : Char) : Bool :=
  isSuffixPart c || c == '+'

theorem isUnitPart_of_isDigit {c : Char} (h : c.isDigit = true) : isUnitPart c = true := by
  simp [isUnitPart, isSuffixPart, Char.isAlphanum, h]

theorem isUnitPart_of_isPart {c : Char} (h : Period.isPart c = true) : isUnitPart c = true := by
  simp only [Period.isPart, Bool.or_eq_true, List.contains_eq_mem, decide_eq_true_eq,
    List.mem_cons, List.not_mem_nil, or_false] at h
  rcases h with h | rfl | rfl
  · simp [isUnitPart, isSuffixPart, h]
  · rfl
  · rfl

theorem isUnitPart_of_date {c : Char} (h : Date.isPart c = true) : isUnitPart c = true := by
  simp only [Date.isPart, Bool.or_eq_true, beq_iff_eq] at h
  rcases h with h | rfl
  · exact isUnitPart_of_isDigit h
  · rfl

/-- A time of day is made of what can stand in annotations. -/
theorem within_of_readTimeBehind {mark later : Cursor} {time : Option ClockTime}
    (h : readTimeBehind mark = .ok (time, later))
    : Within isUnitPart mark later := by
  unfold readTimeBehind at h
  split at h
  · cases h
  · rename_i found hf
    split at h
    · cases h
    · cases h
      obtain ⟨hour, hh, behind⟩ := Option.bind_eq_some_iff.mp hf
      obtain ⟨minute, hm, rfl⟩ := Option.map_eq_some_iff.mp behind
      exact ((Cursor.within_of_digits? hh).mono fun _ => isUnitPart_of_isDigit).trans
        (Cursor.within_of_digitsAfter? hm rfl fun _ => isUnitPart_of_isDigit)

/-- A time of day that may be missing is made of what can stand in annotations. -/
theorem within_of_readTime {c later : Cursor} {time : Option ClockTime}
    (h : (readTime c).result = .ok (time, later))
    : Within isUnitPart c later := by
  rw [result_readTime] at h
  split at h
  · cases h
    exact .refl c
  · rename_i mark hm
    split at h
    · cases h
      exact .refl c
    · exact (Cursor.within_of_char? hm rfl).trans (within_of_readTimeBehind h)

/-- An offset that may be missing is made of what can stand in annotations. -/
theorem within_readEffective (c : Cursor) : Within isUnitPart c (readEffective c).next := by
  have effective := congrArg Prod.snd (result_readEffective c)
  simp only [Parsed.result] at effective
  rw [effective]
  split
  · exact .refl c
  · rename_i period hp
    obtain ⟨mark, hm, hp⟩ := Option.bind_eq_some_iff.mp hp
    exact (Cursor.within_of_char? hm rfl).trans
      ((Period.within_of_read? hp).mono fun _ => isUnitPart_of_isPart)

/-- A priority that may be missing is made of what can stand in annotations. -/
theorem within_of_readPriority {c later : Cursor} {priority : Option UInt32}
    (h : (readPriority c).result = .ok (priority, later))
    : Within isUnitPart c later := by
  rw [result_readPriority] at h
  split at h
  · cases h
    exact .refl c
  · rename_i mark hm
    split at h
    · cases h
      exact .refl c
    · rename_i digits hd
      rw [priorityOf_next h]
      exact (Cursor.within_of_char? hm rfl).trans
        ((Cursor.within_of_run? hd).mono fun _ => isUnitPart_of_isDigit)

/-- A repeat behind its mark is made of what can stand in annotations. -/
theorem within_readRepeatBehind (mark : Cursor)
    : Within isUnitPart mark (readRepeatBehind mark).2 := by
  have forced : Within isUnitPart mark (readForced mark).next := by
    have forced := congrArg Prod.snd (result_readForced mark)
    simp only [Parsed.result] at forced
    rw [forced]
    split
    · exact .refl mark
    · rename_i found hf
      exact Cursor.within_of_char? hf rfl
  refine forced.trans ?_
  have period := congrArg Prod.snd (result_readOptionalPeriod (readForced mark).next)
  simp only [Parsed.result] at period
  rw [readRepeatBehind, period]
  cases hp : result? (Period.read? (readForced mark).next) with
  | none => exact .refl _
  | some period => exact (Period.within_of_read? hp).mono fun _ => isUnitPart_of_isPart

/-- A repeat that may be missing is made of what can stand in annotations. -/
theorem within_readRepeat (c : Cursor) : Within isUnitPart c (readRepeat c).next := by
  have repetition := congrArg Prod.snd (result_readRepeat c)
  simp only [Parsed.result] at repetition
  rw [repetition]
  split
  · exact .refl c
  · rename_i mark hm
    exact (Cursor.within_of_char? hm rfl).trans (within_readRepeatBehind mark.2)

theorem within_of_readSuffix {c later : Cursor} {suffix : Suffix}
    (h : (readSuffix c).result = .ok (suffix, later))
    : Within isUnitPart c later ∧ suffix.span = c.spanTo later := by
  rw [result_readSuffix] at h
  obtain ⟨time, ht, h⟩ := Reply.bind_eq_ok h
  obtain ⟨priority, hp, h⟩ := Reply.bind_eq_ok h
  cases h
  exact ⟨(((within_of_readTime ht).trans (within_readEffective _)).trans
    (within_of_readPriority hp)).trans (within_readRepeat _), rfl⟩

end Trigger

-----------------------------------------------------------------------------------------
-- Annotations before a border are found in both texts
-----------------------------------------------------------------------------------------

namespace Text.Border

open Trigger

variable {b : Border} {c c' : Cursor}

/-- The second text goes on with nothing that could belong to what ends at the border. A period may
begin there only if one begins there in the first text as well.
-/
structure Shut (b : Border) : Prop where
  stop : stops isSuffixPart b.tail' = true
  period
    : ∀ offset offset', Period.read? ⟨offset, b.tail⟩ = none
      → Period.read? ⟨offset', b.tail'⟩ = none

namespace Shut

variable (shut : b.Shut)

include shut

/-- Behind a shut border there is neither a letter nor a digit. -/
theorem stops_isAlphanum : stops Char.isAlphanum b.tail' = true :=
  stops_mono (fun c h => by simp [isSuffixPart, h]) shut.stop

theorem stops_isDigit : stops Char.isDigit b.tail' = true :=
  stops_mono (fun c h => by simp [Char.isAlphanum, h]) shut.stops_isAlphanum

/-- Behind a shut border there is no character that begins an annotation. -/
theorem head?_ne {expected : Char} (h : isSuffixPart expected = true)
    : b.tail'.head? ≠ some expected :=
  head?_ne_of_stops shut.stop h

/-- A character that can belong to annotations is found before a shut border in both texts or in
none.
-/
theorem char? (h : b.Beside c c') (expected : Char) (part : isSuffixPart expected = true)
    : b.Tracks Eq (result? (c.char? expected)) (result? (c'.char? expected)) :=
  h.char? (shut.head?_ne part)

end Shut

theorem Beside.spanTo {d d' : Cursor} (h : b.Beside c c') (h' : b.Beside d d')
    : c'.spanTo d' = (c.spanTo d).move b.base b.base' := by
  obtain ⟨count, chars⟩ := h
  obtain ⟨count', chars'⟩ := h'
  exact (Span.move_mk ..).symm

theorem Beside.readClock? (h : b.Beside c c') (shut : b.Shut)
    : b.Tracks Eq (Trigger.readClock? c) (Trigger.readClock? c') := by
  refine (h.digits? 2 shut.stops_isDigit).bind (fun before value later he => ?_)
    fun hour hour' d d' value places => ?_
  · obtain ⟨minute, hm, hl⟩ := Option.map_eq_some_iff.mp he
    cases hl
    exact Nat.le_of_lt (remaining_lt hm)
  · subst value
    exact (places.digitsAfter? 2 (shut.head?_ne rfl) shut.stops_isDigit).map
      fun _ _ h => congrArg (Prod.mk hour) h

/-- Readers of annotations follow each other up to the border. -/
abbrev Agrees (b : Border) {α β : Type} (same : α → β → Prop)
    : Except Fault (α × Cursor) → Except Fault (β × Cursor) → Prop :=
  Reply.Follows b.Passed b.Beside same

/-- A time of day behind its mark is found before the border in both texts or in none. -/
theorem Beside.readTimeBehind (h : b.Beside c c') (shut : b.Shut)
    : b.Agrees Eq (Trigger.readTimeBehind c) (Trigger.readTimeBehind c') := by
  have clock := h.readClock? shut
  cases hl : Trigger.readTimeBehind c with
  | error fault => exact .final (final_readTimeBehind c _ hl)
  | ok time =>
      simp only [Trigger.readTimeBehind] at hl ⊢
      generalize Trigger.readClock? c = left at clock hl
      generalize Trigger.readClock? c' = right at clock
      cases clock with
      | absent => cases hl
      | passed h =>
          simp only at hl
          split at hl
          · cases hl
          · cases hl
            exact .lost h
      | found value places =>
          subst value
          simp only at hl ⊢
          split at hl
          · cases hl
          · cases hl
            exact .found rfl places

/-- A time of day is found before the border in both texts or in none. -/
theorem Beside.readTime (h : b.Beside c c') (shut : b.Shut)
    : b.Agrees Eq (Trigger.readTime c).result (Trigger.readTime c').result := by
  have mark := shut.char? h 'T' rfl
  rw [result_readTime, result_readTime]
  generalize result? (c.char? 'T') = left at mark
  generalize result? (c'.char? 'T') = right at mark
  cases mark with
  | absent => exact .found rfl h
  | @passed _ next passed =>
      simp only
      split
      · exact .found rfl h
      · exact .of_lost (final_readTimeBehind _) fun _ _ he =>
          Nat.lt_trans (readTimeBehind_remaining he) passed
  | found value places =>
      have behind := places.readTimeBehind shut
      obtain ⟨count, _ | ⟨found, chars⟩⟩ := places
      · -- the mark is the last character before the border
        simp only [List.nil_append, shut.stops_isDigit, if_true]
        split
        · exact .found rfl h
        · exact .of_lost (final_readTimeBehind _) fun _ _ he => readTimeBehind_remaining he
      · have digit (tail : List Char)
            : stops Char.isDigit (found :: chars ++ tail) = !found.isDigit := rfl
        simp only [digit] at behind ⊢
        split
        · exact .found rfl h
        · exact behind

/-- An offset is found before the border in both texts or in none. -/
theorem Beside.readEffective (h : b.Beside c c') (shut : b.Shut)
    : b.Stays Eq (Trigger.readEffective c).result (Trigger.readEffective c').result := by
  have mark := shut.char? h 'E' rfl
  rw [result_readEffective, result_readEffective]
  generalize result? (c.char? 'E') = left at mark
  generalize result? (c'.char? 'E') = right at mark
  cases mark with
  | absent => exact .inr ⟨rfl, h⟩
  | @passed _ next passed =>
      simp only [Option.bind_some, Option.bind_none]
      cases he : result? (Period.read? next) with
      | none => exact .inr ⟨rfl, h⟩
      | some period => exact .inl (Nat.lt_trans (remaining_lt he) passed)
  | @found _ _ next next' value places =>
      have period := places.readPeriod? shut.stops_isAlphanum shut.period
      simp only [Option.bind_some]
      generalize result? (Period.read? next) = left at period
      generalize result? (Period.read? next') = right at period
      cases period with
      | absent => exact .inr ⟨rfl, h⟩
      | passed passed => exact .inl passed
      | found value places => exact .inr ⟨congrArg some value, places⟩

/-- A priority is found before the border in both texts or in none. -/
theorem Beside.readPriority (h : b.Beside c c') (shut : b.Shut)
    : b.Agrees Eq (Trigger.readPriority c).result (Trigger.readPriority c').result := by
  have mark := shut.char? h '#' rfl
  rw [result_readPriority, result_readPriority]
  generalize result? (c.char? '#') = left at mark
  generalize result? (c'.char? '#') = right at mark
  cases mark with
  | absent => exact .found rfl h
  | @passed _ next passed =>
      simp only
      cases he : result? (next.run? Char.isDigit) with
      | none => exact .found rfl h
      | some digits =>
          refine .of_lost (final_priorityOf _ _) fun _ _ hp => ?_
          rw [priorityOf_next hp]
          exact Nat.lt_trans (remaining_lt he) passed
  | @found _ _ next next' value places =>
      have digits := places.run? shut.stops_isDigit
      simp only
      generalize result? (next.run? Char.isDigit) = left at digits
      generalize result? (next'.run? Char.isDigit) = right at digits
      cases digits with
      | absent => exact .found rfl h
      | passed passed =>
          refine .of_lost (final_priorityOf _ _) fun _ _ hp => ?_
          rw [priorityOf_next hp]
          exact passed
      | found value places =>
          subst value
          unfold priorityOf
          simp only
          split
          · exact .found rfl places
          · exact .final rfl

theorem Beside.readForced (h : b.Beside c c') (shut : b.Shut)
    : b.Stays Eq (Trigger.readForced c).result (Trigger.readForced c').result := by
  have mark := shut.char? h '!' rfl
  rw [result_readForced, result_readForced]
  generalize result? (c.char? '!') = left at mark
  generalize result? (c'.char? '!') = right at mark
  cases mark with
  | absent => exact .inr ⟨rfl, h⟩
  | passed passed => exact .inl passed
  | found value places => exact .inr ⟨rfl, places⟩

/-- A period that may be missing is found before the border in both texts or in none. -/
theorem Beside.readOptionalPeriod (h : b.Beside c c') (shut : b.Shut)
    : b.Stays Eq (Trigger.readOptionalPeriod c).result (Trigger.readOptionalPeriod c').result := by
  have period := h.readPeriod? shut.stops_isAlphanum shut.period
  rw [result_readOptionalPeriod, result_readOptionalPeriod]
  generalize result? (Period.read? c) = left at period
  generalize result? (Period.read? c') = right at period
  cases period with
  | absent => exact .inr ⟨rfl, h⟩
  | passed passed => exact .inl passed
  | found value places => exact .inr ⟨value, places⟩

theorem Beside.readRepeatBehind (h : b.Beside c c') (shut : b.Shut)
    : b.Stays Eq (Trigger.readRepeatBehind c) (Trigger.readRepeatBehind c') := by
  rcases h.readForced shut with passed | ⟨forced, places⟩
  · exact .inl (Nat.lt_of_le_of_lt (Nat.le_of_lt_succ (Parsed.within _)) passed)
  · rcases places.readOptionalPeriod shut with passed | ⟨period, places⟩
    · exact .inl passed
    · refine .inr ⟨?_, places⟩
      simp only [result] at forced period
      simp only [Trigger.readRepeatBehind, forced, period]

/-- A repeat is found before the border in both texts or in none. -/
theorem Beside.readRepeat (h : b.Beside c c') (shut : b.Shut)
    : b.Stays Eq (Trigger.readRepeat c).result (Trigger.readRepeat c').result := by
  have mark := shut.char? h 'P' rfl
  rw [result_readRepeat, result_readRepeat]
  generalize result? (c.char? 'P') = left at mark
  generalize result? (c'.char? 'P') = right at mark
  cases mark with
  | absent => exact .inr ⟨rfl, h⟩
  | @passed _ next passed =>
      have := (Trigger.readForced next).within
      have := (Trigger.readOptionalPeriod (Trigger.readForced next).next).within
      refine .inl (Nat.lt_of_le_of_lt ?_ passed)
      simp only [Trigger.readRepeatBehind]
      omega
  | found value places => exact places.readRepeatBehind shut

/-- Annotations are found before the border in both texts or in none. -/
theorem Beside.readSuffix (h : b.Beside c c') (shut : b.Shut)
    : b.Agrees (fun suffix suffix' => suffix' = suffix.mapSpan (Span.move b.base b.base'))
        (Trigger.readSuffix c).result (Trigger.readSuffix c').result := by
  rw [result_readSuffix, result_readSuffix]
  refine (h.readTime shut).bind (fun time _ => final_readSuffixBehind _ _ _)
    (fun time suffix later lost he => ?_) ?_
  · have := readSuffixBehind_remaining he
    have := (Trigger.readEffective time.2).within
    exact Nat.lt_of_le_of_lt (by omega) lost
  · rintro time _ d d' - rfl places
    rcases places.readEffective shut with passed | ⟨effective, places⟩
    · exact .of_lost (final_readSuffixBehind _ _ _) fun suffix later he =>
        Nat.lt_of_le_of_lt (readSuffixBehind_remaining he) passed
    · refine (places.readPriority shut).bind (fun priority _ => Reply.final_ok _)
        (fun priority suffix later lost he => ?_) ?_
      · cases he
        exact Nat.lt_of_le_of_lt (Nat.le_of_lt_succ (Parsed.within _)) lost
      · rintro priority _ e e' - rfl places
        rcases places.readRepeat shut with passed | ⟨repetition, places⟩
        · exact .lost passed
        · have span := h.spanTo places
          simp only [result] at effective repetition span
          refine .found ?_ places
          simp only [effective, repetition, Suffix.mapSpan, span]

end Text.Border

end DueTasks
