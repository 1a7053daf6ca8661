import DueTasks.Proofs.Calendar.DateOrder
import DueTasks.Proofs.Calendar.PeriodSpelling
import DueTasks.Proofs.Text.Decimal

/-! Spelled periods move dates exactly.
The numbers of a period saturate when they are read, when weeks become days, when they are added up
and when the sign is applied. All of them have the same sign, so a sum that saturates stays at the
end of its range, and moving by it leads out of the range of dates just as the exact sum does.
-/

namespace DueTasks

open Text Parsed

namespace Period

-----------------------------------------------------------------------------------------
-- Numbers with units are added up
-----------------------------------------------------------------------------------------

/-- The sum of the numbers that carry a unit. -/
def unitTotal (unit : PeriodUnit) : List (Nat × PeriodUnit) → Nat
  | [] => 0
  | part :: parts => (if part.2 = unit then part.1 else 0) + unitTotal unit parts

theorem unitTotal_cons (unit : PeriodUnit) (part : Nat × PeriodUnit)
    (parts : List (Nat × PeriodUnit))
    : unitTotal unit (part :: parts)
      = (if part.2 = unit then part.1 else 0) + unitTotal unit parts := rfl

/-- The period whose parts are the given sums, each up to the greatest number that it can hold. -/
def capped (years months days : Nat) : Period :=
  ⟨min years greatestPart, min months greatestPart, min days greatestPart⟩

theorem capped_zero : capped 0 0 0 = zero := rfl

/-- Adding a number with its unit adds it to its sum, and seven days for a week. -/
theorem capped_add_ofUnit (years months days n : Nat) (unit : PeriodUnit)
    : capped years months days + ofUnit n unit
      = capped (years + if unit = .year then n else 0) (months + if unit = .month then n else 0)
          (days + (7 * if unit = .week then n else 0) + if unit = .day then n else 0) := by
  show add _ _ = _
  cases unit <;>
    simp [capped, ofUnit, weeks, add, saturate, leastPart, greatestPart] <;> omega

/-- The sum of numbers with units has the exact sums as far as it can hold them, by induction over
the numbers from the left.
-/
theorem ofUnits_eq (parts : List (Nat × PeriodUnit))
    : ofUnits parts
      = capped (unitTotal .year parts) (unitTotal .month parts)
          (7 * unitTotal .week parts + unitTotal .day parts) := by
  have go (years months days : Nat)
      : parts.foldl (fun sum part => sum + ofUnit part.1 part.2) (capped years months days)
        = capped (years + unitTotal .year parts) (months + unitTotal .month parts)
            (days + (7 * unitTotal .week parts + unitTotal .day parts)) := by
    induction parts generalizing years months days with
    | nil => rfl
    | cons part parts ih =>
        rw [List.foldl_cons, capped_add_ofUnit, ih]
        simp only [unitTotal_cons, Nat.add_assoc]
        congr 1
        omega
  have sum := go 0 0 0
  rw [capped_zero] at sum
  rw [ofUnits, sum]
  simp

/-- Numbers that are read up to a greatest one make up the same period as the exact numbers. -/
theorem ofUnits_readNumbers (parts : List (List Char × PeriodUnit))
    : ofUnits (readNumbers parts)
      = ofUnits (parts.map fun part => (digitsValue part.1, part.2)) := by
  have number (digits : List Char) (unit : PeriodUnit)
      : ofUnit (cappedValue greatestCount digits) unit = ofUnit (digitsValue digits) unit := by
    have same : min (cappedValue greatestCount digits : Int) greatestPart
        = min (digitsValue digits : Int) greatestPart := by
      rw [cappedValue_eq]
      simp only [greatestCount, greatestPart]
      omega
    unfold ofUnit
    rw [same]
  simp only [ofUnits, readNumbers, List.foldl_map, number]

-----------------------------------------------------------------------------------------
-- The exact amount of a spelled period
-----------------------------------------------------------------------------------------

namespace Spelling

/-- The exact sum of the numbers that carry a unit. -/
def total (s : Spelling) (unit : PeriodUnit) : Nat :=
  unitTotal unit (s.parts.map fun part => (digitsValue part.1, part.2))

/-- The direction that the sign gives. -/
def direction (s : Spelling) : Int :=
  if s.isNegative then -1 else 1

/-- The exact number of months that a spelled period moves by. -/
def months (s : Spelling) : Int :=
  s.direction * (12 * s.total .year + s.total .month)

/-- The exact number of days that a spelled period moves by, behind the months. -/
def days (s : Spelling) : Int :=
  s.direction * (7 * s.total .week + s.total .day)

end Spelling

/-- What stands for a number: the number itself, unless both are too large for a move that stays
within the range of dates, or both too small.
-/
def StandsFor (n exact : Int) : Prop :=
  n = exact
  ∨ (Date.greatestStep ≤ n ∧ Date.greatestStep ≤ exact)
  ∨ (n ≤ -Date.greatestStep ∧ exact ≤ -Date.greatestStep)

/-- The months and days of a period that was read stand for the exact ones, which have one sign. -/
theorem standsFor_ofSigned (s : Spelling)
    : let p := ofSigned s.isNegative (readNumbers s.parts)
      StandsFor p.totalMonths s.months ∧ StandsFor p.days s.days
      ∧ ((0 ≤ s.months ∧ 0 ≤ s.days) ∨ (s.months ≤ 0 ∧ s.days ≤ 0)) := by
  have sum : ofUnits (readNumbers s.parts)
      = capped (s.total .year) (s.total .month) (7 * s.total .week + s.total .day) := by
    rw [ofUnits_readNumbers, ofUnits_eq]
    rfl
  simp only [ofSigned, sum, Spelling.months, Spelling.days, Spelling.direction]
  cases s.isNegative with
  | false =>
      simp only [capped, totalMonths, StandsFor, greatestPart, Date.greatestStep, reduceIte,
        Bool.false_eq_true]
      omega
  | true =>
      show StandsFor (neg _).totalMonths _ ∧ StandsFor (neg _).days _ ∧ _
      simp only [capped, neg, saturate, leastPart, totalMonths, StandsFor, greatestPart,
        Date.greatestStep, reduceIte]
      omega

-----------------------------------------------------------------------------------------
-- Moving by the exact amount
-----------------------------------------------------------------------------------------

open Date

/-- A period whose months and days have one sign moves a date to the nearest date of the day that
lies as many months and days after: where the months lead out of the range, the days do not lead
back.
-/
theorem addTo_eq_nearest (p : Period) (d : Date)
    (sign : (0 ≤ p.totalMonths ∧ 0 ≤ p.days) ∨ (p.totalMonths ≤ 0 ∧ p.days ≤ 0))
    : p.addTo d = nearest ((d.toCivil.addMonths p.totalMonths).addDays p.days) := by
  have months := leads_addMonths d p.totalMonths
  have number := Civil.dayNumber_addDays (d.toCivil.addMonths p.totalMonths) p.days
  have range := d.dayNumber_mem
  unfold addTo
  rw [addMonths?_eq]
  cases hm : moved? p.totalMonths (d.toCivil.addMonths p.totalMonths) with
  | none =>
      rcases months.of_moved?_eq_none hm with ⟨forwards, above⟩ | ⟨backwards, below⟩
      · have := months.backwards
        rw [nearest_eq_last (by omega), saturated, if_pos forwards]
      · rw [nearest_eq_first (by omega), saturated, if_neg (Int.not_le.mpr backwards)]
  | some found =>
      rw [← Leads.of_moved?_eq_some hm]
      exact (leads_addDays found p.days).getD_moved?

/-- What stands for exact months and days of one sign leads to the same nearest date. -/
theorem nearest_of_standsFor (d : Date) {months exactMonths days exactDays : Int}
    (h : StandsFor months exactMonths) (h' : StandsFor days exactDays)
    (sign : (0 ≤ exactMonths ∧ 0 ≤ exactDays) ∨ (exactMonths ≤ 0 ∧ exactDays ≤ 0))
    : nearest ((d.toCivil.addMonths months).addDays days)
      = nearest ((d.toCivil.addMonths exactMonths).addDays exactDays) := by
  have range := d.dayNumber_mem
  have wide : last.dayNumber - first.dayNumber < greatestStep := by decide
  have step : (greatestStep : Int) = 2147483647 := rfl
  have number := Civil.dayNumber_addDays (d.toCivil.addMonths months) days
  have exactNumber := Civil.dayNumber_addDays (d.toCivil.addMonths exactMonths) exactDays
  rcases h with rfl | ⟨large, exactLarge⟩ | ⟨small, exactSmall⟩
  · have shifted := leads_addMonths d months
    have := shifted.forwards
    have := shifted.backwards
    rcases h' with rfl | ⟨large, exactLarge⟩ | ⟨small, exactSmall⟩
    · rfl
    · rw [nearest_eq_last (by omega), nearest_eq_last (by omega)]
    · rw [nearest_eq_first (by omega), nearest_eq_first (by omega)]
  · -- the months alone lead behind the last date, and the days lead on
    have := (leads_addMonths d months).above large
    have := (leads_addMonths d exactMonths).above exactLarge
    unfold StandsFor at h'
    rw [nearest_eq_last (by omega), nearest_eq_last (by omega)]
  · have := (leads_addMonths d months).below small
    have := (leads_addMonths d exactMonths).below exactSmall
    unfold StandsFor at h'
    rw [nearest_eq_first (by omega), nearest_eq_first (by omega)]

/-- A period that was read moves every date as its text says: by the exact sums of its years and
months, keeping the day of the month or taking the end of a shorter month, and then by the exact
sums of its weeks and days, in the calendar without bounds. Where that leads out of the range, the
end of the range stands for it. The text is spelled in one way or another, and all of this holds of
every spelling.
-/
theorem addTo_of_reading {c : Cursor} {found : Parsed Period c.remaining}
    (read : read? c = some found)
    : (∃ s : Spelling, c.rest = s.chars ++ found.next.rest)
      ∧ ∀ s : Spelling, c.rest = s.chars ++ found.next.rest →
          ∀ d : Date, ∃ shifted later : Civil,
            Civil.IsMonthsAfter s.months d.toCivil shifted
            ∧ Civil.IsDaysAfter s.days shifted later
            ∧ found.value.addTo d = nearest later := by
  have result : result? (read? c) = some (found.value, found.next) := by
    rw [read]
    rfl
  refine ⟨spelled_of_read? result, ?_⟩
  intro s text d
  obtain ⟨months, days, sign⟩ := standsFor_ofSigned s
  rw [← eq_ofSigned_of_read? result text] at months days
  have signs : (0 ≤ found.value.totalMonths ∧ 0 ≤ found.value.days)
      ∨ (found.value.totalMonths ≤ 0 ∧ found.value.days ≤ 0) := by
    simp only [StandsFor, greatestStep] at months days
    omega
  refine ⟨d.toCivil.addMonths s.months, (d.toCivil.addMonths s.months).addDays s.days,
    Civil.isMonthsAfter_addMonths _ _, Civil.isDaysAfter_addDays _ _, ?_⟩
  rw [addTo_eq_nearest found.value d signs, nearest_of_standsFor d months days sign]

/-- Eleven months in two parts and more weeks than can be counted lead before the first date. -/
theorem addTo_of_reading_backwards
    : let c := Cursor.start "-1M99999999999999999999W10M & now()".toList
      ∃ found : Parsed Period c.remaining,
        read? c = some found
        ∧ found.next.rest = " & now()".toList
        ∧ ∃ shifted later : Civil,
            Civil.IsMonthsAfter (-11) (Date.ofParts 2024 2 29).toCivil shifted
            ∧ Civil.IsDaysAfter (-699999999999999999993) shifted later
            ∧ found.value.addTo (.ofParts 2024 2 29) = nearest later := by
  intro c
  let spelling : Spelling := {
    sign := some '-'
    parts := [(['1'], .month), ("99999999999999999999".toList, .week), (['1', '0'], .month)]
    sign_mem := by decide
    nonempty := by decide
    numbers := by simp [IsNumber] }
  have result := result?_read?_spelled spelling 0 " & now()".toList
  have stop := result_readParts ⟨0 + byteLength spelling.chars, " & now()".toList⟩
  rw [readPart?_eq_none _ rfl] at stop
  simp only [Parsed.result] at stop result
  rw [(Prod.mk.inj stop).2] at result
  obtain ⟨found, read, -, next⟩ := result?_eq_some result
  have behind : found.next.rest = " & now()".toList := by rw [next]
  have text : c.rest = spelling.chars ++ found.next.rest := by
    rw [behind]
    rfl
  have months : spelling.months = -11 := by decide
  have days : spelling.days = -699999999999999999993 := by
    simp [spelling, Spelling.days, Spelling.direction, Spelling.total, Spelling.isNegative,
      unitTotal, digitsValue, digitValue]
  have moved := (addTo_of_reading read).2 spelling text (.ofParts 2024 2 29)
  rw [months, days] at moved
  exact ⟨found, read, behind, moved⟩

end Period

end DueTasks
