import DueTasks.Calendar.Period
import DueTasks.Proofs.Calendar.DayCount
import Mathlib.Order.MinMax

/-! Dates in order, and moving them.
Dates are ordered as their days are. A move that leaves the range ends at the date nearest to the
day that it leads to, and moving keeps the order of dates: whatever stands for a day outside of the
range lies on the same side of all dates.
-/

namespace DueTasks

namespace Date

-----------------------------------------------------------------------------------------
-- The order of dates is that of their days
-----------------------------------------------------------------------------------------

theorem lt_iff {a b : Date} : a < b ↔ a.dayNumber < b.dayNumber :=
  Civil.before_iff

theorem le_iff {a b : Date} : a ≤ b ↔ a.dayNumber ≤ b.dayNumber := by
  have not_before : a ≤ b ↔ ¬ b < a := (Bool.not_eq_true _).to_iff.symm
  rw [not_before, lt_iff, Int.not_lt]

theorem eq_of_dayNumber {a b : Date} (h : a.dayNumber = b.dayNumber) : a = b := by
  obtain ⟨a, _⟩ := a
  obtain ⟨b, _⟩ := b
  obtain rfl : a = b := Civil.eq_of_dayNumber h
  rfl

instance : LinearOrder Date where
  le_refl a := le_iff.mpr (Int.le_refl _)
  le_trans a b c h h' := le_iff.mpr (Int.le_trans (le_iff.mp h) (le_iff.mp h'))
  lt_iff_le_not_ge a b := by
    rw [lt_iff, le_iff, le_iff]
    omega
  le_antisymm a b h h' := eq_of_dayNumber (Int.le_antisymm (le_iff.mp h) (le_iff.mp h'))
  le_total a b := by
    rw [le_iff, le_iff]
    omega
  toDecidableLE := inferInstance

-----------------------------------------------------------------------------------------
-- The range of dates
-----------------------------------------------------------------------------------------

theorem dayNumber_first : first.dayNumber = -95745764 := by decide

theorem dayNumber_last : last.dayNumber = 95745764 := by decide

/-- The range begins with the first day of its first year and ends with the last day of its last
year.
-/
theorem daysBeforeYear_ends
    : Civil.daysBeforeYear (-262143) = first.dayNumber
      ∧ Civil.daysBeforeYear 262143 = last.dayNumber + 1 := by
  decide

/-- A year is before the range exactly if its days are. -/
theorem year_lt_iff {c : Civil} : c.year < -262143 ↔ c.dayNumber < first.dayNumber := by
  rw [← Int.not_le, Civil.le_year_iff, daysBeforeYear_ends.1, Int.not_le]

/-- A year is after the range exactly if its days are. -/
theorem lt_year_iff {c : Civil} : 262142 < c.year ↔ last.dayNumber < c.dayNumber := by
  rw [← Int.add_one_le_iff, Civil.le_year_iff, ← Int.add_one_le_iff, ← daysBeforeYear_ends.2]
  rfl

theorem dayNumber_mem (d : Date)
    : first.dayNumber ≤ d.dayNumber ∧ d.dayNumber ≤ last.dayNumber :=
  ⟨Int.not_lt.mp (mt year_lt_iff.mpr (Int.not_lt.mpr d.year_mem.1)),
    Int.not_lt.mp (mt lt_year_iff.mpr (Int.not_lt.mpr d.year_mem.2))⟩

theorem first_le (d : Date) : first ≤ d :=
  le_iff.mpr d.dayNumber_mem.1

theorem le_last (d : Date) : d ≤ last :=
  le_iff.mpr d.dayNumber_mem.2

/-- The date that stands for a day of the calendar: the day itself within the range, and otherwise
the end of the range that is nearer to it.
-/
def nearest (c : Civil) : Date :=
  if below : c.year < -262143 then first
  else if above : 262142 < c.year then last
  else ⟨c, Int.not_lt.mp below, Int.not_lt.mp above⟩

/-- All days before the range have the same nearest date. -/
theorem nearest_eq_first {c : Civil} (below : c.dayNumber < first.dayNumber)
    : nearest c = first := by
  rw [nearest, dif_pos (year_lt_iff.mpr below)]

/-- All days after the range have the same nearest date. -/
theorem nearest_eq_last {c : Civil} (above : last.dayNumber < c.dayNumber) : nearest c = last := by
  have not_below : ¬ c.year < -262143 := by
    have := lt_year_iff.mpr above
    omega
  rw [nearest, dif_neg not_below, dif_pos (lt_year_iff.mpr above)]

@[simp] theorem nearest_toCivil (d : Date) : nearest d.toCivil = d := by
  rw [nearest, dif_neg (Int.not_lt.mpr d.year_mem.1), dif_neg (Int.not_lt.mpr d.year_mem.2)]

-----------------------------------------------------------------------------------------
-- Where a move leads
-----------------------------------------------------------------------------------------

/-- The date that a move by a number of months or days ends at, if it can be made. -/
def moved? (count : Int) (c : Civil) : Option Date :=
  if count.natAbs ≤ greatestStep then ofCivil? c else none

theorem addMonths?_eq (d : Date) (count : Int)
    : d.addMonths? count = moved? count (d.toCivil.addMonths count) := rfl

theorem addDays?_eq (d : Date) (count : Int)
    : d.addDays? count = moved? count (d.toCivil.addDays count) := rfl

/-- A day that a date is moved to by a number of months or days: the day lies in the direction of
the move, and a move by the greatest number leads out of the range.
-/
structure Leads (d : Date) (count : Int) (c : Civil) : Prop where
  forwards : 0 ≤ count → d.dayNumber ≤ c.dayNumber
  backwards : count ≤ 0 → c.dayNumber ≤ d.dayNumber
  above : greatestStep ≤ count → last.dayNumber < c.dayNumber
  below : count ≤ -greatestStep → c.dayNumber < first.dayNumber

theorem leads_addDays (d : Date) (count : Int) : Leads d count (d.toCivil.addDays count) := by
  have range := d.dayNumber_mem
  have number := Civil.dayNumber_addDays d.toCivil count
  rw [dayNumber_first, dayNumber_last] at range
  constructor
  · omega
  · omega
  · rw [dayNumber_last, greatestStep]
    omega
  · rw [dayNumber_first, greatestStep]
    omega

theorem leads_addMonths (d : Date) (count : Int) : Leads d count (d.toCivil.addMonths count) := by
  have years := d.year_mem
  have months := d.month_mem
  have months' := (d.toCivil.addMonths count).month_mem
  obtain ⟨number, -⟩ := Civil.isMonthsAfter_addMonths d.toCivil count
  simp only [Civil.monthNumber] at number
  refine ⟨d.dayNumber_le_addMonths, d.dayNumber_addMonths_le, fun far => ?_, fun far => ?_⟩
  · refine lt_year_iff.mp ?_
    simp only [greatestStep] at far
    omega
  · refine year_lt_iff.mp ?_
    simp only [greatestStep] at far
    omega

namespace Leads

variable {d d' : Date} {count : Int} {c c' : Civil}

/-- A move that cannot be made would leave the range at the end in its direction. -/
theorem of_moved?_eq_none (h : Leads d count c) (none : moved? count c = none)
    : (0 ≤ count ∧ last.dayNumber < c.dayNumber)
      ∨ (count < 0 ∧ c.dayNumber < first.dayNumber) := by
  have range := d.dayNumber_mem
  have outside : c.dayNumber < first.dayNumber ∨ last.dayNumber < c.dayNumber := by
    unfold moved? at none
    split at none
    · rw [ofCivil?, dite_eq_right_iff] at none
      refine Decidable.or_iff_not_imp_left.mpr fun begun => lt_year_iff.mp ?_
      refine Int.not_le.mp fun last => ?_
      exact nomatch none ⟨Int.not_lt.mp (mt year_lt_iff.mp begun), last⟩
    · have := h.above
      have := h.below
      omega
  have := h.forwards
  have := h.backwards
  omega

/-- A move that can be made ends at the day itself. -/
theorem of_moved?_eq_some {found : Date} (some : moved? count c = some found)
    : found.toCivil = c := by
  unfold moved? at some
  split at some
  · rw [ofCivil?] at some
    split at some
    · cases some
      rfl
    · cases some
  · cases some

/-- A move ends at the nearest date, if the end of the range stands for what lies behind it. -/
theorem getD_moved? (h : Leads d count c)
    : (moved? count c).getD (saturated count) = nearest c := by
  cases hm : moved? count c with
  | some found => rw [← of_moved?_eq_some hm, nearest_toCivil, Option.getD_some]
  | none =>
      rcases h.of_moved?_eq_none hm with ⟨forwards, above⟩ | ⟨backwards, below⟩
      · rw [nearest_eq_last above, Option.getD_none, saturated, if_pos forwards]
      · rw [nearest_eq_first below, Option.getD_none, saturated, if_neg (Int.not_le.mpr backwards)]

end Leads

/-- How the dates are ordered that one move makes of two dates in order. -/
inductive Ordered (count : Int) : Option Date → Option Date → Prop where
  | both {e e' : Date} (le : e ≤ e') : Ordered count (some e) (some e')
  | neither : Ordered count none none
  | left (e : Date) (forwards : 0 ≤ count) : Ordered count (some e) none
  | right (e' : Date) (backwards : count < 0) : Ordered count none (some e')

/-- A move keeps the order of dates if it keeps that of days. -/
theorem Leads.ordered {d d' : Date} {count : Int} {c c' : Civil} (h : Leads d count c)
    (h' : Leads d' count c') (le : c.dayNumber ≤ c'.dayNumber)
    : Ordered count (moved? count c) (moved? count c') := by
  cases hm : moved? count c with
  | some e =>
      cases hm' : moved? count c' with
      | some e' =>
          rw [← of_moved?_eq_some hm, ← of_moved?_eq_some hm'] at le
          exact .both (le_iff.mpr le)
      | none =>
          rcases h'.of_moved?_eq_none hm' with ⟨forwards, -⟩ | ⟨-, below⟩
          · exact .left e forwards
          · have := e.dayNumber_mem.1
            rw [of_moved?_eq_some hm] at this
            omega
  | none =>
      cases hm' : moved? count c' with
      | none => exact .neither
      | some e' =>
          rcases h.of_moved?_eq_none hm with ⟨-, above⟩ | ⟨backwards, -⟩
          · have := e'.dayNumber_mem.2
            rw [of_moved?_eq_some hm'] at this
            omega
          · exact .right e' backwards

end Date

-----------------------------------------------------------------------------------------
-- Adding periods
-----------------------------------------------------------------------------------------

namespace Period

open Date

/-- Adding a period keeps the order of dates, whatever the signs of its parts. -/
theorem addTo_mono (p : Period) {d d' : Date} (le : d ≤ d') : p.addTo d ≤ p.addTo d' := by
  have months := (leads_addMonths d p.totalMonths).ordered (leads_addMonths d' p.totalMonths)
    (Civil.dayNumber_addMonths_mono (le_iff.mp le) p.totalMonths)
  rw [← addMonths?_eq, ← addMonths?_eq] at months
  unfold addTo
  generalize d.addMonths? p.totalMonths = moved at months
  generalize d'.addMonths? p.totalMonths = moved' at months
  cases months with
  | neither => exact le_refl _
  | left e forwards =>
      rw [saturated, if_pos forwards]
      exact le_last _
  | right e' backwards =>
      rw [saturated, if_neg (Int.not_le.mpr backwards)]
      exact first_le _
  | @both e e' le =>
      have days := (leads_addDays e p.days).ordered (leads_addDays e' p.days) (by
        simpa using le_iff.mp le)
      rw [← addDays?_eq, ← addDays?_eq] at days
      simp only
      generalize e.addDays? p.days = moved at days
      generalize e'.addDays? p.days = moved' at days
      cases days with
      | both le => exact le
      | neither => exact le_refl _
      | left _ forwards =>
          rw [Option.getD_none, saturated, if_pos forwards]
          exact le_last _
      | right _ backwards =>
          rw [Option.getD_none, saturated, if_neg (Int.not_le.mpr backwards)]
          exact first_le _

end Period

end DueTasks
