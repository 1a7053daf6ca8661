import DueTasks.Helper.Output
import DueTasks.Proofs.Calendar.DateSpelling
import DueTasks.Proofs.Text.Lines

/-! The protocol that helpers keep.
What a helper left behind either gives a date or has a fault. Of several faults the first one in the
order in which they are looked for decides the error.
-/

namespace DueTasks

open Text

/-- What can be wrong with what a helper left behind. -/
inductive HelperFault where
  | exitStatus
  | errorOutput
  | noOutput
  | manyLines
  | notADate

/-- The place of a fault in the order in which faults are looked for. -/
def HelperFault.rank : HelperFault → Nat
  | exitStatus => 0
  | errorOutput => 1
  | noOutput => 2
  | manyLines => 3
  | notADate => 4

namespace HelperOutput

variable (output : HelperOutput)

-----------------------------------------------------------------------------------------
-- Dates and faults
-----------------------------------------------------------------------------------------

/-- A text is a line, which a line feed may end, with or without a carriage return before it. -/
def IsLine (line chars : List Char) : Prop :=
  '\n' ∉ line ∧ (chars = line ∨ chars = line ++ ['\n'] ∨ chars = line ++ ['\r', '\n'])

/-- A helper kept to the protocol and the one line that it printed spells a date, in which the
nearest month and the nearest day stand for those that do not exist.
-/
structure Gives (date : Date) : Prop where
  code : output.code = some 0
  err : output.err = ""
  printed
    : ∃ line,
        IsLine line output.out.toList
        ∧ ∃ year month day : Nat,
            Date.Spells (trim line) year month day ∧ date.toCivil = .clamped year month day

/-- What a helper left behind has a fault. -/
def Has : HelperFault → Prop
  | .exitStatus => output.code ≠ some 0
  | .errorOutput => output.err ≠ ""
  | .noOutput => allBlank (firstLine output.out.toList) = true
  | .manyLines => behindFirstLine output.out.toList ≠ []
  | .notADate =>
      ¬ ∃ year month day, Date.Spells (trim (firstLine output.out.toList)) year month day

/-- A fault is there and none that is looked for before it. -/
def FirstFault (fault : HelperFault) : Prop :=
  output.Has fault ∧ ∀ earlier, earlier.rank < fault.rank → ¬ output.Has earlier

/-- The error that a fault leads to. All but the last one quote the file name of the program's
path, and that one quotes the word by which the program was called.
-/
def faultError (program path : String) : HelperFault → HelperError
  | .exitStatus => .exitStatus (programName path) output.code
  | .errorOutput =>
      .errorOutput (programName path) (String.ofList (trimRight output.err.toList))
  | .noOutput => .noOutput (programName path)
  | .manyLines => .manyLines (programName path)
  | .notADate => .notADate program (String.ofList (headLine output.out.toList))

/-- The date that a helper gives, or the error of the one that gives none. -/
def verdict (program path : String) : Except HelperError Date :=
  match output.line path with
  | .error error => .error error
  | .ok line =>
      match Date.ofText? line with
      | some date => .ok date
      | none => .error (.notADate program line)

-----------------------------------------------------------------------------------------
-- Single lines
-----------------------------------------------------------------------------------------

/-- A line and the first line of its text are the same between white space. -/
theorem trim_of_isLine {line chars : List Char} (h : IsLine line chars)
    : behindFirstLine chars = [] ∧ trim (firstLine chars) = trim line := by
  obtain ⟨single, rfl | rfl | rfl⟩ := h
  · obtain ⟨first, behind⟩ := firstLine_of_not_mem single
    exact ⟨behind, by rw [first]⟩
  · obtain ⟨first, behind⟩ := firstLine_append single []
    exact ⟨behind, by rw [first]⟩
  · have returned : '\n' ∉ line ++ ['\r'] := by simp [single]
    obtain ⟨first, behind⟩ := firstLine_append returned []
    rw [List.append_assoc] at first behind
    refine ⟨behind, ?_⟩
    exact (congrArg trim first).trans (trim_append_blank isBlank_carriageReturn line)

/-- A text with nothing behind its first line is that line. -/
theorem isLine_firstLine {chars : List Char} (alone : behindFirstLine chars = [])
    : IsLine (firstLine chars) chars := by
  refine ⟨not_mem_firstLine chars, ?_⟩
  rcases single_or_split chars with single | ⟨line, rest, single, rfl⟩
  · exact .inl (firstLine_of_not_mem single).1.symm
  · obtain ⟨first, behind⟩ := firstLine_append single rest
    rw [behind] at alone
    rw [first, alone]
    exact .inr (.inl rfl)

/-- A text of white space spells no date. -/
theorem not_spells_of_allBlank {line : List Char} (blank : allBlank line = true)
    {year month day : Nat}
    : ¬ Date.Spells (trim line) year month day := by
  intro spells
  apply spells.ne_nil
  have dropped : (line ++ []).dropWhile isBlank = [] :=
    List.dropWhile_append_of_pos (List.all_eq_true.mp blank)
  rw [List.append_nil] at dropped
  rw [trim, dropped]
  rfl

-----------------------------------------------------------------------------------------
-- The verdict
-----------------------------------------------------------------------------------------

variable {output}

theorem gives_iff {date : Date}
    : output.Gives date
      ↔ output.code = some 0
        ∧ output.err = ""
        ∧ behindFirstLine output.out.toList = []
        ∧ Date.ofText? (String.ofList (firstLine output.out.toList)) = some date := by
  simp only [Date.ofText?_eq_some]
  constructor
  · rintro ⟨code, err, line, isLine, spelled⟩
    obtain ⟨alone, same⟩ := trim_of_isLine isLine
    exact ⟨code, err, alone, by rwa [same]⟩
  · rintro ⟨code, err, alone, spelled⟩
    exact ⟨code, err, _, isLine_firstLine alone, spelled⟩

/-- A helper without any fault gives a date. -/
theorem exists_gives (faultless : ∀ fault, ¬ output.Has fault) : ∃ date, output.Gives date := by
  have code := Decidable.not_not.mp (faultless .exitStatus)
  have err := Decidable.not_not.mp (faultless .errorOutput)
  have alone := Decidable.not_not.mp (faultless .manyLines)
  obtain ⟨year, month, day, spells⟩ := Classical.not_not.mp (faultless .notADate)
  refine ⟨.ofParts year month day, code, err, _, isLine_firstLine alone, year, month, day, spells,
    Date.toCivil_ofParts ?_ month day⟩
  have bound := spells.year_lt
  omega

/-- Of the faults there are one comes first, by induction on how many are looked for before it. -/
theorem exists_firstFault {fault : HelperFault} (has : output.Has fault)
    : ∃ first, output.FirstFault first := by
  induction rank : fault.rank using Nat.strongRecOn generalizing fault with
  | ind rank' ih =>
      by_cases earlier : ∃ earlier : HelperFault, earlier.rank < fault.rank ∧ output.Has earlier
      · obtain ⟨earlier, before, has⟩ := earlier
        exact ih earlier.rank (rank ▸ before) has rfl
      · exact ⟨fault, has, fun other before has => earlier ⟨other, before, has⟩⟩

theorem gives_or_firstFault (output : HelperOutput)
    : (∃ date, output.Gives date) ∨ ∃ fault, output.FirstFault fault := by
  by_cases faulty : ∃ fault, output.Has fault
  · obtain ⟨fault, has⟩ := faulty
    exact .inr (exists_firstFault has)
  · exact .inl (exists_gives (not_exists.mp faulty))

/-- A helper whose first line is blank printed nothing. -/
theorem line_of_blank (path : String) (code : output.code = some 0) (err : output.err = "")
    (blank : allBlank (firstLine output.out.toList) = true)
    : output.line path = .error (.noOutput (programName path)) := by
  simp only [line, code, err, ne_eq, not_true_eq_false, if_false]
  by_cases some : output.out.toList = []
  · rw [some]
    rfl
  · simp only [lines_eq some, allBlank_headLine, blank, if_true]

/-- The line of a helper whose first line is not blank. -/
theorem line_of_written (path : String) (code : output.code = some 0) (err : output.err = "")
    (written : allBlank (firstLine output.out.toList) = false)
    : output.line path
      = if behindFirstLine output.out.toList ≠ [] then .error (.manyLines (programName path))
        else .ok (String.ofList (headLine output.out.toList)) := by
  have some : output.out.toList ≠ [] := by
    intro none
    rw [none] at written
    cases written
  have more : lines (behindFirstLine output.out.toList) ≠ []
      ↔ behindFirstLine output.out.toList ≠ [] :=
    not_congr lines_eq_nil
  simp only [line, code, err, ne_eq, not_true_eq_false, if_false, lines_eq some,
    allBlank_headLine, written, Bool.false_eq_true, more]

/-- White space around a line makes no difference to the date that it holds. -/
theorem ofText?_headLine (chars : List Char)
    : Date.ofText? (String.ofList (headLine chars))
      = Date.ofText? (String.ofList (firstLine chars)) := by
  rw [Date.ofText?_eq, Date.ofText?_eq, trim_headLine]

/-- A helper that gives a date is understood to give that date. -/
theorem Gives.verdict {date : Date} (h : output.Gives date) (program path : String)
    : output.verdict program path = .ok date := by
  obtain ⟨code, err, alone, read⟩ := gives_iff.mp h
  have written : allBlank (firstLine output.out.toList) = false := by
    rw [Bool.eq_false_iff]
    intro blank
    obtain ⟨year, month, day, spells, _⟩ := Date.ofText?_eq_some.mp read
    exact not_spells_of_allBlank blank spells
  rw [HelperOutput.verdict, line_of_written path code err written,
    if_neg (not_not_intro alone)]
  simp only [ofText?_headLine, read]

/-- The first fault decides the error. -/
theorem FirstFault.verdict {fault : HelperFault} (h : output.FirstFault fault)
    (program path : String)
    : output.verdict program path = .error (output.faultError program path fault) := by
  obtain ⟨has, before⟩ := h
  rw [HelperOutput.verdict]
  cases fault with
  | exitStatus =>
      have failed : output.code ≠ some 0 := has
      simp only [line, if_pos failed, faultError]
  | errorOutput =>
      have code : output.code = some 0 := Decidable.not_not.mp (before .exitStatus (by decide))
      have complained : output.err ≠ "" := has
      simp only [line, if_neg (not_not_intro code), if_pos complained, faultError]
  | noOutput =>
      have code : output.code = some 0 := Decidable.not_not.mp (before .exitStatus (by decide))
      have err : output.err = "" := Decidable.not_not.mp (before .errorOutput (by decide))
      rw [line_of_blank path code err has]
      rfl
  | manyLines =>
      have code : output.code = some 0 := Decidable.not_not.mp (before .exitStatus (by decide))
      have err : output.err = "" := Decidable.not_not.mp (before .errorOutput (by decide))
      have more : behindFirstLine output.out.toList ≠ [] := has
      have written := Bool.eq_false_iff.mpr (before .noOutput (by decide))
      rw [line_of_written path code err written, if_pos more]
      rfl
  | notADate =>
      have code : output.code = some 0 := Decidable.not_not.mp (before .exitStatus (by decide))
      have err : output.err = "" := Decidable.not_not.mp (before .errorOutput (by decide))
      have alone : ¬ behindFirstLine output.out.toList ≠ [] := before .manyLines (by decide)
      have written := Bool.eq_false_iff.mpr (before .noOutput (by decide))
      have unread : Date.ofText? (String.ofList (firstLine output.out.toList)) = none := by
        rw [Option.eq_none_iff_forall_ne_some]
        intro date read
        obtain ⟨year, month, day, spells, _⟩ := Date.ofText?_eq_some.mp read
        exact has ⟨year, month, day, spells⟩
      rw [line_of_written path code err written, if_neg alone]
      simp only [ofText?_headLine, unread, faultError]

/-- A helper is understood to give a date exactly if it gives it. -/
theorem verdict_eq_ok {program path : String} {date : Date}
    : output.verdict program path = .ok date ↔ output.Gives date := by
  constructor
  · intro answered
    rcases output.gives_or_firstFault with ⟨given, gives⟩ | ⟨fault, first⟩
    · rw [gives.verdict] at answered
      cases answered
      exact gives
    · rw [first.verdict] at answered
      cases answered
  · intro gives
    exact gives.verdict program path

/-- A helper fails exactly with the error of its first fault. -/
theorem verdict_eq_error {program path : String} {error : HelperError}
    : output.verdict program path = .error error
      ↔ ∃ fault, output.FirstFault fault ∧ error = output.faultError program path fault := by
  constructor
  · intro answered
    rcases output.gives_or_firstFault with ⟨given, gives⟩ | ⟨fault, first⟩
    · rw [gives.verdict] at answered
      cases answered
    · rw [first.verdict] at answered
      cases answered
      exact ⟨fault, first, rfl⟩
  · rintro ⟨fault, first, rfl⟩
    exact first.verdict program path

end HelperOutput

end DueTasks
