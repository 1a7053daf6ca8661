import DueTasks.Proofs.Text.Trimming
import DueTasks.Text.Lines

/-! Lines and line feeds.
The first line of a text is what stands before its first line feed, and the other lines are those of
what stands behind it. A carriage return that goes with a line feed is white space, so that it makes
no difference where white space around a line counts for nothing.
-/

namespace DueTasks.Text

-----------------------------------------------------------------------------------------
-- The first line
-----------------------------------------------------------------------------------------

/-- What stands before the first line feed. -/
def firstLine (chars : List Char) : List Char :=
  chars.takeWhile (· != '\n')

/-- What stands behind the first line feed. -/
def behindFirstLine (chars : List Char) : List Char :=
  (chars.dropWhile (· != '\n')).tail

theorem not_mem_firstLine (chars : List Char) : '\n' ∉ firstLine chars := by
  intro member
  have other := List.all_eq_true.mp (List.all_takeWhile (p := (· != '\n')) (l := chars)) _ member
  simp at other

theorem others_of_not_mem {line : List Char} (single : '\n' ∉ line)
    : ∀ c ∈ line, (c != '\n') = true := by
  rintro c member
  rw [bne_iff_ne]
  rintro rfl
  exact single member

theorem firstLine_of_not_mem {line : List Char} (single : '\n' ∉ line)
    : firstLine line = line ∧ behindFirstLine line = [] := by
  have others := others_of_not_mem single
  have taken : (line ++ []).takeWhile (· != '\n') = line ++ [] :=
    List.takeWhile_append_of_pos others
  have dropped : (line ++ []).dropWhile (· != '\n') = [] := List.dropWhile_append_of_pos others
  rw [List.append_nil] at taken dropped
  simp [firstLine, behindFirstLine, taken, dropped]

theorem firstLine_append {line : List Char} (single : '\n' ∉ line) (rest : List Char)
    : firstLine (line ++ '\n' :: rest) = line ∧ behindFirstLine (line ++ '\n' :: rest) = rest := by
  have others := others_of_not_mem single
  simp [firstLine, behindFirstLine, List.takeWhile_append_of_pos others,
    List.dropWhile_append_of_pos others]

/-- A text is a line, or a line with a line feed and more behind it. -/
theorem single_or_split (chars : List Char)
    : '\n' ∉ chars ∨ ∃ line rest, '\n' ∉ line ∧ chars = line ++ '\n' :: rest := by
  rcases Cursor.run_or_split (· != '\n') chars with all | ⟨line, c, rest, whole, all, other⟩
  · left
    intro member
    simpa using all _ member
  · right
    obtain rfl : c = '\n' := by simpa using other
    refine ⟨line, rest, ?_, whole⟩
    intro member
    simpa using all _ member

-----------------------------------------------------------------------------------------
-- All lines
-----------------------------------------------------------------------------------------

/-- Characters other than line feeds are collected, by induction over them. -/
theorem linesFrom_append {line : List Char} (single : '\n' ∉ line) (current rest : List Char)
    : linesFrom current (line ++ rest) = linesFrom (line.reverse ++ current) rest := by
  induction line generalizing current with
  | nil => rfl
  | cons c line ih =>
      have other : c ≠ '\n' := fun same => single (same ▸ List.mem_cons_self)
      have single : '\n' ∉ line := fun member => single (List.mem_cons_of_mem _ member)
      rw [List.cons_append, linesFrom, ih single]
      · simp
      · exact other

/-- A text without line feeds is its own only line. -/
theorem lines_of_not_mem {line : List Char} (single : '\n' ∉ line) (written : line ≠ [])
    : lines line = [line] := by
  have collected := linesFrom_append single [] []
  simp only [List.append_nil] at collected
  simp [lines, collected, linesFrom, written]

/-- A line that a line feed ends comes before the lines behind it. -/
theorem lines_append {line : List Char} (single : '\n' ∉ line) (rest : List Char)
    : lines (line ++ '\n' :: rest) = dropCarriageReturn line :: lines rest := by
  simp [lines, linesFrom_append single, linesFrom]

/-- The first line as a line of its text, without the carriage return that goes with its line
feed.
-/
def headLine (chars : List Char) : List Char :=
  if '\n' ∈ chars then dropCarriageReturn (firstLine chars) else firstLine chars

/-- The lines of a text are its first line and those behind it. -/
theorem lines_eq {chars : List Char} (written : chars ≠ [])
    : lines chars = headLine chars :: lines (behindFirstLine chars) := by
  rcases single_or_split chars with single | ⟨line, rest, single, rfl⟩
  · obtain ⟨first, behind⟩ := firstLine_of_not_mem single
    rw [lines_of_not_mem single written, headLine, if_neg single, first, behind]
    rfl
  · obtain ⟨first, behind⟩ := firstLine_append single rest
    rw [lines_append single, headLine, if_pos (by simp), first, behind]

/-- A text has no lines only if it is empty. -/
theorem lines_eq_nil {chars : List Char} : lines chars = [] ↔ chars = [] := by
  constructor
  · intro none
    cases chars with
    | nil => rfl
    | cons c rest =>
        rw [lines_eq (List.cons_ne_nil c rest)] at none
        cases none
  · rintro rfl
    rfl

-----------------------------------------------------------------------------------------
-- Carriage returns
-----------------------------------------------------------------------------------------

theorem isBlank_carriageReturn : isBlank '\r' = true := by
  decide

theorem dropCarriageReturn_cases (line : List Char)
    : dropCarriageReturn line = line ∨ line = dropCarriageReturn line ++ ['\r'] := by
  rw [dropCarriageReturn]
  split
  · rename_i last
    obtain ⟨before, rfl⟩ := List.getLast?_eq_some_iff.mp last
    simp
  · exact .inl rfl

/-- White space at the end of a text is trimmed away. -/
theorem trim_append_blank {c : Char} (blank : isBlank c = true) (chars : List Char)
    : trim (chars ++ [c]) = trim chars := by
  rw [trim, trim, List.dropWhile_append]
  split
  · rename_i none
    simp [List.isEmpty_iff.mp none, blank]
  · simp [trimRight, blank]

theorem trim_headLine (chars : List Char) : trim (headLine chars) = trim (firstLine chars) := by
  rw [headLine]
  split
  · rcases dropCarriageReturn_cases (firstLine chars) with same | split
    · rw [same]
    · have trimmed := congrArg trim split
      rw [trim_append_blank isBlank_carriageReturn] at trimmed
      exact trimmed.symm
  · rfl

theorem allBlank_headLine (chars : List Char)
    : allBlank (headLine chars) = allBlank (firstLine chars) := by
  rw [headLine]
  split
  · rcases dropCarriageReturn_cases (firstLine chars) with same | split
    · rw [same]
    · have blank := congrArg allBlank split
      simp only [allBlank, List.all_append, List.all_cons, List.all_nil, isBlank_carriageReturn,
        Bool.and_true] at blank
      exact blank.symm
  · rfl

end DueTasks.Text
