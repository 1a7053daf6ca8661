import DueTasks.Calendar.Date
import DueTasks.Proofs.Text.OneLine
import DueTasks.Task.Error

/-! What errors quote.
An error in words is a fixed sentence around texts that it quotes as they are. It is one line exactly
if all of these texts are.
-/

namespace DueTasks

open Text

/-- A length of time is written in digits and one of a few units. -/
theorem Duration.isOneLine_text (d : Duration) : IsOneLine d.text := by
  have point (whole fraction places : Nat) : IsOneLine (decimalText whole fraction places) := by
    rw [decimalText, isOneLine_ofList, List.mem_append, not_or]
    refine ⟨not_mem_decimal whole, ?_⟩
    split
    · exact List.not_mem_nil
    · rw [List.mem_cons, not_or, List.mem_reverse]
      refine ⟨by decide, fun member => ?_⟩
      have inside := (List.dropWhile_sublist _).subset member
      exact not_mem_paddedDecimal places fraction (List.mem_reverse.mp inside)
  have unit {before behind : String} (h : IsOneLine before) (h' : IsOneLine behind)
      : IsOneLine (before ++ behind) :=
    isOneLine_append.mpr ⟨h, h'⟩
  rw [text]
  split
  · exact unit (point _ _ _) (by decide)
  · split
    · exact unit (point _ _ _) (by decide)
    · split
      · exact unit (point _ _ _) (by decide)
      · exact unit (point _ _ _) (by decide)

/-- A date is written in digits, hyphens and perhaps a sign. -/
theorem Date.isOneLine_text (d : Date) : IsOneLine d.text := by
  have year : '\n' ∉ yearText d.year := by
    rw [yearText]
    split
    · exact List.not_mem_cons_of_ne_of_not_mem (by decide) (not_mem_paddedDecimal _ _)
    · split
      · exact List.not_mem_cons_of_ne_of_not_mem (by decide) (not_mem_paddedDecimal _ _)
      · exact not_mem_paddedDecimal _ _
  rw [text, isOneLine_ofList, chars]
  simp [year, not_mem_paddedDecimal]

-----------------------------------------------------------------------------------------
-- Quoted texts
-----------------------------------------------------------------------------------------

/-- The texts that an expectation quotes. -/
def Expectation.quoted : Expectation → List String
  | openAfter name => [name]
  | _ => []

/-- The texts that an error about a name quotes. -/
def SyntaxError.quoted (e : SyntaxError) : List String :=
  e.text :: e.expected.quoted

/-- The texts that an error about files quotes. -/
def FileError.quoted : FileError → List String
  | outsideJail path => [path]
  | notFound path => [path]
  | notALink path => [path]
  | noNativePath path => [path]
  | helperNotFound name => [name]
  | system path message => [path, message]

/-- The texts that an error of a helper quotes. -/
def HelperError.quoted : HelperError → List String
  | timeout program _ => [program]
  | notStarted program message => [program, message]
  | exitStatus program _ => [program]
  | errorOutput program output => [program, output]
  | manyLines program => [program]
  | noOutput program => [program]
  | notADate program line => [program, line]

/-- The texts that an error of a trigger quotes. -/
def SemanticError.quoted : SemanticError → List String
  | illegalExpression name => [name]
  | argumentCount name expected _ => [name, expected]
  | expectedLiteral name _ => [name]
  | misplacedPlaceholder text => [text]
  | invalidDate text => [text]
  | unknownBuiltin name => [name]
  | idNotFound id => [id]
  | duplicateId id => [id]
  | cycle id => [id]
  | lineOutOfRange line _ => [line]
  | notAFilterOutput path => [path]
  | notFileOrDirectory path => [path]
  | unknownTask path => [path]
  | cannotRepeat => []
  | file error => error.quoted

/-- The texts that an error of a task quotes. -/
def TaskError.quoted : TaskError → List String
  | malformed error => error.quoted
  | semantic text error => text :: error.quoted
  | helper text error => text :: error.quoted

/-- All of some texts are one line each. -/
def AllOneLine (texts : List String) : Prop :=
  ∀ text ∈ texts, IsOneLine text

theorem allOneLine_nil : AllOneLine [] :=
  List.forall_mem_nil _

theorem allOneLine_cons {text : String} {texts : List String}
    : AllOneLine (text :: texts) ↔ IsOneLine text ∧ AllOneLine texts :=
  List.forall_mem_cons

-----------------------------------------------------------------------------------------
-- Errors in words
-----------------------------------------------------------------------------------------

theorem Expectation.isOneLine_message {e : Expectation}
    : IsOneLine e.message ↔ AllOneLine e.quoted := by
  cases e <;>
    · dsimp only [message, quoted]
      simp [IsOneLine, AllOneLine]

theorem SyntaxError.isOneLine_message {e : SyntaxError}
    : IsOneLine e.message ↔ AllOneLine e.quoted := by
  have line : '\n' ∉ Nat.toDigits 10 e.line := not_mem_decimal e.line
  have column : '\n' ∉ Nat.toDigits 10 e.column := not_mem_decimal e.column
  dsimp only [message, quoted]
  rw [isOneLine_append, Expectation.isOneLine_message, allOneLine_cons]
  refine and_congr_left' ?_
  simp [IsOneLine, line, column]

theorem FileError.isOneLine_message {e : FileError}
    : IsOneLine e.message ↔ AllOneLine e.quoted := by
  cases e <;>
    · dsimp only [message, quoted]
      simp [IsOneLine, AllOneLine]

theorem HelperError.isOneLine_message {e : HelperError}
    : IsOneLine e.message ↔ AllOneLine e.quoted := by
  cases e with
  | exitStatus program code =>
      have shown : IsOneLine ((code.map toString).getD "signal") := by
        cases code with
        | none => decide
        | some code => exact isOneLine_toString_int code
      dsimp only [message, quoted]
      rw [isOneLine_append, and_iff_left shown]
      simp [IsOneLine, AllOneLine]
  | timeout program limit =>
      dsimp only [message, quoted]
      rw [isOneLine_append, and_iff_left limit.isOneLine_text]
      simp [IsOneLine, AllOneLine]
  | _ =>
      dsimp only [message, quoted]
      simp [IsOneLine, AllOneLine]

theorem SemanticError.isOneLine_message {e : SemanticError}
    : IsOneLine e.message ↔ AllOneLine e.quoted := by
  cases e with
  | file error => exact error.isOneLine_message
  | argumentCount name expected found =>
      dsimp only [message, quoted]
      rw [isOneLine_append, and_iff_left (isOneLine_toString found)]
      simp [IsOneLine, AllOneLine]
  | expectedLiteral name index =>
      have shown : '\n' ∉ Nat.toDigits 10 index := not_mem_decimal index
      dsimp only [message, quoted]
      simp [IsOneLine, AllOneLine, shown]
  | lineOutOfRange line count =>
      have shown : '\n' ∉ Nat.toDigits 10 count := not_mem_decimal count
      dsimp only [message, quoted]
      simp [IsOneLine, AllOneLine, shown]
  | _ =>
      dsimp only [message, quoted]
      simp [IsOneLine, AllOneLine]

/-- An error in words is one line exactly if the texts are that it quotes. -/
theorem TaskError.isOneLine_message {e : TaskError}
    : IsOneLine e.message ↔ AllOneLine e.quoted := by
  have fixed : IsOneLine " (in '" ∧ IsOneLine "')" := by simp [IsOneLine]
  cases e with
  | malformed error => exact error.isOneLine_message
  | semantic text error =>
      dsimp only [message, quoted]
      rw [isOneLine_append, isOneLine_append, isOneLine_append, allOneLine_cons,
        and_iff_left fixed.2, and_iff_left fixed.1, SemanticError.isOneLine_message, and_comm]
  | helper text error =>
      dsimp only [message, quoted]
      rw [isOneLine_append, isOneLine_append, isOneLine_append, allOneLine_cons,
        and_iff_left fixed.2, and_iff_left fixed.1, HelperError.isOneLine_message, and_comm]

end DueTasks
