/-! Commands of shell scripts.
A word is a list of pieces, each of which is quoted or not. Quoted text stands for itself; what an
unquoted piece expands to is split into fields and may hold patterns.
-/

namespace DueTasks.Script

/-- What a word falls back on when a parameter is unset. -/
inductive Fallback where
  /-- Another text stands in for the parameter. -/
  | substitute
  /-- The parameter is given another text. -/
  | assign
  /-- The script ends with a message. -/
  | fail
  /-- Another text takes the place of a parameter that is set. -/
  | replace
deriving DecidableEq

/-- How a redirection opens its target. -/
inductive RedirectMode where
  | read
  | write
  | append
  /-- The target is the number of another descriptor. -/
  | duplicate
  /-- The target is the text that is read. -/
  | document
deriving DecidableEq

mutual

/-- A part of a word. -/
inductive Piece where
  | text (value : String) (quoted : Bool)
  | parameter (name : String) (use : ParameterUse) (quoted : Bool)
  | arithmetic (expression : List Piece)
  /-- What commands print. -/
  | output (commands : List Command) (quoted : Bool)

/-- How the value of a parameter is used. -/
inductive ParameterUse where
  | value
  | length
  /-- With `orEmpty`, an empty parameter counts as unset. -/
  | fallback (kind : Fallback) (orEmpty : Bool) (word : List Piece)
  /-- Without the part at its start or its end that a pattern matches. -/
  | trim (atStart longest : Bool) (pattern : List Piece)

/-- A redirection of a descriptor. -/
inductive Redirection where
  | mk (descriptor : Nat) (mode : RedirectMode) (target : List Piece)

inductive Command where
  | simple (line : Nat) (assignments : List (String × List Piece)) (words : List (List Piece))
      (redirections : List Redirection)
  | pipeline (negated : Bool) (stages : List Command)
  | both (left right : Command)
  | either (left right : Command)
  | sequence (commands : List Command)
  | background (command : Command)
  | redirected (body : Command) (redirections : List Redirection)
  | subshell (body : Command)
  | branch (condition yes no : Command)
  /-- The body runs as long as the condition has the status of `goal`. -/
  | loop (goal : Bool) (condition body : Command)
  /-- The body runs for each word, or for each argument. -/
  | each (name : String) (words : Option (List (List Piece))) (body : Command)
  | choose (word : List Piece) (branches : List (List (List Piece) × Command))
  | define (name : String) (body : Command)

end

abbrev Word := List Piece

/-- The command that does nothing. -/
def Command.skip : Command :=
  .sequence []

instance : Inhabited Command := ⟨.skip⟩

end DueTasks.Script
