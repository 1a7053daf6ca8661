import DueTasks.Files.FileSystem
import DueTasks.Script.Pattern
import DueTasks.Text.Blank

/-! How the fields of a command come from its expanded words.
What an unquoted expansion gives is split at the characters of the variable `IFS`. Quoted parts
are never split, and keep a field there even if they are empty.
-/

namespace DueTasks.Script

/-- A part of an expanded word. -/
inductive Atom where
  /-- A character that belongs to the word as it was written. -/
  | written (char : Char) (quoted : Bool)
  /-- A character of an unquoted expansion. -/
  | expanded (char : Char)
  /-- A quoted part, which may be empty. -/
  | mark
  /-- The end of a field. -/
  | boundary

namespace Atom

def ofText (quoted : Bool) (text : List Char) : List Atom :=
  if quoted then .mark :: text.map (.written · true) else text.map .expanded

/-- The atoms of several texts, each a field of its own. -/
def ofFields (quoted : Bool) (texts : List String) : List Atom :=
  [Atom.boundary].intercalate (texts.map fun text => ofText quoted text.toList)

/-- The atom as a character that is not split off. Fields are separated by spaces. -/
def fieldChar? : Atom → Option FieldChar
  | written char quoted => some ⟨char, quoted⟩
  | expanded char => some ⟨char, false⟩
  | mark => none
  | boundary => some ⟨' ', false⟩

end Atom

/-- A word as a single field. -/
def joinAtoms (atoms : List Atom) : Field :=
  atoms.filterMap Atom.fieldChar?

/-- The fields of a word, behind the field begun so far. -/
def splitAtoms (separators : List Char) (begun : Option Field) : List Atom → List Field
  | [] => begun.toList
  | .written char quoted :: rest =>
      splitAtoms separators (some (begun.getD [] ++ [⟨char, quoted⟩])) rest
  | .mark :: rest => splitAtoms separators (some (begun.getD [])) rest
  | .boundary :: rest => begun.toList ++ splitAtoms separators none rest
  | .expanded char :: rest =>
      if !separators.contains char then
        splitAtoms separators (some (begun.getD [] ++ [⟨char, false⟩])) rest
      else if Text.isBlank char then begun.toList ++ splitAtoms separators none rest
      else begun.getD [] :: splitAtoms separators none rest

/-! ## Patterns for paths -/

/-- Whether a field holds signs of a pattern. -/
def Field.isPattern (field : Field) : Bool :=
  field.any fun c => !c.quoted && "*?[".toList.contains c.char

/-- The parts of a field between slashes. -/
def Field.segments : Field → List Field
  | [] => [[]]
  | c :: rest =>
      match Field.segments rest with
      | [] => [[c]]
      | segment :: more => if c.char == '/' then [] :: segment :: more else (c :: segment) :: more

/-- The names in a directory that a pattern accepts, sorted. Names that begin with a dot are left
out, unless the pattern begins with one.
-/
def acceptedNames (disk : Disk) (directory : String) (pattern : Field) : List String :=
  let entries := match disk.node ⟨if directory.isEmpty then "." else directory⟩ true with
    | .ok node => node.entries
    | .error _ => []
  let names := entries.filterMap fun
    | (.text name, _) => some name
    | _ => none
  let dotted := pattern.head?.any (·.char == '.')
  let accepted := names.filter fun name =>
    (dotted || !name.startsWith ".") && pattern.accepts name.toList
  accepted.mergeSort fun a b => decide (a ≤ b)

/-- The paths that begin with a text and go on with segments that accept their parts. -/
def acceptedPaths (disk : Disk) (start : String) : List Field → List String
  | [] => []
  | [last] =>
      if last.isPattern then (acceptedNames disk start last).map (start ++ ·)
      else
        let path := start ++ last.text
        match disk.node ⟨path⟩ false with
        | .ok _ => [path]
        | .error _ => []
  | segment :: rest =>
      if segment.isPattern then
        (acceptedNames disk start segment).flatMap fun name =>
          acceptedPaths disk (start ++ name ++ "/") rest
      else acceptedPaths disk (start ++ segment.text ++ "/") rest

/-- The words that a field stands for: the paths that it accepts as a pattern, or its own text. -/
def Field.words (disk : Disk) (field : Field) : List String :=
  let paths := if field.isPattern then acceptedPaths disk "" field.segments else []
  if paths.isEmpty then [field.text] else paths

end DueTasks.Script
