/-! Parts of a text between separators. -/

namespace DueTasks.Text

/-- The parts between characters of a class, empty ones included. -/
def parts (separates : Char → Bool) : List Char → List (List Char)
  | [] => [[]]
  | c :: rest =>
      match parts separates rest with
      | [] => [[c]]
      | part :: more => if separates c then [] :: part :: more else (c :: part) :: more

end DueTasks.Text
