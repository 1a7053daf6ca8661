/-! Structured values, as they are written to JSON and CBOR. -/

namespace DueTasks

/-- A structured value. The fields of a record keep their order. -/
inductive Datum where
  | null
  | bool (value : Bool)
  | int (value : Int)
  | text (value : String)
  | list (items : List Datum)
  | record (fields : List (String × Datum))
deriving Inhabited

namespace Datum

/-- A text that may be missing. -/
def optionalText (value : Option String) : Datum :=
  (value.map text).getD null

/-- A number that may be missing. -/
def optionalInt (value : Option Int) : Datum :=
  (value.map int).getD null

end Datum

end DueTasks
