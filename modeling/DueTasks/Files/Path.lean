import DueTasks.Text.Parts

/-! Paths.
A path keeps the text it was written with. What it means are its components: empty segments and `.`
segments are skipped, except for a `.` that a relative path begins with, and `..` stays. Paths are
compared by their components.
-/

namespace DueTasks

structure Path where
  text : String
deriving DecidableEq, Inhabited

/-- A meaningful part of a path. -/
inductive PathComponent where
  /-- The `/` that an absolute path begins with. -/
  | root
  /-- The `.` that a relative path begins with. -/
  | current
  /-- A `..`. -/
  | parent
  /-- A file name. -/
  | name (name : String)
deriving DecidableEq

namespace PathComponent

/-- The place of each kind of component in the order of paths. -/
def rank : PathComponent → Nat
  | root => 0
  | current => 1
  | parent => 2
  | name _ => 3

/-- The order of components: by kind, and names by their characters. -/
def precedes : PathComponent → PathComponent → Bool
  | name a, name b => decide (a < b)
  | a, b => a.rank < b.rank

end PathComponent

namespace Path

def chars (p : Path) : List Char :=
  p.text.toList

/-- The parts of a text between slashes. -/
def segments (chars : List Char) : List (List Char) :=
  Text.parts (· == '/') chars

/-- Whether a segment means nothing: it is empty or a single dot. -/
def isIdle (segment : List Char) : Bool :=
  segment == [] || segment == ['.']

/-- The component that a meaningful segment stands for. -/
def componentOf (segment : List Char) : PathComponent :=
  if segment = ['.', '.'] then .parent else .name (String.ofList segment)

/-- Whether a path begins with a slash. -/
def isAbsolute (p : Path) : Bool :=
  p.chars.head? == some '/'

/-- Whether a path begins with a `.` segment. -/
def startsHere (p : Path) : Bool :=
  (segments p.chars).head? == some ['.']

def components (p : Path) : List PathComponent :=
  let body := ((segments p.chars).filter (!isIdle ·)).map componentOf
  if p.isAbsolute then .root :: body
  else if p.startsHere then .current :: body
  else body

/-- Two paths have the same components. -/
def same (a b : Path) : Bool :=
  a.components == b.components

/-- The order of paths: lexicographic by components. -/
def precedes (a b : Path) : Bool :=
  a.components.lex b.components PathComponent.precedes

/-- Whether the components of `base` begin those of `p`. -/
def startsWith (p base : Path) : Bool :=
  base.components.isPrefixOf p.components

/-- The last component, if it is a name. -/
def fileName? (p : Path) : Option String :=
  match p.components.getLast? with
  | some (.name name) => some name
  | _ => none

/-- A path behind a directory. An absolute path stands for itself. -/
def join (base : Path) (relative : String) : Path :=
  if relative.toList.head? = some '/' then ⟨relative⟩
  else if base.text.isEmpty || base.chars.getLast? == some '/' then ⟨base.text ++ relative⟩
  else ⟨base.text ++ "/" ++ relative⟩

/-- Segments without the idle ones at the end. -/
def trimSegments (segments : List (List Char)) : List (List Char) :=
  (segments.reverse.dropWhile isIdle).reverse

/-- The path without its last component, spelled as in the path itself. The root and the empty path
have no parent.
-/
def parent? (p : Path) : Option Path :=
  let rooted := p.isAbsolute || p.startsHere
  let start := if rooted then p.chars.take 1 else []
  let body := trimSegments (segments (if rooted then p.chars.drop 1 else p.chars))
  if body.isEmpty then if p.startsHere then some ⟨""⟩ else none
  else some ⟨String.ofList (start ++ ['/'].intercalate (trimSegments body.dropLast))⟩

/-- The directory that a path lies in; the empty path if it has no parent. -/
def directory (p : Path) : Path :=
  p.parent?.getD ⟨""⟩

/-- The names that are left when each `..` takes away the name before it, given the names so far,
latest first. There are none if a `..` has no name before it.
-/
def settle? : List String → List PathComponent → Option (List String)
  | names, [] => some names.reverse
  | [], .parent :: _ => none
  | _ :: names, .parent :: rest => settle? names rest
  | names, .name name :: rest => settle? (name :: names) rest
  | names, .root :: rest => settle? names rest
  | names, .current :: rest => settle? names rest

def ofNames (rooted : Bool) (names : List String) : Path :=
  ⟨(if rooted then "/" else "") ++ "/".intercalate names⟩

/-- The path with `.` and `..` resolved by their spelling alone. There is none if a `..` climbs
above the start.
-/
def normalize? (p : Path) : Option Path :=
  (settle? [] p.components).map (ofNames p.isAbsolute)

end Path

end DueTasks
