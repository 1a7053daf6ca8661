import DueTasks.Text.Blank
import DueTasks.Text.Decimal
import DueTasks.Text.Span

/-! Reading a text from left to right.
A cursor is a byte offset with the characters from there on. A reader returns what it read together
with the cursor behind it, and with a proof that this cursor has fewer characters left than a given
bound, so that readers built from readers end.
-/

namespace DueTasks.Text

/-- A place in a text: its byte offset and the characters from there on. -/
structure Cursor where
  offset : Nat
  rest : List Char
deriving DecidableEq

/-- The number of characters left. -/
def Cursor.remaining (c : Cursor) : Nat :=
  c.rest.length

/-- A value read from a text, and the place behind it. -/
structure Parsed (α : Type) (bound : Nat) where
  value : α
  next : Cursor
  within : next.remaining < bound

namespace Parsed

/-- The same reading under a larger bound. -/
def widen {α : Type} {small large : Nat} (p : Parsed α small) (le : small ≤ large)
    : Parsed α large :=
  ⟨p.value, p.next, Nat.lt_of_lt_of_le p.within le⟩

/-- The same reading under a bound that is larger by one. -/
def loosen {α : Type} {bound : Nat} (p : Parsed α bound) : Parsed α (bound + 1) :=
  p.widen (Nat.le_succ _)

/-- The same reading with another value. -/
def withValue {α β : Type} {bound : Nat} (p : Parsed α bound) (value : β) : Parsed β bound :=
  ⟨value, p.next, p.within⟩

end Parsed

namespace Cursor

def start (chars : List Char) : Cursor :=
  ⟨0, chars⟩

/-- The stretch from one place to a later one. -/
def spanTo (from_ until_ : Cursor) : Span :=
  ⟨from_.offset, until_.offset⟩

/-- The longest run of characters of a class. -/
def run (c : Cursor) (belongs : Char → Bool) : List Char :=
  c.rest.takeWhile belongs

/-- The place behind the longest run of characters of a class. -/
def skip (c : Cursor) (belongs : Char → Bool) : Cursor :=
  ⟨c.offset + byteLength (c.run belongs), c.rest.dropWhile belongs⟩

/-- The place behind spaces and tabs. -/
def skipBlanks (c : Cursor) : Cursor :=
  c.skip isSpaceOrTab

/-- Whether a given character comes next. -/
def sees (c : Cursor) (expected : Char) : Bool :=
  c.rest.head? == some expected

/-- Reads nothing, and answers with a value. -/
def give {α : Type} (c : Cursor) (value : α) : Parsed α (c.remaining + 1) :=
  ⟨value, c, Nat.lt_succ_self _⟩

def any? : (c : Cursor) → Option (Parsed Char c.remaining)
  | ⟨_, []⟩ => none
  | ⟨offset, c :: rest⟩ => some ⟨c, ⟨offset + c.utf8Size, rest⟩, Nat.lt_succ_self _⟩

/-- Reads one given character. -/
def char? (c : Cursor) (expected : Char) : Option (Parsed Unit c.remaining) := do
  let found ← c.any?
  if found.value = expected then return found.withValue () else none

/-- Skipping leaves no more characters than there were. -/
theorem remaining_skip_le (c : Cursor) (belongs : Char → Bool)
    : (c.skip belongs).remaining ≤ c.remaining :=
  (List.dropWhile_suffix belongs).length_le

/-- Skipping spaces and tabs leaves no more characters than there were. -/
theorem remaining_skipBlanks_le (c : Cursor) : c.skipBlanks.remaining ≤ c.remaining :=
  remaining_skip_le c _

/-- Reads one given character behind spaces and tabs. -/
def charAfterBlanks? (c : Cursor) (expected : Char) : Option (Parsed Unit c.remaining) := do
  let found ← c.skipBlanks.char? expected
  return found.widen c.remaining_skipBlanks_le

/-- Skipping a run that is not empty leaves fewer characters. -/
theorem remaining_skip_lt (c : Cursor) (belongs : Char → Bool) (h : c.run belongs ≠ [])
    : (c.skip belongs).remaining < c.remaining := by
  have split := congrArg List.length (List.takeWhile_append_dropWhile (p := belongs) (l := c.rest))
  have positive := List.length_pos_iff.mpr h
  simp only [List.length_append] at split
  simp only [skip, remaining, run] at *
  omega

/-- Reads the longest run of characters of a class, which must not be empty. -/
def run? (c : Cursor) (belongs : Char → Bool) : Option (Parsed (List Char) c.remaining) :=
  if h : c.run belongs = [] then none
  else some ⟨c.run belongs, c.skip belongs, c.remaining_skip_lt belongs h⟩

/-- Reads a number of exactly `count` digits. -/
def digits? (count : Nat) (c : Cursor) : Option (Parsed Nat (c.remaining + 1 - count)) :=
  let taken := c.rest.take count
  if h : taken.length = count ∧ taken.all Char.isDigit then
    some ⟨digitsValue taken, ⟨c.offset + byteLength taken, c.rest.drop count⟩, by
      have := h.1
      simp only [taken, List.length_take, List.length_drop, remaining] at *
      omega⟩
  else none

/-- Reads a number of exactly `count` digits behind a given character. -/
def digitsAfter? (mark : Char) (count : Nat) (c : Cursor) : Option (Parsed Nat c.remaining) := do
  let marked ← c.char? mark
  let number ← marked.next.digits? count
  return number.widen (by have := marked.within; omega)

end Cursor

end DueTasks.Text
