import DueTasks.Calendar.DateReader
import DueTasks.Calendar.PeriodReader
import DueTasks.Trigger.Syntax
import DueTasks.Trigger.SyntaxError

/-! Reading triggers.

```text
trigger  = every ("+" every)*
every    = unit ("&" unit)*
unit     = "(" trigger ")" | date suffix | name "(" (argument ("," argument)*)? ")" suffix
argument = quoted text | trigger | word
suffix   = ("T" HH ":" MM)? ("E" period)? ("#" digits)? ("P" "!"? period?)?
```

Spaces and tabs may stand around `&`, `+` and `,` and inside parentheses. The longest trigger is
read; whatever follows belongs to the ending of the name. An argument counts as a trigger only if
the argument ends behind it, and as a word otherwise, unless the trigger failed past the point where
it could still have been a word.
-/

namespace DueTasks

open Text

/-- Why nothing could be read. After a committed fault no other reading is tried. -/
structure Fault where
  offset : Nat
  expected : Expectation
  committed : Bool

/-- What a reader answers: a value and the place behind it, or a fault. -/
abbrev Reply (α : Type) (bound : Nat) := Except Fault (Parsed α bound)

namespace Reply

/-- A fault after which other readings may be tried. -/
def reject {α : Type} {bound : Nat} (place : Cursor) (expected : Expectation) : Reply α bound :=
  .error ⟨place.offset, expected, false⟩

/-- A fault that is final. -/
def fail {α : Type} {bound : Nat} (place : Cursor) (expected : Expectation) : Reply α bound :=
  .error ⟨place.offset, expected, true⟩

/-- Makes every fault final. -/
def commit {α : Type} {bound : Nat} (reply : Reply α bound) : Reply α bound :=
  reply.mapError fun fault => { fault with committed := true }

end Reply

namespace Trigger

/-- Whether a character can begin a name. -/
def isNameStart (c : Char) : Bool :=
  c == '_' || c.isAlpha

/-- Whether a character can go on a name. -/
def isNamePart (c : Char) : Bool :=
  c == '_' || c.isAlphanum

/-- Whether a character can stand in a word without quotes. -/
def isWordPart (c : Char) : Bool :=
  !isBlank c && !([',', '(', ')', '"', '\''].contains c)

/-- Reads an operator with the spaces and tabs around it. -/
def operator? (symbol : Char) (c : Cursor) : Option (Parsed Unit c.remaining) := do
  let found ← c.charAfterBlanks? symbol
  return ⟨(), found.next.skipBlanks,
    Nat.lt_of_le_of_lt found.next.remaining_skipBlanks_le found.within⟩

/-- Whether an argument ends here. -/
def atArgumentEnd (c : Cursor) : Bool :=
  c.skipBlanks.sees ',' || c.skipBlanks.sees ')'

/-- Reads the time of day. A `T` counts as its mark once a digit follows. -/
def readTime (c : Cursor) : Reply (Option ClockTime) (c.remaining + 1) :=
  match c.char? 'T' with
  | none => .ok (c.give none)
  | some mark =>
      if !(mark.next.rest.head?.any Char.isDigit) then .ok (c.give none)
      else
        let parts : Option (Parsed (Nat × Nat) (mark.next.remaining + 1)) := do
          let hour ← mark.next.digits? 2
          let minute ← hour.next.digitsAfter? ':' 2
          return (minute.withValue (hour.value, minute.value)).widen (by
            have := hour.within
            omega)
        match parts with
        | none => .fail mark.next .timeOfDay
        | some found =>
            match ClockTime.ofParts? found.value.1 found.value.2 with
            | none => .fail mark.next .validTimeOfDay
            | some time =>
                .ok ((found.withValue (some time)).widen (by
                  have := mark.within
                  omega))

/-- Reads the offset behind an `E`. -/
def readEffective (c : Cursor) : Parsed (Option Period) (c.remaining + 1) :=
  let found : Option (Parsed Period c.remaining) := do
    let mark ← c.char? 'E'
    let period ← Period.read? mark.next
    return period.widen (Nat.le_of_lt mark.within)
  match found with
  | none => c.give none
  | some period => (period.withValue (some period.value)).loosen

/-- Reads the priority: the digits behind a `#`. -/
def readPriority (c : Cursor) : Reply (Option UInt32) (c.remaining + 1) :=
  match c.char? '#' with
  | none => .ok (c.give none)
  | some mark =>
      match mark.next.run? Char.isDigit with
      | none => .ok (c.give none)
      | some digits =>
          let number := digitsValue digits.value
          if number < UInt32.size then
            .ok ((digits.withValue (some (UInt32.ofNat number))).widen (by
              have := mark.within
              omega))
          else .fail mark.next .priorityInRange

/-- Reads the exclamation mark of a forced repeat. -/
def readForced (c : Cursor) : Parsed Bool (c.remaining + 1) :=
  match c.char? '!' with
  | none => c.give false
  | some mark => (mark.withValue true).loosen

/-- Reads a period that may be missing, which is the empty period. -/
def readOptionalPeriod (c : Cursor) : Parsed Period (c.remaining + 1) :=
  match Period.read? c with
  | none => c.give .zero
  | some period => period.loosen

/-- Reads the repeat behind a `P`. -/
def readRepeat (c : Cursor) : Parsed (Option Repeat) (c.remaining + 1) :=
  match c.char? 'P' with
  | none => c.give none
  | some mark =>
      let forced := readForced mark.next
      let period := readOptionalPeriod forced.next
      (period.withValue (some ⟨forced.value, period.value⟩)).widen (by
        have := mark.within
        have := forced.within
        omega)

/-- Reads all annotations. -/
def readSuffix (c : Cursor) : Reply Suffix (c.remaining + 1) := do
  let time ← readTime c
  let effective := readEffective time.next
  let priority ← readPriority effective.next
  let repetition := readRepeat priority.next
  let suffix : Suffix :=
    { time := time.value
      effective := effective.value
      priority := priority.value
      repetition := repetition.value
      span := c.spanTo repetition.next }
  return (repetition.withValue suffix).widen (by
    have := time.within
    have := effective.within
    have := priority.within
    omega)

/-- Reads the inside of a quoted text up to the closing quote. A backslash may stand before itself
or before the quote, and takes away its meaning.
-/
def readQuoted? (quote : Char) (offset : Nat) : List Char → Option (List Char × Cursor)
  | [] => none
  | '\\' :: c :: rest =>
      if c = '\\' ∨ c = quote then
        (readQuoted? quote (offset + 1 + c.utf8Size) rest).map fun found => (c :: found.1, found.2)
      else none
  | c :: rest =>
      if c = quote then some ([], ⟨offset + c.utf8Size, rest⟩)
      else if c = '\\' then none
      else (readQuoted? quote (offset + c.utf8Size) rest).map fun found => (c :: found.1, found.2)

/-- A quoted text has at least its closing quote. -/
theorem readQuoted?_shorter {quote : Char} {offset : Nat} {chars : List Char}
    {found : List Char × Cursor} (h : readQuoted? quote offset chars = some found)
    : found.2.remaining < chars.length := by
  fun_induction readQuoted? quote offset chars generalizing found with
  | case1 => simp at h
  | case2 offset c rest _ ih =>
      obtain ⟨inner, hi, rfl⟩ := Option.map_eq_some_iff.mp h
      have := ih hi
      simp only [List.length_cons]
      omega
  | case3 => simp at h
  | case4 => cases h; simp [Cursor.remaining]
  | case5 => simp at h
  | case6 offset c rest _ _ _ ih =>
      obtain ⟨inner, hi, rfl⟩ := Option.map_eq_some_iff.mp h
      have := ih hi
      simp only [List.length_cons]
      omega

/-- Reads a quoted text after its opening quote. -/
def readLiteral? (quote : Char) (c : Cursor) : Option (Parsed String c.remaining) :=
  match h : readQuoted? quote c.offset c.rest with
  | none => none
  | some found => some ⟨String.ofList found.1, found.2, readQuoted?_shorter h⟩

/-- Reads a word without quotes. -/
def readWord (c : Cursor) : Reply Argument c.remaining :=
  match c.run? isWordPart with
  | none => .fail c .argument
  | some word => .ok (word.withValue (.bare (String.ofList word.value) (c.spanTo word.next)))

/-- Reads the date at the start of a date with annotations. -/
def readDate (c : Cursor) : Reply Node c.remaining :=
  match Date.read? c with
  | none => .reject c .date
  | some date => do
      let suffix ← readSuffix date.next
      return (suffix.withValue (.date date.value (c.spanTo date.next) suffix.value)).widen
        date.within

mutual

/-- Reads the longest trigger: one or more parts joined by `+`. -/
def readNode (c : Cursor) : Reply Node c.remaining := do
  let first ← readEvery c
  have := first.within
  let joined ← readEither first.value first.next
  return joined.widen first.within
termination_by (c.remaining, 3)

/-- Reads more parts joined by `+` to what stands before them. -/
def readEither (left : Node) (c : Cursor) : Reply Node (c.remaining + 1) :=
  match operator? '+' c with
  | none => .ok (c.give left)
  | some sign => do
      have := sign.within
      let right ← (readEvery sign.next).commit
      have := right.within
      let joined ← readEither (.either left right.value) right.next
      return joined.widen (by omega)
termination_by (c.remaining, 0)

/-- Reads one or more units joined by `&`. -/
def readEvery (c : Cursor) : Reply Node c.remaining := do
  let first ← readUnit c
  have := first.within
  let joined ← readBoth first.value first.next
  return joined.widen first.within
termination_by (c.remaining, 2)

/-- Reads more units joined by `&` to what stands before them. -/
def readBoth (left : Node) (c : Cursor) : Reply Node (c.remaining + 1) :=
  match operator? '&' c with
  | none => .ok (c.give left)
  | some sign => do
      have := sign.within
      let right ← (readUnit sign.next).commit
      have := right.within
      let joined ← readBoth (.both left right.value) right.next
      return joined.widen (by omega)
termination_by (c.remaining, 0)

/-- Reads a date, a call or a group. -/
def readUnit (c : Cursor) : Reply Node c.remaining :=
  match c.char? '(' with
  | some opening => do
      have := opening.within
      have := opening.next.remaining_skipBlanks_le
      let group ← readGroup c opening.next.skipBlanks
      return group.widen (by omega)
  | none =>
      if c.rest.head?.any Char.isDigit then readDate c
      else if c.rest.head?.any isNameStart then
        match c.run? isNamePart with
        | none => Reply.reject c .dateOrCall
        | some name =>
            match name.next.char? '(' with
            | none => Reply.reject name.next (.openAfter (String.ofList name.value))
            | some opening => do
                have := name.within
                have := opening.within
                have := opening.next.remaining_skipBlanks_le
                let call ← readCall c (String.ofList name.value) opening.next.skipBlanks
                return call.widen (by omega)
      else Reply.reject c .dateOrCall
termination_by (c.remaining, 1)

/-- Reads the inside of a group and the closing parenthesis. The group begins at `start`. -/
def readGroup (start c : Cursor) : Reply Node c.remaining := do
  let inner ← (readNode c).commit
  match inner.next.charAfterBlanks? ')' with
  | none => Reply.fail inner.next.skipBlanks .close
  | some closing =>
      let group := Node.group inner.value (start.spanTo closing.next)
      return (closing.withValue group).widen (by
        have := inner.within
        omega)
termination_by (c.remaining, 4)

/-- Reads the arguments of a call, the closing parenthesis and the annotations. The call begins at
`start`.
-/
def readCall (start : Cursor) (name : String) (c : Cursor) : Reply Node c.remaining := do
  let args ← (readArguments c).commit
  let suffix ← readSuffix args.next
  let node := Node.call name args.value (start.spanTo args.next) suffix.value
  return (suffix.withValue node).widen (by
    have := args.within
    omega)
termination_by (c.remaining, 8)

/-- Reads the arguments of a call with the closing parenthesis. -/
def readArguments (c : Cursor) : Reply (List Argument) c.remaining :=
  match c.char? ')' with
  | some closing => .ok (closing.withValue [])
  | none => readSomeArguments c
termination_by (c.remaining, 7)

/-- Reads one or more arguments with the closing parenthesis. -/
def readSomeArguments (c : Cursor) : Reply (List Argument) c.remaining := do
  let arg ← readArgument c
  have := arg.within
  match arg.next.charAfterBlanks? ')' with
  | some closing => return (closing.withValue [arg.value]).widen (Nat.le_of_lt arg.within)
  | none =>
      match arg.next.charAfterBlanks? ',' with
      | none => Reply.fail arg.next.skipBlanks .commaOrClose
      | some comma => do
          have := comma.within
          have := comma.next.remaining_skipBlanks_le
          let more ← readSomeArguments comma.next.skipBlanks
          return (more.withValue (arg.value :: more.value)).widen (by omega)
termination_by (c.remaining, 6)

def readArgument (c : Cursor) : Reply Argument c.remaining :=
  match (c.char? '"').or (c.char? '\'') with
  | some opening =>
      match readLiteral? (if c.sees '"' then '"' else '\'') opening.next with
      | none => .fail c .closingQuote
      | some literal =>
          .ok ((literal.withValue (.quoted literal.value (c.spanTo literal.next))).widen
            (Nat.le_of_lt opening.within))
  | none =>
      match readNode c with
      | .ok node =>
          if atArgumentEnd node.next then .ok (node.withValue (.trigger node.value))
          else readWord c
      | .error fault => if fault.committed then .error fault else readWord c
termination_by (c.remaining, 4)

end

/-- Reads a task name. -/
def parse (text : String) : Except SyntaxError Trigger :=
  match readNode (Cursor.start text.toList) with
  | .ok root =>
      .ok { source := text, root := root.value, ending := ⟨root.next.offset, text.utf8ByteSize⟩ }
  | .error fault => .error (.atOffset text fault.offset fault.expected)

end Trigger

end DueTasks
