import DueTasks.Proofs.Trigger.CallReading
import DueTasks.Proofs.Trigger.Parsing
import DueTasks.Proofs.Trigger.WordReading

/-! Triggers in text, and their reading.
What a trigger leaves open is up to a layout: the blanks between its parts, and the quotes. Whatever
the layout, the text of a trigger is read back as the trigger.
-/

namespace DueTasks

open Text Parsed

/-- The choices in the text of a node, by the path to the part that they are about: the blanks at
each place of the part, and its quotes if it is a text in quotes.
-/
structure Layout where
  blanks : List Nat → Nat → List Char
  quote : List Nat → Char
  areBlanks : ∀ path place, ∀ c ∈ blanks path place, isSpaceOrTab c = true
  isQuote : ∀ path, quote path = '"' ∨ quote path = '\''

namespace Layout

/-- The blanks at a place of the node itself. -/
def gap (layout : Layout) (place : Nat) : List Char :=
  layout.blanks [] place

/-- The layout of a part. -/
def below (layout : Layout) (part : Nat) : Layout where
  blanks path := layout.blanks (part :: path)
  quote path := layout.quote (part :: path)
  areBlanks path := layout.areBlanks (part :: path)
  isQuote path := layout.isQuote (part :: path)

theorem isSpaceOrTab_of_mem_gap (layout : Layout) (place : Nat)
    : ∀ c ∈ layout.gap place, isSpaceOrTab c = true :=
  layout.areBlanks [] place

end Layout

-----------------------------------------------------------------------------------------
-- The text of a node
-----------------------------------------------------------------------------------------

mutual

/-- The text of a node. -/
def Node.print (layout : Layout) : Node → List Char
  | .date value _ suffix => value.chars ++ suffix.chars
  | .call name args _ suffix =>
      name.toList
        ++ '(' :: (layout.gap 0 ++ (Argument.printList (layout.below 0) args ++ suffix.chars))
  | .both left right =>
      left.print (layout.below 0)
        ++ (layout.gap 0 ++ '&' :: layout.gap 1 ++ right.print (layout.below 1))
  | .either left right =>
      left.print (layout.below 0)
        ++ (layout.gap 0 ++ '+' :: layout.gap 1 ++ right.print (layout.below 1))
  | .group inner _ =>
      '(' :: (layout.gap 0 ++ (inner.print (layout.below 0) ++ (layout.gap 1 ++ [')'])))

/-- The text of an argument. -/
def Argument.print (layout : Layout) : Argument → List Char
  | .quoted value _ => quotedChars (layout.quote []) value.toList
  | .bare value _ => value.toList
  | .trigger node => node.print layout

/-- The text of arguments, with the closing parenthesis. -/
def Argument.printList (layout : Layout) : List Argument → List Char
  | [] => [')']
  | [arg] => arg.print (layout.below 0) ++ (layout.gap 0 ++ [')'])
  | arg :: next :: args =>
      arg.print (layout.below 0)
        ++ (layout.gap 0 ++ ',' :: (layout.gap 1
          ++ Argument.printList (layout.below 1) (next :: args)))

end

-----------------------------------------------------------------------------------------
-- What the grammar can express
-----------------------------------------------------------------------------------------

namespace Node

/-- Whether a node is a date, a call or a group. -/
def isUnit : Node → Bool
  | .date .. | .call .. | .group .. => true
  | .both .. | .either .. => false

/-- Whether a node is units joined by ampersands, possibly only one. -/
def isEvery : Node → Bool
  | .either .. => false
  | .date .. | .call .. | .group .. | .both .. => true

end Node

mutual

/-- The grammar can express a node: years have four digits, calls have names, no argument is a bare
word, and operators stand in groups where they would bind differently.
-/
def Node.IsWritable : Node → Prop
  | .date value _ suffix => (0 ≤ value.year ∧ value.year ≤ 9999) ∧ suffix.IsWritable
  | .call name args _ suffix =>
      IsName name.toList ∧ Argument.AreWritable args ∧ suffix.IsWritable
  | .both left right =>
      (left.isEvery = true ∧ left.IsWritable) ∧ (right.isUnit = true ∧ right.IsWritable)
  | .either left right => left.IsWritable ∧ (right.isEvery = true ∧ right.IsWritable)
  | .group inner _ => inner.IsWritable

/-- The grammar can express an argument, and it is no bare word. -/
def Argument.IsWritable : Argument → Prop
  | .quoted .. => True
  | .bare .. => False
  | .trigger node => node.IsWritable

/-- The grammar can express arguments. -/
def Argument.AreWritable : List Argument → Prop
  | [] => True
  | arg :: args => arg.IsWritable ∧ Argument.AreWritable args

end

namespace Trigger

-----------------------------------------------------------------------------------------
-- Where a trigger ends
-----------------------------------------------------------------------------------------

/-- No annotation goes on with a text, and no ampersand joins it. -/
structure EndsPart (rest : List Char) : Prop extends EndsSuffix rest where
  both : ∀ offset, NoOperator '&' ⟨offset, rest⟩

/-- No annotation goes on with a text, and no operator joins it. -/
structure EndsNode (rest : List Char) : Prop extends EndsPart rest where
  either : ∀ offset, NoOperator '+' ⟨offset, rest⟩

theorem EndsArgument.of_gap {blanks : List Char} {found : Char}
    (all : ∀ c ∈ blanks, isSpaceOrTab c = true) (ends : found = ',' ∨ found = ')')
    (rest : List Char)
    : EndsArgument (blanks ++ found :: rest) := by
  rw [EndsArgument, List.dropWhile_append_of_pos all]
  rcases ends with rfl | rfl
  · exact .inl rfl
  · exact .inr rfl

/-- A trigger ends where an argument does. -/
theorem EndsArgument.endsNode {rest : List Char} (h : EndsArgument rest) : EndsNode rest := by
  have other {symbol : Char} (comma : symbol ≠ ',') (closing : symbol ≠ ')') (offset : Nat)
      : NoOperator symbol ⟨offset, rest⟩ := by
    rw [noOperator_iff]
    show (rest.dropWhile isSpaceOrTab).head? ≠ some symbol
    rcases h with h | h
    · rw [h]
      exact fun same => comma (Option.some.inj same).symm
    · rw [h]
      exact fun same => closing (Option.some.inj same).symm
  exact {
    stop := h.stops (by decide)
    period := fun offset => Period.read?_eq_none _ (h.stops (by decide))
    both := other (by decide) (by decide)
    either := other (by decide) (by decide)
  }

theorem endsNode_nil : EndsNode [] where
  stop := rfl
  period _ := Period.read?_eq_none _ rfl
  both _ := noOperator_iff.mpr nofun
  either _ := noOperator_iff.mpr nofun

theorem endsNode_hyphen (rest : List Char) : EndsNode (' ' :: '-' :: rest) := by
  have other {symbol : Char} (distinct : '-' ≠ symbol) (offset : Nat)
      : NoOperator symbol ⟨offset, ' ' :: '-' :: rest⟩ := by
    have all : ∀ c ∈ [' '], isSpaceOrTab c = true := List.all_eq_true.mp rfl
    exact (noOperator_append all rfl).mpr distinct
  exact {
    stop := rfl
    period := fun offset => read?_blank_eq_none rfl offset _
    both := other (by decide)
    either := other (by decide)
  }

-----------------------------------------------------------------------------------------
-- Pieces of a trigger are read from the texts of their parts
-----------------------------------------------------------------------------------------

/-- A node is spelled by a text as each piece that it can be. Behind a plus sign the text begins no
period.
-/
structure Spelled (node : Node) (text : List Char) : Prop where
  asUnit : node.isUnit = true → Spells .unit node text EndsSuffix
  asEvery : node.isEvery = true → Spells .every node text EndsSuffix
  asEither : Spells .either node text EndsPart
  period : ∀ rest offset, Period.read? ⟨offset, '+' :: (text ++ rest)⟩ = none

/-- An argument is spelled by a text in front of everything where arguments end. -/
structure SpelledArgument (arg : Argument) (text : List Char) : Prop where
  reads
    : ∀ rest, EndsArgument rest → ∀ offset, ∃ arg',
        arg'.plain = arg.plain
        ∧ Reads (.arg arg') ⟨offset, text ++ rest⟩ ⟨offset + byteLength text, rest⟩
  stop : ∀ rest, stops isSpaceOrTab (text ++ rest) = true

/-- Arguments are spelled by a text that does not begin with a blank. -/
structure SpelledArguments (args : List Argument) (text : List Char) : Prop where
  spells : SpellsArguments args text
  stop : ∀ rest, stops isSpaceOrTab (text ++ rest) = true

namespace Spelled

variable {node left right : Node} {text text' blanks blanks' : List Char} {suffix : Suffix}

theorem of_unit (spells : Spells .unit node text EndsSuffix)
    (period : ∀ rest offset, Period.read? ⟨offset, '+' :: (text ++ rest)⟩ = none)
    : Spelled node text where
  asUnit _ := spells
  asEvery _ := spells.single
  asEither :=
    (spells.single.mono fun _ behind => behind.toEndsSuffix).part fun _ behind => behind.both
  period := period

/-- A date is spelled by its text and that of its annotations. -/
theorem date {value : Date} (year : 0 ≤ value.year ∧ value.year ≤ 9999)
    (writable : suffix.IsWritable) (token : Span)
    : Spelled (.date value token suffix) (value.chars ++ suffix.chars) := by
  refine of_unit (.date (fun rest _ offset => Date.result?_read?_chars offset year _)
    (spellsSuffix_chars writable) token) fun rest offset => ?_
  rw [List.append_assoc]
  exact Period.read?_plus_date offset year _

/-- A call is spelled by its name, its arguments and its annotations. -/
theorem call {name : String} {args : List Argument} {inside : List Char}
    (named : IsName name.toList) (all : ∀ c ∈ blanks, isSpaceOrTab c = true)
    (arguments : SpelledArguments args inside) (writable : suffix.IsWritable) (token : Span)
    : Spelled (.call name args token suffix)
        (name.toList ++ '(' :: (blanks ++ (inside ++ suffix.chars))) := by
  have spells := Spells.call named.starts named.parts all arguments.stop arguments.spells
    (spellsSuffix_chars writable) token
  rw [String.ofList_toList] at spells
  refine of_unit spells fun rest offset => Period.read?_sign_eq_none _ (.inr rfl) ?_
  obtain ⟨starts, -⟩ := named
  generalize name.toList = letters at starts
  obtain _ | ⟨letter, letters⟩ := letters
  · cases starts
  · simpa using isDigit_of_isNameStart (by simpa using starts)

theorem group (all : ∀ c ∈ blanks, isSpaceOrTab c = true)
    (all' : ∀ c ∈ blanks', isSpaceOrTab c = true) (inside : Spelled node text) (span : Span)
    : Spelled (.group node span) ('(' :: (blanks ++ (text ++ (blanks' ++ [')'])))) := by
  refine of_unit (.group all all' inside.asEither (fun rest _ => ?_) span) ?_
  · exact (EndsArgument.of_gap all' (.inr rfl) rest).endsNode.toEndsPart
  · exact fun rest offset => Period.read?_sign_eq_none _ (.inr rfl) rfl

/-- Units are spelled with an ampersand between them. -/
theorem both (all : ∀ c ∈ blanks, isSpaceOrTab c = true)
    (all' : ∀ c ∈ blanks', isSpaceOrTab c = true) (isEvery : left.isEvery = true)
    (isUnit : right.isUnit = true) (first : Spelled left text) (second : Spelled right text')
    : Spelled (.both left right) (text ++ (blanks ++ '&' :: blanks' ++ text')) := by
  have spells : Spells .every (.both left right) (text ++ (blanks ++ '&' :: blanks' ++ text'))
      EndsSuffix :=
    (first.asEvery isEvery).both all all' (second.asUnit isUnit) fun rest _ => by
      rw [List.append_assoc]
      exact .of_gap all rfl (by decide) _
  exact {
    asUnit := nofun
    asEvery := fun _ => spells
    asEither := (spells.mono fun _ behind => behind.toEndsSuffix).part fun _ behind => behind.both
    period := fun rest offset => by
      rw [List.append_assoc]
      exact first.period _ _
  }

/-- A trigger ends at a plus sign in front of a part. -/
theorem endsPart_plus (all : ∀ c ∈ blanks, isSpaceOrTab c = true)
    (all' : ∀ c ∈ blanks', isSpaceOrTab c = true) (second : Spelled right text') (rest : List Char)
    : EndsPart (blanks ++ '+' :: blanks' ++ (text' ++ rest)) where
  stop := by
    rw [List.append_assoc]
    exact stops_gap all rfl _
  period offset := by
    -- with blanks around it the plus sign begins no period, and without them the part decides
    rcases read?_operator_eq_none all all' (.inr rfl) (text' ++ rest) with never | plus
    · exact never offset
    · rw [plus]
      exact second.period rest offset
  both offset := by
    rw [List.append_assoc]
    exact (noOperator_append all rfl).mpr (by decide)

theorem either (all : ∀ c ∈ blanks, isSpaceOrTab c = true)
    (all' : ∀ c ∈ blanks', isSpaceOrTab c = true) (isEvery : right.isEvery = true)
    (first : Spelled left text) (second : Spelled right text')
    : Spelled (.either left right) (text ++ (blanks ++ '+' :: blanks' ++ text')) where
  asUnit := nofun
  asEvery := nofun
  asEither := first.asEither.either all all'
    ((second.asEvery isEvery).mono fun _ behind => behind.toEndsSuffix)
    (fun rest _ => second.endsPart_plus all all' rest) fun _ behind => behind.both
  period rest offset := by
    rw [List.append_assoc]
    exact first.period _ _

theorem stop (h : Spelled node text) (rest : List Char)
    : stops isSpaceOrTab (text ++ rest) = true := by
  obtain ⟨found, -, read⟩ := h.asEither [] endsNode_nil.toEndsPart 0
  obtain _ | ⟨c, text⟩ := text
  · obtain ⟨first, more, empty, -⟩ := read.head trivial
    cases empty
  · simpa using read.stops_blanks trivial

end Spelled

namespace SpelledArgument

theorem quoted {quote : Char} (isQuote : quote = '"' ∨ quote = '\'') (value : String) (span : Span)
    : SpelledArgument (.quoted value span) (quotedChars quote value.toList) where
  reads rest _ offset := by
    have read := result_readArgument_quotedChars offset isQuote value.toList rest
    rw [String.ofList_toList] at read
    exact ⟨.quoted value ⟨offset, _⟩, rfl, .word read rfl⟩
  stop rest := by rcases isQuote with rfl | rfl <;> rfl

theorem trigger {node : Node} {text : List Char} (h : Spelled node text)
    : SpelledArgument (.trigger node) text where
  reads rest ends offset := by
    obtain ⟨found, same, read⟩ := h.asEither rest ends.endsNode.toEndsPart offset
    exact ⟨.trigger found, congrArg Argument.trigger same,
      .trigger read (ends.endsNode.either _) ((atArgumentEnd_iff _).mpr ends)⟩
  stop := h.stop

end SpelledArgument

namespace SpelledArguments

variable {arg next : Argument} {args : List Argument} {text text' blanks blanks' : List Char}

theorem nil : SpelledArguments [] [')'] where
  spells _ _ := ⟨[], rfl, .noArgs (Cursor.char?_cons_self ..)⟩
  stop _ := rfl

theorem last (all : ∀ c ∈ blanks, isSpaceOrTab c = true) (h : SpelledArgument arg text)
    : SpelledArguments [arg] (text ++ (blanks ++ [')'])) where
  spells rest offset := by
    obtain ⟨found, same, read⟩ := h.reads _ (.of_gap all (.inr rfl) rest) offset
    have closes := result?_charAfterBlanks?_append all (rfl : isSpaceOrTab ')' = false)
      (offset + byteLength text) rest
    refine ⟨[found], congrArg (fun arg => [arg]) same, (read.lastArg closes).cast (by simp) ?_⟩
    simp only [byteLength_append, Nat.add_assoc]
    rfl
  stop rest := by
    rw [List.append_assoc]
    exact h.stop _

/-- An argument is spelled with a comma in front of the others. -/
theorem cons (all : ∀ c ∈ blanks, isSpaceOrTab c = true)
    (all' : ∀ c ∈ blanks', isSpaceOrTab c = true) (h : SpelledArgument arg text)
    (more : SpelledArguments (next :: args) text')
    : SpelledArguments (arg :: next :: args) (text ++ (blanks ++ ',' :: (blanks' ++ text'))) where
  spells rest offset := by
    obtain ⟨found, same, read⟩ :=
      h.reads _ (.of_gap all (.inl rfl) (blanks' ++ (text' ++ rest))) offset
    have comma := result?_charAfterBlanks?_append all (rfl : isSpaceOrTab ',' = false)
      (offset + byteLength text) (blanks' ++ (text' ++ rest))
    have skipped := Cursor.skip_append isSpaceOrTab
      (offset + byteLength text + byteLength blanks + ','.utf8Size) all' (more.stop rest)
    obtain ⟨later, same', read'⟩ := more.spells rest
      (offset + byteLength text + byteLength blanks + ','.utf8Size + byteLength blanks')
    -- the rule for a comma asks for an argument behind it, and there is the next one
    obtain _ | ⟨second, later⟩ := later
    · cases same'
    · rw [← skipped] at read'
      refine ⟨found :: second :: later, ?_, (read.moreArgs comma read').cast (by simp) ?_⟩
      · rw [Argument.plainList_cons, same, same', Argument.plainList_cons arg]
      · simp only [byteLength_append, byteLength_cons, Nat.add_assoc]
  stop rest := by
    rw [List.append_assoc]
    exact h.stop _

end SpelledArguments

-----------------------------------------------------------------------------------------
-- The text of a trigger is read back
-----------------------------------------------------------------------------------------

-- Every text is made as the syntax is, so that the cases are those of the syntax.
mutual

/-- A node that the grammar can express is spelled by its text. -/
theorem spelled_print (layout : Layout) (node : Node) (writable : node.IsWritable)
    : Spelled node (node.print layout) := by
  cases node with
  | date value token suffix =>
      obtain ⟨year, annotated⟩ := writable
      exact .date year annotated token
  | call name args token suffix =>
      obtain ⟨named, inside, annotated⟩ := writable
      exact .call named (layout.isSpaceOrTab_of_mem_gap 0)
        (spelledArguments_print (layout.below 0) args inside) annotated token
  | both left right =>
      obtain ⟨⟨isEvery, first⟩, isUnit, second⟩ := writable
      exact .both (layout.isSpaceOrTab_of_mem_gap 0) (layout.isSpaceOrTab_of_mem_gap 1) isEvery
        isUnit (spelled_print (layout.below 0) left first)
        (spelled_print (layout.below 1) right second)
  | either left right =>
      obtain ⟨first, isEvery, second⟩ := writable
      exact .either (layout.isSpaceOrTab_of_mem_gap 0) (layout.isSpaceOrTab_of_mem_gap 1) isEvery
        (spelled_print (layout.below 0) left first) (spelled_print (layout.below 1) right second)
  | group inner span =>
      exact .group (layout.isSpaceOrTab_of_mem_gap 0) (layout.isSpaceOrTab_of_mem_gap 1)
        (spelled_print (layout.below 0) inner writable) span
termination_by sizeOf node

/-- An argument that the grammar can express is spelled by its text. -/
theorem spelledArgument_print (layout : Layout) (arg : Argument) (writable : arg.IsWritable)
    : SpelledArgument arg (arg.print layout) := by
  cases arg with
  | quoted value span => exact .quoted (layout.isQuote []) value span
  | bare value span => exact writable.elim
  | trigger node => exact .trigger (spelled_print layout node writable)
termination_by sizeOf arg

/-- Arguments that the grammar can express are spelled by their text. -/
theorem spelledArguments_print (layout : Layout) (args : List Argument)
    (writable : Argument.AreWritable args)
    : SpelledArguments args (Argument.printList layout args) := by
  match args, writable with
  | [], _ => exact .nil
  | [arg], ⟨writable, _⟩ =>
      exact .last (layout.isSpaceOrTab_of_mem_gap 0)
        (spelledArgument_print (layout.below 0) arg writable)
  | arg :: next :: args, ⟨first, more⟩ =>
      exact .cons (layout.isSpaceOrTab_of_mem_gap 0) (layout.isSpaceOrTab_of_mem_gap 1)
        (spelledArgument_print (layout.below 0) arg first)
        (spelledArguments_print (layout.below 1) (next :: args) more)
termination_by sizeOf args

end

/-- Parsing undoes printing: the text of a trigger that the grammar can express, with an ending that
is empty or begins with a space and a hyphen, is read as that trigger and that ending.
-/
theorem parse_print (layout : Layout) (node : Node) (writable : node.IsWritable)
    (ending : List Char) (ends : ending = [] ∨ ∃ rest, ending = ' ' :: '-' :: rest)
    : ∃ t,
        parse (String.ofList (node.print layout ++ ending)) = .ok t
        ∧ t.root.plain = node.plain
        ∧ t.endingText = String.ofList ending := by
  have behind : EndsNode ending := by
    rcases ends with rfl | ⟨rest, rfl⟩
    · exact endsNode_nil
    · exact endsNode_hyphen rest
  obtain ⟨found, same, read⟩ :=
    (spelled_print layout node writable).asEither ending behind.toEndsPart 0
  let text := String.ofList (node.print layout ++ ending)
  let stop := 0 + byteLength (node.print layout)
  let t : Trigger := ⟨text, found, ⟨stop, text.utf8ByteSize⟩⟩
  have readFrom : t.ReadFrom text ⟨stop, ending⟩ := by
    refine ⟨?_, behind.either _, rfl, rfl⟩
    rw [String.toList_ofList]
    exact read
  exact ⟨t, parse_eq_ok.mpr ⟨_, readFrom⟩, same, readFrom.endingText_eq⟩

/-- The layout with a space wherever blanks can stand, and with single quotes. -/
def spaced : Layout where
  blanks _ _ := [' ']
  quote _ := '\''
  areBlanks _ _ := List.all_eq_true.mp rfl
  isQuote _ := .inr rfl

/-- No annotations. -/
def noMarks : Suffix :=
  ⟨none, none, none, none, Span.none⟩

/-- All annotations. -/
def allMarks : Suffix :=
  ⟨some ⟨8, 30⟩, some ⟨0, -1, 0⟩, some 3, some ⟨true, ⟨1, 0, 2⟩⟩, Span.none⟩

/-- A date with all annotations and a call with two arguments, or the first day of the year zero. -/
def markedDate : Node :=
  .either
    (.both
      (.date (.ofParts 2024 2 29) Span.none allMarks)
      (.call "ref" [.quoted "a'b\\" Span.none, .trigger (.call "now" [] Span.none noMarks)]
        Span.none noMarks))
    (.group (.date (.ofParts 0 1 1) Span.none noMarks) Span.none)

/-- Blanks, escapes and annotations are read back together. -/
theorem parse_print_of_markedDate
    : markedDate.IsWritable
      ∧ ∃ t,
          parse
              "2024-02-29T08:30E-1M#3P!1Y2D & ref( 'a\\'b\\\\' , now( ) ) + ( 0000-01-01 ) - t"
            = .ok t
          ∧ t.root.plain = markedDate.plain
          ∧ t.endingText = " - t" := by
  have unmarked : noMarks.IsWritable := ⟨nofun, nofun⟩
  have writable : markedDate.IsWritable := by
    have marked : allMarks.IsWritable := by
      refine ⟨?_, ?_⟩
      · rintro _ ⟨rfl⟩
        exact ⟨by decide, by decide, by decide, by decide⟩
      · rintro _ ⟨rfl⟩
        exact ⟨by decide, by decide, by decide, by decide⟩
    have outer : IsName "ref".toList := ⟨rfl, List.all_eq_true.mp rfl⟩
    have inner : IsName "now".toList := ⟨rfl, List.all_eq_true.mp rfl⟩
    have arguments : Argument.AreWritable
        [.quoted "a'b\\" Span.none, .trigger (.call "now" [] Span.none noMarks)] :=
      ⟨trivial, ⟨inner, trivial, unmarked⟩, trivial⟩
    exact ⟨⟨⟨rfl, by decide, marked⟩, rfl, outer, arguments, unmarked⟩, rfl, by decide, unmarked⟩
  have text : String.ofList (markedDate.print spaced ++ " - t".toList)
      = "2024-02-29T08:30E-1M#3P!1Y2D & ref( 'a\\'b\\\\' , now( ) ) + ( 0000-01-01 ) - t" := by
    decide +kernel
  have read := parse_print spaced markedDate writable " - t".toList (.inr ⟨[' ', 't'], rfl⟩)
  rw [text] at read
  exact ⟨writable, read⟩

end Trigger

end DueTasks
