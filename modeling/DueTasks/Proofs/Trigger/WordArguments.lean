import DueTasks.Proofs.Trigger.Assembly
import DueTasks.Proofs.Trigger.Parsing
import DueTasks.Proofs.Trigger.WordEnds

/-! Words as arguments.
A word can stand as the argument of a call, whether or not it is a trigger, unless it begins with a
date: from there on a fault is final, and the word must be one from which a trigger can be read.
-/

namespace DueTasks

open Text Parsed

namespace Text.Border

/-- In both texts nothing or a closing parenthesis stands behind the border. -/
structure AtWordEnd (b : Border) : Prop where
  tail : b.tail = [] ∨ ∃ rest, b.tail = ')' :: rest
  tail' : b.tail' = [] ∨ ∃ rest, b.tail' = ')' :: rest

variable {b : Border}

namespace AtWordEnd

variable (ends : b.AtWordEnd)

include ends

theorem swap : (Border.mk b.base' b.base b.tail' b.tail).AtWordEnd :=
  ⟨ends.tail', ends.tail⟩

theorem endsWord : Trigger.EndsWord b.tail := by
  rcases ends.tail with none | ⟨rest, close⟩
  · exact .inl (by rw [none]; rfl)
  · exact .inr (.inr (by rw [close]; rfl))

theorem cutsWord : b.CutsWord :=
  ⟨ends.endsWord.stops_isWordPart, ends.swap.endsWord⟩

end AtWordEnd

end Text.Border

namespace Trigger

open Reply Text.Border

-----------------------------------------------------------------------------------------
-- A trigger is read from a word alike whether or not a parenthesis is behind it
-----------------------------------------------------------------------------------------

/-- A word from which a trigger is read can be read at the other place too. -/
theorem exists_readNode_inWord {b : Border} (ends : b.AtWordEnd) {c c' d : Cursor} {node : Node}
    (h : b.Beside c c') (inside : InWord b.tail c) (read : (readNode c).result = .ok (node, d))
    : ∃ found, (readNode c').result = .ok found := by
  have follows := readNode_follows_word ends.cutsWord h inside
  obtain ⟨word, text, -⟩ := readNode_inWord ends.endsWord inside read
  rw [read] at follows
  generalize (readNode c').result = right at follows ⊢
  cases follows with
  | lost passed =>
      have before : b.tail.length ≤ d.remaining := by
        rw [Cursor.remaining, text, List.length_append]
        omega
      exact absurd passed (Nat.not_lt.mpr before)
  | found moved places => exact ⟨_, rfl⟩

-----------------------------------------------------------------------------------------
-- Words that begin with a date
-----------------------------------------------------------------------------------------

/-- A text begins with four digits, and so with a date. -/
def BeginsWithYear (chars : List Char) : Prop :=
  (chars.take 4).length = 4 ∧ (chars.take 4).all Char.isDigit = true

instance (chars : List Char) : Decidable (BeginsWithYear chars) :=
  inferInstanceAs (Decidable (_ ∧ _))

theorem read?_eq_none_iff {offset : Nat} {chars : List Char}
    : Date.read? ⟨offset, chars⟩ = none ↔ ¬ BeginsWithYear chars := by
  rw [← result?_eq_none, Date.result?_read?, Option.map_eq_none_iff, Cursor.result?_digits?]
  split
  · rename_i year
    exact iff_of_false nofun fun other => other year
  · rename_i other
    exact iff_of_true rfl other

/-- A closing parenthesis is not one of the digits of a year. -/
theorem beginsWithYear_append {word rest : List Char}
    : BeginsWithYear (word ++ ')' :: rest) ↔ BeginsWithYear word := by
  by_cases short : word.length < 4
  · refine iff_of_false ?_ ?_
    · rintro ⟨-, digits⟩
      have member : ')' ∈ (word ++ ')' :: rest).take 4 := by
        rw [List.take_append, show 4 - word.length = (3 - word.length) + 1 by omega,
          List.take_succ_cons]
        exact List.mem_append_right _ List.mem_cons_self
      exact absurd (List.all_eq_true.mp digits _ member) (by decide)
    · rintro ⟨length, -⟩
      rw [List.length_take] at length
      omega
  · rw [BeginsWithYear, List.take_append_of_le_length (Nat.le_of_not_lt short)]
    exact Iff.rfl

section

variable {ending : List Char} {c : Cursor} (ends : EndsWord ending) (inside : InWord ending c)

include ends inside

/-- Where a word does not begin with a date, it is not a trigger but may still be a word. -/
theorem InWord.readNode_of_none (none : Date.read? c = none)
    : ∃ fault, fault.committed = false ∧ (readNode c).result = .error fault := by
  have unit : ∃ fault, fault.committed = false ∧ (readUnit c).result = .error fault := by
    rw [result_readUnit, inside.char? ends, result?_none]
    simp only
    split
    · rw [result_readDate, none]
      exact ⟨_, rfl, rfl⟩
    · split
      · exact inside.readNamed ends
      · exact ⟨_, rfl, rfl⟩
  obtain ⟨fault, free, fails⟩ := unit
  rw [result_readNode, result_readEvery, fails]
  exact ⟨fault, free, rfl⟩

/-- Where a word begins with a date, every fault is final. -/
theorem InWord.final_readNode {date : Parsed Date c.remaining} (dated : Date.read? c = some date)
    : Final (readNode c).result := by
  have digit := Date.head_isDigit (congrArg result? dated)
  rw [result_readNode, result_readEvery, result_readUnit, inside.char? ends, result?_none]
  simp only [digit, if_true, result_readDate, dated, result?_some]
  refine (((final_readSuffix _).bind fun _ _ => final_ok _).bind fun _ _ => ?_).bind fun _ _ => ?_
  · exact final_readBoth _ _
  · exact final_readEither _ _

end

-----------------------------------------------------------------------------------------
-- A call whose only argument is a word
-----------------------------------------------------------------------------------------

section

variable {word rest : List Char} (some : word ≠ []) (all : ∀ c ∈ word, isWordPart c = true)

include some all

/-- A word that does not begin with a date, or that a trigger can be read from, is read as one
argument.
-/
theorem readPlainArgument_word {offset : Nat}
    (readable
      : BeginsWithYear word
        → ∃ found, (readNode ⟨offset, word ++ ')' :: rest⟩).result = .ok found)
    : ∃ arg,
        readPlainArgument ⟨offset, word ++ ')' :: rest⟩
            = .ok (arg, ⟨offset + byteLength word, ')' :: rest⟩)
          ∧ arg.span = ⟨offset, offset + byteLength word⟩
          ∧ (arg.word? = none ∨ arg.word? = Option.some (String.ofList word)) := by
  have ends : EndsArgument (')' :: rest) := .inr rfl
  refine readPlainArgument_of_free some all ends fun fault fails => ?_
  by_cases year : BeginsWithYear word
  · obtain ⟨found, read⟩ := readable year
    cases fails.symm.trans read
  · have none : Date.read? ⟨offset, word ++ ')' :: rest⟩ = none :=
      read?_eq_none_iff.mpr (mt beginsWithYear_append.mp year)
    obtain ⟨fault', free, fails'⟩ := InWord.readNode_of_none (.inr ends) ⟨word, rfl, all⟩ none
    cases fails.symm.trans fails'
    exact free

end

section

variable {name word : List Char} (starts : name.head?.any isNameStart = true)
  (letters : ∀ c ∈ name, isNamePart c = true) (some : word ≠ [])
  (all : ∀ c ∈ word, isWordPart c = true)

include starts letters some all

/-- A call is read from its name and a word that can be read as an argument. -/
theorem parse_call_word {arg : Argument} {stop : Nat}
    (read
      : (readArgument ⟨byteLength name + 1, word ++ [')']⟩).result = .ok (arg, ⟨stop, [')']⟩))
    : ∃ t,
        parse (String.ofList (name ++ '(' :: (word ++ [')']))) = .ok t
        ∧ t.source = String.ofList (name ++ '(' :: (word ++ [')']))
        ∧ t.root
          = .call (String.ofList name) [arg] ⟨0, stop + 1⟩
              ⟨none, none, none, none, ⟨stop + 1, stop + 1⟩⟩
        ∧ t.endingText = "" := by
  have solid : stops isSpaceOrTab (word ++ [')']) = true := by
    obtain ⟨first, more, rfl⟩ := List.exists_cons_of_ne_nil some
    simpa using isSpaceOrTab_of_isWordPart (all first List.mem_cons_self)
  have argument
      : Reads (.args [arg]) ⟨0 + byteLength name + 1 + 0, word ++ [')']⟩ ⟨stop + 1, []⟩ := by
    rw [Nat.zero_add]
    exact .lastArg (reads_of_readArgument read) rfl
  have call := Reads.call_append starts letters (List.forall_mem_nil _) solid argument rfl
  let text := String.ofList (name ++ '(' :: (word ++ [')']))
  let t : Trigger :=
    ⟨text, .call (String.ofList name) [arg] ⟨0, stop + 1⟩
      ⟨none, none, none, none, ⟨stop + 1, stop + 1⟩⟩, ⟨stop + 1, text.utf8ByteSize⟩⟩
  have from_ : t.ReadFrom text ⟨stop + 1, []⟩ := by
    refine ⟨?_, rfl, rfl, rfl⟩
    rw [String.toList_ofList]
    exact .part (.single call) rfl
  exact ⟨t, parse_eq_ok.mpr ⟨_, from_⟩, rfl, rfl, from_.endingText_eq⟩

/-- Where the word cannot be read as an argument, there is no call. -/
theorem parse_call_fault {fault : Fault}
    (fails : (readArgument ⟨byteLength name + 1, word ++ [')']⟩).result = .error fault)
    : ∃ error, parse (String.ofList (name ++ '(' :: (word ++ [')']))) = .error error := by
  obtain ⟨first, more, rfl⟩ := List.exists_cons_of_ne_nil some
  have part := all first List.mem_cons_self
  have solid : stops isSpaceOrTab (first :: more ++ [')']) = true := by
    simpa using isSpaceOrTab_of_isWordPart part
  have open_ : result? (Cursor.char? ⟨byteLength name + 1, first :: more ++ [')']⟩ ')') = none := by
    rw [List.cons_append, Cursor.result?_char?_cons, if_neg]
    rintro rfl
    exact absurd part (by decide)
  have arguments
      : (readArguments ⟨byteLength name + 1, first :: more ++ [')']⟩).result = .error fault := by
    rw [result_readArguments, open_, result_readSomeArguments, fails]
    rfl
  have begins : (name ++ '(' :: (first :: more ++ [')'])).head?.any isNameStart = true := by
    rw [head?_name starts]
    exact starts
  have digit : (name ++ '(' :: (first :: more ++ [')'])).head?.any Char.isDigit = false := by
    cases head : (name ++ '(' :: (first :: more ++ [')'])).head? with
    | none => rfl
    | some letter =>
        rw [head] at begins
        exact isDigit_of_isNameStart begins
  have unit
      : (readUnit ⟨0, name ++ '(' :: (first :: more ++ [')'])⟩).result
        = .error { fault with committed := true } := by
    rw [result_readUnit, char?_of_any begins '(' (by decide)]
    simp only [digit, begins, if_true, Bool.false_eq_true, if_false, readNamed]
    rw [run?_name starts letters]
    have opened
        : Cursor.skipBlanks ⟨0 + byteLength name + '('.utf8Size, first :: more ++ [')']⟩
          = ⟨byteLength name + 1, first :: more ++ [')']⟩ := by
      rw [Cursor.skipBlanks, Nat.zero_add]
      exact Cursor.skip_append isSpaceOrTab _ (List.forall_mem_nil _) solid
    simp only [Cursor.char?_cons_self]
    rw [result_readCall, opened, arguments]
    rfl
  rw [result_parse, String.toList_ofList, Cursor.start, result_readNode, result_readEvery, unit]
  exact ⟨_, rfl⟩

omit starts letters some in
/-- A trigger can be read from a word in front of a parenthesis exactly if the word is a task
name.
-/
theorem exists_readNode_iff (offset : Nat)
    : (∃ found, (readNode ⟨offset, word ++ [')']⟩).result = .ok found)
      ↔ ∃ t, parse (String.ofList word) = .ok t := by
  have alone : (∃ found, (readNode ⟨0, word ++ []⟩).result = .ok found)
      ↔ ∃ t, parse (String.ofList word) = .ok t := by
    rw [List.append_nil, result_parse, String.toList_ofList, Cursor.start]
    cases (readNode ⟨0, word⟩).result with
    | ok found => exact iff_of_true ⟨found, rfl⟩ ⟨_, rfl⟩
    | error fault =>
        refine iff_of_false ?_ ?_
        · rintro ⟨found, read⟩
          cases read
        · rintro ⟨t, parsed⟩
          cases parsed
  have ends : (Border.mk offset 0 [')'] []).AtWordEnd := ⟨.inr ⟨[], rfl⟩, .inl rfl⟩
  rw [← alone]
  constructor
  · rintro ⟨found, read⟩
    exact exists_readNode_inWord ends (.intro 0 word) ⟨word, rfl, all⟩ read
  · rintro ⟨found, read⟩
    exact exists_readNode_inWord ends.swap (.intro 0 word) ⟨word, rfl, all⟩ read

/-- A word that begins with a date and is no task name is final, and no call is read. -/
theorem parse_call_unreadable (year : BeginsWithYear word)
    (unreadable : ∀ t, parse (String.ofList word) ≠ .ok t)
    : ∃ error, parse (String.ofList (name ++ '(' :: (word ++ [')']))) = .error error := by
  cases read : (readNode ⟨byteLength name + 1, word ++ [')']⟩).result with
  | ok found =>
      obtain ⟨t, parsed⟩ := (exists_readNode_iff all _).mp ⟨found, read⟩
      exact absurd parsed (unreadable t)
  | error fault =>
      have dated : Date.read? ⟨byteLength name + 1, word ++ [')']⟩ ≠ none := fun none =>
        read?_eq_none_iff.mp none (beginsWithYear_append.mpr year)
      obtain ⟨date, dated⟩ := Option.ne_none_iff_exists'.mp dated
      have final : fault.committed = true :=
        InWord.final_readNode (.inr (.inr rfl)) ⟨word, rfl, all⟩ dated fault read
      have fails
          : (readArgument ⟨byteLength name + 1, word ++ [')']⟩).result = .error fault := by
        rw [readArgument_word some all, readPlainArgument, read]
        exact if_pos final
      exact parse_call_fault starts letters some all fails

/-- A call whose only argument is a word without quotes is read with that one argument, taken
literally as it stands, unless the word begins with a date and is no task name itself. Then the call
is not read.
-/
theorem parse_wordArgument
    : let text := String.ofList (name ++ '(' :: (word ++ [')']))
      ((BeginsWithYear word → ∃ t, parse (String.ofList word) = .ok t)
        → ∃ t arg token suffix,
            parse text = .ok t
            ∧ t.root = .call (String.ofList name) [arg] token suffix
            ∧ t.literal arg = String.ofList word
            ∧ t.endingText = "")
      ∧ (BeginsWithYear word
        → (∀ t, parse (String.ofList word) ≠ .ok t)
        → ∃ error, parse text = .error error) := by
  intro text
  constructor
  · intro readable
    have readable' (year : BeginsWithYear word) :=
      (exists_readNode_iff all (byteLength name + 1)).mpr (readable year)
    obtain ⟨arg, plain, span, literal⟩ := readPlainArgument_word some all readable'
    have read := (readArgument_word some all (byteLength name + 1)).trans plain
    obtain ⟨t, parsed, source, root, ending⟩ := parse_call_word starts letters some all read
    refine ⟨t, arg, _, _, parsed, root, ?_, ending⟩
    rcases literal with trigger | bare
    · have whole : name ++ '(' :: (word ++ [')']) = (name ++ ['(']) ++ word ++ [')'] := by
        simp only [List.append_assoc, List.cons_append, List.nil_append]
      have before : byteLength name + 1 = byteLength (name ++ ['(']) := by
        rw [byteLength_append]
        rfl
      rw [literal, trigger, Option.getD_none, Trigger.text, source, String.toList_ofList, span,
        whole, before, slice_append]
    · rw [literal, bare, Option.getD_some]
  · intro year unreadable
    exact parse_call_unreadable starts letters some all year unreadable

end

-----------------------------------------------------------------------------------------
-- Words that begin with a year
-----------------------------------------------------------------------------------------

/-- The first day of 2020, at the start of a text. -/
def leadingYear : Node :=
  .date (.ofParts 2020 1 1) ⟨0, 4⟩ ⟨none, none, none, none, ⟨4, 4⟩⟩

/-- A word that begins with a year and goes on with a letter is an argument. -/
theorem parse_wordArgument_of_letter
    : BeginsWithYear "2020x".toList
      ∧ ∃ t arg token suffix,
          parse "f(2020x)" = .ok t
          ∧ t.root = .call "f" [arg] token suffix
          ∧ t.literal arg = "2020x"
          ∧ t.endingText = "" := by
  have name : ∀ c ∈ ['f'], isNamePart c = true := List.all_eq_true.mp rfl
  have word : ∀ c ∈ "2020x".toList, isWordPart c = true := List.all_eq_true.mp rfl
  have dated : result? (Date.read? ⟨0, "2020x".toList⟩)
      = some (.ofParts 2020 1 1, ⟨4, ['x']⟩) := rfl
  have annotated : (readSuffix ⟨4, ['x']⟩).result
      = .ok (⟨none, none, none, none, ⟨4, 4⟩⟩, ⟨4, ['x']⟩) := rfl
  have year : parse "2020x" = .ok ⟨"2020x", leadingYear, ⟨4, 5⟩⟩ :=
    parse_of_every (.single (.date dated annotated)) rfl rfl
  have read := (parse_wordArgument rfl name (List.cons_ne_nil _ _) word).1 fun _ => ⟨_, year⟩
  exact ⟨by decide, read⟩

/-- Behind a plus sign there has to be a date or a call. -/
theorem parse_danglingOperator (t : Trigger) : parse "2020+x" ≠ .ok t := by
  have date
      : (readDate ⟨0, "2020+x".toList⟩).result = .ok (leadingYear, ⟨4, "+x".toList⟩) := rfl
  have unit : (readUnit ⟨0, "2020+x".toList⟩).result = .ok (leadingYear, ⟨4, "+x".toList⟩) := by
    rw [result_readUnit]
    exact date
  have both : (readBoth leadingYear ⟨4, "+x".toList⟩).result
      = .ok (leadingYear, ⟨4, "+x".toList⟩) := by
    rw [result_readBoth]
    rfl
  have every : (readEvery ⟨5, "x".toList⟩).result = .error ⟨6, .openAfter "x", false⟩ := by
    rw [result_readEvery, result_readUnit]
    rfl
  have either : (readEither leadingYear ⟨4, "+x".toList⟩).result
      = .error ⟨6, .openAfter "x", true⟩ := by
    have sign : result? (operator? '+' ⟨4, "+x".toList⟩) = some ((), ⟨5, "x".toList⟩) := rfl
    rw [result_readEither, sign]
    simp only [every]
    rfl
  have node : (readNode (Cursor.start "2020+x".toList)).result
      = .error ⟨6, .openAfter "x", true⟩ := by
    rw [result_readNode, result_readEvery, Cursor.start, unit, ok_bind, both, ok_bind, either]
  rw [result_parse, node]
  intro parsed
  cases parsed

/-- A word that begins with a year is not an argument where it goes on like a trigger and is
none.
-/
theorem parse_call_danglingOperator
    : (∀ c ∈ "2020+x".toList, isWordPart c = true)
      ∧ ∃ error, parse "f(2020+x)" = .error error := by
  have name : ∀ c ∈ ['f'], isNamePart c = true := List.all_eq_true.mp rfl
  have word : ∀ c ∈ "2020+x".toList, isWordPart c = true := List.all_eq_true.mp rfl
  have fails := parse_call_unreadable rfl name (List.cons_ne_nil _ _) word
    (by decide) parse_danglingOperator
  exact ⟨word, fails⟩

end Trigger

end DueTasks
