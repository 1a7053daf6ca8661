import DueTasks.Proofs.Task.Quotes
import DueTasks.Proofs.Trigger.Parsing

/-! What triggers and their faults take over from a name.
The texts in a trigger are parts of the name that it is read from, so that they have no line feed if
the name has none. What was expected at a fault never has one.
-/

namespace DueTasks

open Text Parsed

-----------------------------------------------------------------------------------------
-- Texts of triggers
-----------------------------------------------------------------------------------------

theorem Text.dropBytes_sublist (count : Nat) (chars : List Char)
    : (dropBytes count chars).Sublist chars := by
  fun_induction dropBytes count chars with
  | case1 => exact .refl _
  | case2 => exact .refl _
  | case3 count c chars ih => exact ih.cons c

theorem Text.takeBytes_sublist (count : Nat) (chars : List Char)
    : (takeBytes count chars).Sublist chars := by
  fun_induction takeBytes count chars with
  | case1 => exact List.nil_sublist _
  | case2 => exact .refl _
  | case3 count c chars ih => exact ih.cons_cons c

mutual

/-- No name and no word in a node has a line feed. -/
def Node.IsOneLine : Node → Prop
  | .date .. => True
  | .call name args _ _ => Text.IsOneLine name ∧ Argument.AreOneLine args
  | .both left right => left.IsOneLine ∧ right.IsOneLine
  | .either left right => left.IsOneLine ∧ right.IsOneLine
  | .group inner _ => inner.IsOneLine

/-- No name and no word in an argument has a line feed. -/
def Argument.IsOneLine : Argument → Prop
  | .quoted value _ => Text.IsOneLine value
  | .bare value _ => Text.IsOneLine value
  | .trigger node => node.IsOneLine

/-- No name and no word in some arguments has a line feed. -/
def Argument.AreOneLine : List Argument → Prop
  | [] => True
  | arg :: args => arg.IsOneLine ∧ Argument.AreOneLine args

end

/-- What is missing behind the start of a passage is missing behind its end. -/
theorem Text.Passage.not_mem {chars : List Char} {c d : Cursor} {char : Char}
    (passage : Passage chars c d) (missing : char ∉ c.rest)
    : char ∉ d.rest := by
  rw [passage.rest_eq, List.mem_append, not_or] at missing
  exact missing.2

namespace Trigger

open Reply

/-- The text of a stretch of a name of one line is one line. -/
theorem isOneLine_text {t : Trigger} (plain : IsOneLine t.source) (span : Span)
    : IsOneLine (t.text span) := by
  rw [text, isOneLine_ofList]
  intro member
  have dropped := (takeBytes_sublist _ _).subset member
  exact plain ((dropBytes_sublist _ _).subset dropped)

theorem isOneLine_literal {t : Trigger} (plain : IsOneLine t.source) {arg : Argument}
    (argument : arg.IsOneLine)
    : IsOneLine (t.literal arg) := by
  cases arg with
  | quoted value span | bare value span => exact argument
  | trigger node => exact isOneLine_text plain _

/-- No name and no word in a piece of a trigger has a line feed. -/
def Piece.IsOneLine : Piece → Prop
  | .unit node => node.IsOneLine
  | .every node => node.IsOneLine
  | .either node => node.IsOneLine
  | .arg argument => argument.IsOneLine
  | .args arguments => Argument.AreOneLine arguments

/-- A quoted text is a part of what it is read from, by induction on the characters. -/
theorem subset_of_readQuoted? {quote : Char} {offset : Nat} {chars : List Char}
    {found : List Char × Cursor} (read : readQuoted? quote offset chars = some found)
    : found.1 ⊆ chars := by
  fun_induction readQuoted? quote offset chars generalizing found with
  | case1 => cases read
  | case2 offset c rest _ ih =>
      obtain ⟨inner, hi, rfl⟩ := Option.map_eq_some_iff.mp read
      exact List.subset_cons_of_subset _ (List.cons_subset_cons c (ih hi))
  | case3 => cases read
  | case4 =>
      cases read
      exact List.nil_subset _
  | case5 => cases read
  | case6 offset c rest _ _ _ ih =>
      obtain ⟨inner, hi, rfl⟩ := Option.map_eq_some_iff.mp read
      exact List.cons_subset_cons c (ih hi)

theorem isOneLine_of_readQuotedArgument {quote : Char} {start c d : Cursor} {arg : Argument}
    (plain : '\n' ∉ c.rest) (read : readQuotedArgument quote start c = .ok (arg, d))
    : arg.IsOneLine := by
  unfold readQuotedArgument at read
  split at read
  · cases read
  · rename_i found quoted
    cases read
    rw [Argument.IsOneLine, isOneLine_ofList]
    exact fun member => plain (subset_of_readQuoted? quoted member)

/-- No part of a word without quotes is a line feed. -/
theorem isOneLine_of_readWord {c d : Cursor} {arg : Argument}
    (read : (readWord c).result = .ok (arg, d))
    : arg.IsOneLine := by
  rw [result_readWord] at read
  split at read
  · cases read
  · rename_i word run
    cases read
    rw [Argument.IsOneLine, isOneLine_ofList]
    exact fun member => absurd ((Cursor.passage_of_run? run).2.1 _ member) (by decide)

/-- A word has no line feed if what it is read from has none. -/
theorem isOneLine_of_readArgument {c d : Cursor} {arg : Argument} (plain : '\n' ∉ c.rest)
    (word : arg.word?.isSome = true) (read : (readArgument c).result = .ok (arg, d))
    : arg.IsOneLine := by
  have behind {quote : Char} {opening : Unit × Cursor}
      (opens : result? (c.char? quote) = some opening)
      : '\n' ∉ opening.2.rest :=
    (Cursor.passage_of_char? opens).not_mem plain
  rw [result_readArgument] at read
  split at read
  · exact isOneLine_of_readQuotedArgument (behind ‹result? (c.char? '"') = _›) read
  · exact isOneLine_of_readQuotedArgument (behind ‹result? (c.char? '\'') = _›) read
  · unfold readPlainArgument at read
    split at read
    · split at read
      · cases read
        cases word
      · exact isOneLine_of_readWord read
    · split at read
      · cases read
      · exact isOneLine_of_readWord read

/-- A piece has no line feed if what it is read from has none, by induction on the derivation. -/
theorem Reads.isOneLine {piece : Piece} {c d : Cursor} (h : Reads piece c d)
    (plain : '\n' ∉ c.rest)
    : piece.IsOneLine := by
  induction h with
  | date => exact True.intro
  | call starts named opens _ _ ih =>
      obtain ⟨blanks, opening⟩ := exists_callOpening starts named opens
      refine ⟨?_, ih (opening.opening.not_mem plain)⟩
      rw [isOneLine_ofList]
      exact fun member => absurd (opening.parts _ member) (by decide)
  | @group c opened e d inner opens _ _ ih =>
      obtain ⟨blanks, skipped, _⟩ := opened.within_skipBlanks
      exact ih (skipped.not_mem ((Cursor.passage_of_char? opens).not_mem plain))
  | single _ ih => exact ih plain
  | both first sign _ ih ih' | either first sign _ _ ih ih' =>
      obtain ⟨read, passage, _⟩ := first.passage
      obtain ⟨_, _, joining, _⟩ := passage_of_operator? sign
      exact ⟨ih plain, ih' (joining.not_mem (passage.not_mem plain))⟩
  | part _ _ ih => exact ih plain
  | word read word => exact isOneLine_of_readArgument plain word read
  | trigger _ _ _ ih => exact ih plain
  | noArgs => exact True.intro
  | lastArg _ _ ih => exact ⟨ih plain, True.intro⟩
  | @moreArgs c m e d arg next args first comma _ ih ih' =>
      obtain ⟨read, passage, _⟩ := first.passage
      obtain ⟨_, joining, _⟩ := Cursor.passage_of_charAfterBlanks? comma
      obtain ⟨_, skipped, _⟩ := e.within_skipBlanks
      exact ⟨ih plain, ih' (skipped.not_mem (joining.not_mem (passage.not_mem plain)))⟩

end Trigger

-----------------------------------------------------------------------------------------
-- Faults
-----------------------------------------------------------------------------------------

namespace Reply

variable {α β : Type} {answer : Except Fault α}

/-- What was expected at a fault is told in one line. -/
def IsPlain (answer : Except Fault α) : Prop :=
  ∀ fault, answer = .error fault → AllOneLine fault.expected.quoted

theorem isPlain_ok (found : α) : IsPlain (.ok found) :=
  nofun

/-- A fault that quotes nothing is told in one line. -/
theorem isPlain_error {fault : Fault} (quotes : fault.expected.quoted = [])
    : IsPlain (.error fault : Except Fault α) := by
  rintro _ ⟨⟩
  rw [quotes]
  exact allOneLine_nil

theorem IsPlain.bind {more : α → Except Fault β} (h : IsPlain answer)
    (rest : ∀ found, answer = .ok found → IsPlain (more found))
    : IsPlain (answer >>= more) := by
  intro fault failed
  rcases bind_eq_error failed with failed | ⟨value, found, failed⟩
  · exact h fault failed
  · exact rest value found fault failed

theorem IsPlain.final (h : IsPlain answer) : IsPlain (Reply.final answer) := by
  intro fault failed
  cases answer with
  | error other =>
      cases failed
      exact h other rfl
  | ok found => cases failed

end Reply

namespace Trigger

open Reply

theorem isPlain_readTime (c : Cursor) : IsPlain (readTime c).result := by
  rw [result_readTime]
  split
  · exact isPlain_ok _
  · split
    · exact isPlain_ok _
    · unfold readTimeBehind
      split
      · exact isPlain_error rfl
      · split
        · exact isPlain_error rfl
        · exact isPlain_ok _

theorem isPlain_readPriority (c : Cursor) : IsPlain (readPriority c).result := by
  rw [result_readPriority]
  split
  · exact isPlain_ok _
  · split
    · exact isPlain_ok _
    · unfold priorityOf
      split
      · exact isPlain_ok _
      · exact isPlain_error rfl

theorem isPlain_readSuffix (c : Cursor) : IsPlain (readSuffix c).result := by
  rw [result_readSuffix]
  exact (isPlain_readTime c).bind fun _ _ =>
    (isPlain_readPriority _).bind fun _ _ => isPlain_ok _

theorem isPlain_readDate (c : Cursor) : IsPlain (readDate c).result := by
  rw [result_readDate]
  split
  · exact isPlain_error rfl
  · exact (isPlain_readSuffix _).bind fun _ _ => isPlain_ok _

theorem isPlain_readWord (c : Cursor) : IsPlain (readWord c).result := by
  rw [result_readWord]
  split
  · exact isPlain_error rfl
  · exact isPlain_ok _

theorem isPlain_readQuotedArgument (quote : Char) (start c : Cursor)
    : IsPlain (readQuotedArgument quote start c) := by
  unfold readQuotedArgument
  split
  · exact isPlain_error rfl
  · exact isPlain_ok _

-- Each statement is about one reader, and the recursion is that of the readers.
mutual

/-- Of all readers only that of a call quotes what it found, namely the name of the call. -/
theorem isPlain_readUnit (c : Cursor) : IsPlain (readUnit c).result := by
  rw [result_readUnit]
  split
  · rename_i opening opens
    have := Parsed.remaining_lt opens
    have := opening.2.remaining_skipBlanks_le
    rw [result_readGroup]
    refine (isPlain_readNode _).final.bind fun inner _ => ?_
    split
    · exact isPlain_error rfl
    · exact isPlain_ok _
  · split
    · exact isPlain_readDate c
    · split
      · unfold readNamed
        split
        · exact isPlain_error rfl
        · rename_i name named
          split
          · rintro _ ⟨⟩
            refine allOneLine_cons.mpr ⟨?_, allOneLine_nil⟩
            rw [isOneLine_ofList]
            exact fun member => absurd ((Cursor.passage_of_run? named).2.1 _ member) (by decide)
          · rename_i opening opens
            have := Parsed.remaining_lt named
            have := Parsed.remaining_lt opens
            have := opening.2.remaining_skipBlanks_le
            rw [result_readCall]
            refine (isPlain_readArguments _).final.bind fun args _ => ?_
            exact (isPlain_readSuffix _).bind fun _ _ => isPlain_ok _
      · exact isPlain_error rfl
termination_by (c.remaining, 1)

theorem isPlain_readBoth (left : Node) (c : Cursor) : IsPlain (readBoth left c).result := by
  rw [result_readBoth]
  split
  · exact isPlain_ok _
  · rename_i sign signed
    have := Parsed.remaining_lt signed
    refine (isPlain_readUnit _).final.bind fun right read => ?_
    have := Reply.remaining_lt (final_eq_ok read)
    exact isPlain_readBoth _ _
termination_by (c.remaining, 0)

theorem isPlain_readEvery (c : Cursor) : IsPlain (readEvery c).result := by
  rw [result_readEvery]
  refine (isPlain_readUnit c).bind fun first read => ?_
  have := Reply.remaining_lt read
  exact isPlain_readBoth _ _
termination_by (c.remaining, 2)

theorem isPlain_readEither (left : Node) (c : Cursor) : IsPlain (readEither left c).result := by
  rw [result_readEither]
  split
  · exact isPlain_ok _
  · rename_i sign signed
    have := Parsed.remaining_lt signed
    refine (isPlain_readEvery _).final.bind fun right read => ?_
    have := Reply.remaining_lt (final_eq_ok read)
    exact isPlain_readEither _ _
termination_by (c.remaining, 0)

theorem isPlain_readNode (c : Cursor) : IsPlain (readNode c).result := by
  rw [result_readNode]
  refine (isPlain_readEvery c).bind fun first read => ?_
  have := Reply.remaining_lt read
  exact isPlain_readEither _ _
termination_by (c.remaining, 3)

theorem isPlain_readArguments (c : Cursor) : IsPlain (readArguments c).result := by
  rw [result_readArguments]
  split
  · exact isPlain_ok _
  · exact isPlain_readSomeArguments c
termination_by (c.remaining, 7)

theorem isPlain_readSomeArguments (c : Cursor) : IsPlain (readSomeArguments c).result := by
  rw [result_readSomeArguments]
  refine (isPlain_readArgument c).bind fun arg read => ?_
  have := Reply.remaining_lt read
  unfold readMoreArguments
  split
  · exact isPlain_ok _
  · split
    · exact isPlain_error rfl
    · rename_i comma commas
      have := Parsed.remaining_lt commas
      have := comma.2.remaining_skipBlanks_le
      exact (isPlain_readSomeArguments _).bind fun _ _ => isPlain_ok _
termination_by (c.remaining, 6)

theorem isPlain_readArgument (c : Cursor) : IsPlain (readArgument c).result := by
  rw [result_readArgument]
  split
  · exact isPlain_readQuotedArgument _ _ _
  · exact isPlain_readQuotedArgument _ _ _
  · have node := isPlain_readNode c
    unfold readPlainArgument
    split
    · split
      · exact isPlain_ok _
      · exact isPlain_readWord c
    · rename_i fault failed
      split
      · rintro _ ⟨⟩
        exact node fault failed
      · exact isPlain_readWord c
termination_by (c.remaining, 5)

end

-----------------------------------------------------------------------------------------
-- Names
-----------------------------------------------------------------------------------------

/-- From a name of one line a trigger of such texts is read, or an error that quotes only such
texts.
-/
theorem parse_isOneLine {name : String} (plain : IsOneLine name)
    : match parse name with
      | .ok t => IsOneLine t.source ∧ t.root.IsOneLine
      | .error error => AllOneLine error.quoted := by
  rw [result_parse]
  cases read : (readNode (Cursor.start name.toList)).result with
  | ok found => exact ⟨plain, (reads_of_readNode read).1.isOneLine plain⟩
  | error fault =>
      exact allOneLine_cons.mpr ⟨plain, isPlain_readNode _ fault read⟩

end Trigger

end DueTasks
