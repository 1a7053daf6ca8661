import DueTasks.Proofs.Trigger.Completion

/-! Where a name is no trigger.
Whatever a reader has read before it fails can be completed to what it should have read. So the
place of a syntax error is never behind the first character that cannot belong to a task name.
-/

namespace DueTasks

open Text Parsed

namespace Trigger

open Reply Text.Border

namespace Category

variable {offset : Nat} {text : List Char} {c m e d opened : Cursor}

-----------------------------------------------------------------------------------------
-- Annotations
-----------------------------------------------------------------------------------------

theorem offset_of_readTimeBehind {mark : Cursor} {fault : Fault}
    (fails : readTimeBehind mark = .error fault)
    : fault.offset = mark.offset := by
  unfold readTimeBehind at fails
  split at fails
  · cases fails
    rfl
  · split at fails
    · cases fails
      rfl
    · cases fails

theorem offset_of_priorityOf {mark : Cursor} {digits : List Char × Cursor} {fault : Fault}
    (fails : priorityOf mark digits = .error fault)
    : fault.offset = mark.offset := by
  unfold priorityOf at fails
  split at fails
  · cases fails
  · cases fails
    rfl

/-- Annotations that fail can be completed where they do, and begin with a mark. -/
theorem exists_marks {fault : Fault} (fails : (readSuffix c).result = .error fault)
    : ∃ mark ∈ suffixMarks, ∃ text d,
        Passage (mark :: text) c d
        ∧ fault.offset = d.offset
        ∧ marks.Begins c.offset (mark :: text) := by
  obtain ⟨mark, member, head⟩ := exists_mark_of_ne fun empty => by cases fails.symm.trans empty
  rw [result_readSuffix] at fails
  rcases bind_eq_error fails with fails | ⟨⟨time, t⟩, timed, fails⟩
  · rw [result_readTime] at fails
    split at fails
    · cases fails
    · rename_i found hf
      split at fails
      · cases fails
      · exact ⟨'T', by decide, [], found.2, Cursor.passage_of_char? hf,
          offset_of_readTimeBehind fails, marks_begins_time⟩
  · rcases bind_eq_error fails with fails | ⟨_, _, fails⟩
    · rw [result_readPriority] at fails
      split at fails
      · cases fails
      · rename_i found hf
        split at fails
        · cases fails
        · rename_i digits hd
          obtain ⟨chars, before, -⟩ := (within_of_readTime timed).trans (within_readEffective t)
          obtain ⟨number, all, some⟩ := Cursor.passage_of_run? hd
          obtain ⟨digit, more, first⟩ := List.exists_cons_of_ne_nil some
          have next : (readEffective t).next.rest = '#' :: digit :: (more ++ digits.2.rest) := by
            rw [(Cursor.of_char? hf).1, number.rest_eq, first]
            rfl
          have passage := before.append (Cursor.passage_of_char? hf)
          have begins := marks_begins_priority timed before next (all digit (by simp [first]))
          obtain ⟨first, text, whole⟩ := List.exists_cons_of_ne_nil (by simp : chars ++ ['#'] ≠ [])
          rw [whole] at passage begins
          obtain rfl : first = mark := by
            rw [passage.rest_eq] at head
            exact Option.some.inj head
          exact ⟨first, member, text, found.2, passage, offset_of_priorityOf fails, begins⟩
    · cases fails

-----------------------------------------------------------------------------------------
-- Cutting a trigger behind a word
-----------------------------------------------------------------------------------------

/-- Where a class stops, no more of it is taken than what stands before. -/
theorem takeWhile_append_prefix {belongs : Char → Bool} {rest : List Char} (chars : List Char)
    (stop : stops belongs rest = true)
    : (chars ++ rest).takeWhile belongs <+: chars := by
  have nothing : rest.takeWhile belongs = [] := Cursor.run_of_stops belongs 0 stop
  rw [List.takeWhile_append, nothing, List.append_nil]
  split
  · exact List.prefix_refl _
  · exact List.takeWhile_prefix _

/-- A word in front of a parenthesis is all that stands before it. -/
theorem word_eq_of_parenthesis {letters more word rest : List Char}
    (parts : ∀ found ∈ letters, isWordPart found = true)
    (all : ∀ found ∈ word, isWordPart found = true) (stop : stops isWordPart rest = true)
    (same : letters ++ '(' :: more = word ++ rest)
    : word = letters ∧ rest = '(' :: more := by
  have taken := Cursor.run_append isWordPart 0 all stop
  rw [← same, Cursor.run_append isWordPart 0 parts rfl] at taken
  subst taken
  exact ⟨rfl, (List.append_cancel_left same).symm⟩

/-- Where a word ends before an operator or within its blanks, a missing operand can follow these
blanks. Where it ends behind the operator, it is the operand that is cut.
-/
theorem Expects.begins_cut {whole operand : Category} (h : whole.Expects operand c e)
    (nothing : operand.Begins e.offset []) {word rest : List Char} (chars : c.rest = word ++ rest)
    (solid : stops isSpaceOrTab e.rest = true)
    (cut
      : ∀ more, e.rest = more ++ rest → more <:+ word
        → operand.Begins e.offset (more ++ rest.takeWhile isSpaceOrTab))
    : whole.Begins c.offset (word ++ rest.takeWhile isSpaceOrTab) := by
  obtain ⟨before, passage, complete⟩ := h
  rw [passage.rest_eq] at chars
  rcases List.append_eq_append_iff.mp chars with ⟨more, rfl, behind⟩ | ⟨gap, rfl, behind⟩
  · rw [List.append_assoc]
    exact complete _ (cut more behind (List.suffix_append _ _))
  · obtain ⟨more, taken⟩ := takeWhile_append_prefix gap solid
    have whole := complete [] nothing
    rw [List.append_nil, ← taken, ← List.append_assoc, ← behind] at whole
    exact whole.of_append

end Category

/-- The category of a piece. -/
def Piece.category : Piece → Category
  | .unit _ => .unit
  | .every _ => .part
  | .either _ => .trigger
  | .arg _ => .argument
  | .args _ => .arguments

section

open Category

/-- A trigger that leaves a word can be completed behind the word and the blanks that follow it, as
it has been read up to a name, a parenthesis or an operator there, by induction on the derivation.
-/
theorem Reads.begins_cut {piece : Piece} {c d : Cursor} (h : Reads piece c d) (node : piece.IsNode)
    {word rest : List Char} (chars : c.rest = word ++ rest)
    (all : ∀ found ∈ word, isWordPart found = true) (stop : stops isWordPart rest = true)
    (past : d.remaining < rest.length)
    : piece.category.Begins c.offset (word ++ rest.takeWhile isSpaceOrTab) := by
  induction h generalizing word with
  | @date c m d value suffix dated annotated =>
      -- a date does not leave the word
      have within : Within isUnitPart c d :=
        ((Date.within_of_read? dated).mono fun _ => isUnitPart_of_date).trans
          (within_of_readSuffix annotated).1
      obtain ⟨more, text, -⟩ := within.stays chars
        (stops_mono (fun _ => isWordPart_of_isUnitPart) stop)
      simp only [Cursor.remaining, text, List.length_append] at past
      omega
  | @call c m opened e d name args suffix starts named opens arguments annotated ih =>
      obtain ⟨blanks, opening⟩ := exists_callOpening starts named opens
      have parts (found : Char) (member : found ∈ name) : isWordPart found = true :=
        isWordPart_of_isNamePart (opening.parts found member)
      rw [opening.opening.rest_eq, List.append_assoc] at chars
      obtain ⟨rfl, rfl⟩ := word_eq_of_parenthesis parts all stop chars
      rw [List.takeWhile_cons_of_neg (by decide), List.append_nil]
      exact unit_begins_name opening.starts opening.parts
  | @group c opened e d inner opens inside closes ih =>
      rw [(Cursor.of_char? opens).1] at chars
      obtain ⟨rfl, rfl⟩ := word_eq_of_parenthesis (List.forall_mem_nil _) all stop chars
      exact unit_begins_nil
  | single unit ih => exact begins_part (ih trivial chars all past)
  | part every behind ih => exact begins_trigger (ih trivial chars all past)
  | both first sign second ih ih' =>
      refine (expects_both first sign).begins_cut unit_begins_nil chars ?_ ?_
      · obtain ⟨_, _, -, -, -, solid⟩ := passage_of_operator? sign
        exact solid
      · intro more behind suffix
        exact ih' trivial behind (fun found member => all found (suffix.subset member)) past
  | either first sign second behind ih ih' =>
      refine (expects_either first sign).begins_cut (begins_part unit_begins_nil) chars ?_ ?_
      · obtain ⟨_, _, -, -, -, solid⟩ := passage_of_operator? sign
        exact solid
      · intro more behind suffix
        exact ih' trivial behind (fun found member => all found (suffix.subset member)) past
  | word | trigger | noArgs | lastArg | moreArgs => exact node.elim

end

namespace Category

-----------------------------------------------------------------------------------------
-- Arguments that have been read
-----------------------------------------------------------------------------------------

/-- An argument is read between two places in front of every text where arguments end. -/
def Rereads (c m : Cursor) : Prop :=
  ∃ chars, Passage chars c m
    ∧ ∀ rest, EndsArgument rest → argument.Read ⟨c.offset, chars ++ rest⟩ ⟨m.offset, rest⟩

/-- An argument was taken as a word as the trigger that begins there goes on behind the word. -/
def LeavesWord (c m : Cursor) : Prop :=
  m = c.skip isWordPart ∧ ∃ node d, (readNode c).result = .ok (node, d) ∧ d.remaining < m.remaining

theorem rereads_of_readQuotedArgument {quote : Char} {arg : Argument}
    (isQuote : quote = '"' ∨ quote = '\'') (opens : result? (c.char? quote) = some ((), opened))
    (read : readQuotedArgument quote c opened = .ok (arg, m))
    : Rereads c m := by
  unfold readQuotedArgument at read
  split at read
  · cases read
  · rename_i found hf
    cases read
    obtain ⟨inside, within, again⟩ := passage_of_readQuoted? hf
    have opening := Cursor.passage_of_char? opens
    refine ⟨_, opening.append within, fun rest _ => ?_⟩
    have plain : quote ≠ '\\' := by rcases isQuote with rfl | rfl <;> decide
    have behind := again plain rest
    rw [opening.offset_eq] at behind
    have first (chars : List Char)
        : (readArgument ⟨c.offset, quote :: chars⟩).result
          = readQuotedArgument quote ⟨c.offset, quote :: chars⟩
              ⟨c.offset + byteLength [quote], chars⟩ := by
      rw [result_readArgument, Cursor.result?_char?_cons, Cursor.result?_char?_cons]
      rcases isQuote with rfl | rfl <;> rfl
    have read
        : (readArgument ⟨c.offset, [quote] ++ inside ++ rest⟩).result
          = .ok (.quoted (String.ofList found.1) ⟨c.offset, found.2.offset⟩,
              ⟨found.2.offset, rest⟩) := by
      rw [List.append_assoc, List.singleton_append, first, readQuotedArgument, behind]
      rfl
    exact ⟨_, .word read rfl⟩

/-- What was taken as a word is an argument in front of other texts as well, unless a trigger begins
there that leaves the word.
-/
theorem rereads_of_readWord {arg : Argument} (read : (readWord c).result = .ok (arg, m))
    (free : ∀ fault, (readNode c).result = .error fault → fault.committed = false)
    : Rereads c m ∨ LeavesWord c m := by
  refine Classical.or_iff_not_imp_right.mpr fun stays => ?_
  have place := readWord_next read
  have some : c.run isWordPart ≠ [] := by
    rintro none
    rw [result_readWord, Cursor.result?_run?, if_pos none] at read
    cases read
  obtain ⟨split, all, stop⟩ := c.run_split isWordPart
  rw [← place] at split stop
  refine ⟨c.run isWordPart, .of_eq split (by rw [place]; rfl), fun rest ends => ?_⟩
  let b : Border := ⟨c.offset, c.offset, m.rest, rest⟩
  have cuts : b.CutsWord := ⟨stop, .inr ends⟩
  have beside : b.Beside ⟨c.offset, c.run isWordPart ++ m.rest⟩
      ⟨c.offset, c.run isWordPart ++ rest⟩ := .intro 0 _
  rw [← split] at beside
  have follows := readNode_follows_word cuts beside ⟨_, split, all⟩
  have free'
      : ∀ fault,
          (readNode ⟨c.offset, c.run isWordPart ++ rest⟩).result = .error fault
          → fault.committed = false := by
    intro fault fails
    rw [fails] at follows
    generalize left : (readNode c).result = answer at follows
    cases follows with
    | final committed =>
        rw [free _ left] at committed
        cases committed
    | rejected _ free' => exact free'
    | lost passed => exact absurd ⟨place, _, _, left, passed⟩ stays
  obtain ⟨arg', plain, -⟩ := readPlainArgument_of_free some all ends free'
  have again := (readArgument_word some all c.offset).trans plain
  rw [show c.offset + byteLength (c.run isWordPart) = m.offset by rw [place]; rfl] at again
  exact ⟨arg', reads_of_readArgument again⟩

/-- What was read as an argument is one in front of other texts as well, unless it was taken as a
word that a trigger leaves.
-/
theorem rereads_of_readArgument {arg : Argument} (read : (readArgument c).result = .ok (arg, m))
    : Rereads c m ∨ LeavesWord c m := by
  rw [result_readArgument] at read
  split at read
  · exact .inl (rereads_of_readQuotedArgument (.inl rfl) ‹_› read)
  · exact .inl (rereads_of_readQuotedArgument (.inr rfl) ‹_› read)
  · unfold readPlainArgument at read
    split at read
    · rename_i node hn
      split at read
      · cases read
        obtain ⟨chars, passage, again⟩ := (reads_of_readNode hn).1.stays trivial
        refine .inl ⟨chars, passage, fun rest ends => ⟨.trigger node.1, ?_⟩⟩
        exact .trigger (again rest (ends.endsNode.exchange _)) (ends.endsNode.either _)
          ((atArgumentEnd_iff _).mpr ends)
      · exact rereads_of_readWord read fun fault fails => by cases hn.symm.trans fails
    · rename_i fault hf
      split at read
      · cases read
      · rename_i free
        refine rereads_of_readWord read fun fault' fails => ?_
        cases hf.symm.trans fails
        exact Bool.eq_false_iff.mpr free

/-- Behind an argument the parenthesis can be closed. -/
theorem arguments_beginsTo_close {arg : Argument} (read : (readArgument c).result = .ok (arg, m))
    : arguments.BeginsTo c m.skipBlanks.offset := by
  have blanks : Passage (m.run isSpaceOrTab) m m.skipBlanks :=
    .of_eq (m.run_split isSpaceOrTab).1 rfl
  rcases rereads_of_readArgument read with ⟨chars, passage, again⟩ | ⟨place, node, d, node_, past⟩
  · refine ⟨_, _, passage.append blanks, rfl, [')'], fun rest _ => ?_⟩
    have all := (m.run_split isSpaceOrTab).2.1
    obtain ⟨arg', last⟩ := again _ (.of_gap all (.inr rfl) rest)
    have closes :=
      result?_charAfterBlanks?_append all (rfl : isSpaceOrTab ')' = false) m.offset rest
    refine ⟨arg', [], (last.lastArg closes).cast (by simp) ?_⟩
    rw [passage.offset_eq]
    simp only [byteLength_append, Nat.add_assoc]
    rfl
  · obtain ⟨split, all, stop⟩ := c.run_split isWordPart
    rw [← place] at split stop
    have word : Passage (c.run isWordPart) c m := .of_eq split (by rw [place]; rfl)
    have cut := (reads_of_readNode node_).1.begins_cut trivial split all stop past
    exact ⟨_, _, word.append blanks, rfl, begins_arguments (begins_argument cut)⟩

/-- Behind a comma another argument is expected. -/
theorem expects_more {arg : Argument} (read : (readArgument c).result = .ok (arg, m))
    (comma : result? (m.charAfterBlanks? ',') = some ((), e))
    : arguments.Expects arguments c e.skipBlanks := by
  have ended : atArgumentEnd m = true := by
    rw [Cursor.result?_charAfterBlanks?] at comma
    rw [atArgumentEnd, Cursor.sees, (Cursor.of_char? comma).1]
    rfl
  rcases rereads_of_readArgument read with ⟨chars, passage, again⟩ | ⟨place, node, d, node_, past⟩
  · obtain ⟨blanks, separating, all⟩ := Cursor.passage_of_charAfterBlanks? comma
    obtain ⟨blanks', skipped, all'⟩ := e.within_skipBlanks
    have opening := passage.append (separating.append skipped)
    refine ⟨_, opening, fun text begins => ?_⟩
    rw [opening.offset_eq] at begins
    refine .within [] begins (fun _ _ => trivial) ?_
    rintro more stop rest - ⟨next, args, inside⟩
    obtain ⟨arg', first⟩ := again _ (.of_gap all (.inl rfl) (blanks' ++ (text ++ more)))
    have comma' := result?_charAfterBlanks?_append all (rfl : isSpaceOrTab ',' = false) m.offset
      (blanks' ++ (text ++ more))
    have place : c.offset + byteLength (chars ++ (blanks ++ [','] ++ blanks'))
        = m.offset + byteLength blanks + ','.utf8Size + byteLength blanks' := by
      rw [passage.offset_eq]
      simp only [byteLength_append, Nat.add_assoc]
      rfl
    have skipped' := Cursor.skip_append isSpaceOrTab
      (m.offset + byteLength blanks + ','.utf8Size) all' inside.stops_arguments
    rw [place, ← skipped'] at inside
    exact ⟨arg', next :: args, (first.moreArgs comma' inside).cast (by simp) rfl⟩
  · rw [place] at ended past
    exact absurd past (Nat.not_lt.mpr (readNode_remaining node_ ended))

-----------------------------------------------------------------------------------------
-- Whatever has been read can be completed
-----------------------------------------------------------------------------------------

/-- Where nothing has been read yet, a date can follow. -/
theorem unit_beginsTo_here (c : Cursor) : unit.BeginsTo c c.offset :=
  ⟨[], c, .nil c, rfl, unit_begins_nil⟩

/-- A name without a call can be completed. -/
theorem unit_beginsTo_name {name : List Char} (starts : c.rest.head?.any isNameStart = true)
    (named : result? (c.run? isNamePart) = some (name, m))
    : unit.BeginsTo c m.offset := by
  obtain ⟨naming, parts, some⟩ := Cursor.passage_of_run? named
  rw [naming.rest_eq] at starts
  obtain ⟨letter, letters, rfl⟩ := List.exists_cons_of_ne_nil some
  exact ⟨_, m, naming, rfl, unit_begins_name starts parts⟩

/-- A date can be completed where its annotations fail. -/
theorem unit_beginsTo_date {value : Date} {fault : Fault}
    (dated : result? (Date.read? c) = some (value, m))
    (fails : (readSuffix m).result = .error fault)
    : unit.BeginsTo c fault.offset := by
  obtain ⟨token, before, -⟩ := Date.within_of_read? dated
  obtain ⟨mark, member, text, d, passage, place, begins⟩ := exists_marks fails
  exact ⟨_, d, before.append passage, place, unit_begins_date dated before member begins⟩

theorem marks_beginsTo {fault : Fault} (fails : (readSuffix c).result = .error fault)
    : marks.BeginsTo c fault.offset := by
  obtain ⟨mark, -, text, d, passage, place, begins⟩ := exists_marks fails
  exact ⟨_, d, passage, place, begins⟩

-- Each statement is about the faults of one reader, and the recursion is that of the readers.
mutual

/-- What has been read of a unit can be completed. -/
theorem beginsTo_of_readUnit {c : Cursor} {fault : Fault}
    (fails : (readUnit c).result = .error fault)
    : unit.BeginsTo c fault.offset := by
  rw [result_readUnit] at fails
  split at fails
  · rename_i opening ho
    have := Parsed.remaining_lt ho
    have := opening.2.remaining_skipBlanks_le
    rw [result_readGroup] at fails
    rcases bind_eq_error fails with fails | ⟨inner, hi, fails⟩
    · obtain ⟨fault', fails, place⟩ := final_eq_error fails
      rw [place]
      exact (expects_group ho).beginsTo (beginsTo_of_readNode fails)
    · split at fails
      · cases fails
        exact unit_beginsTo_close ho (reads_of_readNode (final_eq_ok hi)).1
      · cases fails
  · split at fails
    · rw [result_readDate] at fails
      split at fails
      · cases fails
        exact unit_beginsTo_here c
      · rename_i date hd
        rcases bind_eq_error fails with fails | ⟨_, _, fails⟩
        · exact unit_beginsTo_date hd fails
        · cases fails
    · split at fails
      · rename_i start
        unfold readNamed at fails
        split at fails
        · cases fails
          exact unit_beginsTo_here c
        · rename_i name hn
          split at fails
          · cases fails
            exact unit_beginsTo_name start hn
          · rename_i opening ho
            have := Parsed.remaining_lt hn
            have := Parsed.remaining_lt ho
            have := opening.2.remaining_skipBlanks_le
            obtain ⟨blanks, called⟩ := exists_callOpening start hn ho
            rw [result_readCall] at fails
            rcases bind_eq_error fails with fails | ⟨args, ha, fails⟩
            · obtain ⟨fault', fails, place⟩ := final_eq_error fails
              rw [place]
              exact (expects_call called).beginsTo (beginsTo_of_readArguments fails)
            · rcases bind_eq_error fails with fails | ⟨_, _, fails⟩
              · have read := reads_of_readArguments (final_eq_ok ha)
                exact (expects_marks called read).beginsTo (marks_beginsTo fails)
              · cases fails
      · cases fails
        exact unit_beginsTo_here c
termination_by (c.remaining, 1)

/-- What has been read of more units can be completed with what stands before them. -/
theorem beginsTo_of_readBoth {c m : Cursor} {left : Node} {fault : Fault}
    (before : Reads (.every left) c m) (fails : (readBoth left m).result = .error fault)
    : part.BeginsTo c fault.offset := by
  rw [result_readBoth] at fails
  split at fails
  · cases fails
  · rename_i sign hs
    have := Parsed.remaining_lt hs
    rcases bind_eq_error fails with fails | ⟨right, hr, fails⟩
    · obtain ⟨fault', fails, place⟩ := final_eq_error fails
      rw [place]
      exact (expects_both before hs).beginsTo (beginsTo_of_readUnit fails)
    · have := Reply.remaining_lt (final_eq_ok hr)
      exact beginsTo_of_readBoth (.both before hs (reads_of_readUnit (final_eq_ok hr))) fails
termination_by (m.remaining, 0)

/-- What has been read of a part can be completed. -/
theorem beginsTo_of_readEvery {c : Cursor} {fault : Fault}
    (fails : (readEvery c).result = .error fault)
    : part.BeginsTo c fault.offset := by
  rw [result_readEvery] at fails
  rcases bind_eq_error fails with fails | ⟨first, hf, fails⟩
  · exact (beginsTo_of_readUnit fails).imp fun _ => begins_part
  · have := Reply.remaining_lt hf
    exact beginsTo_of_readBoth (.single (reads_of_readUnit hf)) fails
termination_by (c.remaining, 2)

/-- What has been read of more parts can be completed with what stands before them. -/
theorem beginsTo_of_readEither {c m : Cursor} {left : Node} {fault : Fault}
    (before : Reads (.either left) c m) (fails : (readEither left m).result = .error fault)
    : trigger.BeginsTo c fault.offset := by
  rw [result_readEither] at fails
  split at fails
  · cases fails
  · rename_i sign hs
    have := Parsed.remaining_lt hs
    rcases bind_eq_error fails with fails | ⟨right, hr, fails⟩
    · obtain ⟨fault', fails, place⟩ := final_eq_error fails
      rw [place]
      exact (expects_either before hs).beginsTo (beginsTo_of_readEvery fails)
    · have := Reply.remaining_lt (final_eq_ok hr)
      obtain ⟨part, stop⟩ := reads_of_readEvery (final_eq_ok hr)
      exact beginsTo_of_readEither (.either before hs part stop) fails
termination_by (m.remaining, 0)

/-- What has been read of a trigger can be completed. -/
theorem beginsTo_of_readNode {c : Cursor} {fault : Fault}
    (fails : (readNode c).result = .error fault)
    : trigger.BeginsTo c fault.offset := by
  rw [result_readNode] at fails
  rcases bind_eq_error fails with fails | ⟨first, hf, fails⟩
  · exact (beginsTo_of_readEvery fails).imp fun _ => begins_trigger
  · have := Reply.remaining_lt hf
    obtain ⟨part, stop⟩ := reads_of_readEvery hf
    exact beginsTo_of_readEither (.part part stop) fails
termination_by (c.remaining, 3)

/-- What has been read of the arguments of a call can be completed. -/
theorem beginsTo_of_readArguments {c : Cursor} {fault : Fault}
    (fails : (readArguments c).result = .error fault)
    : arguments.BeginsTo c fault.offset := by
  rw [result_readArguments] at fails
  split at fails
  · cases fails
  · exact beginsTo_of_readSomeArguments fails
termination_by (c.remaining, 7)

/-- What has been read of one or more arguments can be completed. -/
theorem beginsTo_of_readSomeArguments {c : Cursor} {fault : Fault}
    (fails : (readSomeArguments c).result = .error fault)
    : arguments.BeginsTo c fault.offset := by
  rw [result_readSomeArguments] at fails
  rcases bind_eq_error fails with fails | ⟨arg, ha, fails⟩
  · exact (beginsTo_of_readArgument fails).imp fun _ => begins_arguments
  · have := Reply.remaining_lt ha
    unfold readMoreArguments at fails
    split at fails
    · cases fails
    · split at fails
      · cases fails
        exact arguments_beginsTo_close ha
      · rename_i comma hc
        have := Parsed.remaining_lt hc
        have := comma.2.remaining_skipBlanks_le
        rcases bind_eq_error fails with fails | ⟨_, _, fails⟩
        · exact (expects_more ha hc).beginsTo (beginsTo_of_readSomeArguments fails)
        · cases fails
termination_by (c.remaining, 6)

/-- What has been read of an argument can be completed. -/
theorem beginsTo_of_readArgument {c : Cursor} {fault : Fault}
    (fails : (readArgument c).result = .error fault)
    : argument.BeginsTo c fault.offset := by
  -- an argument that fails at its start can be any trigger
  have here : argument.BeginsTo c c.offset :=
    (unit_beginsTo_here c).imp fun _ begins =>
      begins_argument (begins_trigger (begins_part begins))
  have quoted {quote : Char} {c' : Cursor}
      (fails : readQuotedArgument quote c c' = .error fault)
      : argument.BeginsTo c fault.offset := by
    unfold readQuotedArgument at fails
    split at fails
    · cases fails
      exact here
    · cases fails
  have bare (fails : (readWord c).result = .error fault) : argument.BeginsTo c fault.offset := by
    rw [result_readWord] at fails
    split at fails
    · cases fails
      exact here
    · cases fails
  rw [result_readArgument] at fails
  split at fails
  · exact quoted fails
  · exact quoted fails
  · unfold readPlainArgument at fails
    split at fails
    · split at fails
      · cases fails
      · exact bare fails
    · rename_i other hn
      split at fails
      · cases fails
        exact (beginsTo_of_readNode hn).imp fun _ => begins_argument
      · exact bare fails
termination_by (c.remaining, 5)

end

end Category

end Trigger

-----------------------------------------------------------------------------------------
-- Syntax errors
-----------------------------------------------------------------------------------------

namespace SyntaxError

/-- A syntax error points behind a text: its line counts the line breaks in that text, and its
column the characters behind the last one of them.
-/
structure PointsBehind (error : SyntaxError) (before : List Char) : Prop where
  line : error.line = before.count '\n' + 1
  column
    : ∃ earlier last,
        before = earlier ++ last
        ∧ (earlier = [] ∨ earlier.getLast? = some '\n')
        ∧ '\n' ∉ last
        ∧ error.column = last.length + 1

/-- The error at the offset behind a text points behind that text. -/
theorem pointsBehind_atOffset {text : String} {before after : List Char}
    (split : text.toList = before ++ after) (expected : Expectation)
    : (atOffset text (byteLength before) expected).PointsBehind before := by
  have taken : takeBytes (byteLength before) text.toList = before := by
    rw [split, takeBytes_append]
  let isOther (c : Char) : Bool := c ≠ '\n'
  -- the last line is a run from the end
  obtain ⟨lines, all, stop⟩ := Cursor.run_split ⟨0, before.reverse⟩ isOther
  have ends : (before.reverse.dropWhile isOther).reverse = []
      ∨ (before.reverse.dropWhile isOther).reverse.getLast? = some '\n' := by
    rw [List.getLast?_reverse, List.reverse_eq_nil_iff]
    cases earlier : before.reverse.dropWhile isOther with
    | nil => exact .inl rfl
    | cons c rest =>
        have breaks : stops isOther (before.reverse.dropWhile isOther) = true := stop
        rw [earlier, stops_cons] at breaks
        exact .inr (by simpa [isOther] using breaks)
  refine ⟨congrArg (List.count '\n' · + 1) taken, _, (before.reverse.takeWhile isOther).reverse, ?_,
    ends, ?_, ?_⟩
  · rw [← List.reverse_append, List.takeWhile_append_dropWhile, List.reverse_reverse]
  · intro member
    have other := all '\n' (List.mem_reverse.mp member)
    simp [isOther] at other
  · rw [atOffset, taken, List.length_reverse]

end SyntaxError

namespace Trigger

open Reply

/-- A syntax error points behind a part of the name that can be completed to a task name, and so not
behind the first character that makes the name invalid.
-/
theorem parse_error_pointsBehind {text : String} {error : SyntaxError}
    (rejected : parse text = .error error)
    : ∃ before after,
        text.toList = before ++ after
        ∧ error.PointsBehind before
        ∧ (∃ more t, parse (String.ofList (before ++ more)) = .ok t)
        ∧ ∀ invalid, invalid <+: text.toList
          → (∀ more t, parse (String.ofList (invalid ++ more)) ≠ .ok t)
          → before.length < invalid.length := by
  rw [result_parse] at rejected
  split at rejected
  · cases rejected
  · rename_i fault fails
    cases rejected
    obtain ⟨before, d, passage, place, more, reads⟩ := Category.beginsTo_of_readNode fails
    have split : text.toList = before ++ d.rest := passage.rest_eq
    have offset : fault.offset = byteLength before := by
      rw [place, passage.offset_eq]
      exact Nat.zero_add _
    have complete : ∃ t, parse (String.ofList (before ++ more)) = .ok t := by
      obtain ⟨root, read⟩ := reads [] endsNode_nil
      rw [List.append_nil] at read
      let name := String.ofList (before ++ more)
      let t : Trigger := ⟨name, root, ⟨0 + byteLength (before ++ more), name.utf8ByteSize⟩⟩
      have readFrom : t.ReadFrom name ⟨0 + byteLength (before ++ more), []⟩ := by
        refine ⟨?_, endsNode_nil.either _, rfl, rfl⟩
        rw [String.toList_ofList]
        exact read
      exact ⟨t, parse_eq_ok.mpr ⟨_, readFrom⟩⟩
    refine ⟨before, d.rest, split, ?_, ⟨more, complete⟩, fun invalid isPrefix never => ?_⟩
    · rw [offset]
      exact SyntaxError.pointsBehind_atOffset split _
    · refine Nat.lt_of_not_le fun le => ?_
      obtain ⟨rest, rfl⟩ := List.prefix_of_prefix_length_le isPrefix
        (split ▸ List.prefix_append before d.rest) le
      obtain ⟨t, parsed⟩ := complete
      rw [List.append_assoc] at parsed
      exact never _ t parsed

/-- A time of day without minutes, as an argument in the second line of a call. -/
theorem parse_brokenTime
    : parse "f('ä\n', 2020T9)" = .error ⟨"f('ä\n', 2020T9)", 2, 9, .timeOfDay⟩ := by
  have quoted : (readArgument ⟨2, "'ä\n', 2020T9)".toList⟩).result
      = .ok (.quoted "ä\n" ⟨2, 7⟩, ⟨7, ", 2020T9)".toList⟩) := by
    rw [result_readArgument]
    rfl
  have unit : (readUnit ⟨9, "2020T9)".toList⟩).result = .error ⟨14, .timeOfDay, true⟩ := by
    rw [result_readUnit]
    rfl
  have plain : (readArgument ⟨9, "2020T9)".toList⟩).result = .error ⟨14, .timeOfDay, true⟩ := by
    rw [result_readArgument]
    show readPlainArgument _ = _
    rw [readPlainArgument, result_readNode, result_readEvery, unit]
    rfl
  have more : (readSomeArguments ⟨9, "2020T9)".toList⟩).result = .error ⟨14, .timeOfDay, true⟩ := by
    rw [result_readSomeArguments, plain]
    rfl
  have arguments
      : (readArguments ⟨2, "'ä\n', 2020T9)".toList⟩).result = .error ⟨14, .timeOfDay, true⟩ := by
    have closing : result? (Cursor.charAfterBlanks? ⟨7, ", 2020T9)".toList⟩ ')') = none := rfl
    have comma : result? (Cursor.charAfterBlanks? ⟨7, ", 2020T9)".toList⟩ ',')
        = some ((), ⟨8, " 2020T9)".toList⟩) := rfl
    rw [result_readArguments]
    show (readSomeArguments _).result = _
    rw [result_readSomeArguments, quoted, ok_bind, readMoreArguments, closing]
    simp only
    rw [comma]
    simp only
    show (readSomeArguments ⟨9, "2020T9)".toList⟩).result >>= _ = _
    rw [more]
    rfl
  have call : readNamed ⟨0, "f('ä\n', 2020T9)".toList⟩ = .error ⟨14, .timeOfDay, true⟩ := by
    have name : result? (Cursor.run? ⟨0, "f('ä\n', 2020T9)".toList⟩ isNamePart)
        = some (['f'], ⟨1, "('ä\n', 2020T9)".toList⟩) := rfl
    have opening : result? (Cursor.char? ⟨1, "('ä\n', 2020T9)".toList⟩ '(')
        = some ((), ⟨2, "'ä\n', 2020T9)".toList⟩) := rfl
    rw [readNamed, name]
    simp only
    rw [opening]
    simp only
    rw [result_readCall]
    show final (readArguments ⟨2, "'ä\n', 2020T9)".toList⟩).result >>= _ = _
    rw [arguments]
    rfl
  have first : (readUnit ⟨0, "f('ä\n', 2020T9)".toList⟩).result
      = .error ⟨14, .timeOfDay, true⟩ := by
    rw [result_readUnit]
    exact call
  have node : (readNode (Cursor.start "f('ä\n', 2020T9)".toList)).result
      = .error ⟨14, .timeOfDay, true⟩ := by
    rw [result_readNode, result_readEvery, Cursor.start, first]
    rfl
  rw [result_parse, node]
  rfl

/-- The error points behind the mark of the time of day, which can be completed. -/
theorem parse_error_pointsBehind_of_brokenTime
    : parse "f('ä\n', 2020T9)" = .error ⟨"f('ä\n', 2020T9)", 2, 9, .timeOfDay⟩
      ∧ ∃ before after,
          "f('ä\n', 2020T9)".toList = before ++ after
          ∧ SyntaxError.PointsBehind ⟨"f('ä\n', 2020T9)", 2, 9, .timeOfDay⟩ before
          ∧ (∃ more t, parse (String.ofList (before ++ more)) = .ok t)
          ∧ ∀ invalid, invalid <+: "f('ä\n', 2020T9)".toList
            → (∀ more t, parse (String.ofList (invalid ++ more)) ≠ .ok t)
            → before.length < invalid.length :=
  ⟨parse_brokenTime, parse_error_pointsBehind parse_brokenTime⟩

end Trigger

end DueTasks
