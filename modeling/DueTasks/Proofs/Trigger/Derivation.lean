import DueTasks.Proofs.Trigger.NodeReading

/-! What the grammar derives is what the readers find.
A derivation tells how a piece of a trigger is put together between two places of a text. The leaves
are what the readers of dates, annotations and words find; above them, every way to read a piece is
one rule.
-/

namespace DueTasks

open Text Parsed

namespace Trigger

open Reply

-----------------------------------------------------------------------------------------
-- The grammar
-----------------------------------------------------------------------------------------

/-- A piece of a trigger, with the part of the grammar that it stands for. -/
inductive Piece where
  /-- A date, a call or a group. -/
  | unit (node : Node)
  /-- Units joined by ampersands, to which more may be joined. -/
  | every (node : Node)
  /-- Parts joined by plus signs, to which more may be joined. -/
  | either (node : Node)
  /-- An argument. -/
  | arg (arg : Argument)
  /-- The arguments of a call, with the closing parenthesis. -/
  | args (args : List Argument)

/-- No more can be joined with an operator. -/
def NoOperator (symbol : Char) (c : Cursor) : Prop :=
  operator? symbol c = none

/-- A piece is read from one place up to another one. -/
inductive Reads : Piece → Cursor → Cursor → Prop where
  | date {c m d : Cursor} {value : Date} {suffix : Suffix}
      (dated : result? (Date.read? c) = some (value, m))
      (annotated : (readSuffix m).result = .ok (suffix, d))
    : Reads (.unit (.date value (c.spanTo m) suffix)) c d
  | call {c m opened e d : Cursor} {name : List Char} {args : List Argument} {suffix : Suffix}
      (starts : c.rest.head?.any isNameStart = true)
      (named : result? (c.run? isNamePart) = some (name, m))
      (opens : result? (m.char? '(') = some ((), opened))
      (arguments : Reads (.args args) opened.skipBlanks e)
      (annotated : (readSuffix e).result = .ok (suffix, d))
    : Reads (.unit (.call (String.ofList name) args (c.spanTo e) suffix)) c d
  | group {c opened e d : Cursor} {inner : Node}
      (opens : result? (c.char? '(') = some ((), opened))
      (inside : Reads (.either inner) opened.skipBlanks e)
      (closes : result? (e.charAfterBlanks? ')') = some ((), d))
    : Reads (.unit (.group inner (c.spanTo d))) c d
  | single {c d : Cursor} {node : Node} (unit : Reads (.unit node) c d)
    : Reads (.every node) c d
  | both {c m e d : Cursor} {left right : Node} (first : Reads (.every left) c m)
      (sign : result? (operator? '&' m) = some ((), e)) (second : Reads (.unit right) e d)
    : Reads (.every (.both left right)) c d
  | part {c d : Cursor} {node : Node} (every : Reads (.every node) c d) (stop : NoOperator '&' d)
    : Reads (.either node) c d
  | either {c m e d : Cursor} {left right : Node} (first : Reads (.either left) c m)
      (sign : result? (operator? '+' m) = some ((), e)) (second : Reads (.every right) e d)
      (stop : NoOperator '&' d)
    : Reads (.either (.either left right)) c d
  | word {c d : Cursor} {arg : Argument} (read : (readArgument c).result = .ok (arg, d))
      (word : arg.word?.isSome = true)
    : Reads (.arg arg) c d
  | trigger {c d : Cursor} {node : Node} (either : Reads (.either node) c d)
      (stop : NoOperator '+' d) (ends : atArgumentEnd d = true)
    : Reads (.arg (.trigger node)) c d
  | noArgs {c d : Cursor} (closes : result? (c.char? ')') = some ((), d))
    : Reads (.args []) c d
  | lastArg {c m d : Cursor} {arg : Argument} (last : Reads (.arg arg) c m)
      (closes : result? (m.charAfterBlanks? ')') = some ((), d))
    : Reads (.args [arg]) c d
  | moreArgs {c m e d : Cursor} {arg next : Argument} {args : List Argument}
      (first : Reads (.arg arg) c m) (comma : result? (m.charAfterBlanks? ',') = some ((), e))
      (more : Reads (.args (next :: args)) e.skipBlanks d)
    : Reads (.args (arg :: next :: args)) c d

-----------------------------------------------------------------------------------------
-- What is read is derived
-----------------------------------------------------------------------------------------

-- Each statement is about one reader, and the recursion is that of the readers.
mutual

/-- A unit that is read is derived. -/
theorem reads_of_readUnit {c d : Cursor} {node : Node} (read : (readUnit c).result = .ok (node, d))
    : Reads (.unit node) c d := by
  rw [result_readUnit] at read
  split at read
  · rename_i opening ho
    have := Parsed.remaining_lt ho
    have := opening.2.remaining_skipBlanks_le
    rw [result_readGroup] at read
    obtain ⟨inner, hi, read⟩ := bind_eq_ok read
    split at read
    · cases read
    · rename_i closing hc
      cases read
      exact .group ho (reads_of_readNode (final_eq_ok hi)).1 hc
  · split at read
    · rw [result_readDate] at read
      split at read
      · cases read
      · rename_i date hd
        obtain ⟨suffix, hs, he⟩ := bind_eq_ok read
        cases he
        exact .date hd hs
    · split at read
      · rename_i start
        unfold readNamed at read
        split at read
        · cases read
        · rename_i name hn
          split at read
          · cases read
          · rename_i opening ho
            have := Parsed.remaining_lt hn
            have := Parsed.remaining_lt ho
            have := opening.2.remaining_skipBlanks_le
            rw [result_readCall] at read
            obtain ⟨args, ha, read⟩ := bind_eq_ok read
            obtain ⟨suffix, hs, he⟩ := bind_eq_ok read
            cases he
            exact .call start hn ho (reads_of_readArguments (final_eq_ok ha)) hs
      · cases read
termination_by (c.remaining, 1)

/-- More units that are read are derived with those before them. -/
theorem reads_of_readBoth {c m d : Cursor} {left node : Node} (before : Reads (.every left) c m)
    (read : (readBoth left m).result = .ok (node, d))
    : Reads (.every node) c d ∧ NoOperator '&' d := by
  rw [result_readBoth] at read
  split at read
  · rename_i stop
    cases read
    exact ⟨before, result?_eq_none.mp stop⟩
  · rename_i sign hs
    have := Parsed.remaining_lt hs
    obtain ⟨right, hr, read⟩ := bind_eq_ok read
    have := Reply.remaining_lt (final_eq_ok hr)
    exact reads_of_readBoth (.both before hs (reads_of_readUnit (final_eq_ok hr))) read
termination_by (m.remaining, 0)

/-- A part that is read is derived. -/
theorem reads_of_readEvery {c d : Cursor} {node : Node}
    (read : (readEvery c).result = .ok (node, d))
    : Reads (.every node) c d ∧ NoOperator '&' d := by
  rw [result_readEvery] at read
  obtain ⟨first, hf, read⟩ := bind_eq_ok read
  have := Reply.remaining_lt hf
  exact reads_of_readBoth (.single (reads_of_readUnit hf)) read
termination_by (c.remaining, 2)

/-- More parts that are read are derived with those before them. -/
theorem reads_of_readEither {c m d : Cursor} {left node : Node} (before : Reads (.either left) c m)
    (read : (readEither left m).result = .ok (node, d))
    : Reads (.either node) c d ∧ NoOperator '+' d := by
  rw [result_readEither] at read
  split at read
  · rename_i stop
    cases read
    exact ⟨before, result?_eq_none.mp stop⟩
  · rename_i sign hs
    have := Parsed.remaining_lt hs
    obtain ⟨right, hr, read⟩ := bind_eq_ok read
    have := Reply.remaining_lt (final_eq_ok hr)
    obtain ⟨part, stop⟩ := reads_of_readEvery (final_eq_ok hr)
    exact reads_of_readEither (.either before hs part stop) read
termination_by (m.remaining, 0)

/-- A trigger that is read is derived. -/
theorem reads_of_readNode {c d : Cursor} {node : Node} (read : (readNode c).result = .ok (node, d))
    : Reads (.either node) c d ∧ NoOperator '+' d := by
  rw [result_readNode] at read
  obtain ⟨first, hf, read⟩ := bind_eq_ok read
  have := Reply.remaining_lt hf
  obtain ⟨part, stop⟩ := reads_of_readEvery hf
  exact reads_of_readEither (.part part stop) read
termination_by (c.remaining, 3)

/-- Arguments that are read are derived. -/
theorem reads_of_readArguments {c d : Cursor} {args : List Argument}
    (read : (readArguments c).result = .ok (args, d))
    : Reads (.args args) c d := by
  rw [result_readArguments] at read
  split at read
  · rename_i closing hc
    cases read
    exact .noArgs hc
  · exact (reads_of_readSomeArguments read).1
termination_by (c.remaining, 7)

/-- One or more arguments that are read are derived. -/
theorem reads_of_readSomeArguments {c d : Cursor} {args : List Argument}
    (read : (readSomeArguments c).result = .ok (args, d))
    : Reads (.args args) c d ∧ args ≠ [] := by
  rw [result_readSomeArguments] at read
  obtain ⟨arg, ha, read⟩ := bind_eq_ok read
  have := Reply.remaining_lt ha
  unfold readMoreArguments at read
  split at read
  · rename_i closing hc
    cases read
    exact ⟨.lastArg (reads_of_readArgument ha) hc, List.cons_ne_nil _ _⟩
  · split at read
    · cases read
    · rename_i comma hc
      have := Parsed.remaining_lt hc
      have := comma.2.remaining_skipBlanks_le
      obtain ⟨⟨more, later⟩, hm, he⟩ := bind_eq_ok read
      cases he
      obtain ⟨rest, some⟩ := reads_of_readSomeArguments hm
      refine ⟨?_, List.cons_ne_nil _ _⟩
      cases more with
      | nil => exact absurd rfl some
      | cons next more => exact .moreArgs (reads_of_readArgument ha) hc rest
termination_by (c.remaining, 6)

/-- An argument that is read is derived. -/
theorem reads_of_readArgument {c d : Cursor} {arg : Argument}
    (read : (readArgument c).result = .ok (arg, d))
    : Reads (.arg arg) c d := by
  cases word : arg.word? with
  | some text => exact .word read (by rw [word]; rfl)
  | none =>
      -- only a trigger has no text of its own
      have quoted {quote : Char} {c' : Cursor}
          (h : readQuotedArgument quote c c' = .ok (arg, d)) : False := by
        unfold readQuotedArgument at h
        split at h
        · cases h
        · cases h
          cases word
      have bare (h : (readWord c).result = .ok (arg, d)) : False := by
        rw [result_readWord] at h
        split at h
        · cases h
        · cases h
          cases word
      rw [result_readArgument] at read
      split at read
      · exact (quoted read).elim
      · exact (quoted read).elim
      · unfold readPlainArgument at read
        split at read
        · rename_i node hn
          split at read
          · cases read
            obtain ⟨either, stop⟩ := reads_of_readNode hn
            exact .trigger either stop ‹_›
          · exact (bare read).elim
        · split at read
          · cases read
          · exact (bare read).elim
termination_by (c.remaining, 5)

end

-----------------------------------------------------------------------------------------
-- The first character tells what is read
-----------------------------------------------------------------------------------------

/-- No name begins with a digit. -/
theorem isDigit_of_isNameStart {c : Char} (h : isNameStart c = true) : c.isDigit = false := by
  change (c == '_' || (decide (c.val ≥ 'A'.val ∧ c.val ≤ 'Z'.val)
    || decide (c.val ≥ 'a'.val) && decide (c.val ≤ 'z'.val))) = true at h
  simp only [Bool.or_eq_true, beq_iff_eq, Bool.and_eq_true, decide_eq_true_eq, ge_iff_le,
    UInt32.le_iff_toNat_le] at h
  simp only [Char.isDigit, Bool.and_eq_false_iff, decide_eq_false_iff_not, ge_iff_le,
    UInt32.le_iff_toNat_le]
  rcases h with rfl | h | h
  · decide
  · simp at h ⊢
    omega
  · simp at h ⊢
    omega

/-- Whether a trigger can begin with a character. -/
def isNodeStart (c : Char) : Bool :=
  c == '(' || c.isDigit || isNameStart c

/-- Whether a piece is a trigger or a part of one. -/
def Piece.IsNode : Piece → Prop
  | .unit _ | .every _ | .either _ => True
  | .arg _ | .args _ => False

/-- Every trigger begins with a character that can begin one, by induction on its derivation. -/
theorem Reads.head {piece : Piece} {c d : Cursor} (h : Reads piece c d) (node : piece.IsNode)
    : ∃ found rest, c.rest = found :: rest ∧ isNodeStart found = true := by
  have of_any {belongs : Char → Bool} {c : Cursor} (h : c.rest.head?.any belongs = true)
      (le : ∀ found, belongs found = true → isNodeStart found = true)
      : ∃ found rest, c.rest = found :: rest ∧ isNodeStart found = true := by
    obtain ⟨offset, _ | ⟨found, rest⟩⟩ := c
    · cases h
    · exact ⟨found, rest, rfl, le found (by simpa using h)⟩
  induction h with
  | date dated annotated =>
      exact of_any (Date.head_isDigit dated) fun c h => by simp [isNodeStart, h]
  | call starts => exact of_any starts fun c h => by simp [isNodeStart, h]
  | group opens => exact ⟨'(', _, (Cursor.of_char? opens).1, rfl⟩
  | single unit ih => exact ih trivial
  | both first sign second ih => exact ih trivial
  | part every stop ih => exact ih trivial
  | either first sign second stop ih => exact ih trivial
  | word | trigger | noArgs | lastArg | moreArgs => exact node.elim

theorem noOperator_of_closing {c d : Cursor}
    (closes : result? (c.charAfterBlanks? ')') = some ((), d)) (symbol : Char)
    (other : symbol ≠ ')')
    : NoOperator symbol c := by
  rw [Cursor.result?_charAfterBlanks?] at closes
  have next := (Cursor.of_char? closes).1
  have absent : c.skipBlanks.char? symbol = none := Cursor.char?_eq_none (by
    rw [next]
    exact fun h => other (Option.some.inj h).symm)
  rw [NoOperator, ← result?_eq_none, result?_operator?, absent]
  rfl

/-- What begins neither a text in quotes nor a trigger nor a word is no argument. -/
theorem result_readArgument_of_other {found : Char} (offset : Nat) (rest : List Char)
    (unquoted : found ≠ '"' ∧ found ≠ '\'') (node : isNodeStart found = false)
    (part : isWordPart found = false)
    : (readArgument ⟨offset, found :: rest⟩).result = .error ⟨offset, .argument, true⟩ := by
  have absent (quote : Char) (other : found ≠ quote)
      : result? (Cursor.char? ⟨offset, found :: rest⟩ quote) = none := by
    rw [Cursor.result?_char?_cons, if_neg other]
  simp only [isNodeStart, Bool.or_eq_false_iff, beq_eq_false_iff_ne] at node
  obtain ⟨⟨parenthesis, digit⟩, letter⟩ := node
  have unit : (readUnit ⟨offset, found :: rest⟩).result = .error ⟨offset, .dateOrCall, false⟩ := by
    rw [result_readUnit, absent '(' parenthesis]
    simp only [List.head?_cons, Option.any_some, digit, letter, Bool.false_eq_true, if_false]
  have word : (readWord ⟨offset, found :: rest⟩).result = .error ⟨offset, .argument, true⟩ := by
    rw [result_readWord, Cursor.result?_run?, Cursor.run_of_stops _ _ (by simpa using part)]
    rfl
  rw [result_readArgument, absent '"' unquoted.1, absent '\'' unquoted.2]
  simp only
  rw [readPlainArgument, result_readNode, result_readEvery, unit, word]
  rfl

/-- What is read as an argument begins with no character that none can begin with. -/
theorem head?_ne_of_readArgument {c d : Cursor} {arg : Argument} {found : Char}
    (read : (readArgument c).result = .ok (arg, d)) (unquoted : found ≠ '"' ∧ found ≠ '\'')
    (node : isNodeStart found = false) (part : isWordPart found = false)
    : c.rest.head? ≠ some found := by
  obtain ⟨offset, _ | ⟨first, rest⟩⟩ := c
  · exact nofun
  · rintro ⟨rfl⟩
    cases read.symm.trans (result_readArgument_of_other offset rest unquoted node part)

/-- What is read as an argument is not closed at once. -/
theorem char?_of_readArgument {c d : Cursor} {arg : Argument}
    (read : (readArgument c).result = .ok (arg, d))
    : c.char? ')' = none :=
  Cursor.char?_eq_none (head?_ne_of_readArgument read (by decide) (by decide) (by decide))

/-- A character that is not of a class is not read where the class comes next. -/
theorem char?_of_any {belongs : Char → Bool} {c : Cursor} (h : c.rest.head?.any belongs = true)
    (expected : Char) (other : belongs expected = false)
    : result? (c.char? expected) = none := by
  refine result?_eq_none.mpr (Cursor.char?_eq_none fun head => ?_)
  rw [head, Option.any_some, other] at h
  cases h

-----------------------------------------------------------------------------------------
-- What is derived is read
-----------------------------------------------------------------------------------------

/-- How the readers find a piece: triggers are read on from where the derivation ends. -/
def Piece.ReadBy : Piece → Cursor → Cursor → Prop
  | .unit node, c, d => (readUnit c).result = .ok (node, d)
  | .every node, c, d => (readEvery c).result = (readBoth node d).result
  | .either node, c, d => (readNode c).result = (readEither node d).result
  | .arg found, c, d => (readArgument c).result = .ok (found, d)
  | .args found, c, d =>
      (readArguments c).result = .ok (found, d)
      ∧ (found ≠ [] → (readSomeArguments c).result = .ok (found, d))

/-- What is derived is read, by induction on the derivation. -/
theorem Reads.run {piece : Piece} {c d : Cursor} (h : Reads piece c d) : piece.ReadBy c d := by
  induction h with
  | @date c m d value suffix dated annotated =>
      have digit := Date.head_isDigit dated
      have closed := char?_of_any digit '(' (by decide)
      simp only [Piece.ReadBy, result_readUnit, closed, digit, if_true, result_readDate, dated,
        annotated, ok_bind]
  | @call c m opened e d name args suffix starts named opens arguments annotated ih =>
      have closed := char?_of_any starts '(' (by decide)
      -- a date would begin with a digit, and a group with a parenthesis
      have letter : c.rest.head?.any Char.isDigit = false := by
        obtain ⟨offset, _ | ⟨found, rest⟩⟩ := c
        · rfl
        · exact isDigit_of_isNameStart starts
      simp only [Piece.ReadBy, result_readUnit, closed, letter, starts, if_true, readNamed, named,
        opens, result_readCall, Bool.false_eq_true, if_false, ih.1, final_found, ok_bind, annotated]
  | group opens inside closes ih =>
      have stop := noOperator_of_closing closes '+' (by decide)
      simp only [Piece.ReadBy] at ih ⊢
      simp only [result_readUnit, opens, result_readGroup, ih, result_readEither,
        result?_eq_none.mpr stop, final_found, ok_bind, closes]
  | single unit ih =>
      simp only [Piece.ReadBy] at ih ⊢
      simp only [result_readEvery, ih, ok_bind]
  | both first sign second ih ih' =>
      simp only [Piece.ReadBy] at ih ih' ⊢
      rw [ih, result_readBoth]
      simp only [sign, ih', final_found, ok_bind]
  | part every stop ih =>
      simp only [Piece.ReadBy] at ih ⊢
      simp only [result_readNode, ih, result_readBoth, result?_eq_none.mpr stop, ok_bind]
  | either first sign second stop ih ih' =>
      simp only [Piece.ReadBy] at ih ih' ⊢
      rw [ih, result_readEither]
      simp only [sign, ih', result_readBoth, result?_eq_none.mpr stop, final_found, ok_bind]
  | word read word => exact read
  | @trigger c d node either stop ends ih =>
      simp only [Piece.ReadBy] at ih ⊢
      obtain ⟨found, rest, text, start⟩ := either.head trivial
      have unquoted (quote : Char) (other : isNodeStart quote = false)
          : result? (c.char? quote) = none := by
        refine result?_eq_none.mpr (Cursor.char?_eq_none fun head => ?_)
        rw [text] at head
        cases head
        rw [start] at other
        cases other
      simp only [result_readArgument, unquoted '"' (by decide), unquoted '\'' (by decide),
        readPlainArgument, ih, result_readEither, result?_eq_none.mpr stop, ends, if_true]
  | noArgs closes =>
      refine ⟨?_, fun h => absurd rfl h⟩
      rw [result_readArguments, closes]
  | lastArg last closes ih =>
      simp only [Piece.ReadBy] at ih ⊢
      simp only [result_readArguments, char?_of_readArgument ih, result?_none,
        result_readSomeArguments, ih, ok_bind, readMoreArguments, closes, implies_true, and_self]
  | @moreArgs c m e d arg next args first comma more ih ih' =>
      have opened : result? (m.charAfterBlanks? ')') = none := by
        rw [Cursor.result?_charAfterBlanks?] at comma ⊢
        refine result?_eq_none.mpr (Cursor.char?_eq_none ?_)
        rw [(Cursor.of_char? comma).1]
        exact fun h => absurd (Option.some.inj h) (by decide)
      simp only [Piece.ReadBy] at ih ih' ⊢
      simp only [result_readArguments, char?_of_readArgument ih, result?_none,
        result_readSomeArguments, ih, ok_bind, readMoreArguments, opened, comma,
        ih'.2 (List.cons_ne_nil _ _), implies_true, and_self]

end Trigger

end DueTasks
