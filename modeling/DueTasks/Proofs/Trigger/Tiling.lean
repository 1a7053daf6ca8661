import DueTasks.Proofs.Trigger.Derivation

/-! The stretches of a trigger.
A piece covers the passage that it is read from, and the passages of its parts lie in it one behind
the other.
-/

namespace DueTasks

open Text Parsed

namespace Trigger

open Reply

/-- An operator is read from its character and the blanks around it. -/
theorem passage_of_operator? {symbol : Char} {c d : Cursor} {value : Unit}
    (h : result? (operator? symbol c) = some (value, d))
    : ∃ blanks blanks',
        Passage (blanks ++ symbol :: blanks') c d
        ∧ (∀ found ∈ blanks, isSpaceOrTab found = true)
        ∧ (∀ found ∈ blanks', isSpaceOrTab found = true)
        ∧ stops isSpaceOrTab d.rest = true := by
  rw [result?_operator?] at h
  obtain ⟨found, hf, he⟩ := Option.map_eq_some_iff.mp h
  cases he
  obtain ⟨blanks, before, all⟩ := c.within_skipBlanks
  obtain ⟨blanks', after, all'⟩ := found.2.within_skipBlanks
  exact ⟨blanks, blanks', before.append ((Cursor.passage_of_char? hf).append after), all, all',
    (found.2.run_split isSpaceOrTab).2.2⟩

/-- The opening of a call: its name, an opening parenthesis and blanks, up to where its arguments
begin.
-/
structure CallOpening (letters blanks : List Char) (c start : Cursor) : Prop where
  starts : letters.head?.any isNameStart = true
  parts : ∀ c ∈ letters, isNamePart c = true
  all : ∀ c ∈ blanks, isSpaceOrTab c = true
  stop : stops isSpaceOrTab start.rest = true
  opening : Passage (letters ++ '(' :: blanks) c start

theorem exists_callOpening {c m opened : Cursor} {name : List Char}
    (starts : c.rest.head?.any isNameStart = true)
    (named : result? (c.run? isNamePart) = some (name, m))
    (opens : result? (m.char? '(') = some ((), opened))
    : ∃ blanks, CallOpening name blanks c opened.skipBlanks := by
  obtain ⟨naming, parts, some⟩ := Cursor.passage_of_run? named
  obtain ⟨blanks, skipped, all⟩ := opened.within_skipBlanks
  refine ⟨blanks, ?_, parts, all, (opened.run_split isSpaceOrTab).2.2,
    naming.append ((Cursor.passage_of_char? opens).append skipped)⟩
  rw [naming.rest_eq] at starts
  cases name with
  | nil => exact absurd rfl some
  | cons letter name => exact starts

/-- The inside of a quoted text ends behind its closing quote. Whatever follows that, the same is
read, by induction over the text.
-/
theorem passage_of_readQuoted? {quote : Char} {offset : Nat} {chars : List Char}
    {found : List Char × Cursor} (h : readQuoted? quote offset chars = some found)
    : ∃ read, Passage read ⟨offset, chars⟩ found.2
        ∧ (quote ≠ '\\'
          → ∀ rest,
              readQuoted? quote offset (read ++ rest)
                = some (found.1, ⟨found.2.offset, rest⟩)) := by
  fun_induction readQuoted? quote offset chars generalizing found with
  | case1 => cases h
  | case2 offset c rest special ih =>
      obtain ⟨inner, hi, rfl⟩ := Option.map_eq_some_iff.mp h
      obtain ⟨read, passage, again⟩ := ih hi
      refine ⟨'\\' :: c :: read, .of_eq (congrArg ('\\' :: c :: ·) passage.rest_eq) ?_,
        fun plain rest => ?_⟩
      · rw [passage.offset_eq]
        simp only [byteLength_cons, Nat.add_assoc]
        rfl
      · rw [List.cons_append, List.cons_append, readQuoted?_escape, if_pos special, again plain,
          Option.map_some]
  | case3 => cases h
  | case4 offset rest _ =>
      cases h
      refine ⟨[quote], .of_eq rfl (by simp), fun plain rest => ?_⟩
      rw [List.singleton_append, readQuoted?_cons _ _ _ plain, if_pos rfl]
  | case5 => cases h
  | case6 offset c rest _ other slash ih =>
      obtain ⟨inner, hi, rfl⟩ := Option.map_eq_some_iff.mp h
      obtain ⟨read, passage, again⟩ := ih hi
      refine ⟨c :: read, .of_eq (congrArg (c :: ·) passage.rest_eq) ?_, fun plain rest => ?_⟩
      · rw [passage.offset_eq]
        simp only [byteLength_cons, Nat.add_assoc]
      · rw [List.cons_append, readQuoted?_cons _ _ _ slash, if_neg other, again plain,
          Option.map_some]

theorem span_of_readQuotedArgument {quote : Char} {start c d : Cursor} {arg : Argument}
    (h : readQuotedArgument quote start c = .ok (arg, d))
    : (∃ read, Passage read c d) ∧ arg.span = start.spanTo d := by
  unfold readQuotedArgument at h
  split at h
  · cases h
  · rename_i found hf
    cases h
    obtain ⟨read, passage, -⟩ := passage_of_readQuoted? hf
    exact ⟨⟨read, passage⟩, rfl⟩

theorem span_of_readWord {c d : Cursor} {arg : Argument} (h : (readWord c).result = .ok (arg, d))
    : (∃ read, Passage read c d) ∧ arg.span = c.spanTo d := by
  rw [result_readWord] at h
  split at h
  · cases h
  · rename_i word hw
    cases h
    obtain ⟨read, passage, -⟩ := Cursor.within_of_run? hw
    exact ⟨⟨read, passage⟩, rfl⟩

/-- An argument with a text of its own covers what it is read from. -/
theorem span_of_readArgument {c d : Cursor} {arg : Argument}
    (h : (readArgument c).result = .ok (arg, d)) (word : arg.word?.isSome = true)
    : (∃ read, Passage read c d) ∧ arg.span = c.spanTo d := by
  have quoted {quote : Char} {opening : Unit × Cursor}
      (opens : result? (c.char? quote) = some opening)
      (h : readQuotedArgument quote c opening.2 = .ok (arg, d))
      : (∃ read, Passage read c d) ∧ arg.span = c.spanTo d := by
    obtain ⟨⟨read, passage⟩, span⟩ := span_of_readQuotedArgument h
    exact ⟨⟨_, (Cursor.passage_of_char? opens).append passage⟩, span⟩
  rw [result_readArgument] at h
  split at h
  · exact quoted ‹_› h
  · exact quoted ‹_› h
  · unfold readPlainArgument at h
    split at h
    · split at h
      · cases h
        cases word
      · exact span_of_readWord h
    · split at h
      · cases h
      · exact span_of_readWord h

/-- The stretch of a piece, where it has one. -/
def Piece.span? : Piece → Option Span
  | .unit node | .every node | .either node => some node.span
  | .arg found => some found.span
  | .args _ => none

/-- Every piece is read from a passage, and arguments from one that ends with a closing parenthesis,
by induction on the derivation.
-/
theorem Reads.passage {piece : Piece} {c d : Cursor} (h : Reads piece c d)
    : ∃ read, Passage read c d
        ∧ (piece.span? = none → ∃ before, read = before ++ [')']) := by
  have plain {piece : Piece} {c d : Cursor} {span : Span} {read : List Char}
      (some : piece.span? = some span) (passage : Passage read c d)
      : ∃ read, Passage read c d ∧ (piece.span? = none → ∃ before, read = before ++ [')']) :=
    ⟨read, passage, fun none => by simp [some] at none⟩
  induction h with
  | date dated annotated =>
      obtain ⟨token, tokens, -⟩ := Date.within_of_read? dated
      obtain ⟨⟨marks, marked, -⟩, -⟩ := within_of_readSuffix annotated
      exact plain rfl (tokens.append marked)
  | @call c m opened e d name args suffix starts named opens arguments annotated ih =>
      obtain ⟨letters, naming, -⟩ := Cursor.within_of_run? named
      obtain ⟨blanks, skipped, -⟩ := opened.within_skipBlanks
      obtain ⟨inside, within, -⟩ := ih
      obtain ⟨⟨marks, marked, -⟩, -⟩ := within_of_readSuffix annotated
      exact plain rfl (naming.append ((Cursor.passage_of_char? opens).append
        (skipped.append (within.append marked))))
  | @group c opened e d inner opens inside closes ih =>
      obtain ⟨blanks, skipped, -⟩ := opened.within_skipBlanks
      obtain ⟨read, within, -⟩ := ih
      obtain ⟨blanks', closing, -⟩ := Cursor.passage_of_charAfterBlanks? closes
      exact plain rfl ((Cursor.passage_of_char? opens).append (skipped.append
        (within.append closing)))
  | single unit ih =>
      obtain ⟨read, passage, -⟩ := ih
      exact plain rfl passage
  | part every stop ih =>
      obtain ⟨read, passage, -⟩ := ih
      exact plain rfl passage
  | both first sign second ih ih' | either first sign second stop ih ih' =>
      obtain ⟨left, before, -⟩ := ih
      obtain ⟨blanks, blanks', gap, -⟩ := passage_of_operator? sign
      obtain ⟨right, after, -⟩ := ih'
      exact plain rfl (before.append (gap.append after))
  | word read word =>
      obtain ⟨⟨read, passage⟩, -⟩ := span_of_readArgument read word
      exact plain rfl passage
  | trigger either stop ends ih =>
      obtain ⟨read, passage, -⟩ := ih
      exact plain rfl passage
  | noArgs closes => exact ⟨[')'], Cursor.passage_of_char? closes, fun _ => ⟨[], rfl⟩⟩
  | lastArg last closes ih =>
      obtain ⟨read, passage, -⟩ := ih
      obtain ⟨blanks, closing, -⟩ := Cursor.passage_of_charAfterBlanks? closes
      exact ⟨_, passage.append closing, fun _ => ⟨read ++ blanks, (List.append_assoc ..).symm⟩⟩
  | @moreArgs c m e d arg next args first comma more ih ih' =>
      obtain ⟨read, passage, -⟩ := ih
      obtain ⟨blanks, separating, -⟩ := Cursor.passage_of_charAfterBlanks? comma
      obtain ⟨blanks', skipped, -⟩ := e.within_skipBlanks
      obtain ⟨rest, following, closed⟩ := ih'
      obtain ⟨before, rfl⟩ := closed rfl
      refine ⟨_, passage.append (separating.append (skipped.append following)), fun _ => ?_⟩
      exact ⟨read ++ (blanks ++ [','] ++ (blanks' ++ before)), by simp only [List.append_assoc]⟩

/-- Reading goes from a place in a text to another place in it. -/
theorem Reads.isIn {piece : Piece} {c d : Cursor} (h : Reads piece c d) {text : List Char}
    (place : c.IsIn text)
    : d.IsIn text := by
  obtain ⟨read, passage, -⟩ := h.passage
  exact passage.isIn place

/-- Reading goes forward. -/
theorem Reads.offset_le {piece : Piece} {c d : Cursor} (h : Reads piece c d)
    : c.offset ≤ d.offset := by
  obtain ⟨read, passage, -⟩ := h.passage
  exact passage.offset_le

/-- A piece covers what it is read from, by induction on the derivation. -/
theorem Reads.span {piece : Piece} {c d : Cursor} (h : Reads piece c d) {span : Span}
    (some : piece.span? = some span)
    : span = c.spanTo d := by
  induction h generalizing span with
  | date dated annotated =>
      cases some
      rw [Node.span, (within_of_readSuffix annotated).2]
      rfl
  | call starts named opens arguments annotated ih =>
      cases some
      rw [Node.span, (within_of_readSuffix annotated).2]
      rfl
  | group opens inside closes ih =>
      cases some
      rfl
  | single unit ih => exact ih some
  | part every stop ih => exact ih some
  | both first sign second ih ih' | either first sign second stop ih ih' =>
      cases some
      rw [Node.span, ih rfl, ih' rfl]
      rfl
  | word read word =>
      cases some
      exact (span_of_readArgument read word).2
  | trigger either stop ends ih => exact ih some
  | noArgs | lastArg | moreArgs => cases some

end Trigger

end DueTasks
