import DueTasks.Proofs.Trigger.Exchange
import DueTasks.Proofs.Trigger.Parsing

/-! The ending of a name is not a part of its trigger.
An ending that nothing of a trigger goes on with can stand in place of any other one: the name is
read as the same trigger, with the same spans.
-/

namespace DueTasks

open Text Parsed

/-- Annotations are told by what they say and by their span. -/
theorem Suffix.eq_of_plain {a b : Suffix} (same : a.plain = b.plain) (span : a.span = b.span)
    : a = b := by
  obtain ⟨time, effective, priority, repetition, stretch⟩ := a
  obtain ⟨time', effective', priority', repetition', stretch'⟩ := b
  simp only [plain, mapSpan, Suffix.mk.injEq] at same span ⊢
  exact ⟨same.1, same.2.1, same.2.2.1, same.2.2.2.1, span⟩

namespace Trigger

-----------------------------------------------------------------------------------------
-- Endings that do not matter
-----------------------------------------------------------------------------------------

/-- An ending that nothing of a trigger goes on with: it is empty, or it begins with a dot, or with
spaces and tabs behind which there is no operator.
-/
inductive FreeEnding : List Char → Prop where
  | empty : FreeEnding []
  | dot (rest : List Char) : FreeEnding ('.' :: rest)
  | gap {blanks rest : List Char} (some : blanks ≠ []) (all : ∀ c ∈ blanks, isSpaceOrTab c = true)
      (stop : stops (fun c => isSpaceOrTab c || c == '&' || c == '+') rest = true)
    : FreeEnding (blanks ++ rest)

namespace FreeEnding

variable {rest : List Char}

/-- No annotation begins at such an ending. -/
theorem stops_isSuffixPart (h : FreeEnding rest) : stops isSuffixPart rest = true := by
  cases h with
  | empty => rfl
  | dot rest => rfl
  | gap some all stop =>
      obtain ⟨blank, blanks, rfl⟩ := List.exists_cons_of_ne_nil some
      simpa using isSuffixPart_of_isSpaceOrTab (List.forall_mem_cons.mp all).1

/-- No period begins at such an ending. -/
theorem read?_eq_none (h : FreeEnding rest) (offset : Nat)
    : Period.read? ⟨offset, rest⟩ = none := by
  cases h with
  | empty => exact Period.read?_eq_none _ rfl
  | dot rest => exact Period.read?_eq_none _ rfl
  | gap some all stop =>
      obtain ⟨blank, blanks, rfl⟩ := List.exists_cons_of_ne_nil some
      exact read?_blank_eq_none (List.forall_mem_cons.mp all).1 _ _

/-- No operator comes next. -/
theorem noOperator (h : FreeEnding rest) {symbol : Char} (isOperator : symbol = '&' ∨ symbol = '+')
    (offset : Nat)
    : NoOperator symbol ⟨offset, rest⟩ := by
  cases h with
  | empty =>
      rw [noOperator_iff]
      exact fun head => nomatch head
  | dot rest =>
      refine (noOperator_append (List.forall_mem_nil _) rfl).mpr ?_
      rcases isOperator with rfl | rfl <;> decide
  | @gap blanks rest some all stop =>
      have blank : stops isSpaceOrTab rest = true := stops_mono (fun c h => by simp [h]) stop
      rw [noOperator_iff, Cursor.skipBlanks, Cursor.skip_append _ _ all blank]
      refine head?_ne_of_stops stop ?_
      rcases isOperator with rfl | rfl <;> rfl

/-- Such an ending can stand in place of any other text. -/
theorem exchange (h : FreeEnding rest) (old : List Char) : Exchange old rest :=
  .of_closed h.stops_isSuffixPart h.read?_eq_none (h.noOperator (.inl rfl)) old

end FreeEnding

-----------------------------------------------------------------------------------------
-- Pieces stay where they are
-----------------------------------------------------------------------------------------

theorem readSuffix_here {c d : Cursor} {marks rest : List Char} {suffix : Suffix}
    (behind : Passage marks c d) (annotated : (readSuffix c).result = .ok (suffix, d))
    (exchanged : Exchange d.rest rest)
    : (readSuffix ⟨c.offset, marks ++ rest⟩).result = .ok (suffix, ⟨d.offset, rest⟩) := by
  obtain ⟨offset, _⟩ := behind
  obtain ⟨suffix', again, same⟩ := exchanged.readSuffix annotated offset
  have span := (within_of_readSuffix annotated).2
  have span' := (within_of_readSuffix again).2
  rw [again, Suffix.eq_of_plain same (span'.trans span.symm)]

/-- The arguments of a call are read up to their closing parenthesis, whatever stands behind it. -/
theorem Reads.arguments_here {args : List Argument} {c d : Cursor} (h : Reads (.args args) c d)
    : ∃ inside, Passage (inside ++ [')']) c d
        ∧ ∀ rest, Reads (.args args) ⟨c.offset, inside ++ ')' :: rest⟩ ⟨d.offset, rest⟩ := by
  obtain ⟨chars, passage, closed⟩ := h.passage
  obtain ⟨inside, rfl⟩ := closed rfl
  refine ⟨inside, passage, fun rest => ?_⟩
  have read := h.run.1
  obtain ⟨offset, _⟩ := passage
  rw [List.append_assoc, byteLength_append, ← Nat.add_assoc] at read
  rw [byteLength_append, ← Nat.add_assoc]
  exact reads_of_readArguments (readArguments_here read rest)

/-- A piece is read from the same characters, with the same spans, in front of every text that may
stand in place of the one behind it.
-/
def Stays (piece : Piece) (c d : Cursor) : Prop :=
  ∃ chars, Passage chars c d
    ∧ ∀ rest, Exchange d.rest rest → Reads piece ⟨c.offset, chars ++ rest⟩ ⟨d.offset, rest⟩

namespace Stays

variable {c m e d : Cursor} {left right inner : Node} {suffix : Suffix}

theorem date {value : Date} (dated : result? (Date.read? c) = some (value, m))
    (annotated : (readSuffix m).result = .ok (suffix, d))
    : Stays (.unit (.date value (c.spanTo m) suffix)) c d := by
  obtain ⟨token, before, -⟩ := Date.within_of_read? dated
  obtain ⟨⟨marks, behind, -⟩, -⟩ := within_of_readSuffix annotated
  refine ⟨token ++ marks, before.append behind, fun rest exchanged => ?_⟩
  have again := readSuffix_here behind annotated exchanged
  obtain ⟨offset, _⟩ := behind
  obtain ⟨offset, _⟩ := before
  rw [List.append_assoc]
  exact .date (exchanged.readDate? dated offset) again

theorem call {opened : Cursor} {name : List Char} {args : List Argument}
    (starts : c.rest.head?.any isNameStart = true)
    (named : result? (c.run? isNamePart) = some (name, m))
    (opens : result? (m.char? '(') = some ((), opened))
    (arguments : Reads (.args args) opened.skipBlanks e)
    (annotated : (readSuffix e).result = .ok (suffix, d))
    : Stays (.unit (.call (String.ofList name) args (c.spanTo e) suffix)) c d := by
  obtain ⟨blanks, opening⟩ := exists_callOpening starts named opens
  obtain ⟨inside, within, again⟩ := arguments.arguments_here
  obtain ⟨⟨marks, behind, -⟩, -⟩ := within_of_readSuffix annotated
  refine ⟨_, (opening.opening.append within).append behind, fun rest exchanged => ?_⟩
  have stop : stops isSpaceOrTab (inside ++ ')' :: (marks ++ rest)) = true := by
    have stop := opening.stop
    rw [within.rest_eq] at stop
    cases inside <;> exact stop
  have place : opened.skipBlanks.offset = c.offset + byteLength name + 1 + byteLength blanks := by
    rw [opening.opening.offset_eq, byteLength_append, byteLength_cons, ← Nat.add_assoc,
      ← Nat.add_assoc]
    rfl
  have inner := again (marks ++ rest)
  rw [place] at inner
  exact (Reads.call_append opening.starts opening.parts opening.all stop inner
    (readSuffix_here behind annotated exchanged)).cast (by simp) rfl

theorem group {opened : Cursor} (opens : result? (c.char? '(') = some ((), opened))
    (closes : result? (e.charAfterBlanks? ')') = some ((), d))
    (h : Stays (.either inner) opened.skipBlanks e)
    : Stays (.unit (.group inner (c.spanTo d))) c d := by
  obtain ⟨chars, within, again⟩ := h
  have opening := Cursor.passage_of_char? opens
  obtain ⟨blanks, skipped, all⟩ := opened.within_skipBlanks
  obtain ⟨blanks', closing, all'⟩ := Cursor.passage_of_charAfterBlanks? closes
  refine ⟨_, (opening.append skipped).append (within.append closing), fun rest _ => ?_⟩
  have exchanged : Exchange e.rest (blanks' ++ ')' :: rest) := by
    rw [closing.rest_eq, List.append_assoc]
    exact .of_gap all' rfl rfl fun _ _ _ => read?_gap_eq_none all' rfl (by decide) _ _
  have inside := again _ exchanged
  have place : opened.skipBlanks.offset = c.offset + 1 + byteLength blanks := by
    rw [skipped.offset_eq, opening.offset_eq]
    rfl
  have end_ : d.offset = e.offset + byteLength blanks' + 1 := by
    rw [closing.offset_eq, byteLength_append, ← Nat.add_assoc]
    rfl
  rw [place] at inside
  simp only [Cursor.spanTo, end_]
  exact (Reads.group_append all all' inside).cast (by simp) rfl

/-- Operands stay if both do: what stands behind the first one is exchanged with the second one. -/
theorem exchange_operand {symbol : Char} {chars blanks blanks' rest : List Char}
    (second : Passage chars e d) (gap : Passage (blanks ++ symbol :: blanks') m e)
    (all : ∀ c ∈ blanks, isSpaceOrTab c = true) (all' : ∀ c ∈ blanks', isSpaceOrTab c = true)
    (isOperator : symbol = '&' ∨ symbol = '+') (exchanged : Exchange d.rest rest)
    : Exchange m.rest (blanks ++ symbol :: blanks' ++ (chars ++ rest)) := by
  rw [gap.rest_eq, second.rest_eq]
  refine .of_operator all all' id isOperator fun offset offset' absent => ?_
  exact exchanged.read?_eq_none ('+' :: chars) absent offset'

theorem both (sign : result? (operator? '&' m) = some ((), e))
    (h : Stays (.every left) c m) (h' : Stays (.unit right) e d)
    : Stays (.every (.both left right)) c d := by
  obtain ⟨first, before, again⟩ := h
  obtain ⟨second, behind, again'⟩ := h'
  obtain ⟨blanks, blanks', gap, all, all', -⟩ := passage_of_operator? sign
  refine ⟨_, before.append (gap.append behind), fun rest exchanged => ?_⟩
  have left := again _ (exchange_operand behind gap all all' (.inl rfl) exchanged)
  have right := again' rest exchanged
  rw [gap.offset_eq] at right
  exact (left.both_append all all' right).cast (by simp) rfl

theorem either (sign : result? (operator? '+' m) = some ((), e)) (stop : NoOperator '&' d)
    (h : Stays (.either left) c m) (h' : Stays (.every right) e d)
    : Stays (.either (.either left right)) c d := by
  obtain ⟨first, before, again⟩ := h
  obtain ⟨second, behind, again'⟩ := h'
  obtain ⟨blanks, blanks', gap, all, all', -⟩ := passage_of_operator? sign
  refine ⟨_, before.append (gap.append behind), fun rest exchanged => ?_⟩
  have left := again _ (exchange_operand behind gap all all' (.inr rfl) exchanged)
  have right := again' rest exchanged
  rw [gap.offset_eq] at right
  exact (left.either_append all all' right (exchanged.joins _ _ stop)).cast (by simp) rfl

end Stays

/-- Every part of a trigger stays where it is when the text behind it is exchanged, by induction on
its derivation.
-/
theorem Reads.stays {piece : Piece} {c d : Cursor} (h : Reads piece c d) (node : piece.IsNode)
    : Stays piece c d := by
  induction h with
  | date dated annotated => exact .date dated annotated
  | call starts named opens arguments annotated ih =>
      exact .call starts named opens arguments annotated
  | group opens inside closes ih => exact .group opens closes (ih trivial)
  | single unit ih =>
      obtain ⟨chars, passage, again⟩ := ih trivial
      exact ⟨chars, passage, fun rest exchanged => .single (again rest exchanged)⟩
  | both first sign second ih ih' => exact .both sign (ih trivial) (ih' trivial)
  | part every stop ih =>
      obtain ⟨chars, passage, again⟩ := ih trivial
      refine ⟨chars, passage, fun rest exchanged => ?_⟩
      exact .part (again rest exchanged) (exchanged.joins _ _ stop)
  | either first sign second stop ih ih' => exact .either sign stop (ih trivial) (ih' trivial)
  | word | trigger | noArgs | lastArg | moreArgs => exact node.elim

/-- Behind a part of a trigger no ampersand joins more to it. -/
theorem Reads.noOperator {node : Node} {c d : Cursor} (h : Reads (.either node) c d)
    : NoOperator '&' d := by
  cases h with
  | part every stop => exact stop
  | either first sign second stop => exact stop

/-- A trigger that was read from a name is read from every name with another free ending. -/
theorem ReadFrom.with_ending {t : Trigger} {front ending other : List Char} {d : Cursor}
    (h : t.ReadFrom (String.ofList (front ++ ending)) d) (ends : d.rest = ending)
    (free : FreeEnding other)
    : let name := String.ofList (front ++ other)
      (Trigger.mk name t.root ⟨d.offset, name.utf8ByteSize⟩).ReadFrom name ⟨d.offset, other⟩
      ∧ d.offset = byteLength front := by
  obtain ⟨chars, passage, again⟩ := h.reads.stays trivial
  have text : chars = front := by
    have split := passage.rest_eq
    rw [ends] at split
    simpa [Cursor.start] using split.symm
  subst text
  have reads := again other (free.exchange _)
  refine ⟨⟨?_, free.noOperator (.inr rfl) _, rfl, rfl⟩, ?_⟩
  · simpa [Cursor.start] using reads
  · simpa [Cursor.start] using passage.offset_eq

end Trigger

end DueTasks
