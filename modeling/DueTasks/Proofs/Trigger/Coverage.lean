import DueTasks.Proofs.Trigger.CallReading
import DueTasks.Proofs.Trigger.Parsing

/-! Where the parts of a trigger stand in its name.
The spans of a trigger that was read cut its name only between characters. They tile the name: the
parts of a node stand one behind the other in the order of the syntax, with nothing between them but
what the grammar asks for. Calls can be told apart by where they start.
-/

namespace DueTasks

open Text Parsed

-----------------------------------------------------------------------------------------
-- Parts of a text
-----------------------------------------------------------------------------------------

namespace Span

/-- The span covers a part of a text, both of which are made of whole characters. -/
def Covers (text part : List Char) (span : Span) : Prop :=
  ∃ before after,
    text = before ++ part ++ after
    ∧ span = ⟨byteLength before, byteLength before + byteLength part⟩

/-- The span lies in a text and cuts it only between characters. -/
def IsPart (text : List Char) (span : Span) : Prop :=
  ∃ part, span.Covers text part

/-- The span covers nothing but spaces and tabs. -/
def IsBlank (text : List Char) (span : Span) : Prop :=
  ∃ part, span.Covers text part ∧ ∀ c ∈ part, isSpaceOrTab c = true

/-- The span covers an operator and the spaces and tabs around it. -/
def IsOperator (text : List Char) (symbol : Char) (span : Span) : Prop :=
  ∃ blanks blanks',
    span.Covers text (blanks ++ symbol :: blanks')
    ∧ (∀ c ∈ blanks, isSpaceOrTab c = true)
    ∧ ∀ c ∈ blanks', isSpaceOrTab c = true

end Span

namespace Text

variable {text part : List Char} {c d : Cursor}

/-- What lies between two places in a text is covered by the span from one to the other. -/
theorem Passage.covers (h : Passage part c d) (place : c.IsIn text)
    : (c.spanTo d).Covers text part := by
  obtain ⟨before, start⟩ := place
  refine ⟨before, d.rest, ?_, ?_⟩
  · rw [List.append_assoc, ← h.rest_eq, ← start.rest_eq]
    rfl
  · have offset : c.offset = byteLength before := by simpa [Cursor.start] using start.offset_eq
    rw [Cursor.spanTo, h.offset_eq, offset]

theorem Within.isBlank (h : Within isSpaceOrTab c d) (place : c.IsIn text)
    : (c.spanTo d).IsBlank text := by
  obtain ⟨blanks, passage, all⟩ := h
  exact ⟨blanks, passage.covers place, all⟩

theorem Within.isIn (h : Within isSpaceOrTab c d) (place : c.IsIn text) : d.IsIn text := by
  obtain ⟨blanks, passage, -⟩ := h
  exact passage.isIn place

end Text

-----------------------------------------------------------------------------------------
-- Spans of a trigger
-----------------------------------------------------------------------------------------

mutual

/-- The spans of a node and of all that is below it. -/
def Node.spans : Node → List Span
  | .date value token suffix => [(Node.date value token suffix).span, token, suffix.span]
  | .call name args token suffix =>
      (Node.call name args token suffix).span :: token :: suffix.span
        :: Argument.spansOfList args
  | .both left right => (Node.both left right).span :: (left.spans ++ right.spans)
  | .either left right => (Node.either left right).span :: (left.spans ++ right.spans)
  | .group inner span => span :: inner.spans

/-- The spans of an argument. -/
def Argument.spans : Argument → List Span
  | .quoted _ span => [span]
  | .bare _ span => [span]
  | .trigger node => node.spans

/-- The spans of arguments. -/
def Argument.spansOfList : List Argument → List Span
  | [] => []
  | arg :: args => arg.spans ++ Argument.spansOfList args

end

mutual

/-- Where a node is moved, all its spans are, by induction over the syntax. -/
theorem Node.spans_move (base base' : Nat) (node : Node)
    : (node.mapSpans (Span.move base base')).spans = node.spans.map (Span.move base base') := by
  cases node with
  | date value token suffix => rfl
  | call name args token suffix =>
      rw [Node.spans, List.map_cons, List.map_cons, List.map_cons,
        ← Argument.spansOfList_move base base' args]
      rfl
  | both left right | either left right =>
      rw [Node.spans, List.map_cons, List.map_append, ← Node.spans_move base base' left,
        ← Node.spans_move base base' right, ← Node.span_move]
      rfl
  | group inner span =>
      rw [Node.spans, List.map_cons, ← Node.spans_move base base' inner]
      rfl
termination_by sizeOf node

theorem Argument.spans_move (base base' : Nat) (arg : Argument)
    : (arg.mapSpans (Span.move base base')).spans = arg.spans.map (Span.move base base') := by
  cases arg with
  | quoted value span | bare value span => rfl
  | trigger node => exact Node.spans_move base base' node
termination_by sizeOf arg

theorem Argument.spansOfList_move (base base' : Nat) (args : List Argument)
    : Argument.spansOfList (Argument.mapSpansOfList (Span.move base base') args)
      = (Argument.spansOfList args).map (Span.move base base') := by
  cases args with
  | nil => rfl
  | cons arg args =>
      rw [Argument.spansOfList, List.map_append, ← Argument.spans_move base base' arg,
        ← Argument.spansOfList_move base base' args]
      rfl
termination_by sizeOf args

end

mutual

/-- The spans of a node tile what the node covers:
a date and its annotations follow each other, and so do a call, made of its name and of its
arguments in parentheses, and its annotations; between operands there is one operator, and inside
of the parentheses of a group only spaces and tabs around the inner node.
-/
def Node.IsTiled (text : List Char) : Node → Prop
  | .date _ token suffix => suffix.span.start = token.stop
  | .call name args token suffix =>
      suffix.span.start = token.stop
      ∧ name.toList.head?.any Trigger.isNameStart = true
      ∧ name.toList.all Trigger.isNamePart = true
      ∧ ∃ opened closed,
          Span.Covers text (name.toList ++ ['(']) ⟨token.start, opened⟩
          ∧ Argument.AreTiled text opened closed args
          ∧ Span.Covers text [')'] ⟨closed, token.stop⟩
  | .both left right =>
      left.IsTiled text
      ∧ Span.IsOperator text '&' ⟨left.span.stop, right.span.start⟩
      ∧ right.IsTiled text
  | .either left right =>
      left.IsTiled text
      ∧ Span.IsOperator text '+' ⟨left.span.stop, right.span.start⟩
      ∧ right.IsTiled text
  | .group inner span =>
      ∃ opened closed,
        Span.Covers text ['('] ⟨span.start, opened⟩
        ∧ Span.IsBlank text ⟨opened, inner.span.start⟩
        ∧ inner.IsTiled text
        ∧ Span.IsBlank text ⟨inner.span.stop, closed⟩
        ∧ Span.Covers text [')'] ⟨closed, span.stop⟩

/-- The spans of an argument tile what the argument covers. -/
def Argument.IsTiled (text : List Char) : Argument → Prop
  | .quoted .. => True
  | .bare .. => True
  | .trigger node => node.IsTiled text

/-- Arguments tile a stretch of a text, with one comma between two of them and with spaces and tabs
around each.
-/
def Argument.AreTiled (text : List Char) (start stop : Nat) : List Argument → Prop
  | [] => Span.IsBlank text ⟨start, stop⟩
  | [arg] =>
      Span.IsBlank text ⟨start, arg.span.start⟩
      ∧ arg.IsTiled text
      ∧ Span.IsBlank text ⟨arg.span.stop, stop⟩
  | arg :: next :: args =>
      Span.IsBlank text ⟨start, arg.span.start⟩
      ∧ arg.IsTiled text
      ∧ ∃ comma later,
          Span.IsBlank text ⟨arg.span.stop, comma⟩
          ∧ Span.Covers text [','] ⟨comma, later⟩
          ∧ Argument.AreTiled text later stop (next :: args)

end

/-- The offset at which a call starts. -/
def Node.callStart? : Node → Option Nat
  | .call _ _ token _ => some token.start
  | _ => none

/-- The spans of a trigger lie in its name and tile it: the trigger stands at the start, and the
ending is all the rest. No two calls start at the same offset.
-/
structure Trigger.IsTiled (t : Trigger) : Prop where
  inside : ∀ span ∈ t.ending :: t.root.spans, span.IsPart t.source.toList
  start : t.root.span.start = 0
  root : t.root.IsTiled t.source.toList
  ending : t.ending.start = t.root.span.stop
  stop : t.ending.stop = t.source.utf8ByteSize
  calls : (t.root.nodes.filterMap Node.callStart?).Nodup

namespace Trigger

open Reply

variable {text : List Char} {piece : Piece} {c d : Cursor}

-----------------------------------------------------------------------------------------
-- Every span is a part
-----------------------------------------------------------------------------------------

/-- The spans of a piece. -/
def Piece.spans : Piece → List Span
  | .unit node | .every node | .either node => node.spans
  | .arg found => found.spans
  | .args found => Argument.spansOfList found

/-- A place behind a parenthesis and blanks is in the text. -/
theorem isIn_of_opening {opened : Cursor} {value : Unit}
    (opens : result? (c.char? '(') = some (value, opened)) (place : c.IsIn text)
    : opened.skipBlanks.IsIn text :=
  opened.within_skipBlanks.isIn ((Cursor.passage_of_char? opens).isIn place)

/-- A place behind an operator is in the text. -/
theorem isIn_of_operator? {symbol : Char} {value : Unit}
    (sign : result? (operator? symbol c) = some (value, d)) (place : c.IsIn text)
    : d.IsIn text := by
  obtain ⟨blanks, blanks', gap, -⟩ := passage_of_operator? sign
  exact gap.isIn place

/-- A place behind a character with blanks in front of it is in the text. -/
theorem isIn_of_charAfterBlanks? {expected : Char} {value : Unit}
    (h : result? (c.charAfterBlanks? expected) = some (value, d)) (place : c.IsIn text)
    : d.IsIn text := by
  obtain ⟨blanks, passage, -⟩ := Cursor.passage_of_charAfterBlanks? h
  exact passage.isIn place

namespace Reads

/-- The span of a piece is a part of the text that it is read from. -/
theorem isPart (h : Reads piece c d) (place : c.IsIn text) {span : Span}
    (covers : piece.span? = some span)
    : span.IsPart text := by
  obtain ⟨read, passage, -⟩ := h.passage
  rw [h.span covers]
  exact ⟨read, passage.covers place⟩

/-- All spans of a piece are parts of the text that it is read from, by induction on the
derivation.
-/
theorem spans_isPart (h : Reads piece c d) (place : c.IsIn text)
    : ∀ span ∈ piece.spans, span.IsPart text := by
  induction h with
  | date dated annotated =>
      have whole := (Reads.date dated annotated).isPart place rfl
      obtain ⟨token, tokens, -⟩ := Date.within_of_read? dated
      obtain ⟨⟨marks, marked, -⟩, span⟩ := within_of_readSuffix annotated
      have suffix := marked.covers (tokens.isIn place)
      rw [← span] at suffix
      simp only [Piece.spans, Node.spans, List.forall_mem_cons]
      exact ⟨whole, ⟨token, tokens.covers place⟩, ⟨marks, suffix⟩, List.forall_mem_nil _⟩
  | @call c m opened e d name args suffix starts named opens arguments annotated ih =>
      have whole := (Reads.call starts named opens arguments annotated).isPart place rfl
      obtain ⟨letters, naming, -⟩ := Cursor.within_of_run? named
      obtain ⟨blanks, skipped, -⟩ := opened.within_skipBlanks
      obtain ⟨read, passage, -⟩ := arguments.passage
      obtain ⟨⟨marks, marked, -⟩, span⟩ := within_of_readSuffix annotated
      have token := naming.append ((Cursor.passage_of_char? opens).append (skipped.append passage))
      have suffix := marked.covers (token.isIn place)
      rw [← span] at suffix
      simp only [Piece.spans, Node.spans, List.forall_mem_cons]
      exact ⟨whole, ⟨_, token.covers place⟩, ⟨marks, suffix⟩,
        ih (isIn_of_opening opens (naming.isIn place))⟩
  | group opens inside closes ih =>
      simp only [Piece.spans, Node.spans, List.forall_mem_cons]
      exact ⟨(Reads.group opens inside closes).isPart place rfl, ih (isIn_of_opening opens place)⟩
  | single unit ih => exact ih place
  | part every stop ih => exact ih place
  | both first sign second ih ih' =>
      simp only [Piece.spans, Node.spans, List.forall_mem_cons, List.forall_mem_append]
      have later := isIn_of_operator? sign (first.isIn place)
      exact ⟨(Reads.both first sign second).isPart place rfl, ih place, ih' later⟩
  | either first sign second stop ih ih' =>
      simp only [Piece.spans, Node.spans, List.forall_mem_cons, List.forall_mem_append]
      have later := isIn_of_operator? sign (first.isIn place)
      exact ⟨(Reads.either first sign second stop).isPart place rfl, ih place, ih' later⟩
  | @word c d arg read word =>
      have whole := (Reads.word read word).isPart place rfl
      cases arg with
      | quoted value span | bare value span => exact List.forall_mem_singleton.mpr whole
      | trigger node => cases word
  | trigger either stop ends ih => exact ih place
  | noArgs closes =>
      rw [Piece.spans, Argument.spansOfList]
      exact List.forall_mem_nil _
  | lastArg last closes ih =>
      rw [Piece.spans, Argument.spansOfList, Argument.spansOfList, List.append_nil]
      exact ih place
  | @moreArgs c m e d arg next args first comma more ih ih' =>
      rw [Piece.spans, Argument.spansOfList]
      have later := isIn_of_charAfterBlanks? comma (first.isIn place)
      exact List.forall_mem_append.mpr ⟨ih place, ih' (e.within_skipBlanks.isIn later)⟩

end Reads

-----------------------------------------------------------------------------------------
-- Spans tile what is read
-----------------------------------------------------------------------------------------

/-- What is read as a piece is tiled by it. Arguments are tiled together with the blanks in front of
the first one, up to the closing parenthesis.
-/
def Piece.IsTiled (text : List Char) : Piece → Cursor → Cursor → Prop
  | .unit node, _, _ | .every node, _, _ | .either node, _, _ => node.IsTiled text
  | .arg found, _, _ => found.IsTiled text
  | .args found, c, d =>
      ∀ start,
        Span.IsBlank text ⟨start, c.offset⟩
        → ∃ closed,
            Argument.AreTiled text start closed found ∧ Span.Covers text [')'] ⟨closed, d.offset⟩

/-- An operator that was read is covered by the span between the places around it. -/
theorem isOperator_of_operator? {symbol : Char} {value : Unit}
    (sign : result? (operator? symbol c) = some (value, d)) (place : c.IsIn text)
    : (c.spanTo d).IsOperator text symbol := by
  obtain ⟨blanks, blanks', gap, all, all', -⟩ := passage_of_operator? sign
  exact ⟨blanks, blanks', gap.covers place, all, all'⟩

/-- A character that was read behind blanks is covered by a span behind a blank one. -/
theorem covers_of_charAfterBlanks? {expected : Char} {value : Unit}
    (h : result? (c.charAfterBlanks? expected) = some (value, d)) (place : c.IsIn text)
    : (c.spanTo c.skipBlanks).IsBlank text
      ∧ (c.skipBlanks.spanTo d).Covers text [expected] := by
  rw [Cursor.result?_charAfterBlanks?] at h
  have behind := c.within_skipBlanks.isIn place
  exact ⟨c.within_skipBlanks.isBlank place, (Cursor.passage_of_char? h).covers behind⟩

namespace Reads

/-- Every piece tiles what it is read from, by induction on the derivation. -/
theorem isTiled (h : Reads piece c d) (place : c.IsIn text) : piece.IsTiled text c d := by
  induction h with
  | date dated annotated =>
      obtain ⟨-, span⟩ := within_of_readSuffix annotated
      rw [Piece.IsTiled, Node.IsTiled, span]
      rfl
  | @call c m opened e d name args suffix starts named opens arguments annotated ih =>
      obtain ⟨naming, all, some⟩ := Cursor.passage_of_run? named
      have opening := Cursor.passage_of_char? opens
      have blank := opened.within_skipBlanks.isBlank (opening.isIn (naming.isIn place))
      obtain ⟨closed, tiled, closing⟩ :=
        ih (isIn_of_opening opens (naming.isIn place)) opened.offset blank
      obtain ⟨-, span⟩ := within_of_readSuffix annotated
      have head : name.head?.any isNameStart = true := by
        rw [naming.rest_eq] at starts
        cases name with
        | nil => exact absurd rfl some
        | cons first letters => exact starts
      refine ⟨by rw [span]; rfl, ?_, ?_, opened.offset, closed, ?_, tiled, closing⟩
      · rwa [String.toList_ofList]
      · rw [String.toList_ofList]
        exact List.all_eq_true.mpr all
      · rw [String.toList_ofList]
        exact (naming.append opening).covers place
  | @group c opened e d inner opens inside closes ih =>
      have opening := Cursor.passage_of_char? opens
      have within := isIn_of_opening opens place
      obtain ⟨blank, closing⟩ := covers_of_charAfterBlanks? closes (inside.isIn within)
      have span : inner.span = opened.skipBlanks.spanTo e := inside.span rfl
      refine ⟨opened.offset, e.skipBlanks.offset, opening.covers place, ?_, ih within, ?_, closing⟩
      · rw [span]
        exact opened.within_skipBlanks.isBlank (opening.isIn place)
      · rw [span]
        exact blank
  | single unit ih => exact ih place
  | part every stop ih => exact ih place
  | both first sign second ih ih' | either first sign second stop ih ih' =>
      have later := isIn_of_operator? sign (first.isIn place)
      refine ⟨ih place, ?_, ih' later⟩
      rw [first.span rfl, second.span rfl]
      exact isOperator_of_operator? sign (first.isIn place)
  | @word c d arg read word =>
      cases arg with
      | quoted value span | bare value span => trivial
      | trigger node => cases word
  | trigger either stop ends ih => exact ih place
  | noArgs closes =>
      intro start blank
      exact ⟨_, blank, (Cursor.passage_of_char? closes).covers place⟩
  | lastArg last closes ih =>
      intro start blank
      obtain ⟨behind, closing⟩ := covers_of_charAfterBlanks? closes (last.isIn place)
      refine ⟨_, ⟨?_, ih place, ?_⟩, closing⟩
      · rw [last.span rfl]
        exact blank
      · rw [last.span rfl]
        exact behind
  | @moreArgs c m e d arg next args first comma more ih ih' =>
      intro start blank
      have later := isIn_of_charAfterBlanks? comma (first.isIn place)
      obtain ⟨behind, separating⟩ := covers_of_charAfterBlanks? comma (first.isIn place)
      obtain ⟨closed, tiled, closing⟩ := ih' (e.within_skipBlanks.isIn later) e.offset
        (e.within_skipBlanks.isBlank later)
      refine ⟨closed, ⟨?_, ih place, _, _, ?_, separating, tiled⟩, closing⟩
      · rw [first.span rfl]
        exact blank
      · rw [first.span rfl]
        exact behind

end Reads

-----------------------------------------------------------------------------------------
-- Where calls start
-----------------------------------------------------------------------------------------

/-- Offsets between two places, in ascending order. -/
structure Ascending (start stop : Nat) (offsets : List Nat) : Prop where
  sorted : offsets.Pairwise (· < ·)
  bounds : ∀ offset ∈ offsets, start ≤ offset ∧ offset < stop

namespace Ascending

variable {start middle middle' stop : Nat} {first second : List Nat}

theorem nil : Ascending start stop [] :=
  ⟨.nil, List.forall_mem_nil _⟩

theorem mono {start' stop' : Nat} (h : Ascending start stop first) (starts : start' ≤ start)
    (stops : stop ≤ stop')
    : Ascending start' stop' first := by
  refine ⟨h.sorted, fun offset member => ?_⟩
  have := h.bounds offset member
  omega

/-- Offsets in front of others go on in ascending order. -/
theorem append (h : Ascending start middle first) (h' : Ascending middle' stop second)
    (starts : start ≤ middle') (between : middle ≤ middle') (stops : middle ≤ stop)
    : Ascending start stop (first ++ second) := by
  refine ⟨List.pairwise_append.mpr ⟨h.sorted, h'.sorted, ?_⟩, List.forall_mem_append.mpr ⟨?_, ?_⟩⟩
  · intro a member b member'
    have := h.bounds a member
    have := h'.bounds b member'
    omega
  · intro offset member
    have := h.bounds offset member
    omega
  · intro offset member
    have := h'.bounds offset member
    omega

/-- An offset in front of all others comes first. -/
theorem cons (h : Ascending middle stop first) (before : start < middle) (stops : middle ≤ stop)
    : Ascending start stop (start :: first) := by
  have single : Ascending start middle [start] :=
    ⟨List.pairwise_singleton _ _, List.forall_mem_singleton.mpr ⟨Nat.le_refl _, before⟩⟩
  exact single.append h (Nat.le_of_lt before) (Nat.le_refl _) stops

end Ascending

/-- The offsets at which the calls of a piece start, in the order of the text. -/
def Piece.callStarts : Piece → List Nat
  | .unit node | .every node | .either node => node.nodes.filterMap Node.callStart?
  | .arg found => found.nodes.filterMap Node.callStart?
  | .args found => (Argument.nodesOfList found).filterMap Node.callStart?

namespace Reads

/-- The calls of operands start in ascending order if those of each operand do. -/
theorem ascending_operands {symbol : Char} {m e : Cursor} {left right : List Node}
    (first : Ascending c.offset m.offset (left.filterMap Node.callStart?))
    (forward : c.offset ≤ m.offset) (sign : result? (operator? symbol m) = some ((), e))
    (second : Ascending e.offset d.offset (right.filterMap Node.callStart?))
    (forward' : e.offset ≤ d.offset)
    : Ascending c.offset d.offset ((left ++ right).filterMap Node.callStart?) := by
  obtain ⟨blanks, blanks', gap, -⟩ := passage_of_operator? sign
  have between := gap.offset_le
  rw [List.filterMap_append]
  exact first.append second (Nat.le_trans forward between) between (Nat.le_trans between forward')

/-- The calls of a piece start between its ends, in ascending order, by induction on the derivation:
a call starts in front of the calls in its arguments.
-/
theorem ascending (h : Reads piece c d) : Ascending c.offset d.offset piece.callStarts := by
  induction h with
  | date dated annotated => exact .nil
  | @call c m opened e d name args suffix starts named opens arguments annotated ih =>
      obtain ⟨letters, naming, -⟩ := Cursor.within_of_run? named
      obtain ⟨blanks, skipped, -⟩ := opened.within_skipBlanks
      obtain ⟨⟨marks, marked, -⟩, -⟩ := within_of_readSuffix annotated
      have opening : opened.offset = m.offset + 1 := (Cursor.passage_of_char? opens).offset_eq
      have := naming.offset_le
      have := skipped.offset_le
      have := arguments.offset_le
      have before : c.offset < opened.skipBlanks.offset := by omega
      have inside := ih.mono (Nat.le_refl _) marked.offset_le
      exact inside.cons before (Nat.le_trans arguments.offset_le marked.offset_le)
  | @group c opened e d inner opens inside closes ih =>
      obtain ⟨blanks, skipped, -⟩ := opened.within_skipBlanks
      obtain ⟨blanks', closing, -⟩ := Cursor.passage_of_charAfterBlanks? closes
      have starts := Nat.le_trans (Cursor.passage_of_char? opens).offset_le skipped.offset_le
      exact ih.mono starts closing.offset_le
  | single unit ih => exact ih
  | part every stop ih => exact ih
  | both first sign second ih ih' =>
      exact ascending_operands ih first.offset_le sign ih' second.offset_le
  | either first sign second stop ih ih' =>
      exact ascending_operands ih first.offset_le sign ih' second.offset_le
  | @word c d arg read word =>
      cases arg with
      | quoted value span | bare value span => exact .nil
      | trigger node => cases word
  | trigger either stop ends ih => exact ih
  | noArgs closes => exact .nil
  | lastArg last closes ih =>
      obtain ⟨blanks, closing, -⟩ := Cursor.passage_of_charAfterBlanks? closes
      rw [Piece.callStarts, Argument.nodesOfList, Argument.nodesOfList, List.append_nil]
      exact ih.mono (Nat.le_refl _) closing.offset_le
  | @moreArgs c m e d arg next args first comma more ih ih' =>
      obtain ⟨blanks, separating, -⟩ := Cursor.passage_of_charAfterBlanks? comma
      obtain ⟨blanks', skipped, -⟩ := e.within_skipBlanks
      have between := Nat.le_trans separating.offset_le skipped.offset_le
      rw [Piece.callStarts, Argument.nodesOfList, List.filterMap_append]
      exact ih.append ih' (Nat.le_trans first.offset_le between) between
        (Nat.le_trans between more.offset_le)

end Reads

-----------------------------------------------------------------------------------------
-- Names
-----------------------------------------------------------------------------------------

/-- Every name that is read as a trigger is tiled by its spans: they cut the name only between
characters, the parts of every node stand one behind the other with nothing between them but what
the grammar asks for, and no two calls start at the same offset.
-/
theorem parse_isTiled {name : String} {t : Trigger} (parsed : parse name = .ok t)
    : t.source = name ∧ t.IsTiled := by
  obtain ⟨d, h⟩ := parse_eq_ok.mp parsed
  obtain rfl := h.source
  have place : (Cursor.start t.source.toList).IsIn t.source.toList := Cursor.isIn_start _
  have span : t.root.span = ⟨0, d.offset⟩ := h.reads.span rfl
  refine ⟨rfl, ?_⟩
  exact {
    inside := by
      refine List.forall_mem_cons.mpr ⟨⟨d.rest, ?_⟩, h.reads.spans_isPart place⟩
      rw [h.ending]
      exact h.passage_ending.covers h.isIn
    start := by rw [span]
    root := h.reads.isTiled place
    ending := by rw [h.ending, span]
    stop := by rw [h.ending]
    calls := h.reads.ascending.sorted.imp Nat.ne_of_lt
  }

/-- The call `now()` at an offset. -/
def callOfNow (offset : Nat) : Node :=
  .call "now" [] ⟨offset, offset + 5⟩ ⟨none, none, none, none, ⟨offset + 5, offset + 5⟩⟩

/-- A call with a character of two bytes and another call in its arguments, at an offset. -/
def callOfBin (offset : Nat) : Node :=
  .call "bin" [.quoted "ä" ⟨offset + 4, offset + 8⟩, .trigger (callOfNow (offset + 10))]
    ⟨offset, offset + 16⟩ ⟨none, none, none, none, ⟨offset + 16, offset + 16⟩⟩

/-- The text of that call in front of a rest. -/
abbrev textOfBin (rest : List Char) : List Char :=
  "bin(".toList ++ (['\'', 'ä', '\'', ',', ' '] ++ ("now()".toList ++ ')' :: rest))

/-- A date that is moved by a month, and a call, at an offset. -/
def movedAndNow (offset : Nat) : Node :=
  .both
    (.date (.ofParts 2020 1 1) ⟨offset, offset + 4⟩
      ⟨none, some ⟨0, 1, 0⟩, none, none, ⟨offset + 4, offset + 7⟩⟩)
    (callOfNow (offset + 10))

/-- Their text in front of a rest. -/
abbrev textOfMoved (rest : List Char) : List Char :=
  "2020".toList ++ ("E1M".toList ++ ([' '] ++ '&' :: [' '] ++ ("now()".toList ++ rest)))

section

variable (offset : Nat) {rest : List Char}

/-- The call is read wherever no annotation follows it. -/
theorem reads_callOfNow
    (bare : (readSuffix ⟨offset + 5, rest⟩).result
      = .ok (⟨none, none, none, none, ⟨offset + 5, offset + 5⟩⟩, ⟨offset + 5, rest⟩))
    : Reads (.unit (callOfNow offset)) ⟨offset, "now()".toList ++ rest⟩ ⟨offset + 5, rest⟩ :=
  .call_nil "now" offset (by decide) bare

theorem reads_callOfBin
    (bare : (readSuffix ⟨offset + 16, rest⟩).result
      = .ok (⟨none, none, none, none, ⟨offset + 16, offset + 16⟩⟩, ⟨offset + 16, rest⟩))
    : Reads (.unit (callOfBin offset)) ⟨offset, textOfBin rest⟩ ⟨offset + 16, rest⟩ := by
  have inner : Reads (.arg (.trigger (callOfNow (offset + 10))))
      ⟨offset + 10, "now()".toList ++ ')' :: rest⟩ ⟨offset + 15, ')' :: rest⟩ :=
    .trigger (.part (.single (reads_callOfNow (offset + 10) rfl)) rfl) rfl rfl
  have name := Reads.quoted "ä" (offset + 4) (',' :: ' ' :: ("now()".toList ++ ')' :: rest))
  exact .call_args "bin" offset (by decide) rfl (name.moreArgs_append rfl inner.lastArg_append) bare

theorem reads_movedAndNow
    (bare : (readSuffix ⟨offset + 15, rest⟩).result
      = .ok (⟨none, none, none, none, ⟨offset + 15, offset + 15⟩⟩, ⟨offset + 15, rest⟩))
    : Reads (.every (movedAndNow offset)) ⟨offset, textOfMoved rest⟩ ⟨offset + 15, rest⟩ := by
  have blank : ∀ c ∈ [' '], isSpaceOrTab c = true := List.forall_mem_singleton.mpr rfl
  have period : Period.IsWritable ⟨0, 1, 0⟩ := ⟨by decide, by decide, by decide, by decide⟩
  have writable
      : Suffix.IsWritable ⟨none, some ⟨0, 1, 0⟩, none, none, ⟨offset + 4, offset + 7⟩⟩ :=
    ⟨fun _ same => Option.some.inj same ▸ period, nofun⟩
  have ends : EndsSuffix ([' '] ++ '&' :: [' '] ++ ("now()".toList ++ rest)) :=
    .of_gap blank rfl (by decide) _
  have date : result? (Date.read? ⟨offset, textOfMoved rest⟩)
      = some (.ofParts 2020 1 1,
          ⟨offset + 4, "E1M".toList ++ ([' '] ++ '&' :: [' '] ++ ("now()".toList ++ rest))⟩) :=
    rfl
  have moved := result_readSuffix_append (offset + 4) writable ends
  exact .both_append blank blank (.single (.date date moved)) (reads_callOfNow (offset + 10) bare)

end

/-- A call that has another one in its arguments, a date with an offset and a third call, in
parentheses.
-/
def nestedCalls : Trigger where
  source := "(bin('ä', now()) + 2020E1M & now()) - ü"
  root := .group (.either (callOfBin 1) (movedAndNow 20)) ⟨0, 36⟩
  ending := ⟨36, 41⟩

theorem parse_nestedCalls : parse "(bin('ä', now()) + 2020E1M & now()) - ü" = .ok nestedCalls := by
  have text
      : "(bin('ä', now()) + 2020E1M & now()) - ü".toList
        = '(' :: textOfBin ([' '] ++ '+' :: [' '] ++ textOfMoved (')' :: " - ü".toList)) := by
    decide +kernel
  have size : "(bin('ä', now()) + 2020E1M & now()) - ü".utf8ByteSize = 41 := by
    rw [utf8ByteSize_eq_byteLength]
    rfl
  have blank : ∀ c ∈ [' '], isSpaceOrTab c = true := List.forall_mem_singleton.mpr rfl
  have none : ∀ c ∈ [], isSpaceOrTab c = true := List.forall_mem_nil _
  have second : Reads (.every (movedAndNow 20)) ⟨20, textOfMoved (')' :: " - ü".toList)⟩
      ⟨35, ')' :: " - ü".toList⟩ :=
    reads_movedAndNow 20 rfl
  have either :=
    Reads.either_append blank blank (.part (.single (reads_callOfBin 1 rfl)) rfl) second rfl
  have whole := Reads.group_append none none either
  refine parse_eq_ok.mpr ⟨⟨36, " - ü".toList⟩, ?_, rfl, rfl, by rw [size]; rfl⟩
  rw [Cursor.start, text]
  exact .part (.single whole) rfl

/-- The name is tiled, and its three calls start one behind the other. -/
theorem parse_isTiled_of_nestedCalls
    : parse "(bin('ä', now()) + 2020E1M & now()) - ü" = .ok nestedCalls
      ∧ nestedCalls.IsTiled
      ∧ nestedCalls.root.nodes.filterMap Node.callStart? = [1, 11, 30] :=
  ⟨parse_nestedCalls, (parse_isTiled parse_nestedCalls).2, rfl⟩

end Trigger

end DueTasks
