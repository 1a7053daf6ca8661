import DueTasks.Proofs.Trigger.WordReading

/-! Arguments are read alike wherever they stand.
Two texts that agree up to a closing parenthesis are read alike up to there. Nodes cannot tell the
texts apart without reading on behind the parenthesis, and the arguments that the parenthesis closes
end with it.
-/

namespace DueTasks

open Text Parsed

namespace Text.Border

variable {α β : Type} {b : Border} {c c' : Cursor} {rest rest' : List Char}

/-- The border is a closing parenthesis. -/
structure Closing (b : Border) (rest rest' : List Char) : Prop where
  tail : b.tail = ')' :: rest
  tail' : b.tail' = ')' :: rest'

/-- Places before the border, or behind its parenthesis. -/
inductive Through (b : Border) (rest rest' : List Char) : Cursor → Cursor → Prop where
  | before {c c' : Cursor} (h : b.Beside c c') : Through b rest rest' c c'
  | behind (count : Nat) : Through b rest rest' ⟨b.base + count, rest⟩ ⟨b.base' + count, rest'⟩

/-- Both readers find nothing, or both find the same at places that keep to each other. -/
inductive Pairs (keep : Cursor → Cursor → Prop)
    : Option (α × Cursor) → Option (α × Cursor) → Prop where
  | absent : Pairs keep none none
  | found (value : α) {next next' : Cursor} (places : keep next next')
    : Pairs keep (some (value, next)) (some (value, next'))

/-- The two outcomes of readers that pair. -/
theorem Pairs.outcomes {keep : Cursor → Cursor → Prop} {left right : Option (α × Cursor)}
    (h : Pairs keep left right)
    : (left = none ∧ right = none)
      ∨ ∃ value next next',
          left = some (value, next) ∧ right = some (value, next') ∧ keep next next' := by
  cases h with
  | absent => exact .inl ⟨rfl, rfl⟩
  | found value places => exact .inr ⟨value, _, _, rfl, rfl, places⟩

-----------------------------------------------------------------------------------------
-- Reading characters up to a closing parenthesis
-----------------------------------------------------------------------------------------

namespace Closing

variable (closing : b.Closing rest rest')

include closing

theorem shut : b.Shut where
  stop := by
    rw [closing.tail']
    rfl
  period offset offset' _ := by
    rw [closing.tail', ← result?_eq_none, Period.result?_read?]
    rfl

/-- A place that has not more characters left than stand behind the parenthesis has passed it. -/
theorem passed (h : c.remaining ≤ rest.length) : b.Passed c := by
  rw [Passed, closing.tail]
  exact Nat.lt_succ_of_le h

theorem remaining_le (h : b.Passed c) : c.remaining ≤ rest.length := by
  rw [Passed, closing.tail] at h
  exact Nat.le_of_lt_succ h

theorem head? (h : b.Beside c c') : c'.rest.head? = c.rest.head? := by
  obtain ⟨count, _ | ⟨found, chars⟩⟩ := h
  · simp only [List.nil_append, closing.tail, closing.tail', List.head?_cons]
  · rfl

theorem char? (h : b.Beside c c') (expected : Char) (other : expected ≠ ')')
    : Pairs b.Beside (result? (c.char? expected)) (result? (c'.char? expected)) := by
  obtain ⟨count, _ | ⟨found, chars⟩⟩ := h
  · rw [List.nil_append, List.nil_append, closing.tail, closing.tail', Cursor.result?_char?_cons,
      Cursor.result?_char?_cons, if_neg other.symm, if_neg other.symm]
    exact .absent
  · simp only [List.cons_append, Cursor.result?_char?_cons, Nat.add_assoc]
    split
    · exact .found () (.intro _ chars)
    · exact .absent

theorem close? (h : b.Beside c c')
    : Pairs (b.Through rest rest') (result? (c.char? ')')) (result? (c'.char? ')')) := by
  obtain ⟨count, _ | ⟨found, chars⟩⟩ := h
  · rw [List.nil_append, List.nil_append, closing.tail, closing.tail', Cursor.char?_cons_self,
      Cursor.char?_cons_self, Nat.add_assoc, Nat.add_assoc]
    exact .found () (.behind _)
  · simp only [List.cons_append, Cursor.result?_char?_cons, Nat.add_assoc]
    split
    · exact .found () (.before (.intro _ chars))
    · exact .absent

/-- The same run is found in both texts, for a class that the parenthesis does not belong to. -/
theorem run? (h : b.Beside c c') (belongs : Char → Bool) (other : belongs ')' = false)
    : Pairs b.Beside (result? (c.run? belongs)) (result? (c'.run? belongs)) := by
  have stop : stops belongs b.tail = true := by simp [closing.tail, other]
  have stop' : stops belongs b.tail' = true := by simp [closing.tail', other]
  obtain ⟨count, chars⟩ := h
  simp only [Cursor.result?_run?]
  rcases Cursor.run_or_split belongs chars with all | ⟨run, found, more, rfl, all, other⟩
  · rw [Cursor.run_append belongs _ all stop, Cursor.skip_append belongs _ all stop,
      Cursor.run_append belongs _ all stop', Cursor.skip_append belongs _ all stop', Nat.add_assoc,
      Nat.add_assoc]
    split
    · exact .absent
    · exact .found _ (.intro _ [])
  · have before (tail : List Char) : stops belongs (found :: (more ++ tail)) = true := by
      simpa using other
    simp only [List.append_assoc, List.cons_append, Cursor.run_append belongs _ all (before _),
      Cursor.skip_append belongs _ all (before _), Nat.add_assoc]
    split
    · exact .absent
    · exact .found _ (.intro _ (found :: more))

/-- Blanks are skipped alike in both texts. -/
theorem skipBlanks (h : b.Beside c c') : b.Beside c.skipBlanks c'.skipBlanks := by
  have stop : stops isSpaceOrTab b.tail = true := by simp [closing.tail, isSpaceOrTab]
  have stop' : stops isSpaceOrTab b.tail' = true := by simp [closing.tail', isSpaceOrTab]
  obtain ⟨count, chars⟩ := h
  simp only [Cursor.skipBlanks]
  rcases Cursor.run_or_split isSpaceOrTab chars with all | ⟨run, found, more, rfl, all, other⟩
  · rw [Cursor.skip_append _ _ all stop, Cursor.skip_append _ _ all stop', Nat.add_assoc,
      Nat.add_assoc]
    exact .intro _ []
  · have before (tail : List Char) : stops isSpaceOrTab (found :: (more ++ tail)) = true := by
      simpa using other
    simp only [List.append_assoc, List.cons_append, Cursor.skip_append _ _ all (before _),
      Nat.add_assoc]
    exact .intro _ (found :: more)

theorem operator? (h : b.Beside c c') (symbol : Char) (other : symbol ≠ ')')
    : Pairs b.Beside (result? (Trigger.operator? symbol c))
        (result? (Trigger.operator? symbol c')) := by
  rw [Trigger.result?_operator?, Trigger.result?_operator?]
  rcases (closing.char? (closing.skipBlanks h) symbol other).outcomes
    with ⟨left, right⟩ | ⟨_, next, next', left, right, places⟩
  · rw [left, right]
    exact .absent
  · rw [left, right]
    exact .found () (closing.skipBlanks places)

theorem atArgumentEnd (h : b.Beside c c') : Trigger.atArgumentEnd c' = Trigger.atArgumentEnd c := by
  simp only [Trigger.atArgumentEnd, Cursor.sees, closing.head? (closing.skipBlanks h)]

end Closing

/-- A quoted text that ends before the parenthesis is found in both texts, by recursion over the
text up to the parenthesis.
-/
theorem Closing.readQuoted? (closing : b.Closing rest rest') {quote : Char} (other : quote ≠ ')')
    (chars : List Char) (count : Nat)
    : Trigger.readQuoted? quote (b.base + count) (chars ++ b.tail) = none
      ∨ b.Keeps Eq (Trigger.readQuoted? quote (b.base + count) (chars ++ b.tail))
          (Trigger.readQuoted? quote (b.base' + count) (chars ++ b.tail')) := by
  rcases chars with _ | ⟨c, chars⟩
  · cases hl : Trigger.readQuoted? quote (b.base + count) b.tail with
    | none => exact .inl hl
    | some found =>
        rw [List.nil_append, hl]
        exact .inr (.passed (Trigger.readQuoted?_shorter hl))
  · by_cases slash : c = '\\'
    · subst slash
      rcases chars with _ | ⟨d, chars⟩
      · -- an escape ends with the parenthesis, which is not one that can be escaped
        left
        rw [closing.tail, List.singleton_append, Trigger.readQuoted?_escape, if_neg]
        rintro (h | h)
        · cases h
        · exact other h.symm
      · simp only [List.cons_append, Trigger.readQuoted?_escape, Nat.add_assoc]
        split
        · refine (closing.readQuoted? other chars (count + (1 + d.utf8Size))).imp (fun absent => ?_)
            fun keeps => keeps.map fun _ _ => congrArg (d :: ·)
          rw [absent, Option.map_none]
        · exact .inl rfl
    · simp only [List.cons_append, Trigger.readQuoted?_cons _ _ _ slash, Nat.add_assoc]
      split
      · exact .inr (.found rfl (.intro _ chars))
      · refine (closing.readQuoted? other chars (count + c.utf8Size)).imp (fun absent => ?_)
          fun keeps => keeps.map fun _ _ => congrArg (c :: ·)
        rw [absent, Option.map_none]
termination_by chars.length

end Text.Border

namespace Trigger

open Text.Border Reply

variable {b : Border} {c c' : Cursor} {rest rest' : List Char}

-----------------------------------------------------------------------------------------
-- Reading dates and words up to a closing parenthesis
-----------------------------------------------------------------------------------------

theorem final_follows {α β : Type} {lost : Cursor → Prop} {keep : Cursor → Cursor → Prop}
    {same : α → β → Prop} {left : Except Fault (α × Cursor)} {right : Except Fault (β × Cursor)}
    (h : Follows lost keep same left right)
    : Follows lost keep same (final left) (final right) := by
  cases h with
  | final h => exact .final rfl
  | lost h => exact .lost h
  | rejected h h' => exact .final rfl
  | found h places => exact .found h places

/-- The same node, moved to the other text. -/
def MovedNode (b : Border) (node node' : Node) : Prop :=
  node' = node.mapSpans (Span.move b.base b.base')

/-- The same argument, moved to the other text. -/
def MovedArgument (b : Border) (arg arg' : Argument) : Prop :=
  arg' = arg.mapSpans (Span.move b.base b.base')

/-- The same arguments, moved to the other text. -/
def MovedArguments (b : Border) (args args' : List Argument) : Prop :=
  args' = Argument.mapSpansOfList (Span.move b.base b.base') args

/-- Where nothing but a fault can come of reading on: behind the border, or where no argument ends.
-/
def LostArgument (b : Border) (c : Cursor) : Prop :=
  b.Passed c ∨ atArgumentEnd c = false

/-- A date before a shut border is read alike in both texts. -/
theorem readDate_follows (shut : b.Shut) (h : b.Beside c c')
    : b.Agrees (MovedNode b) (readDate c).result (readDate c').result := by
  have date := h.readDate? (shut.head?_ne rfl) shut.stops_isDigit
  rw [result_readDate, result_readDate]
  generalize result? (Date.read? c) = left at date
  generalize result? (Date.read? c') = right at date
  cases date with
  | absent => exact .rejected rfl rfl
  | @passed value next right passed =>
      refine .of_lost ((final_readSuffix _).bind fun _ _ => final_ok _) fun node later he => ?_
      obtain ⟨suffix, hs, he⟩ := bind_eq_ok he
      cases he
      exact Nat.lt_of_le_of_lt (Nat.le_of_lt_succ (Reply.remaining_lt hs)) passed
  | found value places =>
      subst value
      refine (places.readSuffix shut).bind (fun _ _ => final_ok _)
        (fun _ _ _ lost he => ?_) ?_
      · cases he
        exact lost
      · rintro suffix _ d d' - rfl places'
        refine .found ?_ places'
        simp only [MovedNode, Node.mapSpans, h.spanTo places]

section

variable (closing : b.Closing rest rest')

include closing

theorem readWord_follows (h : b.Beside c c')
    : b.Agrees (MovedArgument b) (readWord c).result (readWord c').result := by
  rw [result_readWord, result_readWord]
  rcases (closing.run? h isWordPart (by decide)).outcomes
    with ⟨left, right⟩ | ⟨word, next, next', left, right, places⟩
  · rw [left, right]
    exact .final rfl
  · rw [left, right]
    refine .found ?_ places
    simp only [MovedArgument, Argument.mapSpans, h.spanTo places]

/-- A quoted text before the parenthesis is read alike in both texts. -/
theorem readQuotedArgument_follows {start start' : Cursor} (starts : b.Beside start start')
    (h : b.Beside c c') {quote : Char} (other : quote ≠ ')')
    : b.Agrees (MovedArgument b) (readQuotedArgument quote start c)
        (readQuotedArgument quote start' c') := by
  obtain ⟨count, chars⟩ := h
  simp only [readQuotedArgument]
  rcases closing.readQuoted? other chars count with absent | keeps
  · rw [absent]
    exact .final rfl
  · generalize readQuoted? quote (b.base + count) (chars ++ b.tail) = left at keeps
    generalize readQuoted? quote (b.base' + count) (chars ++ b.tail') = right at keeps
    cases keeps with
    | absent => exact .final rfl
    | passed passed => exact .lost passed
    | found value places =>
        subst value
        refine .found ?_ places
        simp only [MovedArgument, Argument.mapSpans, starts.spanTo places]

theorem close?_afterBlanks (h : b.Beside c c')
    : Pairs (b.Through rest rest') (result? (c.charAfterBlanks? ')'))
        (result? (c'.charAfterBlanks? ')')) := by
  rw [Cursor.result?_charAfterBlanks?, Cursor.result?_charAfterBlanks?]
  exact closing.close? (closing.skipBlanks h)

theorem comma?_afterBlanks (h : b.Beside c c')
    : Pairs b.Beside (result? (c.charAfterBlanks? ',')) (result? (c'.charAfterBlanks? ',')) := by
  rw [Cursor.result?_charAfterBlanks?, Cursor.result?_charAfterBlanks?]
  exact closing.char? (closing.skipBlanks h) ',' (by decide)

end

/-- An argument that passes the border is lost. -/
theorem lostArgument_of_agrees {left right : Except Fault (Argument × Cursor)}
    (h : b.Agrees (MovedArgument b) left right)
    : Follows (LostArgument b) b.Beside (MovedArgument b) left right := by
  cases h with
  | final h => exact .final h
  | lost h => exact .lost (.inl h)
  | rejected h h' => exact .rejected h h'
  | found h places => exact .found h places

-----------------------------------------------------------------------------------------
-- The readers of triggers and arguments go on alike
-----------------------------------------------------------------------------------------

-- The statements follow the readers, and the recursion is theirs: on what is left to read, and from
-- the larger constructs to the smaller ones.
mutual

theorem readNode_follows (closing : b.Closing rest rest') {c c' : Cursor} (h : b.Beside c c')
    : b.Agrees (MovedNode b) (readNode c).result (readNode c').result := by
  rw [result_readNode, result_readNode]
  refine (readEvery_follows closing h).bind (fun first _ => final_readEither _ _)
    (fun first _ later lost he => ?_) fun node node' d d' hf moved places => ?_
  · exact Nat.lt_of_le_of_lt (Nat.le_of_lt_succ (Reply.remaining_lt he)) lost
  · have := Reply.remaining_lt hf
    exact readEither_follows closing moved places
termination_by (c.remaining, 3)

/-- More parts before the parenthesis are read alike in both texts. -/
theorem readEither_follows (closing : b.Closing rest rest') {left left' : Node}
    (same : MovedNode b left left') {c c' : Cursor} (h : b.Beside c c')
    : b.Agrees (MovedNode b) (readEither left c).result (readEither left' c').result := by
  rw [result_readEither, result_readEither]
  rcases (closing.operator? h '+' (by decide)).outcomes
    with ⟨hl, hr⟩ | ⟨_, next, next', hl, hr, places⟩
  · rw [hl, hr]
    exact .found same h
  · have := Parsed.remaining_lt hl
    rw [hl, hr]
    refine (final_follows (readEvery_follows closing places)).bind
      (fun _ _ => final_readEither _ _) (fun right _ later lost he => ?_)
      fun node node' d d' read moved places => ?_
    · exact Nat.lt_of_le_of_lt (Nat.le_of_lt_succ (Reply.remaining_lt he)) lost
    · have := Reply.remaining_lt (final_eq_ok read)
      refine readEither_follows closing ?_ places
      rw [MovedNode, Node.mapSpans, same, moved]
termination_by (c.remaining, 0)

theorem readEvery_follows (closing : b.Closing rest rest') {c c' : Cursor} (h : b.Beside c c')
    : b.Agrees (MovedNode b) (readEvery c).result (readEvery c').result := by
  rw [result_readEvery, result_readEvery]
  refine (readUnit_follows closing h).bind (fun first _ => final_readBoth _ _)
    (fun first _ later lost he => ?_) fun node node' d d' hf moved places => ?_
  · exact Nat.lt_of_le_of_lt (Nat.le_of_lt_succ (Reply.remaining_lt he)) lost
  · have := Reply.remaining_lt hf
    exact readBoth_follows closing moved places
termination_by (c.remaining, 2)

/-- More units before the parenthesis are read alike in both texts. -/
theorem readBoth_follows (closing : b.Closing rest rest') {left left' : Node}
    (same : MovedNode b left left') {c c' : Cursor} (h : b.Beside c c')
    : b.Agrees (MovedNode b) (readBoth left c).result (readBoth left' c').result := by
  rw [result_readBoth, result_readBoth]
  rcases (closing.operator? h '&' (by decide)).outcomes
    with ⟨hl, hr⟩ | ⟨_, next, next', hl, hr, places⟩
  · rw [hl, hr]
    exact .found same h
  · have := Parsed.remaining_lt hl
    rw [hl, hr]
    refine (final_follows (readUnit_follows closing places)).bind
      (fun _ _ => final_readBoth _ _) (fun right _ later lost he => ?_)
      fun node node' d d' read moved places => ?_
    · exact Nat.lt_of_le_of_lt (Nat.le_of_lt_succ (Reply.remaining_lt he)) lost
    · have := Reply.remaining_lt (final_eq_ok read)
      refine readBoth_follows closing ?_ places
      rw [MovedNode, Node.mapSpans, same, moved]
termination_by (c.remaining, 0)

/-- A unit before the parenthesis is read alike in both texts. -/
theorem readUnit_follows (closing : b.Closing rest rest') {c c' : Cursor} (h : b.Beside c c')
    : b.Agrees (MovedNode b) (readUnit c).result (readUnit c').result := by
  rw [result_readUnit, result_readUnit, closing.head? h]
  rcases (closing.char? h '(' (by decide)).outcomes with ⟨hl, hr⟩ | ⟨_, next, next', hl, hr, places⟩
  · rw [hl, hr]
    simp only
    split
    · exact readDate_follows closing.shut h
    · split
      · exact readNamed_follows closing h
      · exact .rejected rfl rfl
  · have := Parsed.remaining_lt hl
    have := next.remaining_skipBlanks_le
    rw [hl, hr]
    exact readGroup_follows closing h (closing.skipBlanks places)
termination_by (c.remaining, 1)

/-- A name and its call before the parenthesis are read alike in both texts. -/
theorem readNamed_follows (closing : b.Closing rest rest') {c c' : Cursor} (h : b.Beside c c')
    : b.Agrees (MovedNode b) (readNamed c) (readNamed c') := by
  unfold readNamed
  rcases (closing.run? h isNamePart (by decide)).outcomes
    with ⟨hl, hr⟩ | ⟨name, next, next', hl, hr, places⟩
  · rw [hl, hr]
    exact .rejected rfl rfl
  · have := Parsed.remaining_lt hl
    rw [hl, hr]
    simp only
    rcases (closing.char? places '(' (by decide)).outcomes
      with ⟨hl, hr⟩ | ⟨_, next, next', hl, hr, places⟩
    · rw [hl, hr]
      exact .rejected rfl rfl
    · have := Parsed.remaining_lt hl
      have := next.remaining_skipBlanks_le
      rw [hl, hr]
      exact readCall_follows closing h name (closing.skipBlanks places)
termination_by (c.remaining, 0)

/-- A group before the parenthesis is read alike in both texts. -/
theorem readGroup_follows (closing : b.Closing rest rest') {start start' : Cursor}
    (starts : b.Beside start start') {c c' : Cursor} (h : b.Beside c c')
    : b.Agrees (MovedNode b) (readGroup start c).result (readGroup start' c').result := by
  rw [result_readGroup, result_readGroup]
  refine (final_follows (readNode_follows closing h)).bind (fun inner _ => ?_)
    (fun inner node later lost he => ?_) fun node node' d d' _ moved places => ?_
  · split
    · exact final_error rfl
    · exact final_ok _
  · split at he
    · cases he
    · rename_i close hc
      cases he
      exact Nat.lt_trans (Parsed.remaining_lt hc) lost
  · rcases (close?_afterBlanks closing places).outcomes
      with ⟨hl, hr⟩ | ⟨_, next, next', hl, hr, through⟩
    · rw [hl, hr]
      exact .final rfl
    · rw [hl, hr]
      cases through with
      | behind count => exact .lost (closing.passed (Nat.le_refl _))
      | before places =>
          refine .found ?_ places
          rw [MovedNode, Node.mapSpans, starts.spanTo places, moved]
termination_by (c.remaining, 4)

/-- A call before the parenthesis is read alike in both texts. -/
theorem readCall_follows (closing : b.Closing rest rest') {start start' : Cursor}
    (starts : b.Beside start start') (name : List Char) {c c' : Cursor} (h : b.Beside c c')
    : b.Agrees (MovedNode b) (readCall start (String.ofList name) c).result
        (readCall start' (String.ofList name) c').result := by
  rw [result_readCall, result_readCall]
  refine (final_follows (readArguments_follows closing h)).bind
    (fun _ _ => (final_readSuffix _).bind fun _ _ => final_ok _)
    (fun args node later lost he => ?_) fun args args' d d' _ moved places => ?_
  · obtain ⟨suffix, hs, he⟩ := bind_eq_ok he
    cases he
    have := Reply.remaining_lt hs
    exact closing.passed (by omega)
  · cases places with
    | behind count =>
        -- the annotations are read from what the texts do not share
        refine .of_lost ((final_readSuffix _).bind fun _ _ => final_ok _) fun node later he => ?_
        obtain ⟨suffix, hs, he⟩ := bind_eq_ok he
        cases he
        exact closing.passed (Nat.le_of_lt_succ (Reply.remaining_lt hs))
    | before places =>
        refine (places.readSuffix closing.shut).bind (fun _ _ => final_ok _)
          (fun _ _ _ lost he => ?_) fun suffix suffix' e e' _ annotated places' => ?_
        · cases he
          exact lost
        · refine .found ?_ places'
          rw [MovedNode, Node.mapSpans, starts.spanTo places, annotated, moved]
termination_by (c.remaining, 8)

/-- Arguments that the parenthesis closes are read alike in both texts. -/
theorem readArguments_follows (closing : b.Closing rest rest') {c c' : Cursor} (h : b.Beside c c')
    : Follows (·.remaining < rest.length) (b.Through rest rest') (MovedArguments b)
        (readArguments c).result (readArguments c').result := by
  rw [result_readArguments, result_readArguments]
  rcases (closing.close? h).outcomes with ⟨hl, hr⟩ | ⟨_, next, next', hl, hr, through⟩
  · rw [hl, hr]
    exact readSomeArguments_follows closing h
  · rw [hl, hr]
    exact .found rfl through
termination_by (c.remaining, 7)

/-- One or more arguments that the parenthesis closes are read alike in both texts. -/
theorem readSomeArguments_follows (closing : b.Closing rest rest') {c c' : Cursor}
    (h : b.Beside c c')
    : Follows (·.remaining < rest.length) (b.Through rest rest') (MovedArguments b)
        (readSomeArguments c).result (readSomeArguments c').result := by
  rw [result_readSomeArguments, result_readSomeArguments]
  refine (readArgument_follows closing h).bind (fun _ _ => final_readMoreArguments _)
    (fun arg args later lost he => ?_) fun arg arg' d d' ha moved places => ?_
  · obtain ⟨ends, less⟩ := readMoreArguments_next he
    rcases lost with passed | other
    · have := closing.remaining_le passed
      omega
    · rw [ends] at other
      cases other
  · have := Reply.remaining_lt ha
    unfold readMoreArguments
    rcases (close?_afterBlanks closing places).outcomes
      with ⟨hl, hr⟩ | ⟨_, next, next', hl, hr, through⟩
    · rw [hl, hr]
      rcases (comma?_afterBlanks closing places).outcomes
        with ⟨hl, hr⟩ | ⟨_, next, next', hl, hr, places⟩
      · simp only [hl, hr]
        exact .final rfl
      · have := Parsed.remaining_lt hl
        have := next.remaining_skipBlanks_le
        simp only [hl, hr]
        refine (readSomeArguments_follows closing (closing.skipBlanks places)).bind
          (fun _ _ => final_ok _) (fun _ _ _ lost he => ?_)
          fun more more' e e' _ moved' places' => ?_
        · cases he
          exact lost
        · refine .found ?_ places'
          rw [MovedArguments, Argument.mapSpansOfList, moved, moved']
    · rw [hl, hr]
      refine .found ?_ through
      rw [MovedArguments, Argument.mapSpansOfList, Argument.mapSpansOfList, moved]
termination_by (c.remaining, 6)

/-- An argument before the parenthesis is read alike in both texts, unless it is lost. -/
theorem readArgument_follows (closing : b.Closing rest rest') {c c' : Cursor} (h : b.Beside c c')
    : Follows (LostArgument b) b.Beside (MovedArgument b) (readArgument c).result
        (readArgument c').result := by
  rw [result_readArgument, result_readArgument]
  rcases (closing.char? h '"' (by decide)).outcomes
    with ⟨hl, hr⟩ | ⟨_, next, next', hl, hr, places⟩
  · rcases (closing.char? h '\'' (by decide)).outcomes
      with ⟨hl', hr'⟩ | ⟨_, next, next', hl', hr', places⟩
    · rw [hl, hr, hl', hr']
      exact readPlainArgument_follows closing h
    · rw [hl, hr, hl', hr']
      exact lostArgument_of_agrees (readQuotedArgument_follows closing h places (by decide))
  · rw [hl, hr]
    exact lostArgument_of_agrees (readQuotedArgument_follows closing h places (by decide))
termination_by (c.remaining, 5)

/-- An argument without quotes before the parenthesis is read alike in both texts, unless it is
lost. A trigger that reads on behind the parenthesis counts for nothing: if the argument is then
taken as a word, the word does not end where an argument could.
-/
theorem readPlainArgument_follows (closing : b.Closing rest rest') {c c' : Cursor}
    (h : b.Beside c c')
    : Follows (LostArgument b) b.Beside (MovedArgument b) (readPlainArgument c)
        (readPlainArgument c') := by
  have node := readNode_follows closing h
  have word := lostArgument_of_agrees (readWord_follows closing h)
  unfold readPlainArgument
  cases hn : (readNode c).result with
  | error fault =>
      rw [hn] at node
      generalize (readNode c').result = right at node
      cases node with
      | final committed =>
          simp only [committed, if_true]
          exact .final committed
      | rejected free free' =>
          simp only [free, free', Bool.false_eq_true, if_false]
          exact word
  | ok found =>
      rw [hn] at node
      generalize (readNode c').result = right at node
      cases node with
      | @lost value next _ passed =>
          simp only
          split
          · exact .lost (.inl passed)
          · refine .of_lost (final_readWord c) fun arg later he => ?_
            rw [readWord_next he]
            cases ends : atArgumentEnd (c.skip isWordPart) with
            | false => exact .inr ends
            | true => exact .inl (Nat.lt_of_le_of_lt (readNode_remaining hn ends) passed)
      | found moved places =>
          simp only [closing.atArgumentEnd places]
          split
          · refine .found ?_ places
            rw [MovedArgument, Argument.mapSpans, moved]
          · exact word
termination_by (c.remaining, 4)

end

-----------------------------------------------------------------------------------------
-- Arguments can be read in front of another text
-----------------------------------------------------------------------------------------

/-- Arguments with their closing parenthesis are read alike behind any two offsets, whatever follows
them.
-/
theorem readArguments_behind {chars rest : List Char} {base count : Nat} {args : List Argument}
    (read
      : (readArguments ⟨base + count, chars ++ ')' :: rest⟩).result
        = .ok (args, ⟨base + count + byteLength chars + 1, rest⟩))
    (base' : Nat) (rest' : List Char)
    : (readArguments ⟨base' + count, chars ++ ')' :: rest'⟩).result
      = .ok (Argument.mapSpansOfList (Span.move base base') args,
          ⟨base' + count + byteLength chars + 1, rest'⟩) := by
  let b : Border := ⟨base, base', ')' :: rest, ')' :: rest'⟩
  have closing : b.Closing rest rest' := ⟨rfl, rfl⟩
  have follows := readArguments_follows closing (.intro count chars)
  rw [show (readArguments ⟨b.base + count, chars ++ b.tail⟩).result = _ from read] at follows
  show (readArguments ⟨b.base' + count, chars ++ b.tail'⟩).result = _
  generalize (readArguments ⟨b.base' + count, chars ++ b.tail'⟩).result = right at follows
  cases follows with
  | lost less => exact absurd less (Nat.lt_irrefl _)
  | found moved through =>
      rw [moved]
      generalize hn : Cursor.mk (base + count + byteLength chars + 1) rest = next at through
      cases through with
      | before places =>
          obtain ⟨later, more⟩ := places
          have := congrArg (fun c => c.rest.length) hn
          simp only [b, List.length_append, List.length_cons] at this
          omega
      | behind later =>
          have same : base' + later = base' + count + byteLength chars + 1 := by
            have := congrArg Cursor.offset hn
            simp only [b] at this
            omega
          rw [← same]

/-- Arguments with their closing parenthesis are read alike at any place and whatever follows. -/
theorem readArguments_elsewhere {chars rest : List Char} {offset : Nat} {args : List Argument}
    (read
      : (readArguments ⟨offset, chars ++ ')' :: rest⟩).result
        = .ok (args, ⟨offset + byteLength chars + 1, rest⟩))
    (offset' : Nat) (rest' : List Char)
    : (readArguments ⟨offset', chars ++ ')' :: rest'⟩).result
      = .ok (Argument.mapSpansOfList (Span.move offset offset') args,
          ⟨offset' + byteLength chars + 1, rest'⟩) :=
  @readArguments_behind chars rest offset 0 args read offset' rest'

/-- At their own place they are read with the same spans, whatever follows. -/
theorem readArguments_here {chars rest : List Char} {offset : Nat} {args : List Argument}
    (read
      : (readArguments ⟨offset, chars ++ ')' :: rest⟩).result
        = .ok (args, ⟨offset + byteLength chars + 1, rest⟩))
    (rest' : List Char)
    : (readArguments ⟨offset, chars ++ ')' :: rest'⟩).result
      = .ok (args, ⟨offset + byteLength chars + 1, rest'⟩) := by
  rw [← Nat.zero_add offset] at read ⊢
  rw [readArguments_behind read 0 rest', Span.move_zero, Argument.mapSpansOfList_id]

end Trigger

end DueTasks
