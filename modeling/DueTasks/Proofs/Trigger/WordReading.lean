import DueTasks.Proofs.Trigger.NodeReading

/-! Triggers that are read from a word.
Where a word ends the text or an argument ends behind it, a trigger that is read from its start ends
within the word: it takes a parenthesis to read on, and a word has none.
-/

namespace DueTasks

open Text Parsed

namespace Trigger

/-- Whether an argument ends where a text begins, blanks aside. -/
def EndsArgument (chars : List Char) : Prop :=
  (chars.dropWhile isSpaceOrTab).head? = some ',' ∨ (chars.dropWhile isSpaceOrTab).head? = some ')'

theorem atArgumentEnd_iff (c : Cursor) : atArgumentEnd c = true ↔ EndsArgument c.rest := by
  simp only [atArgumentEnd, Cursor.sees, Bool.or_eq_true, beq_iff_eq]
  rfl

theorem EndsArgument.head {chars : List Char} (h : EndsArgument chars)
    : ∃ c rest,
        chars = c :: rest ∧ (isSpaceOrTab c = true ∨ c = ',' ∨ c = ')') := by
  rcases chars with _ | ⟨c, rest⟩
  · rcases h with h | h <;> cases h
  · refine ⟨c, rest, rfl, ?_⟩
    by_cases blank : isSpaceOrTab c = true
    · exact .inl blank
    · simp only [EndsArgument, List.dropWhile_cons_of_neg blank, List.head?_cons,
        Option.some.injEq] at h
      exact .inr h

/-- No class that has neither blanks nor commas nor closing parentheses goes on where an argument
ends.
-/
theorem EndsArgument.stops {chars : List Char} (h : EndsArgument chars) {belongs : Char → Bool}
    (others : belongs ' ' = false ∧ belongs '\t' = false ∧ belongs ',' = false
      ∧ belongs ')' = false)
    : Text.stops belongs chars = true := by
  obtain ⟨space, tab, comma, close⟩ := others
  obtain ⟨c, rest, rfl, hc⟩ := h.head
  simp only [isSpaceOrTab, Bool.or_eq_true, beq_iff_eq] at hc
  rcases hc with (rfl | rfl) | rfl | rfl <;> simp [*]

/-- Whether a word can end where a text begins: nothing but blanks is left, or an argument ends. -/
def EndsWord (chars : List Char) : Prop :=
  chars.dropWhile isSpaceOrTab = [] ∨ EndsArgument chars

/-- A class that goes on where a word ends has blanks, commas or closing parentheses. -/
theorem EndsWord.stops {chars : List Char} (h : EndsWord chars) {belongs : Char → Bool}
    (others : belongs ' ' = false ∧ belongs '\t' = false ∧ belongs ',' = false
      ∧ belongs ')' = false)
    : Text.stops belongs chars = true := by
  rcases h with blank | ends
  · obtain ⟨space, tab, -, -⟩ := others
    rcases chars with _ | ⟨c, rest⟩
    · rfl
    · have hc : isSpaceOrTab c = true :=
        Classical.byContradiction fun solid => by
          rw [List.dropWhile_cons_of_neg solid] at blank
          cases blank
      simp only [isSpaceOrTab, Bool.or_eq_true, beq_iff_eq] at hc
      rcases hc with rfl | rfl <;> simp [*]
  · exact ends.stops others

theorem isSpaceOrTab_of_isWordPart {c : Char} (part : isWordPart c = true)
    : isSpaceOrTab c = false := by
  cases blank : isSpaceOrTab c with
  | false => rfl
  | true => simp [isWordPart, isBlank_of_isSpaceOrTab blank] at part

/-- A place in a word. -/
def InWord (ending : List Char) (c : Cursor) : Prop :=
  ∃ word, c.rest = word ++ ending ∧ ∀ found ∈ word, isWordPart found = true

variable {ending : List Char} {c d : Cursor}

/-- What is read of a class that words can hold does not leave the word. -/
theorem InWord.of_within (h : InWord ending c) {belongs : Char → Bool} (within : Within belongs c d)
    (stop : stops belongs ending = true)
    : InWord ending d := by
  obtain ⟨word, text, all⟩ := h
  obtain ⟨more, rest, suffix⟩ := within.stays text stop
  exact ⟨more, rest, fun found member => all found (suffix.subset member)⟩

theorem InWord.char? (h : InWord ending c) (ends : EndsWord ending) : c.char? '(' = none := by
  obtain ⟨word, text, all⟩ := h
  refine Cursor.char?_eq_none ?_
  rw [text]
  rcases word with _ | ⟨found, word⟩
  · have stop : stops (· == '(') ending = true := ends.stops (by decide)
    exact head?_ne_of_stops stop rfl
  · rintro ⟨rfl⟩
    exact absurd (all '(' List.mem_cons_self) (by decide)

/-- A unit that is read from a word ends within it. -/
theorem readUnit_inWord (ends : EndsWord ending) (h : InWord ending c) {node : Node}
    (read : (readUnit c).result = .ok (node, d))
    : InWord ending d := by
  rw [result_readUnit, h.char? ends, result?_none] at read
  simp only at read
  split at read
  · rw [result_readDate] at read
    split at read
    · cases read
    · rename_i date hd
      obtain ⟨suffix, hs, he⟩ := Reply.bind_eq_ok read
      cases he
      have within := ((Date.within_of_read? hd).mono fun _ => isUnitPart_of_date).trans
        (within_of_readSuffix hs).1
      exact h.of_within within (ends.stops (by decide))
  · split at read
    · unfold readNamed at read
      split at read
      · cases read
      · rename_i name hn
        -- behind the name of a call there would be a parenthesis
        have inside := h.of_within (Cursor.within_of_run? hn) (ends.stops (by decide))
        rw [inside.char? ends, result?_none] at read
        cases read
    · cases read

/-- A place where at most a comma or a closing parenthesis can be read. -/
def AtEnd (c : Cursor) : Prop :=
  c.rest = [] ∨ c.rest.head? = some ',' ∨ c.rest.head? = some ')'

theorem AtEnd.readUnit (h : AtEnd c) (found : Node × Cursor) : (readUnit c).result ≠ .ok found := by
  obtain ⟨offset, _ | ⟨first, rest⟩⟩ := c
  · rw [result_readUnit]
    exact fun h => nomatch h
  · have first_eq : first = ',' ∨ first = ')' := by simpa [AtEnd] using h
    rw [result_readUnit, Cursor.result?_char?_cons]
    rcases first_eq with rfl | rfl <;> exact fun h => nomatch h

theorem AtEnd.readEvery (h : AtEnd c) (found : Node × Cursor)
    : (readEvery c).result ≠ .ok found := by
  rw [result_readEvery]
  intro read
  obtain ⟨first, hf, -⟩ := Reply.bind_eq_ok read
  exact h.readUnit first hf

/-- Skipping blanks does nothing in a word before its end, and leads to what ends the argument
there.
-/
theorem InWord.skipBlanks (ends : EndsWord ending) (h : InWord ending c)
    : (c.skipBlanks = c ∧ c.rest ≠ ending) ∨ AtEnd c.skipBlanks := by
  obtain ⟨offset, rest⟩ := c
  obtain ⟨word, rfl, all⟩ := h
  rcases word with _ | ⟨first, word⟩
  · exact .inr ends
  · have solid : isSpaceOrTab first = false :=
      isSpaceOrTab_of_isWordPart (all first List.mem_cons_self)
    refine .inl ⟨?_, fun h => absurd (congrArg List.length h) (by simp; omega)⟩
    have none : ∀ c ∈ ([] : List Char), isSpaceOrTab c = true := List.forall_mem_nil _
    exact Cursor.skip_append isSpaceOrTab offset none (by simpa using solid)

/-- Behind an operator that is read from a word, the word goes on or the argument has ended. -/
theorem operator?_inWord (ends : EndsWord ending) (h : InWord ending c) {symbol : Char}
    (other : symbol ≠ ',' ∧ symbol ≠ ')') {value : Unit}
    (read : result? (operator? symbol c) = some (value, d))
    : InWord ending d ∨ AtEnd d := by
  rw [result?_operator?] at read
  obtain ⟨found, hf, he⟩ := Option.map_eq_some_iff.mp read
  cases he
  have next := (Cursor.of_char? hf).1
  rcases h.skipBlanks ends with ⟨same, before⟩ | ended
  · rw [same] at next
    obtain ⟨word, text, all⟩ := h
    rcases word with _ | ⟨first, word⟩
    · exact absurd text before
    · obtain ⟨-, text⟩ := List.cons_eq_cons.mp (next.symm.trans text)
      have inside : InWord ending found.2 :=
        ⟨word, text, fun found member => all found (List.mem_cons_of_mem _ member)⟩
      rcases inside.skipBlanks ends with ⟨same, -⟩ | ended
      · rw [same]
        exact .inl inside
      · exact .inr ended
  · simp only [AtEnd, next, List.head?_cons, Option.some.injEq, reduceCtorEq, false_or] at ended
    rcases ended with h | h
    · exact absurd h other.1
    · exact absurd h other.2

/-- More units that are read from a word end within it, by induction on what is left to read. -/
theorem readBoth_inWord (ends : EndsWord ending) (left : Node) {c : Cursor}
    (h : InWord ending c) {node : Node} (read : (readBoth left c).result = .ok (node, d))
    : InWord ending d := by
  rw [result_readBoth] at read
  split at read
  · cases read
    exact h
  · rename_i sign hs
    have := Parsed.remaining_lt hs
    obtain ⟨right, hr, read⟩ := Reply.bind_eq_ok read
    have hr := Reply.final_eq_ok hr
    have := Reply.remaining_lt hr
    rcases operator?_inWord ends h (by decide) hs with inside | ended
    · exact readBoth_inWord ends _ (readUnit_inWord ends inside hr) read
    · exact absurd hr (ended.readUnit right)
termination_by c.remaining

/-- A part that is read from a word ends within it. -/
theorem readEvery_inWord (ends : EndsWord ending) (h : InWord ending c) {node : Node}
    (read : (readEvery c).result = .ok (node, d))
    : InWord ending d := by
  rw [result_readEvery] at read
  obtain ⟨first, hf, read⟩ := Reply.bind_eq_ok read
  exact readBoth_inWord ends _ (readUnit_inWord ends h hf) read

/-- More parts that are read from a word end within it, by induction on what is left to read. -/
theorem readEither_inWord (ends : EndsWord ending) (left : Node) {c : Cursor}
    (h : InWord ending c) {node : Node} (read : (readEither left c).result = .ok (node, d))
    : InWord ending d := by
  rw [result_readEither] at read
  split at read
  · cases read
    exact h
  · rename_i sign hs
    have := Parsed.remaining_lt hs
    obtain ⟨right, hr, read⟩ := Reply.bind_eq_ok read
    have hr := Reply.final_eq_ok hr
    have := Reply.remaining_lt hr
    rcases operator?_inWord ends h (by decide) hs with inside | ended
    · exact readEither_inWord ends _ (readEvery_inWord ends inside hr) read
    · exact absurd hr (ended.readEvery right)
termination_by c.remaining

/-- A trigger that is read from a word ends within it. -/
theorem readNode_inWord (ends : EndsWord ending) (h : InWord ending c) {node : Node}
    (read : (readNode c).result = .ok (node, d))
    : InWord ending d := by
  rw [result_readNode] at read
  obtain ⟨first, hf, read⟩ := Reply.bind_eq_ok read
  exact readEither_inWord ends _ (readEvery_inWord ends h hf) read

/-- A trigger that is read from the start of a word leaves what stands behind the word, if an
argument ends there.
-/
theorem readNode_remaining {node : Node} (read : (readNode c).result = .ok (node, d))
    (ends : atArgumentEnd (c.skip isWordPart) = true)
    : (c.skip isWordPart).remaining ≤ d.remaining := by
  have ends := (atArgumentEnd_iff _).mp ends
  obtain ⟨split, all, -⟩ := c.run_split isWordPart
  have inside : InWord (c.skip isWordPart).rest c := ⟨c.run isWordPart, split, all⟩
  obtain ⟨word, text, -⟩ := readNode_inWord (.inr ends) inside read
  simp only [Cursor.remaining, text, List.length_append]
  omega

end Trigger

end DueTasks
