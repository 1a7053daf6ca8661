import DueTasks.Proofs.Trigger.Locality
import DueTasks.Proofs.Trigger.Tiling

/-! Reading triggers up to the end of a word.
A text goes on behind a word with a character that no word holds, and another text ends the word's
argument there. As long as a trigger that is read from the first text ends within the word, it is
read from the second one too.
-/

namespace DueTasks

open Text Parsed

namespace Trigger

-----------------------------------------------------------------------------------------
-- What words can hold
-----------------------------------------------------------------------------------------

/-- Letters and digits are no white space. -/
theorem isBlank_of_isAlphanum {c : Char} (h : c.isAlphanum = true) : isBlank c = false := by
  have bounds : 48 ≤ c.toNat ∧ c.toNat ≤ 122 := by
    change ((decide (c.val ≥ 'A'.val ∧ c.val ≤ 'Z'.val)
        || (decide (c.val ≥ 'a'.val) && decide (c.val ≤ 'z'.val)))
      || (decide (c.val ≥ '0'.val) && decide (c.val ≤ '9'.val))) = true at h
    simp only [Bool.or_eq_true, Bool.and_eq_true, decide_eq_true_eq, ge_iff_le,
      UInt32.le_iff_toNat_le] at h
    change ((65 ≤ c.toNat ∧ c.toNat ≤ 90) ∨ (97 ≤ c.toNat ∧ c.toNat ≤ 122))
      ∨ (48 ≤ c.toNat ∧ c.toNat ≤ 57) at h
    omega
  simp only [isBlank, blankRanges, List.any_cons, List.any_nil, Bool.or_false,
    Bool.or_eq_false_iff, Bool.and_eq_false_iff, decide_eq_false_iff_not]
  omega

theorem isWordPart_of_isAlphanum {c : Char} (h : c.isAlphanum = true) : isWordPart c = true := by
  have solid : [',', '(', ')', '"', '\''].contains c = false := by
    refine Bool.eq_false_iff.mpr fun mark => ?_
    simp only [List.contains_eq_mem, decide_eq_true_eq, List.mem_cons, List.not_mem_nil,
      or_false] at mark
    rcases mark with rfl | rfl | rfl | rfl | rfl <;> cases h
  rw [isWordPart, isBlank_of_isAlphanum h, solid]
  rfl

theorem isWordPart_of_isNamePart {c : Char} (h : isNamePart c = true) : isWordPart c = true := by
  simp only [isNamePart, Bool.or_eq_true, beq_iff_eq] at h
  rcases h with rfl | h
  · rfl
  · exact isWordPart_of_isAlphanum h

theorem isNamePart_of_isNameStart {c : Char} (h : isNameStart c = true) : isNamePart c = true := by
  simp only [isNameStart, isNamePart, Char.isAlphanum, Bool.or_eq_true] at h ⊢
  exact h.imp_right .inl

/-- Words can hold whatever dates and annotations are made of. -/
theorem isWordPart_of_isUnitPart {c : Char} (h : isUnitPart c = true) : isWordPart c = true := by
  simp only [isUnitPart, isSuffixPart, Bool.or_eq_true, beq_iff_eq, List.contains_eq_mem,
    decide_eq_true_eq, List.mem_cons, List.not_mem_nil, or_false] at h
  rcases h with (h | rfl | rfl | rfl | rfl) | rfl
  · exact isWordPart_of_isAlphanum h
  all_goals rfl

/-- There are no blanks to skip where a word goes on. -/
theorem skipBlanks_of_isWordPart {first : Char} (part : isWordPart first = true) (offset : Nat)
    (rest : List Char)
    : Cursor.skipBlanks ⟨offset, first :: rest⟩ = ⟨offset, first :: rest⟩ :=
  Cursor.skip_append isSpaceOrTab offset (List.forall_mem_nil _)
    (by simpa using isSpaceOrTab_of_isWordPart part)

/-- An operator in a word is its first character. -/
theorem result?_operator?_of_isWordPart {first : Char} (part : isWordPart first = true)
    (symbol : Char) (offset : Nat) (rest : List Char)
    : result? (operator? symbol ⟨offset, first :: rest⟩)
      = if first = symbol then some ((), Cursor.skipBlanks ⟨offset + first.utf8Size, rest⟩)
        else none := by
  rw [result?_operator?, skipBlanks_of_isWordPart part, Cursor.result?_char?_cons]
  split <;> rfl

theorem EndsWord.stops_isWordPart {chars : List Char} (h : EndsWord chars)
    : Text.stops isWordPart chars = true :=
  h.stops (by decide)

end Trigger

namespace Text.Border

variable {b : Border} {c c' d d' : Cursor}

/-- A place in a word has a place beside it in the same word. -/
theorem Beside.inWord (h : b.Beside c c') (inside : Trigger.InWord b.tail c)
    : Trigger.InWord b.tail' c' := by
  obtain ⟨count, chars⟩ := h
  obtain ⟨word, text, all⟩ := inside
  exact ⟨chars, rfl, List.append_cancel_right text ▸ all⟩

/-- What is read up to a place before the border stays in the word. -/
theorem Beside.inWord_of_passage (h : b.Beside d d') {read : List Char} (passage : Passage read c d)
    (inside : Trigger.InWord b.tail c)
    : Trigger.InWord b.tail d := by
  obtain ⟨count, chars⟩ := h
  obtain ⟨word, text, all⟩ := inside
  rw [passage.rest_eq, ← List.append_assoc] at text
  refine ⟨chars, rfl, fun found member => all found ?_⟩
  rw [← List.append_cancel_right text]
  exact List.mem_append_right read member

/-- In the first text a word ends at the border, and in the second one its argument does. -/
structure CutsWord (b : Border) : Prop where
  stop : stops Trigger.isWordPart b.tail = true
  ends : Trigger.EndsWord b.tail'

namespace CutsWord

variable (cuts : b.CutsWord)

include cuts

theorem shut : b.Shut where
  stop := cuts.ends.stops (by decide)
  period _ offset' _ := Period.read?_eq_none offset' (cuts.ends.stops (by decide))

/-- No class that words hold goes on behind the border. -/
theorem stops_tail {belongs : Char → Bool}
    (le : ∀ c, belongs c = true → Trigger.isWordPart c = true)
    : stops belongs b.tail = true ∧ stops belongs b.tail' = true :=
  ⟨stops_mono le cuts.stop, stops_mono le cuts.ends.stops_isWordPart⟩

/-- The first characters of both texts belong to the same classes of what words can hold. -/
theorem any_head? (h : b.Beside c c') {belongs : Char → Bool}
    (le : ∀ c, belongs c = true → Trigger.isWordPart c = true)
    : c'.rest.head?.any belongs = c.rest.head?.any belongs := by
  obtain ⟨count, _ | ⟨first, chars⟩⟩ := h
  · have none (tail : List Char) (stop : stops belongs tail = true)
        : tail.head?.any belongs = false := by
      cases tail with
      | nil => rfl
      | cons first rest => simpa using stop
    rw [List.nil_append, List.nil_append, none _ (cuts.stops_tail le).1,
      none _ (cuts.stops_tail le).2]
  · rfl

/-- An operator is read in both texts or in none, unless the first reader leaves the word. -/
theorem operator?_outcomes (h : b.Beside c c') (inside : Trigger.InWord b.tail c) {symbol : Char}
    (other : symbol ≠ ',' ∧ symbol ≠ ')')
    : (result? (Trigger.operator? symbol c) = none ∧ result? (Trigger.operator? symbol c') = none)
      ∨ (∃ d d',
          result? (Trigger.operator? symbol c) = some ((), d)
          ∧ result? (Trigger.operator? symbol c') = some ((), d')
          ∧ b.Beside d d' ∧ Trigger.InWord b.tail d)
      ∨ ∃ d,
          result? (Trigger.operator? symbol c) = some ((), d) ∧ d.remaining ≤ b.tail.length := by
  obtain ⟨word, text, all⟩ := inside
  obtain ⟨count, chars⟩ := h
  obtain rfl := List.append_cancel_right text
  rcases chars with _ | ⟨first, chars⟩
  · -- the operator would stand behind the word
    have right : result? (Cursor.char? (Cursor.skipBlanks ⟨b.base' + count, b.tail'⟩) symbol)
        = none := by
      refine result?_eq_none.mpr (Cursor.char?_eq_none ?_)
      show (b.tail'.dropWhile isSpaceOrTab).head? ≠ some symbol
      rcases cuts.ends with nothing | comma | close
      · rw [nothing]
        exact nofun
      · rw [comma]
        exact fun same => other.1 (Option.some.inj same).symm
      · rw [close]
        exact fun same => other.2 (Option.some.inj same).symm
    simp only [List.nil_append, Trigger.result?_operator?, right, Option.map_none]
    cases left : result? (Cursor.char? (Cursor.skipBlanks ⟨b.base + count, b.tail⟩) symbol) with
    | none => exact .inl ⟨rfl, trivial⟩
    | some found =>
        refine .inr (.inr ⟨_, rfl, ?_⟩)
        have := Parsed.remaining_lt left
        have := found.2.remaining_skipBlanks_le
        have := (Cursor.mk (b.base + count) b.tail).remaining_skipBlanks_le
        simp only [Cursor.remaining_mk] at *
        omega
  · obtain ⟨part, parts⟩ := List.forall_mem_cons.mp all
    simp only [List.cons_append, Trigger.result?_operator?_of_isWordPart part, Nat.add_assoc]
    split
    · rcases chars with _ | ⟨second, chars⟩
      · refine .inr (.inr ⟨_, rfl, ?_⟩)
        exact Cursor.remaining_skipBlanks_le _
      · have next := (List.forall_mem_cons.mp parts).1
        simp only [List.cons_append, Trigger.skipBlanks_of_isWordPart next]
        exact .inr (.inl ⟨_, _, rfl, rfl, .intro _ (second :: chars), second :: chars, rfl, parts⟩)
    · exact .inl ⟨rfl, rfl⟩

end CutsWord

end Text.Border

namespace Trigger

open Reply Text.Border

-----------------------------------------------------------------------------------------
-- A trigger is read alike up to where it leaves the word
-----------------------------------------------------------------------------------------

theorem final_readGroup (start c : Cursor) : Final (readGroup start c).result := by
  rw [result_readGroup]
  refine (final_final _).bind fun inner _ => ?_
  split
  · exact final_error rfl
  · exact final_ok _

theorem final_readCall (start : Cursor) (name : String) (c : Cursor)
    : Final (readCall start name c).result := by
  rw [result_readCall]
  exact (final_final _).bind fun _ _ => (final_readSuffix _).bind fun _ _ => final_ok _

/-- A name in a word begins no call, as a word has no parenthesis. -/
theorem InWord.readNamed {ending : List Char} {c : Cursor} (inside : InWord ending c)
    (ends : EndsWord ending)
    : ∃ fault, fault.committed = false ∧ Trigger.readNamed c = .error fault := by
  unfold Trigger.readNamed
  split
  · exact ⟨_, rfl, rfl⟩
  · rename_i name hn
    have behind := inside.of_within (Cursor.within_of_run? hn) (ends.stops (by decide))
    rw [behind.char? ends, result?_none]
    exact ⟨_, rfl, rfl⟩

section

variable {b : Border} (cuts : b.CutsWord)

include cuts

/-- A name in a word begins no call, unless the call leaves the word. -/
theorem readNamed_follows_word {c c' : Cursor} (h : b.Beside c c') (inside : InWord b.tail c)
    : b.Agrees (MovedNode b) (readNamed c) (readNamed c') := by
  have part (found : Char) (member : isNamePart found = true) : isWordPart found = true :=
    isWordPart_of_isNamePart member
  obtain ⟨stop, stop'⟩ := cuts.stops_tail part
  obtain ⟨fault', free', rejected'⟩ := (h.inWord inside).readNamed cuts.ends
  rw [rejected']
  unfold readNamed
  split
  · exact .rejected rfl free'
  · rename_i name hn
    split
    · exact .rejected rfl free'
    · rename_i opening ho
      refine .of_lost (final_readCall _ _ _) fun node later read => ?_
      obtain ⟨word, text, all⟩ := inside.of_within (Cursor.within_of_run? hn) stop
      have := Reply.remaining_lt read
      have := opening.2.remaining_skipBlanks_le
      have next := (Cursor.of_char? ho).1
      -- the parenthesis is not a part of the word
      rcases word with _ | ⟨first, word⟩
      · have behind := congrArg List.length (next.symm.trans text)
        simp only [Passed, Cursor.remaining, List.length_cons, List.nil_append] at *
        omega
      · obtain ⟨rfl, -⟩ := List.cons_eq_cons.mp (next.symm.trans text)
        exact absurd (all '(' List.mem_cons_self) (by decide)

/-- A unit is read alike. -/
theorem readUnit_follows_word {c c' : Cursor} (h : b.Beside c c') (inside : InWord b.tail c)
    : b.Agrees (MovedNode b) (readUnit c).result (readUnit c').result := by
  have digit := cuts.any_head? h fun c (digit : c.isDigit = true) =>
    isWordPart_of_isUnitPart (isUnitPart_of_isDigit digit)
  have start := cuts.any_head? h fun c (start : isNameStart c = true) =>
    isWordPart_of_isNamePart (isNamePart_of_isNameStart start)
  rw [result_readUnit c', (h.inWord inside).char? cuts.ends, result?_none, digit, start,
    result_readUnit c]
  split
  · rename_i opening ho
    refine .of_lost (final_readGroup _ _) fun node later read => ?_
    obtain ⟨word, text, all⟩ := inside
    have := Reply.remaining_lt read
    have := opening.2.remaining_skipBlanks_le
    have := Parsed.remaining_lt ho
    have next := (Cursor.of_char? ho).1
    rcases word with _ | ⟨first, word⟩
    · simp only [Passed, Cursor.remaining, text, List.nil_append] at *
      omega
    · obtain ⟨rfl, -⟩ := List.cons_eq_cons.mp (next.symm.trans text)
      exact absurd (all '(' List.mem_cons_self) (by decide)
  · split
    · exact readDate_follows cuts.shut h
    · split
      · exact readNamed_follows_word cuts h inside
      · exact .rejected rfl rfl

/-- More units are read alike, by induction on what is left to read. -/
theorem readBoth_follows_word {left left' : Node} (same : MovedNode b left left') {c c' : Cursor}
    (h : b.Beside c c') (inside : InWord b.tail c)
    : b.Agrees (MovedNode b) (readBoth left c).result (readBoth left' c').result := by
  rw [result_readBoth, result_readBoth]
  have other : '&' ≠ ',' ∧ '&' ≠ ')' := by decide
  rcases cuts.operator?_outcomes h inside other
    with ⟨hl, hr⟩ | ⟨next, next', hl, hr, places, inside⟩ | ⟨next, hl, left⟩
  · rw [hl, hr]
    exact .found same h
  · have := Parsed.remaining_lt hl
    rw [hl, hr]
    refine (final_follows (readUnit_follows_word cuts places inside)).bind
      (fun _ _ => final_readBoth _ _) (fun right _ later lost he => ?_)
      fun node node' d d' read moved places' => ?_
    · exact Nat.lt_of_le_of_lt (Nat.le_of_lt_succ (Reply.remaining_lt he)) lost
    · have read := final_eq_ok read
      have := Reply.remaining_lt read
      obtain ⟨chars, passage, -⟩ := (reads_of_readUnit read).passage
      refine readBoth_follows_word ?_ places' (places'.inWord_of_passage passage inside)
      rw [MovedNode, Node.mapSpans, same, moved]
  · rw [hl]
    refine .of_lost ((final_final _).bind fun _ _ => final_readBoth _ _) fun node later read => ?_
    obtain ⟨right, first, more⟩ := bind_eq_ok read
    have less : right.2.remaining < next.remaining := Reply.remaining_lt (final_eq_ok first)
    have := Reply.remaining_lt more
    simp only [Passed]
    omega
termination_by c.remaining

/-- A part is read alike. -/
theorem readEvery_follows_word {c c' : Cursor} (h : b.Beside c c') (inside : InWord b.tail c)
    : b.Agrees (MovedNode b) (readEvery c).result (readEvery c').result := by
  rw [result_readEvery, result_readEvery]
  refine (readUnit_follows_word cuts h inside).bind (fun _ _ => final_readBoth _ _)
    (fun first _ later lost he => ?_) fun node node' d d' read moved places => ?_
  · exact Nat.lt_of_le_of_lt (Nat.le_of_lt_succ (Reply.remaining_lt he)) lost
  · obtain ⟨chars, passage, -⟩ := (reads_of_readUnit read).passage
    exact readBoth_follows_word cuts moved places (places.inWord_of_passage passage inside)

/-- More parts are read alike, by induction on what is left to read. -/
theorem readEither_follows_word {left left' : Node} (same : MovedNode b left left')
    {c c' : Cursor} (h : b.Beside c c') (inside : InWord b.tail c)
    : b.Agrees (MovedNode b) (readEither left c).result (readEither left' c').result := by
  rw [result_readEither, result_readEither]
  have other : '+' ≠ ',' ∧ '+' ≠ ')' := by decide
  rcases cuts.operator?_outcomes h inside other
    with ⟨hl, hr⟩ | ⟨next, next', hl, hr, places, inside⟩ | ⟨next, hl, left⟩
  · rw [hl, hr]
    exact .found same h
  · have := Parsed.remaining_lt hl
    rw [hl, hr]
    refine (final_follows (readEvery_follows_word cuts places inside)).bind
      (fun _ _ => final_readEither _ _) (fun right _ later lost he => ?_)
      fun node node' d d' read moved places' => ?_
    · exact Nat.lt_of_le_of_lt (Nat.le_of_lt_succ (Reply.remaining_lt he)) lost
    · have read := final_eq_ok read
      have := Reply.remaining_lt read
      obtain ⟨chars, passage, -⟩ := (reads_of_readEvery read).1.passage
      refine readEither_follows_word ?_ places' (places'.inWord_of_passage passage inside)
      rw [MovedNode, Node.mapSpans, same, moved]
  · rw [hl]
    refine .of_lost ((final_final _).bind fun _ _ => final_readEither _ _) fun node later read => ?_
    obtain ⟨right, first, more⟩ := bind_eq_ok read
    have less : right.2.remaining < next.remaining := Reply.remaining_lt (final_eq_ok first)
    have := Reply.remaining_lt more
    simp only [Passed]
    omega
termination_by c.remaining

/-- A trigger is read alike. -/
theorem readNode_follows_word {c c' : Cursor} (h : b.Beside c c') (inside : InWord b.tail c)
    : b.Agrees (MovedNode b) (readNode c).result (readNode c').result := by
  rw [result_readNode, result_readNode]
  refine (readEvery_follows_word cuts h inside).bind (fun _ _ => final_readEither _ _)
    (fun first _ later lost he => ?_) fun node node' d d' read moved places => ?_
  · exact Nat.lt_of_le_of_lt (Nat.le_of_lt_succ (Reply.remaining_lt he)) lost
  · obtain ⟨chars, passage, -⟩ := (reads_of_readEvery read).1.passage
    exact readEither_follows_word cuts moved places (places.inWord_of_passage passage inside)

end

-----------------------------------------------------------------------------------------
-- Arguments that are words
-----------------------------------------------------------------------------------------

section

variable {word ending : List Char} (some : word ≠ []) (all : ∀ c ∈ word, isWordPart c = true)

include some all

/-- A word is read up to where it ends. -/
theorem readWord_word (offset : Nat) (stop : stops isWordPart ending = true)
    : (readWord ⟨offset, word ++ ending⟩).result
      = .ok (.bare (String.ofList word) ⟨offset, offset + byteLength word⟩,
          ⟨offset + byteLength word, ending⟩) := by
  rw [result_readWord, Cursor.result?_run?, Cursor.run_append _ _ all stop, if_neg some,
    Cursor.skip_append _ _ all stop]
  rfl

omit some in
/-- A trigger that ends where an argument ends takes the whole word. -/
theorem readNode_word (ends : EndsArgument ending) {offset : Nat} {node : Node} {d : Cursor}
    (read : (readNode ⟨offset, word ++ ending⟩).result = .ok (node, d))
    (ended : atArgumentEnd d = true)
    : node.span = ⟨offset, offset + byteLength word⟩
      ∧ d = ⟨offset + byteLength word, ending⟩ := by
  obtain ⟨more, text, parts⟩ := readNode_inWord (.inr ends) ⟨word, rfl, all⟩ read
  have nothing : more = [] := by
    obtain ⟨first, others, chars, isEnd⟩ := ((atArgumentEnd_iff d).mp ended).head
    rcases more with _ | ⟨first', more⟩
    · rfl
    · obtain ⟨rfl, -⟩ := List.cons_eq_cons.mp (text.symm.trans chars)
      have part := parts first' List.mem_cons_self
      rcases isEnd with blank | rfl | rfl
      · rw [isSpaceOrTab_of_isWordPart part] at blank
        cases blank
      · exact absurd part (by decide)
      · exact absurd part (by decide)
  have reads := (reads_of_readNode read).1
  obtain ⟨chars, passage, -⟩ := reads.passage
  have whole : chars = word := by
    have split : word ++ ending = chars ++ d.rest := passage.rest_eq
    rw [text, nothing, List.nil_append] at split
    exact (List.append_cancel_right split).symm
  subst nothing whole
  have place : d = ⟨offset + byteLength chars, ending⟩ := by
    obtain ⟨stop, left⟩ := d
    exact congrArg₂ Cursor.mk passage.offset_eq text
  refine ⟨?_, place⟩
  rw [reads.span rfl, place]
  rfl

/-- A word is read as one argument, unless a trigger that begins there has a final fault. -/
theorem readPlainArgument_of_free (ends : EndsArgument ending) {offset : Nat}
    (free
      : ∀ fault,
          (readNode ⟨offset, word ++ ending⟩).result = .error fault → fault.committed = false)
    : ∃ arg,
        readPlainArgument ⟨offset, word ++ ending⟩ = .ok (arg, ⟨offset + byteLength word, ending⟩)
          ∧ arg.span = ⟨offset, offset + byteLength word⟩
          ∧ (arg.word? = none ∨ arg.word? = Option.some (String.ofList word)) := by
  have bare := readWord_word some all offset (EndsWord.stops_isWordPart (.inr ends))
  unfold readPlainArgument
  split
  · rename_i found read
    split
    · rename_i ended
      obtain ⟨span, place⟩ := readNode_word all ends read ended
      exact ⟨.trigger found.1, by rw [place], span, .inl rfl⟩
    · exact ⟨_, bare, rfl, .inr rfl⟩
  · rename_i fault fails
    rw [free fault fails]
    exact ⟨_, bare, rfl, .inr rfl⟩

/-- No quote begins a word. -/
theorem readArgument_word (offset : Nat)
    : (readArgument ⟨offset, word ++ ending⟩).result
      = readPlainArgument ⟨offset, word ++ ending⟩ := by
  obtain ⟨first, more, rfl⟩ := List.exists_cons_of_ne_nil some
  have part := all first List.mem_cons_self
  have unquoted (quote : Char) (mark : isWordPart quote = false)
      : result? (Cursor.char? ⟨offset, first :: more ++ ending⟩ quote) = none := by
    rw [List.cons_append, Cursor.result?_char?_cons, if_neg]
    rintro rfl
    rw [part] at mark
    cases mark
  rw [result_readArgument, unquoted '"' (by decide), unquoted '\'' (by decide)]

end

end Trigger

end DueTasks
