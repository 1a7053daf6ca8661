import DueTasks.Proofs.Trigger.Derivation
import DueTasks.Proofs.Trigger.SuffixPrinting

/-! Derivations put together from texts.
Where a piece is to be read, its parts, the blanks and the marks between them stand one behind the
other. Blanks do not matter, as long as what follows them begins with none.
-/

namespace DueTasks

open Text Parsed

namespace Period

/-- There is no period at a date in full, as its year has no unit. -/
theorem read?_plus_date (offset : Nat) {d : Date} (year : 0 ≤ d.year ∧ d.year ≤ 9999)
    (rest : List Char)
    : read? ⟨offset, '+' :: (d.chars ++ rest)⟩ = none := by
  rw [Date.chars_eq year, List.append_assoc, List.cons_append, List.cons_append]
  exact read?_plus_digits offset isDigit_of_mem_paddedDecimal rfl

/-- There is no period at a date, unless its text goes on as a number with a unit would. -/
theorem read?_plus_of_date {c next : Cursor} {date : Date}
    (dated : result? (Date.read? c) = some (date, next)) (stop : stops isCountPart next.rest = true)
    (offset : Nat)
    : read? ⟨offset, '+' :: c.rest⟩ = none := by
  rw [Date.result?_read?] at dated
  obtain ⟨year, digits, behind⟩ := Option.map_eq_some_iff.mp dated
  rw [Cursor.result?_digits?] at digits
  split at digits
  · rename_i four
    obtain rfl := Option.some.inj digits
    have stop' : stops isCountPart (c.rest.drop 4) = true := by
      -- either a hyphen follows the year, or the date ends there
      simp only [Date.readMonth] at behind
      split at behind
      · cases behind
        exact stop
      · rename_i month found
        rw [Cursor.result?_digitsAfter?] at found
        obtain ⟨hyphen, sign, -⟩ := Option.bind_eq_some_iff.mp found
        have tail := (Cursor.of_char? sign).1
        simp only at tail
        rw [tail]
        rfl
    rw [← List.take_append_drop 4 c.rest]
    exact read?_plus_digits offset (List.all_eq_true.mp four.2) stop'
  · cases digits

end Period

namespace Trigger

open Reply

-----------------------------------------------------------------------------------------
-- Blanks and operators
-----------------------------------------------------------------------------------------

/-- No operator comes next exactly if its character does not, blanks apart. -/
theorem noOperator_iff {symbol : Char} {c : Cursor}
    : NoOperator symbol c ↔ c.skipBlanks.rest.head? ≠ some symbol := by
  rw [NoOperator, ← result?_eq_none, result?_operator?, Option.map_eq_none_iff, result?_eq_none]
  exact ⟨Cursor.head?_ne_of_char?, Cursor.char?_eq_none⟩

/-- Whether an operator comes next does not depend on the offset. -/
theorem NoOperator.elsewhere {symbol : Char} {offset : Nat} {rest : List Char}
    (h : NoOperator symbol ⟨offset, rest⟩) (offset' : Nat)
    : NoOperator symbol ⟨offset', rest⟩ := by
  rw [noOperator_iff] at h ⊢
  exact h

/-- An operator with blanks around it is read up to what follows, if that is not a blank. -/
theorem result?_operator?_append {symbol : Char} {blanks blanks' rest : List Char}
    (all : ∀ c ∈ blanks, isSpaceOrTab c = true) (all' : ∀ c ∈ blanks', isSpaceOrTab c = true)
    (visible : isSpaceOrTab symbol = false) (stop : stops isSpaceOrTab rest = true) (offset : Nat)
    : result? (operator? symbol ⟨offset, blanks ++ symbol :: blanks' ++ rest⟩)
      = some ((), ⟨offset + byteLength (blanks ++ symbol :: blanks'), rest⟩) := by
  have before : stops isSpaceOrTab (symbol :: (blanks' ++ rest)) = true := by simpa using visible
  rw [result?_operator?, List.append_assoc, List.cons_append, Cursor.skipBlanks,
    Cursor.skip_append _ _ all before, Cursor.char?_cons_self, Option.map_some]
  simp only [Cursor.skipBlanks, Cursor.skip_append _ _ all' stop, byteLength_append,
    byteLength_cons, Nat.add_assoc]

/-- Behind blanks no operator comes next exactly if another character does. -/
theorem noOperator_append {symbol found : Char} {blanks rest : List Char} {offset : Nat}
    (all : ∀ c ∈ blanks, isSpaceOrTab c = true) (visible : isSpaceOrTab found = false)
    : NoOperator symbol ⟨offset, blanks ++ found :: rest⟩ ↔ found ≠ symbol := by
  rw [noOperator_iff, Cursor.skipBlanks, Cursor.skip_append _ _ all (by simpa using visible)]
  exact not_congr ⟨Option.some.inj, congrArg some⟩

theorem isSuffixPart_of_isSpaceOrTab {c : Char} (h : isSpaceOrTab c = true)
    : isSuffixPart c = false := by
  simp only [isSpaceOrTab, Bool.or_eq_true, beq_iff_eq] at h
  rcases h with rfl | rfl <;> rfl

/-- What a period can begin with is an annotation, the plus sign apart. -/
theorem stops_of_isSuffixPart {c : Char} {rest : List Char} (h : isSuffixPart c = false)
    (plus : c ≠ '+')
    : stops (fun c => c.isDigit || c == '-' || c == '+') (c :: rest) = true := by
  simp only [isSuffixPart, Char.isAlphanum, List.contains_cons, Bool.or_eq_false_iff] at h
  simp only [stops_cons, Bool.not_eq_true', Bool.or_eq_false_iff, beq_eq_false_iff_ne]
  exact ⟨⟨h.1.2, by simpa using h.2.2.2.1⟩, plus⟩

/-- Behind blanks and a character that is none, no annotation goes on. -/
theorem stops_gap {blanks : List Char} {found : Char} (all : ∀ c ∈ blanks, isSpaceOrTab c = true)
    (other : isSuffixPart found = false) (rest : List Char)
    : stops isSuffixPart (blanks ++ found :: rest) = true := by
  cases blanks with
  | nil => simpa using other
  | cons blank blanks => simpa using isSuffixPart_of_isSpaceOrTab (List.forall_mem_cons.mp all).1

theorem read?_blank_eq_none {blank : Char} (isBlank : isSpaceOrTab blank = true) (offset : Nat)
    (rest : List Char)
    : Period.read? ⟨offset, blank :: rest⟩ = none := by
  refine Period.read?_eq_none _ (stops_of_isSuffixPart (isSuffixPart_of_isSpaceOrTab isBlank) ?_)
  rintro rfl
  cases isBlank

/-- No period begins at blanks and a character that is no annotation, a plus sign apart. -/
theorem read?_gap_eq_none {blanks : List Char} {found : Char}
    (all : ∀ c ∈ blanks, isSpaceOrTab c = true) (other : isSuffixPart found = false)
    (plus : found ≠ '+') (offset : Nat) (rest : List Char)
    : Period.read? ⟨offset, blanks ++ found :: rest⟩ = none := by
  cases blanks with
  | nil => exact Period.read?_eq_none _ (stops_of_isSuffixPart other plus)
  | cons blank blanks => exact read?_blank_eq_none (List.forall_mem_cons.mp all).1 _ _

/-- No annotation goes on with a character that is none, behind blanks. -/
theorem EndsSuffix.of_gap {blanks : List Char} {found : Char}
    (all : ∀ c ∈ blanks, isSpaceOrTab c = true) (other : isSuffixPart found = false)
    (plus : found ≠ '+') (rest : List Char)
    : EndsSuffix (blanks ++ found :: rest) :=
  ⟨stops_gap all other rest, fun offset => read?_gap_eq_none all other plus offset rest⟩

/-- No period begins at an operator with blanks around it, unless it is a bare plus sign. -/
theorem read?_operator_eq_none {symbol : Char} {blanks blanks' : List Char}
    (all : ∀ c ∈ blanks, isSpaceOrTab c = true) (all' : ∀ c ∈ blanks', isSpaceOrTab c = true)
    (isOperator : symbol = '&' ∨ symbol = '+') (rest : List Char)
    : (∀ offset, Period.read? ⟨offset, blanks ++ symbol :: blanks' ++ rest⟩ = none)
      ∨ blanks ++ symbol :: blanks' = ['+'] := by
  cases blanks with
  | cons blank blanks =>
      exact .inl fun offset => read?_blank_eq_none (List.forall_mem_cons.mp all).1 _ _
  | nil =>
      rcases isOperator with rfl | rfl
      · exact .inl fun offset => Period.read?_eq_none _ rfl
      · cases blanks' with
        | nil => exact .inr rfl
        | cons blank blanks' =>
            refine .inl fun offset => Period.read?_sign_eq_none _ (.inr rfl) ?_
            have isBlank := isSuffixPart_of_isSpaceOrTab (List.forall_mem_cons.mp all').1
            simp only [isSuffixPart, Char.isAlphanum, Bool.or_eq_false_iff] at isBlank
            simpa using isBlank.1.2

/-- Nothing that can begin a trigger is a blank. -/
theorem isSpaceOrTab_of_isNodeStart {c : Char} (h : isNodeStart c = true)
    : isSpaceOrTab c = false := by
  refine Bool.eq_false_iff.mpr fun blank => ?_
  simp only [isSpaceOrTab, Bool.or_eq_true, beq_iff_eq] at blank
  rcases blank with rfl | rfl <;> cases h

theorem result?_charAfterBlanks?_append {expected : Char} {blanks : List Char}
    (all : ∀ c ∈ blanks, isSpaceOrTab c = true) (visible : isSpaceOrTab expected = false)
    (offset : Nat) (rest : List Char)
    : result? (Cursor.charAfterBlanks? ⟨offset, blanks ++ expected :: rest⟩ expected)
      = some ((), ⟨offset + byteLength blanks + expected.utf8Size, rest⟩) := by
  rw [Cursor.result?_charAfterBlanks?, Cursor.skipBlanks,
    Cursor.skip_append _ _ all (by simpa using visible), Cursor.char?_cons_self]

section

variable {letters : List Char} (starts : letters.head?.any isNameStart = true)

include starts

theorem head?_name (rest : List Char) : (letters ++ rest).head? = letters.head? := by
  obtain _ | ⟨letter, letters⟩ := letters
  · cases starts
  · rfl

/-- The name of a call is read up to the opening parenthesis. -/
theorem run?_name (parts : ∀ c ∈ letters, isNamePart c = true) (offset : Nat) (rest : List Char)
    : result? (Cursor.run? ⟨offset, letters ++ '(' :: rest⟩ isNamePart)
      = some (letters, ⟨offset + byteLength letters, '(' :: rest⟩) := by
  have some : letters ≠ [] := by
    rintro rfl
    cases starts
  rw [Cursor.result?_run?, Cursor.run_append _ _ parts rfl, Cursor.skip_append _ _ parts rfl,
    if_neg some]

end

-----------------------------------------------------------------------------------------
-- Derivations are put together
-----------------------------------------------------------------------------------------

namespace Reads

variable {offset : Nat} {blanks blanks' inner rest : List Char} {c d e : Cursor}
  {left right node : Node} {arg next : Argument} {args : List Argument} {suffix : Suffix}

theorem stops_blanks {piece : Piece} (h : Reads piece ⟨offset, inner⟩ d) (node : piece.IsNode)
    : stops isSpaceOrTab inner = true := by
  obtain ⟨found, rest, text, start⟩ := h.head node
  simp only at text
  rw [text, stops_cons, isSpaceOrTab_of_isNodeStart start]
  rfl

theorem cast {piece : Piece} {chars chars' : List Char} {stop stop' : Nat}
    (h : Reads piece ⟨offset, chars⟩ ⟨stop, rest⟩) (text : chars = chars') (place : stop = stop')
    : Reads piece ⟨offset, chars'⟩ ⟨stop', rest⟩ := by
  rw [← text, ← place]
  exact h

/-- A call is read from its name, its arguments and its annotations. -/
theorem call_append {letters : List Char} (starts : letters.head?.any isNameStart = true)
    (parts : ∀ c ∈ letters, isNamePart c = true) (all : ∀ c ∈ blanks, isSpaceOrTab c = true)
    (stop : stops isSpaceOrTab inner = true)
    (arguments
      : Reads (.args args) ⟨offset + byteLength letters + 1 + byteLength blanks, inner⟩ e)
    (annotated : (readSuffix e).result = .ok (suffix, d))
    : Reads
        (.unit (.call (String.ofList letters) args
          (Cursor.spanTo ⟨offset, letters ++ '(' :: (blanks ++ inner)⟩ e) suffix))
        ⟨offset, letters ++ '(' :: (blanks ++ inner)⟩ d := by
  have starts' : (letters ++ '(' :: (blanks ++ inner)).head?.any isNameStart = true := by
    rw [head?_name starts]
    exact starts
  refine .call starts' (run?_name starts parts offset _) (Cursor.char?_cons_self ..) ?_ annotated
  rw [Cursor.skipBlanks, Cursor.skip_append _ _ all stop]
  exact arguments

theorem group_append (all : ∀ c ∈ blanks, isSpaceOrTab c = true)
    (all' : ∀ c ∈ blanks', isSpaceOrTab c = true) {stop : Nat}
    (inside
      : Reads (.either node) ⟨offset + 1 + byteLength blanks, inner⟩ ⟨stop, blanks' ++ ')' :: rest⟩)
    : Reads
        (.unit (.group node
          (Cursor.spanTo ⟨offset, '(' :: (blanks ++ inner)⟩ ⟨stop + byteLength blanks' + 1, rest⟩)))
        ⟨offset, '(' :: (blanks ++ inner)⟩ ⟨stop + byteLength blanks' + 1, rest⟩ := by
  refine .group (Cursor.char?_cons_self ..) ?_ (result?_charAfterBlanks?_append all' rfl stop rest)
  rw [Cursor.skipBlanks, Cursor.skip_append _ _ all (inside.stops_blanks trivial)]
  exact inside

theorem both_append (all : ∀ c ∈ blanks, isSpaceOrTab c = true)
    (all' : ∀ c ∈ blanks', isSpaceOrTab c = true)
    (first : Reads (.every left) c ⟨offset, blanks ++ '&' :: blanks' ++ inner⟩)
    (second : Reads (.unit right) ⟨offset + byteLength (blanks ++ '&' :: blanks'), inner⟩ d)
    : Reads (.every (.both left right)) c d :=
  .both first (result?_operator?_append all all' rfl (second.stops_blanks trivial) offset) second

theorem either_append (all : ∀ c ∈ blanks, isSpaceOrTab c = true)
    (all' : ∀ c ∈ blanks', isSpaceOrTab c = true)
    (first : Reads (.either left) c ⟨offset, blanks ++ '+' :: blanks' ++ inner⟩)
    (second : Reads (.every right) ⟨offset + byteLength (blanks ++ '+' :: blanks'), inner⟩ d)
    (stop : NoOperator '&' d)
    : Reads (.either (.either left right)) c d :=
  .either first (result?_operator?_append all all' rfl (second.stops_blanks trivial) offset) second
    stop

end Reads

-----------------------------------------------------------------------------------------
-- Texts that are read in front of every text that may follow
-----------------------------------------------------------------------------------------

/-- Annotations are read from a text, spans aside, in front of every rest that may follow. -/
def SpellsSuffix (suffix : Suffix) (text : List Char) (follow : List Char → Prop) : Prop :=
  ∀ rest, follow rest → ∀ offset, ∃ suffix',
    suffix'.plain = suffix.plain
    ∧ (readSuffix ⟨offset, text ++ rest⟩).result = .ok (suffix', ⟨offset + byteLength text, rest⟩)

/-- Annotations are read from their own text, in front of everything that no annotation goes on
with.
-/
theorem spellsSuffix_chars {suffix : Suffix} (writable : suffix.IsWritable)
    : SpellsSuffix suffix suffix.chars EndsSuffix :=
  fun _ ends offset =>
    ⟨{ suffix with span := ⟨offset, _⟩ }, rfl, result_readSuffix_append offset writable ends⟩

/-- Arguments with their closing parenthesis are read from a text, spans aside, whatever follows. -/
def SpellsArguments (args : List Argument) (text : List Char) : Prop :=
  ∀ rest offset, ∃ args',
    Argument.plainList args' = Argument.plainList args
    ∧ Reads (.args args') ⟨offset, text ++ rest⟩ ⟨offset + byteLength text, rest⟩

/-- A piece of some kind is read from a text, with a given node, spans aside, in front of every rest
that may follow.
-/
def Spells (kind : Node → Piece) (target : Node) (text : List Char) (follow : List Char → Prop)
    : Prop :=
  ∀ rest, follow rest → ∀ offset, ∃ node,
    node.plain = target.plain
    ∧ Reads (kind node) ⟨offset, text ++ rest⟩ ⟨offset + byteLength text, rest⟩

namespace Spells

variable {follow around : List Char → Prop} {text text' blanks blanks' : List Char}
  {target target' : Node} {suffix : Suffix}

theorem mono {kind : Node → Piece} (h : Spells kind target text around)
    (le : ∀ rest, follow rest → around rest)
    : Spells kind target text follow :=
  fun rest behind => h rest (le rest behind)

theorem single (h : Spells .unit target text follow) : Spells .every target text follow := by
  intro rest behind offset
  obtain ⟨found, same, read⟩ := h rest behind offset
  exact ⟨found, same, .single read⟩

theorem part (h : Spells .every target text follow)
    (stop : ∀ rest, follow rest → ∀ offset, NoOperator '&' ⟨offset, rest⟩)
    : Spells .either target text follow := by
  intro rest behind offset
  obtain ⟨found, same, read⟩ := h rest behind offset
  exact ⟨found, same, .part read (stop rest behind _)⟩

theorem both (all : ∀ c ∈ blanks, isSpaceOrTab c = true)
    (all' : ∀ c ∈ blanks', isSpaceOrTab c = true) (first : Spells .every target text around)
    (second : Spells .unit target' text' follow)
    (between : ∀ rest, follow rest → around (blanks ++ '&' :: blanks' ++ (text' ++ rest)))
    : Spells .every (.both target target') (text ++ (blanks ++ '&' :: blanks' ++ text'))
        follow := by
  intro rest behind offset
  obtain ⟨found, same, read⟩ := first _ (between rest behind) offset
  obtain ⟨found', same', read'⟩ := second rest behind
    (offset + byteLength text + byteLength (blanks ++ '&' :: blanks'))
  refine ⟨_, by rw [Node.plain_both, Node.plain_both, same, same'],
    (read.both_append all all' read').cast (by simp) ?_⟩
  simp only [byteLength_append, Nat.add_assoc]

/-- Parts are spelled with a plus sign between them. -/
theorem either (all : ∀ c ∈ blanks, isSpaceOrTab c = true)
    (all' : ∀ c ∈ blanks', isSpaceOrTab c = true) (first : Spells .either target text around)
    (second : Spells .every target' text' follow)
    (between : ∀ rest, follow rest → around (blanks ++ '+' :: blanks' ++ (text' ++ rest)))
    (stop : ∀ rest, follow rest → ∀ offset, NoOperator '&' ⟨offset, rest⟩)
    : Spells .either (.either target target') (text ++ (blanks ++ '+' :: blanks' ++ text'))
        follow := by
  intro rest behind offset
  obtain ⟨found, same, read⟩ := first _ (between rest behind) offset
  obtain ⟨found', same', read'⟩ := second rest behind
    (offset + byteLength text + byteLength (blanks ++ '+' :: blanks'))
  refine ⟨_, by rw [Node.plain_either, Node.plain_either, same, same'],
    (read.either_append all all' read' (stop rest behind _)).cast (by simp) ?_⟩
  simp only [byteLength_append, Nat.add_assoc]

theorem group (all : ∀ c ∈ blanks, isSpaceOrTab c = true)
    (all' : ∀ c ∈ blanks', isSpaceOrTab c = true) (inside : Spells .either target text around)
    (closes : ∀ rest, follow rest → around (blanks' ++ ')' :: rest)) (span : Span)
    : Spells .unit (.group target span) ('(' :: (blanks ++ (text ++ (blanks' ++ [')']))))
        follow := by
  intro rest behind offset
  obtain ⟨found, same, read⟩ :=
    inside _ (closes rest behind) (offset + 1 + byteLength blanks)
  refine ⟨_, by rw [Node.plain_group, Node.plain_group, same],
    (read.group_append all all').cast (by simp) ?_⟩
  simp only [byteLength_append, byteLength_cons, Nat.add_assoc]
  rfl

theorem date {token marks : List Char} {value : Date}
    (dated
      : ∀ rest, follow rest → ∀ offset,
          result? (Date.read? ⟨offset, token ++ (marks ++ rest)⟩)
            = some (value, ⟨offset + byteLength token, marks ++ rest⟩))
    (annotated : SpellsSuffix suffix marks follow) (span : Span)
    : Spells .unit (.date value span suffix) (token ++ marks) follow := by
  intro rest behind offset
  obtain ⟨suffix', same, again⟩ := annotated rest behind (offset + byteLength token)
  have read := Reads.date (dated rest behind offset) again
  rw [← List.append_assoc, Nat.add_assoc, ← byteLength_append] at read
  exact ⟨_, by rw [Node.plain_date, Node.plain_date, same], read⟩

/-- A call is spelled with its arguments and its annotations behind its name. -/
theorem call {letters inside marks : List Char} {args : List Argument}
    (starts : letters.head?.any isNameStart = true) (parts : ∀ c ∈ letters, isNamePart c = true)
    (all : ∀ c ∈ blanks, isSpaceOrTab c = true)
    (stop : ∀ rest, stops isSpaceOrTab (inside ++ rest) = true)
    (arguments : SpellsArguments args inside) (annotated : SpellsSuffix suffix marks follow)
    (span : Span)
    : Spells .unit (.call (String.ofList letters) args span suffix)
        (letters ++ '(' :: (blanks ++ (inside ++ marks))) follow := by
  intro rest behind offset
  let start := offset + byteLength letters + 1 + byteLength blanks
  obtain ⟨args', same, inner⟩ := arguments (marks ++ rest) start
  obtain ⟨suffix', same', again⟩ := annotated rest behind (start + byteLength inside)
  have read := Reads.call_append starts parts all (stop _) inner again
  refine ⟨_, by rw [Node.plain_call, Node.plain_call, same, same'], read.cast (by simp) ?_⟩
  simp only [start, byteLength_append, byteLength_cons, Nat.add_assoc]
  rfl

end Spells

end Trigger

end DueTasks
