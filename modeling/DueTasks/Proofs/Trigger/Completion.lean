import DueTasks.Proofs.Trigger.Ending
import DueTasks.Proofs.Trigger.Printing
import DueTasks.Proofs.Trigger.WordEnds

/-! Beginnings of triggers.
Some texts are no trigger yet but can be completed to one. Where a part of a trigger is expected,
its beginning completes whatever has been read before: groups and calls are closed, operators get
their operand.
-/

namespace DueTasks

open Text Parsed

namespace Trigger

open Reply

/-- A category of the grammar: between which places it is read, and where it ends for sure. -/
structure Category where
  Read : Cursor → Cursor → Prop
  Ends : List Char → Prop

namespace Category

/-- Dates, calls and groups. -/
def unit : Category where
  Read c d := ∃ node, Reads (.unit node) c d
  Ends := EndsNode

/-- Units joined by ampersands. -/
def part : Category where
  Read c d := ∃ node, Reads (.every node) c d
  Ends := EndsNode

/-- Parts joined by plus signs. -/
def trigger : Category where
  Read c d := ∃ node, Reads (.either node) c d
  Ends := EndsNode

def argument : Category where
  Read c d := ∃ arg, Reads (.arg arg) c d
  Ends := EndsArgument

/-- One or more arguments with the closing parenthesis. -/
def arguments : Category where
  Read c d := ∃ arg args, Reads (.args (arg :: args)) c d
  Ends _ := True

/-- Annotations. -/
def marks : Category where
  Read c d := ∃ suffix, (readSuffix c).result = .ok (suffix, d)
  Ends := EndsSuffix

/-- A text can be completed: with more characters behind it, it is read in front of every text where
its category ends.
-/
def Begins (kind : Category) (offset : Nat) (text : List Char) : Prop :=
  ∃ more, ∀ rest, kind.Ends rest
    → kind.Read ⟨offset, text ++ (more ++ rest)⟩ ⟨offset + byteLength (text ++ more), rest⟩

/-- What stands before an offset can be completed. -/
def BeginsTo (kind : Category) (c : Cursor) (offset : Nat) : Prop :=
  ∃ text d, Passage text c d ∧ offset = d.offset ∧ kind.Begins c.offset text

/-- Reading one category from one place on, another one is expected at a later place: if that can be
completed, the whole can.
-/
def Expects (whole part : Category) (c e : Cursor) : Prop :=
  ∃ before, Passage before c e
    ∧ ∀ text, part.Begins e.offset text → whole.Begins c.offset (before ++ text)

variable {kind whole part : Category} {offset : Nat} {text more : List Char} {c e : Cursor}

/-- What is read is complete. -/
theorem Begins.of_reads
    (h
      : ∀ rest, kind.Ends rest
        → kind.Read ⟨offset, text ++ rest⟩ ⟨offset + byteLength text, rest⟩)
    : kind.Begins offset text := by
  refine ⟨[], fun rest ends => ?_⟩
  rw [List.append_nil]
  exact h rest ends

/-- The beginning of a text that can be completed can be completed. -/
theorem Begins.of_append (h : kind.Begins offset (text ++ more)) : kind.Begins offset text := by
  obtain ⟨behind, reads⟩ := h
  refine ⟨more ++ behind, fun rest ends => ?_⟩
  rw [List.append_assoc more, ← List.append_assoc text, ← List.append_assoc text]
  exact reads rest ends

/-- A text is completed within a larger one: with something before it, and something that closes it.
-/
theorem Begins.within {before : List Char} (closing : List Char)
    (h : part.Begins (offset + byteLength before) text)
    (ends : ∀ rest, whole.Ends rest → part.Ends (closing ++ rest))
    (reads
      : ∀ chars stop rest, whole.Ends rest
        → part.Read ⟨offset + byteLength before, text ++ chars⟩ ⟨stop, closing ++ rest⟩
        → whole.Read ⟨offset, before ++ (text ++ chars)⟩ ⟨stop + byteLength closing, rest⟩)
    : whole.Begins offset (before ++ text) := by
  obtain ⟨more, inside⟩ := h
  refine ⟨more ++ closing, fun rest behind => ?_⟩
  have outside := reads _ _ rest behind (inside (closing ++ rest) (ends rest behind))
  have chars : before ++ text ++ (more ++ closing ++ rest)
      = before ++ (text ++ (more ++ (closing ++ rest))) := by simp
  have stop : offset + byteLength (before ++ text ++ (more ++ closing))
      = offset + byteLength before + byteLength (text ++ more) + byteLength closing := by
    simp only [byteLength_append, Nat.add_assoc]
  rw [chars, stop]
  exact outside

/-- What is a piece of another category too, wherever that ends, can be completed to it. -/
theorem Begins.imp (h : part.Begins offset text) (ends : ∀ rest, whole.Ends rest → part.Ends rest)
    (reads : ∀ c d, whole.Ends d.rest → part.Read c d → whole.Read c d)
    : whole.Begins offset text := by
  obtain ⟨more, inside⟩ := h
  exact ⟨more, fun rest behind => reads _ _ behind (inside rest (ends rest behind))⟩

theorem BeginsTo.imp (h : part.BeginsTo c offset)
    (le : ∀ text, part.Begins c.offset text → whole.Begins c.offset text)
    : whole.BeginsTo c offset := by
  obtain ⟨text, d, passage, place, begins⟩ := h
  exact ⟨text, d, passage, place, le text begins⟩

theorem Expects.beginsTo (h : whole.Expects part c e) (inside : part.BeginsTo e offset)
    : whole.BeginsTo c offset := by
  obtain ⟨before, opening, complete⟩ := h
  obtain ⟨text, d, passage, place, begins⟩ := inside
  exact ⟨before ++ text, d, opening.append passage, place, complete text begins⟩

end Category

-----------------------------------------------------------------------------------------
-- Where a trigger ends
-----------------------------------------------------------------------------------------

/-- A text where a trigger ends can stand in place of any other one. -/
theorem EndsNode.exchange {rest : List Char} (h : EndsNode rest) (old : List Char)
    : Exchange old rest :=
  .of_closed h.stop h.period h.both old

/-- Every number of a period goes on with what annotations can go on with. -/
theorem isSuffixPart_of_isCountPart {c : Char} (h : Period.isCountPart c = true)
    : isSuffixPart c = true := by
  have letter (h : PeriodUnit.ofLetter? c ≠ none) : c.isAlphanum = true := by
    unfold PeriodUnit.ofLetter? at h
    split at h
    all_goals first | rfl | exact absurd rfl h
  simp only [Period.isCountPart, Bool.or_eq_true, Option.isSome_iff_ne_none] at h
  rcases h with digit | unit
  · simp [isSuffixPart, Char.isAlphanum, digit]
  · simp [isSuffixPart, letter unit]

/-- A plus sign in front of a part of a trigger begins no period, by induction on the derivation. -/
theorem Reads.read?_plus_eq_none {piece : Piece} {c d : Cursor} (h : Reads piece c d)
    (node : piece.IsNode) (stop : stops isSuffixPart d.rest = true) (offset : Nat)
    : Period.read? ⟨offset, '+' :: c.rest⟩ = none := by
  induction h with
  | @date c m d value suffix dated annotated =>
      refine Period.read?_plus_of_date dated ?_ offset
      -- either annotations begin with a mark, or the date is all there is
      by_cases same : d = m
      · rw [← same]
        exact stops_mono (fun _ => isSuffixPart_of_isCountPart) stop
      · obtain ⟨mark, member, first⟩ := exists_mark_of_ne fun empty => by
          cases annotated.symm.trans empty
          exact same rfl
        simp only [suffixMarks, List.mem_cons, List.not_mem_nil, or_false] at member
        rw [stops, first]
        rcases member with rfl | rfl | rfl | rfl <;> rfl
  | @call c m opened e d name args suffix starts named opens arguments annotated ih =>
      refine Period.read?_sign_eq_none _ (.inr rfl) ?_
      obtain ⟨offset, _ | ⟨letter, rest⟩⟩ := c
      · rfl
      · simpa using isDigit_of_isNameStart (by simpa using starts)
  | group opens inside closes ih =>
      refine Period.read?_sign_eq_none _ (.inr rfl) ?_
      rw [(Cursor.of_char? opens).1]
      rfl
  | single unit ih => exact ih trivial stop
  | part every behind ih => exact ih trivial stop
  | both first sign second ih ih' | either first sign second behind ih ih' =>
      obtain ⟨blanks, blanks', gap, all, -, -⟩ := passage_of_operator? sign
      refine ih trivial ?_
      rw [gap.rest_eq, List.append_assoc]
      exact stops_gap all rfl _
  | word | trigger | noArgs | lastArg | moreArgs => exact node.elim

/-- Arguments do not begin with a blank. -/
theorem Reads.stops_arguments {arg : Argument} {args : List Argument} {offset : Nat}
    {chars : List Char} {d : Cursor} (h : Reads (.args (arg :: args)) ⟨offset, chars⟩ d)
    : stops isSpaceOrTab chars = true := by
  obtain ⟨m, read⟩ : ∃ m, (readArgument ⟨offset, chars⟩).result = .ok (arg, m) := by
    cases h with
    | lastArg last closes => exact ⟨_, last.run⟩
    | moreArgs first comma more => exact ⟨_, first.run⟩
  refine Bool.not_eq_false _ |>.mp fun goes => ?_
  obtain ⟨found, rest, rfl, blank⟩ := exists_cons_of_not_stops goes
  simp only [isSpaceOrTab, Bool.or_eq_true, beq_iff_eq] at blank
  rcases blank with rfl | rfl <;>
    exact head?_ne_of_readArgument read (by decide) (by decide) (by decide) rfl

theorem EndsSuffix.unmarked {rest : List Char} (ends : EndsSuffix rest) (offset : Nat)
    : (readSuffix ⟨offset, rest⟩).result
      = .ok (⟨none, none, none, none, ⟨offset, offset⟩⟩, ⟨offset, rest⟩) := by
  refine result_readSuffix_of_unmarked fun mark member => head?_ne_of_stops ends.stop ?_
  simp only [suffixMarks, List.mem_cons, List.not_mem_nil, or_false] at member
  rcases member with rfl | rfl | rfl | rfl <;> rfl

namespace Category

variable {offset : Nat} {text : List Char} {c m e d opened : Cursor} {left : Node}

-----------------------------------------------------------------------------------------
-- Dates, calls and groups can be completed
-----------------------------------------------------------------------------------------

theorem begins_of_spells {node : Node} (h : Spells .unit node text EndsSuffix)
    : unit.Begins offset text :=
  .of_reads fun rest ends => by
    obtain ⟨found, -, read⟩ := h rest ends.toEndsSuffix offset
    exact ⟨found, read⟩

theorem noMarks_isWritable : noMarks.IsWritable :=
  ⟨nofun, nofun⟩

/-- Nothing can be completed to a date. -/
theorem unit_begins_nil : unit.Begins offset [] := by
  have date : Spelled (.date (.ofParts 2020 1 1) Span.none noMarks) _ :=
    .date (by decide) noMarks_isWritable Span.none
  have whole : unit.Begins offset ([] ++ _) := begins_of_spells (date.asUnit rfl)
  exact whole.of_append

/-- A name can be completed to a call. -/
theorem unit_begins_name {name : List Char} (starts : name.head?.any isNameStart = true)
    (parts : ∀ c ∈ name, isNamePart c = true)
    : unit.Begins offset name := by
  have named : IsName (String.ofList name).toList := by
    rw [String.toList_ofList]
    exact ⟨starts, parts⟩
  have call := Spelled.call named (List.forall_mem_nil _) .nil noMarks_isWritable Span.none
  rw [String.toList_ofList] at call
  exact (begins_of_spells (call.asUnit rfl)).of_append

/-- In a group a trigger is expected. -/
theorem expects_group (opens : result? (c.char? '(') = some ((), opened))
    : unit.Expects trigger c opened.skipBlanks := by
  obtain ⟨blanks, skipped, all⟩ := opened.within_skipBlanks
  have opening : Passage ('(' :: blanks) c opened.skipBlanks :=
    (Cursor.passage_of_char? opens).append skipped
  refine ⟨_, opening, fun text begins => ?_⟩
  rw [opening.offset_eq] at begins
  refine .within [')'] begins (fun rest _ => EndsArgument.endsNode (.inr rfl)) ?_
  rintro chars stop rest - ⟨node, inside⟩
  rw [byteLength_cons, ← Nat.add_assoc] at inside
  exact ⟨_, inside.group_append all (List.forall_mem_nil _)⟩

/-- A trigger in a group can be closed, behind blanks too. -/
theorem unit_beginsTo_close {node : Node} (opens : result? (c.char? '(') = some ((), opened))
    (inside : Reads (.either node) opened.skipBlanks e)
    : unit.BeginsTo c e.skipBlanks.offset := by
  obtain ⟨blanks, skipped, all⟩ := opened.within_skipBlanks
  obtain ⟨blanks', closing, all'⟩ := e.within_skipBlanks
  obtain ⟨chars, within, again⟩ := inside.stays trivial
  have opening : Passage ('(' :: blanks) c opened.skipBlanks :=
    (Cursor.passage_of_char? opens).append skipped
  refine ⟨_, _, opening.append (within.append closing), rfl, [')'], fun rest _ => ?_⟩
  have ends : EndsNode (blanks' ++ ')' :: rest) :=
    (EndsArgument.of_gap all' (.inr rfl) rest).endsNode
  have inner := again _ (ends.exchange _)
  rw [opening.offset_eq, byteLength_cons, ← Nat.add_assoc] at inner
  refine ⟨_, (inner.group_append all all').cast (by simp) ?_⟩
  have place := (opening.append within).offset_eq
  rw [place]
  simp only [byteLength_append, byteLength_cons, Nat.add_assoc]
  rfl

/-- Calls are completed with their arguments and without annotations. -/
theorem expects_call {name blanks : List Char} (opening : CallOpening name blanks c d)
    : unit.Expects arguments c d := by
  refine ⟨_, opening.opening, fun text begins => ?_⟩
  rw [opening.opening.offset_eq] at begins
  refine .within [] begins (fun _ _ => trivial) ?_
  rintro chars stop rest ends ⟨arg, args, inside⟩
  rw [byteLength_append, byteLength_cons, ← Nat.add_assoc, ← Nat.add_assoc] at inside
  have read := Reads.call_append opening.starts opening.parts opening.all inside.stops_arguments
    inside (ends.unmarked _)
  exact ⟨_, read.cast (by simp) rfl⟩

/-- Annotations that begin with a mark complete the date before them. -/
theorem unit_begins_date {mark : Char} {value : Date} {token : List Char}
    (dated : result? (Date.read? c) = some (value, m)) (before : Passage token c m)
    (member : mark ∈ suffixMarks) (begins : marks.Begins m.offset (mark :: text))
    : unit.Begins c.offset (token ++ mark :: text) := by
  obtain ⟨offset, rest⟩ := before
  refine .within [] begins (fun _ ends => ends.toEndsSuffix) ?_
  rintro chars stop rest' - ⟨suffix, annotated⟩
  -- no mark goes on a date
  have parts : mark ≠ '-' ∧ mark.isDigit = false := by
    simp only [suffixMarks, List.mem_cons, List.not_mem_nil, or_false] at member
    rcases member with rfl | rfl | rfl | rfl <;> decide
  obtain ⟨hyphen, digit⟩ := parts
  have again
      : result? (Date.read? ⟨offset, token ++ (mark :: text ++ chars)⟩)
        = some (value, ⟨offset + byteLength token, mark :: text ++ chars⟩) :=
    Date.read?_elsewhere dated (by simpa using hyphen) (by simpa using digit) offset
  exact ⟨_, .date again annotated⟩

/-- Behind the arguments of a call annotations are expected. -/
theorem expects_marks {name blanks : List Char} {args : List Argument}
    (opening : CallOpening name blanks c d) (arguments : Reads (.args args) d e)
    : unit.Expects marks c e := by
  obtain ⟨inside, within, again⟩ := arguments.arguments_here
  have token := opening.opening.append within
  refine ⟨_, token, fun text begins => ?_⟩
  rw [token.offset_eq] at begins
  refine .within [] begins (fun _ ends => ends.toEndsSuffix) ?_
  rintro chars stop rest - ⟨suffix, annotated⟩
  have stops : stops isSpaceOrTab (inside ++ ')' :: (text ++ chars)) = true := by
    have stop := opening.stop
    rw [within.rest_eq] at stop
    cases inside <;> exact stop
  have inner := again (text ++ chars)
  rw [opening.opening.offset_eq, byteLength_append, byteLength_cons, ← Nat.add_assoc,
    ← Nat.add_assoc] at inner
  rw [← token.offset_eq] at annotated
  have read := Reads.call_append opening.starts opening.parts opening.all stops inner annotated
  exact ⟨_, read.cast (by simp) rfl⟩

-----------------------------------------------------------------------------------------
-- Annotations can be completed where they fail
-----------------------------------------------------------------------------------------

/-- The mark of a time of day can be completed. -/
theorem marks_begins_time : marks.Begins offset ['T'] := by
  let suffix : Suffix := { noMarks with time := some ⟨0, 0⟩ }
  have whole : marks.Begins offset (['T'] ++ (ClockTime.minuteChars ⟨0, 0⟩ ++ [])) :=
    .of_reads fun rest ends => by
      have writable : suffix.IsWritable := ⟨nofun, nofun⟩
      exact ⟨_, result_readSuffix_append offset writable ends⟩
  exact whole.of_append

/-- One digit is a priority. -/
theorem result_readPriority_digit {digit : Char} (isDigit : digit.isDigit = true) (offset : Nat)
    {rest : List Char} (stop : stops Char.isDigit rest = true)
    : (readPriority ⟨offset, '#' :: digit :: rest⟩).result
      = .ok (some (UInt32.ofNat (digitsValue [digit])),
          ⟨offset + byteLength ['#', digit], rest⟩) := by
  have all : ∀ c ∈ [digit], c.isDigit = true := by simpa using isDigit
  have small : digitsValue [digit] < UInt32.size := by
    simp only [Char.isDigit, Bool.and_eq_true, decide_eq_true_eq, ge_iff_le,
      UInt32.le_iff_toNat_le] at isDigit
    have upper : digit.toNat ≤ 57 := isDigit.2
    show 0 * 10 + (digit.toNat - 48) < 4294967296
    omega
  have digits : result? (Cursor.run? ⟨offset + '#'.utf8Size, [digit] ++ rest⟩ Char.isDigit)
      = some ([digit], ⟨offset + '#'.utf8Size + byteLength [digit], rest⟩) := by
    rw [Cursor.result?_run?, Cursor.run_append _ _ all stop, Cursor.skip_append _ _ all stop]
    rfl
  rw [result_readPriority, Cursor.char?_cons_self]
  simp only
  rw [show digit :: rest = [digit] ++ rest from rfl, digits]
  simp only [priorityOf, if_pos small, byteLength_cons, Nat.add_assoc]

/-- Annotations up to the mark of a priority and one digit behind it are read in front of every text
where annotations end.
-/
theorem exists_readSuffix_priority {chars rest rest' : List Char} {digit : Char}
    {time : Option ClockTime} {t : Cursor} (timed : (readTime c).result = .ok (time, t))
    (before : Passage chars c (readEffective t).next)
    (next : (readEffective t).next.rest = '#' :: digit :: rest) (isDigit : digit.isDigit = true)
    (ends : EndsSuffix rest')
    : ∃ suffix,
        (readSuffix ⟨c.offset, chars ++ ['#', digit] ++ rest'⟩).result
          = .ok (suffix, ⟨c.offset + byteLength (chars ++ ['#', digit]), rest'⟩) := by
  let b : Border := ⟨c.offset, c.offset, rest, rest'⟩
  have shut : b.Shut := ⟨ends.stop, fun _ offset' _ => ends.period offset'⟩
  have beside : b.Beside c ⟨c.offset, chars ++ ['#', digit] ++ rest'⟩ := by
    have here : c = ⟨c.offset, chars ++ ['#', digit] ++ rest⟩ := by
      rw [List.append_assoc, List.cons_append, List.singleton_append, ← next, ← before.rest_eq]
    rw [here]
    exact .intro 0 _
  have behind : rest.length < (readEffective t).next.remaining := by
    rw [Cursor.remaining, next]
    simp only [List.length_cons]
    omega
  have timed' := beside.readTime shut
  rw [timed] at timed'
  rw [result_readSuffix]
  generalize (readTime ⟨c.offset, chars ++ ['#', digit] ++ rest'⟩).result = right at timed'
  cases timed' with
  | lost passed =>
      have := (readEffective t).within
      have : t.remaining < rest.length := passed
      omega
  | @found _ _ _ t' same places =>
      rcases places.readEffective shut with passed | ⟨-, places'⟩
      · exact absurd passed (Nat.not_lt.mpr (Nat.le_of_lt behind))
      · have place : (readEffective t').next
            = ⟨c.offset + byteLength chars, '#' :: digit :: rest'⟩ := by
          have here : (readEffective t).next
              = ⟨c.offset + byteLength chars, '#' :: digit :: rest⟩ := by
            rw [← next, ← before.offset_eq]
          simp only [Parsed.result, here] at places'
          exact places'.eq (.intro (byteLength chars) ['#', digit])
        have digits : stops Char.isDigit rest' = true :=
          Clears.isDigit (.of_stops ends.stop (rfl : isSuffixPart 'P' = true))
        have unrepeated : ∀ found ∈ (none : Option Repeat), found.period.IsWritable := by simp
        have repetition
            : (readRepeat ⟨c.offset + byteLength chars + byteLength ['#', digit], rest'⟩).next
              = ⟨c.offset + byteLength chars + byteLength ['#', digit], rest'⟩ :=
          congrArg Prod.snd (result_readRepeat_append _ none ends unrepeated)
        rw [ok_bind, readSuffixBehind, place, result_readPriority_digit isDigit _ digits, ok_bind]
        simp only [repetition, byteLength_append, Nat.add_assoc]
        exact ⟨_, rfl⟩

/-- The mark of a priority can be completed with the first digit that follows. -/
theorem marks_begins_priority {chars rest : List Char} {digit : Char} {time : Option ClockTime}
    {t : Cursor} (timed : (readTime c).result = .ok (time, t))
    (before : Passage chars c (readEffective t).next)
    (next : (readEffective t).next.rest = '#' :: digit :: rest) (isDigit : digit.isDigit = true)
    : marks.Begins c.offset (chars ++ ['#']) := by
  have whole : marks.Begins c.offset (chars ++ ['#'] ++ [digit]) := by
    rw [List.append_assoc]
    exact .of_reads fun rest' ends => exists_readSuffix_priority timed before next isDigit ends
  exact whole.of_append

-----------------------------------------------------------------------------------------
-- Operators are completed with their operand
-----------------------------------------------------------------------------------------

/-- What stands behind an operand can be exchanged with an operator and a part of a trigger. -/
theorem exchange_gap {symbol : Char} {piece : Piece} {blanks blanks' chars : List Char}
    (gap : Passage (blanks ++ symbol :: blanks') m e) (all : ∀ c ∈ blanks, isSpaceOrTab c = true)
    (all' : ∀ c ∈ blanks', isSpaceOrTab c = true) (isOperator : symbol = '&' ∨ symbol = '+')
    (second : Reads piece ⟨offset, chars⟩ d) (node : piece.IsNode) (ends : EndsNode d.rest)
    : Exchange m.rest (blanks ++ symbol :: blanks' ++ chars) := by
  rw [gap.rest_eq]
  have exchanged : Exchange (blanks ++ symbol :: blanks' ++ ([] ++ e.rest))
      (blanks ++ symbol :: blanks' ++ ([] ++ chars)) :=
    .of_operator all all' id isOperator fun _ offset' _ =>
      second.read?_plus_eq_none node ends.stop offset'
  exact exchanged

/-- Behind an ampersand a unit is expected. -/
theorem expects_both (first : Reads (.every left) c m)
    (sign : result? (operator? '&' m) = some ((), e))
    : part.Expects unit c e := by
  obtain ⟨before, passage, again⟩ := first.stays trivial
  obtain ⟨blanks, blanks', gap, all, all', -⟩ := passage_of_operator? sign
  have opening := passage.append gap
  refine ⟨_, opening, fun text begins => ?_⟩
  rw [opening.offset_eq] at begins
  refine .within [] begins (fun _ ends => ends) ?_
  rintro chars stop rest ends ⟨right, second⟩
  have left := again _ (exchange_gap gap all all' (.inl rfl) second trivial ends)
  rw [passage.offset_eq] at left
  rw [byteLength_append, ← Nat.add_assoc] at second
  exact ⟨_, (left.both_append all all' second).cast (by simp) rfl⟩

/-- Behind a plus sign a part is expected. -/
theorem expects_either (first : Reads (.either left) c m)
    (sign : result? (operator? '+' m) = some ((), e))
    : trigger.Expects part c e := by
  obtain ⟨before, passage, again⟩ := first.stays trivial
  obtain ⟨blanks, blanks', gap, all, all', -⟩ := passage_of_operator? sign
  have opening := passage.append gap
  refine ⟨_, opening, fun text begins => ?_⟩
  rw [opening.offset_eq] at begins
  refine .within [] begins (fun _ ends => ends) ?_
  rintro chars stop rest ends ⟨right, second⟩
  have left := again _ (exchange_gap gap all all' (.inr rfl) second trivial ends)
  rw [passage.offset_eq] at left
  rw [byteLength_append, ← Nat.add_assoc] at second
  exact ⟨_, (left.either_append all all' second (ends.both _)).cast (by simp) rfl⟩

theorem begins_part (h : unit.Begins offset text) : part.Begins offset text :=
  h.imp (fun _ ends => ends) fun _ _ _ ⟨node, read⟩ => ⟨node, .single read⟩

theorem begins_trigger (h : part.Begins offset text) : trigger.Begins offset text :=
  h.imp (fun _ ends => ends) fun _ _ ends ⟨node, read⟩ => ⟨node, .part read (ends.both _)⟩

theorem begins_argument (h : trigger.Begins offset text) : argument.Begins offset text :=
  h.imp (fun _ ends => ends.endsNode) fun _ _ ends ⟨node, read⟩ =>
    ⟨.trigger node, .trigger read (ends.endsNode.either _) ((atArgumentEnd_iff _).mpr ends)⟩

theorem begins_arguments (h : argument.Begins offset text) : arguments.Begins offset text := by
  have whole : arguments.Begins offset ([] ++ text) := by
    refine .within [')'] h (fun _ _ => .inr rfl) ?_
    rintro chars stop rest - ⟨arg, read⟩
    exact ⟨arg, [], read.lastArg rfl⟩
  exact whole

end Category

end Trigger

end DueTasks
