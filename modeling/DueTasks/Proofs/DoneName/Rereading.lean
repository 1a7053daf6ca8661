import DueTasks.Proofs.DoneName.Rewriting
import DueTasks.Proofs.Trigger.Exchange

/-! Reading done names.
A done name is read as the trigger of the name before, with the dates moved that the repeats move.
A new date does not change how the text around it is read, nor how the text before it is.
-/

namespace DueTasks

open Text Parsed

/-- The node with each date moved that its repeat moves, arguments apart. -/
def Node.moved (now : Date) (pending : Bool) : Node → Node
  | .date value token suffix => .date ((suffix.nextDate? now pending).getD value) token suffix
  | .call name args token suffix => .call name args token suffix
  | .both left right => .both (left.moved now pending) (right.moved now pending)
  | .either left right => .either (left.moved now pending) (right.moved now pending)
  | .group inner span => .group (inner.moved now pending) span

/-- A change that writes a date of the years that names can hold. -/
def Change.IsWritable : Change → Prop
  | .date _ value => 0 ≤ value.year ∧ value.year ≤ 9999
  | .helper .. => False

namespace Trigger

open Asking Reply

-----------------------------------------------------------------------------------------
-- New texts of pieces
-----------------------------------------------------------------------------------------

/-- The piece of the same kind with another node. -/
def Piece.withNode : Piece → Node → Piece
  | .unit _, node => .unit node
  | .every _, node => .every node
  | .either _, node => .either node
  | .arg found, _ => .arg found
  | .args found, _ => .args found

/-- A new text of a piece stands in front of every text that can be exchanged for what stood behind
the old one. Behind a plus sign it begins no period if the old text did not.
-/
structure Stands (kind : Node → Piece) (target : Node) (old rest new : List Char) : Prop where
  spells : Spells kind target new (Exchange rest)
  period
    : ∀ rest', Exchange rest rest' → ∀ offset offset',
        Period.read? ⟨offset, '+' :: (old ++ rest)⟩ = none
        → Period.read? ⟨offset', '+' :: (new ++ rest')⟩ = none

namespace Stands

variable {old old' rest new new' blanks blanks' blanks'' : List Char} {target target' : Node}
  {kind : Node → Piece}

/-- A text that begins with something else than a digit begins no period. -/
theorem of_head {found : Char} {more : List Char}
    (spells : Spells kind target (found :: more) (Exchange rest)) (other : found.isDigit = false)
    : Stands kind target old rest (found :: more) where
  spells := spells
  period _ _ _ _ _ := Period.read?_sign_eq_none _ (.inr rfl) (by simpa using other)

theorem spellsSuffix {marks : List Char} {suffix : Suffix} {offset : Nat}
    (annotated
      : (readSuffix ⟨offset, marks ++ rest⟩).result
        = .ok (suffix, ⟨offset + byteLength marks, rest⟩))
    : SpellsSuffix suffix marks (Exchange rest) := by
  intro rest' behind offset'
  obtain ⟨suffix', again, same⟩ := behind.readSuffix annotated offset'
  exact ⟨suffix', same, again⟩

/-- A date stands in full if its repeat moves it, and as it is otherwise. -/
theorem date {token marks : List Char} {value now : Date} {pending : Bool} {suffix : Suffix}
    {c m d : Cursor} (dated : result? (Date.read? c) = some (value, m))
    (annotated : (readSuffix m).result = .ok (suffix, d)) (before : Passage token c m)
    (behind : Passage marks m d)
    (writable : ∀ next, suffix.nextDate? now pending = some next → 0 ≤ next.year ∧ next.year ≤ 9999)
    (span : Span)
    : Stands .unit (.date ((suffix.nextDate? now pending).getD value) span suffix) (token ++ marks)
        d.rest (((suffix.nextDate? now pending).map Date.chars).getD token ++ marks) := by
  obtain ⟨offset, rest⟩ := behind
  obtain ⟨offset, _⟩ := before
  cases next : suffix.nextDate? now pending with
  | none =>
      refine ⟨.date (fun rest' behind => behind.readDate? dated) (spellsSuffix annotated) _,
        fun rest' behind offset offset' absent => ?_⟩
      exact behind.read?_eq_none ('+' :: (token ++ marks)) absent offset'
  | some value =>
      have year := writable value next
      refine ⟨.date (fun rest' _ offset' => Date.result?_read?_chars offset' year _)
        (spellsSuffix annotated) _, fun rest' _ _ offset' _ => ?_⟩
      -- the old text may have begun a period behind a plus sign, but a date in full does not
      simp only [Option.map_some, Option.getD_some]
      rw [List.append_assoc]
      exact Period.read?_plus_date offset' year _

/-- A call stands as it is. -/
theorem call {letters inside marks : List Char} {args : List Argument} {suffix : Suffix}
    {start e d : Cursor} (starts : letters.head?.any isNameStart = true)
    (parts : ∀ c ∈ letters, isNamePart c = true) (all : ∀ c ∈ blanks, isSpaceOrTab c = true)
    (stop : stops isSpaceOrTab start.rest = true)
    (arguments : (readArguments start).result = .ok (args, e))
    (within : Passage (inside ++ [')']) start e)
    (annotated : (readSuffix e).result = .ok (suffix, d)) (behind : Passage marks e d)
    (span : Span) (old : List Char)
    : Stands .unit (.call (String.ofList letters) args span suffix) old d.rest
        (letters ++ '(' :: (blanks ++ (inside ++ [')'] ++ marks))) := by
  obtain ⟨_, rest⟩ := behind
  obtain ⟨start, _⟩ := within
  have again : SpellsArguments args (inside ++ [')']) := by
    intro rest' offset'
    rw [List.append_assoc, byteLength_append, ← Nat.add_assoc] at arguments
    have read := reads_of_readArguments (readArguments_elsewhere arguments offset' rest')
    exact ⟨_, Argument.plainList_mapSpansOfList .., read.cast (by simp) (by
      rw [byteLength_append, ← Nat.add_assoc]
      rfl)⟩
  have stop' (rest' : List Char) : stops isSpaceOrTab (inside ++ [')'] ++ rest') = true := by
    cases inside <;> exact stop
  have spells := Spells.call starts parts all stop' again (spellsSuffix annotated) span
  obtain _ | ⟨letter, letters⟩ := letters
  · cases starts
  · exact of_head spells (isDigit_of_isNameStart (by simpa using starts))

/-- What stands behind the operand of an operator can be exchanged with the next operand and with
further blanks in front of it.
-/
theorem exchange {symbol : Char} (h : Stands kind target old rest new)
    (all : ∀ c ∈ blanks, isSpaceOrTab c = true) (all' : ∀ c ∈ blanks'', isSpaceOrTab c = true)
    (bare : blanks'' = [] → blanks' = []) (isOperator : symbol = '&' ∨ symbol = '+')
    {rest' : List Char} (behind : Exchange rest rest')
    : Exchange (blanks ++ symbol :: blanks' ++ (old ++ rest))
        (blanks ++ symbol :: blanks'' ++ (new ++ rest')) :=
  .of_operator all all' bare isOperator (h.period rest' behind)

/-- A group stands if what it holds does. -/
theorem group (all : ∀ c ∈ blanks, isSpaceOrTab c = true)
    (all' : ∀ c ∈ blanks', isSpaceOrTab c = true) (span : Span)
    (inside : Stands .either target old (blanks' ++ ')' :: rest) new)
    : Stands .unit (.group target span) old' rest
        ('(' :: (blanks ++ (new ++ (blanks' ++ [')'])))) :=
  of_head
    (inside.spells.group all all'
      (fun _ _ => .of_gap all' rfl rfl fun _ _ _ => read?_gap_eq_none all' rfl (by decide) _ _)
      span)
    rfl

theorem period_append {gap gap' : List Char}
    (first : Stands kind target old (gap ++ (old' ++ rest)) new)
    (between
      : ∀ rest',
          Exchange rest rest' → Exchange (gap ++ (old' ++ rest)) (gap' ++ (new' ++ rest')))
    : ∀ rest', Exchange rest rest' → ∀ offset offset',
        Period.read? ⟨offset, '+' :: (old ++ (gap ++ old') ++ rest)⟩ = none
        → Period.read? ⟨offset', '+' :: (new ++ (gap' ++ new') ++ rest')⟩ = none := by
  intro rest' behind offset offset' absent
  rw [List.append_assoc old, List.append_assoc gap] at absent
  rw [List.append_assoc new, List.append_assoc gap']
  exact first.period _ (between rest' behind) offset offset' absent

/-- Units that are joined stand if both do. -/
theorem both (all : ∀ c ∈ blanks, isSpaceOrTab c = true)
    (all' : ∀ c ∈ blanks'', isSpaceOrTab c = true) (bare : blanks'' = [] → blanks' = [])
    (first : Stands .every target old (blanks ++ '&' :: blanks' ++ (old' ++ rest)) new)
    (second : Stands .unit target' old' rest new')
    : Stands .every (.both target target') (old ++ (blanks ++ '&' :: blanks' ++ old')) rest
        (new ++ (blanks ++ '&' :: blanks'' ++ new')) where
  spells :=
    first.spells.both all all' second.spells fun _ => second.exchange all all' bare (.inl rfl)
  period := first.period_append fun _ => second.exchange all all' bare (.inl rfl)

/-- Parts that are joined stand if both do. -/
theorem either {offset : Nat} (all : ∀ c ∈ blanks, isSpaceOrTab c = true)
    (all' : ∀ c ∈ blanks'', isSpaceOrTab c = true) (bare : blanks'' = [] → blanks' = [])
    (stop : NoOperator '&' ⟨offset, rest⟩)
    (first : Stands .either target old (blanks ++ '+' :: blanks' ++ (old' ++ rest)) new)
    (second : Stands .every target' old' rest new')
    : Stands .either (.either target target') (old ++ (blanks ++ '+' :: blanks' ++ old')) rest
        (new ++ (blanks ++ '+' :: blanks'' ++ new')) where
  spells :=
    first.spells.either all all' second.spells (fun _ => second.exchange all all' bare (.inr rfl))
      fun _ behind _ => behind.joins _ _ stop
  period := first.period_append fun _ => second.exchange all all' bare (.inr rfl)

end Stands

variable {σ : Type} {t : Trigger} {context : Context σ} {evaluation : Evaluation}

-----------------------------------------------------------------------------------------
-- Every piece stands with its dates moved
-----------------------------------------------------------------------------------------

/-- A call that asks for nothing but writable dates asks for nothing. -/
theorem changes_call_eq_nil {now : Date} {pending : Bool} {name : String} {args : List Argument}
    {token : Span} {suffix : Suffix}
    (writable
      : ∀ change ∈ (Node.call name args token suffix).changes now pending, change.IsWritable)
    : (Node.call name args token suffix).changes now pending = [] := by
  refine List.eq_nil_iff_forall_not_mem.mpr fun change member => ?_
  have date := writable change member
  rw [Node.changes] at member
  split at member
  · cases member
  · split at member
    · rw [List.mem_singleton.mp member] at date
      exact date
    · cases member

/-- The text of a call in its parts: its name, an opening parenthesis with blanks behind it, the
arguments with the closing parenthesis, and the annotations.
-/
structure CallText (letters blanks inside marks : List Char) (c start e d : Cursor) : Prop
    extends CallOpening letters blanks c start where
  within : Passage (inside ++ [')']) start e
  behind : Passage marks e d

/-- The text of a call up to its annotations. -/
theorem CallText.token {letters blanks inside marks : List Char} {c start e d : Cursor}
    (h : CallText letters blanks inside marks c start e d)
    : Passage (letters ++ '(' :: blanks ++ (inside ++ [')'])) c e :=
  h.opening.append h.within

/-- A call that was read has its parts in its text. -/
theorem exists_callText {c m opened e d : Cursor} {name : List Char} {args : List Argument}
    {suffix : Suffix} (starts : c.rest.head?.any isNameStart = true)
    (named : result? (c.run? isNamePart) = some (name, m))
    (opens : result? (m.char? '(') = some ((), opened))
    (arguments : Reads (.args args) opened.skipBlanks e)
    (annotated : (readSuffix e).result = .ok (suffix, d))
    : ∃ blanks inside marks, CallText name blanks inside marks c opened.skipBlanks e d := by
  obtain ⟨blanks, opening⟩ := exists_callOpening starts named opens
  obtain ⟨_, within, closed⟩ := arguments.passage
  obtain ⟨inside, rfl⟩ := closed rfl
  obtain ⟨⟨marks, behind, -⟩, -⟩ := within_of_readSuffix annotated
  exact ⟨blanks, inside, marks, opening, within, behind⟩

/-- The new text of a node stands where its old text stood. No helper is run for it. -/
def Redone (t : Trigger) (context : Context σ) (evaluation : Evaluation) (kind : Node → Piece)
    (node : Node) (c d : Cursor)
    : Prop :=
  ∃ old new, Passage old c d
    ∧ (∀ state, (t.doneNode context evaluation node).outcome state = (.ok new, state))
    ∧ Stands kind (node.moved context.now (pending context.now evaluation)) old d.rest new

namespace Redone

variable {c m e d : Cursor} {left right inner : Node} {suffix : Suffix}

/-- A date is written again in full if its repeat moves it, and copied otherwise. -/
theorem date {value : Date} (place : c.IsIn t.source.toList)
    (dated : result? (Date.read? c) = some (value, m))
    (annotated : (readSuffix m).result = .ok (suffix, d))
    (writable
      : ∀ change ∈ (Node.date value (c.spanTo m) suffix).changes context.now
          (pending context.now evaluation), change.IsWritable)
    : Redone t context evaluation .unit (.date value (c.spanTo m) suffix) c d := by
  obtain ⟨token, before, -⟩ := Date.within_of_read? dated
  obtain ⟨⟨marks, behind, -⟩, span⟩ := within_of_readSuffix annotated
  refine ⟨token ++ marks, _, before.append behind, fun state => by
    rw [doneNode, doneDate_eq place before behind span]
    rfl, ?_⟩
  rw [Node.moved]
  refine .date dated annotated before behind (fun next moved => ?_) _
  refine writable (.date (c.spanTo m) next) ?_
  rw [Node.changes, moved]
  exact List.mem_singleton.mpr rfl

/-- A call is copied. -/
theorem call {opened : Cursor} {name : List Char} {args : List Argument}
    (place : c.IsIn t.source.toList) (starts : c.rest.head?.any isNameStart = true)
    (named : result? (c.run? isNamePart) = some (name, m))
    (opens : result? (m.char? '(') = some ((), opened))
    (arguments : Reads (.args args) opened.skipBlanks e)
    (annotated : (readSuffix e).result = .ok (suffix, d))
    (writable
      : ∀ change ∈ (Node.call (String.ofList name) args (c.spanTo e) suffix).changes context.now
          (pending context.now evaluation), change.IsWritable)
    : Redone t context evaluation .unit (.call (String.ofList name) args (c.spanTo e) suffix) c
        d := by
  obtain ⟨blanks, inside, marks, parts⟩ := exists_callText starts named opens arguments annotated
  refine ⟨_, _, parts.token.append parts.behind, fun state => by
    rw [doneNode_call_eq place parts.token parts.behind (within_of_readSuffix annotated).2
      (changes_call_eq_nil writable)]
    rfl, ?_⟩
  have text : name ++ '(' :: blanks ++ (inside ++ [')']) ++ marks
      = name ++ '(' :: (blanks ++ (inside ++ [')'] ++ marks)) := by simp
  rw [Node.moved, text]
  exact .call parts.starts parts.parts parts.all parts.stop arguments.run.1 parts.within annotated
    parts.behind _ _

/-- A group is written again with the parentheses and the blanks that it had. -/
theorem group {opened : Cursor} (place : c.IsIn t.source.toList)
    (opens : result? (c.char? '(') = some ((), opened))
    (inside : Reads (.either inner) opened.skipBlanks e)
    (closes : result? (e.charAfterBlanks? ')') = some ((), d))
    (h : Redone t context evaluation .either inner opened.skipBlanks e)
    : Redone t context evaluation .unit (.group inner (c.spanTo d)) c d := by
  obtain ⟨old, new, within, done, stands⟩ := h
  obtain ⟨blanks, skipped, all⟩ := opened.within_skipBlanks
  obtain ⟨blanks', closing, all'⟩ := Cursor.passage_of_charAfterBlanks? closes
  have opening := (Cursor.passage_of_char? opens).append skipped
  obtain ⟨before, behind⟩ := inside.copy_around rfl opening closing place
  rw [closing.rest_eq, List.append_assoc] at stands
  refine ⟨_, _, opening.append (within.append closing), fun state => ?_,
    .group all all' _ stands⟩
  rw [doneNode, Cursor.spanTo, before, behind]
  simp only [outcome_bind, done, outcome_pure]
  simp

/-- Units are written again with the text that stood between them. -/
theorem both (place : c.IsIn t.source.toList) (first : Reads (.every left) c m)
    (sign : result? (operator? '&' m) = some ((), e)) (second : Reads (.unit right) e d)
    (h : Redone t context evaluation .every left c m)
    (h' : Redone t context evaluation .unit right e d)
    : Redone t context evaluation .every (.both left right) c d := by
  obtain ⟨old, new, before, done, stands⟩ := h
  obtain ⟨old', new', behind, done', stands'⟩ := h'
  obtain ⟨blanks, blanks', gap, all, all', -⟩ := passage_of_operator? sign
  have between := first.copy_between rfl second rfl gap (before.isIn place)
  rw [gap.rest_eq, behind.rest_eq] at stands
  refine ⟨_, _, before.append (gap.append behind), fun state => ?_,
    .both all all' id stands stands'⟩
  rw [doneNode, between]
  simp only [outcome_bind, done, done', outcome_pure, List.append_assoc]

/-- Parts are written again with the text that stood between them. -/
theorem either (place : c.IsIn t.source.toList) (first : Reads (.either left) c m)
    (sign : result? (operator? '+' m) = some ((), e)) (second : Reads (.every right) e d)
    (stop : NoOperator '&' d) (h : Redone t context evaluation .either left c m)
    (h' : Redone t context evaluation .every right e d)
    : Redone t context evaluation .either (.either left right) c d := by
  obtain ⟨old, new, before, done, stands⟩ := h
  obtain ⟨old', new', behind, done', stands'⟩ := h'
  obtain ⟨blanks, blanks', gap, all, all', -⟩ := passage_of_operator? sign
  have between := first.copy_between rfl second rfl gap (before.isIn place)
  rw [gap.rest_eq, behind.rest_eq] at stands
  refine ⟨_, _, before.append (gap.append behind), fun state => ?_,
    .either all all' id stop stands stands'⟩
  rw [doneNode, between]
  simp only [outcome_bind, done, done', outcome_pure, List.append_assoc]

end Redone

/-- The new text of a piece stands where its old text stood, by induction on the derivation of the
old text.
-/
theorem Reads.redone {piece : Piece} {c d : Cursor} (h : Reads piece c d)
    (place : c.IsIn t.source.toList) {node : Node} (found : piece.node? = some node)
    (writable
      : ∀ change ∈ node.changes context.now (pending context.now evaluation), change.IsWritable)
    : Redone t context evaluation piece.withNode node c d := by
  induction h generalizing node with
  | date dated annotated =>
      cases found
      exact .date place dated annotated writable
  | call starts named opens arguments annotated ih =>
      cases found
      exact .call place starts named opens arguments annotated writable
  | @group c opened e d inner opens inside closes ih =>
      cases found
      obtain ⟨blanks, skipped, -⟩ := opened.within_skipBlanks
      have opening := (Cursor.passage_of_char? opens).append skipped
      exact .group place opens inside closes (ih (opening.isIn place) rfl writable)
  | single unit ih =>
      obtain ⟨old, new, passage, done, stands⟩ := ih place found writable
      exact ⟨old, new, passage, done, stands.spells.single, stands.period⟩
  | part every stop ih =>
      obtain ⟨old, new, passage, done, stands⟩ := ih place found writable
      exact ⟨old, new, passage, done,
        stands.spells.part fun _ behind _ => behind.joins _ _ stop, stands.period⟩
  | both first sign second ih ih' =>
      cases found
      obtain ⟨writable, writable'⟩ := List.forall_mem_append.mp writable
      obtain ⟨read, before, -⟩ := first.passage
      obtain ⟨blanks, blanks', gap, -⟩ := passage_of_operator? sign
      exact .both place first sign second (ih place rfl writable)
        (ih' (gap.isIn (before.isIn place)) rfl writable')
  | either first sign second stop ih ih' =>
      cases found
      obtain ⟨writable, writable'⟩ := List.forall_mem_append.mp writable
      obtain ⟨read, before, -⟩ := first.passage
      obtain ⟨blanks, blanks', gap, -⟩ := passage_of_operator? sign
      exact .either place first sign second stop (ih place rfl writable)
        (ih' (gap.isIn (before.isIn place)) rfl writable')
  | word | trigger | noArgs | lastArg | moreArgs => cases found

/-- The characters of a done name are those of the new text and of the ending. -/
theorem ReadFrom.toList_doneName {text name : String} {d : Cursor} {state later : σ}
    {new : List Char} (h : t.ReadFrom text d)
    (known : ∀ start ∈ t.root.helperStarts, (evaluation.notes.calls.lookup start).isSome = true)
    (done : ∀ state, (t.doneNode context evaluation t.root).outcome state = (.ok new, state))
    (named : (t.doneName context evaluation).outcome state = (.ok name, later))
    : name.toList = new ++ d.rest := by
  rw [doneName] at named
  split at named
  · rename_i never
    have once := Bool.not_eq_true' _ ▸ never
    -- nothing asks for a change, so that the new text is the old one
    have same := h.rewrites context known state
    rw [Node.changes_eq_nil _ _ _ once] at same
    rcases same with ⟨edits, again, after, made, answered, edited⟩ | ⟨error, after, failed, -⟩
    · cases made
      generalize whole : text.toList = chars at edited
      cases edited
      simp only [joined, outcome_bind, done, outcome_pure, h.copy_ending] at answered
      cases named
      rw [h.source, whole]
      cases answered
      rfl
    · generalize none : ([] : List Change) = changes at failed
      cases failed
      simp at none
  · split at named
    · cases named
    · rw [outcome_bind, done] at named
      cases named
      rw [String.toList_ofList, h.copy_ending]

/-- A done name is read as the trigger of the name before, spans aside, with each date moved that
its repeat moves, and with the same ending. No helper call may repeat outside of arguments, and the
new dates must have years that names can hold.
-/
theorem parse_doneName (context : Context σ) {text name : String} {t : Trigger}
    {evaluation : Evaluation} {before after state later : σ} (parsed : parse text = .ok t)
    (evaluated : (t.evaluate context).outcome before = (.ok evaluation, after))
    (named : (t.doneName context evaluation).outcome state = (.ok name, later))
    (still
      : ∀ token whole period,
          .helper token whole period
            ∉ t.root.changes context.now
              (t.root.joins && decide (context.now < evaluation.date)))
    (writable
      : ∀ token value,
          .date token value
            ∈ t.root.changes context.now (t.root.joins && decide (context.now < evaluation.date))
          → 0 ≤ value.year ∧ value.year ≤ 9999)
    : ∃ t',
        parse name = .ok t'
        ∧ t'.root.plain
          = (t.root.moved context.now
              (t.root.joins && decide (context.now < evaluation.date))).plain
        ∧ t'.endingText = t.endingText := by
  obtain ⟨d, h⟩ := parse_eq_ok.mp parsed
  have answered : ((t.evaluate context).outcome before).1 = .ok evaluation := by rw [evaluated]
  rw [← pending_of_evaluated answered] at still writable ⊢
  have place : (Cursor.start text.toList).IsIn t.source.toList := by
    rw [h.source]
    exact Cursor.isIn_start _
  obtain ⟨old, new, passage, done, stands⟩ := h.reads.redone place rfl fun change member => by
    cases change with
    | date token value => exact writable token value member
    | helper token whole period => exact still token whole period member
  obtain ⟨node, same, read⟩ := stands.spells d.rest (.refl _) 0
  have known := evaluate_knows parsed before evaluation answered
  have chars := h.toList_doneName known done named
  let t' : Trigger := ⟨name, node, ⟨0 + byteLength new, name.utf8ByteSize⟩⟩
  have again : t'.ReadFrom name ⟨0 + byteLength new, d.rest⟩ := by
    refine ⟨?_, h.stop.elsewhere _, rfl, rfl⟩
    rw [chars]
    exact read
  exact ⟨t', parse_eq_ok.mpr ⟨_, again⟩, same, again.endingText_eq.trans h.endingText_eq.symm⟩

-----------------------------------------------------------------------------------------
-- A date that repeats
-----------------------------------------------------------------------------------------

/-- A repeating date and the current date. -/
def repeatingDate : Trigger where
  source := "2020P & now() - t"
  root := .both
    (.date (.ofParts 2020 1 1) ⟨0, 4⟩ ⟨none, none, none, some ⟨false, .zero⟩, ⟨4, 5⟩⟩)
    (.call "now" [] ⟨8, 13⟩ ⟨none, none, none, none, ⟨13, 13⟩⟩)
  ending := ⟨13, 17⟩

/-- The repeating date and the current date are read from their name. -/
theorem repeatingDate_readFrom
    : repeatingDate.ReadFrom "2020P & now() - t" ⟨13, " - t".toList⟩ where
  reads := by
    have date : result? (Date.read? ⟨0, "2020P & now() - t".toList⟩)
        = some (.ofParts 2020 1 1, ⟨4, "P & now() - t".toList⟩) := rfl
    have first : (readSuffix ⟨4, "P & now() - t".toList⟩).result
        = .ok (⟨none, none, none, some ⟨false, .zero⟩, ⟨4, 5⟩⟩, ⟨5, " & now() - t".toList⟩) := rfl
    have sign : result? (operator? '&' ⟨5, " & now() - t".toList⟩)
        = some ((), ⟨8, "now() - t".toList⟩) := rfl
    have call : Reads (.unit (.call "now" [] ⟨8, 13⟩ ⟨none, none, none, none, ⟨13, 13⟩⟩))
        ⟨8, "now() - t".toList⟩ ⟨13, " - t".toList⟩ :=
      .call_nil "now" 8 (by decide) rfl
    exact .part (.both (.single (.date date first)) sign call) rfl
  stop := rfl
  source := rfl
  ending := rfl

/-- What the repeating date evaluates to on a day that comes later. -/
def repeatingDateEvaluation : Evaluation where
  date := .ofParts 2021 5 6
  ending := " - t"
  canRepeat := true
  notes := { isRepeating := true, usesExpression := true, usesOperators := true }

/-- The repeating date becomes the date of the day, in full. -/
theorem doneName_repeatingDate
    : (repeatingDate.doneName (recording (.ofParts 2021 5 6) "2022-01-01")
        repeatingDateEvaluation).outcome []
      = (.ok "2021-05-06P & now() - t", []) := by
  have next : Period.zero.addTo (recording (.ofParts 2021 5 6) "2022-01-01").now
      = .ofParts 2021 5 6 := by decide +kernel
  unfold doneName repeatingDate
  simp only [doneNode, doneDate, next]
  rfl

/-- Nothing but the repeating date changes. -/
theorem changes_repeatingDate
    : repeatingDate.root.changes (recording (.ofParts 2021 5 6) "2022-01-01").now
        (repeatingDate.root.joins
          && decide ((recording (.ofParts 2021 5 6) "2022-01-01").now
            < repeatingDateEvaluation.date))
      = [.date ⟨0, 4⟩ (.ofParts 2021 5 6)] := by
  have next : Period.zero.addTo (recording (.ofParts 2021 5 6) "2022-01-01").now
      = .ofParts 2021 5 6 := by decide +kernel
  rw [show (_ && _) = false from rfl]
  simp [repeatingDate, Node.changes, Suffix.nextDate?, next]

/-- The short date becomes a date in full, and the name that has it is read with it. -/
theorem parse_doneName_of_repeatingDate
    : parse "2020P & now() - t" = .ok repeatingDate
      ∧ (repeatingDate.evaluate (recording (.ofParts 2021 5 6) "2022-01-01")).outcome []
        = (.ok repeatingDateEvaluation, [])
      ∧ (repeatingDate.doneName (recording (.ofParts 2021 5 6) "2022-01-01")
          repeatingDateEvaluation).outcome []
        = (.ok "2021-05-06P & now() - t", [])
      ∧ ∃ t', parse "2021-05-06P & now() - t" = .ok t'
        ∧ t'.root.plain = (repeatingDate.root.moved (.ofParts 2021 5 6) false).plain
        ∧ t'.endingText = " - t" := by
  have parsed : parse "2020P & now() - t" = .ok repeatingDate :=
    parse_eq_ok.mpr ⟨_, repeatingDate_readFrom⟩
  have named := doneName_repeatingDate
  have changes := changes_repeatingDate
  have evaluated
      : (repeatingDate.evaluate (recording (.ofParts 2021 5 6) "2022-01-01")).outcome []
        = (.ok repeatingDateEvaluation, []) := rfl
  refine ⟨parsed, evaluated, named, parse_doneName _ parsed evaluated named ?_ ?_⟩
  · rw [changes]
    intro token whole period member
    cases List.mem_singleton.mp member
  · rw [changes]
    intro token value member
    cases List.mem_singleton.mp member
    decide

end Trigger

end DueTasks
