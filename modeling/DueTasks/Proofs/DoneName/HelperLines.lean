import DueTasks.Proofs.Calendar.DateText
import DueTasks.Proofs.DoneName.Replaying
import DueTasks.Proofs.DoneName.Rereading

/-! Lines of helpers in done names.
A helper call that runs again becomes the line that its helper prints, as it stands. Evaluation
reads a date from such a line whatever white space is around it, but a name does not: nothing may
stand behind the date, only spaces and tabs before it, and nothing where the name begins. A done
name with such lines is read as the trigger of the name before, with dates in the places of the
calls.
-/

namespace DueTasks

open Text Parsed

/-- A line can take the place of a call that starts at an offset of a name. It is a date with
nothing behind it, and with nothing before it but spaces and tabs, which may not begin the name.
-/
structure Splices (start : Nat) (line : List Char) : Prop where
  date : (Date.ofText? (String.ofList line)).isSome = true
  margin
    : ∃ lead, line = lead ++ trim line
        ∧ (∀ c ∈ lead, isSpaceOrTab c = true)
        ∧ (start = 0 → lead = [])

/-- An edit puts in place what a change asks for: a date of the years that names can hold, or a line
that can take the place of its call.
-/
def Edit.Answers (edit : Edit) : Change → Prop
  | .date token value => edit = ⟨token, value.chars⟩ ∧ 0 ≤ value.year ∧ value.year ≤ 9999
  | .helper token _ _ => edit.span = token ∧ Splices token.start edit.text

/-- A node with the dates moved that its repeats move, and with each call that runs again replaced
by the date of its new text, under the annotations of the call.
-/
inductive Renewed (now : Date) (pending : Bool) : Node → List Edit → Node → Prop where
  | kept (value : Date) (token : Span) {suffix : Suffix}
      (stays : suffix.nextDate? now pending = none)
    : Renewed now pending (.date value token suffix) [] (.date value token suffix)
  | moved (value : Date) (token : Span) {suffix : Suffix} {next : Date}
      (moves : suffix.nextDate? now pending = some next)
    : Renewed now pending (.date value token suffix) [⟨token, next.chars⟩]
        (.date next token suffix)
  | call {name : String} {args : List Argument} {token : Span} {suffix : Suffix}
      (once : (Node.call name args token suffix).runsAgain = false)
    : Renewed now pending (.call name args token suffix) [] (.call name args token suffix)
  | line {name : String} {args : List Argument} {token : Span} {suffix : Suffix}
      {text : List Char} {value : Date}
      (again : (Node.call name args token suffix).runsAgain = true)
      (printed : Date.ofText? (String.ofList text) = some value)
    : Renewed now pending (.call name args token suffix) [⟨token, text⟩]
        (.date value token suffix)
  | both {left right left' right' : Node} {edits edits' : List Edit}
      (first : Renewed now pending left edits left')
      (second : Renewed now pending right edits' right')
    : Renewed now pending (.both left right) (edits ++ edits') (.both left' right')
  | either {left right left' right' : Node} {edits edits' : List Edit}
      (first : Renewed now pending left edits left')
      (second : Renewed now pending right edits' right')
    : Renewed now pending (.either left right) (edits ++ edits') (.either left' right')
  | group {inner inner' : Node} {edits : List Edit} (span : Span)
      (inside : Renewed now pending inner edits inner')
    : Renewed now pending (.group inner span) edits (.group inner' span)

namespace Trigger

open Asking Reply

-----------------------------------------------------------------------------------------
-- A line stands where its call stood
-----------------------------------------------------------------------------------------

/-- Where nothing follows, nothing is read that was not read before. -/
theorem Exchange.nil (rest : List Char) : Exchange rest [] where
  shut := .inr ⟨rfl, fun _ _ _ => rfl⟩
  joins _ _ _ := noOperator_iff.mpr nofun

/-- Annotations with a repeat are a text that begins with the mark of one of them. -/
theorem exists_mark_of_append {offset : Nat} {chars rest : List Char} {suffix : Suffix}
    (annotated
      : (readSuffix ⟨offset, chars ++ rest⟩).result
        = .ok (suffix, ⟨offset + byteLength chars, rest⟩))
    (repeats : suffix.repetition.isSome = true)
    : ∃ mark ∈ suffixMarks, ∃ more, chars = mark :: more := by
  obtain ⟨suffix', alone, same⟩ := (Exchange.nil rest).readSuffix annotated 0
  rw [← Suffix.repetition_eq_of_plain same, List.append_nil] at *
  obtain ⟨mark, member, first⟩ := exists_mark alone repeats
  obtain _ | ⟨found, more⟩ := chars
  · cases first
  · exact ⟨mark, member, more, by rw [Option.some.inj first]⟩

namespace Stands

/-- The date of a line stands in front of the annotations of the call that printed it. -/
theorem line {line marks old : List Char} {value : Date} {suffix : Suffix} {e d : Cursor}
    (printed : Date.ofText? (String.ofList line) = some value)
    (annotated : (readSuffix e).result = .ok (suffix, d)) (behind : Passage marks e d)
    (repeats : suffix.repetition.isSome = true) (span : Span)
    : Stands .unit (.date value span suffix) old d.rest (trim line ++ marks) := by
  obtain ⟨offset, rest⟩ := behind
  obtain ⟨mark, member, more, rfl⟩ := exists_mark_of_append annotated repeats
  -- no mark goes on a date, nor a number of a period
  have parts : mark ≠ '-' ∧ mark.isDigit = false ∧ Period.isCountPart mark = false := by
    simp only [suffixMarks, List.mem_cons, List.not_mem_nil, or_false] at member
    rcases member with rfl | rfl | rfl | rfl <;> decide
  obtain ⟨hyphen, digit, count⟩ := parts
  have dated (rest' : List Char) (offset : Nat)
      : result? (Date.read? ⟨offset, trim line ++ (mark :: more ++ rest')⟩)
        = some (value, ⟨offset + byteLength (trim line), mark :: more ++ rest'⟩) :=
    Date.read?_of_ofText? printed (by simpa using hyphen) (by simpa using digit) offset
  refine ⟨.date (fun rest' _ offset => dated rest' offset) (spellsSuffix annotated) _,
    fun rest' _ _ offset' _ => ?_⟩
  rw [List.append_assoc]
  exact Period.read?_plus_of_date (dated rest' 0) (by simpa using count) offset'

end Stands

-----------------------------------------------------------------------------------------
-- Every piece stands with its new text
-----------------------------------------------------------------------------------------

/-- The new text of a node stands where its old text stood, apart from blanks in front of it. The
name does not begin with such blanks.
-/
def Renews (now : Date) (pending : Bool) (kind : Node → Piece) (node : Node) (edits : List Edit)
    (c d : Cursor)
    : Prop :=
  ∃ old lead new target, Passage old c d
    ∧ Edited c.offset old edits (lead ++ new)
    ∧ Renewed now pending node edits target
    ∧ (∀ found ∈ lead, isSpaceOrTab found = true)
    ∧ (c.offset = 0 → lead = [])
    ∧ Stands kind target old d.rest new

namespace Renews

variable {now : Date} {pending : Bool} {c m e d : Cursor} {left right inner : Node}
  {suffix : Suffix} {edits edits' : List Edit}

/-- A new text that stands for a piece of another kind as well renews that piece too. -/
theorem imp {kind kind' : Node → Piece} (h : Renews now pending kind inner edits c d)
    (stands
      : ∀ target old new, Stands kind target old d.rest new → Stands kind' target old d.rest new)
    : Renews now pending kind' inner edits c d := by
  obtain ⟨old, lead, new, target, passage, edited, renewed, isLead, first, stood⟩ := h
  exact ⟨old, lead, new, target, passage, edited, renewed, isLead, first, stands _ _ _ stood⟩

/-- A date is written again in full if its repeat moves it, and kept otherwise. -/
theorem date {value : Date} (dated : result? (Date.read? c) = some (value, m))
    (annotated : (readSuffix m).result = .ok (suffix, d))
    (answers
      : List.Forall₂ Edit.Answers edits
          ((Node.date value (c.spanTo m) suffix).changes now pending))
    : Renews now pending .unit (.date value (c.spanTo m) suffix) edits c d := by
  obtain ⟨token, before, -⟩ := Date.within_of_read? dated
  obtain ⟨⟨marks, behind, -⟩, span⟩ := within_of_readSuffix annotated
  have whole := before.append behind
  have place : c.spanTo m = ⟨c.offset, c.offset + byteLength token⟩ := by
    rw [Cursor.spanTo, before.offset_eq]
  rw [Node.changes] at answers
  have writable (next : Date) (moves : suffix.nextDate? now pending = some next)
      : 0 ≤ next.year ∧ next.year ≤ 9999 := by
    rw [moves] at answers
    obtain _ | ⟨answer, _⟩ := answers
    exact answer.2
  have stands := Stands.date dated annotated before behind writable (c.spanTo m)
  cases next : suffix.nextDate? now pending with
  | none =>
      rw [next] at answers stands
      cases answers
      exact ⟨_, [], _, _, whole, .kept _ _, .kept _ _ next, List.forall_mem_nil _, fun _ => rfl,
        stands⟩
  | some value' =>
      rw [next] at answers stands
      obtain _ | ⟨answer, none⟩ := answers
      cases none
      obtain ⟨rfl, -⟩ := answer
      exact ⟨_, [], _, _, whole, .front _ place, .moved _ _ next, List.forall_mem_nil _,
        fun _ => rfl, stands⟩

/-- A call is replaced by the line of its helper if it runs again, and kept otherwise. -/
theorem call {opened : Cursor} {name : List Char} {args : List Argument}
    (starts : c.rest.head?.any isNameStart = true)
    (named : result? (c.run? isNamePart) = some (name, m))
    (opens : result? (m.char? '(') = some ((), opened))
    (arguments : Reads (.args args) opened.skipBlanks e)
    (annotated : (readSuffix e).result = .ok (suffix, d))
    (answers
      : List.Forall₂ Edit.Answers edits
          ((Node.call (String.ofList name) args (c.spanTo e) suffix).changes now pending))
    : Renews now pending .unit (.call (String.ofList name) args (c.spanTo e) suffix) edits c d := by
  obtain ⟨blanks, inside, marks, parts⟩ := exists_callText starts named opens arguments annotated
  have whole := parts.token.append parts.behind
  cases again : (Node.call (String.ofList name) args (c.spanTo e) suffix).runsAgain with
  | false =>
      rw [Node.changes_call again] at answers
      cases answers
      have text : name ++ '(' :: blanks ++ (inside ++ [')']) ++ marks
          = name ++ '(' :: (blanks ++ (inside ++ [')'] ++ marks)) := by simp
      rw [text] at whole
      refine ⟨_, [], _, _, whole, .kept _ _, .call again, List.forall_mem_nil _, fun _ => rfl, ?_⟩
      exact .call parts.starts parts.parts parts.all parts.stop arguments.run.1 parts.within
        annotated parts.behind _ _
  | true =>
      obtain ⟨repeats, period, asked⟩ := Node.exists_changes_call again now pending
      rw [asked] at answers
      obtain _ | ⟨answer, none⟩ := answers
      cases none
      rename_i edit
      obtain ⟨span, text⟩ := edit
      obtain ⟨same, splices⟩ := answer
      simp only at same splices
      subst same
      obtain ⟨value, printed⟩ := Option.isSome_iff_exists.mp splices.date
      obtain ⟨lead, line, isLead, first⟩ := splices.margin
      have place : c.spanTo e = ⟨c.offset,
          c.offset + byteLength (name ++ '(' :: blanks ++ (inside ++ [')']))⟩ := by
        rw [Cursor.spanTo, parts.token.offset_eq]
      refine ⟨_, lead, trim text ++ marks, _, whole, ?_, .line again printed, isLead, first,
        .line printed annotated parts.behind repeats _⟩
      have spliced : lead ++ (trim text ++ marks) = text ++ marks := by
        rw [← List.append_assoc, ← line]
      rw [spliced]
      exact .front _ place

/-- A group is written again with the parentheses and the blanks that it had. -/
theorem group {opened : Cursor} (opens : result? (c.char? '(') = some ((), opened))
    (closes : result? (e.charAfterBlanks? ')') = some ((), d))
    (h : Renews now pending .either inner edits opened.skipBlanks e)
    : Renews now pending .unit (.group inner (c.spanTo d)) edits c d := by
  obtain ⟨old, lead, new, target, within, edited, renewed, isLead, -, stands⟩ := h
  obtain ⟨blanks, skipped, all⟩ := opened.within_skipBlanks
  obtain ⟨blanks', closing, all'⟩ := Cursor.passage_of_charAfterBlanks? closes
  have opening := (Cursor.passage_of_char? opens).append skipped
  rw [closing.rest_eq, List.append_assoc] at stands
  rw [opening.offset_eq] at edited
  have around := (edited.append (.kept _ (blanks' ++ [')']))).behind
  rw [List.append_nil] at around
  have isLead : ∀ found ∈ blanks ++ lead, isSpaceOrTab found = true :=
    List.forall_mem_append.mpr ⟨all, isLead⟩
  refine ⟨_, [], _, _, opening.append (within.append closing), ?_, .group _ renewed,
    List.forall_mem_nil _, fun _ => rfl, .group isLead all' _ stands⟩
  simpa only [List.nil_append, List.append_assoc, List.cons_append] using around

/-- Units are written again with the text that stood between them. -/
theorem both (sign : result? (operator? '&' m) = some ((), e))
    (h : Renews now pending .every left edits c m)
    (h' : Renews now pending .unit right edits' e d)
    : Renews now pending .every (.both left right) (edits ++ edits') c d := by
  obtain ⟨old, lead, new, target, before, edited, renewed, isLead, first, stands⟩ := h
  obtain ⟨old', lead', new', target', behind, edited', renewed', isLead', -, stands'⟩ := h'
  obtain ⟨blanks, blanks', gap, all, all', -⟩ := passage_of_operator? sign
  rw [gap.rest_eq, behind.rest_eq] at stands
  rw [gap.offset_eq, before.offset_eq] at edited'
  have isLead' : ∀ found ∈ blanks' ++ lead', isSpaceOrTab found = true :=
    List.forall_mem_append.mpr ⟨all', isLead'⟩
  refine ⟨_, lead, _, _, before.append (gap.append behind), ?_, .both renewed renewed', isLead,
    first, .both all isLead' (fun none => (List.append_eq_nil_iff.mp none).1) stands stands'⟩
  simpa only [List.append_assoc, List.cons_append] using edited.append edited'.behind

/-- Parts are written again with the text that stood between them. -/
theorem either (sign : result? (operator? '+' m) = some ((), e)) (stop : NoOperator '&' d)
    (h : Renews now pending .either left edits c m)
    (h' : Renews now pending .every right edits' e d)
    : Renews now pending .either (.either left right) (edits ++ edits') c d := by
  obtain ⟨old, lead, new, target, before, edited, renewed, isLead, first, stands⟩ := h
  obtain ⟨old', lead', new', target', behind, edited', renewed', isLead', -, stands'⟩ := h'
  obtain ⟨blanks, blanks', gap, all, all', -⟩ := passage_of_operator? sign
  rw [gap.rest_eq, behind.rest_eq] at stands
  rw [gap.offset_eq, before.offset_eq] at edited'
  have isLead' : ∀ found ∈ blanks' ++ lead', isSpaceOrTab found = true :=
    List.forall_mem_append.mpr ⟨all', isLead'⟩
  refine ⟨_, lead, _, _, before.append (gap.append behind), ?_, .either renewed renewed', isLead,
    first,
    .either all isLead' (fun none => (List.append_eq_nil_iff.mp none).1) stop stands stands'⟩
  simpa only [List.append_assoc, List.cons_append] using edited.append edited'.behind

end Renews

/-- The answers to changes in sequence come in sequence. -/
theorem exists_answers {changes changes' : List Change} {edits : List Edit}
    (answers : List.Forall₂ Edit.Answers edits (changes ++ changes'))
    : ∃ first second,
        edits = first ++ second
        ∧ List.Forall₂ Edit.Answers first changes
        ∧ List.Forall₂ Edit.Answers second changes' :=
  ⟨_, _, (List.take_append_drop _ _).symm, List.forall₂_take_append _ _ _ answers,
    List.forall₂_drop_append _ _ _ answers⟩

/-- The new text of a piece, with answers to all changes that its repeats ask for, stands where its
old text stood, by induction on the derivation of the old text.
-/
theorem Reads.renews {piece : Piece} {c d : Cursor} (h : Reads piece c d) {node : Node}
    (found : piece.node? = some node) {now : Date} {pending : Bool} {edits : List Edit}
    (answers : List.Forall₂ Edit.Answers edits (node.changes now pending))
    : Renews now pending piece.withNode node edits c d := by
  induction h generalizing node edits with
  | date dated annotated =>
      cases found
      exact .date dated annotated answers
  | call starts named opens arguments annotated ih =>
      cases found
      exact .call starts named opens arguments annotated answers
  | group opens inside closes ih =>
      cases found
      exact .group opens closes (ih rfl answers)
  | single unit ih =>
      exact (ih found answers).imp fun _ _ _ stands => ⟨stands.spells.single, stands.period⟩
  | part every stop ih =>
      exact (ih found answers).imp fun _ _ _ stands =>
        ⟨stands.spells.part fun _ behind _ => behind.joins _ _ stop, stands.period⟩
  | both first sign second ih ih' =>
      cases found
      obtain ⟨edits, edits', rfl, answers, answers'⟩ := exists_answers answers
      exact .both sign (ih rfl answers) (ih' rfl answers')
  | either first sign second stop ih ih' =>
      cases found
      obtain ⟨edits, edits', rfl, answers, answers'⟩ := exists_answers answers
      exact .either sign stop (ih rfl answers) (ih' rfl answers')
  | word | trigger | noArgs | lastArg | moreArgs => cases found

-----------------------------------------------------------------------------------------
-- Done names with lines of helpers
-----------------------------------------------------------------------------------------

section

variable {σ : Type} {t : Trigger} {context : Context σ} {evaluation : Evaluation}
  {changes : List Change} {edits : List Edit} {state later : σ} {text : String} {d : Cursor}

/-- Changes that are made with lines that can take the places of their calls, and with dates that
names can hold, are answered, by induction over the changes.
-/
theorem Makes.answers (h : Makes context evaluation changes state edits later)
    (lines
      : ∀ token whole period line,
          .helper token whole period ∈ changes → ⟨token, line⟩ ∈ edits → Splices token.start line)
    (writable
      : ∀ token value, .date token value ∈ changes → 0 ≤ value.year ∧ value.year ≤ 9999)
    : List.Forall₂ Edit.Answers edits changes := by
  induction h with
  | none state => exact .nil
  | date token value made ih =>
      refine .cons ⟨rfl, writable token value List.mem_cons_self⟩ (ih ?_ ?_)
      · exact fun token whole period line asked given =>
          lines token whole period line (.tail _ asked) (.tail _ given)
      · exact fun token value asked => writable token value (.tail _ asked)
  | helper token whole period known ran made ih =>
      refine .cons ⟨rfl, lines token whole period _ List.mem_cons_self List.mem_cons_self⟩
        (ih ?_ ?_)
      · exact fun token whole period line asked given =>
          lines token whole period line (.tail _ asked) (.tail _ given)
      · exact fun token value asked => writable token value (.tail _ asked)

/-- The done name is the text of the name with the changes made, if they can be made. -/
theorem ReadFrom.doneName_eq (h : t.ReadFrom text d)
    (known : ∀ start ∈ t.root.helperStarts, (evaluation.notes.calls.lookup start).isSome = true)
    (canRepeat : evaluation.canRepeat = true)
    (made
      : Makes context evaluation (t.root.changes context.now (pending context.now evaluation)) state
          edits later)
    {new : List Char} (edited : Edited 0 text.toList edits new)
    : (t.doneName context evaluation).outcome state = (.ok (String.ofList new), later) := by
  cases repeats : t.hasRepeat with
  | false =>
      rw [Node.changes_eq_nil _ _ _ repeats] at made
      cases made
      rw [edited.unique (.kept _ _), String.ofList_toList, doneName, repeats, ← h.source]
      rfl
  | true =>
      rw [doneName_eq_joined context repeats canRepeat, outcome_map]
      rcases h.rewrites context known state with ⟨edits', new', after, made', answered, edited'⟩
        | ⟨error, after, failed, -⟩
      · obtain ⟨rfl, rfl⟩ := made.unique made'
        rw [answered, edited.unique edited']
        rfl
      · exact absurd failed made.not_fails

/-- A name whose first part is exchanged for a text that stands there is read with that text. -/
theorem ReadFrom.parse_stands (h : t.ReadFrom text d) {target : Node} {old new : List Char}
    (stands : Stands .either target old d.rest new)
    : ∃ t', parse (String.ofList (new ++ d.rest)) = .ok t'
        ∧ t'.root.plain = target.plain
        ∧ t'.endingText = t.endingText := by
  obtain ⟨node, same, read⟩ := stands.spells d.rest (.refl _) 0
  let name := String.ofList (new ++ d.rest)
  let t' : Trigger := ⟨name, node, ⟨0 + byteLength new, name.utf8ByteSize⟩⟩
  have again : t'.ReadFrom name ⟨0 + byteLength new, d.rest⟩ := by
    refine ⟨?_, h.stop.elsewhere _, rfl, rfl⟩
    rw [String.toList_ofList]
    exact read
  exact ⟨t', parse_eq_ok.mpr ⟨_, again⟩, same, again.endingText_eq.trans h.endingText_eq.symm⟩

end

/-- If every helper that runs again prints a date, with nothing behind it and nothing but spaces and
tabs before it, then there is a done name, unless the task declares an id. It is read as the trigger
of the name before, spans aside, with each date moved that its repeat moves, with each call that ran
again replaced by the date that its helper printed, under the annotations of the call, and with the
same ending. A line in front of which the name has no text must begin with the date, and the new
dates must have years that names can hold.
-/
theorem parse_doneName_of_lines {σ : Type} (context : Context σ) {text : String} {t : Trigger}
    {evaluation : Evaluation} {before after state later : σ} (parsed : parse text = .ok t)
    (evaluated : (t.evaluate context).outcome before = (.ok evaluation, after))
    (undeclared : t.declaredIds = [])
    : let pending := t.root.joins && decide (context.now < evaluation.date)
      let changes := t.root.changes context.now pending
      ∀ edits,
        Makes context evaluation changes state edits later
        → (∀ token whole period line,
            .helper token whole period ∈ changes
            → ⟨token, line⟩ ∈ edits
            → Splices token.start line)
        → (∀ token value,
            .date token value ∈ changes → 0 ≤ value.year ∧ value.year ≤ 9999)
        → ∃ name t' target,
            (t.doneName context evaluation).outcome state = (.ok name, later)
            ∧ parse name = .ok t'
            ∧ Renewed context.now pending t.root edits target
            ∧ t'.root.plain = target.plain
            ∧ t'.endingText = t.endingText := by
  intro pending' changes edits made lines writable
  obtain ⟨d, h⟩ := parse_eq_ok.mp parsed
  have answered : ((t.evaluate context).outcome before).1 = .ok evaluation := by rw [evaluated]
  have canRepeat := evaluate_canRepeat before evaluation answered
  have known := evaluate_knows parsed before evaluation answered
  have operators : pending context.now evaluation = pending' :=
    pending_of_evaluated answered context.now
  obtain ⟨old, lead, new, target, passage, edited, renewed, -, first, stands⟩ :=
    h.reads.renews rfl (made.answers lines writable)
  obtain rfl := first rfl
  have whole : text.toList = old ++ d.rest := passage.rest_eq
  have written := edited.append (.kept _ d.rest)
  rw [List.append_nil, List.nil_append, ← whole] at written
  have named : (t.doneName context evaluation).outcome state
      = (.ok (String.ofList (new ++ d.rest)), later) :=
    h.doneName_eq known (by simp [canRepeat, undeclared]) (operators ▸ made) written
  obtain ⟨t', again, same, ending⟩ := h.parse_stands stands
  exact ⟨_, t', target, named, again, renewed, same, ending⟩

-----------------------------------------------------------------------------------------
-- Lines around a date
-----------------------------------------------------------------------------------------

/-- The edits of two helpers that run again. The line of the second one begins with a tab. -/
def twoLines : List Edit :=
  [⟨⟨0, 15⟩, "2025".toList⟩, ⟨⟨19, 27⟩, "\t2026-02".toList⟩]

theorem twoLines_splice : ∀ edit ∈ twoLines, Splices edit.span.start edit.text := by
  have dated : (Date.ofText? (String.ofList "2025".toList)).isSome = true
      ∧ (Date.ofText? (String.ofList "\t2026-02".toList)).isSome = true := ⟨rfl, rfl⟩
  refine List.forall_mem_cons.mpr ⟨⟨dated.1, [], rfl, List.forall_mem_nil _, fun _ => rfl⟩, ?_⟩
  have blank : ∀ c ∈ ['\t'], isSpaceOrTab c = true := List.forall_mem_singleton.mpr rfl
  exact List.forall_mem_singleton.mpr ⟨dated.2, ['\t'], rfl, blank, nofun⟩

theorem changes_twoHelpers
    : twoHelpers.root.changes printing.now false
      = [.helper ⟨0, 15⟩ ⟨0, 16⟩ .zero, .helper ⟨19, 27⟩ ⟨19, 28⟩ .zero] :=
  rfl

/-- The line of a helper may begin with a tab where its call does not begin the name. -/
theorem parse_doneName_of_lines_of_twoHelpers
    : ∃ evaluation name t' target,
        parse "bin('x', arg())P & bin('y')P - t" = .ok twoHelpers
        ∧ (twoHelpers.evaluate printing).outcome ["2023", "2022", "2025", "\t2026-02"]
          = (.ok evaluation, ["2025", "\t2026-02"])
        ∧ (twoHelpers.doneName printing evaluation).outcome ["2025", "\t2026-02"] = (.ok name, [])
        ∧ name = "2025P & \t2026-02P - t"
        ∧ parse name = .ok t'
        ∧ Renewed printing.now false twoHelpers.root twoLines target
        ∧ t'.root.plain = target.plain
        ∧ t'.endingText = " - t" := by
  obtain ⟨evaluation, evaluated, due, made, named⟩ : ∃ evaluation,
      (twoHelpers.evaluate printing).outcome ["2023", "2022", "2025", "\t2026-02"]
        = (.ok evaluation, ["2025", "\t2026-02"])
      ∧ (twoHelpers.root.joins && decide (printing.now < evaluation.date)) = false
      ∧ Makes printing evaluation (twoHelpers.root.changes printing.now false)
          ["2025", "\t2026-02"] twoLines []
      ∧ (twoHelpers.doneName printing evaluation).outcome ["2025", "\t2026-02"]
        = (.ok "2025P & \t2026-02P - t", []) :=
    ⟨_, rfl, rfl, .helper _ _ _ rfl rfl (.helper _ _ _ rfl rfl (.none _)), rfl⟩
  rw [← due] at made
  obtain ⟨name, t', target, answered, again, renewed, same, ending⟩ :=
    parse_doneName_of_lines printing parse_twoHelpers evaluated rfl twoLines made
      (fun token _ _ line _ given => twoLines_splice ⟨token, line⟩ given)
      (by
        rw [due, changes_twoHelpers]
        simp)
  rw [named] at answered
  cases answered
  exact ⟨evaluation, _, t', target, parse_twoHelpers, evaluated, named, rfl, again, due ▸ renewed,
    same, ending⟩

/-- A helper call that repeats, with an ending. -/
def plainTask : Trigger where
  source := "bin('y')P - t"
  root := plainHelper 0
  ending := ⟨9, 13⟩

theorem parse_plainTask : parse "bin('y')P - t" = .ok plainTask := by
  have call : Reads (.unit (plainHelper 0)) ⟨0, "bin('y')P - t".toList⟩ ⟨9, " - t".toList⟩ :=
    .call_quoted "bin" "y" 0 (by decide) rfl
  exact parse_of_every (.single call) rfl rfl

/-- A name that begins with a space is not read. -/
theorem parse_of_leadingBlank (t : Trigger) : parse " 2024-01-01P - t" ≠ .ok t := by
  intro parsed
  obtain ⟨d, h⟩ := parse_eq_ok.mp parsed
  cases h.reads.stops_blanks trivial

/-- A name with a space behind a date ends there. -/
theorem parse_of_trailingBlank
    : parse "2024-01-01 P - t"
      = .ok ⟨"2024-01-01 P - t",
          .date (.ofParts 2024 1 1) ⟨0, 10⟩ ⟨none, none, none, none, ⟨10, 10⟩⟩, ⟨10, 16⟩⟩ := by
  have dated : result? (Date.read? ⟨0, "2024-01-01 P - t".toList⟩)
      = some (.ofParts 2024 1 1, ⟨10, " P - t".toList⟩) := rfl
  have annotated : (readSuffix ⟨10, " P - t".toList⟩).result
      = .ok (⟨none, none, none, none, ⟨10, 10⟩⟩, ⟨10, " P - t".toList⟩) := rfl
  exact parse_of_every (.single (.date dated annotated)) rfl rfl

/-- A name with white space that is no blank behind its sign is not read. -/
theorem parse_of_verticalTab (t : Trigger) : parse "2025P & \x0b2026P - t" ≠ .ok t := by
  let repeating : Node := .date (.ofParts 2025 1 1) ⟨0, 4⟩
    ⟨none, none, none, some ⟨false, .zero⟩, ⟨4, 5⟩⟩
  have unit : (readUnit ⟨0, "2025P & \x0b2026P - t".toList⟩).result
      = .ok (repeating, ⟨5, " & \x0b2026P - t".toList⟩) := by
    rw [result_readUnit]
    rfl
  have sign : result? (operator? '&' ⟨5, " & \x0b2026P - t".toList⟩)
      = some ((), ⟨8, "\x0b2026P - t".toList⟩) := rfl
  have behind : ∃ fault, (readUnit ⟨8, "\x0b2026P - t".toList⟩).result = .error fault := by
    rw [result_readUnit]
    exact ⟨_, rfl⟩
  obtain ⟨fault, behind⟩ := behind
  have both : ∃ fault', (readBoth repeating ⟨5, " & \x0b2026P - t".toList⟩).result
      = .error fault' := by
    rw [result_readBoth, sign]
    simp only [behind]
    exact ⟨_, rfl⟩
  obtain ⟨fault', both⟩ := both
  rw [result_parse, result_readNode, result_readEvery, Cursor.start, unit, ok_bind, both]
  intro parsed
  cases parsed

/-- Evaluation reads a date from each of these lines. The done names with them are no names, or one
with another ending, and a task with an id has none.
-/
theorem doneName_of_strayBlanks
    : (∀ line ∈ ["2024-01-01 ", " 2024-01-01", "2025", "\x0b2026", "2022"],
        (Date.ofText? line).isSome = true)
      ∧ (∃ evaluation t',
          parse "bin('y')P - t" = .ok plainTask
          ∧ (plainTask.evaluate printing).outcome ["2023", "2024-01-01 "]
            = (.ok evaluation, ["2024-01-01 "])
          ∧ (plainTask.doneName printing evaluation).outcome ["2024-01-01 "]
            = (.ok "2024-01-01 P - t", [])
          ∧ parse "2024-01-01 P - t" = .ok t'
          ∧ t'.hasRepeat = false
          ∧ t'.endingText = " P - t"
          ∧ plainTask.endingText = " - t")
      ∧ (∃ evaluation,
          (plainTask.evaluate printing).outcome ["2023", " 2024-01-01"]
            = (.ok evaluation, [" 2024-01-01"])
          ∧ (plainTask.doneName printing evaluation).outcome [" 2024-01-01"]
            = (.ok " 2024-01-01P - t", [])
          ∧ ∀ t', parse " 2024-01-01P - t" ≠ .ok t')
      ∧ (∃ evaluation,
          parse "bin('x', arg())P & bin('y')P - t" = .ok twoHelpers
          ∧ (twoHelpers.evaluate printing).outcome ["2023", "2022", "2025", "\x0b2026"]
            = (.ok evaluation, ["2025", "\x0b2026"])
          ∧ (twoHelpers.doneName printing evaluation).outcome ["2025", "\x0b2026"]
            = (.ok "2025P & \x0b2026P - t", [])
          ∧ ∀ t', parse "2025P & \x0b2026P - t" ≠ .ok t')
      ∧ ∃ evaluation,
          parse "id('a') & bin('y')P - t" = .ok declaringHelper
          ∧ (declaringHelper.evaluate printing).outcome ["2023", "2022"]
            = (.ok evaluation, ["2022"])
          ∧ (declaringHelper.doneName printing evaluation).outcome ["2022"]
            = (.error (.semantic "id('a') & bin('y')P - t" .cannotRepeat), ["2022"]) := by
  refine ⟨?_, ?_, ?_, ?_, ?_⟩
  · decide +kernel
  · exact ⟨_, _, parse_plainTask, rfl, rfl, parse_of_trailingBlank, rfl, rfl, rfl⟩
  · exact ⟨_, rfl, rfl, parse_of_leadingBlank⟩
  · exact ⟨_, parse_twoHelpers, rfl, rfl, parse_of_verticalTab⟩
  · exact ⟨_, parse_declaringHelper, rfl, rfl⟩

end Trigger

end DueTasks
