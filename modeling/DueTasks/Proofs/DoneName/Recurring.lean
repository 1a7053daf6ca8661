import DueTasks.Proofs.DoneName.Replaying
import DueTasks.Proofs.DoneName.Rereading
import DueTasks.Proofs.Evaluation.Elsewhere

/-! Triggers that come again in their done names.
A done name is read as the trigger of the name before with its dates moved. Each date that was moved
stands there as it would be written once more, and each call with its text, so that it is evaluated
as before.
-/

namespace DueTasks

open Text Parsed

-----------------------------------------------------------------------------------------
-- Nodes that ask for no helper
-----------------------------------------------------------------------------------------

/-- No date is moved while a task is pending. -/
theorem Suffix.nextDate?_pending (now : Date) (suffix : Suffix)
    : suffix.nextDate? now true = none := by
  rw [nextDate?]
  cases suffix.repetition <;> rfl

/-- Where no helper call repeats outside of arguments, only dates are asked for, by induction over
the syntax.
-/
theorem Node.exists_date {node : Node} (still : ∀ inner ∈ node.outer, inner.runsAgain = false)
    {now : Date} {pending : Bool} {change : Change} (member : change ∈ node.changes now pending)
    : ∃ token suffix next,
        Suffix.nextDate? now pending suffix = some next ∧ change = .date token next := by
  induction node using Node.outer.induct with
  | case1 value token suffix =>
      rw [changes, Option.mem_toList, Option.map_eq_some_iff] at member
      obtain ⟨next, moved, rfl⟩ := member
      exact ⟨token, suffix, next, moved, rfl⟩
  | case2 name args token suffix =>
      rw [changes_call (still _ List.mem_cons_self)] at member
      cases member
  | case3 left right ih ih' | case4 left right ih ih' =>
      obtain ⟨-, still⟩ := List.forall_mem_cons.mp still
      obtain ⟨still, still'⟩ := List.forall_mem_append.mp still
      rw [changes] at member
      exact (List.mem_append.mp member).elim (ih still) (ih' still')
  | case5 inner span ih => exact ih (List.forall_mem_cons.mp still).2 member

-----------------------------------------------------------------------------------------
-- Nodes that declare ids
-----------------------------------------------------------------------------------------

/-- Whether a node is a call of `id` with one argument. -/
def Node.declares : Node → Bool
  | .call name args _ _ => name == "id" && args.length == 1
  | _ => false

theorem Node.declares_eq_true {node : Node}
    : node.declares = true ↔ ∃ arg token suffix, node = .call "id" [arg] token suffix := by
  constructor
  · intro declares
    cases node with
    | call name args token suffix =>
        rw [Node.declares, Bool.and_eq_true, beq_iff_eq, beq_iff_eq] at declares
        obtain ⟨rfl, one⟩ := declares
        obtain ⟨arg, rfl⟩ := List.length_eq_one_iff.mp one
        exact ⟨arg, token, suffix, rfl⟩
    | _ => cases declares
  · rintro ⟨arg, token, suffix, rfl⟩
    rfl

theorem Node.declares_mapSpans (change : Span → Span) (node : Node)
    : (node.mapSpans change).declares = node.declares := by
  cases node with
  | call name args token suffix =>
      rw [Node.mapSpans, declares, declares, Trigger.length_mapSpansOfList]
  | _ => rfl

namespace Trigger

open Asking Reply

/-- The trigger with another name. -/
def withSource (t : Trigger) (name : String) : Trigger :=
  { t with source := name }

/-- A name declares ids exactly if one of its nodes does. -/
theorem declaredIds_isEmpty_eq (t : Trigger)
    : t.declaredIds.isEmpty = !t.root.nodes.any Node.declares := by
  have some : t.declaredIds.isEmpty = false ↔ t.root.nodes.any Node.declares = true := by
    rw [declaredIds_isEmpty_eq_false, List.any_eq_true]
    constructor
    · rintro ⟨arg, token, suffix, member⟩
      exact ⟨_, member, rfl⟩
    · rintro ⟨node, member, declares⟩
      obtain ⟨arg, token, suffix, rfl⟩ := Node.declares_eq_true.mp declares
      exact ⟨arg, token, suffix, member⟩
  rw [Bool.eq_iff_iff, Bool.not_eq_true', ← Bool.not_eq_true, ← some, Bool.not_eq_false]

-----------------------------------------------------------------------------------------
-- Trees that come again
-----------------------------------------------------------------------------------------

/-- A node comes again in another name: each date that would be moved stands there as the date that
it is moved to, and each call with its text.
-/
inductive Recurs (t : Trigger) (name : String) (now : Date) : Node → Node → Prop where
  | date {value value' : Date} {token token' : Span} {suffix suffix' : Suffix}
      (same : suffix'.plain = suffix.plain)
      (written
        : ∀ next,
            suffix.nextDate? now false = some next → slice name.toList token' = next.chars)
    : Recurs t name now (.date value token suffix) (.date value' token' suffix')
  | call {callee : String} {args : List Argument} {token token' : Span} {suffix suffix' : Suffix}
      (base base' : Nat) (same : suffix'.plain = suffix.plain)
      (quote
        : (t.withSource name).text ⟨token'.start, suffix'.span.stop⟩
          = t.text ⟨token.start, suffix.span.stop⟩)
      (moves : MovesTo base base' t (t.withSource name) (Argument.spansOfList args))
    : Recurs t name now (.call callee args token suffix)
        (.call callee (Argument.mapSpansOfList (Span.move base base') args) token' suffix')
  | both {left right left' right' : Node} (first : Recurs t name now left left')
      (second : Recurs t name now right right')
    : Recurs t name now (.both left right) (.both left' right')
  | either {left right left' right' : Node} (first : Recurs t name now left left')
      (second : Recurs t name now right right')
    : Recurs t name now (.either left right) (.either left' right')
  | group {inner inner' : Node} (span span' : Span) (inside : Recurs t name now inner inner')
    : Recurs t name now (.group inner span) (.group inner' span')

namespace Recurs

variable {σ : Type} {t t' : Trigger} {context : Context σ} {name : String} {now : Date}
  {node node' : Node}

/-- A node that comes again is evaluated as before, up to its date. -/
theorem evaluate (h : Recurs t name now node node') (source : t'.source = name)
    (position : Position)
    : Matches Eq (fun _ _ => True) (t.evaluateNode context node position)
        (t'.evaluateNode context node' position) := by
  subst source
  induction h generalizing position with
  | date same written =>
      rw [evaluateNode, evaluateNode]
      exact .pure trivial
  | call base base' same quote moves =>
      -- of another name, only its text matters
      have moves : MovesTo base base' t t' _ := moves
      rw [evaluateNode, evaluateNode]
      exact (evaluateCall_moved _ _ _ position _ quote moves).bind fun _ _ _ => .pure trivial
  | both first second ih ih' | either first second ih ih' =>
      rw [evaluateNode, evaluateNode]
      refine (ih position.ofOperands).bind fun _ _ _ => ?_
      exact (ih' position.ofOperands).bind fun _ _ _ => .pure trivial
  | group span span' inside ih =>
      rw [evaluateNode, evaluateNode]
      exact ih position

/-- A node that comes again declares an id if it did before. -/
theorem declares (h : Recurs t name now node node')
    : node'.nodes.any Node.declares = node.nodes.any Node.declares := by
  induction h with
  | date same written => rfl
  | @call callee args token token' suffix suffix' base base' same quote moves =>
      have each : Node.declares ∘ Node.mapSpans (Span.move base base') = Node.declares :=
        funext (Node.declares_mapSpans _)
      rw [Node.nodes, Node.nodes, List.any_cons, List.any_cons, Node.declares, Node.declares,
        length_mapSpansOfList, Argument.nodesOfList_mapSpansOfList, List.any_map, each]
  | both first second ih ih' | either first second ih ih' =>
      rw [Node.nodes, Node.nodes, List.any_cons, List.any_cons, List.any_append, List.any_append,
        ih, ih']
      rfl
  | group span span' inside ih =>
      rw [Node.nodes, Node.nodes, List.any_cons, List.any_cons, ih]
      rfl

/-- What is moved while a task is pending is moved otherwise. -/
theorem nextDate?_of_pending {suffix suffix' : Suffix} {pending : Bool} {next : Date}
    (same : suffix'.plain = suffix.plain) (moved : suffix'.nextDate? now pending = some next)
    : suffix.nextDate? now false = some next := by
  rw [Suffix.nextDate?, Suffix.repetition_eq_of_plain same] at moved
  rw [Suffix.nextDate?]
  cases repeats : suffix.repetition with
  | none =>
      rw [repeats] at moved
      exact moved
  | some repeated =>
      rw [repeats] at moved
      cases pending with
      | false => exact moved
      | true => cases moved

/-- Where no helper call repeats outside of arguments, nothing is asked for but dates, and these
stand there already.
-/
theorem changes (h : Recurs t name now node node')
    (still : ∀ inner ∈ node.outer, inner.runsAgain = false) (pending : Bool)
    : ∀ change ∈ node'.changes now pending,
        ∃ token value, change = .date token value ∧ slice name.toList token = value.chars := by
  induction h with
  | @date value value' token token' suffix suffix' same written =>
      intro change member
      rw [Node.changes, Option.mem_toList, Option.map_eq_some_iff] at member
      obtain ⟨next, moved, rfl⟩ := member
      exact ⟨token', next, rfl, written next (nextDate?_of_pending same moved)⟩
  | @call callee args token token' suffix suffix' base base' same quote moves =>
      have once : (callee == "bin" && suffix.repetition.isSome) = false :=
        still _ List.mem_cons_self
      rw [← Suffix.repetition_eq_of_plain same] at once
      have none : (Node.call callee (Argument.mapSpansOfList (Span.move base base') args) token'
          suffix').changes now pending = [] := Node.changes_call once now pending
      rw [none]
      exact List.forall_mem_nil _
  | both first second ih ih' | either first second ih ih' =>
      obtain ⟨-, still⟩ := List.forall_mem_cons.mp still
      obtain ⟨still, still'⟩ := List.forall_mem_append.mp still
      exact List.forall_mem_append.mpr ⟨ih still, ih' still'⟩
  | group span span' inside ih => exact ih (List.forall_mem_cons.mp still).2

end Recurs

-----------------------------------------------------------------------------------------
-- New texts in which nodes come again
-----------------------------------------------------------------------------------------

/-- Arguments have their texts at every other place where they are read. -/
theorem movesTo_of_readArguments {t t' : Trigger} {args : List Argument}
    {inside rest rest' : List Char} {base base' : Nat}
    (read
      : (readArguments ⟨base, inside ++ ')' :: rest⟩).result
        = .ok (args, ⟨base + byteLength inside + 1, rest⟩))
    (place : Cursor.IsIn t.source.toList ⟨base, inside ++ ')' :: rest⟩)
    (place' : Cursor.IsIn t'.source.toList ⟨base', inside ++ ')' :: rest'⟩)
    : MovesTo base base' t t' (Argument.spansOfList args) := by
  -- read on their own, the arguments have spans that are parts of their text
  have alone := readArguments_elsewhere read 0 []
  have parts := (reads_of_readArguments alone).spans_isPart (Cursor.isIn_start _)
  have back := readArguments_elsewhere alone base rest
  rw [read] at back
  obtain ⟨same, -⟩ := Prod.mk.inj (Except.ok.inj back)
  rw [same, Argument.spansOfList_move]
  refine List.forall_mem_map.mpr fun span member => ?_
  obtain ⟨part, before, after, cut, rfl⟩ := parts span member
  have text (follow : List Char)
      : inside ++ ')' :: follow = before ++ (part ++ (after ++ follow)) := by
    have cut : inside ++ [')'] = before ++ part ++ after := cut
    rw [← List.singleton_append, ← List.append_assoc, cut]
    simp only [List.append_assoc]
  rw [text] at place place'
  have here := place.slice_eq
  have there := place'.slice_eq
  simp only [Span.move, Nat.sub_zero, Nat.add_sub_cancel_left]
  rw [Trigger.text, Trigger.text, here, there]

/-- A piece of some kind is read from a text in front of every rest that may follow, with a given
node come again.
-/
def Carries (t : Trigger) (now : Date) (kind : Node → Piece) (node : Node) (text : List Char)
    (follow : List Char → Prop)
    : Prop :=
  ∀ rest, follow rest → ∀ (name : String) offset,
    Cursor.IsIn name.toList ⟨offset, text ++ rest⟩
    → ∃ node',
        Recurs t name now node node'
        ∧ Reads (kind node') ⟨offset, text ++ rest⟩ ⟨offset + byteLength text, rest⟩

namespace Carries

variable {t : Trigger} {now : Date} {follow around : List Char → Prop}
  {text text' blanks blanks' : List Char} {node left right : Node} {suffix : Suffix}

theorem single (h : Carries t now .unit node text follow)
    : Carries t now .every node text follow := by
  intro rest behind name offset place
  obtain ⟨found, again, read⟩ := h rest behind name offset place
  exact ⟨found, again, .single read⟩

theorem part (h : Carries t now .every node text follow)
    (stop : ∀ rest, follow rest → ∀ offset, NoOperator '&' ⟨offset, rest⟩)
    : Carries t now .either node text follow := by
  intro rest behind name offset place
  obtain ⟨found, again, read⟩ := h rest behind name offset place
  exact ⟨found, again, .part read (stop rest behind _)⟩

/-- Units are carried with an ampersand between them. -/
theorem both (all : ∀ c ∈ blanks, isSpaceOrTab c = true)
    (all' : ∀ c ∈ blanks', isSpaceOrTab c = true) (first : Carries t now .every left text around)
    (second : Carries t now .unit right text' follow)
    (between : ∀ rest, follow rest → around (blanks ++ '&' :: blanks' ++ (text' ++ rest)))
    : Carries t now .every (.both left right) (text ++ (blanks ++ '&' :: blanks' ++ text'))
        follow := by
  intro rest behind name offset place
  simp only [List.append_assoc text, List.append_assoc (blanks ++ '&' :: blanks')] at place ⊢
  obtain ⟨found, again, read⟩ := first _ (between rest behind) name offset place
  have later := (Passage.intro _ _).isIn ((Passage.intro _ _).isIn place)
  obtain ⟨found', again', read'⟩ := second rest behind name _ later
  refine ⟨_, .both again again', (read.both_append all all' read').cast rfl ?_⟩
  simp only [byteLength_append, Nat.add_assoc]

/-- Parts are carried with a plus sign between them. -/
theorem either (all : ∀ c ∈ blanks, isSpaceOrTab c = true)
    (all' : ∀ c ∈ blanks', isSpaceOrTab c = true) (first : Carries t now .either left text around)
    (second : Carries t now .every right text' follow)
    (between : ∀ rest, follow rest → around (blanks ++ '+' :: blanks' ++ (text' ++ rest)))
    (stop : ∀ rest, follow rest → ∀ offset, NoOperator '&' ⟨offset, rest⟩)
    : Carries t now .either (.either left right) (text ++ (blanks ++ '+' :: blanks' ++ text'))
        follow := by
  intro rest behind name offset place
  simp only [List.append_assoc text, List.append_assoc (blanks ++ '+' :: blanks')] at place ⊢
  obtain ⟨found, again, read⟩ := first _ (between rest behind) name offset place
  have later := (Passage.intro _ _).isIn ((Passage.intro _ _).isIn place)
  obtain ⟨found', again', read'⟩ := second rest behind name _ later
  refine ⟨_, .either again again',
    (read.either_append all all' read' (stop rest behind _)).cast rfl ?_⟩
  simp only [byteLength_append, Nat.add_assoc]

/-- A group is carried with what it holds. -/
theorem group (all : ∀ c ∈ blanks, isSpaceOrTab c = true)
    (all' : ∀ c ∈ blanks', isSpaceOrTab c = true) (inside : Carries t now .either node text around)
    (closes : ∀ rest, follow rest → around (blanks' ++ ')' :: rest)) (span : Span)
    : Carries t now .unit (.group node span) ('(' :: (blanks ++ (text ++ (blanks' ++ [')']))))
        follow := by
  intro rest behind name offset place
  have whole : '(' :: (blanks ++ (text ++ (blanks' ++ [')']))) ++ rest
      = '(' :: blanks ++ (text ++ (blanks' ++ ')' :: rest)) := by simp
  rw [whole] at place ⊢
  have later := (Passage.intro _ _).isIn place
  rw [byteLength_cons, ← Nat.add_assoc] at later
  obtain ⟨found, again, read⟩ := inside _ (closes rest behind) name _ later
  refine ⟨_, .group span _ again, (read.group_append all all').cast (by simp) ?_⟩
  simp only [byteLength_append, byteLength_cons, Nat.add_assoc]
  rfl

/-- A date is carried that stands in the text as it would be moved. -/
theorem date {token marks : List Char} {value value' : Date}
    (dated
      : ∀ rest, follow rest → ∀ offset,
          result? (Date.read? ⟨offset, token ++ (marks ++ rest)⟩)
            = some (value', ⟨offset + byteLength token, marks ++ rest⟩))
    (annotated : SpellsSuffix suffix marks follow)
    (written : ∀ next, suffix.nextDate? now false = some next → token = next.chars) (span : Span)
    : Carries t now .unit (.date value span suffix) (token ++ marks) follow := by
  intro rest behind name offset place
  rw [List.append_assoc] at place ⊢
  obtain ⟨suffix', same, again⟩ := annotated rest behind (offset + byteLength token)
  have here : slice name.toList (Cursor.spanTo ⟨offset, token ++ (marks ++ rest)⟩
      ⟨offset + byteLength token, marks ++ rest⟩) = token :=
    (Passage.intro offset (marks ++ rest)).slice_eq place
  have read := Reads.date (dated rest behind offset) again
  rw [Nat.add_assoc, ← byteLength_append] at read
  exact ⟨_, .date same fun next moved => here.trans (written next moved), read⟩

/-- A call is carried with its text. -/
theorem call {letters inside marks : List Char} {args : List Argument} {c start e d : Cursor}
    (parts : CallText letters blanks inside marks c start e d) (place : c.IsIn t.source.toList)
    (arguments : (readArguments start).result = .ok (args, e))
    (annotated : (readSuffix e).result = .ok (suffix, d))
    : Carries t now .unit (.call (String.ofList letters) args (c.spanTo e) suffix)
        (letters ++ '(' :: (blanks ++ (inside ++ [')'] ++ marks))) (Exchange d.rest) := by
  have whole (more : List Char)
      : letters ++ '(' :: (blanks ++ (inside ++ [')'] ++ marks)) ++ more
        = letters ++ '(' :: blanks ++ (inside ++ ')' :: (marks ++ more)) := by simp
  have copied := (parts.token.append parts.behind).slice_eq place
  have span := (within_of_readSuffix annotated).2
  obtain ⟨⟨starts, names, all, stop, opening⟩, within, behind⟩ := parts
  have inner := opening.isIn place
  intro rest follows name offset here
  obtain ⟨_, after⟩ := behind
  obtain ⟨base, _⟩ := within
  rw [List.append_assoc] at inner
  rw [List.append_assoc, byteLength_append, ← Nat.add_assoc] at arguments
  let base' := offset + byteLength letters + 1 + byteLength blanks
  have again := readArguments_elsewhere arguments base' (marks ++ rest)
  obtain ⟨suffix', same, annotated'⟩ :=
    Stands.spellsSuffix annotated rest follows (base' + byteLength inside + 1)
  have stop' : stops isSpaceOrTab (inside ++ ')' :: (marks ++ rest)) = true := by
    cases inside <;> exact stop
  have read := Reads.call_append starts names all stop' (reads_of_readArguments again) annotated'
  have stop_eq : base' + byteLength inside + 1 + byteLength marks
      = offset + byteLength (letters ++ '(' :: (blanks ++ (inside ++ [')'] ++ marks))) := by
    simp only [base', byteLength_append, byteLength_cons, byteLength_nil, Nat.zero_add,
      Nat.add_assoc]
    rfl
  have copied' := (Passage.intro offset rest).slice_eq here
  rw [whole] at here
  have inner' : Cursor.IsIn name.toList ⟨base', inside ++ ')' :: (marks ++ rest)⟩ := by
    have later := (Passage.intro _ _).isIn here
    rwa [byteLength_append, byteLength_cons, ← Nat.add_assoc, ← Nat.add_assoc] at later
  have moves : MovesTo base base' t (t.withSource name) (Argument.spansOfList args) :=
    movesTo_of_readArguments arguments inner inner'
  refine ⟨_, .call base base' same ?_ moves, read.cast (by simp) stop_eq⟩
  have quote : slice name.toList (Cursor.spanTo ⟨offset, _⟩ ⟨_, rest⟩)
      = slice t.source.toList (c.spanTo _) :=
    copied'.trans (Eq.trans (by simp) copied.symm)
  rw [(within_of_readSuffix annotated').2, span]
  exact congrArg String.ofList (stop_eq ▸ quote)

end Carries

section

variable {σ : Type} {t : Trigger} {context : Context σ} {evaluation : Evaluation} {c m e d : Cursor}
  {new : List Char} {state : σ}

/-- A date is written as it would be written again. -/
theorem carries_date {value : Date} {suffix : Suffix} (place : c.IsIn t.source.toList)
    (moving : pending context.now evaluation = false)
    (dated : result? (Date.read? c) = some (value, m))
    (annotated : (readSuffix m).result = .ok (suffix, d))
    (writable
      : ∀ change ∈ (Node.date value (c.spanTo m) suffix).changes context.now
          (pending context.now evaluation), change.IsWritable)
    (done
      : (t.doneNode context evaluation (.date value (c.spanTo m) suffix)).outcome state
        = (.ok new, state))
    : Carries t context.now .unit (.date value (c.spanTo m) suffix) new (Exchange d.rest) := by
  obtain ⟨token, before, -⟩ := Date.within_of_read? dated
  obtain ⟨⟨marks, behind, -⟩, span⟩ := within_of_readSuffix annotated
  rw [doneNode, doneDate_eq place before behind span, moving] at done
  obtain ⟨offset, rest⟩ := behind
  obtain ⟨offset, _⟩ := before
  rw [Node.changes, moving] at writable
  cases done
  cases next : suffix.nextDate? context.now false with
  | none =>
      refine .date (fun rest' behind => behind.readDate? dated) (Stands.spellsSuffix annotated)
        (fun next' moved => ?_) _
      rw [next] at moved
      cases moved
  | some value =>
      rw [next] at writable
      have year := writable (.date _ value) (List.mem_singleton.mpr rfl)
      refine .date (fun rest' _ offset' => Date.result?_read?_chars offset' year _)
        (Stands.spellsSuffix annotated) (fun next' moved => ?_) _
      rw [next] at moved
      cases moved
      rfl

/-- A call is copied. -/
theorem carries_call {opened : Cursor} {name : List Char} {args : List Argument} {suffix : Suffix}
    (place : c.IsIn t.source.toList) (starts : c.rest.head?.any isNameStart = true)
    (named : result? (c.run? isNamePart) = some (name, m))
    (opens : result? (m.char? '(') = some ((), opened))
    (arguments : Reads (.args args) opened.skipBlanks e)
    (annotated : (readSuffix e).result = .ok (suffix, d))
    (writable
      : ∀ change ∈ (Node.call (String.ofList name) args (c.spanTo e) suffix).changes context.now
          (pending context.now evaluation), change.IsWritable)
    (done
      : (t.doneNode context evaluation
          (.call (String.ofList name) args (c.spanTo e) suffix)).outcome state
        = (.ok new, state))
    : Carries t context.now .unit (.call (String.ofList name) args (c.spanTo e) suffix) new
        (Exchange d.rest) := by
  obtain ⟨blanks, inside, marks, parts⟩ := exists_callText starts named opens arguments annotated
  rw [doneNode_call_eq place parts.token parts.behind (within_of_readSuffix annotated).2
    (changes_call_eq_nil writable)] at done
  cases done
  have text : name ++ '(' :: blanks ++ (inside ++ [')']) ++ marks
      = name ++ '(' :: (blanks ++ (inside ++ [')'] ++ marks)) := by simp
  rw [text]
  exact .call parts place arguments.run.1 annotated

/-- The new text of a piece carries its node, by induction on the derivation of the old text. -/
theorem Reads.carries {piece : Piece} (h : Reads piece c d) (place : c.IsIn t.source.toList)
    (moving : pending context.now evaluation = false) {node : Node}
    (found : piece.node? = some node)
    (writable
      : ∀ change ∈ node.changes context.now (pending context.now evaluation), change.IsWritable)
    (done : (t.doneNode context evaluation node).outcome state = (.ok new, state))
    : Carries t context.now piece.withNode node new (Exchange d.rest) := by
  induction h generalizing node new with
  | date dated annotated =>
      cases found
      exact carries_date place moving dated annotated writable done
  | call starts named opens arguments annotated ih =>
      cases found
      exact carries_call place starts named opens arguments annotated writable done
  | @group c opened e d inner opens inside closes ih =>
      cases found
      obtain ⟨blanks, skipped, all⟩ := opened.within_skipBlanks
      obtain ⟨blanks', closing, all'⟩ := Cursor.passage_of_charAfterBlanks? closes
      have opening := (Cursor.passage_of_char? opens).append skipped
      have within := opening.isIn place
      obtain ⟨before, behind⟩ := inside.copy_around rfl opening closing place
      obtain ⟨old, text, -, written, -⟩ := inside.redone within rfl writable
      have carries := ih within rfl writable (written state)
      rw [doneNode, Cursor.spanTo, before, behind] at done
      simp only [outcome_bind, written, outcome_pure] at done
      cases done
      rw [closing.rest_eq, List.append_assoc] at carries
      have whole : ['('] ++ blanks ++ text ++ (blanks' ++ [')'])
          = '(' :: (blanks ++ (text ++ (blanks' ++ [')']))) := by simp
      rw [whole]
      exact carries.group all all' (fun _ _ => .of_gap all' rfl rfl fun _ _ _ =>
        read?_gap_eq_none all' rfl (by decide) _ _) _
  | single unit ih => exact (ih place found writable done).single
  | part every stop ih =>
      exact (ih place found writable done).part fun _ behind _ => behind.joins _ _ stop
  | both first sign second ih ih' =>
      cases found
      obtain ⟨writable, writable'⟩ := List.forall_mem_append.mp writable
      obtain ⟨blanks, blanks', gap, all, all', -⟩ := passage_of_operator? sign
      have later := gap.isIn (first.isIn place)
      obtain ⟨old, text, -, written, -⟩ := first.redone place rfl writable
      obtain ⟨old', text', behind, written', stands⟩ := second.redone later rfl writable'
      have carries := ih place rfl writable (written state)
      have carries' := ih' later rfl writable' (written' state)
      rw [doneNode, first.copy_between rfl second rfl gap (first.isIn place)] at done
      simp only [outcome_bind, written, written', outcome_pure] at done
      cases done
      rw [gap.rest_eq, behind.rest_eq] at carries
      rw [List.append_assoc]
      exact carries.both all all' carries' fun _ => stands.exchange all all' id (.inl rfl)
  | either first sign second stop ih ih' =>
      cases found
      obtain ⟨writable, writable'⟩ := List.forall_mem_append.mp writable
      obtain ⟨blanks, blanks', gap, all, all', -⟩ := passage_of_operator? sign
      have later := gap.isIn (first.isIn place)
      obtain ⟨old, text, -, written, -⟩ := first.redone place rfl writable
      obtain ⟨old', text', behind, written', stands⟩ := second.redone later rfl writable'
      have carries := ih place rfl writable (written state)
      have carries' := ih' later rfl writable' (written' state)
      rw [doneNode, first.copy_between rfl second rfl gap (first.isIn place)] at done
      simp only [outcome_bind, written, written', outcome_pure] at done
      cases done
      rw [gap.rest_eq, behind.rest_eq] at carries
      rw [List.append_assoc]
      exact carries.either all all' carries' (fun _ => stands.exchange all all' id (.inr rfl))
        fun _ behind _ => behind.joins _ _ stop
  | word | trigger | noArgs | lastArg | moreArgs => cases found

end

end Trigger

end DueTasks
