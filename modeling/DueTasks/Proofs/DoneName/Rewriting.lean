import DueTasks.Proofs.DoneName.Edits
import DueTasks.Proofs.Evaluation.Noting
import DueTasks.Proofs.Evaluation.References
import DueTasks.Proofs.Trigger.CallReading
import DueTasks.Proofs.Trigger.Parsing

/-! What a done name changes.
The text of a trigger is written anew piece by piece, each from its own passage of the name. The
passages between the pieces are copied, so that nothing else changes.
-/

namespace DueTasks

open Text Parsed

namespace Trigger

open Asking Reply

variable {σ : Type} (t : Trigger) (context : Context σ) (evaluation : Evaluation)

-----------------------------------------------------------------------------------------
-- The text of a node is edited
-----------------------------------------------------------------------------------------

/-- The texts of two actions in sequence. -/
def joined (first second : Asking σ TaskError (List Char)) : Asking σ TaskError (List Char) := do
  let text ← first
  let more ← second
  return text ++ more

/-- An action writes a stretch of the name anew as changes ask for, or fails as they do. -/
def Rewrites (offset : Nat) (old : List Char) (changes : List Change)
    (action : Asking σ TaskError (List Char))
    : Prop :=
  ∀ state,
    (∃ edits new after,
      Makes context evaluation changes state edits after
      ∧ action.outcome state = (.ok new, after)
      ∧ Edited offset old edits new)
    ∨ ∃ error after,
        t.Fails context evaluation changes state error after
        ∧ action.outcome state = (.error error, after)

namespace Rewrites

variable {t context evaluation} {offset : Nat} {old old' : List Char}
  {changes changes' : List Change} {first second : Asking σ TaskError (List Char)}

theorem keep (offset : Nat) (old : List Char)
    : t.Rewrites context evaluation offset old [] (pure old) :=
  fun state => .inl ⟨[], old, state, .none state, rfl, .kept offset old⟩

/-- Stretches one behind the other are written anew one after the other. -/
theorem append (h : t.Rewrites context evaluation offset old changes first)
    (h' : t.Rewrites context evaluation (offset + byteLength old) old' changes' second)
    : t.Rewrites context evaluation offset (old ++ old') (changes ++ changes')
        (joined first second) := by
  intro state
  rcases h state with ⟨edits, new, middle, made, answered, edited⟩
    | ⟨error, after, failed, answered⟩
  · rcases h' middle with
      ⟨edits', new', after, made', answered', edited'⟩ | ⟨error, after, failed, answered'⟩
    · refine .inl ⟨_, new ++ new', after, made.append made', ?_, edited.append edited'⟩
      simp only [joined, outcome_bind, answered, answered', outcome_pure]
    · refine .inr ⟨error, after, .behind made failed, ?_⟩
      simp only [joined, outcome_bind, answered, answered']
  · refine .inr ⟨error, after, failed.append changes', ?_⟩
    simp only [joined, outcome_bind, answered]

theorem behind {gap : List Char}
    (h : t.Rewrites context evaluation (offset + byteLength gap) old changes first)
    : t.Rewrites context evaluation offset (gap ++ old) changes (joined (pure gap) first) :=
  (keep offset gap).append h

theorem before {gap : List Char} (h : t.Rewrites context evaluation offset old changes first)
    : t.Rewrites context evaluation offset (old ++ gap) changes (joined first (pure gap)) := by
  simpa only [List.append_nil] using h.append (keep _ gap)

end Rewrites

-----------------------------------------------------------------------------------------
-- Dates and calls
-----------------------------------------------------------------------------------------

/-- Whether the task is pending: it uses operators and is not due yet. -/
def pending (now : Date) (evaluation : Evaluation) : Bool :=
  evaluation.notes.usesOperators && decide (now < evaluation.date)

/-- A repeating date moves unless the task is pending or the repeat is forced without a period. -/
theorem moves_eq (now : Date) (repetition : Repeat)
    : moves evaluation now repetition
      = !(pending now evaluation || (repetition.forced && repetition.period.isZero)) :=
  (Bool.not_or _ _).symm

variable {t context evaluation}

/-- A task with an evaluation is pending if operators stand outside of arguments and its date is yet
to come.
-/
theorem pending_of_evaluated {before : σ}
    (evaluated : ((t.evaluate context).outcome before).1 = .ok evaluation) (now : Date)
    : pending now evaluation = (t.root.joins && decide (now < evaluation.date)) := by
  rw [pending, (evaluate_notes before evaluation evaluated).usesOperators]
  rfl

/-- The text of a date is that of its next date, if there is one, and its own otherwise. -/
theorem doneDate_eq {c m d : Cursor} {token marks : List Char} {suffix : Suffix}
    (place : c.IsIn t.source.toList) (before : Passage token c m) (behind : Passage marks m d)
    (span : suffix.span = m.spanTo d)
    : t.doneDate context evaluation (c.spanTo m) suffix
      = ((suffix.nextDate? context.now (pending context.now evaluation)).map Date.chars).getD token
        ++ marks := by
  have whole : t.copy ⟨(c.spanTo m).start, suffix.span.stop⟩ = token ++ marks := by
    rw [span]
    exact (before.append behind).slice_eq place
  have rest : t.copy ⟨(c.spanTo m).stop, suffix.span.stop⟩ = marks := by
    rw [span]
    exact behind.slice_eq (before.isIn place)
  rw [doneDate, Suffix.nextDate?]
  cases suffix.repetition with
  | none => exact whole
  | some repetition =>
      simp only [moves_eq, whole, rest]
      cases pending context.now evaluation || (repetition.forced && repetition.period.isZero)
        <;> rfl

/-- A date is written anew as its repeat asks for. -/
theorem doneDate_rewrites {c m d : Cursor} {token marks : List Char} (value : Date)
    {suffix : Suffix} (place : c.IsIn t.source.toList) (before : Passage token c m)
    (behind : Passage marks m d) (span : suffix.span = m.spanTo d)
    : t.Rewrites context evaluation c.offset (token ++ marks)
        ((Node.date value (c.spanTo m) suffix).changes context.now
          (pending context.now evaluation))
        (pure (t.doneDate context evaluation (c.spanTo m) suffix)) := by
  rw [doneDate_eq place before behind span, Node.changes]
  cases suffix.nextDate? context.now (pending context.now evaluation) with
  | none => exact .keep _ _
  | some next =>
      intro state
      refine .inl ⟨_, _, state, .date _ _ (.none state), rfl, ?_⟩
      exact .front _ (by rw [Cursor.spanTo, before.offset_eq])

/-- A call without a change is copied. -/
theorem doneNode_call_eq {c m d : Cursor} {token marks : List Char} {name : String}
    {args : List Argument} {suffix : Suffix} {now : Date} {pending : Bool}
    (place : c.IsIn t.source.toList) (before : Passage token c m) (behind : Passage marks m d)
    (span : suffix.span = m.spanTo d)
    (still : (Node.call name args (c.spanTo m) suffix).changes now pending = [])
    : t.doneNode context evaluation (.call name args (c.spanTo m) suffix)
      = pure (token ++ marks) := by
  have whole : t.copy ⟨(c.spanTo m).start, suffix.span.stop⟩ = token ++ marks := by
    rw [span]
    exact (before.append behind).slice_eq place
  rw [doneNode]
  by_cases helper : name = "bin"
  · rw [if_pos (Callee.ofName_eq_helper.mpr helper), doneCall]
    rw [Node.changes] at still
    cases once : suffix.repetition with
    | none => simp only [whole]
    | some repetition =>
        rw [once] at still
        simp only [if_pos helper] at still
        cases still
  · rw [if_neg fun h => helper (Callee.ofName_eq_helper.mp h), whole]

/-- A call is written anew as its repeat asks for, if the arguments of helper calls are known. -/
theorem doneCall_rewrites {c m d : Cursor} {token marks : List Char} (name : String)
    (args : List Argument) {suffix : Suffix} (place : c.IsIn t.source.toList)
    (before : Passage token c m) (behind : Passage marks m d) (span : suffix.span = m.spanTo d)
    (known : ∀ start ∈ (Node.call name args (c.spanTo m) suffix).helperStarts,
      (evaluation.notes.calls.lookup start).isSome = true)
    : t.Rewrites context evaluation c.offset (token ++ marks)
        ((Node.call name args (c.spanTo m) suffix).changes context.now
          (pending context.now evaluation))
        (t.doneNode context evaluation (.call name args (c.spanTo m) suffix)) := by
  by_cases still : (Node.call name args (c.spanTo m) suffix).changes context.now
      (pending context.now evaluation) = []
  · rw [still, doneNode_call_eq place before behind span still]
    exact .keep _ _
  have rest : t.copy ⟨(c.spanTo m).stop, suffix.span.stop⟩ = marks := by
    rw [span]
    exact behind.slice_eq (before.isIn place)
  rw [Node.changes] at still ⊢
  cases repeats : suffix.repetition with
  | none =>
      rw [repeats] at still
      exact absurd rfl still
  | some repetition =>
      rw [repeats] at still
      simp only at still ⊢
      have helper : name = "bin" := Decidable.byContradiction fun other => still (if_neg other)
      have callee := Callee.ofName_eq_helper.mpr helper
      obtain ⟨recorded, found⟩ := Option.isSome_iff_exists.mp (known c.offset (by
        rw [Node.helperStarts, if_pos callee]
        exact List.mem_singleton.mpr rfl))
      have found : evaluation.notes.calls.lookup (c.spanTo m).start = some recorded := found
      rw [if_pos helper, doneNode, if_pos callee, doneCall]
      simp only [repeats, found, rest]
      intro state
      rcases ran : (context.runHelper
        (HelperArg.expandAll recorded (some repetition.period))).outcome state with ⟨answer, after⟩
      cases answer with
      | ok line =>
          refine .inl
            ⟨_, line.toList ++ marks, after, .helper _ _ _ found ran (.none after), ?_, ?_⟩
          · simp only [outcome_bind, outcome_mapError, ran]
            rfl
          · exact .front _ (by rw [Cursor.spanTo, before.offset_eq])
      | error error =>
          refine .inr ⟨_, after, .intro [] (.none state) found ran, ?_⟩
          simp only [outcome_bind, outcome_mapError, ran]
          rfl

-----------------------------------------------------------------------------------------
-- Every node is rewritten by its changes
-----------------------------------------------------------------------------------------

/-- The node of a piece that is one. -/
def Piece.node? : Piece → Option Node
  | .unit node | .every node | .either node => some node
  | .arg _ | .args _ => none

theorem joined_between (first second : Asking σ TaskError (List Char)) (gap : List Char)
    : (do
        let text ← first
        let more ← second
        return text ++ gap ++ more)
      = joined first (joined (pure gap) second) := by
  simp only [joined, bind_assoc, pure_bind, List.append_assoc]

theorem joined_around (inner : Asking σ TaskError (List Char)) (opening closing : List Char)
    : (do
        let text ← inner
        return opening ++ text ++ closing)
      = joined (pure opening) (joined inner (pure closing)) := by
  simp only [joined, bind_assoc, pure_bind, List.append_assoc]

/-- A trigger is written anew as its repeats ask for, by induction on the derivation of its text. -/
theorem Reads.rewrites {piece : Piece} {c d : Cursor} (h : Reads piece c d)
    (place : c.IsIn t.source.toList) {node : Node} (found : piece.node? = some node)
    (known : ∀ start ∈ node.helperStarts, (evaluation.notes.calls.lookup start).isSome = true)
    : ∃ read, Passage read c d
        ∧ t.Rewrites context evaluation c.offset read
            (node.changes context.now (pending context.now evaluation))
            (t.doneNode context evaluation node) := by
  induction h generalizing node with
  | date dated annotated =>
      cases found
      obtain ⟨token, before, -⟩ := Date.within_of_read? dated
      obtain ⟨⟨marks, behind, -⟩, span⟩ := within_of_readSuffix annotated
      refine ⟨token ++ marks, before.append behind, ?_⟩
      rw [doneNode]
      exact doneDate_rewrites _ place before behind span
  | @call c m opened e d name args suffix starts named opens arguments annotated ih =>
      cases found
      obtain ⟨letters, naming, -⟩ := Cursor.within_of_run? named
      obtain ⟨blanks, skipped, -⟩ := opened.within_skipBlanks
      obtain ⟨inside, within, -⟩ := arguments.passage
      have before := naming.append ((Cursor.passage_of_char? opens).append (skipped.append within))
      obtain ⟨⟨marks, behind, -⟩, span⟩ := within_of_readSuffix annotated
      exact ⟨_, before.append behind, doneCall_rewrites _ args place before behind span known⟩
  | @group c opened e d inner opens inside closes ih =>
      cases found
      obtain ⟨blanks, skipped, -⟩ := opened.within_skipBlanks
      have opening := (Cursor.passage_of_char? opens).append skipped
      obtain ⟨read, within, rewrites⟩ := ih (opening.isIn place) rfl known
      obtain ⟨blanks', closing, -⟩ := Cursor.passage_of_charAfterBlanks? closes
      obtain ⟨before, behind⟩ := inside.copy_around rfl opening closing place
      refine ⟨_, opening.append (within.append closing), ?_⟩
      rw [doneNode, joined_around, Node.changes, Cursor.spanTo, before, behind]
      refine Rewrites.behind ?_
      rw [← opening.offset_eq]
      exact rewrites.before
  | single unit ih => exact ih place found known
  | part every stop ih => exact ih place found known
  | @both c m e d left right first sign second ih ih'
  | @either c m e d left right first sign second stop ih ih' =>
      cases found
      obtain ⟨known, known'⟩ := List.forall_mem_append.mp known
      obtain ⟨read, before, rewrites⟩ := ih place rfl known
      obtain ⟨gap, joining⟩ : ∃ gap, Passage gap m e := by
        obtain ⟨blanks, blanks', joining, -⟩ := passage_of_operator? sign
        exact ⟨_, joining⟩
      have middle := before.isIn place
      obtain ⟨read', behind, rewrites'⟩ := ih' (joining.isIn middle) rfl known'
      -- what stands between the operands is copied, whatever the operator
      have between := first.copy_between rfl second rfl joining middle
      refine ⟨_, before.append (joining.append behind), ?_⟩
      rw [doneNode, joined_between, Node.changes, between]
      refine rewrites.append (Rewrites.behind ?_)
      rw [← before.offset_eq, ← joining.offset_eq]
      exact rewrites'
  | word | trigger | noArgs | lastArg | moreArgs => cases found

/-- A trigger with its name is written anew as its repeats ask for. -/
theorem ReadFrom.rewrites {text : String} {d : Cursor} (h : t.ReadFrom text d)
    (context : Context σ)
    (known : ∀ start ∈ t.root.helperStarts, (evaluation.notes.calls.lookup start).isSome = true)
    : t.Rewrites context evaluation 0 text.toList
        (t.root.changes context.now (pending context.now evaluation))
        (joined (t.doneNode context evaluation t.root) (pure (t.copy t.ending))) := by
  have place : (Cursor.start text.toList).IsIn t.source.toList := by
    rw [h.source]
    exact Cursor.isIn_start _
  obtain ⟨read, passage, rewrites⟩ := h.reads.rewrites place rfl known
  have whole : text.toList = read ++ d.rest := passage.rest_eq
  rw [h.copy_ending, whole]
  exact rewrites.before

/-- The name of a task that may repeat is written anew with its ending. -/
theorem doneName_eq_joined (context : Context σ) {t : Trigger} {evaluation : Evaluation}
    (repeats : t.hasRepeat = true) (canRepeat : evaluation.canRepeat = true)
    : t.doneName context evaluation
      = String.ofList
        <$> joined (t.doneNode context evaluation t.root) (pure (t.copy t.ending)) := by
  simp only [doneName, repeats, canRepeat, Bool.not_true, Bool.false_eq_true, if_false, joined,
    map_eq_pure_bind, bind_assoc, pure_bind]

/-- The done name of a task whose evaluation succeeded is its name with exactly the changes made
that the repeats ask for, each in its place and with all else kept. It cannot repeat if anything
repeats and an id is declared; then nothing is run. Otherwise it fails only with the first helper
that fails among the changes, and nothing is run after that one.
-/
theorem doneName_edited (context : Context σ) {text : String} {t : Trigger}
    {evaluation : Evaluation} {before after : σ} (parsed : parse text = .ok t)
    (evaluated : (t.evaluate context).outcome before = (.ok evaluation, after)) (state : σ)
    : if t.hasRepeat = true ∧ t.declaredIds ≠ [] then
        (t.doneName context evaluation).outcome state
          = (.error (.semantic text .cannotRepeat), state)
      else
        let changes :=
          t.root.changes context.now (t.root.joins && decide (context.now < evaluation.date))
        (∃ edits name later,
          Makes context evaluation changes state edits later
          ∧ (t.doneName context evaluation).outcome state = (.ok name, later)
          ∧ Edited 0 text.toList edits name.toList)
        ∨ ∃ quote error later,
            t.Fails context evaluation changes state (.helper quote error) later
            ∧ (t.doneName context evaluation).outcome state
              = (.error (.helper quote error), later) := by
  obtain ⟨d, h⟩ := parse_eq_ok.mp parsed
  have answered : ((t.evaluate context).outcome before).1 = .ok evaluation := by rw [evaluated]
  have canRepeat := evaluate_canRepeat before evaluation answered
  have rewrites := h.rewrites context (evaluate_knows parsed before evaluation answered) state
  rw [pending_of_evaluated answered] at rewrites
  by_cases repeats : t.hasRepeat = true
  · by_cases declared : t.declaredIds = []
    · rw [if_neg (fun both => both.2 declared)]
      rw [doneName_eq_joined context repeats (by simp [canRepeat, declared]), outcome_map]
      rcases rewrites with ⟨edits, new, later, made, answered, edited⟩
        | ⟨error, later, failed, answered⟩
      · refine .inl ⟨edits, String.ofList new, later, made, ?_, ?_⟩
        · rw [answered]
          rfl
        · rwa [String.toList_ofList]
      · obtain ⟨quote, failure, rfl⟩ := failed.exists_helper
        refine .inr ⟨quote, failure, later, failed, ?_⟩
        rw [answered]
        rfl
    · rw [if_pos ⟨repeats, declared⟩, doneName]
      have stays : (!evaluation.canRepeat) = true := by
        rw [canRepeat]
        simpa using declared
      rw [if_neg (by simp [repeats]), if_pos stays, h.source]
      rfl
  · rw [if_neg (fun both => repeats both.1)]
    have once := Bool.eq_false_iff.mpr repeats
    refine .inl ⟨[], text, state, ?_, ?_, .kept _ _⟩
    · rw [Node.changes_eq_nil _ _ _ once]
      exact .none state
    · rw [doneName, once, h.source]
      rfl

-----------------------------------------------------------------------------------------
-- A call that repeats
-----------------------------------------------------------------------------------------

/-- A context in which every helper prints the same line, and the words of every run are kept. -/
def recording (now : Date) (line : String) : Context (List (List String)) where
  now := now
  resolve _ := pure now
  findHelper program := pure ⟨program⟩
  runHelper words := do
    modify (· ++ [words])
    return line
  callBuiltin _ _ := pure now
  ownLines := pure []
  ownTarget := pure ⟨""⟩
  ownPath := pure ⟨""⟩

/-- A helper call and a date that both repeat. -/
def repeatingCall : Trigger where
  source := "bin('x')P & 2020P - t"
  root := .both
    (.call "bin" [.quoted "x" ⟨4, 7⟩] ⟨0, 8⟩ ⟨none, none, none, some ⟨false, .zero⟩, ⟨8, 9⟩⟩)
    (.date (.ofParts 2020 1 1) ⟨12, 16⟩ ⟨none, none, none, some ⟨false, .zero⟩, ⟨16, 17⟩⟩)
  ending := ⟨17, 21⟩

/-- The helper call and the date are read from their name. -/
theorem repeatingCall_readFrom
    : repeatingCall.ReadFrom "bin('x')P & 2020P - t" ⟨17, " - t".toList⟩ where
  reads := by
    have call : Reads (.unit (.call "bin" [.quoted "x" ⟨4, 7⟩] ⟨0, 8⟩
          ⟨none, none, none, some ⟨false, .zero⟩, ⟨8, 9⟩⟩))
        ⟨0, "bin('x')P & 2020P - t".toList⟩ ⟨9, " & 2020P - t".toList⟩ :=
      .call_quoted "bin" "x" 0 (by decide) rfl
    have sign : result? (operator? '&' ⟨9, " & 2020P - t".toList⟩)
        = some ((), ⟨12, "2020P - t".toList⟩) := rfl
    have date : result? (Date.read? ⟨12, "2020P - t".toList⟩)
        = some (.ofParts 2020 1 1, ⟨16, "P - t".toList⟩) := rfl
    have repeats : (readSuffix ⟨16, "P - t".toList⟩).result
        = .ok (⟨none, none, none, some ⟨false, .zero⟩, ⟨16, 17⟩⟩, ⟨17, " - t".toList⟩) := rfl
    exact .part (.both (.single call) sign (.date date repeats)) rfl
  stop := rfl
  source := rfl
  ending := rfl

/-- The helper runs again and its call becomes the new line; the date stays, as the task is pending
until the date that the helper printed before.
-/
theorem doneName_edited_of_repeatingCall
    : let context := recording (.ofParts 2021 5 6) "2022-01-01"
      ∃ evaluation edits,
        parse "bin('x')P & 2020P - t" = .ok repeatingCall
        ∧ (repeatingCall.evaluate context).outcome [] = (.ok evaluation, [["x"]])
        ∧ (repeatingCall.doneName context evaluation).outcome [["x"]]
          = (.ok "2022-01-01P & 2020P - t", [["x"], ["x"]])
        ∧ Edited 0 "bin('x')P & 2020P - t".toList edits "2022-01-01P & 2020P - t".toList := by
  intro context
  have parsed : parse "bin('x')P & 2020P - t" = .ok repeatingCall :=
    parse_eq_ok.mpr ⟨_, repeatingCall_readFrom⟩
  obtain ⟨evaluation, evaluated, named⟩ : ∃ evaluation,
      (repeatingCall.evaluate context).outcome [] = (.ok evaluation, [["x"]])
      ∧ (repeatingCall.doneName context evaluation).outcome [["x"]]
        = (.ok "2022-01-01P & 2020P - t", [["x"], ["x"]]) :=
    ⟨_, rfl, rfl⟩
  have done := doneName_edited context parsed evaluated [["x"]]
  rw [if_neg (by decide)] at done
  rcases done with ⟨edits, name, later, -, answered, edited⟩ | ⟨quote, error, later, -, answered⟩
  · rw [named] at answered
    cases answered
    exact ⟨evaluation, edits, parsed, evaluated, named, edited⟩
  · rw [named] at answered
    cases answered

end Trigger

end DueTasks
