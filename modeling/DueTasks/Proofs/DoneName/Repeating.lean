import DueTasks.Proofs.DoneName.Recurring
import DueTasks.Proofs.Registry.Steady

/-! Tasks that are done twice.
Where every question has one answer, a done name is evaluated as the name before was, up to its
date. Whatever is written anew in it stands there already, so that its own done name is the same
name.
-/

namespace DueTasks

open Text Parsed

namespace Trigger

open Asking Reply

-----------------------------------------------------------------------------------------
-- Changes that change nothing
-----------------------------------------------------------------------------------------

/-- A text stays the same if each stretch is replaced with itself, by induction over the edits. -/
theorem eq_of_edited {whole old new : List Char} {edits : List Edit} {offset : Nat}
    (h : Edited offset old edits new) (place : Cursor.IsIn whole ⟨offset, old⟩)
    (each : ∀ edit ∈ edits, slice whole edit.span = edit.text)
    : new = old := by
  induction h with
  | kept offset text => rfl
  | @edit offset gap stretch text rest new edits later ih =>
      obtain ⟨here, others⟩ := List.forall_mem_cons.mp each
      have front : Passage (gap ++ stretch) ⟨offset, gap ++ stretch ++ rest⟩
          ⟨offset + byteLength (gap ++ stretch), rest⟩ := .intro offset rest
      rw [ih (front.isIn place) others]
      rw [List.append_assoc gap] at place
      have same := place.slice_eq
      rw [← byteLength_append] at same
      obtain rfl : stretch = text := same.symm.trans here
      rfl

variable {σ : Type} {t : Trigger} {context : Context σ} {evaluation : Evaluation}
  {changes : List Change} {state after : σ} {edits : List Edit} {chars : List Char}

/-- Dates that stand in a text already are made there by replacing them with themselves. -/
theorem Makes.unchanged (h : Makes context evaluation changes state edits after)
    (each
      : ∀ change ∈ changes,
          ∃ token value, change = .date token value ∧ slice chars token = value.chars)
    : ∀ edit ∈ edits, slice chars edit.span = edit.text := by
  induction h with
  | none state => exact List.forall_mem_nil _
  | date token value later ih =>
      obtain ⟨⟨_, _, ⟨rfl, rfl⟩, here⟩, others⟩ := List.forall_mem_cons.mp each
      exact List.forall_mem_cons.mpr ⟨here, ih others⟩
  | helper token whole period known ran later ih =>
      obtain ⟨⟨_, _, ⟨⟩, -⟩, -⟩ := List.forall_mem_cons.mp each

/-- A name in which all dates stand already that its repeats ask for keeps its text. -/
theorem ReadFrom.doneNode_unchanged {name : String} {d : Cursor} (h : t.ReadFrom name d)
    (known : ∀ start ∈ t.root.helperStarts, (evaluation.notes.calls.lookup start).isSome = true)
    (each
      : ∀ change ∈ t.root.changes context.now (pending context.now evaluation),
          ∃ token value, change = .date token value ∧ slice name.toList token = value.chars)
    (state : σ)
    : ∃ after,
        (joined (t.doneNode context evaluation t.root) (pure (t.copy t.ending))).outcome state
          = (.ok name.toList, after) := by
  rcases h.rewrites context known state with ⟨edits, new, after, made, answered, edited⟩
    | ⟨error, after, failed, -⟩
  · obtain rfl := eq_of_edited edited (Cursor.isIn_start _) (made.unchanged each)
    exact ⟨after, answered⟩
  · obtain ⟨token, whole, period, member⟩ := failed.exists_change
    obtain ⟨_, _, ⟨⟩, -⟩ := each _ member

/-- A name in which all dates stand already that its repeats ask for is its own done name, unless it
cannot repeat.
-/
theorem ReadFrom.doneName_unchanged {name : String} {d : Cursor} (h : t.ReadFrom name d)
    (known : ∀ start ∈ t.root.helperStarts, (evaluation.notes.calls.lookup start).isSome = true)
    (each
      : ∀ change ∈ t.root.changes context.now (pending context.now evaluation),
          ∃ token value, change = .date token value ∧ slice name.toList token = value.chars)
    (repeats : t.hasRepeat = true → evaluation.canRepeat = true) (state : σ)
    : ((t.doneName context evaluation).outcome state).1 = .ok name := by
  obtain ⟨after, written⟩ := h.doneNode_unchanged known each state
  cases once : t.hasRepeat with
  | false =>
      rw [doneName, once, ← h.source]
      rfl
  | true =>
      rw [doneName_eq_joined context once (repeats once), outcome_map, written]
      exact congrArg Except.ok (String.ofList_toList ..)

-----------------------------------------------------------------------------------------
-- Done names of done names
-----------------------------------------------------------------------------------------

section

variable {σ : Type} {t : Trigger} {context : Context σ} {evaluation : Evaluation} {name : String}
  {state later : σ}

/-- A task that repeats and has a done name can repeat. -/
theorem canRepeat_of_doneName
    (named : (t.doneName context evaluation).outcome state = (.ok name, later))
    (repeats : t.hasRepeat = true)
    : evaluation.canRepeat = true := by
  refine Decidable.byContradiction fun stays => ?_
  rw [doneName, repeats, Bool.eq_false_iff.mpr stays] at named
  cases named

/-- While a task is pending no date in it is moved. -/
theorem pending_eq_false_of_changes {node : Node} {change : Change} {pending : Bool}
    (still : ∀ inner ∈ node.outer, inner.runsAgain = false)
    (member : change ∈ node.changes context.now pending)
    : pending = false := by
  obtain ⟨token, suffix, next, moved, -⟩ := Node.exists_date still member
  refine Bool.eq_false_iff.mpr fun waits => ?_
  rw [waits, Suffix.nextDate?_pending] at moved
  cases moved

/-- In a done name whose new dates can be read, the trigger comes again. -/
theorem ReadFrom.exists_recurs {text : String} {d : Cursor} (h : t.ReadFrom text d)
    (known : ∀ start ∈ t.root.helperStarts, (evaluation.notes.calls.lookup start).isSome = true)
    (moving : pending context.now evaluation = false)
    (writable
      : ∀ change ∈ t.root.changes context.now (pending context.now evaluation), change.IsWritable)
    (named : (t.doneName context evaluation).outcome state = (.ok name, later))
    : ∃ (t' : Trigger) (d' : Cursor),
        t'.source = name
        ∧ t'.ReadFrom t'.source d'
        ∧ Recurs t t'.source context.now t.root t'.root := by
  have place : (Cursor.start text.toList).IsIn t.source.toList := by
    rw [h.source]
    exact Cursor.isIn_start _
  obtain ⟨old, new, passage, done, stands⟩ := h.reads.redone place rfl writable
  have carries := h.reads.carries place moving rfl writable (done state)
  have chars := h.toList_doneName known done named
  obtain ⟨root, again, read⟩ := carries d.rest (.refl _) name 0 (chars ▸ Cursor.isIn_start _)
  refine ⟨⟨name, root, ⟨0 + byteLength new, name.utf8ByteSize⟩⟩, ⟨0 + byteLength new, d.rest⟩, rfl,
    ⟨?_, h.stop.elsewhere _, rfl, rfl⟩, again⟩
  rw [chars]
  exact read

end

/-- A trigger that comes again is evaluated as before, up to its date, and its name is its own done
name.
-/
theorem Recurs.doneName {σ : Type} {t t' : Trigger} {context : Context σ} {evaluation : Evaluation}
    {before after : σ} {d : Cursor} (again : Recurs t t'.source context.now t.root t'.root)
    (h : t'.ReadFrom t'.source d) (steady : context.Steady)
    (evaluated : (t.evaluate context).outcome before = (.ok evaluation, after))
    (still : ∀ node ∈ t.root.outer, node.runsAgain = false)
    (canRepeat : evaluation.canRepeat = true)
    : ∃ evaluation',
        (∀ state, ((t'.evaluate context).outcome state).1 = .ok evaluation')
        ∧ ∀ state, ((t'.doneName context evaluation').outcome state).1 = .ok t'.source := by
  have matched : Matches Eq (fun _ _ => True) (t.evaluate context) (t'.evaluate context) :=
    (again.evaluate rfl .root).bind fun _ _ _ => .pure trivial
  obtain ⟨answers, -⟩ := matched before before rfl
  rw [evaluated] at answers
  generalize answered : ((t'.evaluate context).outcome before).1 = answer at answers
  cases answers with
  | @ok _ evaluation' _ =>
      have known := evaluate_knows (parse_eq_ok.mpr ⟨d, h⟩) before evaluation' answered
      have repeatable := evaluate_canRepeat before evaluation' answered
      have repeatable' := evaluate_canRepeat before evaluation (by rw [evaluated])
      rw [declaredIds_isEmpty_eq] at repeatable repeatable'
      rw [again.declares, ← repeatable', canRepeat] at repeatable
      refine ⟨evaluation', fun state => ?_, fun state => ?_⟩
      · rw [(evaluate_steady steady t').answer state before, answered]
      · exact h.doneName_unchanged known (again.changes still _) (fun _ => repeatable)
          state

/-- A done name has itself as its done name on the same day: where every question has one answer, it
is read and evaluated, and nothing in it changes. No helper call may repeat outside of arguments,
and the new dates must have years that names can hold.
-/
theorem doneName_doneName (context : Context σ) (steady : context.Steady) {text name : String}
    {t : Trigger} {evaluation : Evaluation} {before after state later : σ}
    (parsed : parse text = .ok t)
    (evaluated : (t.evaluate context).outcome before = (.ok evaluation, after))
    (named : (t.doneName context evaluation).outcome state = (.ok name, later))
    (still : ∀ node ∈ t.root.outer, node.runsAgain = false)
    (writable
      : ∀ token value,
          .date token value
            ∈ t.root.changes context.now (t.root.joins && decide (context.now < evaluation.date))
          → 0 ≤ value.year ∧ value.year ≤ 9999)
    : ∃ t' evaluation',
        parse name = .ok t'
        ∧ (∀ state, ((t'.evaluate context).outcome state).1 = .ok evaluation')
        ∧ ∀ state, ((t'.doneName context evaluation').outcome state).1 = .ok name := by
  obtain ⟨d, h⟩ := parse_eq_ok.mp parsed
  have answered : ((t.evaluate context).outcome before).1 = .ok evaluation := by rw [evaluated]
  have known := evaluate_knows parsed before evaluation answered
  rw [← pending_of_evaluated answered] at writable
  have repeatable := canRepeat_of_doneName named
  by_cases none : t.root.changes context.now (pending context.now evaluation) = []
  · -- the name has not changed at all
    have same := h.doneName_unchanged known (none ▸ List.forall_mem_nil _) repeatable
    have first := same state
    rw [named] at first
    cases first
    refine ⟨t, evaluation, parsed, fun state' => ?_, same⟩
    rw [(evaluate_steady steady t).answer state' before, evaluated]
  · obtain ⟨change, member⟩ := List.exists_mem_of_ne_nil _ none
    have moving := pending_eq_false_of_changes still member
    have repeats : t.hasRepeat = true :=
      Decidable.byContradiction fun once =>
        none (Node.changes_eq_nil _ _ _ (Bool.eq_false_iff.mpr once))
    have dates : ∀ change ∈ t.root.changes context.now (pending context.now evaluation),
        change.IsWritable := by
      intro change member
      obtain ⟨token, suffix, next, -, rfl⟩ := Node.exists_date still member
      exact writable token next member
    obtain ⟨t', d', rfl, h', again⟩ := h.exists_recurs known moving dates named
    obtain ⟨evaluation', evaluated', same⟩ :=
      again.doneName h' steady evaluated still (repeatable repeats)
    exact ⟨t', evaluation', parse_eq_ok.mpr ⟨d', h'⟩, evaluated', same⟩

/-- A context answers the same, whatever runs it has kept. -/
theorem recording_steady (now : Date) (line : String) : (recording now line).Steady where
  today := .pure _
  resolve _ := .pure _
  findHelper _ := .pure _
  runHelper _ := (Steady.ofState fun _ _ => rfl).bind fun _ => .pure _
  callBuiltin _ _ := .pure _
  ownLines := .pure _
  ownTarget := .pure _
  ownPath := .pure _

/-- The date that has become the date of the day stays what it is. -/
theorem doneName_doneName_of_repeatingDate
    : let context := recording (.ofParts 2021 5 6) "2022-01-01"
      context.Steady
      ∧ parse "2020P & now() - t" = .ok repeatingDate
      ∧ (repeatingDate.evaluate context).outcome [] = (.ok repeatingDateEvaluation, [])
      ∧ (repeatingDate.doneName context repeatingDateEvaluation).outcome []
        = (.ok "2021-05-06P & now() - t", [])
      ∧ ∃ t' evaluation',
        parse "2021-05-06P & now() - t" = .ok t'
        ∧ (∀ state, ((t'.evaluate context).outcome state).1 = .ok evaluation')
        ∧ ∀ state,
            ((t'.doneName context evaluation').outcome state).1
              = .ok "2021-05-06P & now() - t" := by
  intro context
  have steady : context.Steady := recording_steady _ _
  have parsed : parse "2020P & now() - t" = .ok repeatingDate :=
    parse_eq_ok.mpr ⟨_, repeatingDate_readFrom⟩
  have evaluated
      : (repeatingDate.evaluate context).outcome [] = (.ok repeatingDateEvaluation, []) := rfl
  have named := doneName_repeatingDate
  refine ⟨steady, parsed, evaluated, named,
    doneName_doneName context steady parsed evaluated named (by decide) ?_⟩
  rw [changes_repeatingDate]
  intro token value member
  cases List.mem_singleton.mp member
  decide

end Trigger

end DueTasks
